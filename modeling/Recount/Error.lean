import Recount.Count.Basic
import Recount.File.Defect
import Recount.Sql.Defect

/-!
# Errors

Why an operation is refused or fails, as causes. Each cause belongs to a class, and the class
decides how the error is reported.
-/

namespace Recount

/-- Something that was named and does not exist. -/
inductive Missing where
  | count (id : Id)
  | item (id : Id)
  | report (id : Id)
  | mapping (id : Id)
  | connection (id : Id)
deriving DecidableEq, Repr

/-- The wording of what is missing. -/
def Missing.message : Missing → String
  | count id => "Count " ++ id.text ++ " not found"
  | item id => "Count item " ++ id.text ++ " not found"
  | report id => "Variance report " ++ id.text ++ " not found"
  | mapping id => "Mapping config " ++ id.text ++ " not found"
  | connection id => "ERP connection " ++ id.text ++ " not found"

/-- Something that is there already, or that was changed by another. -/
inductive Clash where
  | busyWarehouse
  | movedVersion (number : String) (version : Int)
  | otherVersion (version : Int) (number : String) (current : Int)
  | existingItem (code : String) (version : Int)
  | existingItemAtLocation (code : String) (version : Int)
  | activeMapping
deriving DecidableEq, Repr

/-- The wording of a clash. -/
def Clash.message : Clash → String
  | busyWarehouse => "Another count is already active or on hold for this warehouse"
  | movedVersion number version =>
    "Count " ++ number ++ " moved to version " ++ toString version ++ " concurrently"
  | otherVersion version number current =>
    "Item belongs to version " ++ toString version ++ ", " ++ number ++ " is at version " ++
      toString current
  | existingItem code version =>
    "Item " ++ code ++ " already exists in version " ++ toString version
  | existingItemAtLocation code version =>
    "Item " ++ code ++ " already exists at this location in version " ++ toString version
  | activeMapping => "Another mapping is already active for this dataset type"

/-- A fault of what was given. -/
inductive InputFault where
  | query (defect : Sql.Defect)
  | file (defect : File.Defect)
  | emptyTarget
  | noFieldMappings
  | negativeQuantity
  | itemOfOtherVersion (version current : Int)
  | notCurrentVersion (version current : Int)
  | noQuantityField
  | noCodeField
  | noTarget
  | noConnection
  | noPreviewConnection
  | noPreviewSource
  | notAnId (field : String)
  | brokenUpload
  | fileTooLarge (limit : Nat)
  | noFile
deriving DecidableEq, Repr

/-- The wording of a fault. -/
def InputFault.message : InputFault → String
  | query defect => defect.message
  | file defect => defect.message
  | emptyTarget => "Field mapping target must not be empty"
  | noFieldMappings => "At least one field mapping required"
  | negativeQuantity => "Counted quantity must not be negative"
  | itemOfOtherVersion version current =>
    "Item belongs to version " ++ toString version ++ ", current version is " ++ toString current
  | notCurrentVersion version current =>
    "Version " ++ toString version ++ " is not the current version " ++ toString current
  | noQuantityField => "Active STOCK mapping has no systemQty field"
  | noCodeField => "Active STOCK mapping has no itemCode field"
  | noTarget => "No write-back target given and no active STOCK mapping"
  | noConnection => "No ERP connection available for write-back"
  | noPreviewConnection => "erp_connection_id is required for ad-hoc previews"
  | noPreviewSource => "One of mapping_id, spec or template is required"
  | notAnId field => field ++ " must be a UUID"
  | brokenUpload => "Invalid multipart body"
  | fileTooLarge limit => "File exceeds the " ++ toString limit ++ " byte upload limit"
  | noFile => "Missing file field"

/-- A field of a request that breaks a rule: the name of the field, and the rule's message. -/
structure FieldFault where
  field : String
  message : String
deriving DecidableEq, Repr

/-- The wording of a rule that is known by its code only. -/
def FieldFault.ofCode (field code : String) : FieldFault := ⟨field, "Validation error: " ++ code⟩

/-- The line that reports a fault. -/
def FieldFault.line (f : FieldFault) : String := f.field ++ ": " ++ f.message

/-- Enters a line at its place. -/
def insertLine (line : String) : List String → List String
  | [] => [line]
  | l :: rest => if line < l then line :: l :: rest else l :: insertLine line rest

/-- The wording of all faults of a request, a line each in ascending order. -/
def FieldFault.lines (faults : List FieldFault) : String :=
  Text.join "\n" (faults.foldl (fun lines f => insertLine f.line lines) [])

/-- A fault of a connection to a planning system. -/
inductive ErpFault where
  /-- What the system itself reports. -/
  | reported (message : String)
  | connecting (cause : String)
  | querying (cause : String)
  | notOpen
deriving DecidableEq, Repr

/-- The wording of a fault. -/
def ErpFault.message : ErpFault → String
  | reported message => message
  | connecting cause => "Failed to connect to ERP database: " ++ cause
  | querying cause => "ERP query failed: " ++ cause
  | notOpen => "ERP connection is not open"

/-- A fault of the database that holds the counts. -/
inductive DatabaseFault where
  /-- The server refused a statement. -/
  | server (code message : String)
  | noRow
  /-- A column of a row does not hold what is expected. -/
  | column (name reason : String)
  | closed
deriving DecidableEq, Repr

/-- The wording of a fault. -/
def DatabaseFault.message : DatabaseFault → String
  | server _ message => "error returned from database: " ++ message
  | noRow => "no rows returned by a query that expected to return at least one row"
  | column name reason =>
    "error occurred while decoding column \"" ++ name ++ "\": " ++ reason
  | closed => "attempted to acquire a connection on a closed pool"

/-- The code by which a server refuses a second row with a unique key. -/
def DatabaseFault.uniqueViolation : String := "23505"

/-- Why an operation fails. -/
inductive Error where
  | invalid (fault : InputFault)
  | fields (faults : List FieldFault)
  | missing (what : Missing)
  | wrongState (expected found : String)
  | clash (clash : Clash)
  | erp (fault : ErpFault)
  | database (fault : DatabaseFault)
  | name (unknown : UnknownName)
deriving DecidableEq, Repr

/-- How errors are reported. -/
inductive ErrorClass where
  | input
  | fields
  | missing
  | state
  | clash
  | erp
  | unauthorized
  | forbidden
  | token
  | database
  | internal
deriving DecidableEq, Repr

namespace ErrorClass

/-- The word by which clients tell errors apart. -/
def kind : ErrorClass → String
  | input | fields => "validation"
  | missing => "not_found"
  | state => "invalid_state"
  | clash => "conflict"
  | erp => "external_system"
  | unauthorized | token => "unauthorized"
  | forbidden => "forbidden"
  | database | internal => "internal"

/-- The status of an answer. -/
def status : ErrorClass → Nat
  | input | fields => 400
  | missing => 404
  | state | clash => 409
  | erp => 502
  | unauthorized | token => 401
  | forbidden => 403
  | database | internal => 500

/-- What stands before the detail of an error. -/
def heading : ErrorClass → String
  | input => "Invalid input: "
  | fields => "Validation error: "
  | missing => "Not found: "
  | state => "Invalid state: "
  | clash => "Conflict: "
  | erp => "External system error: "
  | unauthorized => "Unauthorized"
  | forbidden => "Forbidden: "
  | token => "JWT error: "
  | database => "Database error: "
  | internal => "Internal server error: "

end ErrorClass

/-- An error as it is reported: its class, its detail, and for a wrong state what was expected and
what was found. -/
structure Refusal where
  errorClass : ErrorClass
  detail : String
  states : Option (String × String) := none

namespace Refusal

/-- The refusal of a wrong state. -/
def ofStates (expected found : String) : Refusal :=
  ⟨.state, "expected " ++ expected ++ ", found " ++ found, some (expected, found)⟩

/-- The whole wording. -/
def message (r : Refusal) : String := r.errorClass.heading ++ r.detail

/-- The wording for clients, from whom the inside of a failure is kept. -/
def publicMessage (r : Refusal) : String :=
  match r.errorClass with
  | .database | .internal => "Internal server error"
  | .token => "Invalid token"
  | _ => r.message

/-- The body of the answer. -/
def body (r : Refusal) : Json :=
  let states := match r.states with
    | some (expected, found) => [("expected", .str expected), ("actual", .str found)]
    | none => []
  Json.ofMembers ([("error", .str r.publicMessage), ("kind", .str r.errorClass.kind),
    ("status", .nat r.errorClass.status)] ++ states)

end Refusal

/-- How an error is reported. -/
def Error.refusal : Error → Refusal
  | invalid fault => ⟨.input, fault.message, none⟩
  | fields faults => ⟨.fields, FieldFault.lines faults, none⟩
  | missing what => ⟨.missing, what.message, none⟩
  | wrongState expected found => .ofStates expected found
  | clash c => ⟨.clash, c.message, none⟩
  | erp fault => ⟨.erp, fault.message, none⟩
  | database fault => ⟨.database, fault.message, none⟩
  | name unknown => ⟨.internal, unknown.message, none⟩

/-- The wording of an error. -/
def Error.message (e : Error) : String := e.refusal.message

/-- A defect of a query as an error. -/
def Error.ofQuery (result : Except Sql.Defect α) : Except Error α :=
  result.mapError fun defect => .invalid (.query defect)

/-- A defect of a file as an error. -/
def Error.ofFile (result : Except File.Defect α) : Except Error α :=
  result.mapError fun defect => .invalid (.file defect)

end Recount
