import Recount.Counting.Recording
import Recount.Counting.Review
import Recount.Erp.Preview
import Recount.Http.Encoded
import Recount.Http.Resource
import Recount.Http.Upload
import Recount.Loading.Import
import Recount.Mapping.Manage
import Recount.WriteBack.Send

/-!
# Operations

What a request asks for, decoded as a whole: its method, the identifiers in its path, its query,
and its body, in this order.
-/

namespace Recount.Http

/-- Why a request is not understood. -/
inductive RequestFault where
  | methodNotAllowed
  | unreadablePath
  | unreadableQuery
  | otherMediaType
  | tooLarge
  | notJson
  | unfitJson
  | noForm
deriving DecidableEq, Repr

/-- The status that reports a fault. -/
def RequestFault.status : RequestFault → Nat
  | methodNotAllowed => 405
  | unreadablePath | unreadableQuery | notJson | noForm => 400
  | otherMediaType => 415
  | tooLarge => 413
  | unfitJson => 422

/-- What a request asks for. -/
inductive Operation where
  | createCount (r : CreateCount)
  | listCounts (status : Option Status)
  | getCount (count : Id)
  | deleteCount (count : Id)
  | changeStage (count : Id) (action : StageAction)
  | load (count : Id) (r : Loading.LoadRequest)
  | listItems (count : Id) (version : Option Int)
  | addItem (count : Id) (r : AddItem)
  | updateItem (count item : Id) (r : RecordQuantity)
  | versionHistory (count : Id)
  | openRecount (count : Id)
  | submit (count : Id) (version : Int) (r : SubmitEntries)
  | listReports (count : Id) (version : Option Int)
  | resolveReport (count report : Id) (r : ResolveReport)
  | send (count : Id) (r : WriteBack.SendRequest)
  | listAttempts (count : Id)
  | importItems (count : Id) (formSize : Nat) (parts : List Part)
  | exportItems (count : Id) (version : Option Int) (mapping : Option Id)
  | createMapping (r : CreateMapping)
  | listMappings (dataset : Option Dataset)
  | getMapping (mapping : Id)
  | updateMapping (mapping : Id) (r : UpdateMapping)
  | setActive (mapping : Id) (active : Bool)
  | testConnection (connection : Id)
  | catalog (connection : Id)
  | preview (r : Erp.PreviewRequest)

namespace Operation

/-- The largest JSON body that is read, in bytes. -/
def maxBodySize : Nat := 2 * 1024 * 1024

/-- The identifier that a segment of a path is. -/
def pathId (segment : String) : Except RequestFault Id :=
  ((percentDecode? segment).bind Id.parse?).elim (.error .unreadablePath) .ok

/-- The number that a segment of a path is. -/
def pathNumber (segment : String) : Except RequestFault Int :=
  ((percentDecode? segment).bind Text.int32?).elim (.error .unreadablePath) .ok

/-- The value of a field of the query, which may be given once. -/
def queryField (read : String → Option α) (name query : String) :
    Except RequestFault (Option α) :=
  match (queryFields query).filter (·.1 == name) with
  | [] => .ok none
  | [(_, value)] => (read value).elim (.error .unreadableQuery) fun a => .ok (some a)
  | _ => .error .unreadableQuery

/-- The value of a JSON body. -/
def jsonBody (decode : Json.Decoder α) (r : Request) : Except RequestFault α :=
  match r.body, r.contentType.any isJsonType with
  | .text content, true =>
    if maxBodySize < content.utf8ByteSize then .error .tooLarge
    else (Json.Decode.ofText decode content).mapError fun
      | .malformed => .notJson
      | .unfit => .unfitJson
  | _, _ => .error .otherMediaType

/-- The operation of a resource that only one method is meant for. -/
def only (allowed given : Method) (operation : Except RequestFault Operation) :
    Except RequestFault Operation :=
  if given = allowed then operation else .error .methodNotAllowed

/-- The operation on a count itself. -/
def ofCount (id : String) : Method → Except RequestFault Operation
  | .get => getCount <$> pathId id
  | .delete => deleteCount <$> pathId id
  | _ => .error .methodNotAllowed

/-- The operation on the collection of counts. -/
def ofCounts (r : Request) : Method → Except RequestFault Operation
  | .get => listCounts <$> queryField Status.naming.find? "status" r.query
  | .post => createCount <$> jsonBody CreateCount.decode r
  | _ => .error .methodNotAllowed

/-- The operation on the items of a count. -/
def ofItems (r : Request) (id : String) : Method → Except RequestFault Operation
  | .get => listItems <$> pathId id <*> queryField Text.int32? "version" r.query
  | .post => addItem <$> pathId id <*> jsonBody AddItem.decode r
  | _ => .error .methodNotAllowed

/-- The operation on the versions of a count. -/
def ofVersions (id : String) : Method → Except RequestFault Operation
  | .get => versionHistory <$> pathId id
  | .post => openRecount <$> pathId id
  | _ => .error .methodNotAllowed

/-- The operation on the attempts to write a count back. -/
def ofSync (r : Request) (id : String) : Method → Except RequestFault Operation
  | .get => listAttempts <$> pathId id
  | .post => send <$> pathId id <*> jsonBody WriteBack.SendRequest.decode r
  | _ => .error .methodNotAllowed

/-- The operation on the collection of mappings. -/
def ofMappings (r : Request) : Method → Except RequestFault Operation
  | .get => listMappings <$> queryField Dataset.naming.find? "dataset_type" r.query
  | .post => createMapping <$> jsonBody CreateMapping.decode r
  | _ => .error .methodNotAllowed

/-- The operation on a mapping. -/
def ofMapping (r : Request) (id : String) : Method → Except RequestFault Operation
  | .get => getMapping <$> pathId id
  | .put => updateMapping <$> pathId id <*> jsonBody UpdateMapping.decode r
  | _ => .error .methodNotAllowed

/-- The import of the form that a request carries. -/
def ofForm (id : String) : Body → Except RequestFault Operation
  | .form size parts => (importItems · size parts) <$> pathId id
  | .text _ => do
    let _ ← pathId id
    .error .noForm

/-- The operation of a request on a resource of the interface. A request for the head of a
response is one for the response. -/
def ofRequest (r : Request) (resource : Resource) : Except RequestFault Operation :=
  let method := if r.method = .head then .get else r.method
  match resource with
  | .health | .metrics => .error .methodNotAllowed
  | .mappings => ofMappings r method
  | .mapping id => ofMapping r id method
  | .mappingActivity id active => only .post method ((setActive · active) <$> pathId id)
  | .connectionTest id => only .post method (testConnection <$> pathId id)
  | .connectionCatalog id => only .get method (catalog <$> pathId id)
  | .preview => only .post method (preview <$> jsonBody Erp.PreviewRequest.decode r)
  | .counts => ofCounts r method
  | .count id => ofCount id method
  | .stage id action => only .post method ((changeStage · action) <$> pathId id)
  | .loading id =>
    only .post method (load <$> pathId id <*> jsonBody Loading.LoadRequest.decode r)
  | .items id => ofItems r id method
  | .item id item => only .put method
    (updateItem <$> pathId id <*> pathId item <*> jsonBody RecordQuantity.decode r)
  | .versions id => ofVersions id method
  | .submission id version => only .post method
    (submit <$> pathId id <*> pathNumber version <*> jsonBody SubmitEntries.decode r)
  | .reports id =>
    only .get method (listReports <$> pathId id <*> queryField Text.int32? "version" r.query)
  | .resolution id report => only .post method
    (resolveReport <$> pathId id <*> pathId report <*> jsonBody ResolveReport.decode r)
  | .sync id => ofSync r id method
  | .importing id => only .post method (ofForm id r.body)
  | .exporting id => only .get method
    (exportItems <$> pathId id <*> queryField Text.int32? "version" r.query
      <*> queryField Id.parse? "mapping_id" r.query)

end Operation
end Recount.Http
