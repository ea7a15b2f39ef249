import Recount.Error
import Recount.File.Table

/-!
# Requests and responses

What arrives from a client, and what is answered.
-/

namespace Recount.Http

/-- A method of a request. -/
inductive Method where
  | get
  | head
  | post
  | put
  | delete
  | options
  | other
deriving DecidableEq, Repr

/-- The method with a name. -/
def Method.ofName : String → Method
  | "GET" => get
  | "HEAD" => head
  | "POST" => post
  | "PUT" => put
  | "DELETE" => delete
  | "OPTIONS" => options
  | _ => other

/-- A name that a method may have: letters, digits and some marks. -/
def Method.isName (s : String) : Bool :=
  !s.isEmpty && s.toList.all fun c => c.isAlphanum || "!#$%&'*+-.^_`|~".toList.contains c

/-- A text that may be the value of a header: it has no controls but tabulators. -/
def isHeaderValue (s : String) : Bool :=
  s.toList.all fun c => c == '\t' || (0x20 ≤ c.toNat && c.toNat ≠ 0x7F)

/-- A part of a form. -/
structure Part where
  name : Option String
  filename : Option String
  content : File.Content

/-- The body of a request: a text, or a form with the number of bytes that it takes. -/
inductive Body where
  | text (content : String)
  | form (size : Nat) (parts : List Part)

/-- A request. -/
structure Request where
  method : Method
  /-- The address without its query, as it is written. -/
  path : String
  query : String
  authorization : Option String
  contentType : Option String
  origin : Option String
  body : Body

/-- What a response carries. -/
inductive Payload where
  | json (value : Json)
  | csv (content : String) (disposition : String)

/-- A response. -/
structure Response where
  status : Nat
  payload : Option Payload := none
  /-- The origin that is told that it may read the response. -/
  allowedOrigin : Option String := none

namespace Response

/-- A response without a body. -/
def ofStatus (status : Nat) : Response := { status }

/-- A response with a JSON body. -/
def ofJson (status : Nat) (value : Json) : Response := { status, payload := some (.json value) }

/-- The response that reports an error. -/
def ofError (e : Error) : Response := ofJson e.refusal.errorClass.status e.refusal.body

end Response

/-- The type of a JSON body, with or without parameters. -/
def isJsonType (contentType : String) : Bool :=
  let essence := (Text.trim (((Text.split ';' contentType).head?).getD "")).map Char.toLower
  essence == "application/json" ||
    (Text.startsWith essence "application/" && Text.endsWith essence "+json")

end Recount.Http
