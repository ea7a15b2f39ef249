import Recount.Http.Operation
import Recount.Token

/-!
# The interface

A request is answered in steps: the resource that it names is found, the token is checked, the
request is decoded, and the operation is carried out for the tenant and the user of the token.
-/

namespace Recount.Http

/-- What the interface works with. -/
structure Service where
  settings : Settings
  connections : Erp.Connections

namespace Service

/-- What loads work with. -/
def sources (s : Service) : Loading.Sources := ⟨s.connections, s.settings.load⟩

/-- The response with a value of an action. -/
def respond (status : Nat) (encode : α → Json) (action : Action α) : Action Response := do
  return .ofJson status (encode (← action))

/-- The response that makes a new value known. -/
def created (encode : α → Json) : Action α → Action Response := respond 201 encode

/-- The response that shows a value. -/
def shown (encode : α → Json) : Action α → Action Response := respond 200 encode

/-- Imports the file of a form. -/
def importForm (tenant count : Id) (size : Nat) (parts : List Part) :
    Action Loading.ImportSummary := do
  let upload ← Action.check ((Upload.ofForm size parts).mapError .invalid)
  Loading.importItems tenant count upload.content upload.filename upload.location upload.mapping

/-- The response with the items of a count as separated values. -/
def exportResponse (count : Id) (content : String) : Response where
  status := 200
  payload := some (.csv content ("attachment; filename=\"count-" ++ count.text ++ ".csv\""))

/-- Changes the stage of a count. -/
def changeStage (tenant count actor : Id) : StageAction → Action Count
  | .change change => Counting.changeStage tenant count change actor
  | .complete => Counting.completeCount tenant count actor

/-- Carries out an operation for the owner of a token. -/
def perform (s : Service) (claims : Claims) : Operation → Action Response
  | .createCount r => created Count.toJson (Counting.createCount claims.tenant r claims.user)
  | .listCounts status =>
    shown (Json.ofList Count.toJson) (Counting.listCounts claims.tenant status)
  | .getCount count => shown Count.toJson (Counting.getCount claims.tenant count)
  | .deleteCount count => do
    Counting.deleteCount claims.tenant count
    return .ofStatus 204
  | .changeStage count action =>
    shown Count.toJson (changeStage claims.tenant count claims.user action)
  | .load count r =>
    shown Loading.Summary.toJson (Loading.loadItems s.sources claims.tenant count r)
  | .listItems count version =>
    shown (Json.ofList Item.toJson) (Counting.listItems claims.tenant count version)
  | .addItem count r => created Item.toJson (Counting.addItem claims.tenant count r claims.user)
  | .updateItem count item r =>
    shown Item.toJson (Counting.updateItem claims.tenant count item r claims.user)
  | .versionHistory count =>
    shown Counting.VersionHistory.toJson (Counting.versionHistory claims.tenant count)
  | .openRecount count =>
    shown Counting.RecountOutcome.toJson (Counting.openRecount claims.tenant count claims.user)
  | .submit count version r =>
    shown Counting.SubmitSummary.toJson
      (Counting.submit claims.tenant count version r claims.user)
  | .listReports count version =>
    shown (Json.ofList Report.toJson) (Counting.listReports claims.tenant count version)
  | .resolveReport count report r =>
    shown Report.toJson (Counting.resolveReport claims.tenant count report r claims.user)
  | .send count r =>
    let default := s.settings.load.connection.map (·.id)
    shown WriteBack.SendOutcome.toJson
      (WriteBack.send s.connections default claims.tenant count r claims.user)
  | .listAttempts count =>
    shown (Json.ofList Attempt.toJson) (WriteBack.listAttempts claims.tenant count)
  | .importItems count size parts =>
    shown Loading.ImportSummary.toJson (importForm claims.tenant count size parts)
  | .exportItems count version mapping =>
    exportResponse count <$> Loading.exportItems claims.tenant count version mapping
  | .createMapping r =>
    created Mapping.toJson (Mapping.create s.connections claims.tenant r claims.user)
  | .listMappings dataset =>
    shown (Json.ofList Mapping.toJson) (Mapping.list claims.tenant dataset)
  | .getMapping mapping => shown Mapping.toJson (Mapping.get claims.tenant mapping)
  | .updateMapping mapping r =>
    shown Mapping.toJson (Mapping.update s.connections claims.tenant mapping r)
  | .setActive mapping active =>
    shown Mapping.toJson (Mapping.setActive claims.tenant mapping active)
  | .testConnection connection =>
    shown Erp.TestResult.toJson (Erp.testConnection s.connections connection)
  | .catalog connection =>
    shown (Erp.catalogJson connection) (Erp.fetchCatalog s.connections connection)
  | .preview r => shown Erp.Preview.toJson (Erp.preview s.connections claims.tenant r)

/-- The program that answers a request with a response of its own. -/
abbrev Answering := Program Recount.Request Recount.Request.Answer Response

/-- Answers whether the service is alive. -/
def health : Answering :=
  .ask .now fun time => .done (.ofJson 200 (Json.ofMembers
    [("status", .str "ok"), ("service", .str "stocktake"), ("timestamp", time.toJson)]))

/-- Answers a request for a public resource. -/
def answerPublic (r : Request) (resource : Resource) : Answering :=
  match r.method, resource with
  | .get, .health | .head, .health => health
  | .get, .metrics | .head, .metrics => .done (.ofStatus 200)
  | _, _ => .done (.ofStatus 405)

/-- Carries out a request for the owner of a token. -/
def answerClaims (s : Service) (r : Request) (resource : Resource) (claims : Claims) : Answering :=
  match Operation.ofRequest r resource with
  | .error fault => .done (.ofStatus fault.status)
  | .ok operation => (s.perform claims operation).run.bind fun
    | .ok response => .done response
    | .error e => .done (.ofError e)

/-- Answers a request for a resource that needs a token. -/
def answerPrivate (s : Service) (r : Request) (resource : Resource) : Answering :=
  match r.authorization.bind Token.ofHeader? with
  | none => .done (.ofStatus 401)
  | some token => .ask .now fun time =>
    match Token.check s.settings.secret token time.seconds.toNat with
    | .error _ => .done (.ofStatus 401)
    | .ok claims => s.answerClaims r resource claims

/-- Answers a request by the resource that it names. -/
def answerResource (s : Service) (r : Request) : Answering :=
  match Resource.ofPath? r.path with
  | none => .done (.ofStatus 404)
  | some resource => if resource.isPublic then answerPublic r resource else s.answerPrivate r resource

/-- The response without what it carries. -/
def withoutBody (response : Response) : Response :=
  { response with
    payload := match response.payload with
      | some (.csv _ disposition) => some (.csv "" disposition)
      | _ => none }

/-- The origin of a request, if it may read the response. -/
def allowedOrigin (s : Service) (r : Request) : Option String :=
  r.origin.filter s.settings.origins.contains

/-- Answers a request. A request for the options of a resource is answered by the origins alone. -/
def handle (s : Service) (r : Request) : Answering :=
  let allowedOrigin := s.allowedOrigin r
  if r.method = .options then .done { Response.ofStatus 200 with allowedOrigin }
  else (s.answerResource r).bind fun response =>
    let response := if r.method = .head then withoutBody response else response
    .done { response with allowedOrigin }

end Service
end Recount.Http
