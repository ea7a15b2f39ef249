import Recount.Counting.Lifecycle
import Recount.Http.Message

/-!
# Resources

The places that requests go to. A path names a resource if all its segments fit. Where a segment
is an identifier or a number, it may be any text; only the last segment of a path is never empty.
-/

namespace Recount.Http

/-- What is done to the stage of a count. -/
inductive StageAction where
  | change (change : Counting.StageChange)
  | complete

/-- A place that requests go to, with the texts of its identifiers as they are written. -/
inductive Resource where
  | health
  | metrics
  | mappings
  | mapping (id : String)
  | mappingActivity (id : String) (active : Bool)
  | connectionTest (id : String)
  | connectionCatalog (id : String)
  | preview
  | counts
  | count (id : String)
  | stage (id : String) (action : StageAction)
  | loading (id : String)
  | items (id : String)
  | item (id item : String)
  | versions (id : String)
  | submission (id version : String)
  | reports (id : String)
  | resolution (id report : String)
  | sync (id : String)
  | importing (id : String)
  | exporting (id : String)

namespace Resource

/-- A resource below the mappings. -/
def ofMappingPath? : List String → Option Resource
  | [] => some mappings
  | [id] => some (mapping id)
  | [id, "activate"] => some (mappingActivity id true)
  | [id, "deactivate"] => some (mappingActivity id false)
  | _ => none

/-- A resource of the connections. -/
def ofErpPath? : List String → Option Resource
  | ["connections", id, "test"] => some (connectionTest id)
  | ["catalog", id] => some (connectionCatalog id)
  | ["preview"] => some preview
  | _ => none

/-- The action on the stage of a count with a name. -/
def stageAction? : String → Option StageAction
  | "start" => some (.change .start)
  | "pause" => some (.change .pause)
  | "resume" => some (.change .resume)
  | "complete" => some .complete
  | "finalize" => some (.change .finalize)
  | "close" => some (.change .close)
  | "cancel" => some (.change .cancel)
  | "reactivate" => some (.change .reactivate)
  | _ => none

/-- A resource below a count, named by one word. -/
def ofCountWord? (id : String) : String → Option Resource
  | "load" => some (loading id)
  | "items" => some (items id)
  | "versions" => some (versions id)
  | "variances" => some (reports id)
  | "sync" => some (sync id)
  | "import" => some (importing id)
  | "export" => some (exporting id)
  | word => (stageAction? word).map (stage id)

/-- A resource below the counts. -/
def ofCountPath? : List String → Option Resource
  | [] => some counts
  | [id] => some (count id)
  | [id, word] => ofCountWord? id word
  | [id, "items", itemId] => some (item id itemId)
  | [id, "versions", version, "submit"] => some (submission id version)
  | [id, "variances", report, "resolve"] => some (resolution id report)
  | _ => none

/-- The resource of the segments of a path. -/
def ofSegments? : List String → Option Resource
  | ["health"] => some health
  | ["metrics"] => some metrics
  | "api" :: "mappings" :: rest => ofMappingPath? rest
  | "api" :: "erp" :: rest => ofErpPath? rest
  | "api" :: "counts" :: rest => ofCountPath? rest
  | _ => none

/-- The resource that a path names. -/
def ofPath? (path : String) : Option Resource :=
  match Text.split '/' path with
  | "" :: segments => if segments.getLast? = some "" then none else ofSegments? segments
  | _ => none

/-- The resource is open to everyone. -/
def isPublic : Resource → Bool
  | health => true
  | metrics => true
  | _ => false

end Resource
end Recount.Http
