import Recount.Id
import Recount.Sql.Defect
import Recount.Sql.Dialect
import Recount.Text.Integer

/-!
# Settings

The settings of the service, read from named texts. What is not given has a default value, except
for the secret of the tokens and the access to the database.
-/

namespace Recount

/-- Named texts. -/
abbrev Environment := List (String × String)

/-- The text with a name. -/
def Environment.get? (env : Environment) (name : String) : Option String :=
  (env.find? (·.1 == name)).map (·.2)

/-- Why settings cannot be read. -/
inductive SettingsFault where
  | noDatabase
  | noSecret
  | databasePort (fault : Text.IntegerFault)
  | connectionId
  | dialect (unknown : UnknownName)
deriving DecidableEq, Repr

/-- The wording of a fault. -/
def SettingsFault.message : SettingsFault → String
  | noDatabase => "DATABASE_URL or DATABASE_PASSWORD must be set"
  | noSecret => "JWT_SECRET must be set"
  | databasePort fault => fault.message
  | connectionId => "ERP_CONNECTION_ID must be a UUID"
  | dialect unknown => unknown.message

/-- How the database of the counts is reached. -/
structure DatabaseSettings where
  host : String
  port : Nat
  user : String
  password : String
  database : String
  sslMode : String
  /-- The whole address, in place of the other settings. -/
  url : Option String

namespace DatabaseSettings

/-- Reads the settings of the database. -/
def ofEnvironment (env : Environment) : Except SettingsFault DatabaseSettings := do
  let url := env.get? "DATABASE_URL"
  let password ← match env.get? "DATABASE_PASSWORD", url with
    | some password, _ => .ok password
    | none, some _ => .ok ""
    | none, none => .error .noDatabase
  let port ← (Text.readNat 16 ((env.get? "DATABASE_PORT").getD "5432")).mapError .databasePort
  .ok
    { host := (env.get? "DATABASE_HOST").getD "localhost"
      port
      user := (env.get? "DATABASE_USER").getD "postgres"
      password
      database := (env.get? "DATABASE_NAME").getD "stocktake"
      sslMode := (env.get? "DATABASE_SSL_MODE").getD "prefer"
      url }

/-- The address of the database. -/
def address (s : DatabaseSettings) : String :=
  s.url.getD ("postgres://" ++ s.user ++ ":" ++ s.password ++ "@" ++ s.host ++ ":" ++
    toString s.port ++ "/" ++ s.database ++ "?sslmode=" ++ s.sslMode)

end DatabaseSettings

/-- A connection to a planning system that is there from the start. -/
structure ConnectionSettings where
  id : Id
  url : String
  dialect : Sql.Dialect

/-- How items are loaded. -/
structure LoadSettings where
  connection : Option ConnectionSettings := none
  /-- A table to read items from when there are no mappings. -/
  legacyTable : Option String := none
  rowLimit : Nat := 5000

namespace LoadSettings

/-- Reads the connection; it is there if both its identifier and its address are given. -/
def readConnection (env : Environment) : Except SettingsFault (Option ConnectionSettings) :=
  match env.get? "ERP_CONNECTION_ID", env.get? "ERP_DATABASE_URL" with
  | some id, some url => do
    let some id := Id.parse? id | .error .connectionId
    let dialect ← (Sql.Dialect.parse ((env.get? "ERP_DIALECT").getD "postgres")).mapError .dialect
    .ok (some ⟨id, url, dialect⟩)
  | _, _ => .ok none

/-- Reads how items are loaded. -/
def ofEnvironment (env : Environment) : Except SettingsFault LoadSettings := do
  let connection ← readConnection env
  let rowLimit := (env.get? "ERP_DEFAULT_ROW_LIMIT").bind fun s => (Text.readNat 32 s).toOption
  .ok
    { connection
      legacyTable := (env.get? "ERP_LEGACY_ITEMS_TABLE").filter (!Text.isBlankText ·)
      rowLimit := min (rowLimit.getD 5000) Sql.maxRows }

end LoadSettings

/-- All settings of the service. -/
structure Settings where
  database : Option DatabaseSettings := none
  secret : String
  host : String := "127.0.0.1"
  port : Nat := 8080
  /-- The origins from which browsers may call. -/
  origins : List String := []
  load : LoadSettings := {}

namespace Settings

/-- The origins in a list with commas. -/
def readOrigins (s : String) : List String :=
  ((Text.split ',' s).map Text.trim).filter (!·.isEmpty)

/-- The origins are given one by one, so the mark for any origin is not one of them. -/
def listsAnyOrigin (s : Settings) : Bool := s.origins.contains "*"

/-- Reads all settings. -/
def ofEnvironment (env : Environment) : Except SettingsFault Settings := do
  let database ← DatabaseSettings.ofEnvironment env
  let some secret := env.get? "JWT_SECRET" | .error .noSecret
  let load ← LoadSettings.ofEnvironment env
  .ok
    { database := some database
      secret
      host := (env.get? "SERVER_HOST").getD "0.0.0.0"
      port := ((Text.readNat 16 ((env.get? "SERVER_PORT").getD "8080")).toOption).getD 8080
      origins := readOrigins ((env.get? "CORS_ORIGINS").getD "http://localhost:3000")
      load }

/-- Where the service listens. -/
def address (s : Settings) : String := s.host ++ ":" ++ toString s.port

end Settings
end Recount
