import Recount.Json.Decode

/-!
# Named alternatives

Many types of this library are lists of alternatives with fixed names. A `Naming` gives such a
type its names; reading a name that is none of them fails with the name as it was looked up.
-/

namespace Recount

/-- A name that stands for none of the alternatives. -/
structure UnknownName where
  /-- What was to be named. -/
  kind : String
  /-- The name that was looked up. -/
  given : String
deriving DecidableEq, Repr

/-- The text of the failure. -/
def UnknownName.message (u : UnknownName) : String := u.kind ++ ": " ++ u.given

/-- The alternatives of a type and their names. -/
structure Naming (α : Type) where
  all : List α
  name : α → String

namespace Naming

/-- The alternative with exactly this name. -/
def find? (naming : Naming α) (name : String) : Option α :=
  naming.all.find? fun a => naming.name a == name

/-- The alternative with exactly this name, or the failure. -/
def parse (naming : Naming α) (kind given : String) : Except UnknownName α :=
  (naming.find? given).elim (.error ⟨kind, given⟩) .ok

/-- Decodes a name. -/
def decode (naming : Naming α) : Json.Decoder α := Json.Decode.choice naming.find?

/-- The name as JSON. -/
def toJson (naming : Naming α) (a : α) : Json := .str (naming.name a)

end Naming
end Recount
