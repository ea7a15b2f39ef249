import Recount.Http.Message
import Recount.Text.Units

/-!
# Uploads

A file arrives in a form, together with the location and the mapping that its items belong to.
-/

namespace Recount.Http

/-- The largest file that is taken, in bytes. -/
def maxFileSize : Nat := 10 * 1024 * 1024

/-- The largest form that is read, in bytes. -/
def maxFormSize : Nat := maxFileSize + 64 * 1024

/-- A file with what goes with it. -/
structure Upload where
  filename : String
  content : File.Content
  location : Option Id
  mapping : Option Id

/-- What has been read of a form. -/
structure Upload.Reading where
  file : Option (String × File.Content) := none
  location : Option Id := none
  mapping : Option Id := none

namespace Upload

/-- Reads the identifier in a field; a blank field gives none. -/
def readId (field : String) (content : File.Content) : Except InputFault (Option Id) :=
  let text := Text.trim (Text.ofMarked content.bytes)
  if text.isEmpty then .ok none
  else (Id.parse? text).elim (.error (.notAnId field)) fun id => .ok (some id)

/-- Reads one part; parts with other names are passed over. -/
def Reading.add (r : Reading) (part : Part) : Except InputFault Reading :=
  match part.name.getD "" with
  | "file" =>
    if maxFileSize < part.content.bytes.size then .error (.fileTooLarge maxFileSize)
    else .ok { r with file := some (part.filename.getD "upload", part.content) }
  | "location_id" => do .ok { r with location := ← readId "location_id" part.content }
  | "mapping_id" => do .ok { r with mapping := ← readId "mapping_id" part.content }
  | _ => .ok r

/-- Reads a form; of fields with one name the last one counts. -/
def ofForm (size : Nat) (parts : List Part) : Except InputFault Upload := do
  if maxFormSize < size then .error .brokenUpload
  else
    let r ← parts.foldlM Reading.add {}
    match r.file with
    | some (filename, content) => .ok ⟨filename, content, r.location, r.mapping⟩
    | none => .error .noFile

end Upload
end Recount.Http
