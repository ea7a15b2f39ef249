import Recount.Text.Trim

/-!
# Texts in messages

Names that users give are made harmless before they become part of a message: terminal controls
are removed, line breaks become blanks, and long names are cut.
-/

namespace Recount.Text

/-- The number of characters after which a name is cut. -/
def maxMessageLength : Nat := 200

/-- The rest of a text after a terminal control whose opening bracket has been read: parameters
and a letter. -/
def afterControl? (cs : List Char) : Option (List Char) :=
  match cs.dropWhile fun c => c.isDigit || c == ';' with
  | c :: rest => if c.isAlpha then some rest else none
  | [] => none

/-- Removes terminal controls; `skip` characters still belong to the one that was removed last. -/
def withoutControls : Nat → List Char → List Char
  | _, [] => []
  | skip + 1, _ :: cs => withoutControls skip cs
  | 0, c :: cs =>
    match c, cs with
    | '\x1b', '[' :: rest =>
      match afterControl? rest with
      | some after => withoutControls (cs.length - after.length) cs
      | none => c :: withoutControls 0 cs
    | _, _ => c :: withoutControls 0 cs

/-- A text as it may stand in a message. -/
def harmless (s : String) : String :=
  let flat := (withoutControls 0 s.toList).map fun c =>
    if c == '\n' || c == '\r' || c == '\t' then ' ' else c
  let cs := flat.filter (!isControl ·)
  if maxMessageLength < cs.length then String.ofList (cs.take maxMessageLength ++ ['.', '.', '.'])
  else String.ofList cs

end Recount.Text
