import Recount.Text.Class

/-!
# Trimming and cutting

Removing characters from the ends of a text, and cutting a text at separators. Each function is
given on lists of characters and lifted to texts.
-/

namespace Recount.Text

/-- The list without its longest tail of characters in the class. -/
def dropEndWhile (p : Char → Bool) (cs : List Char) : List Char :=
  (cs.reverse.dropWhile p).reverse

/-- The text without the blanks at both ends. -/
def trim (s : String) : String :=
  String.ofList (dropEndWhile isBlank (s.toList.dropWhile isBlank))

/-- The text without the blanks at its end. -/
def trimEnd (s : String) : String := String.ofList (dropEndWhile isBlank s.toList)

/-- The text without the given characters at its end. -/
def trimEndOf (c : Char) (s : String) : String := String.ofList (dropEndWhile (· == c) s.toList)

/-- Nothing but blanks. -/
def isBlankText (s : String) : Bool := s.toList.all isBlank

/-- The pieces between separators; there is one more piece than there are separators. -/
def splitChars (separator : Char) : List Char → List (List Char)
  | [] => [[]]
  | c :: rest =>
    if c == separator then [] :: splitChars separator rest
    else match splitChars separator rest with
      | piece :: pieces => (c :: piece) :: pieces
      | [] => [[c]]

/-- The pieces of a text between separators. -/
def split (separator : Char) (s : String) : List String :=
  (splitChars separator s.toList).map String.ofList

/-- The rest of a list after an initial segment. -/
def afterStart? : List Char → List Char → Option (List Char)
  | [], cs => some cs
  | p :: ps, c :: cs => if p == c then afterStart? ps cs else none
  | _ :: _, [] => none

/-- The second text is an initial segment of the first. -/
def startsWith (s start : String) : Bool := (afterStart? start.toList s.toList).isSome

/-- The second text is a final segment of the first. -/
def endsWith (s ending : String) : Bool :=
  (afterStart? ending.toList.reverse s.toList.reverse).isSome

/-- The pattern stands somewhere in the list. -/
def occursIn (pattern : List Char) : List Char → Bool
  | [] => pattern.isEmpty
  | c :: cs => (afterStart? pattern (c :: cs)).isSome || occursIn pattern cs

/-- The first text stands somewhere in the second. -/
def occurs (pattern s : String) : Bool := occursIn pattern.toList s.toList

/-- What stands before and after the first occurrence of a pattern. -/
def cutAt? (pattern : List Char) : List Char → Option (List Char × List Char)
  | [] => if pattern.isEmpty then some ([], []) else none
  | c :: cs =>
    match afterStart? pattern (c :: cs) with
    | some rest => some ([], rest)
    | none => (cutAt? pattern cs).map fun (before, after) => (c :: before, after)

/-- Reads the given separator between the texts. -/
def join (separator : String) (pieces : List String) : String := separator.intercalate pieces

theorem splitChars_ne_nil (separator : Char) (cs : List Char) : splitChars separator cs ≠ [] := by
  cases cs with
  | nil => simp [splitChars]
  | cons c rest =>
    simp only [splitChars]
    split
    · simp
    · split <;> simp

theorem afterStart?_eq_some_iff {start cs rest : List Char} :
    afterStart? start cs = some rest ↔ cs = start ++ rest := by
  induction start generalizing cs with
  | nil => simp [afterStart?, eq_comm]
  | cons p ps ih =>
    cases cs with
    | nil => simp [afterStart?]
    | cons c cs =>
      by_cases h : p = c
      · simp [afterStart?, h, ih]
      · simp [afterStart?, h, Ne.symm h]

end Recount.Text
