import Recount.Proofs.Sql.Alias
import Recount.Sql.Dialect
import Recount.Sql.Query

/-!
# Row limits and placeholders

A row limit is written with words, a number and blanks, and parameters are written as placeholders.
Both are told from the characters that they are made of.
-/

/-! ## The clauses of a row limit

A row limit is written with words, a number and blanks, whether it stands in front or at the end. -/

namespace Recount.Sql

open Text

/-- A character of a word or a number, or a blank. -/
def isPlain (c : Char) : Bool := isAsciiWord c || c == ' '

variable {d : Dialect} {n : Nat} {limit : Option Nat}

theorem isPlain_toString (n : Nat) : ∀ c ∈ (toString n).toList, isPlain c = true := by
  intro c hc
  simp [isPlain, ((Aliases.isLowerWord_toString n).2 c hc).1]

theorem isPlain_topClause : ∀ c ∈ (d.topClause limit).toList, isPlain c = true := by
  have hnone : ∀ c ∈ "".toList, isPlain c = true := fun c hc => absurd hc List.not_mem_nil
  cases d with
  | postgres | mySql => exact hnone
  | msSql =>
    cases limit with
    | none => exact hnone
    | some n =>
      change ∀ c ∈ ("TOP " ++ toString n ++ " ").toList, isPlain c = true
      rw [String.toList_append, String.toList_append, List.forall_mem_append, List.forall_mem_append]
      exact ⟨⟨List.all_eq_true.mp (by decide), isPlain_toString n⟩,
        List.all_eq_true.mp (by decide)⟩

/-- A limit at the end is a clause with a blank before it, or there is none. -/
theorem limitClause_cases :
    d.limitClause limit = "" ∨ ∃ n : Nat, d.limitClause limit = " LIMIT " ++ toString n := by
  cases d with
  | postgres | mySql =>
    cases limit with
    | none => exact .inl rfl
    | some n => exact .inr ⟨n, rfl⟩
  | msSql => exact .inl rfl

theorem isPlain_limitClause : ∀ c ∈ (d.limitClause limit).toList, isPlain c = true := by
  obtain h | ⟨n, h⟩ := @limitClause_cases d limit
  · rw [h]
    exact fun c hc => absurd hc List.not_mem_nil
  · rw [h, String.toList_append, List.forall_mem_append]
    exact ⟨List.all_eq_true.mp (by decide), isPlain_toString n⟩

theorem limitClause_ne_nil (hd : d ≠ .msSql) : (d.limitClause (some n)).toList ≠ [] := by
  have hclause : (" LIMIT " ++ toString n).toList ≠ [] := by
    rw [String.toList_append]
    exact List.append_ne_nil_of_left_ne_nil (by decide) _
  cases d with
  | postgres | mySql => exact hclause
  | msSql => exact absurd rfl hd

end Recount.Sql

/-! ## The placeholders of a text

A placeholder begins with a sign that stands nowhere else in a query, and its name ends where no
word goes on. What a text shows of placeholders is told from its parts. -/

namespace Recount.Sql

open Text

/-- The sign that a placeholder begins with. -/
def Dialect.sign : Dialect → Char
  | .postgres => '$'
  | .mySql => '?'
  | .msSql => '@'

/-- The name of a placeholder, after its sign: none, or the word that follows. -/
def Dialect.nameAfter (d : Dialect) (cs : List Char) : List Char :=
  match d with
  | .mySql => []
  | .postgres | .msSql => cs.takeWhile isAsciiWord

/-- The placeholders of a text from left to right: every sign, with its name. -/
def placeholdersIn (d : Dialect) : List Char → List String
  | [] => []
  | c :: cs =>
    if c = d.sign then String.ofList (c :: d.nameAfter cs) :: placeholdersIn d cs
    else placeholdersIn d cs

/-- A sign of some dialect. -/
def isSign (c : Char) : Bool := c == '$' || c == '?' || c == '@'

/-- A text without signs. -/
def isSignFree (s : String) : Bool := s.toList.all fun c => !isSign c

/-- A text shows these placeholders, whatever comes after it without going on with a word. -/
def Shows (d : Dialect) (s : String) (found : List String) : Prop :=
  ∀ rest : List Char, (∀ c ∈ rest.head?, isAsciiWord c = false) →
    placeholdersIn d (s.toList ++ rest) = found ++ placeholdersIn d rest

/-- A text does not begin with a word. -/
def IsApart (s : String) : Prop := ∀ c ∈ s.toList.head?, isAsciiWord c = false

instance (s : String) : Decidable (IsApart s) :=
  decidable_of_iff (s.toList.head?.all fun c => !isAsciiWord c) (by simp [IsApart, Option.all_eq_true])

variable {d : Dialect} {c : Char} {s t separator : String} {cs : List Char}
  {found more : List String}

section SignFree

theorem isSign_sign : isSign d.sign = true := by
  cases d <;> decide

theorem not_isSign_of_isAsciiWord (h : isAsciiWord c = true) : isSign c = false := by
  cases hsign : isSign c with
  | false => rfl
  | true =>
    simp only [isSign, Bool.or_eq_true, beq_iff_eq] at hsign
    rcases hsign with (rfl | rfl) | rfl <;> exact absurd h (by decide)

theorem isSignFree_iff : isSignFree s = true ↔ ∀ c ∈ s.toList, isSign c = false := by
  simp [isSignFree]

@[simp] theorem isSignFree_append :
    isSignFree (s ++ t) = true ↔ isSignFree s = true ∧ isSignFree t = true := by
  rw [isSignFree, String.toList_append, List.all_append, Bool.and_eq_true]
  rfl

theorem isSignFree_of_isPlain (h : ∀ c ∈ s.toList, isPlain c = true) : isSignFree s = true := by
  refine isSignFree_iff.mpr fun c hc => ?_
  rcases Bool.or_eq_true_iff.mp (h c hc) with hword | hblank
  · exact not_isSign_of_isAsciiWord hword
  · rw [beq_iff_eq.mp hblank]
    decide

end SignFree

section Shows

theorem placeholdersIn_append_of_isSignFree (h : ∀ c ∈ cs, isSign c = false) {rest : List Char} :
    placeholdersIn d (cs ++ rest) = placeholdersIn d rest := by
  induction cs with
  | nil => rfl
  | cons c cs ih =>
    have hne : c ≠ d.sign := by
      rintro rfl
      exact absurd (h _ List.mem_cons_self) (by simp [isSign_sign])
    rw [List.cons_append, placeholdersIn, if_neg hne]
    exact ih fun e he => h e (List.mem_cons_of_mem c he)

theorem shows_of_isSignFree (h : isSignFree s = true) : Shows d s [] :=
  fun _ _ => placeholdersIn_append_of_isSignFree (isSignFree_iff.mp h)

/-- Text without signs in front adds no placeholder. -/
theorem Shows.prepend (hs : isSignFree s = true) (ht : Shows d t found) : Shows d (s ++ t) found := by
  intro rest hrest
  rw [String.toList_append, List.append_assoc,
    placeholdersIn_append_of_isSignFree (isSignFree_iff.mp hs)]
  exact ht rest hrest

/-- The placeholders of a text stay as they are before a text that goes on with no word. -/
theorem Shows.append (hs : Shows d s found) (ht : Shows d t more) (hapart : IsApart t) :
    Shows d (s ++ t) (found ++ more) := by
  intro rest hrest
  have hhead : ∀ c ∈ (t.toList ++ rest).head?, isAsciiWord c = false := by
    cases hchars : t.toList with
    | nil => exact hrest
    | cons c cs =>
      rw [IsApart, hchars] at hapart
      exact hapart
  rw [String.toList_append, List.append_assoc, hs _ hhead, ht rest hrest, List.append_assoc]

/-- The placeholder of a parameter is a sign with its name. -/
theorem exists_placeholder (index : Nat) :
    ∃ name, (d.placeholder index).toList = d.sign :: name ∧ (∀ c ∈ name, isAsciiWord c = true) ∧
      ∀ rest : List Char, (∀ c ∈ rest.head?, isAsciiWord c = false) →
        d.nameAfter (name ++ rest) = name := by
  have hdigits : ∀ c ∈ (toString index).toList, isAsciiWord c = true :=
    fun c hc => ((Aliases.isLowerWord_toString index).2 c hc).1
  cases d with
  | postgres =>
    refine ⟨(toString index).toList, ?_, hdigits, fun rest hrest =>
      (takeWhile_append_of_head hdigits hrest).1⟩
    change ("$" ++ toString index).toList = _
    rw [String.toList_append]
    rfl
  | mySql =>
    refine ⟨[], ?_, fun c hc => absurd hc List.not_mem_nil, fun rest _ => rfl⟩
    change "?".toList = ['?']
    decide
  | msSql =>
    have hname : ∀ c ∈ 'p' :: (toString index).toList, isAsciiWord c = true :=
      List.forall_mem_cons.mpr ⟨by decide, hdigits⟩
    refine ⟨'p' :: (toString index).toList, ?_, hname, fun rest hrest =>
      (takeWhile_append_of_head hname hrest).1⟩
    change ("@p" ++ toString index).toList = _
    rw [String.toList_append]
    rfl

theorem shows_placeholder (index : Nat) : Shows d (d.placeholder index) [d.placeholder index] := by
  intro rest hrest
  obtain ⟨name, hchars, hword, hname⟩ := exists_placeholder (d := d) index
  have hfree : ∀ c ∈ name, isSign c = false := fun c hc => not_isSign_of_isAsciiWord (hword c hc)
  rw [hchars, List.cons_append, placeholdersIn, if_pos rfl, hname rest hrest, ← hchars,
    String.ofList_toList, placeholdersIn_append_of_isSignFree hfree]
  rfl

theorem IsApart.append (hs : IsApart s) (hne : s ≠ "") : IsApart (s ++ t) := by
  rw [IsApart, String.toList_append]
  cases hchars : s.toList with
  | nil => exact absurd (String.toList_eq_nil_iff.mp hchars) hne
  | cons c cs =>
    rw [IsApart, hchars] at hs
    exact hs

/-- Texts with a separator between them show the placeholders of each. -/
theorem shows_join {pieces : List String} {founds : List (List String)}
    (hseparator : isSignFree separator = true) (hapart : IsApart separator) (hne : separator ≠ "")
    (hpieces : List.Forall₂ (Shows d) pieces founds) :
    Shows d (join separator pieces) founds.flatten := by
  unfold join
  induction hpieces with
  | nil => exact shows_of_isSignFree rfl
  | @cons s found pieces founds hs hpieces ih =>
    cases pieces with
    | nil =>
      cases hpieces
      simpa using hs
    | cons t pieces =>
      rw [String.intercalate_cons_cons, String.append_assoc, List.flatten_cons]
      exact hs.append (ih.prepend hseparator) (hapart.append hne)

end Shows

end Recount.Sql
