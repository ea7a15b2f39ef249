import Mathlib
import Recount.Sql.Dialect

/-!
# How SQL is read

A reader of SQL is in code, in a quoted literal or in a comment; the next character tells where it
is after it. Parentheses count only in code.
-/

namespace Recount.Sql

/-- Where a reader is. In code, a dash or a slash may open a comment with the next character; in a
comment, a star may close it. -/
inductive Mode where
  | code
  | dash
  | slash
  | literal
  | line
  | block
  | star
deriving DecidableEq, Repr

namespace Mode

/-- No literal and no comment is open. -/
def isOutside : Mode → Bool
  | code | dash | slash => true
  | literal | line | block | star => false

/-- Where a reader of code is after a character. -/
def ofCode (d : Dialect) (c : Char) : Mode :=
  if c = '\'' then literal
  else if c = '-' then dash
  else if c = '/' then slash
  else if c = '#' ∧ d = .mySql then line
  else code

/-- Where a reader is after the next character. A quote that stands twice in a literal closes it and
opens it again; comments in comments do not count. -/
def next (d : Dialect) (m : Mode) (c : Char) : Mode :=
  match m with
  | code => ofCode d c
  | dash => if c = '-' then line else ofCode d c
  | slash => if c = '*' then block else ofCode d c
  | literal => if c = '\'' then code else literal
  | line => if c = '\n' then code else line
  | block => if c = '*' then star else block
  | star => if c = '/' then code else if c = '*' then star else block

/-- Where a reader is after a text. -/
def after (d : Dialect) (m : Mode) (cs : List Char) : Mode := cs.foldl (next d) m

/-- Where a reader is after a text that says nothing to it. -/
def rest : Mode → Mode
  | code | dash | slash => code
  | literal => literal
  | line => line
  | block | star => block

end Mode

/-- What a character of code adds to the number of open parentheses. -/
def weight (c : Char) : Int := if c = '(' then 1 else if c = ')' then -1 else 0

/-- The parentheses that a text opens, less those that it closes. -/
def opened (d : Dialect) : Mode → List Char → Int
  | _, [] => 0
  | m, c :: cs => (if m.isOutside then weight c else 0) + opened d (m.next d c) cs

/-- Each character of a text is read outside of literals and comments. -/
def ReadOutside (d : Dialect) (m : Mode) (cs : List Char) : Prop :=
  ∀ before, before <+: cs → before ≠ cs → (m.after d before).isOutside = true

/-- A text leaves no literal and no comment open, and its parentheses are balanced and close none
that was open before it. -/
structure Closed (d : Dialect) (cs : List Char) : Prop where
  outside : (Mode.code.after d cs).isOutside = true
  balanced : opened d .code cs = 0
  kept : ∀ before, before <+: cs → 0 ≤ opened d .code before

variable {d : Dialect} {m : Mode} {c : Char} {cs ds : List Char}

section Decidability

instance : Decidable (ReadOutside d m cs) :=
  decidable_of_iff (∀ before ∈ cs.inits, before ≠ cs → (m.after d before).isOutside = true)
    (by simp only [List.mem_inits, ReadOutside])

instance : Decidable (Closed d cs) :=
  decidable_of_iff ((Mode.code.after d cs).isOutside = true ∧ opened d .code cs = 0 ∧
      ∀ before ∈ cs.inits, 0 ≤ opened d .code before)
    ⟨fun ⟨houtside, hbalanced, hkept⟩ =>
        ⟨houtside, hbalanced, fun before h => hkept before ((List.mem_inits before cs).mpr h)⟩,
      fun h => ⟨h.outside, h.balanced, fun before hmem =>
        h.kept before ((List.mem_inits before cs).mp hmem)⟩⟩

end Decidability

namespace Mode

@[simp] theorem after_nil : m.after d [] = m := rfl

@[simp] theorem after_cons : m.after d (c :: cs) = (m.next d c).after d cs := rfl

theorem after_append : m.after d (cs ++ ds) = (m.after d cs).after d ds :=
  List.foldl_append

/-- A text that says nothing opens and closes nothing. -/
@[simp] theorem isOutside_rest : m.rest.isOutside = m.isOutside := by
  cases m <;> rfl

@[simp] theorem rest_rest : m.rest.rest = m.rest := by
  cases m <;> rfl

end Mode

theorem opened_append : opened d m (cs ++ ds) = opened d m cs + opened d (m.after d cs) ds := by
  induction cs generalizing m with
  | nil => simp [opened]
  | cons c cs ih =>
    rw [List.cons_append, opened, opened, ih, Mode.after_cons]
    omega

section Quiet

/-- A character that opens no literal and no comment, and closes none. -/
def isQuiet (c : Char) : Bool := !(['\'', '-', '/', '*', '#', '\n'] : List Char).contains c

theorem next_of_isQuiet (h : isQuiet c = true) : m.next d c = m.rest := by
  have hnot : c ≠ '\'' ∧ c ≠ '-' ∧ c ≠ '/' ∧ c ≠ '*' ∧ c ≠ '#' ∧ c ≠ '\n' := by
    simpa [isQuiet] using h
  cases m <;> simp [Mode.next, Mode.ofCode, Mode.rest, hnot]

/-- A quiet text leaves the reader where it is. -/
theorem after_of_isQuiet (hcs : ∀ c ∈ cs, isQuiet c = true) (hne : cs ≠ []) :
    m.after d cs = m.rest := by
  induction cs generalizing m with
  | nil => exact absurd rfl hne
  | cons c cs ih =>
    rw [Mode.after_cons, next_of_isQuiet (hcs c List.mem_cons_self)]
    cases cs with
    | nil => rfl
    | cons c' cs => rw [ih (fun d hd => hcs d (List.mem_cons_of_mem c hd)) (List.cons_ne_nil c' cs),
        Mode.rest_rest]

/-- After a quiet text, a reader is outside of literals and comments if it was before. -/
theorem isOutside_after_of_isQuiet (hcs : ∀ c ∈ cs, isQuiet c = true) (hm : m.isOutside = true) :
    (m.after d cs).isOutside = true := by
  by_cases hne : cs = []
  · rwa [hne, Mode.after_nil]
  · rwa [after_of_isQuiet hcs hne, Mode.isOutside_rest]

theorem readOutside_of_isQuiet (hcs : ∀ c ∈ cs, isQuiet c = true) (hm : m.isOutside = true) :
    ReadOutside d m cs := by
  intro before hbefore _
  exact isOutside_after_of_isQuiet (fun c hc => hcs c (hbefore.subset hc)) hm

theorem readOutside_nil : ReadOutside d m [] := by
  intro before hbefore hne
  exact absurd (List.prefix_nil.mp hbefore) hne

/-- A quiet text is read outside of literals and comments exactly if it begins there. -/
theorem readOutside_iff (hcs : ∀ c ∈ cs, isQuiet c = true) (hne : cs ≠ []) :
    ReadOutside d m cs ↔ m.isOutside = true :=
  ⟨fun h => h [] List.nil_prefix (Ne.symm hne), readOutside_of_isQuiet hcs⟩

end Quiet

section Comments

/-- What was read of a text without comments, given where it left the reader. -/
def Leaves (cs : List Char) : Mode → Prop
  | .code => Even (cs.count '\'')
  | .dash => Even (cs.count '\'') ∧ cs.getLast? = some '-'
  | .slash => Even (cs.count '\'') ∧ cs.getLast? = some '/'
  | .literal => ¬ Even (cs.count '\'')
  | .line | .block | .star => False

theorem Leaves.even_iff (h : Leaves cs m) : m.isOutside = true ↔ Even (cs.count '\'') := by
  cases m with
  | code => exact iff_of_true rfl h
  | dash | slash => exact iff_of_true rfl h.1
  | literal => exact iff_of_false Bool.false_ne_true h
  | line | block | star => exact h.elim

/-- A character of code is in the text that was read with it. -/
theorem Leaves.ofCode (heven : Even (cs.count '\'')) (hhash : d = .mySql → c ≠ '#') :
    Leaves (cs ++ [c]) (Mode.ofCode d c) := by
  have hcount : (cs ++ [c]).count '\'' = cs.count '\'' + if c = '\'' then 1 else 0 := by
    rw [List.count_append, List.count_singleton]
    simp
  unfold Mode.ofCode
  split
  · next hquote =>
    rw [if_pos hquote] at hcount
    simpa [Leaves, hcount, Nat.even_add_one] using heven
  · next hquote =>
    rw [if_neg hquote, Nat.add_zero] at hcount
    split
    · next hdash => exact ⟨hcount ▸ heven, by rw [hdash, List.getLast?_concat]⟩
    · split
      · next hslash => exact ⟨hcount ▸ heven, by rw [hslash, List.getLast?_concat]⟩
      · split
        · next hopens => exact absurd hopens.1 (hhash hopens.2)
        · rw [← hcount] at heven
          exact heven

/-- A pair of characters that does not occur in a text does not end it. -/
theorem ne_of_getLast?_eq {a b : Char} (hpair : ¬ [a, b] <:+: cs ++ [c])
    (hlast : cs.getLast? = some a) : c ≠ b := by
  rintro rfl
  obtain ⟨ds, rfl⟩ := List.getLast?_eq_some_iff.mp hlast
  exact hpair ⟨ds, [], by simp⟩

/-- Reading a text without comments ends in code or in a literal, by the number of its quotes. -/
theorem leaves_after (hline : ¬ ['-', '-'] <:+: cs) (hblock : ¬ ['/', '*'] <:+: cs)
    (hhash : d = .mySql → '#' ∉ cs) : Leaves cs (Mode.code.after d cs) := by
  -- The last character is taken off: a pair opens a comment by what was read just before it.
  induction cs using List.reverseRecOn with
  | nil => exact Even.zero
  | append_singleton cs c ih =>
    have hpart : cs <:+: cs ++ [c] := (List.prefix_append cs [c]).isInfix
    have hread := ih (fun h => hline (h.trans hpart)) (fun h => hblock (h.trans hpart))
      fun hd h => hhash hd (hpart.subset h)
    have hnot : d = .mySql → c ≠ '#' := by
      rintro hd rfl
      exact hhash hd (List.mem_append_right cs (List.mem_singleton_self '#'))
    rw [Mode.after_append, Mode.after_cons, Mode.after_nil]
    generalize Mode.code.after d cs = m at hread ⊢
    cases m with
    | code => exact Leaves.ofCode hread hnot
    | dash =>
      have hne : c ≠ '-' := ne_of_getLast?_eq hline hread.2
      simpa [Mode.next, hne] using Leaves.ofCode hread.1 hnot
    | slash =>
      have hne : c ≠ '*' := ne_of_getLast?_eq hblock hread.2
      simpa [Mode.next, hne] using Leaves.ofCode hread.1 hnot
    | literal =>
      by_cases hquote : c = '\''
      · simpa [Leaves, Mode.next, hquote, Nat.even_add_one] using hread
      · simpa [Leaves, Mode.next, hquote, List.count_singleton] using hread
    | line | block | star => exact hread.elim

/-- A text without comments leaves no literal open exactly if it has an even number of quotes. -/
theorem isOutside_after_iff_even (hline : ¬ ['-', '-'] <:+: cs) (hblock : ¬ ['/', '*'] <:+: cs)
    (hhash : d = .mySql → '#' ∉ cs) :
    (Mode.code.after d cs).isOutside = true ↔ Even (cs.count '\'') :=
  (leaves_after hline hblock hhash).even_iff

end Comments

end Recount.Sql
