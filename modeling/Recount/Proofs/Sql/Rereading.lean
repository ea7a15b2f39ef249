import Recount.Proofs.Sql.Rewriting

/-!
# References in any text

Wherever a reference stands in a text, it is read as long as it goes on, and what follows it is read
as if it stood by itself. A text that has been rewritten has its references where they were before,
each with the column that it had.
-/

namespace Recount.Sql.Aliases

open Text

variable {a : Aliases} {c : Char} {cs name column part rest : List Char}
  {parts : List (List Char)} {inWord : Bool}

/-! ## Where references are -/

/-- A name inside of a reference: an identifier that does not begin with a digit. -/
def IsName (part : List Char) : Prop := isIdentifier part = true ∧ startsPart part = true

/-- A part of a reference behind a point: a name or a star. -/
def IsStep (part : List Char) : Prop := IsName part ∨ part = ['*']

/-- The parts of a reference: a name, and names or stars behind it. -/
def IsReference (parts : List (List Char)) : Prop :=
  ∃ first more, parts = first :: more ∧ IsName first ∧ more ≠ [] ∧ ∀ part ∈ more, IsStep part

/-- No part of a reference follows. -/
def NoStep (rest : List Char) : Prop :=
  ∀ c cs, rest = '.' :: c :: cs → c ≠ '*' ∧ startsName c = false

/-- A reference does not go on where the rest of a text begins. -/
structure EndsBefore (parts : List (List Char)) (rest : List Char) : Prop where
  noStep : NoStep rest
  word : ∀ last ∈ parts.getLast?, last ≠ ['*'] → ∀ c ∈ rest.head?, isAsciiWord c = false

theorem isName_cons :
    IsName (c :: cs) ↔ startsName c = true ∧ ∀ d ∈ c :: cs, isAsciiWord d = true := by
  constructor
  · rintro ⟨hident, hstarts⟩
    exact ⟨startsPart_cons hident ▸ hstarts, (isIdentifier_iff.mp hident).2⟩
  · rintro ⟨hstarts, hword⟩
    have hident : isIdentifier (c :: cs) = true :=
      isIdentifier_iff.mpr ⟨List.cons_ne_nil c cs, hword⟩
    exact ⟨hident, (startsPart_cons hident).trans hstarts⟩

theorem isAsciiWord_of_startsName (h : startsName c = true) : isAsciiWord c = true := by
  rcases Bool.or_eq_true_iff.mp h with h | h
  · simp [isAsciiWord, Char.isAlphanum, h]
  · simp [isAsciiWord, h]

/-- What begins like a name is one up to where the word ends. -/
theorem isName_takeWhile (h : startsName c = true) : IsName (c :: cs.takeWhile isAsciiWord) :=
  isName_cons.mpr ⟨h, List.forall_mem_cons.mpr
    ⟨isAsciiWord_of_startsName h, fun _ hd => List.mem_takeWhile_imp hd⟩⟩

theorem IsStep.isPart (h : IsStep part) : IsPart part := h.imp_left And.left

theorem IsName.ne_star (h : IsName part) : part ≠ ['*'] := by
  rintro rfl
  exact absurd h.1 (by decide)

/-- The text of a word, and what comes behind it. -/
theorem head?_dropWhile : ∀ c ∈ (cs.dropWhile isAsciiWord).head?, isAsciiWord c = false := by
  intro c hc
  have hnot := List.head?_dropWhile_not isAsciiWord cs
  rw [Option.mem_def.mp hc] at hnot
  simpa using hnot

theorem moreParts_of_noStep {fuel : Nat} (h : NoStep cs) : moreParts fuel cs = [] := by
  fun_cases moreParts fuel cs with
  | case1 => rfl
  | case2 fuel rest => exact absurd rfl (h '*' rest rfl).1
  | case3 fuel c rest _ hstarts => exact absurd hstarts (Bool.eq_false_iff.mp (h c rest rfl).2)
  | case4 => rfl
  | case5 => rfl

/-- Names and stars behind points are read up to where none follows. -/
theorem moreParts_append {fuel : Nat} (hparts : ∀ part ∈ parts, IsStep part)
    (hend : EndsBefore parts rest) (hfuel : parts.length ≤ fuel) :
    moreParts fuel (dotted parts ++ rest) = parts := by
  induction parts generalizing fuel with
  | nil => exact moreParts_of_noStep hend.noStep
  | cons part parts ih =>
    obtain ⟨hpart, hparts⟩ := List.forall_mem_cons.mp hparts
    cases fuel with
    | zero => exact absurd hfuel (Nat.not_succ_le_zero _)
    | succ fuel =>
      have hend' : EndsBefore parts rest := by
        refine ⟨hend.noStep, fun last hlast => hend.word last ?_⟩
        cases parts with
        | nil => cases hlast
        | cons next parts => rwa [List.getLast?_cons_cons]
      have hrest := ih hparts hend' (Nat.le_of_succ_le_succ hfuel)
      rcases hpart with hname | rfl
      · cases part with
        | nil => exact absurd rfl (isIdentifier_iff.mp hname.1).1
        | cons c cs =>
          obtain ⟨hstarts, hword⟩ := isName_cons.mp hname
          have hhead : ∀ d ∈ (dotted parts ++ rest).head?, isAsciiWord d = false := by
            cases parts with
            | nil => exact hend.word _ rfl hname.ne_star
            | cons next parts =>
              intro d hd
              cases hd
              exact not_isAsciiWord_dot
          obtain ⟨htake, hdrop⟩ := takeWhile_append_of_head
            (fun d hd => hword d (List.mem_cons_of_mem c hd)) hhead
          have hstar : c ≠ '*' := ne_star_of_isIdentifier hname.1
          change moreParts (fuel + 1) ('.' :: c :: (cs ++ dotted parts ++ rest)) = _
          rw [moreParts.eq_3 _ _ _ hstar, if_pos hstarts, List.append_assoc, htake, hdrop, hrest]
      · exact congrArg (['*'] :: ·) hrest

theorem EndsBefore.cons (h : EndsBefore parts rest)
    (hword : parts = [] → part ≠ ['*'] → ∀ c ∈ rest.head?, isAsciiWord c = false) :
    EndsBefore (part :: parts) rest := by
  refine ⟨h.noStep, fun last hlast hstar => ?_⟩
  cases parts with
  | nil =>
    cases hlast
    exact hword rfl hstar
  | cons next parts => exact h.word last (List.getLast?_cons_cons ▸ hlast) hstar

/-- What is read behind points are names and stars, and none follows. -/
theorem exists_rest_of_moreParts {fuel : Nat} (hfuel : cs.length ≤ fuel) :
    ∃ rest, cs = dotted (moreParts fuel cs) ++ rest ∧
      (∀ part ∈ moreParts fuel cs, IsStep part) ∧ EndsBefore (moreParts fuel cs) rest := by
  have hnone : ∀ {cs}, NoStep cs → ∃ rest, cs = dotted [] ++ rest ∧
      (∀ part ∈ ([] : List (List Char)), IsStep part) ∧ EndsBefore [] rest := fun {cs} h =>
    ⟨cs, rfl, List.forall_mem_nil _, h, by simp⟩
  fun_induction moreParts fuel cs with
  | case1 cs =>
    cases List.length_eq_zero_iff.mp (Nat.le_zero.mp hfuel)
    exact hnone fun c cs h => by cases h
  | case2 fuel cs ih =>
    obtain ⟨rest, hcs, hparts, hend⟩ := ih (by simp at hfuel; omega)
    refine ⟨rest, congrArg (['.', '*'] ++ ·) hcs, List.forall_mem_cons.mpr ⟨.inr rfl, hparts⟩,
      hend.cons fun _ hstar => absurd rfl hstar⟩
  | case3 fuel c cs _ hstarts name ih =>
    have hlength := (List.dropWhile_sublist isAsciiWord (l := cs)).length_le
    obtain ⟨rest, hcs, hparts, hend⟩ := ih (by simp at hfuel; omega)
    refine ⟨rest, ?_, List.forall_mem_cons.mpr ⟨.inl ?_, hparts⟩, hend.cons fun hnil _ => ?_⟩
    · change '.' :: c :: cs = '.' :: c :: (cs.takeWhile isAsciiWord ++ dotted _) ++ rest
      rw [List.cons_append, List.cons_append, List.append_assoc, ← hcs,
        List.takeWhile_append_dropWhile]
    · exact isName_takeWhile hstarts
    · rw [hnil] at hcs
      have hrest : rest = cs.dropWhile isAsciiWord := hcs.symm
      exact hrest ▸ head?_dropWhile
  | case4 fuel c cs hstar hstarts =>
    refine hnone fun d ds h => ?_
    cases h
    exact ⟨hstar, Bool.eq_false_iff.mpr hstarts⟩
  | case5 fuel cs hstar hdot =>
    exact hnone fun c cs h => absurd h (hdot c cs)

theorem IsReference.exists_cons (h : IsReference parts) : ∃ c cs more, parts = (c :: cs) :: more ∧
    startsName c = true ∧ (∀ d ∈ c :: cs, isAsciiWord d = true) ∧ more ≠ [] ∧
      ∀ part ∈ more, IsStep part := by
  obtain ⟨first, more, rfl, hfirst, hmore, hsteps⟩ := h
  cases first with
  | nil => exact absurd rfl (isIdentifier_iff.mp hfirst.1).1
  | cons c cs =>
    obtain ⟨hstarts, hword⟩ := isName_cons.mp hfirst
    exact ⟨c, cs, more, rfl, hstarts, hword, hmore, hsteps⟩

/-- A reference that stands at the beginning of a text is read up to where it ends. -/
theorem reference?_joinParts (h : IsReference parts) (hend : EndsBefore parts rest) :
    reference? (joinParts parts ++ rest) = some parts := by
  obtain ⟨c, cs, more, rfl, hstarts, hword, hmore, hsteps⟩ := h.exists_cons
  have hend : EndsBefore more rest := by
    refine ⟨hend.noStep, fun last hlast => hend.word last ?_⟩
    rwa [List.getLast?_cons_of_ne_nil hmore]
  have hhead : ∀ d ∈ (dotted more ++ rest).head?, isAsciiWord d = false := by
    obtain ⟨next, more, rfl⟩ := List.exists_cons_of_ne_nil hmore
    intro d hd
    cases hd
    exact not_isAsciiWord_dot
  obtain ⟨htake, hdrop⟩ := takeWhile_append_of_head
    (fun d hd => hword d (List.mem_cons_of_mem c hd)) hhead
  have hread : moreParts (dotted more ++ rest).length (dotted more ++ rest) = more := by
    refine moreParts_append hsteps hend (length_le_length_dotted.trans ?_)
    simp
  rw [joinParts_cons, List.append_assoc, List.cons_append, reference?, if_pos hstarts, htake, hdrop]
  dsimp only
  rw [hread]
  cases more with
  | nil => exact absurd rfl hmore
  | cons next more => rfl

/-- What is read at the beginning of a text is a reference that stands there. -/
theorem exists_rest_of_reference? (h : reference? cs = some parts) :
    IsReference parts ∧ ∃ rest, cs = joinParts parts ++ rest ∧ EndsBefore parts rest := by
  cases cs with
  | nil => cases h
  | cons c cs =>
    rw [reference?] at h
    split at h
    · next hstarts =>
      obtain ⟨rest, hcs, hsteps, hend⟩ :=
        exists_rest_of_moreParts (Nat.le_refl (cs.dropWhile isAsciiWord).length)
      dsimp only at h
      generalize moreParts _ _ = more at h hcs hsteps hend
      cases more with
      | nil => cases h
      | cons next more =>
        cases h
        refine ⟨⟨_, _, rfl, isName_takeWhile hstarts, List.cons_ne_nil _ _, hsteps⟩, rest, ?_,
          hend.cons fun hnil => absurd hnil (List.cons_ne_nil _ _)⟩
        rw [joinParts_cons, List.append_assoc, ← hcs, List.cons_append,
          List.takeWhile_append_dropWhile]
    · cases h

/-- A name by itself is no reference. -/
theorem reference?_eq_none_iff (hname : IsName part)
    (hrest : ∀ c ∈ rest.head?, isAsciiWord c = false) :
    reference? (part ++ rest) = none ↔ NoStep rest := by
  cases part with
  | nil => exact absurd rfl (isIdentifier_iff.mp hname.1).1
  | cons c cs =>
    obtain ⟨hstarts, hword⟩ := isName_cons.mp hname
    obtain ⟨htake, hdrop⟩ := takeWhile_append_of_head
      (fun d hd => hword d (List.mem_cons_of_mem c hd)) hrest
    rw [List.cons_append, reference?, if_pos hstarts, htake, hdrop]
    dsimp only
    constructor
    · intro hnone
      obtain ⟨rest', hcs, -, hend⟩ := exists_rest_of_moreParts (Nat.le_refl rest.length)
      generalize moreParts _ _ = more at hnone hcs
      cases more with
      | nil =>
        have hsame : rest = rest' := hcs
        exact hsame ▸ hend.noStep
      | cons next more => cases hnone
    · intro hno
      rw [moreParts_of_noStep hno]

theorem reference?_of_not_startsName (h : startsName c = false) : reference? (c :: cs) = none := by
  rw [reference?, h]
  rfl

/-! ## What rewriting keeps -/

/-- A word at which no reference is read stays as it is. -/
theorem rewriteFrom_word_of_none (hident : isIdentifier part = true)
    (hnone : reference? (part ++ rest) = none) :
    a.rewriteFrom false 0 (part ++ rest) = part ++ a.rewriteFrom true 0 rest := by
  obtain ⟨hne, hword⟩ := isIdentifier_iff.mp hident
  cases part with
  | nil => exact absurd rfl hne
  | cons c cs =>
    have hcs : ∀ d ∈ cs, isWord d = true := fun d hd =>
      isWord_of_isAsciiWord (hword d (List.mem_cons_of_mem c hd))
    rw [List.cons_append] at hnone ⊢
    rw [rewriteFrom, hnone, ite_self, isWord_of_isAsciiWord (hword c List.mem_cons_self),
      rewriteFrom_word hcs]
    rfl

/-- A step that is not part of a reference stays as it is. -/
theorem rewriteFrom_step (h : IsStep part) (hend : EndsBefore [part] rest) :
    a.rewriteFrom false 0 (part ++ rest) = part ++ a.rewriteFrom (part != ['*']) 0 rest := by
  rcases h with hname | rfl
  · have hnone := (reference?_eq_none_iff hname (hend.word part rfl hname.ne_star)).mpr hend.noStep
    rw [rewriteFrom_word_of_none hname.1 hnone, bne_iff_ne.mpr hname.ne_star]
  · rfl

/-- After what is passed over, the text is read on. -/
theorem rewriteFrom_skip_concat {xs : List Char} :
    a.rewriteFrom inWord (xs.length + 1) (xs ++ c :: rest) = a.rewriteFrom (isWord c) 0 rest := by
  induction xs generalizing inWord with
  | nil => rfl
  | cons x xs ih => exact ih

/-- Whether the last character of a reference belongs to a word. -/
def EndsInWord (parts : List (List Char)) : Bool := parts.getLast? != some ['*']

/-- The last character of a step. -/
theorem IsStep.exists_concat (h : IsStep part) :
    ∃ cs d, part = cs ++ [d] ∧ isWord d = (part != ['*']) := by
  rcases h with hname | rfl
  · obtain ⟨hne, hword⟩ := isIdentifier_iff.mp hname.1
    obtain ⟨cs, d, rfl⟩ := (List.eq_nil_or_concat' part).resolve_left hne
    have hd := isWord_of_isAsciiWord (hword d (List.mem_append_right cs List.mem_cons_self))
    exact ⟨cs, d, rfl, hd.trans (bne_iff_ne.mpr hname.ne_star).symm⟩
  · exact ⟨[], '*', rfl, by decide⟩

theorem IsReference.exists_concat (h : IsReference parts) :
    ∃ c xs d, joinParts parts = c :: (xs ++ [d]) ∧ isWord d = EndsInWord parts := by
  obtain ⟨c, cs, more, rfl, -, -, hmore, hsteps⟩ := h.exists_cons
  obtain ⟨init, last, rfl⟩ := (List.eq_nil_or_concat' more).resolve_left hmore
  have hlast := hsteps last (List.mem_append_right init List.mem_cons_self)
  obtain ⟨ds, d, rfl, hd⟩ := hlast.exists_concat
  refine ⟨c, cs ++ dotted init ++ '.' :: ds, d, ?_, ?_⟩
  · rw [joinParts_cons, dotted_append]
    simp [dotted]
  · rw [hd, EndsInWord, ← List.cons_append, List.getLast?_concat]
    rfl

/-- A reference is rewritten, and what follows it is read as if it stood behind a word or a star. -/
theorem rewriteFrom_joinParts (h : IsReference parts) (hend : EndsBefore parts rest) :
    a.rewriteFrom false 0 (joinParts parts ++ rest) =
      a.rewriteReference parts ++ a.rewriteFrom (EndsInWord parts) 0 rest := by
  have hread := reference?_joinParts h hend
  obtain ⟨c, xs, d, hjoined, hword⟩ := h.exists_concat
  have hlength : (c :: (xs ++ [d])).length - 1 = xs.length + 1 := by simp
  rw [hjoined, List.cons_append, List.append_assoc] at hread ⊢
  rw [rewriteFrom, if_neg Bool.false_ne_true, hread]
  dsimp only
  rw [hjoined, hlength, List.singleton_append, rewriteFrom_skip_concat, hword]

/-- What can stand before the last part of a reference: the name of a table, with or without that of
its schema. -/
def IsQualifier (qualifier : String) : Prop :=
  IsName qualifier.toList ∨ ∃ schema table : String, qualifier = schema ++ "." ++ table ∧
    IsName schema.toList ∧ IsStep table.toList

theorem joinParts_pair {first second : List Char} :
    joinParts [first, second] = first ++ '.' :: second := by
  rw [joinParts_cons]
  simp [dotted]

/-- A rewritten reference is as it was, or has an alias before the column that it had. -/
theorem rewriteReference_cases (h : IsReference parts) :
    a.rewriteReference parts = joinParts parts ∨
      ∃ qualifier name column, IsQualifier qualifier ∧ a.resolve? qualifier = some name ∧
        parts.getLast? = some column ∧ IsStep column ∧
        a.rewriteReference parts = joinParts [name.toList, column] := by
  obtain ⟨first, more, rfl, hfirst, hmore, hsteps⟩ := h
  match more with
  | [] => exact absurd rfl hmore
  | [column] =>
    unfold rewriteReference
    dsimp only
    cases hresolve : a.resolve? (String.ofList first) with
    | none => exact .inl rfl
    | some name =>
      refine .inr ⟨_, name, column, .inl ?_, hresolve, rfl, hsteps column List.mem_cons_self,
        joinParts_pair.symm⟩
      rwa [String.toList_ofList]
  | [table, column] =>
    unfold rewriteReference
    dsimp only
    cases hresolve : a.resolve? (String.ofList (joinParts [first, table])) with
    | none => exact .inl rfl
    | some name =>
      obtain ⟨htable, hcolumn⟩ := List.forall_mem_cons.mp hsteps
      refine .inr ⟨_, name, column, .inr ⟨String.ofList first, String.ofList table, ?_, ?_, ?_⟩,
        hresolve, rfl, List.forall_mem_singleton.mp hcolumn, joinParts_pair.symm⟩
      · rw [joinParts_pair]
        exact String.toList_injective (by simp)
      · rwa [String.toList_ofList]
      · rwa [String.toList_ofList]
  | table :: column :: next :: rest => exact .inl rfl

/-- No alias that a reference is given is the name of a table with another one. -/
def Settled (a : Aliases) : Prop :=
  ∀ qualifier name other, IsQualifier qualifier → a.resolve? qualifier = some name →
    startsPart name.toList = true → a.resolve? name = some other → other = name

/-- Rewriting leaves a reference alone that was rewritten before. -/
theorem rewriteFrom_rewriteReference
    (hident : ∀ name other, a.resolve? name = some other → isIdentifier other.toList = true)
    (hsettled : Settled a) (h : IsReference parts) (hend : EndsBefore parts rest) :
    a.rewriteFrom false 0 (a.rewriteReference parts ++ rest) =
      a.rewriteReference parts ++ a.rewriteFrom (EndsInWord parts) 0 rest := by
  rcases rewriteReference_cases (a := a) h with hsame | ⟨qualifier, name, column, hqualifier,
    hresolve, hlast, hcolumn, hrewritten⟩
  · rw [hsame, rewriteFrom_joinParts h hend, hsame]
  · have hname := hident qualifier name hresolve
    have hends : EndsInWord [name.toList, column] = EndsInWord parts := by
      rw [EndsInWord, EndsInWord, hlast]
      rfl
    have hend' : EndsBefore [name.toList, column] rest :=
      ⟨hend.noStep, by simpa [hlast] using hend.word⟩
    rw [hrewritten]
    cases hstarts : startsPart name.toList with
    | true =>
      have hreference : IsReference [name.toList, column] :=
        ⟨_, _, rfl, ⟨hname, hstarts⟩, List.cons_ne_nil _ _, List.forall_mem_singleton.mpr hcolumn⟩
      have hkept : (a.resolve? name).getD name = name :=
        resolve?_getD_eq_iff.mpr fun other => hsettled _ _ _ hqualifier hresolve hstarts
      have hself : a.rewriteReference [name.toList, column] = joinParts [name.toList, column] := by
        unfold rewriteReference
        dsimp only
        rw [String.ofList_toList]
        cases hother : a.resolve? name with
        | none => rfl
        | some other =>
          rw [hother, Option.getD_some] at hkept
          rw [hkept, joinParts_pair]
          rfl
      rw [rewriteFrom_joinParts hreference hend', hself, hends]
    | false =>
      -- No reference begins with a digit, nor in the column behind it.
      have hnone : reference? (name.toList ++ '.' :: (column ++ rest)) = none := by
        obtain ⟨c, cs, hcs⟩ := List.exists_cons_of_ne_nil (isIdentifier_iff.mp hname).1
        rw [hcs] at hname hstarts ⊢
        exact reference?_of_not_startsName ((startsPart_cons hname).symm.trans hstarts)
      have hcolumn' : EndsInWord parts = (column != ['*']) := by
        rw [EndsInWord, hlast]
        rfl
      rw [joinParts_pair, List.append_assoc, List.cons_append,
        rewriteFrom_word_of_none hname hnone, rewriteFrom_dot,
        rewriteFrom_step hcolumn ⟨hend.noStep, by simpa [hlast] using hend.word⟩, hcolumn']
      simp

/-- Rewriting keeps the first character behind a word. -/
theorem head?_rewriteFrom_true : (a.rewriteFrom true 0 rest).head? = rest.head? := by
  cases rest with
  | nil => rfl
  | cons c cs => rfl

/-- Before a character that does not begin a name, nothing is rewritten. -/
theorem rewriteFrom_of_not_startsName (h : startsName c = false) :
    a.rewriteFrom inWord 0 (c :: cs) = c :: a.rewriteFrom (isWord c) 0 cs := by
  rw [Aliases.rewriteFrom, reference?_of_not_startsName h, ite_self]

theorem rewritePieces_eq_nil_iff {quoted : Bool} {pieces : List (List Char)} :
    a.rewritePieces quoted pieces = [] ↔ pieces = [] := by
  cases pieces <;> simp [rewritePieces]

section Rewritten

variable (hident : ∀ name other, a.resolve? name = some other → isIdentifier other.toList = true)
include hident

/-- A rewritten reference begins with a word. -/
theorem exists_cons_rewriteReference (h : IsReference parts) :
    ∃ d ds, a.rewriteReference parts = d :: ds ∧ isAsciiWord d = true := by
  rcases rewriteReference_cases (a := a) h with hsame | ⟨qualifier, name, column, -, hresolve, -, -,
    hrewritten⟩
  · obtain ⟨c, cs, more, rfl, -, hword, -, -⟩ := h.exists_cons
    exact ⟨c, cs ++ dotted more, hsame.trans joinParts_cons, hword c List.mem_cons_self⟩
  · obtain ⟨hne, hword⟩ := isIdentifier_iff.mp (hident qualifier name hresolve)
    obtain ⟨d, ds, hname⟩ := List.exists_cons_of_ne_nil hne
    refine ⟨d, ds ++ '.' :: column, ?_, hword d (hname ▸ List.mem_cons_self)⟩
    rw [hrewritten, joinParts_pair, hname, List.cons_append]

/-- Rewriting makes no point in front of a part of a reference. -/
theorem NoStep.rewriteFrom (h : NoStep rest) : NoStep (a.rewriteFrom inWord 0 rest) := by
  intro d ds heq
  cases rest with
  | nil => cases heq
  | cons c cs =>
    rw [Aliases.rewriteFrom] at heq
    split at heq
    · next parts hread =>
      have hread : reference? (c :: cs) = some parts := by
        split at hread
        · cases hread
        · exact hread
      obtain ⟨e, es, hrewritten, hword⟩ :=
        exists_cons_rewriteReference hident (exists_rest_of_reference? hread).1
      rw [hrewritten, List.cons_append] at heq
      obtain ⟨rfl, -⟩ := List.cons.inj heq
      exact absurd hword (by decide)
    · obtain ⟨rfl, heq⟩ := List.cons.inj heq
      cases cs with
      | nil => cases heq
      | cons e es =>
        obtain ⟨hstar, hstarts⟩ := h e es rfl
        rw [rewriteFrom_of_not_startsName hstarts] at heq
        cases heq
        exact ⟨hstar, hstarts⟩

theorem EndsBefore.rewriteFrom (h : EndsBefore parts rest) :
    EndsBefore parts (a.rewriteFrom (EndsInWord parts) 0 rest) := by
  refine ⟨h.noStep.rewriteFrom hident, fun last hlast hstar => ?_⟩
  have hword : EndsInWord parts = true := by
    rw [EndsInWord, Option.mem_def.mp hlast]
    simpa using hstar
  rw [hword, head?_rewriteFrom_true]
  exact h.word last hlast hstar

/-- A text that was rewritten stays as it is. -/
theorem rewriteFrom_rewriteFrom (hsettled : Settled a) (cs : List Char) (inWord : Bool) :
    a.rewriteFrom inWord 0 (a.rewriteFrom inWord 0 cs) = a.rewriteFrom inWord 0 cs := by
  induction hlength : cs.length using Nat.strong_induction_on generalizing cs inWord with
  | _ n ih =>
  subst hlength
  cases cs with
  | nil => rfl
  | cons c cs =>
    have hnext : ∀ inWord, a.rewriteFrom inWord 0 (a.rewriteFrom inWord 0 cs) =
        a.rewriteFrom inWord 0 cs :=
      fun inWord => ih cs.length (Nat.lt_succ_self _) cs inWord rfl
    cases inWord with
    | true => exact congrArg (c :: ·) (hnext (isWord c))
    | false =>
      cases hread : reference? (c :: cs) with
      | some parts =>
        obtain ⟨hreference, rest, heq, hend⟩ := exists_rest_of_reference? hread
        obtain ⟨e, es, d, hjoined, -⟩ := hreference.exists_concat
        have hshorter : rest.length < (c :: cs).length := by
          rw [heq, hjoined, List.length_append, List.length_cons]
          omega
        rw [heq, rewriteFrom_joinParts hreference hend,
          rewriteFrom_rewriteReference hident hsettled hreference (hend.rewriteFrom hident),
          ih rest.length hshorter rest _ rfl]
      | none =>
        by_cases hstarts : startsName c = true
        · -- A name by itself. What follows it does not become another part of it.
          have hname := @isName_takeWhile c cs hstarts
          have hsplit : c :: cs = (c :: cs.takeWhile isAsciiWord) ++ cs.dropWhile isAsciiWord := by
            rw [List.cons_append, List.takeWhile_append_dropWhile]
          have hhead := @head?_dropWhile cs
          have hshorter : (cs.dropWhile isAsciiWord).length < (c :: cs).length :=
            Nat.lt_succ_of_le (List.dropWhile_sublist isAsciiWord).length_le
          have hrest := ih _ hshorter (cs.dropWhile isAsciiWord) true rfl
          rw [hsplit] at hread ⊢
          generalize cs.dropWhile isAsciiWord = rest at hread hhead hrest ⊢
          have hno := (reference?_eq_none_iff hname hhead).mp hread
          have hread' : reference? ((c :: cs.takeWhile isAsciiWord) ++ a.rewriteFrom true 0 rest) =
              none := by
            refine (reference?_eq_none_iff hname ?_).mpr (hno.rewriteFrom hident)
            rwa [head?_rewriteFrom_true]
          rw [rewriteFrom_word_of_none hname.1 hread, rewriteFrom_word_of_none hname.1 hread',
            hrest]
        · have hstarts := Bool.eq_false_iff.mpr hstarts
          rw [rewriteFrom_of_not_startsName hstarts, rewriteFrom_of_not_startsName hstarts, hnext]

/-- A rewritten reference has no quotes. -/
theorem quote_not_mem_rewriteReference (h : IsReference parts) :
    '\'' ∉ a.rewriteReference parts := by
  rcases rewriteReference_cases (a := a) h with hsame | ⟨qualifier, name, column, -, hresolve, -,
    hcolumn, hrewritten⟩
  · obtain ⟨first, more, rfl, hfirst, -, hsteps⟩ := h
    rw [hsame]
    exact quote_not_mem_joinParts (.inl hfirst.1) fun part hpart => (hsteps part hpart).isPart
  · rw [hrewritten]
    exact quote_not_mem_joinParts (.inl (hident qualifier name hresolve))
      (List.forall_mem_singleton.mpr hcolumn.isPart)

/-- Rewriting makes no quotes. -/
theorem quote_not_mem_rewriteFrom {skip : Nat} (h : '\'' ∉ cs) :
    '\'' ∉ a.rewriteFrom inWord skip cs := by
  fun_induction a.rewriteFrom inWord skip cs with
  | case1 => exact h
  | case2 inWord skip c cs ih => exact ih (mt (List.mem_cons_of_mem c) h)
  | case3 inWord c cs parts hread ih =>
    have hread : reference? (c :: cs) = some parts := by
      split at hread
      · cases hread
      · exact hread
    rw [List.mem_append, not_or]
    exact ⟨quote_not_mem_rewriteReference hident (exists_rest_of_reference? hread).1,
      ih (mt (List.mem_cons_of_mem c) h)⟩
  | case4 inWord c cs hread ih =>
    rw [List.mem_cons, not_or] at h ⊢
    exact ⟨h.1, ih h.2⟩

/-! ## Pieces between quotes -/

theorem rewritePieces_rewritePieces (hsettled : Settled a) (quoted : Bool)
    (pieces : List (List Char)) :
    a.rewritePieces quoted (a.rewritePieces quoted pieces) = a.rewritePieces quoted pieces := by
  induction pieces generalizing quoted with
  | nil => rfl
  | cons piece pieces ih =>
    rw [rewritePieces, rewritePieces, ih]
    cases quoted with
    | true => rfl
    | false => exact congrArg (· :: _) (rewriteFrom_rewriteFrom hident hsettled piece false)

theorem quote_not_mem_rewritePieces {quoted : Bool} {pieces : List (List Char)}
    (h : ∀ piece ∈ pieces, '\'' ∉ piece) :
    ∀ piece ∈ a.rewritePieces quoted pieces, '\'' ∉ piece := by
  induction pieces generalizing quoted with
  | nil => exact h
  | cons piece pieces ih =>
    obtain ⟨hpiece, hpieces⟩ := List.forall_mem_cons.mp h
    refine List.forall_mem_cons.mpr ⟨?_, ih hpieces⟩
    cases quoted with
    | true => exact hpiece
    | false => exact quote_not_mem_rewriteFrom hident hpiece

/-- An expression that was rewritten stays as it is. -/
theorem rewrite_rewrite (hsettled : Settled a) (expression : String) :
    a.rewrite (a.rewrite expression) = a.rewrite expression := by
  have hne : a.rewritePieces false (splitChars '\'' expression.toList) ≠ [] :=
    rewritePieces_eq_nil_iff.not.mpr (splitChars_ne_nil _ _)
  have hpieces : ∀ piece ∈ splitChars '\'' expression.toList, '\'' ∉ piece :=
    fun _ => separator_not_mem
  have hquotes :
      ∀ piece ∈ a.rewritePieces false (splitChars '\'' expression.toList), '\'' ∉ piece :=
    quote_not_mem_rewritePieces hident hpieces
  unfold rewrite
  rw [String.toList_ofList, splitChars_eq_splitOn, List.splitOn_intercalate '\'' hquotes hne,
    rewritePieces_rewritePieces hident hsettled]

end Rewritten

/-! ## Which aliases are left alone -/

/-- The reference to a column of what can stand before it takes the alias of the table. -/
theorem rewrite_qualified {qualifier column : String} (hqualifier : IsQualifier qualifier)
    (hcolumn : IsStep column.toList) :
    a.rewrite (qualifier ++ "." ++ column) =
      (a.resolve? qualifier).getD qualifier ++ "." ++ column := by
  obtain ⟨part, parts, hreference, hjoined, hrewritten⟩ : ∃ part parts,
      IsReference (part :: parts) ∧
        (qualifier ++ "." ++ column).toList = joinParts (part :: parts) ∧
        a.rewriteReference (part :: parts) =
          ((a.resolve? qualifier).getD qualifier ++ "." ++ column).toList := by
    rcases hqualifier with hname | ⟨schema, table, rfl, hschema, htable⟩
    · exact ⟨qualifier.toList, [column.toList], ⟨_, _, rfl, hname, List.cons_ne_nil _ _,
        List.forall_mem_singleton.mpr hcolumn⟩, joinParts_two.symm, rewriteReference_two⟩
    · exact ⟨schema.toList, [table.toList, column.toList],
        ⟨_, _, rfl, hschema, List.cons_ne_nil _ _,
          List.forall_mem_cons.mpr ⟨htable, List.forall_mem_singleton.mpr hcolumn⟩⟩,
        joinParts_three.symm, rewriteReference_three⟩
  obtain ⟨first, more, heq, hfirst, -, hsteps⟩ := id hreference
  cases heq
  have hend : EndsBefore (part :: parts) [] :=
    ⟨fun _ _ heq => (nomatch heq), fun _ _ _ _ hd => (nomatch hd)⟩
  have hread := rewriteFrom_joinParts (a := a) hreference hend
  rw [List.append_nil] at hread
  refine String.toList_injective ?_
  rw [toList_rewrite (.inl hfirst.1) (fun p hp => (hsteps p hp).isPart) hjoined, hread, hrewritten]
  exact List.append_nil _

/-- Rewriting a second time changes nothing iff every alias that it leads to is left alone. -/
theorem rewrite_rewrite_iff
    (hident : ∀ name other, a.resolve? name = some other → isIdentifier other.toList = true) :
    (∀ expression, a.rewrite (a.rewrite expression) = a.rewrite expression) ↔ Settled a := by
  refine ⟨fun hidem qualifier name other hqualifier hname hstarts hother => ?_,
    rewrite_rewrite hident⟩
  have hcolumn : IsStep "x".toList := .inl ⟨by decide, by decide⟩
  have hsame := hidem (qualifier ++ "." ++ "x")
  rw [rewrite_qualified hqualifier hcolumn, hname, Option.getD_some,
    rewrite_qualified (.inl ⟨hident qualifier name hname, hstarts⟩) hcolumn, hother,
    Option.getD_some, String.append_left_inj, String.append_left_inj] at hsame
  exact hsame

end Recount.Sql.Aliases
