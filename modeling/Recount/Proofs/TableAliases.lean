import Recount.Proofs.Sql.AnyLimit

/-!
# Aliases of tables

Every table of a query gets an alias of its own, unless a join brings one that is no identifier or
that another join has brought before. An alias that is made up is the first of the names tried for
its table that is not in use. The search does not know the keywords of a statement, and the first
two characters of a name can be one.
-/

namespace Recount.Sql.Aliases

open Text

variable {mainTable table name : String} {used used' : List String} {joins : List Join}
  {a : Aliases}

/-! ## Names that are made up -/

/-- The names that are tried as the alias of a table, one after the other: its two beginnings, and
the longer one with the numbers from two on. -/
def attempt (table : String) : Nat → String
  | 0 => (candidates table).1
  | 1 => (candidates table).2
  | n + 2 => (candidates table).2 ++ toString (n + 2)

/-- An alias that was made up for a table while others were in use. -/
structure Generated (table : String) (used : List String) (name : String) : Prop where
  /-- All names that are tried before it are in use. -/
  first : ∃ n, name = attempt table n ∧ ∀ m < n, attempt table m ∈ used
  unused : name ∉ used
  lower : IsLowerWord name.toList
  letter : ∀ c ∈ name.toList.head?, c.isDigit = false

theorem Generated.congr (h : Generated table used name) (hused : ∀ x, x ∈ used ↔ x ∈ used') :
    Generated table used' name := by
  obtain ⟨n, hname, hbefore⟩ := h.first
  exact ⟨⟨n, hname, fun m hm => (hused _).mp (hbefore m hm)⟩,
    fun hmem => h.unused ((hused _).mpr hmem), h.lower, h.letter⟩

/-- The search ends with the first name that is not in use. -/
theorem exists_attempt (table : String) (used : List String) :
    ∃ n, generate table used = attempt table n ∧ ∀ m < n, attempt table m ∈ used := by
  have hmem : ∀ n, ¬ (!used.contains (attempt table n)) = true → attempt table n ∈ used :=
    fun n hn => by simpa using hn
  unfold generate
  dsimp only
  split
  · exact ⟨0, rfl, fun m hm => absurd hm (Nat.not_lt_zero m)⟩
  · next hbase =>
    split
    · refine ⟨1, rfl, fun m hm => ?_⟩
      rw [Nat.lt_one_iff.mp hm]
      exact hmem 0 hbase
    · next htwo =>
      obtain ⟨k, hk, hnew⟩ := exists_not_mem_numbered (candidates table).2 used
      rw [List.find?_map]
      cases hfind : (List.range (used.length + 1)).find? ((fun name => !used.contains name) ∘
          fun n => (candidates table).2 ++ toString (n + 2)) with
      | none => exact absurd (hmem (k + 2) (List.find?_eq_none.mp hfind k hk)) hnew
      | some n =>
        obtain ⟨-, -, hbefore⟩ := List.find?_range_eq_some.mp hfind
        refine ⟨n + 2, rfl, fun m hm => ?_⟩
        match m with
        | 0 => exact hmem 0 hbase
        | 1 => exact hmem 1 htwo
        | m + 2 =>
          have hused : (!(!used.contains (attempt table (m + 2)))) = true :=
            hbefore m (Nat.lt_of_add_lt_add_right hm)
          exact hmem (m + 2) (by simpa using hused)

/-- No name that is tried begins with a digit. -/
theorem not_isDigit_of_mem_head? (n : Nat) :
    ∀ c ∈ (attempt table n).toList.head?, c.isDigit = false := by
  obtain ⟨c, cs, ds, hdigit, hone, htwo⟩ := exists_head_candidates table
  have hhead : (attempt table n).toList.head? = some c := by
    match n with
    | 0 => exact congrArg List.head? hone
    | 1 => exact congrArg List.head? htwo
    | n + 2 => simp [attempt, String.toList_append, htwo]
  intro d hd
  rw [hhead] at hd
  cases hd
  exact hdigit

theorem generated_generate (table : String) (used : List String) :
    Generated table used (generate table used) := by
  obtain ⟨n, hname, hbefore⟩ := exists_attempt table used
  obtain ⟨hunused, hlower⟩ := @generate_spec table used
  exact ⟨⟨n, hname, hbefore⟩, hunused, hlower, hname ▸ not_isDigit_of_mem_head? n⟩

/-! ## Aliases of joined tables -/

/-- A join keeps the alias that it brings. -/
theorem ofJoins_given {i : Nat} {j : Join} (hj : joins[i]? = some j)
    (hname : j.alias? = some name) : (ofJoins used joins)[i]? = some name := by
  induction joins generalizing used i with
  | nil => cases hj
  | cons k joins ih =>
    rw [ofJoins]
    cases i with
    | zero =>
      cases hj
      rw [hname]
      rfl
    | succ i => split <;> exact ih hj

/-- A join without an alias gets one while those of the tables before it, and those that joins
bring, are in use. -/
theorem ofJoins_generated (hused : ∀ x ∈ given joins, x ∈ used) {i : Nat} {j : Join}
    (hj : joins[i]? = some j) (hnone : j.alias? = none) :
    ∃ name, (ofJoins used joins)[i]? = some name ∧
      Generated j.table (used ++ ((ofJoins used joins).take i).map asciiLower) name := by
  induction joins generalizing used i with
  | nil => cases hj
  | cons k joins ih =>
    rw [ofJoins]
    cases i with
    | zero =>
      cases hj
      rw [hnone]
      refine ⟨_, rfl, ?_⟩
      rw [List.take_zero, List.map_nil, List.append_nil]
      exact generated_generate j.table used
    | succ i =>
      split
      · next brought hsome =>
        rw [given_cons_of_some hsome] at hused
        obtain ⟨hbrought, hused⟩ := List.forall_mem_cons.mp hused
        obtain ⟨name, hname, hgenerated⟩ := ih hused hj
        refine ⟨name, hname, hgenerated.congr fun x => ?_⟩
        rw [List.take_succ_cons, List.map_cons, List.mem_append, List.mem_append, List.mem_cons]
        exact ⟨Or.imp_right Or.inr, fun h => h.elim .inl
          fun h => h.elim (fun heq => .inl (heq ▸ hbrought)) .inr⟩
      · next hnone =>
        rw [given_cons_of_none hnone] at hused
        obtain ⟨name, hname, hgenerated⟩ :=
          ih (fun x hx => List.mem_cons_of_mem _ (hused x hx)) hj
        refine ⟨name, hname, hgenerated.congr fun x => ?_⟩
        rw [List.take_succ_cons, List.map_cons, List.cons_append]
        exact List.perm_middle.symm.mem_iff

/-! ## Assigned aliases -/

/-- The aliases that joins bring can be used: they are identifiers, and no two are the same, also if
case is ignored. -/
structure Usable (joins : List Join) : Prop where
  identifier : ∀ j ∈ joins, ∀ name, j.alias? = some name → isIdentifier name.toList = true
  distinct : (given joins).Nodup

/-- Every table has an alias of its own: a join that brings one keeps it, and the others are made up
while those that joins bring, and those of the tables before, are in use. -/
structure Assigned (mainTable : String) (joins : List Join) (a : Aliases) : Prop where
  length : a.joins.length = joins.length
  distinct : ((a.main :: a.joins).map asciiLower).Nodup
  kept : ∀ (i : Nat) j name, joins[i]? = some j → j.alias? = some name → a.joins[i]? = some name
  main : Generated mainTable (given joins) a.main
  generated : ∀ (i : Nat) j, joins[i]? = some j → j.alias? = none →
    ∃ name, a.joins[i]? = some name ∧
      Generated j.table (given joins ++ (a.main :: a.joins.take i).map asciiLower) name

/-- Why the aliases that joins bring are refused: the first one that cannot be used with those
before it. -/
theorem explicit_eq_error {defect : Defect} (h : explicit used joins = .error defect) :
    ∃ earlier j later name, joins = earlier ++ j :: later ∧ j.alias? = some name ∧ Usable earlier ∧
      (∀ x ∈ given earlier, x ∉ used) ∧
      (isIdentifier name.toList = false ∧ defect = .alias_ name ∨
        (asciiLower name ∈ given earlier ∨ asciiLower name ∈ used) ∧
          defect = .duplicateAlias name) := by
  have hnothing : Usable [] := ⟨fun j hj => absurd hj List.not_mem_nil, List.nodup_nil⟩
  induction joins generalizing used with
  | nil => cases h
  | cons j joins ih =>
    rw [explicit] at h
    split at h
    · next hnone =>
      obtain ⟨earlier, k, later, name, rfl, hname, husable, hnew, hdefect⟩ := ih h
      have hgiven : given (j :: earlier) = given earlier := given_cons_of_none hnone
      refine ⟨j :: earlier, k, later, name, rfl, hname, ⟨?_, hgiven ▸ husable.distinct⟩,
        hgiven ▸ hnew, hgiven ▸ hdefect⟩
      exact List.forall_mem_cons.mpr ⟨by simp [hnone], husable.identifier⟩
    · next brought hsome =>
      by_cases hident : isIdentifier brought.toList = true
      · have hcheck : checkAlias brought = .ok () := if_pos hident
        rw [hcheck] at h
        dsimp only [bind, Except.bind] at h
        split at h
        · next hused =>
          cases h
          exact ⟨[], j, joins, brought, rfl, hsome, hnothing, by simp [given],
            .inr ⟨.inr (by simpa using hused), rfl⟩⟩
        · next hunused =>
          obtain ⟨earlier, k, later, name, rfl, hname, husable, hnew, hdefect⟩ := ih h
          have hgiven : given (j :: earlier) = asciiLower brought :: given earlier :=
            given_cons_of_some hsome
          refine ⟨j :: earlier, k, later, name, rfl, hname, ⟨?_, ?_⟩, ?_, ?_⟩
          · exact List.forall_mem_cons.mpr ⟨by simp [hsome, hident], husable.identifier⟩
          · rw [hgiven]
            exact List.nodup_cons.mpr
              ⟨fun hmem => hnew _ hmem List.mem_cons_self, husable.distinct⟩
          · rw [hgiven]
            exact List.forall_mem_cons.mpr ⟨by simpa using hunused,
              fun x hx hmem => hnew x hx (List.mem_cons_of_mem _ hmem)⟩
          · rw [hgiven]
            rcases hdefect with hdefect | ⟨hmem | hmem, heq⟩
            · exact .inl hdefect
            · exact .inr ⟨.inl (List.mem_cons_of_mem _ hmem), heq⟩
            · rcases List.mem_cons.mp hmem with hsame | hmem
              · exact .inr ⟨.inl (hsame ▸ List.mem_cons_self), heq⟩
              · exact .inr ⟨.inr hmem, heq⟩
      · have hcheck : checkAlias brought = .error (.alias_ brought) := if_neg hident
        rw [hcheck] at h
        cases h
        exact ⟨[], j, joins, brought, rfl, hsome, hnothing, by simp [given],
          .inl ⟨Bool.eq_false_iff.mpr hident, rfl⟩⟩

/-- Aliases that are built are assigned to their tables. -/
theorem assigned_of_build (h : build mainTable joins = .ok a) : Assigned mainTable joins a := by
  obtain ⟨hlength, -, hdistinct, -⟩ := build_eq_ok h
  obtain ⟨used, hexplicit, h⟩ := bind_eq_ok_iff.mp h
  cases h
  obtain ⟨rfl, -, -, -⟩ := explicit_eq_ok hexplicit
  have hmem : ∀ x, x ∈ (given joins).reverse ++ [] ↔ x ∈ given joins := by simp
  have hmain := generated_generate mainTable ((given joins).reverse ++ [])
  dsimp only at hlength hdistinct ⊢
  generalize (given joins).reverse ++ [] = used at hmem hmain hlength hdistinct ⊢
  generalize generate mainTable used = main at hmain hlength hdistinct ⊢
  refine ⟨hlength, hdistinct, fun i j name hj hname => ofJoins_given hj hname, hmain.congr hmem, ?_⟩
  intro i j hj hnone
  obtain ⟨name, hname, hgenerated⟩ := ofJoins_generated
    (fun x hx => List.mem_cons_of_mem (asciiLower main) ((hmem x).mpr hx)) hj hnone
  refine ⟨name, hname, hgenerated.congr fun x => ?_⟩
  simp only [List.map_cons, List.mem_append, List.mem_cons, hmem]
  tauto

/-- Aliases are assigned to all tables, or the first alias that joins bring and that cannot be used
is refused. -/
theorem aliases_assigned (mainTable : String) (joins : List Join) :
    (Usable joins ∧ ∃ a, build mainTable joins = .ok a ∧ Assigned mainTable joins a) ∨
      ∃ earlier j later name, joins = earlier ++ j :: later ∧ j.alias? = some name ∧
        Usable earlier ∧
        (isIdentifier name.toList = false ∧ build mainTable joins = .error (.alias_ name) ∨
          asciiLower name ∈ given earlier ∧
            build mainTable joins = .error (.duplicateAlias name)) := by
  cases hexplicit : explicit [] joins with
  | error defect =>
    right
    obtain ⟨earlier, j, later, name, hjoins, hname, husable, -, hdefect⟩ :=
      explicit_eq_error hexplicit
    have hbuild : build mainTable joins = .error defect := by
      rw [build, hexplicit]
      rfl
    refine ⟨earlier, j, later, name, hjoins, hname, husable, ?_⟩
    rw [hbuild]
    rcases hdefect with ⟨hident, rfl⟩ | ⟨hmem, rfl⟩
    · exact .inl ⟨hident, rfl⟩
    · exact .inr ⟨hmem.resolve_right List.not_mem_nil, rfl⟩
  | ok used =>
    left
    obtain ⟨-, hdistinct, -, hident⟩ := explicit_eq_ok hexplicit
    obtain ⟨a, ha⟩ : ∃ a, build mainTable joins = .ok a := by
      rw [build, hexplicit]
      exact ⟨_, rfl⟩
    exact ⟨⟨hident, hdistinct⟩, a, ha, assigned_of_build ha⟩


/-! ## Keywords

A name that is tried has one character, or a digit in it, or it is the first two characters of the
bare name of its table. So only the keywords of two letters can come up, and they do whenever the
first of the two is in use by itself. -/

/-- The words of a statement besides the names in it. -/
def keywords : List String :=
  ["SELECT", "TOP", "AS", "FROM", "INNER", "LEFT", "RIGHT", "FULL", "JOIN", "ON", "WHERE", "AND",
    "LIKE", "IN", "IS", "NOT", "NULL", "LIMIT"]

/-- A name is a keyword if case is ignored. -/
def IsKeyword (name : String) : Prop := ∃ key ∈ keywords, asciiLower key = asciiLower name

instance : Decidable (IsKeyword name) :=
  inferInstanceAs (Decidable (∃ key ∈ keywords, asciiLower key = asciiLower name))

/-- The search for an alias comes to a keyword: the bare name of the table begins with one of two
letters that is not in use, while its first letter is. -/
def MeetsKeyword (table : String) (used : List String) : Prop :=
  ∃ c d rest, (bareName table).filter isAsciiWord = c :: d :: rest ∧
    String.ofList [c, d] ∈ ["as", "in", "is", "on"] ∧ String.ofList [c] ∈ used ∧
    String.ofList [c, d] ∉ used

theorem not_isKeyword_of_isDigit (hlower : IsLowerWord name.toList) {c : Char}
    (hc : c ∈ name.toList) (hdigit : c.isDigit = true) : ¬ IsKeyword name := by
  rintro ⟨key, hkey, heq⟩
  have hletters : ∀ key ∈ keywords, ∀ c ∈ key.toList, c.toLower.isDigit = false := by
    simp [keywords]
  rw [hlower.asciiLower_eq] at heq
  rw [← heq, toList_asciiLower] at hc
  obtain ⟨d, hd, rfl⟩ := List.mem_map.mp hc
  rw [hletters key hkey d hd] at hdigit
  cases hdigit

/-- A short name in lower case is a keyword only if it is one of four. -/
theorem isKeyword_iff_of_length (hlower : IsLowerWord name.toList)
    (hlength : name.toList.length ≤ 2) : IsKeyword name ↔ name ∈ ["as", "in", "is", "on"] := by
  have hshort : ∀ key ∈ keywords, (asciiLower key).toList.length ≤ 2 →
      asciiLower key ∈ ["as", "in", "is", "on"] := by decide +kernel
  have hkeys : ∀ name ∈ ["as", "in", "is", "on"], IsKeyword name := by decide +kernel
  constructor
  · rintro ⟨key, hkey, heq⟩
    rw [hlower.asciiLower_eq] at heq
    exact heq ▸ hshort key hkey (heq ▸ hlength)
  · exact hkeys name

section Beginnings

variable {c d : Char} {rest : List Char}

/-- The shorter beginning is the first character, behind a letter if it is a digit. -/
theorem attempt_short (h : (bareName table).filter isAsciiWord = c :: rest) :
    (attempt table 0).toList = if c.isDigit then ['t', c] else [c] := by
  have hword : c ∈ (bareName table).filter isAsciiWord := h ▸ List.mem_cons_self
  have hletter : (c.isAlpha || c == '_') = !c.isDigit := startsName_eq (List.of_mem_filter hword)
  cases hdigit : c.isDigit <;> simp [attempt, candidates, h, hletter, hdigit]

/-- The longer beginning goes on with the second character, if there is one. -/
theorem attempt_long (h : (bareName table).filter isAsciiWord = c :: d :: rest) :
    (attempt table 1).toList = (attempt table 0).toList ++ [d] := by
  simp [attempt, candidates, h]

theorem attempt_doubled (h : ((bareName table).filter isAsciiWord).drop 1 = []) :
    (attempt table 1).toList = (attempt table 0).toList ++ (attempt table 0).toList := by
  simp [attempt, candidates, h]

theorem not_isDigit_of_key (h : String.ofList [c, d] ∈ ["as", "in", "is", "on"]) :
    c.isDigit = false := by
  have hstarts : ∀ key ∈ ["as", "in", "is", "on"],
      key.toList.head?.all (fun c => !c.isDigit) = true := by decide
  simpa using hstarts _ h

/-- If the first two characters of a bare name are a keyword, they are its beginnings. -/
theorem attempt_of_key (h : (bareName table).filter isAsciiWord = c :: d :: rest)
    (hkey : String.ofList [c, d] ∈ ["as", "in", "is", "on"]) :
    attempt table 0 = String.ofList [c] ∧ attempt table 1 = String.ofList [c, d] := by
  have hshort : (attempt table 0).toList = [c] := by
    rw [attempt_short h, not_isDigit_of_key hkey]
    rfl
  have hlong : (attempt table 1).toList = [c, d] := by
    rw [attempt_long h, hshort]
    rfl
  exact ⟨String.toList_injective (by rw [hshort, String.toList_ofList]),
    String.toList_injective (by rw [hlong, String.toList_ofList])⟩

end Beginnings

/-- The shorter beginning is a single character, or has a digit in it. -/
theorem not_isKeyword_short (table : String) : ¬ IsKeyword (attempt table 0) := by
  have hlower : IsLowerWord (attempt table 0).toList := isLowerWord_candidates.1
  have hlong : ∀ key ∈ ["as", "in", "is", "on"], key.toList.length = 2 := by decide
  have hsingle : ∀ c, (attempt table 0).toList = [c] → ¬ IsKeyword (attempt table 0) := by
    intro c hc
    rw [isKeyword_iff_of_length hlower (by simp [hc])]
    intro hmem
    have htwo := hlong _ hmem
    rw [hc] at htwo
    cases htwo
  cases hcs : (bareName table).filter isAsciiWord with
  | nil => exact hsingle 't' (by simp [attempt, candidates, hcs])
  | cons c rest =>
    have hshort := attempt_short hcs
    split at hshort
    · next hdigit => exact not_isKeyword_of_isDigit hlower (by simp [hshort]) hdigit
    · exact hsingle c hshort

/-- The longer beginning has a digit in it, doubles a character, or is the first two characters. -/
theorem isKeyword_long_iff : IsKeyword (attempt table 1) ↔
    ∃ c d rest, (bareName table).filter isAsciiWord = c :: d :: rest ∧
      String.ofList [c, d] ∈ ["as", "in", "is", "on"] := by
  have hlower : IsLowerWord (attempt table 1).toList := isLowerWord_candidates.2
  have hdistinct : ∀ key ∈ ["as", "in", "is", "on"], key.toList.Nodup := by decide
  have hdoubled : ∀ c, (attempt table 1).toList = [c, c] → ¬ IsKeyword (attempt table 1) := by
    intro c hc
    rw [isKeyword_iff_of_length hlower (by simp [hc])]
    intro hmem
    have hnodup := hdistinct _ hmem
    rw [hc] at hnodup
    exact (List.nodup_cons.mp hnodup).1 List.mem_cons_self
  constructor
  · intro hkey
    match hcs : (bareName table).filter isAsciiWord with
    | [] => exact absurd hkey (hdoubled 't' (by simp [attempt, candidates, hcs]))
    | [c] =>
      have hlong :
          (attempt table 1).toList = (attempt table 0).toList ++ (attempt table 0).toList :=
        attempt_doubled (by rw [hcs]; rfl)
      rw [attempt_short hcs] at hlong
      split at hlong
      · next hdigit => exact absurd hkey (not_isKeyword_of_isDigit hlower (by simp [hlong]) hdigit)
      · exact absurd hkey (hdoubled c hlong)
    | c :: d :: rest =>
      have hlong := attempt_long hcs
      rw [attempt_short hcs] at hlong
      split at hlong
      · next hdigit => exact absurd hkey (not_isKeyword_of_isDigit hlower (by simp [hlong]) hdigit)
      · refine ⟨c, d, rest, rfl, ?_⟩
        have heq : attempt table 1 = String.ofList [c, d] :=
          String.toList_injective (by rw [hlong, String.toList_ofList]; rfl)
        rw [← heq]
        exact (isKeyword_iff_of_length hlower (by simp [hlong])).mp hkey
  · rintro ⟨c, d, rest, hcs, hkey⟩
    obtain ⟨-, hlong⟩ := attempt_of_key hcs hkey
    rw [isKeyword_iff_of_length hlower (by simp [hlong]), hlong]
    exact hkey

theorem not_isKeyword_numbered (n : Nat) : ¬ IsKeyword (attempt table (n + 2)) := by
  have hnumber := isLowerWord_toString (n + 2)
  have hlower : IsLowerWord (attempt table (n + 2)).toList := by
    rw [attempt, String.toList_append]
    exact isLowerWord_candidates.2.append hnumber
  obtain ⟨c, hc⟩ := List.exists_mem_of_ne_nil _ hnumber.1
  refine not_isKeyword_of_isDigit hlower (c := c) ?_ ?_
  · rw [attempt, String.toList_append]
    exact List.mem_append_right _ hc
  · rw [Nat.toString_eq_repr, Nat.toList_repr] at hc
    exact Nat.isDigit_of_mem_toDigits (by decide) (by decide) hc

/-- An alias that was made up is a keyword just if the search for it has met one. -/
theorem Generated.isKeyword_iff (h : Generated table used name) :
    IsKeyword name ↔ MeetsKeyword table used := by
  obtain ⟨⟨n, rfl, hbefore⟩, hunused, -, -⟩ := h
  have hmeets : MeetsKeyword table used → attempt table 0 ∈ used ∧ attempt table 1 ∉ used := by
    rintro ⟨c, d, rest, hfilter, hkey, hfirst, htwo⟩
    obtain ⟨hshort, hlong⟩ := attempt_of_key hfilter hkey
    exact ⟨hshort ▸ hfirst, hlong ▸ htwo⟩
  rcases n with _ | _ | n
  · exact iff_of_false (not_isKeyword_short table) fun hmeet => hunused (hmeets hmeet).1
  · rw [isKeyword_long_iff]
    constructor
    · rintro ⟨c, d, rest, hfilter, hkey⟩
      obtain ⟨hshort, hlong⟩ := attempt_of_key hfilter hkey
      exact ⟨c, d, rest, hfilter, hkey, hshort ▸ hbefore 0 Nat.one_pos, hlong ▸ hunused⟩
    · rintro ⟨c, d, rest, hfilter, hkey, -, -⟩
      exact ⟨c, d, rest, hfilter, hkey⟩
  · exact iff_of_false (not_isKeyword_numbered n)
      fun hmeet => (hmeets hmeet).2 (hbefore 1 (Nat.succ_lt_succ (Nat.succ_pos n)))

/-- An alias that was made up is a keyword just if the bare name of its table begins with one of two
letters that is not in use while its first letter is: by another join that brings it, or by a table
before. -/
theorem alias_keyword_iff (h : build mainTable joins = .ok a) :
    (IsKeyword a.main ↔ MeetsKeyword mainTable (given joins)) ∧
      ∀ (i : Nat) j, joins[i]? = some j → j.alias? = none → ∃ name, a.joins[i]? = some name ∧
        (IsKeyword name ↔
          MeetsKeyword j.table (given joins ++ (a.main :: a.joins.take i).map asciiLower)) := by
  have hassigned := assigned_of_build h
  refine ⟨hassigned.main.isKeyword_iff, fun i j hj hnone => ?_⟩
  obtain ⟨name, hname, hgenerated⟩ := hassigned.generated i j hj hnone
  exact ⟨name, hname, hgenerated.isKeyword_iff⟩

/-- A table that a join brings an alias for, and two that have the same first letter. -/
def assetJoins : List Join :=
  [⟨"prices", some "A", .inner, []⟩, ⟨"items", none, .inner, []⟩, ⟨"isbn", none, .left, []⟩]

def assetAliases : Aliases where
  main := "as"
  joins := ["A", "i", "is"]
  entries := [("assets", "as"), ("assets", "as"), ("prices", "A"), ("prices", "A"), ("items", "i"),
    ("items", "i"), ("isbn", "is"), ("isbn", "is")]

theorem alias_keyword_iff_assets : build "assets" assetJoins = .ok assetAliases ∧
    MeetsKeyword "assets" (given assetJoins) ∧
      (IsKeyword assetAliases.main ↔ MeetsKeyword "assets" (given assetJoins)) ∧
      ∀ (i : Nat) j, assetJoins[i]? = some j → j.alias? = none →
        ∃ name, assetAliases.joins[i]? = some name ∧
          (IsKeyword name ↔ MeetsKeyword j.table
            (given assetJoins ++
              (assetAliases.main :: assetAliases.joins.take i).map asciiLower)) := by
  have hbuild : build "assets" assetJoins = .ok assetAliases := by rfl
  have h := alias_keyword_iff hbuild
  exact ⟨hbuild, h.1.mp (by decide +kernel), h⟩

/-- Aliases that are made up can be keywords. -/
theorem not_free_of_keywords : ¬ ∀ mainTable joins a, build mainTable joins = .ok a →
    ¬ IsKeyword a.main ∧ ∀ (i : Nat) j name, joins[i]? = some j → j.alias? = none →
      a.joins[i]? = some name → ¬ IsKeyword name := by
  intro hall
  have hbuild : build "orders" [⟨"onhand", none, .inner, []⟩] =
      .ok ⟨"o", ["on"],
        [("orders", "o"), ("orders", "o"), ("onhand", "on"), ("onhand", "on")]⟩ := by
    rfl
  exact (hall _ _ _ hbuild).2 0 _ "on" rfl rfl rfl (by decide +kernel)

example : (Compiler.compile ⟨.postgres, none⟩
    ⟨"orders", [⟨"onhand", none, .inner, [⟨"orders.code", "onhand.code"⟩]⟩],
      [⟨"orders.code", none⟩, ⟨"onhand.qty", none⟩], [], none⟩).map (·.sql) =
    .ok "SELECT o.code, on.qty FROM orders o INNER JOIN onhand on ON o.code = on.code" := by
  decide

end Recount.Sql.Aliases
