import Mathlib
import Recount.Proofs.Result
import Recount.Proofs.Sql.Reference

/-!
# Aliases tell tables apart

The aliases of a query are identifiers that differ, also if case is ignored. A name stands for
the first table that it names, by its whole name or by its bare name.
-/

namespace Recount.Sql.Aliases

open Text

variable {table name : String} {used : List String} {j : Join} {joins : List Join}

/-- A word in lower case. -/
def IsLowerWord (cs : List Char) : Prop := cs ≠ [] ∧ ∀ c ∈ cs, isAsciiWord c = true ∧ c.toLower = c

theorem IsLowerWord.append {cs ds : List Char} (hcs : IsLowerWord cs) (hds : IsLowerWord ds) :
    IsLowerWord (cs ++ ds) := by
  refine ⟨List.append_ne_nil_of_left_ne_nil hcs.1 ds, fun c hc => ?_⟩
  rcases List.mem_append.mp hc with hc | hc
  · exact hcs.2 c hc
  · exact hds.2 c hc

theorem isLowerWord_singleton {c : Char} (hword : isAsciiWord c = true) (hlower : c.toLower = c) :
    IsLowerWord [c] := by
  refine ⟨List.cons_ne_nil c [], fun d hd => ?_⟩
  rw [List.mem_singleton.mp hd]
  exact ⟨hword, hlower⟩

theorem toLower_of_mem_bareName {c : Char} (hc : c ∈ bareName table) : c.toLower = c := by
  unfold bareName at hc
  cases hlast : (splitChars '.' (asciiLower table).toList).getLast? with
  | none =>
    rw [hlast] at hc
    exact absurd hc List.not_mem_nil
  | some last =>
    rw [hlast] at hc
    have hmem := (sublist_of_mem_splitChars (List.mem_of_getLast? hlast)).subset hc
    rw [toList_asciiLower] at hmem
    obtain ⟨d, -, rfl⟩ := List.mem_map.mp hmem
    exact Char.toLower_toLower_eq_toLower d

/-- Aliases are begun with words in lower case. -/
theorem isLowerWord_candidates :
    IsLowerWord (candidates table).1.toList ∧ IsLowerWord (candidates table).2.toList := by
  have hchars : ∀ c ∈ (bareName table).filter isAsciiWord, isAsciiWord c = true ∧ c.toLower = c := by
    intro c hc
    obtain ⟨hmem, hword⟩ := List.mem_filter.mp hc
    exact ⟨hword, toLower_of_mem_bareName hmem⟩
  have ht : IsLowerWord ['t'] := isLowerWord_singleton (by decide) (by decide)
  unfold candidates
  generalize (bareName table).filter isAsciiWord = cs at hchars ⊢
  have hfirst : IsLowerWord [cs.head?.getD 't'] := by
    cases cs with
    | nil => exact ht
    | cons c cs =>
      obtain ⟨hword, hlower⟩ := hchars c List.mem_cons_self
      exact isLowerWord_singleton hword hlower
  dsimp only
  generalize cs.head?.getD 't' = first at hfirst ⊢
  have hbase : IsLowerWord (if first.isAlpha || first == '_' then [first] else ['t', first]) := by
    split
    · exact hfirst
    · exact ht.append hfirst
  generalize (if first.isAlpha || first == '_' then [first] else ['t', first]) = base at hbase ⊢
  rw [String.toList_ofList, String.toList_ofList]
  refine ⟨hbase, ?_⟩
  split
  · next second rest hdrop =>
    have hmem : second ∈ cs := List.mem_of_mem_drop (hdrop ▸ List.mem_cons_self)
    obtain ⟨hword, hlower⟩ := hchars second hmem
    exact hbase.append (isLowerWord_singleton hword hlower)
  · exact hbase.append hbase

theorem isLowerWord_toString (n : Nat) : IsLowerWord (toString n).toList := by
  rw [Nat.toString_eq_repr, Nat.toList_repr]
  refine ⟨Nat.toDigits_ne_nil, fun c hc => ?_⟩
  have hdigit := Nat.isDigit_of_mem_toDigits (by decide) (by decide) hc
  have hupper : ¬ c.isUpper = true := by
    simp only [Char.isDigit, Char.isUpper, Bool.and_eq_true, decide_eq_true_eq,
      UInt32.le_iff_toNat_le, ge_iff_le] at hdigit ⊢
    have hlast : ('9'.val).toNat = 57 := rfl
    have hfirst : ('A'.val).toNat = 65 := rfl
    omega
  exact ⟨by simp [isAsciiWord, Char.isAlphanum, hdigit], Char.toLower_eq_of_not_isUpper hupper⟩

/-- A name that is not used is found among one more than are used. -/
theorem exists_not_mem_numbered (two : String) (used : List String) :
    ∃ n ∈ List.range (used.length + 1), two ++ toString (n + 2) ∉ used := by
  by_contra hall
  have hsub : (List.range (used.length + 1)).map (fun n => two ++ toString (n + 2)) ⊆ used := by
    intro name hname
    obtain ⟨n, hn, rfl⟩ := List.mem_map.mp hname
    by_contra hnot
    exact hall ⟨n, hn, hnot⟩
  have hinj : Function.Injective fun n : Nat => two ++ toString (n + 2) := by
    intro m n h
    have hrepr := (String.append_right_inj two).mp h
    rw [Nat.toString_eq_repr, Nat.toString_eq_repr, Nat.repr_inj] at hrepr
    exact Nat.add_right_cancel hrepr
  have hle := (List.nodup_range.map hinj).length_le_of_subset hsub
  rw [List.length_map, List.length_range] at hle
  exact Nat.not_succ_le_self _ hle

/-- A generated alias is a word in lower case that is not used yet. -/
theorem generate_spec : generate table used ∉ used ∧ IsLowerWord (generate table used).toList := by
  obtain ⟨hbase, htwo⟩ := @isLowerWord_candidates table
  unfold generate
  generalize candidates table = beginnings at hbase htwo ⊢
  obtain ⟨base, two⟩ := beginnings
  dsimp only at hbase htwo ⊢
  split
  · next hnot => exact ⟨by simpa using hnot, hbase⟩
  · split
    · next hnot => exact ⟨by simpa using hnot, htwo⟩
    · cases hfind : ((List.range (used.length + 1)).map fun n => two ++ toString (n + 2)).find?
          fun name => !used.contains name with
      | none =>
        obtain ⟨n, hn, hnot⟩ := exists_not_mem_numbered two used
        have hall := List.find?_eq_none.mp hfind _ (List.mem_map_of_mem hn)
        generalize two ++ toString (n + 2) = name at hall hnot
        exact absurd hnot (by simpa using hall)
      | some name =>
        obtain ⟨n, -, rfl⟩ := List.mem_map.mp (List.mem_of_find?_eq_some hfind)
        have hnew := List.find?_some hfind
        refine ⟨by simpa using hnew, ?_⟩
        rw [Option.getD_some, String.toList_append]
        exact htwo.append (isLowerWord_toString (n + 2))

theorem IsLowerWord.isIdentifier {cs : List Char} (h : IsLowerWord cs) : isIdentifier cs = true :=
  isIdentifier_iff.mpr ⟨h.1, fun c hc => (h.2 c hc).1⟩

theorem IsLowerWord.asciiLower_eq (h : IsLowerWord name.toList) : asciiLower name = name := by
  refine String.toList_injective ?_
  rw [toList_asciiLower]
  exact (List.map_congr_left fun c hc => (h.2 c hc).2).trans (List.map_id name.toList)

section Assigned

variable {used' : List String}

/-- The aliases that joins bring, in lower case. -/
def given (joins : List Join) : List String := (joins.filterMap (·.alias?)).map asciiLower

theorem given_cons_of_none (h : j.alias? = none) : given (j :: joins) = given joins := by
  simp [given, h]

theorem given_cons_of_some (h : j.alias? = some name) :
    given (j :: joins) = asciiLower name :: given joins := by
  simp [given, h]

theorem checkAlias_eq_ok_iff {u : Unit} : checkAlias name = .ok u ↔ isIdentifier name.toList = true := by
  unfold checkAlias
  split <;> simp_all

/-- The aliases that joins bring are identifiers, differ, and are used from the start. -/
theorem explicit_eq_ok (h : explicit used joins = .ok used') :
    used' = (given joins).reverse ++ used ∧ (given joins).Nodup ∧ (∀ x ∈ given joins, x ∉ used) ∧
      ∀ j ∈ joins, ∀ name, j.alias? = some name → isIdentifier name.toList = true := by
  induction joins generalizing used with
  | nil =>
    cases h
    exact ⟨rfl, List.nodup_nil, fun x hx => absurd hx List.not_mem_nil,
      fun j hj => absurd hj List.not_mem_nil⟩
  | cons j joins ih =>
    rw [explicit] at h
    split at h
    · next hnone =>
      obtain ⟨heq, hnodup, hnew, hident⟩ := ih h
      rw [given_cons_of_none hnone]
      refine ⟨heq, hnodup, hnew, fun k hk name hname => ?_⟩
      rcases List.mem_cons.mp hk with rfl | hk
      · rw [hnone] at hname
        cases hname
      · exact hident k hk name hname
    · next given? hsome =>
      obtain ⟨_, hcheck, h⟩ := bind_eq_ok_iff.mp h
      dsimp only at h
      split at h
      · cases h
      · next hunused =>
        obtain ⟨heq, hnodup, hnew, hident⟩ := ih h
        have hunused : asciiLower given? ∉ used := by simpa using hunused
        rw [given_cons_of_some hsome]
        refine ⟨?_, ?_, ?_, ?_⟩
        · rw [heq, List.reverse_cons, List.append_assoc]
          rfl
        · exact List.nodup_cons.mpr ⟨fun hmem => hnew _ hmem List.mem_cons_self, hnodup⟩
        · intro x hx hused
          rcases List.mem_cons.mp hx with rfl | hx
          · exact hunused hused
          · exact hnew x hx (List.mem_cons_of_mem _ hused)
        · intro k hk name hname
          rcases List.mem_cons.mp hk with rfl | hk
          · rw [hsome] at hname
            cases hname
            exact checkAlias_eq_ok_iff.mp hcheck
          · exact hident k hk name hname

/-- Generated aliases differ from all others. -/
theorem ofJoins_spec (hnodup : (given joins).Nodup) (hused : ∀ x ∈ given joins, x ∈ used)
    (hident : ∀ j ∈ joins, ∀ name, j.alias? = some name → isIdentifier name.toList = true) :
    (ofJoins used joins).length = joins.length ∧ ((ofJoins used joins).map asciiLower).Nodup ∧
      (∀ x ∈ (ofJoins used joins).map asciiLower, x ∈ used → x ∈ given joins) ∧
      ∀ name ∈ ofJoins used joins, isIdentifier name.toList = true := by
  induction joins generalizing used with
  | nil =>
    exact ⟨rfl, List.nodup_nil, fun x hx => absurd hx List.not_mem_nil,
      fun name hname => absurd hname List.not_mem_nil⟩
  | cons j joins ih =>
    have hident' : ∀ k ∈ joins, ∀ name, k.alias? = some name → isIdentifier name.toList = true :=
      fun k hk => hident k (List.mem_cons_of_mem j hk)
    rw [ofJoins]
    split
    · next name hsome =>
      rw [given_cons_of_some hsome] at hnodup hused ⊢
      obtain ⟨hnot, hnodup⟩ := List.nodup_cons.mp hnodup
      obtain ⟨hlength, hdistinct, hold, hidents⟩ :=
        ih hnodup (fun x hx => hused x (List.mem_cons_of_mem _ hx)) hident'
      have hname : asciiLower name ∈ used := hused _ List.mem_cons_self
      refine ⟨congrArg (· + 1) hlength, ?_, ?_, ?_⟩
      · exact List.nodup_cons.mpr ⟨fun hmem => hnot (hold _ hmem hname), hdistinct⟩
      · intro x hx hxused
        rcases List.mem_cons.mp hx with rfl | hx
        · exact List.mem_cons_self
        · exact List.mem_cons_of_mem _ (hold x hx hxused)
      · intro other hother
        rcases List.mem_cons.mp hother with rfl | hother
        · exact hident j List.mem_cons_self _ hsome
        · exact hidents other hother
    · next hnone =>
      rw [given_cons_of_none hnone] at hnodup hused ⊢
      obtain ⟨hnew, hlower⟩ := @generate_spec j.table used
      dsimp only
      generalize generate j.table used = name at hnew hlower ⊢
      rw [hlower.asciiLower_eq, List.map_cons, hlower.asciiLower_eq]
      obtain ⟨hlength, hdistinct, hold, hidents⟩ :=
        ih hnodup (fun x hx => List.mem_cons_of_mem name (hused x hx)) hident'
      refine ⟨congrArg (· + 1) hlength, ?_, ?_, ?_⟩
      · refine List.nodup_cons.mpr ⟨fun hmem => hnew ?_, hdistinct⟩
        exact hused name (hold name hmem List.mem_cons_self)
      · intro x hx hxused
        rcases List.mem_cons.mp hx with rfl | hx
        · exact absurd hxused hnew
        · exact hold x hx (List.mem_cons_of_mem name hxused)
      · intro other hother
        rcases List.mem_cons.mp hother with rfl | hother
        · exact hlower.isIdentifier
        · exact hidents other hother

/-- The tables of a query with their aliases. -/
def tables (mainTable : String) (joins : List Join) (a : Aliases) : List (String × String) :=
  (mainTable, a.main) :: (joins.map (·.table)).zip a.joins

theorem tables_map_fst {mainTable : String} {a : Aliases} (h : a.joins.length = joins.length) :
    (tables mainTable joins a).map Prod.fst = mainTable :: joins.map (·.table) := by
  have hle : (joins.map (·.table)).length ≤ a.joins.length := by rw [List.length_map, h]
  rw [tables, List.map_cons, List.map_fst_zip hle]

theorem tables_map_snd {mainTable : String} {a : Aliases} (h : a.joins.length = joins.length) :
    (tables mainTable joins a).map Prod.snd = a.main :: a.joins := by
  have hle : a.joins.length ≤ (joins.map (·.table)).length := by rw [List.length_map, h]
  rw [tables, List.map_cons, List.map_snd_zip hle]

/-- Every table has an alias of its own. -/
theorem build_eq_ok {mainTable : String} {a : Aliases} (h : build mainTable joins = .ok a) :
    a.joins.length = joins.length ∧
      a.entries = (tables mainTable joins a).flatMap (fun t => entriesOf t.1 t.2) ∧
      ((a.main :: a.joins).map asciiLower).Nodup ∧
      ∀ name ∈ a.main :: a.joins, isIdentifier name.toList = true := by
  obtain ⟨used, hexplicit, h⟩ := bind_eq_ok_iff.mp h
  cases h
  obtain ⟨rfl, hnodup, -, hident⟩ := explicit_eq_ok hexplicit
  have hused : ∀ x ∈ given joins, x ∈ (given joins).reverse ++ [] := by simp
  obtain ⟨hnew, hlower⟩ := @generate_spec mainTable ((given joins).reverse ++ [])
  dsimp only [tables]
  generalize (given joins).reverse ++ [] = used at hused hnew hlower ⊢
  generalize generate mainTable used = main at hnew hlower ⊢
  rw [hlower.asciiLower_eq, List.map_cons, hlower.asciiLower_eq]
  obtain ⟨hlength, hdistinct, hold, hidents⟩ :=
    ofJoins_spec hnodup (fun x hx => List.mem_cons_of_mem main (hused x hx)) hident
  refine ⟨hlength, rfl, ?_, ?_⟩
  · refine List.nodup_cons.mpr ⟨fun hmem => hnew ?_, hdistinct⟩
    exact hused main (hold main hmem List.mem_cons_self)
  · intro name hname
    rcases List.mem_cons.mp hname with rfl | hname
    · exact hlower.isIdentifier
    · exact hidents name hname

end Assigned

section Naming

/-- A name is the whole name of a table. -/
def IsNameOf (name table : String) : Prop := asciiLower table = asciiLower name

/-- A name is the name of a table without its schema. -/
def IsBareNameOf (name table : String) : Prop := String.ofList (bareName table) = asciiLower name

/-- A name names a table. -/
def Names (name table : String) : Prop := IsNameOf name table ∨ IsBareNameOf name table

instance : Decidable (IsNameOf name table) :=
  inferInstanceAs (Decidable (asciiLower table = asciiLower name))

instance : Decidable (IsBareNameOf name table) :=
  inferInstanceAs (Decidable (String.ofList (bareName table) = asciiLower name))

instance : Decidable (Names name table) :=
  inferInstanceAs (Decidable (IsNameOf name table ∨ IsBareNameOf name table))

/-- The alias of the first table that a name names. -/
def firstNamed? (tables : List (String × String)) (name : String) : Option String :=
  (tables.find? fun t => Names name t.1).map (·.2)

variable {t : String × String} {ts earlier later : List (String × String)}

theorem firstNamed?_cons :
    firstNamed? (t :: ts) name = if Names name t.1 then some t.2 else firstNamed? ts name := by
  unfold firstNamed?
  rw [List.find?_cons]
  by_cases h : Names name t.1
  · rw [decide_eq_true h, if_pos h]
    rfl
  · rw [decide_eq_false h, if_neg h]

/-- A name is resolved to the first table that it names. -/
theorem resolve?_eq {a : Aliases} (h : a.entries = ts.flatMap fun t => entriesOf t.1 t.2) :
    a.resolve? name = firstNamed? ts name := by
  unfold resolve?
  rw [h]
  clear h
  induction ts with
  | nil => rfl
  | cons t ts ih =>
    have hentries : entriesOf t.1 t.2 ++ ts.flatMap (fun t => entriesOf t.1 t.2) =
        (asciiLower t.1, t.2) :: (String.ofList (bareName t.1), t.2) ::
          ts.flatMap fun t => entriesOf t.1 t.2 := rfl
    rw [List.flatMap_cons, hentries, List.find?_cons, List.find?_cons, firstNamed?_cons]
    by_cases hwhole : IsNameOf name t.1
    · rw [beq_iff_eq.mpr hwhole, if_pos (.inl hwhole)]
      rfl
    · rw [beq_eq_false_iff_ne.mpr hwhole]
      by_cases hbare : IsBareNameOf name t.1
      · rw [beq_iff_eq.mpr hbare, if_pos (.inr hbare)]
        rfl
      · have hneither : ¬ Names name t.1 := not_or.mpr ⟨hwhole, hbare⟩
        rw [beq_eq_false_iff_ne.mpr hbare, if_neg hneither]
        exact ih

theorem firstNamed?_eq_none_iff : firstNamed? ts name = none ↔ ∀ t ∈ ts, ¬ Names name t.1 := by
  simp [firstNamed?]

theorem exists_of_firstNamed?_eq_some {other : String} (h : firstNamed? ts name = some other) :
    ∃ t ∈ ts, Names name t.1 ∧ t.2 = other := by
  obtain ⟨t, hfind, hother⟩ := Option.map_eq_some_iff.mp h
  have hnamed := List.find?_some hfind
  exact ⟨t, List.mem_of_find?_eq_some hfind, of_decide_eq_true hnamed, hother⟩

/-- The first of all tables that a name names. -/
theorem firstNamed?_of_first (hearlier : ∀ u ∈ earlier, ¬ Names name u.1) (h : Names name t.1) :
    firstNamed? (earlier ++ t :: later) name = some t.2 := by
  induction earlier with
  | nil => rw [List.nil_append, firstNamed?_cons, if_pos h]
  | cons u earlier ih =>
    rw [List.cons_append, firstNamed?_cons, if_neg (hearlier u List.mem_cons_self)]
    exact ih fun v hv => hearlier v (List.mem_cons_of_mem u hv)

/-- A table is passed over if the name names one before it. -/
theorem firstNamed?_of_earlier (h : ∃ u ∈ earlier, Names name u.1) :
    ∃ u ∈ earlier, firstNamed? (earlier ++ later) name = some u.2 := by
  induction earlier with
  | nil =>
    obtain ⟨u, hu, -⟩ := h
    exact absurd hu List.not_mem_nil
  | cons v earlier ih =>
    rw [List.cons_append, firstNamed?_cons]
    by_cases hv : Names name v.1
    · exact ⟨v, List.mem_cons_self, if_pos hv⟩
    · obtain ⟨u, hu, hnames⟩ := h
      have hne : u ≠ v := fun heq => hv (heq ▸ hnames)
      obtain ⟨w, hw, hfirst⟩ := ih ⟨u, List.mem_of_ne_of_mem hne hu, hnames⟩
      exact ⟨w, List.mem_cons_of_mem v hw, (if_neg hv).trans hfirst⟩

/-- What a name is resolved to is an alias of a table, and so an identifier. -/
theorem isIdentifier_of_resolve? {mainTable other : String} {a : Aliases}
    (hbuild : build mainTable joins = .ok a) (h : a.resolve? name = some other) :
    isIdentifier other.toList = true := by
  obtain ⟨hlength, hentries, -, hident⟩ := build_eq_ok hbuild
  rw [resolve?_eq hentries] at h
  obtain ⟨t, ht, -, rfl⟩ := exists_of_firstNamed?_eq_some h
  have hassigned : (tables mainTable joins a).map Prod.snd = a.main :: a.joins :=
    tables_map_snd hlength
  exact hident t.2 (hassigned ▸ List.mem_map_of_mem ht)

end Naming

end Recount.Sql.Aliases
