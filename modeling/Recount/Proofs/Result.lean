import Mathlib.Data.List.Forall2
import Recount.Decimal.Basic

/-!
# Results

Work that may fail succeeds only if each of its parts does.
-/

namespace Recount

variable {ε α β : Type} {b : β}

/-- Work that goes on after a result succeeds if both parts do. -/
theorem bind_eq_ok_iff {x : Except ε α} {f : α → Except ε β} :
    x >>= f = .ok b ↔ ∃ a, x = .ok a ∧ f a = .ok b := by
  cases x with
  | error e => simp [bind, Except.bind]
  | ok a => simp [bind, Except.bind]

theorem map_eq_ok_iff {x : Except ε α} {f : α → β} :
    x.map f = .ok b ↔ ∃ a, x = .ok a ∧ f a = b := by
  cases x with
  | error e => simp [Except.map]
  | ok a => simp [Except.map]

theorem isOk_iff {x : Except ε α} : x.isOk = true ↔ ∃ a, x = .ok a := by
  cases x with
  | error e => simp [Except.isOk, Except.toBool]
  | ok a => simp [Except.isOk, Except.toBool]

theorem elim_eq_ok_iff {o : Option α} {e : ε} {a : α} :
    o.elim (.error e) Except.ok = .ok a ↔ o = some a := by
  cases o <;> simp

/-- Work on a list succeeds if the work on each member does. -/
theorem mapM_eq_ok_iff {f : α → Except ε β} {as : List α} {bs : List β} :
    as.mapM f = .ok bs ↔ List.Forall₂ (fun a b => f a = .ok b) as bs := by
  induction as generalizing bs with
  | nil =>
    rw [List.mapM_nil, List.forall₂_nil_left_iff]
    constructor
    · rintro ⟨⟩
      rfl
    · rintro rfl
      rfl
  | cons a as ih =>
    rw [List.mapM_cons, bind_eq_ok_iff, List.forall₂_cons_left_iff]
    simp only [bind_eq_ok_iff, ih]
    constructor
    · rintro ⟨b, hb, bs', hbs, h⟩
      cases h
      exact ⟨b, bs', hb, hbs, rfl⟩
    · rintro ⟨b, bs', hb, hbs, rfl⟩
      exact ⟨b, hb, bs', hbs, rfl⟩

/-- Work comes to the same if what follows each result does. -/
theorem map_bind_congr {γ : Type} {x : Except ε α} {f g : α → Except ε β} {h : β → γ}
    (hfg : ∀ a, (f a).map h = (g a).map h) : (x >>= f).map h = (x >>= g).map h := by
  cases x with
  | error e => rfl
  | ok a => exact hfg a

/-- Works whose results look the same come to what looks the same, if what follows such results does. -/
theorem map_bind_map_congr {γ δ ζ : Type} {x : Except ε α} {y : Except ε β} {u : α → γ} {v : β → γ}
    {f : α → Except ε δ} {g : β → Except ε ζ} {θ : Type} {p : δ → θ} {q : ζ → θ}
    (hxy : x.map u = y.map v) (hfg : ∀ a b, u a = v b → (f a).map p = (g b).map q) :
    (x >>= f).map p = (y >>= g).map q := by
  cases x with
  | error e =>
    cases y with
    | error e' =>
      cases hxy
      rfl
    | ok b => cases hxy
  | ok a =>
    cases y with
    | error e' => cases hxy
    | ok b => exact hfg a b (Except.ok.inj hxy)

/-- Checks of a list succeed if each of them does. -/
theorem forM_eq_ok_iff {f : α → Except ε Unit} {as : List α} :
    as.forM f = .ok () ↔ ∀ a ∈ as, f a = .ok () := by
  induction as with
  | nil => simp [pure, Except.pure]
  | cons a as ih =>
    rw [List.forM, bind_eq_ok_iff, List.forall_mem_cons, ← ih]
    constructor
    · rintro ⟨⟨⟩, ha, has⟩
      exact ⟨ha, has⟩
    · rintro ⟨ha, has⟩
      exact ⟨(), ha, has⟩

/-- Each result comes from a member of the list. -/
theorem exists_mem_of_forall₂ {R : α → β → Prop} {as : List α} {bs : List β}
    (h : List.Forall₂ R as bs) (hb : b ∈ bs) : ∃ a ∈ as, R a b := by
  induction h with
  | nil => exact absurd hb List.not_mem_nil
  | @cons a b' as bs hab _ ih =>
    rcases List.mem_cons.mp hb with rfl | hb
    · exact ⟨a, List.mem_cons_self, hab⟩
    · obtain ⟨a', ha', hab'⟩ := ih hb
      exact ⟨a', List.mem_cons_of_mem a ha', hab'⟩

/-- Lists that correspond are equal if each correspondence is an equality. -/
theorem eq_iff_of_forall₂ {R : α → α → Prop} {p : α → Prop} {l l' : List α}
    (h : List.Forall₂ R l l') (hR : ∀ a b, R a b → (a = b ↔ p b)) : l = l' ↔ ∀ b ∈ l', p b := by
  induction h with
  | nil => simp
  | @cons a b l l' hab _ ih => rw [List.cons.injEq, List.forall_mem_cons, ih, hR a b hab]

/-- What corresponds to the first one of its kind is the first of its own. -/
theorem find?_of_forall₂ {r : α → β → Prop} {p : α → Bool} {q : β → Bool} {l : List α}
    {l' : List β} {x : α} (h : List.Forall₂ r l l') (hx : l.find? p = some x)
    (hq : ∀ y, r x y → q y = true) (hp : ∀ z y, r z y → q y = true → p z = true) :
    ∃ y, l'.find? q = some y ∧ r x y := by
  induction h with
  | nil => cases hx
  | @cons z y l l' hzy _ ih =>
    by_cases hz : p z = true
    · rw [List.find?_cons_of_pos hz] at hx
      cases hx
      exact ⟨y, List.find?_cons_of_pos (hq y hzy), hzy⟩
    · rw [List.find?_cons_of_neg hz] at hx
      obtain ⟨found, hfound, hxy⟩ := ih hx
      exact ⟨found, (List.find?_cons_of_neg fun hy => hz (hp z y hzy hy)).trans hfound, hxy⟩

end Recount
