import StandaloneDHCP.Lib.ExpiringCache

/-! Two expiring caches that are written in pairs, `k → x` in the one and `x → k` in the other
with one lifetime. As long as each pair `Fits` what is unexpired when it is written, the two stay
inverse to each other: an entry and its partner have the same deadline, so the clock and the
janitors take both away together. A pair that does not fit leaves a partner behind. -/
namespace StandaloneDHCP.Lib
set_option autoImplicit false

theorem Item.expired_mono {ν : Type} {e : Item ν} {now now' : Int} (hle : now ≤ now')
    (hlive : e.expired now' = false) : e.expired now = false := by
  unfold Item.expired at hlive ⊢
  split at hlive
  · rfl
  · simp only [decide_eq_false_iff_not] at hlive ⊢
    omega

namespace Cache
variable {κ ν : Type} [DecidableEq κ]

theorem get_eq_some_iff_peek {c : Cache κ ν} {now : Int} {k : κ} {x : ν} :
    c.get now k = some x ↔
      ∃ d, (⟨x, d⟩ : Item ν).expired now = false ∧ c.peek k = some ⟨x, d⟩ := by
  rw [get_eq_some]
  constructor
  · rintro ⟨⟨y, d⟩, hpeek, hlive, rfl⟩
    exact ⟨d, hlive, hpeek⟩
  · rintro ⟨d, hlive, hpeek⟩
    exact ⟨⟨x, d⟩, hpeek, hlive, rfl⟩

variable [DecidableEq ν]

/-- What the one answers, the other one answers the other way round. -/
def Agree (now : Int) (c : Cache κ ν) (c' : Cache ν κ) : Prop :=
  ∀ k x, c.get now k = some x ↔ c'.get now x = some k

/-- The unexpired entries come in pairs with one deadline. -/
structure Inverse (now : Int) (c : Cache κ ν) (c' : Cache ν κ) : Prop where
  defaults : c'.defaultExpiration = c.defaultExpiration
  entries : ∀ k x d, (⟨x, d⟩ : Item ν).expired now = false →
    (c.peek k = some ⟨x, d⟩ ↔ c'.peek x = some ⟨k, d⟩)

/-- Neither key has an unexpired entry with another partner. -/
def Fits (now : Int) (c : Cache κ ν) (c' : Cache ν κ) (k : κ) (x : ν) : Prop :=
  (∀ y, c.get now k = some y → y = x) ∧ ∀ j, c'.get now x = some j → j = k

instance (now : Int) (c : Cache κ ν) (c' : Cache ν κ) (k : κ) (x : ν) :
    Decidable (Fits now c c' k x) :=
  inferInstanceAs (Decidable ((∀ y ∈ c.get now k, y = x) ∧ ∀ j ∈ c'.get now x, j = k))

theorem inverse_empty (now d : Int) : Inverse now (empty d : Cache κ ν) (empty d) :=
  ⟨rfl, fun k x d _ => by simp⟩

namespace Inverse
variable {now : Int} {c : Cache κ ν} {c' : Cache ν κ}

theorem symm (h : Inverse now c c') : Inverse now c' c :=
  ⟨h.defaults.symm, fun x k d hlive => (h.entries k x d hlive).symm⟩

theorem agree (h : Inverse now c c') : Agree now c c' := by
  intro k x
  rw [get_eq_some_iff_peek, get_eq_some_iff_peek]
  exact exists_congr fun d => and_congr_right fun hlive => h.entries k x d hlive

theorem later (h : Inverse now c c') {now' : Int} (hle : now ≤ now') : Inverse now' c c' :=
  ⟨h.defaults, fun k x d hlive => h.entries k x d (Item.expired_mono hle hlive)⟩

theorem deleteExpired (h : Inverse now c c') : Inverse now (c.deleteExpired now).1 c' := by
  refine ⟨h.defaults, fun k x d hlive => ?_⟩
  rw [peek_deleteExpired, ← h.entries k x d hlive, and_iff_left hlive]

theorem deadline_eq (h : Inverse now c c') (d : Int) : c'.deadline now d = c.deadline now d := by
  rw [deadline, deadline, h.defaults]

/-- A pair that fits keeps the caches inverse. -/
theorem set (h : Inverse now c c') {k : κ} {x : ν} (hfits : Fits now c c' k x) (lifetime : Int) :
    Inverse now (c.set now k x lifetime) (c'.set now x k lifetime) := by
  refine ⟨h.defaults, fun j y d hlive => ?_⟩
  have hold := h.entries j y d hlive
  by_cases hj : j = k
  · subst hj
    by_cases hy : y = x
    · subst hy
      simp [h.deadline_eq]
    · -- an old partner of the key would be unexpired, and is then the new one
      rw [peek_set, peek_set_ne _ _ _ _ hy, ← hold]
      simp only [Option.some.injEq, Item.mk.injEq]
      constructor
      · rintro ⟨rfl, -⟩
        exact absurd rfl hy
      · intro hpeek
        exact absurd (hfits.1 y (get_eq_some_iff_peek.mpr ⟨d, hlive, hpeek⟩)) hy
  · by_cases hy : y = x
    · subst hy
      rw [peek_set, peek_set_ne _ _ _ _ hj, hold]
      simp only [Option.some.injEq, Item.mk.injEq]
      constructor
      · intro hpeek
        exact absurd (hfits.2 j (get_eq_some_iff_peek.mpr ⟨d, hlive, hpeek⟩)) hj
      · rintro ⟨rfl, -⟩
        exact absurd rfl hj
    · rw [peek_set_ne _ _ _ _ hj, peek_set_ne _ _ _ _ hy]
      exact hold

/-- A pair that does not fit breaks the agreement. -/
theorem agree_set_iff (h : Inverse now c c') (k : κ) (x : ν) (lifetime : Int) :
    Agree now (c.set now k x lifetime) (c'.set now x k lifetime) ↔ Fits now c c' k x := by
  refine ⟨fun hagree => ⟨fun y hy => ?_, fun j hj => ?_⟩, fun hfits => (h.set hfits lifetime).agree⟩
  · by_contra hne
    have hback : (c'.set now x k lifetime).get now y = some k := by
      rw [get_congr (peek_set_ne _ _ _ _ hne)]
      exact (h.agree k y).mp hy
    have hforth := (hagree k y).mpr hback
    rw [get_set] at hforth
    exact hne (Option.some.inj hforth).symm
  · by_contra hne
    have hforth : (c.set now k x lifetime).get now j = some x := by
      rw [get_congr (peek_set_ne _ _ _ _ hne)]
      exact (h.agree j x).mpr hj
    have hback := (hagree j x).mp hforth
    rw [get_set] at hback
    exact hne (Option.some.inj hback).symm

end Inverse
end Cache
end StandaloneDHCP.Lib
