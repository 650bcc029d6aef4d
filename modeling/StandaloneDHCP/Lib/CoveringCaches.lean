import StandaloneDHCP.Lib.InverseCaches

/-! Two expiring caches of which the first one forgets no key before the second one does: a key
that the first one misses, now or later, is missed by the second one as well. Writes with one
lifetime to both keep it so, and so does a write to the first one under a key that it misses. -/
namespace StandaloneDHCP.Lib
set_option autoImplicit false

namespace Cache
variable {κ ν ν' : Type} [DecidableEq κ]

theorem get_eq_none_of_le {c : Cache κ ν} {now t : Int} {k : κ} (hle : now ≤ t)
    (hnone : c.get now k = none) : c.get t k = none := by
  rw [get_eq_none] at hnone ⊢
  intro e he
  by_contra hlive
  have hnow : e.expired now = false := Item.expired_mono hle (Bool.not_eq_true _ ▸ hlive)
  rw [hnone e he] at hnow
  cases hnow

/-- A key written for `d` is missed from then on exactly after the deadline. -/
theorem get_set_eq_none {c : Cache κ ν} {now t : Int} {k : κ} {x : ν} {d : Int} (hd : 0 < d) :
    (c.set now k x d).get t k = none ↔ now + d < t := by
  rw [get_eq_none]
  simp [deadline_of_pos c now hd, Item.expired]

theorem get_set_ne {c : Cache κ ν} {now t : Int} {k k' : κ} {x : ν} {d : Int} (hk : k' ≠ k) :
    (c.set now k x d).get t k' = c.get t k' :=
  get_congr (peek_set_ne c now x d hk) t

/-- From `now` on, `c'` misses every key that `c` misses. -/
def Covers (now : Int) (c : Cache κ ν) (c' : Cache κ ν') : Prop :=
  ∀ k t, now ≤ t → c.get t k = none → c'.get t k = none

namespace Covers
variable {now : Int} {c : Cache κ ν} {c' : Cache κ ν'}

theorem empty (now d d' : Int) :
    Covers now (Cache.empty d : Cache κ ν) (Cache.empty d' : Cache κ ν') :=
  fun k t _ _ => get_eq_none.mpr fun e he => by simp at he

theorem later (h : Covers now c c') {now' : Int} (hle : now ≤ now') : Covers now' c c' :=
  fun k t ht hnone => h k t (Int.le_trans hle ht) hnone

theorem set_both (h : Covers now c c') (k : κ) (x : ν) (x' : ν') {d : Int} (hd : 0 < d) :
    Covers now (c.set now k x d) (c'.set now k x' d) := by
  intro k' t ht hnone
  by_cases hk : k' = k
  · subst hk
    rw [get_set_eq_none hd] at hnone ⊢
    exact hnone
  · rw [get_set_ne hk] at hnone ⊢
    exact h k' t ht hnone

theorem set_left (h : Covers now c c') {k : κ} (habsent : c.get now k = none) (x : ν) (d : Int) :
    Covers now (c.set now k x d) c' := by
  intro k' t ht hnone
  by_cases hk : k' = k
  · subst hk
    exact get_eq_none_of_le ht (h k' now (Int.le_refl now) habsent)
  · rw [get_set_ne hk] at hnone
    exact h k' t ht hnone

end Covers
end Cache
end StandaloneDHCP.Lib
