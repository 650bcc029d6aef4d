import Mathlib.Data.Finmap
import Mathlib.Data.Finset.Lattice.Fold
import Mathlib.Order.Lattice.Nat

/-! Ranging over a finite map in an order the program cannot choose. A `RangeOrder`
lists the keys of every finite set, each key once; a loop over a map is a recursion over
the list it gives. `countdown` is the loop that walks `index` keys forward and stops. -/
namespace StandaloneDHCP.Lib
set_option autoImplicit false

/-- An enumeration of the keys of every map. -/
structure RangeOrder (κ : Type) where
  keys : Finset κ → List κ
  coe_keys : ∀ s, (keys s : Multiset κ) = s.val

namespace RangeOrder
variable {κ : Type}

theorem mem_keys (o : RangeOrder κ) {s : Finset κ} {k : κ} : k ∈ o.keys s ↔ k ∈ s := by
  rw [← Multiset.mem_coe, o.coe_keys, Finset.mem_val]

theorem length_keys (o : RangeOrder κ) (s : Finset κ) : (o.keys s).length = s.card := by
  rw [← Multiset.coe_card, o.coe_keys, Finset.card_val]

theorem nodup_keys (o : RangeOrder κ) (s : Finset κ) : (o.keys s).Nodup := by
  rw [← Multiset.coe_nodup, o.coe_keys]
  exact s.nodup

/-- The enumeration in increasing order. -/
def ascending : RangeOrder ℕ where
  keys s := (List.range (s.sup id + 1)).filter (· ∈ s)
  coe_keys s := by
    have hnodup : ((List.range (s.sup id + 1)).filter (· ∈ s)).Nodup :=
      List.nodup_range.filter _
    refine (Multiset.Nodup.ext (Multiset.coe_nodup.mpr hnodup) s.nodup).mpr (fun k => ?_)
    have hle : k ∈ s → k < s.sup id + 1 := fun hk => Nat.lt_succ_of_le (Finset.le_sup (f := id) hk)
    simpa using hle

end RangeOrder

/-- `for available = range m { if index == 0 { break }; index-- }` over the listed keys:
the key the loop variable holds at the end, `available` where there is no key at all. -/
def countdown {κ : Type} : ℕ → List κ → κ → κ
  | _, [], available => available
  | 0, k :: _, _ => k
  | index + 1, k :: ks, _ => countdown index ks k

/-- The loop stops at the key with the number `index`. -/
theorem countdown_eq_getElem {κ : Type} {index : ℕ} {ks : List κ} (available : κ)
    (h : index < ks.length) : countdown index ks available = ks[index] := by
  induction ks generalizing index available with
  | nil => simp at h
  | cons k ks ih =>
    cases index with
    | zero => rfl
    | succ index => exact ih k (by simpa using h)

theorem countdown_mem {κ : Type} (index : ℕ) (ks : List κ) (available : κ)
    (h : index < ks.length) : countdown index ks available ∈ ks := by
  rw [countdown_eq_getElem available h]
  exact List.getElem_mem h

/-- Each key is reached from one index. -/
theorem countdown_bijOn {κ : Type} {ks : List κ} (hnodup : ks.Nodup) (available : κ) :
    Set.BijOn (fun index => countdown index ks available) (Set.Iio ks.length)
      {k | k ∈ ks} := by
  refine ⟨fun index hi => countdown_mem index ks available hi, ?_, ?_⟩
  · intro i hi j hj heq
    have hget : ks[i] = ks[j] := by
      rw [← countdown_eq_getElem available hi, ← countdown_eq_getElem available hj]
      exact heq
    exact (hnodup.getElem_inj_iff).mp hget
  · intro k hk
    obtain ⟨i, hi, rfl⟩ := List.getElem_of_mem hk
    exact ⟨i, hi, countdown_eq_getElem available hi⟩

section Finmap
variable {α β : Type} [DecidableEq α]

theorem keys_insert (a : α) (b : β) (m : Finmap (fun _ : α => β)) :
    (m.insert a b).keys = insert a m.keys := by
  ext x
  simp [Finmap.mem_keys]

theorem lookup_insert_eq (a x : α) (b : β) (m : Finmap (fun _ : α => β)) :
    (m.insert a b).lookup x = if x = a then some b else m.lookup x := by
  by_cases h : x = a
  · subst h; simp
  · rw [if_neg h, Finmap.lookup_insert_of_ne m h]

theorem lookup_erase_eq (a x : α) (m : Finmap (fun _ : α => β)) :
    (m.erase a).lookup x = if x = a then none else m.lookup x := by
  by_cases h : x = a
  · subst h; simp
  · rw [if_neg h, Finmap.lookup_erase_ne h]

end Finmap
end StandaloneDHCP.Lib
