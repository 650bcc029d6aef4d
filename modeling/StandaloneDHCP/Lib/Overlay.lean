import Mathlib.Logic.Function.Basic

/-! Writing a list of entries into a map, later entries over earlier ones. What a key holds in
the end is the value of its last entry, and what it held before where there is none. -/
namespace StandaloneDHCP.Lib
set_option autoImplicit false

variable {κ ν : Type} [DecidableEq κ]

/-- The value of the last entry with the key. -/
def lookupLast : List (κ × ν) → κ → Option ν
  | [], _ => none
  | e :: l, k =>
    match lookupLast l k with
    | some v => some v
    | none => if e.1 = k then some e.2 else none

/-- The map after all entries are written. -/
def overlay (m : κ → Option ν) : List (κ × ν) → κ → Option ν
  | [] => m
  | e :: l => overlay (Function.update m e.1 (some e.2)) l

theorem overlay_apply (l : List (κ × ν)) : ∀ (m : κ → Option ν) (k : κ),
    overlay m l k = (lookupLast l k).or (m k) := by
  induction l with
  | nil =>
    intro m k
    rfl
  | cons e l ih =>
    intro m k
    rw [overlay, ih, lookupLast]
    cases lookupLast l k with
    | some v => rfl
    | none =>
      by_cases hk : e.1 = k
      · subst hk
        simp
      · rw [if_neg hk, Function.update_of_ne (Ne.symm hk)]

theorem lookupLast_append (l₁ l₂ : List (κ × ν)) (k : κ) :
    lookupLast (l₁ ++ l₂) k = (lookupLast l₂ k).or (lookupLast l₁ k) := by
  induction l₁ with
  | nil => simp [lookupLast]
  | cons e l₁ ih =>
    rw [List.cons_append, lookupLast, ih, lookupLast]
    cases lookupLast l₂ k with
    | some v => rfl
    | none => rfl

theorem mem_of_lookupLast {l : List (κ × ν)} {k : κ} {v : ν} (h : lookupLast l k = some v) :
    (k, v) ∈ l := by
  induction l with
  | nil => cases h
  | cons e l ih =>
    rw [lookupLast] at h
    cases hl : lookupLast l k with
    | some w =>
      rw [hl] at h
      cases h
      exact List.mem_cons_of_mem _ (ih hl)
    | none =>
      rw [hl] at h
      simp only at h
      split at h
      · next hk =>
        cases h
        subst hk
        exact List.mem_cons_self
      · cases h

theorem lookupLast_of_unique {l : List (κ × ν)} {k : κ} {v : ν} (hmem : (k, v) ∈ l)
    (huniq : ∀ e ∈ l, e.1 = k → e.2 = v) : lookupLast l k = some v := by
  induction l with
  | nil => cases hmem
  | cons e l ih =>
    rw [lookupLast]
    cases hl : lookupLast l k with
    | some w =>
      have hw := List.mem_cons_of_mem e (mem_of_lookupLast hl)
      exact congrArg some (huniq (k, w) hw rfl)
    | none =>
      rcases List.mem_cons.mp hmem with rfl | hmem
      · exact if_pos rfl
      · have htail := ih hmem fun e' he' => huniq e' (List.mem_cons_of_mem e he')
        cases hl.symm.trans htail

/-- Entries that list a map under any keys, repeated or not. -/
theorem lookupLast_listing (m : κ → Option ν) (keys : List κ) (k : κ) :
    lookupLast (keys.filterMap fun key => (m key).map fun v => (key, v)) k =
      if k ∈ keys then m k else none := by
  induction keys with
  | nil => simp [lookupLast]
  | cons key keys ih =>
    by_cases hmem : k ∈ keys
    · -- a later key decides
      rw [if_pos hmem] at ih
      rw [if_pos (List.mem_cons_of_mem key hmem)]
      cases hkey : m key with
      | none => rwa [List.filterMap_cons_none (by simp [hkey])]
      | some v =>
        rw [List.filterMap_cons_some (by simp [hkey]; rfl), lookupLast, ih]
        cases hk : m k with
        | some w => rfl
        | none =>
          have hne : ¬ key = k := by
            rintro rfl
            cases hk.symm.trans hkey
          simp [hne]
    · rw [if_neg hmem] at ih
      cases hkey : m key with
      | none =>
        rw [List.filterMap_cons_none (by simp [hkey]), ih]
        split
        · next hk =>
          obtain rfl := (List.mem_cons.mp hk).resolve_right hmem
          exact hkey.symm
        · rfl
      | some v =>
        rw [List.filterMap_cons_some (by simp [hkey]; rfl), lookupLast, ih]
        simp only
        by_cases hk : key = k
        · subst hk
          simp [hkey]
        · rw [if_neg hk, if_neg]
          intro hc
          rcases List.mem_cons.mp hc with rfl | hc
          · exact hk rfl
          · exact hmem hc

end StandaloneDHCP.Lib
