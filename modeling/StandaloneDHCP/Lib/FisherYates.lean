import Mathlib.Algebra.BigOperators.Fin
import Mathlib.Data.Fintype.BigOperators
import Mathlib.Data.Fintype.Perm
import Mathlib.Data.Nat.Factorial.BigOperators
import Mathlib.GroupTheory.Perm.Basic

/-! Shuffling in place: from the last position down, each is exchanged with a position that is
drawn among itself and those below. The loop composes its content with a permutation of the
positions, and every permutation comes from one sequence of draws. -/
namespace StandaloneDHCP.Lib
set_option autoImplicit false

/-- For each position `i` a draw among `0..i`. -/
abbrev Draws (n : ℕ) : Type := (i : Fin n) → Fin (i.val + 1)

namespace Draws
variable {n : ℕ}

/-- The position that `i` is exchanged with. -/
def partner (d : Draws n) (i : Fin n) : Fin n := ⟨(d i).val, by omega⟩

theorem partner_le (d : Draws n) (i : Fin n) : (d.partner i).val ≤ i.val :=
  Nat.le_of_lt_succ (d i).isLt

/-- The exchanges at the positions below `m`, the one at the highest position first. -/
def stage (d : Draws n) : (m : ℕ) → m ≤ n → Equiv.Perm (Fin n)
  | 0, _ => 1
  | m + 1, hm => Equiv.swap ⟨m, hm⟩ (d.partner ⟨m, hm⟩) * d.stage m (Nat.le_of_succ_le hm)

/-- After the shuffle, position `i` has what was at `d.perm i`. -/
def perm (d : Draws n) : Equiv.Perm (Fin n) := d.stage n le_rfl

theorem stage_above (d : Draws n) {m : ℕ} (hm : m ≤ n) {x : Fin n} (hx : m ≤ x.val) :
    d.stage m hm x = x := by
  induction m with
  | zero => rfl
  | succ m ih =>
    have hrest := ih (Nat.le_of_succ_le hm) (by omega)
    have hpartner : (d.partner ⟨m, hm⟩).val ≤ m := d.partner_le ⟨m, hm⟩
    rw [stage, Equiv.Perm.mul_apply, hrest]
    apply Equiv.swap_apply_of_ne_of_ne
    · rintro rfl
      exact Nat.not_succ_le_self m hx
    · rintro rfl
      omega

theorem stage_last (d : Draws n) {m : ℕ} (hm : m + 1 ≤ n) :
    d.stage (m + 1) hm ⟨m, hm⟩ = d.partner ⟨m, hm⟩ := by
  rw [stage, Equiv.Perm.mul_apply, stage_above d _ (show m ≤ (⟨m, hm⟩ : Fin n).val from le_rfl),
    Equiv.swap_apply_left]

/-- The draws can be read off the permutation, the one at the highest position first. -/
theorem stage_inj {d d' : Draws n} {m : ℕ} (hm : m ≤ n) (heq : d.stage m hm = d'.stage m hm)
    (i : Fin n) (hi : i.val < m) : d i = d' i := by
  induction m with
  | zero => omega
  | succ m ih =>
    have hpartner : d.partner ⟨m, hm⟩ = d'.partner ⟨m, hm⟩ := by
      rw [← stage_last d hm, ← stage_last d' hm, heq]
    by_cases hlast : i.val = m
    · have hpos : i = ⟨m, hm⟩ := Fin.ext hlast
      subst hpos
      exact Fin.ext (Fin.mk.inj_iff.mp hpartner)
    · rw [stage, stage, hpartner] at heq
      exact ih (Nat.le_of_succ_le hm) (mul_left_cancel heq) (by omega)

theorem perm_injective : Function.Injective (perm : Draws n → Equiv.Perm (Fin n)) := by
  intro d d' heq
  funext i
  exact stage_inj le_rfl heq i i.isLt

theorem card_eq_factorial : Fintype.card (Draws n) = n.factorial := by
  calc Fintype.card (Draws n)
    _ = ∏ i : Fin n, (i.val + 1) := by simp only [Fintype.card_pi, Fintype.card_fin]
    _ = ∏ i ∈ Finset.range n, (i + 1) := Fin.prod_univ_eq_prod_range (fun i => i + 1) n
    _ = n.factorial := Finset.prod_range_add_one_eq_factorial n

theorem perm_bijective : Function.Bijective (perm : Draws n → Equiv.Perm (Fin n)) := by
  rw [Fintype.bijective_iff_injective_and_card]
  refine ⟨perm_injective, ?_⟩
  rw [card_eq_factorial, Fintype.card_perm, Fintype.card_fin]

end Draws

/-! ## The loop -/

section Loop
variable {σ : Type} {α : Type} {n : ℕ} {draw : ℕ → ℕ → ℕ}

/-- `for i := i; i > 0; i--` with `k` draws made so far; `draw k m` is draw number `k`, made
below `m`. -/
def shuffle (swap : σ → ℕ → ℕ → σ) (draw : ℕ → ℕ → ℕ) : ℕ → ℕ → σ → σ
  | 0, _, s => s
  | i + 1, k, s => shuffle swap draw i (k + 1) (swap s (i + 1) (draw k (i + 2)))

/-- The draws of the loop over `n` elements. Position `0` has one possible draw, which the loop
does not make. -/
def drawn (hdraw : ∀ k m, 0 < m → draw k m < m) (n : ℕ) : Draws n :=
  fun i => ⟨draw (n - 1 - i.val) (i.val + 1), hdraw _ _ (Nat.succ_pos _)⟩

/-- Every sequence of draws is the one of some loop. -/
theorem exists_drawn (d : Draws n) : ∃ (draw : ℕ → ℕ → ℕ) (hdraw : ∀ k m, 0 < m → draw k m < m),
    drawn hdraw n = d := by
  refine ⟨fun _ m => if h : m - 1 < n then (d ⟨m - 1, h⟩).val else 0, ?_, ?_⟩
  · intro k m hm
    by_cases h : m - 1 < n
    · have hlt := (d ⟨m - 1, h⟩).isLt
      simp only [dif_pos h] at hlt ⊢
      omega
    · simpa only [dif_neg h] using hm
  · funext i
    apply Fin.ext
    simp [drawn, i.isLt]

/-- Two loops in step. -/
theorem shuffle_simulation {τ : Type} {swap : σ → ℕ → ℕ → σ} {swap' : τ → ℕ → ℕ → τ} {view : σ → τ}
    (hswap : ∀ s i j, view (swap s i j) = swap' (view s) i j) (m k : ℕ) (s : σ) :
    view (shuffle swap draw m k s) = shuffle swap' draw m k (view s) := by
  induction m generalizing k s with
  | zero => rfl
  | succ m ih => rw [shuffle, shuffle, ih, hswap]

theorem shuffle_invariant {swap : σ → ℕ → ℕ → σ} {P : σ → Prop}
    (hswap : ∀ s i j, P s → P (swap s i j)) (draw : ℕ → ℕ → ℕ) (m k : ℕ) {s : σ} (hs : P s) :
    P (shuffle swap draw m k s) := by
  induction m generalizing k s with
  | zero => exact hs
  | succ m ih => exact ih (k + 1) (hswap s _ _ hs)

variable {swap : σ → ℕ → ℕ → σ} {view : (Fin n → α) → σ}

/-- From position `m` down, the loop composes the content with the exchanges up to `m`. -/
theorem shuffle_stage (hdraw : ∀ k m, 0 < m → draw k m < m)
    (hswap : ∀ f (i j : Fin n), swap (view f) i j = view (f ∘ Equiv.swap i j)) {m : ℕ}
    (hm : m + 1 ≤ n) (f : Fin n → α) :
    shuffle swap draw m (n - 1 - m) (view f) = view (f ∘ (drawn hdraw n).stage (m + 1) hm) := by
  induction m generalizing f with
  | zero =>
    have hzero : (drawn hdraw n).partner ⟨0, hm⟩ = ⟨0, hm⟩ := by
      apply Fin.ext
      simp [Draws.partner]
    rw [shuffle, Draws.stage, hzero, Equiv.swap_self]
    rfl
  | succ m ih =>
    have hnext : n - 1 - (m + 1) + 1 = n - 1 - m := by omega
    have hstep := hswap f ⟨m + 1, hm⟩ ((drawn hdraw n).partner ⟨m + 1, hm⟩)
    simp only [Draws.partner, drawn] at hstep
    rw [shuffle, hnext, hstep, ih (Nat.le_of_succ_le hm), Draws.stage, Function.comp_assoc]
    rfl

theorem shuffle_perm (hdraw : ∀ k m, 0 < m → draw k m < m)
    (hswap : ∀ f (i j : Fin n), swap (view f) i j = view (f ∘ Equiv.swap i j)) (f : Fin n → α) :
    shuffle swap draw (n - 1) 0 (view f) = view (f ∘ (drawn hdraw n).perm) := by
  cases n with
  | zero => rfl
  | succ n =>
    have hall := shuffle_stage hdraw hswap le_rfl f
    rwa [show n + 1 - 1 - n = 0 by omega] at hall

end Loop

/-- `l[i], l[j] = l[j], l[i]` on a list given by its elements. -/
theorem set_set_ofFn {α : Type} {n : ℕ} (f : Fin n → α) (i j : Fin n) :
    ((List.ofFn f).set i (f j)).set j (f i) = List.ofFn (f ∘ Equiv.swap i j) := by
  apply List.ext_getElem
  · simp
  intro k hk hk'
  simp only [List.getElem_set, List.getElem_ofFn, Function.comp_apply]
  have hn : k < n := by simpa using hk'
  by_cases hj : j.val = k
  · subst hj
    simp
  by_cases hi : i.val = k
  · subst hi
    simp [hj]
  · have hne : ∀ x : Fin n, x.val ≠ k → (⟨k, hn⟩ : Fin n) ≠ x := by
      rintro x hx rfl
      exact hx rfl
    rw [if_neg hj, if_neg hi, Equiv.swap_apply_of_ne_of_ne (hne i hi) (hne j hj)]

end StandaloneDHCP.Lib
