import Mathlib.Algebra.BigOperators.Group.List.Basic
import Mathlib.Algebra.Ring.Nat

/-! One's complement arithmetic on words of `w` bits, and the words of a byte string. A sum can
be taken with the carry added back at each step (`onesSum`) or over wide integers with the
carries folded in at the end (`foldCarries`). Both are the `residue` of the wide sum: zero for
zero, and otherwise the representative between `1` and `2 ^ w - 1` modulo `2 ^ w - 1`. -/
namespace StandaloneDHCP.Lib
set_option autoImplicit false

section Sums

/-- The carry out of the top bit is added at the bottom. -/
def onesAdd (w a b : ℕ) : ℕ := if a + b < 2 ^ w then a + b else a + b - (2 ^ w - 1)

def onesSum (w : ℕ) (words : List ℕ) : ℕ := words.foldl (onesAdd w) 0

def residue (w s : ℕ) : ℕ := if s = 0 then 0 else (s - 1) % (2 ^ w - 1) + 1

theorem two_le_two_pow (w : ℕ) [NeZero w] : 2 ≤ 2 ^ w := Nat.le_self_pow (NeZero.ne w) 2

theorem fold_lt {w : ℕ} [NeZero w] {s : ℕ} (hge : ¬ s < 2 ^ w) :
    s / 2 ^ w + s % 2 ^ w < s := by
  have hbase := two_le_two_pow w
  have hpos : 0 < s / 2 ^ w := Nat.div_pos (by omega) (by omega)
  have hdiv := Nat.div_add_mod s (2 ^ w)
  have hmul : 2 * (s / 2 ^ w) ≤ 2 ^ w * (s / 2 ^ w) := Nat.mul_le_mul_right _ hbase
  omega

/-- Add the part above `w` bits to the rest until nothing is above. -/
def foldCarries (w : ℕ) [NeZero w] (s : ℕ) : ℕ :=
  if s < 2 ^ w then s else foldCarries w (s / 2 ^ w + s % 2 ^ w)
termination_by s
decreasing_by exact fold_lt ‹_›

variable {w : ℕ}

theorem residue_of_lt {s : ℕ} (hlt : s < 2 ^ w) : residue w s = s := by
  unfold residue
  split
  · next hzero => exact hzero.symm
  · rw [Nat.mod_eq_of_lt (by omega)]
    omega

/-- Multiples of `2 ^ w - 1` do not show next to something positive. -/
theorem residue_add_mul {t : ℕ} (hpos : 0 < t) (q : ℕ) :
    residue w (t + q * (2 ^ w - 1)) = residue w t := by
  have hshift : t + q * (2 ^ w - 1) - 1 = t - 1 + q * (2 ^ w - 1) := by omega
  rw [residue, residue, if_neg (by omega), if_neg (by omega), hshift, Nat.add_mul_mod_self_right]

theorem residue_residue_add (a b : ℕ) : residue w (residue w a + b) = residue w (a + b) := by
  by_cases hzero : a = 0
  · simp [residue, hzero]
  · have hdiv := Nat.div_add_mod (a - 1) (2 ^ w - 1)
    have hsplit : a + b = residue w a + b + (a - 1) / (2 ^ w - 1) * (2 ^ w - 1) := by
      rw [residue, if_neg hzero, Nat.mul_comm]
      omega
    rw [hsplit]
    refine (residue_add_mul ?_ _).symm
    rw [residue, if_neg hzero]
    omega

theorem onesAdd_eq {a b : ℕ} (ha : a < 2 ^ w) (hb : b < 2 ^ w) :
    onesAdd w a b = residue w (a + b) := by
  unfold onesAdd
  split
  · next hlt => exact (residue_of_lt hlt).symm
  · have hcarry : a + b = a + b - (2 ^ w - 1) + 1 * (2 ^ w - 1) := by omega
    rw [hcarry, residue_add_mul (by omega), residue_of_lt (by omega)]
    omega

/-- All ones is the other zero. -/
theorem residue_add_ones {s : ℕ} (hpos : 0 < s) : residue w (s + (2 ^ w - 1)) = residue w s := by
  have h := residue_add_mul (w := w) hpos 1
  rwa [Nat.one_mul] at h

variable [NeZero w]

theorem residue_lt (s : ℕ) : residue w s < 2 ^ w := by
  have hbase := two_le_two_pow w
  unfold residue
  split
  · omega
  · have hmod := Nat.mod_lt (s - 1) (show 0 < 2 ^ w - 1 by omega)
    omega

theorem onesSum_eq {words : List ℕ} (hwords : ∀ x ∈ words, x < 2 ^ w) :
    onesSum w words = residue w words.sum := by
  -- the accumulator is itself a word, so the induction starts from any word
  suffices h : ∀ acc < 2 ^ w, words.foldl (onesAdd w) acc = residue w (acc + words.sum) by
    have hzero := h 0 (Nat.two_pow_pos w)
    rwa [Nat.zero_add] at hzero
  induction words with
  | nil =>
    intro acc hacc
    exact (residue_of_lt hacc).symm
  | cons x words ih =>
    intro acc hacc
    have hx := hwords x List.mem_cons_self
    have hrest := ih fun y hy => hwords y (List.mem_cons_of_mem x hy)
    rw [List.foldl_cons, onesAdd_eq hacc hx, hrest _ (residue_lt _), residue_residue_add,
      List.sum_cons, Nat.add_assoc]

theorem foldCarries_eq (s : ℕ) : foldCarries w s = residue w s := by
  fun_induction foldCarries w s with
  | case1 s hlt => exact (residue_of_lt hlt).symm
  | case2 s hge ih =>
    have hbase := two_le_two_pow w
    have hpos : 0 < s / 2 ^ w := Nat.div_pos (by omega) (by omega)
    have hsplit : s = s / 2 ^ w + s % 2 ^ w + s / 2 ^ w * (2 ^ w - 1) := by
      have hdiv := Nat.div_add_mod s (2 ^ w)
      have hone : s / 2 ^ w * (2 ^ w - 1) + s / 2 ^ w = 2 ^ w * (s / 2 ^ w) := by
        rw [← Nat.mul_succ, Nat.succ_eq_add_one, Nat.sub_add_cancel (by omega), Nat.mul_comm]
      omega
    rw [ih]
    conv_rhs => rw [hsplit]
    exact (residue_add_mul (by omega) _).symm

/-- Adding the complement of a sum to it gives all ones. -/
theorem residue_add_complement (s : ℕ) :
    residue w (s + (2 ^ w - 1 - residue w s)) = 2 ^ w - 1 := by
  have hbase := two_le_two_pow w
  have hlt := residue_lt (w := w) s
  have hones : residue w (2 ^ w - 1) = 2 ^ w - 1 := residue_of_lt (by omega)
  rw [← residue_residue_add, Nat.add_sub_cancel' (by omega), hones]

end Sums

/-! ## The 16-bit words of a byte string -/

/-- Big-endian; a last odd byte is padded with a zero byte. -/
def words16 : List UInt8 → List ℕ
  | [] => []
  | [b] => [b.toNat * 256]
  | b :: c :: rest => (b.toNat * 256 + c.toNat) :: words16 rest

theorem words16_lt (bytes : List UInt8) : ∀ x ∈ words16 bytes, x < 2 ^ 16 := by
  fun_induction words16 bytes with
  | case1 => simp
  | case2 b =>
    have hb := b.toNat_lt
    simp only [List.mem_singleton, forall_eq]
    omega
  | case3 b c rest ih =>
    have hb := b.toNat_lt
    have hc := c.toNat_lt
    simp only [List.mem_cons, forall_eq_or_imp]
    exact ⟨by omega, ih⟩

theorem sum_words16_le (bytes : List UInt8) :
    (words16 bytes).sum ≤ (bytes.length + 1) / 2 * (2 ^ 16 - 1) := by
  fun_induction words16 bytes with
  | case1 => simp
  | case2 b =>
    have hb := b.toNat_lt
    simp only [List.sum_singleton, List.length_singleton]
    omega
  | case3 b c rest ih =>
    have hb := b.toNat_lt
    have hc := c.toNat_lt
    simp only [List.sum_cons, List.length_cons]
    omega

end StandaloneDHCP.Lib
