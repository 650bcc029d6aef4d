import Mathlib.Data.Nat.Digits.Lemmas
import Mathlib.Logic.Function.Iterate

/-! Counting loops: a loop without a bound of its own that steps a value until a test holds, and
the counter such loops step, a big-endian byte string that is incremented in place with carry.
The loop returns if and only if the iterates meet the test; the counter meets another string of
the same length after the distance between them, which goes around at the end. -/
namespace StandaloneDHCP.Lib
set_option autoImplicit false

/-! ## The loop -/

section Loop
variable {α β : Type} (step : α → α) (stop : α → Bool) (emit : α → β)

/-- `for { out = append(out, emit(x)); if stop(x) { break }; x = step(x) }`, for at most `fuel`
rounds. -/
def collectUntil : ℕ → α → Option (List β)
  | 0, _ => none
  | fuel + 1, x =>
    if stop x then some [emit x] else (collectUntil fuel (step x)).map (emit x :: ·)

theorem collectUntil_isSome_iff (fuel : ℕ) (x : α) :
    (collectUntil step stop emit fuel x).isSome = true ↔
      ∃ n < fuel, stop (step^[n] x) = true := by
  induction fuel generalizing x with
  | zero => simp [collectUntil]
  | succ fuel ih =>
    rw [collectUntil]
    split
    · next hstop => exact ⟨fun _ => ⟨0, Nat.succ_pos _, hstop⟩, fun _ => rfl⟩
    · next hstop =>
      rw [Option.isSome_map, ih]
      constructor
      · rintro ⟨n, hn, hmeet⟩
        exact ⟨n + 1, by omega, hmeet⟩
      · rintro ⟨n, hn, hmeet⟩
        -- the test fails on `x` itself, so it is met after at least one step
        cases n with
        | zero => exact absurd hmeet hstop
        | succ n => exact ⟨n, by omega, hmeet⟩

/-- More rounds do not change a result. -/
theorem collectUntil_mono {fuel fuel' : ℕ} {x : α} {l : List β} (hle : fuel ≤ fuel')
    (h : collectUntil step stop emit fuel x = some l) :
    collectUntil step stop emit fuel' x = some l := by
  induction fuel generalizing fuel' x l with
  | zero => cases h
  | succ fuel ih =>
    obtain ⟨fuel', rfl⟩ := Nat.exists_eq_succ_of_ne_zero (by omega : fuel' ≠ 0)
    rw [collectUntil] at h ⊢
    split at h
    · next hstop => rwa [if_pos hstop]
    · next hstop =>
      obtain ⟨rest, hrest, rfl⟩ := Option.map_eq_some_iff.mp h
      rw [if_neg hstop, ih (by omega) hrest]
      rfl

theorem collectUntil_eq {fuel n : ℕ} {x : α} (hn : n < fuel) (hmeet : stop (step^[n] x) = true)
    (hbefore : ∀ k < n, stop (step^[k] x) = false) :
    collectUntil step stop emit fuel x =
      some ((List.range (n + 1)).map fun k => emit (step^[k] x)) := by
  induction n generalizing fuel x with
  | zero =>
    obtain ⟨fuel, rfl⟩ := Nat.exists_eq_succ_of_ne_zero (by omega : fuel ≠ 0)
    have hx : stop x = true := hmeet
    rw [collectUntil, if_pos hx]
    rfl
  | succ n ih =>
    obtain ⟨fuel, rfl⟩ := Nat.exists_eq_succ_of_ne_zero (by omega : fuel ≠ 0)
    have hx : stop x = false := hbefore 0 (Nat.succ_pos n)
    have hrest := ih (by omega : n < fuel) (x := step x) hmeet
      fun k hk => hbefore (k + 1) (by omega)
    rw [collectUntil, hx, hrest, List.range_succ_eq_map (n := n + 1), List.map_cons, List.map_map]
    rfl

end Loop

/-! ## The byte counter -/

/-- Adds one to a little-endian byte string; the loop ends at the first byte that does not
become zero. -/
def carry : List UInt8 → List UInt8
  | [] => []
  | b :: bs => if 0 < b + 1 then (b + 1) :: bs else (b + 1) :: carry bs

/-- Adds one to a big-endian byte string, from its last byte on. -/
def increment (bs : List UInt8) : List UInt8 := (carry bs.reverse).reverse

/-- The number a big-endian byte string stands for. -/
def byteValue (bs : List UInt8) : ℕ := Nat.ofDigits 256 (bs.reverse.map UInt8.toNat)

/-- How many increments lead from one string to another of the same length. -/
def distance (s e : List UInt8) : ℕ :=
  (byteValue e + 256 ^ s.length - byteValue s) % 256 ^ s.length

theorem length_carry (bs : List UInt8) : (carry bs).length = bs.length := by
  induction bs with
  | nil => rfl
  | cons b bs ih =>
    rw [carry]
    split
    · rfl
    · rw [List.length_cons, ih, List.length_cons]

theorem length_increment (bs : List UInt8) : (increment bs).length = bs.length := by
  rw [increment, List.length_reverse, length_carry, List.length_reverse]

theorem length_iterate_increment (n : ℕ) (bs : List UInt8) :
    (increment^[n] bs).length = bs.length := by
  induction n with
  | zero => rfl
  | succ n ih => rw [Function.iterate_succ_apply', length_increment, ih]

theorem lt_of_mem_toNat (bs : List UInt8) : ∀ d ∈ bs.map UInt8.toNat, d < 256 := by
  intro d hd
  obtain ⟨b, -, rfl⟩ := List.mem_map.mp hd
  exact b.toNat_lt

theorem ofDigits_toNat_lt (bs : List UInt8) :
    Nat.ofDigits 256 (bs.map UInt8.toNat) < 256 ^ bs.length := by
  have h := Nat.ofDigits_lt_base_pow_length (by decide : 1 < 256) (lt_of_mem_toNat bs)
  rwa [List.length_map] at h

theorem ofDigits_carry (bs : List UInt8) : Nat.ofDigits 256 ((carry bs).map UInt8.toNat) =
    (Nat.ofDigits 256 (bs.map UInt8.toNat) + 1) % 256 ^ bs.length := by
  induction bs with
  | nil => simp [carry]
  | cons b bs ih =>
    have hb := b.toNat_lt
    have hlt := ofDigits_toNat_lt bs
    have hadd : (b + 1).toNat = (b.toNat + 1) % 256 := UInt8.toNat_add b 1
    rw [carry, List.length_cons, pow_succ']
    split
    · next hpos =>
      -- no carry: the first byte takes the one
      have hsmall : (b + 1).toNat = b.toNat + 1 := by
        have hpos' : 0 < (b + 1).toNat := UInt8.lt_iff_toNat_lt.mp hpos
        omega
      rw [List.map_cons, List.map_cons, Nat.ofDigits_cons, Nat.ofDigits_cons, hsmall,
        Nat.mod_eq_of_lt (by omega)]
      omega
    · next hpos =>
      have hzero : (b + 1).toNat = 0 := by
        have hpos' : ¬ 0 < (b + 1).toNat := fun h => hpos (UInt8.lt_iff_toNat_lt.mpr h)
        omega
      have hfull : b.toNat = 255 := by omega
      rw [List.map_cons, List.map_cons, Nat.ofDigits_cons, Nat.ofDigits_cons, ih, hzero, hfull,
        ← Nat.mul_mod_mul_left, Nat.zero_add, Nat.mul_add]
      congr 1
      ring

theorem byteValue_lt (bs : List UInt8) : byteValue bs < 256 ^ bs.length := by
  have h := ofDigits_toNat_lt bs.reverse
  rwa [List.length_reverse] at h

theorem byteValue_inj {as bs : List UInt8} (hlen : as.length = bs.length)
    (h : byteValue as = byteValue bs) : as = bs := by
  have hdigits := Nat.ofDigits_inj_of_len_eq (by decide : 1 < 256) (by simpa using hlen)
    (lt_of_mem_toNat as.reverse) (lt_of_mem_toNat bs.reverse) h
  have hrev := (List.map_inj_right fun a b => UInt8.toNat_inj.mp).mp hdigits
  exact List.reverse_inj.mp hrev

theorem byteValue_append (as bs : List UInt8) :
    byteValue (as ++ bs) = byteValue bs + 256 ^ bs.length * byteValue as := by
  rw [byteValue, List.reverse_append, List.map_append, Nat.ofDigits_append, List.length_map,
    List.length_reverse]
  rfl

theorem byteValue_increment (bs : List UInt8) :
    byteValue (increment bs) = (byteValue bs + 1) % 256 ^ bs.length := by
  have h := ofDigits_carry bs.reverse
  rw [List.length_reverse] at h
  rw [byteValue, increment, List.reverse_reverse, h, byteValue]

theorem byteValue_iterate (n : ℕ) (bs : List UInt8) :
    byteValue (increment^[n] bs) = (byteValue bs + n) % 256 ^ bs.length := by
  induction n with
  | zero => exact (Nat.mod_eq_of_lt (byteValue_lt bs)).symm
  | succ n ih =>
    rw [Function.iterate_succ_apply', byteValue_increment, length_iterate_increment, ih,
      Nat.mod_add_mod, Nat.add_assoc]

section Distance
variable {s e : List UInt8} (hlen : s.length = e.length)
include hlen

theorem iterate_increment_eq_iff (n : ℕ) :
    increment^[n] s = e ↔ n % 256 ^ s.length = distance s e := by
  have hs := byteValue_lt s
  have he : byteValue e < 256 ^ s.length := hlen ▸ byteValue_lt e
  have hiff : increment^[n] s = e ↔ (byteValue s + n) % 256 ^ s.length = byteValue e := by
    rw [← byteValue_iterate]
    exact ⟨fun h => h ▸ rfl, byteValue_inj ((length_iterate_increment n s).trans hlen)⟩
  have hback : byteValue e =
      (byteValue s + (byteValue e + 256 ^ s.length - byteValue s)) % 256 ^ s.length := by
    rw [Nat.add_sub_cancel' (by omega), Nat.add_mod_right, Nat.mod_eq_of_lt he]
  rw [hiff, hback]
  exact ⟨Nat.ModEq.add_left_cancel' _, Nat.ModEq.add_left _⟩

theorem iterate_distance : increment^[distance s e] s = e :=
  (iterate_increment_eq_iff hlen _).mpr (Nat.mod_mod _ _)

theorem distance_le {n : ℕ} (h : increment^[n] s = e) : distance s e ≤ n :=
  (iterate_increment_eq_iff hlen n).mp h ▸ Nat.mod_le _ _

end Distance

end StandaloneDHCP.Lib
