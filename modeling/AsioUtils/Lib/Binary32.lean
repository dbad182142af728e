import Mathlib.Tactic.Ring
import Mathlib.Tactic.Linarith

/-!
# Quotients of natural numbers in single precision

Single precision keeps 24 significant bits and rounds to nearest, ties to even. The exponent range plays no part for
the sizes of containers and is left out.

* `ofNat n` : `(float)n`;
* `floorQuot a b` : `floor(a / b)`, the quotient rounded first, for `a` and `b` that are floats;
* `floorQuot_eq_div` : below `2^24` the rounding is not seen by `floor`.
-/

namespace Binary32

/-- `a / b` rounded to the nearest integer, ties to even. -/
def roundDiv (a b : Nat) : Nat :=
  if 2 * (a % b) < b ∨ 2 * (a % b) = b ∧ a / b % 2 = 0 then a / b else a / b + 1

/-- `n` with 24 significant bits. -/
def ofNat (n : Nat) : Nat :=
  if n < 2 ^ 24 then n else roundDiv n (2 ^ (n.log2 - 23)) * 2 ^ (n.log2 - 23)

/-- `floor` of the rounded quotient. A quotient of floats below `1` does not round up to `1`; one with more than 24
integer bits is an integer once rounded. -/
def floorQuot (a b : Nat) : Nat :=
  if a < b then 0
  else if (a / b).log2 ≤ 23 then roundDiv (a * 2 ^ (23 - (a / b).log2)) b / 2 ^ (23 - (a / b).log2)
  else roundDiv a (b * 2 ^ ((a / b).log2 - 23)) * 2 ^ ((a / b).log2 - 23)

theorem ofNat_of_lt {n : Nat} (h : n < 2 ^ 24) : ofNat n = n := if_pos h

theorem div_le_roundDiv (a b : Nat) : a / b ≤ roundDiv a b := by
  unfold roundDiv; split <;> omega

/-- Rounding moves a quotient up by a half at most. -/
theorem roundDiv_mul_le (a b : Nat) (hb : 0 < b) : 2 * roundDiv a b * b ≤ 2 * a + b := by
  have hdiv : b * (a / b) + a % b = a := Nat.div_add_mod a b
  unfold roundDiv
  split
  · nlinarith [Nat.zero_le (a % b)]
  · rename_i h
    have hhalf : b ≤ 2 * (a % b) := by omega
    nlinarith

/-- With numbers below `2^24` the rounded quotient has the floor of the exact one. -/
theorem floorQuot_eq_div {a b : Nat} (ha : a < 2 ^ 24) (hb : 0 < b) : floorQuot a b = a / b := by
  unfold floorQuot
  split
  · rename_i h; exact (Nat.div_eq_of_lt h).symm
  · rename_i h
    have hq0 : a / b ≠ 0 := by
      have := Nat.div_pos (not_lt.mp h) hb
      omega
    have hlog : 2 ^ (a / b).log2 ≤ a / b := Nat.log2_self_le hq0
    have hlt : (a / b).log2 ≤ 23 := by
      have h1 : a / b < 2 ^ 24 := lt_of_le_of_lt (Nat.div_le_self a b) ha
      exact Nat.lt_succ_iff.mp ((Nat.log2_lt hq0).mpr h1)
    rw [if_pos hlt]
    generalize hk : (a / b).log2 = k at hlog hlt
    have ht : 0 < 2 ^ (23 - k) := Nat.two_pow_pos _
    have hpow : 2 ^ k * (2 * 2 ^ (23 - k)) = 2 ^ 24 := by
      rw [← pow_succ', ← pow_add]; congr 1; omega
    generalize 2 ^ (23 - k) = t at ht hpow
    have hqb : a / b * b ≤ a := Nat.div_mul_le_self a b
    have hub : a < (a / b + 1) * b := Nat.lt_mul_of_div_lt (Nat.lt_succ_self _) hb
    refine le_antisymm ?_ ?_
    · refine Nat.lt_succ_iff.mp (Nat.div_lt_of_lt_mul ?_)
      by_contra hge
      -- a quotient that rounds up to the next integer needs a divisor of at least `2 t`
      have hr := roundDiv_mul_le (a * t) b hb
      have h1 : 2 * (t * (a / b + 1)) * b ≤ 2 * (a * t) + b :=
        le_trans (Nat.mul_le_mul_right b (Nat.mul_le_mul_left 2 (not_lt.mp hge))) hr
      have h2 : 2 * t ≤ b := by nlinarith
      have h3 : 2 ^ k * (2 * t) ≤ a / b * b := Nat.mul_le_mul hlog h2
      omega
    · rw [Nat.le_div_iff_mul_le ht]
      refine le_trans ?_ (div_le_roundDiv (a * t) b)
      rw [Nat.le_div_iff_mul_le hb]
      calc a / b * t * b = a / b * b * t := by ring
        _ ≤ a * t := Nat.mul_le_mul_right t hqb

end Binary32
