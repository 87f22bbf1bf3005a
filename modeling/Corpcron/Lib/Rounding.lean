import Mathlib.Data.Nat.Log
import Mathlib.Algebra.Order.Ring.Nat

/-!
# Rounding to a number of significant bits

A binary floating point value is a natural number in units of a fixed power of
two, and the result of an operation is the exact result rounded to `p`
significant bits, to nearest with ties to even.  `roundRatio p a b` is this
rounding of a quotient of at least `2 ^ (p - 1)` units, `roundNearest p n` that
of a number; exponents are not bounded.

The one fact that reasoning about a rounded result needs is that rounding does
not cross a representable number (`le_roundRatio`, `roundRatio_le`), and that
representable numbers are dense (`exists_representable`).
-/

namespace Corpcron
namespace Lib

/-! ## Rounded division -/

/-- `a / b` rounded to nearest, ties to even. -/
def roundDiv (a b : Nat) : Nat :=
  if 2 * (a % b) < b then a / b
  else if b < 2 * (a % b) then a / b + 1
  else a / b + a / b % 2

variable {a b m : Nat}

theorem le_roundDiv (hb : 0 < b) (h : m * b ≤ a) : m ≤ roundDiv a b := by
  have hfloor : m ≤ a / b := (Nat.le_div_iff_mul_le hb).mpr h
  unfold roundDiv
  split
  · exact hfloor
  · split <;> omega

theorem roundDiv_le (hb : 0 < b) (h : a ≤ m * b) : roundDiv a b ≤ m := by
  have hdecompose := Nat.div_add_mod a b
  have hmod := Nat.mod_lt a hb
  rcases Nat.lt_or_ge (a / b) m with hlt | hge
  · unfold roundDiv
    split
    · exact hlt.le
    · split <;> omega
  · -- The quotient is `m` already, and nothing is left to round up.
    have hmul : m * b ≤ b * (a / b) := by
      rw [Nat.mul_comm b]
      exact Nat.mul_le_mul_right b hge
    have hzero : a % b = 0 := by omega
    have hquot : a / b ≤ m := by
      apply Nat.le_of_mul_le_mul_left _ hb
      rw [Nat.mul_comm b m]
      omega
    unfold roundDiv
    rw [hzero, if_pos (by omega)]
    exact hquot

/-! ## Rounding -/

/-- `a / b` rounded to `p` significant bits. -/
def roundRatio (p a b : Nat) : Nat :=
  roundDiv a (b * 2 ^ ((a / b).log2 + 1 - p)) * 2 ^ ((a / b).log2 + 1 - p)

/-- `n` rounded to `p` significant bits. -/
def roundNearest (p n : Nat) : Nat :=
  roundDiv n (2 ^ (n.log2 + 1 - p)) * 2 ^ (n.log2 + 1 - p)

theorem roundNearest_eq_roundRatio (p n : Nat) : roundNearest p n = roundRatio p n 1 := by
  rw [roundNearest, roundRatio, Nat.div_one, Nat.one_mul]

/-- `n` has at most `p` significant bits. -/
def Representable (p n : Nat) : Prop := ∃ m e, m < 2 ^ p ∧ n = m * 2 ^ e

theorem representable_of_lt {p n : Nat} (h : n < 2 ^ p) : Representable p n :=
  ⟨n, 0, h, by simp⟩

theorem Representable.mul_two_pow {p n : Nat} (h : Representable p n) (k : Nat) :
    Representable p (n * 2 ^ k) := by
  obtain ⟨m, e, hm, rfl⟩ := h
  exact ⟨m, e + k, hm, by rw [Nat.mul_assoc, ← Nat.pow_add]⟩

variable {p n v : Nat}

/-- A representable number is a multiple of the unit to which `n` is rounded, or
it lies below the leading bit of `n`. -/
theorem multiple_or_lt (hv : Representable p v) (n : Nat) :
    (∃ m, v = m * 2 ^ (n.log2 + 1 - p)) ∨ v < 2 ^ n.log2 ∧ p ≤ n.log2 := by
  obtain ⟨m, e, hm, rfl⟩ := hv
  by_cases he : n.log2 + 1 - p ≤ e
  · left
    refine ⟨m * 2 ^ (e - (n.log2 + 1 - p)), ?_⟩
    rw [Nat.mul_assoc, ← Nat.pow_add]
    congr 2
    omega
  · right
    refine ⟨?_, by omega⟩
    calc
      m * 2 ^ e < 2 ^ p * 2 ^ e := Nat.mul_lt_mul_of_pos_right hm (Nat.two_pow_pos e)
      _ = 2 ^ (p + e) := (Nat.pow_add 2 p e).symm
      _ ≤ 2 ^ n.log2 := Nat.pow_le_pow_right (by decide) (by omega)

theorem le_roundRatio (hp : 0 < p) (hb : 0 < b) (hv : Representable p v) (h : v * b ≤ a) :
    v ≤ roundRatio p a b := by
  have hle : v ≤ a / b := (Nat.le_div_iff_mul_le hb).mpr h
  by_cases hn : a / b = 0
  · have hzero : v = 0 := by omega
    rw [hzero]
    exact Nat.zero_le _
  · have hunit : 0 < b * 2 ^ ((a / b).log2 + 1 - p) := Nat.mul_pos hb (Nat.two_pow_pos _)
    have hmultiple : ∀ m, m * 2 ^ ((a / b).log2 + 1 - p) ≤ a / b →
        m * 2 ^ ((a / b).log2 + 1 - p) ≤ roundRatio p a b := by
      intro m hm
      refine Nat.mul_le_mul_right _ (le_roundDiv hunit ?_)
      rw [Nat.mul_comm b, ← Nat.mul_assoc]
      exact (Nat.le_div_iff_mul_le hb).mp hm
    rcases multiple_or_lt hv (a / b) with ⟨m, rfl⟩ | ⟨hlt, hlog⟩
    · exact hmultiple m hle
    · -- The leading bit of the quotient is itself a multiple of the unit.
      have hlead : 2 ^ (a / b).log2 = 2 ^ (p - 1) * 2 ^ ((a / b).log2 + 1 - p) := by
        rw [← Nat.pow_add]
        congr 1
        omega
      have hself : 2 ^ (p - 1) * 2 ^ ((a / b).log2 + 1 - p) ≤ a / b := by
        rw [← hlead]
        exact Nat.log2_self_le hn
      calc
        v ≤ 2 ^ (a / b).log2 := hlt.le
        _ = 2 ^ (p - 1) * 2 ^ ((a / b).log2 + 1 - p) := hlead
        _ ≤ roundRatio p a b := hmultiple _ hself

theorem roundRatio_le (hb : 0 < b) (hv : Representable p v) (h : a ≤ v * b) :
    roundRatio p a b ≤ v := by
  have hunit : 0 < b * 2 ^ ((a / b).log2 + 1 - p) := Nat.mul_pos hb (Nat.two_pow_pos _)
  have hle : a / b ≤ v := by
    rw [Nat.div_le_iff_le_mul_add_pred hb, Nat.mul_comm b]
    omega
  rcases multiple_or_lt hv (a / b) with ⟨m, rfl⟩ | ⟨hlt, -⟩
  · refine Nat.mul_le_mul_right _ (roundDiv_le hunit ?_)
    rw [Nat.mul_comm b, ← Nat.mul_assoc]
    exact h
  · by_cases hn : a / b = 0
    · -- Then `v` is zero, and so is `a`.
      rw [hn, Nat.log2_zero, Nat.pow_zero] at hlt
      have hv : v = 0 := by omega
      have ha : a = 0 := by
        rw [hv, Nat.zero_mul] at h
        omega
      have hzero : roundDiv 0 (b * 2 ^ ((a / b).log2 + 1 - p)) ≤ 0 :=
        roundDiv_le hunit (Nat.zero_le _)
      rw [roundRatio, ha, Nat.zero_div] at *
      rw [Nat.le_zero.mp hzero, Nat.zero_mul]
      exact Nat.zero_le _
    · have hself := Nat.log2_self_le hn
      omega

theorem le_roundNearest (hp : 0 < p) (hv : Representable p v) (h : v ≤ n) :
    v ≤ roundNearest p n := by
  rw [roundNearest_eq_roundRatio]
  exact le_roundRatio hp Nat.one_pos hv (by omega)

theorem roundNearest_le (hv : Representable p v) (h : n ≤ v) : roundNearest p n ≤ v := by
  rw [roundNearest_eq_roundRatio]
  exact roundRatio_le Nat.one_pos hv (by omega)

/-- A representable number is not changed. -/
theorem roundNearest_eq_self (hp : 0 < p) (hv : Representable p v) : roundNearest p v = v :=
  Nat.le_antisymm (roundNearest_le hv (Nat.le_refl v)) (le_roundNearest hp hv (Nat.le_refl v))

/-- Not far above any number there is a representable one. -/
theorem exists_representable (hp : 0 < p) (n : Nat) :
    ∃ v, Representable p v ∧ n ≤ v ∧ v * 2 ^ (p - 1) ≤ n * (2 ^ (p - 1) + 1) := by
  by_cases hlt : n < 2 ^ p
  · exact ⟨n, representable_of_lt hlt, Nat.le_refl n, Nat.mul_le_mul_left n (Nat.le_succ _)⟩
  · -- The next multiple of the unit in which `n` has `p` digits.
    have hn : n ≠ 0 := by
      have hpos := Nat.two_pow_pos p
      omega
    have hlog : p ≤ n.log2 := (Nat.le_log2 hn).mpr (Nat.not_lt.mp hlt)
    obtain ⟨e, he⟩ : ∃ e, n.log2 + 1 = p + e := ⟨n.log2 + 1 - p, by omega⟩
    have hlead : 2 ^ e * 2 ^ (p - 1) ≤ n := by
      rw [← Nat.pow_add, show e + (p - 1) = n.log2 by omega]
      exact Nat.log2_self_le hn
    have hdigits : n / 2 ^ e < 2 ^ p := by
      rw [Nat.div_lt_iff_lt_mul (Nat.two_pow_pos e), ← Nat.pow_add, ← he]
      exact Nat.lt_log2_self
    have hquot := Nat.div_add_mod n (2 ^ e)
    have hrest := Nat.mod_lt n (Nat.two_pow_pos e)
    refine ⟨(n / 2 ^ e + 1) * 2 ^ e, ?_, ?_, ?_⟩
    · rcases Nat.lt_or_ge (n / 2 ^ e + 1) (2 ^ p) with hm | hm
      · exact ⟨_, e, hm, rfl⟩
      · have hcarry : n / 2 ^ e + 1 = 2 ^ p := by omega
        exact ⟨1, p + e, Nat.one_lt_two_pow hp.ne', by rw [hcarry, Nat.one_mul, Nat.pow_add]⟩
    · rw [Nat.add_mul, Nat.one_mul, Nat.mul_comm]
      omega
    · calc
        (n / 2 ^ e + 1) * 2 ^ e * 2 ^ (p - 1)
            = (2 ^ e * (n / 2 ^ e)) * 2 ^ (p - 1) + 2 ^ e * 2 ^ (p - 1) := by
          rw [Nat.add_mul, Nat.one_mul, Nat.add_mul, Nat.mul_comm (n / 2 ^ e)]
        _ ≤ n * 2 ^ (p - 1) + n := Nat.add_le_add (Nat.mul_le_mul_right _ (by omega)) hlead
        _ = n * (2 ^ (p - 1) + 1) := (Nat.mul_succ _ _).symm

end Lib
end Corpcron
