import Corpcron.Lib.OrderStatistic
import Corpcron.Lib.Rounding
import Mathlib.Tactic.Ring

/-!
# `percentile`

The rank is computed in `double`: the literal `0.95` is the nearest double, the
product with the number of values is rounded, and the rounded product is rounded
up.  A quantile is a natural number in units of `2 ^ -53` here, which is the unit
of the last place of a double between one half and one.

Both literals of the source are a little below their decimal values, and the
product is rounded to nearest, so the result of `ceil` could come out one too
small or one too large.  It does not: the exact rank is a representable number
above the product, and a representable number above the preceding integer is
still below it (`percentileRank_eq`).
-/

namespace Corpcron

open Lib

/-! ## The rank -/

/-- A literal between one half and one, in units of `2 ^ -53`. -/
def doubleLiteral (num den : Nat) : Nat := roundDiv (num * 2 ^ 53) den

/-- `std::ceil(quantile * static_cast<double>(size))`. -/
def percentileRank (quantile size : Nat) : Nat :=
  (roundNearest 53 (quantile * roundNearest 53 size) + (2 ^ 53 - 1)) / 2 ^ 53

/-- `percent * size / 100`, rounded up. -/
def nearestRank (percent size : Nat) : Nat := (percent * size + 99) / 100

/-- The literal stands for `percent / 100` and is not above it. -/
structure IsQuantile (percent quantile : Nat) : Prop where
  pos : 0 < percent
  le : percent ≤ 100
  nearest : ∃ error ≤ 100, 100 * quantile + error = percent * 2 ^ 53

theorem isQuantile_95 : IsQuantile 95 (doubleLiteral 95 100) :=
  ⟨by decide, by decide, 40, by decide, by decide⟩

theorem isQuantile_99 : IsQuantile 99 (doubleLiteral 99 100) :=
  ⟨by decide, by decide, 8, by decide, by decide⟩

variable {percent quantile size : Nat}

theorem nearestRank_bounds (h : IsQuantile percent quantile) (hsize : 0 < size) :
    0 < nearestRank percent size ∧ nearestRank percent size ≤ size := by
  have hpos : 0 < percent * size := Nat.mul_pos h.pos hsize
  have hle : percent * size ≤ 100 * size := Nat.mul_le_mul_right size h.le
  unfold nearestRank
  omega

theorem nearestRank_mono {percent' : Nat} (h : percent ≤ percent') (size : Nat) :
    nearestRank percent size ≤ nearestRank percent' size := by
  have hle : percent * size ≤ percent' * size := Nat.mul_le_mul_right size h
  unfold nearestRank
  omega

/-- The rank is exact. -/
theorem percentileRank_eq (h : IsQuantile percent quantile) (hsize : 0 < size)
    (hbound : size ≤ 2 ^ 44) : percentileRank quantile size = nearestRank percent size := by
  obtain ⟨error, herror, hnearest⟩ := h.nearest
  obtain ⟨hrank, hrankLe⟩ := nearestRank_bounds h hsize
  have hcast : roundNearest 53 size = size :=
    roundNearest_eq_self (by decide) (representable_of_lt (by omega))
  -- In units of `2 ^ -53` the product is `percent * size / 100`, less a small error.
  have hproduct : 100 * (quantile * size) + error * size = percent * size * 2 ^ 53 := by
    calc
      100 * (quantile * size) + error * size = (100 * quantile + error) * size := by ring
      _ = percent * size * 2 ^ 53 := by rw [hnearest]; ring
  have hsmall : error * size ≤ 100 * size := Nat.mul_le_mul_right size herror
  unfold percentileRank
  rw [hcast]
  unfold nearestRank at hrank hrankLe ⊢
  generalize quantile * size = product at hproduct ⊢
  generalize percent * size = scaled at hproduct hrank hrankLe ⊢
  generalize error * size = loss at hproduct hsmall
  generalize hN : (scaled + 99) / 100 = rank at hrank hrankLe ⊢
  have habove : roundNearest 53 product ≤ rank * 2 ^ 53 :=
    roundNearest_le ⟨rank, 53, by omega, rfl⟩ (by omega)
  have hbelow : (128 * (rank - 1) + 1) * 2 ^ 46 ≤ roundNearest 53 product :=
    le_roundNearest (by decide) ⟨128 * (rank - 1) + 1, 46, by omega, rfl⟩ (by omega)
  omega

/-! ## The percentile -/

/-- `percentile`. -/
def percentile (values : List Nat) (quantile : Nat) : Nat :=
  if values.isEmpty then 0
  else
    let sorted := values.mergeSort fun x y => decide (x ≤ y)
    let rank := percentileRank quantile values.length
    let index := if rank ≤ 1 then 0 else rank - 1
    let index := if values.length ≤ index then values.length - 1 else index
    (sorted[index]?).getD 0

@[simp] theorem percentile_nil (quantile : Nat) : percentile [] quantile = 0 := rfl

/-- The nearest-rank percentile of the values. -/
theorem percentile_isNth {values : List Nat} (h : IsQuantile percent quantile)
    (hne : values ≠ []) (hbound : values.length ≤ 2 ^ 44) :
    IsNth values (nearestRank percent values.length) (percentile values quantile) := by
  have hlength : 0 < values.length := List.length_pos_iff.mpr hne
  obtain ⟨hrank, hrankLe⟩ := nearestRank_bounds h hlength
  have hperm := List.mergeSort_perm values fun x y => decide (x ≤ y)
  have hsorted : (values.mergeSort fun x y => decide (x ≤ y)).Pairwise (· ≤ ·) := by
    refine (List.pairwise_mergeSort ?_ ?_ values).imp fun hle => of_decide_eq_true hle
    · intro x y z hxy hyz
      exact decide_eq_true (Nat.le_trans (of_decide_eq_true hxy) (of_decide_eq_true hyz))
    · intro x y
      simpa using Nat.le_total x y
  unfold percentile
  rw [if_neg (by simpa using hne)]
  dsimp only
  rw [percentileRank_eq h hlength hbound]
  generalize hN : nearestRank percent values.length = rank at hrank hrankLe ⊢
  -- The index is the rank less one, and it is within the list.
  have hindex : (if rank ≤ 1 then 0 else rank - 1) = rank - 1 := by
    split <;> omega
  rw [hindex, if_neg (by omega)]
  have hin : rank - 1 < (values.mergeSort fun x y => decide (x ≤ y)).length := by
    rw [hperm.length_eq]
    omega
  rw [List.getElem?_eq_getElem hin, Option.getD_some]
  have hnth := isNth_of_sorted hsorted (List.getElem?_eq_getElem hin)
  rw [Nat.sub_add_cancel hrank] at hnth
  exact hnth.perm hperm

end Corpcron
