import Mathlib.Data.List.Nodup
import Mathlib.Data.List.Perm.Subperm
import Mathlib.Data.List.Range

/-!
# A ring of the last values

A ring of `c` cells receives a sequence of values: value number `n` goes to cell
`n % c`.  `Holds cells values` says that the last `c` of the values are in their
cells.  The cells that are in use then hold, in some order, exactly the last
values (`Holds.perm_window`).
-/

namespace Corpcron
namespace Lib

variable {α : Type*} {cells values : List α}

/-- Each of the last `cells.length` values is in its cell. -/
def Holds (cells values : List α) : Prop :=
  ∀ j, j < values.length → values.length ≤ j + cells.length →
    cells[j % cells.length]? = values[j]?

theorem holds_nil (cells : List α) : Holds cells [] := by
  intro j hj
  simp at hj

/-- Two of the last `c` positions are in different cells. -/
theorem mod_ne_of_lt {j n c : Nat} (hlt : j < n) (hnear : n < j + c) : j % c ≠ n % c := by
  intro heq
  have hzero : (n - j) % c = 0 := Nat.sub_mod_eq_zero_of_mod_eq heq.symm
  rw [Nat.mod_eq_of_lt (by omega)] at hzero
  omega

theorem Holds.push (h : Holds cells values) (hcells : 0 < cells.length) (v : α) :
    Holds (cells.set (values.length % cells.length) v) (values ++ [v]) := by
  intro j hj hnear
  rw [List.length_append, List.length_singleton] at hj hnear
  rw [List.length_set] at hnear ⊢
  rcases Nat.lt_or_ge j values.length with hold | hnew
  · rw [List.getElem?_set_ne (mod_ne_of_lt hold (by omega)).symm,
      List.getElem?_append_left hold]
    exact h j hold (by omega)
  · obtain rfl : j = values.length := by omega
    rw [List.getElem?_set_self (Nat.mod_lt _ hcells), List.getElem?_concat_length]

/-- Going once around the ring visits every cell. -/
theorem perm_rotated (m c : Nat) :
    ((List.range c).map fun k => (m + k) % c).Perm (List.range c) := by
  refine List.Subperm.perm_of_length_le (List.subperm_of_subset ?_ ?_) (by simp)
  · refine List.Nodup.map_on ?_ List.nodup_range
    intro k hk k' hk' heq
    rw [List.mem_range] at hk hk'
    by_contra hne
    rcases Nat.lt_or_gt_of_ne hne with hlt | hgt
    · exact mod_ne_of_lt (by omega) (by omega) heq
    · exact mod_ne_of_lt (by omega) (by omega) heq.symm
  · intro i hi
    obtain ⟨k, hk, rfl⟩ := List.mem_map.mp hi
    rw [List.mem_range] at hk ⊢
    exact Nat.mod_lt _ (by omega)

/-- A part of a list, read position by position. -/
theorem map_some_eq_range (l : List α) (start count : Nat) (h : start + count = l.length) :
    (l.drop start).map some = (List.range count).map fun k => l[start + k]? := by
  apply List.ext_getElem?
  intro k
  simp only [List.getElem?_map, List.getElem?_drop]
  rcases Nat.lt_or_ge k count with hlt | hge
  · rw [List.getElem?_range hlt, Option.map_some,
      List.getElem?_eq_getElem (show start + k < l.length by omega), Option.map_some]
  · rw [List.getElem?_eq_none (show l.length ≤ start + k by omega),
      List.getElem?_eq_none (show (List.range count).length ≤ k by simpa using hge)]
    rfl

/-- The cells in use hold the last values. -/
theorem Holds.perm_window (h : Holds cells values) :
    (cells.take (min values.length cells.length)).Perm
      (values.drop (values.length - min values.length cells.length)) := by
  generalize hw : min values.length cells.length = w
  have hsome : ((cells.take w).map some).Perm ((values.drop (values.length - w)).map some) := by
    have hcells : (cells.take w).map some = (List.range w).map fun k => cells[k]? := by
      have hread := map_some_eq_range (cells.take w) 0 w (by
        rw [List.length_take]
        omega)
      rw [List.drop_zero] at hread
      rw [hread]
      refine List.map_congr_left fun k hk => ?_
      rw [Nat.zero_add, List.getElem?_take_of_lt (List.mem_range.mp hk)]
    rw [hcells, map_some_eq_range values (values.length - w) w (by omega)]
    have hlast : (List.range w).map (fun k => values[values.length - w + k]?) =
        ((List.range w).map fun k => (values.length - w + k) % cells.length).map
          fun i => cells[i]? := by
      rw [List.map_map]
      refine List.map_congr_left fun k hk => ?_
      rw [List.mem_range] at hk
      exact (h (values.length - w + k) (by omega) (by omega)).symm
    rw [hlast]
    refine List.Perm.map _ ?_
    -- Before the first turn is over the values are in the cells in their order.
    rcases Nat.lt_or_ge values.length cells.length with hshort | hlong
    · have hid : (List.range w).map (fun k => (values.length - w + k) % cells.length) =
          List.range w := by
        refine (List.map_congr_left fun k hk => ?_).trans (List.map_id _)
        rw [List.mem_range] at hk
        rw [Nat.mod_eq_of_lt (by omega)]
        show _ = k
        omega
      rw [hid]
    · have hfull : w = cells.length := by omega
      rw [hfull]
      exact (perm_rotated _ _).symm
  have hdecode := hsome.filterMap id
  simpa using hdecode

end Lib
end Corpcron
