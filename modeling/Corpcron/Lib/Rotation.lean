import Mathlib.Data.List.Rotate

/-!
# Taking turns

A list is walked from a place given by a counter, and the counter goes up by one
each time.  The walk is `List.rotate`, and whoever stands at its head has the
turn.  In any number of whole rounds everybody in a list without repetitions has
the same number of turns (`count_turns`), wherever the counter starts.
-/

namespace Corpcron
namespace Lib

variable {α : Type*}

/-- Who has the turn when the counter is `r`. -/
def turn (l : List α) (r : Nat) : Option α := (l.rotate r).head?

/-- The turns from the counter `r` on. -/
def turns (l : List α) (r count : Nat) : List (Option α) :=
  (List.range count).map fun j => turn l (r + j)

theorem turn_eq_getElem? (l : List α) (r : Nat) : turn l r = l[r % l.length]? := by
  rcases l.eq_nil_or_concat with rfl | ⟨_, _, rfl⟩
  · simp [turn]
  · rw [turn, ← List.rotate_mod]
    exact List.head?_rotate (Nat.mod_lt _ (by simp))

/-- One round is the list itself, from some place on. -/
theorem turns_length (l : List α) (r : Nat) : turns l r l.length = (l.rotate r).map some := by
  apply List.ext_getElem (by simp [turns])
  intro i hi hi'
  have hlt : i < l.length := by simpa [turns] using hi
  have hmod : (i + r) % l.length < l.length := Nat.mod_lt _ (Nat.zero_lt_of_lt hlt)
  simp only [turns, List.getElem_map, List.getElem_range, turn_eq_getElem?, List.getElem_rotate,
    Nat.add_comm r i, List.getElem?_eq_getElem hmod]

/-- Walking the indices modulo the length is walking the rotated list. -/
theorem filterMap_range_eq_rotate (l : List α) (r : Nat) :
    ((List.range l.length).filterMap fun i => l[(r + i) % l.length]?) = l.rotate r := by
  calc ((List.range l.length).filterMap fun i => l[(r + i) % l.length]?)
      = (turns l r l.length).filterMap id := by
        simp only [turns, turn_eq_getElem?, List.filterMap_map]
        rfl
    _ = l.rotate r := by
        rw [turns_length, List.filterMap_map]
        exact List.filterMap_some

theorem turns_add (l : List α) (r m n : Nat) :
    turns l r (m + n) = turns l r m ++ turns l (r + m) n := by
  simp only [turns, List.range_add, List.map_append, List.map_map]
  congr 1
  apply List.map_congr_left
  intro j _
  rw [Function.comp_apply, Nat.add_assoc]

/-- Everybody has one turn in a round. -/
theorem count_turns [DecidableEq α] {l : List α} (hnodup : l.Nodup) {a : α} (ha : a ∈ l)
    (r k : Nat) : (turns l r (k * l.length)).count (some a) = k := by
  induction k with
  | zero => simp [turns]
  | succ k ih =>
      have hround : ((l.rotate (r + k * l.length)).map some).count (some a) = 1 := by
        refine List.count_eq_one_of_mem ?_ ?_
        · exact (List.nodup_rotate.mpr hnodup).map fun _ _ h => Option.some.inj h
        · exact List.mem_map_of_mem (List.mem_rotate.mpr ha)
      rw [Nat.succ_mul, turns_add, List.count_append, ih, turns_length, hround]

end Lib
end Corpcron
