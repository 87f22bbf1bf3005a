import Mathlib.Data.List.Count
import Mathlib.Order.Lattice

/-!
# The `r`-th smallest element of a list

`IsNth l r v` says that `v` is the `r`-th smallest element of `l`, counted from
one and with repetitions: fewer than `r` elements are below `v`, and at least `r`
are not above it.  The notion does not depend on the order of the list, and in a
sorted list it is the element at position `r - 1`.
-/

namespace Corpcron
namespace Lib

variable {α : Type*} [LinearOrder α] {l l' : List α} {r r' : Nat} {v v' : α}

/-- `v` is the `r`-th smallest element of `l`. -/
structure IsNth (l : List α) (r : Nat) (v : α) : Prop where
  mem : v ∈ l
  below : l.countP (fun x => decide (x < v)) < r
  upto : r ≤ l.countP (fun x => decide (x ≤ v))

theorem IsNth.perm (h : IsNth l r v) (hperm : l.Perm l') : IsNth l' r v :=
  ⟨hperm.mem_iff.mp h.mem, hperm.countP_eq _ ▸ h.below, hperm.countP_eq _ ▸ h.upto⟩

/-- A smaller rank gives a smaller element. -/
theorem IsNth.mono (h : IsNth l r v) (h' : IsNth l r' v') (hr : r ≤ r') : v ≤ v' := by
  by_contra hlt
  rw [not_le] at hlt
  have hcount : l.countP (fun x => decide (x ≤ v')) ≤ l.countP (fun x => decide (x < v)) := by
    apply List.countP_mono_left
    intro x _ hx
    exact decide_eq_true (lt_of_le_of_lt (of_decide_eq_true hx) hlt)
  have hbelow := h.below
  have hupto := h'.upto
  omega

/-- In a sorted list the elements before a position are not above the element
there, and those after it are not below. -/
theorem isNth_of_sorted (hsorted : l.Pairwise (· ≤ ·)) (hr : l[r]? = some v) :
    IsNth l (r + 1) v := by
  obtain ⟨hlt, hv⟩ := List.getElem?_eq_some_iff.mp hr
  have hsplit : l = l.take r ++ v :: l.drop (r + 1) := by
    rw [← hv, List.getElem_cons_drop, List.take_append_drop]
  have hlength : (l.take r).length = r := by
    rw [List.length_take]
    omega
  rw [hsplit, List.pairwise_append] at hsorted
  obtain ⟨-, hafter, hbefore⟩ := hsorted
  refine ⟨List.mem_of_getElem? hr, ?_, ?_⟩
  · rw [hsplit, List.countP_append, List.countP_cons]
    have hrest : (l.drop (r + 1)).countP (fun x => decide (x < v)) = 0 := by
      rw [List.countP_eq_zero]
      intro x hx hbelow
      exact absurd (of_decide_eq_true hbelow)
        (not_lt.mpr ((List.pairwise_cons.mp hafter).1 x hx))
    have hfirst := List.countP_le_length (p := fun x => decide (x < v)) (l := l.take r)
    simp only [hrest, lt_irrefl, decide_false, Bool.false_eq_true, if_false]
    omega
  · rw [hsplit, List.countP_append, List.countP_cons]
    have hfirst : (l.take r).countP (fun x => decide (x ≤ v)) = r := by
      rw [List.countP_eq_length.mpr, hlength]
      intro x hx
      exact decide_eq_true (hbefore x hx v List.mem_cons_self)
    simp only [hfirst, le_refl, decide_true, if_true]
    omega

end Lib
end Corpcron
