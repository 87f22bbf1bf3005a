import Mathlib.Data.List.Sort

/-!
# Going through a list page by page

A store gives out the rows it has in some order that it was asked for, cut at an
offset and a limit.  It may sort anew for every page, so pages fit together only
if there is one way to sort the rows (`Sorting.unique`).

`walk` is what a client does: it asks for a page, adds the limit of the page to
the offset and goes on until it has seen as many rows as there are in total.
-/

namespace Corpcron
namespace Lib

variable {α : Type*}

/-! ## Orders -/

/-- One way to put `rows` into the order `before`. -/
structure Sorting (before : α → α → Prop) (rows sorted : List α) : Prop where
  perm : sorted.Perm rows
  inOrder : sorted.Pairwise before

/-- If no two rows come before each other, there is only one. -/
theorem Sorting.unique {before : α → α → Prop} {rows l₁ l₂ : List α}
    (hstrict : ∀ a ∈ rows, ∀ b ∈ rows, before a b → before b a → a = b)
    (h₁ : Sorting before rows l₁) (h₂ : Sorting before rows l₂) : l₁ = l₂ := by
  refine List.Perm.eq_of_pairwise ?_ h₁.inOrder h₂.inOrder (h₁.perm.trans h₂.perm.symm)
  intro a b ha hb
  exact hstrict a (h₁.perm.mem_iff.mp ha) b (h₂.perm.mem_iff.mp hb)

/-! ## Pages -/

/-- What is cut out of a list at an offset. -/
def pageOf (rows : List α) (offset limit : Nat) : List α := (rows.drop offset).take limit

/-- A page as it is answered. -/
structure Listed (α : Type*) where
  items : List α
  total : Nat
  offset : Nat
  limit : Nat

/-- Ask for pages until all rows have been seen; `ask` may depend on the number
of the request.  `none` if this takes more than `fuel` requests. -/
def walk (ask : Nat → Nat → Listed α) : (fuel turn offset seen : Nat) → Option (List α)
  | 0, _, _, _ => none
  | fuel + 1, turn, offset, seen =>
      let page := ask turn offset
      if seen + page.items.length ≥ page.total then some page.items
      else
        match walk ask fuel (turn + 1) (offset + page.limit) (seen + page.items.length) with
        | none => none
        | some later => some (page.items ++ later)

/-- If all answers are pages of one list, the walk from an offset ends with the
rest of the list. -/
theorem walk_from {ask : Nat → Nat → Listed α} {rows : List α} {limit : Nat}
    (hask : ∀ turn offset, ask turn offset = ⟨pageOf rows offset limit, rows.length, offset, limit⟩)
    (fuel turn offset : Nat) (hoffset : offset ≤ rows.length)
    (hfuel : rows.length - offset < fuel * limit) :
    walk ask fuel turn offset offset = some (rows.drop offset) := by
  induction fuel generalizing turn offset with
  | zero =>
      rw [Nat.zero_mul] at hfuel
      cases hfuel
  | succ fuel ih =>
      rw [Nat.succ_mul] at hfuel
      have hlength : (pageOf rows offset limit).length = min limit (rows.length - offset) := by
        rw [pageOf, List.length_take, List.length_drop]
      rw [walk, hask]
      dsimp only
      rw [hlength]
      by_cases hlast : rows.length - offset ≤ limit
      · have hrest : (rows.drop offset).length ≤ limit := by rwa [List.length_drop]
        rw [if_pos (by omega), pageOf, List.take_of_length_le hrest]
      · have hstep : offset + min limit (rows.length - offset) = offset + limit := by omega
        rw [if_neg (by omega), hstep, ih (turn + 1) (offset + limit) (by omega) (by omega)]
        dsimp only
        rw [pageOf, ← List.drop_drop, List.take_append_drop]

/-- Going through all pages gives every row once, in their order. -/
theorem walk_eq {ask : Nat → Nat → Listed α} {rows : List α} {limit : Nat} (hlimit : 0 < limit)
    (hask : ∀ turn offset, ask turn offset = ⟨pageOf rows offset limit, rows.length, offset, limit⟩)
    {fuel : Nat} (hfuel : rows.length < fuel) : walk ask fuel 0 0 0 = some rows := by
  have hwalk := walk_from hask fuel 0 0 (Nat.zero_le _)
    (Nat.lt_of_lt_of_le hfuel (Nat.le_mul_of_pos_right fuel hlimit))
  rwa [List.drop_zero] at hwalk

end Lib
end Corpcron
