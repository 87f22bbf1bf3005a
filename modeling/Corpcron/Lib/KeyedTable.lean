import Mathlib.Data.List.Nodup
import Mathlib.Data.List.Basic

/-!
# Tables with a primary key

A table is the list of its rows in insertion order.  The primary-key
constraint is a field of the structure, so a table with two rows of one key
cannot be built.  The operations are those of a relational store addressed by
key: insert when the key is new, rewrite the rows of one key that satisfy a
guard, delete the rows of one key that satisfy a guard.

Each operation comes with the lemma that says what it does to a lookup.  With
these lemmas a client never looks at the list again: `find?` after an
operation on key `k` is the old lookup at every other key and a function of
the old lookup at `k` itself.
-/

namespace Corpcron
namespace Lib

/-- A list of rows whose keys are pairwise distinct. -/
structure KeyedTable {α κ : Type*} (key : α → κ) where
  rows : List α
  nodup : (rows.map key).Nodup

namespace KeyedTable

variable {α κ : Type*} {key : α → κ}

/-- The table without rows. -/
def empty : KeyedTable key := ⟨[], by simp⟩

variable [DecidableEq κ]

/-- The row with a given key. -/
def find? (t : KeyedTable key) (k : κ) : Option α :=
  t.rows.find? (fun a => decide (key a = k))

@[simp] theorem find?_empty (k : κ) : (empty : KeyedTable key).find? k = none := rfl

theorem key_of_find? {t : KeyedTable key} {k : κ} {a : α}
    (h : t.find? k = some a) : key a = k := by
  simpa using List.find?_some h

theorem mem_of_find? {t : KeyedTable key} {k : κ} {a : α}
    (h : t.find? k = some a) : a ∈ t.rows :=
  List.mem_of_find?_eq_some h

/-- Every row is found under its own key. -/
theorem find?_of_mem {t : KeyedTable key} {a : α} (h : a ∈ t.rows) :
    t.find? (key a) = some a := by
  obtain ⟨rows, hnodup⟩ := t
  simp only [find?] at *
  induction rows with
  | nil => simp at h
  | cons b rows ih =>
      simp only [List.map_cons, List.nodup_cons] at hnodup
      rcases List.mem_cons.mp h with rfl | htail
      · simp
      · have hne : key b ≠ key a := by
          intro heq
          exact hnodup.1 (heq ▸ List.mem_map_of_mem htail)
        simpa [List.find?_cons, hne] using ih hnodup.2 htail

theorem find?_eq_none_iff {t : KeyedTable key} {k : κ} :
    t.find? k = none ↔ k ∉ t.rows.map key := by
  simp [find?]

/-! ## Insertion -/

/-- Append a row; `none` when its key is already taken. -/
def insert (t : KeyedTable key) (a : α) : Option (KeyedTable key) :=
  if h : key a ∈ t.rows.map key then
    none
  else
    some ⟨t.rows ++ [a], by
      rw [List.map_append, List.nodup_append]
      refine ⟨t.nodup, by simp, ?_⟩
      intro x hx y hy
      simp only [List.map_cons, List.map_nil, List.mem_singleton] at hy
      subst hy
      intro heq
      exact h (heq ▸ hx)⟩

theorem insert_eq_none_iff {t : KeyedTable key} {a : α} :
    t.insert a = none ↔ t.find? (key a) ≠ none := by
  rw [Ne, find?_eq_none_iff]
  unfold insert
  split <;> simp_all

theorem find?_insert {t t' : KeyedTable key} {a : α} (h : t.insert a = some t')
    (k : κ) : t'.find? k = if k = key a then some a else t.find? k := by
  unfold insert at h
  split at h
  · simp at h
  · rename_i hfresh
    simp only [Option.some.injEq] at h
    subst h
    by_cases hk : k = key a
    · subst hk
      have hnone : t.rows.find? (fun b => decide (key b = key a)) = none := by
        simpa [find?] using find?_eq_none_iff.mpr hfresh
      simp [find?, List.find?_append, hnone]
    · have hne : ¬ key a = k := fun heq => hk heq.symm
      simp [find?, List.find?_append, hk, hne]

/-! ## Guarded rewriting -/

/-- Rewrite the row of one key; the rewriting keeps the key. -/
def modify (t : KeyedTable key) (k : κ) (f : α → α)
    (hf : ∀ a, key (f a) = key a) : KeyedTable key :=
  ⟨t.rows.map (fun a => if key a = k then f a else a), by
    have hkeys : (t.rows.map (fun a => if key a = k then f a else a)).map key =
        t.rows.map key := by
      rw [List.map_map]
      apply List.map_congr_left
      intro a _
      by_cases hk : key a = k
      · simp [hk, hf]
      · simp [hk]
    rw [hkeys]
    exact t.nodup⟩

theorem find?_modify (t : KeyedTable key) (k j : κ) (f : α → α)
    (hf : ∀ a, key (f a) = key a) :
    (t.modify k f hf).find? j =
      if j = k then (t.find? j).map f else t.find? j := by
  obtain ⟨rows, hnodup⟩ := t
  simp only [modify, find?]
  clear hnodup
  induction rows with
  | nil => simp
  | cons a rows ih =>
      by_cases ha : key a = j
      · by_cases hj : j = k
        · have hak : key a = k := ha.trans hj
          simp [hak, hj, hf]
        · have hak : ¬ key a = k := fun h => hj (ha.symm.trans h)
          simp [hj, ha]
      · -- The rewriting keeps keys, so the search passes over the same rows.
        have hrow : ¬ key (if key a = k then f a else a) = j := by
          split
          · rwa [hf]
          · exact ha
        simpa [List.find?_cons, ha, hrow] using ih

/-! ## Guarded deletion -/

/-- Delete the row of one key when it satisfies a guard. -/
def eraseWhere (t : KeyedTable key) (k : κ) (guard : α → Bool) : KeyedTable key :=
  ⟨t.rows.filter (fun a => !(decide (key a = k) && guard a)),
    (List.filter_sublist.map key).nodup t.nodup⟩

theorem find?_eraseWhere (t : KeyedTable key) (k j : κ) (guard : α → Bool) :
    (t.eraseWhere k guard).find? j =
      if j = k then (t.find? j).filter (fun a => !guard a) else t.find? j := by
  obtain ⟨rows, hnodup⟩ := t
  simp only [eraseWhere, find?]
  induction rows with
  | nil => simp
  | cons a rows ih =>
      simp only [List.map_cons, List.nodup_cons] at hnodup
      have hrec := ih hnodup.2
      by_cases ha : key a = j
      · -- The head is the only row of its key, so nothing of that key is left in the tail.
        have htail : rows.find? (fun b => decide (key b = j)) = none := by
          simp only [List.find?_eq_none, decide_eq_true_eq]
          intro b hb hkey
          exact hnodup.1 ((ha.trans hkey.symm) ▸ List.mem_map_of_mem hb)
        by_cases hj : j = k
        · have hak : key a = k := ha.trans hj
          cases hg : guard a with
          | true =>
              simp only [htail] at hrec
              simpa [hak, hj, hg, Option.filter] using hrec
          | false => simp [hak, hj, hg, Option.filter]
        · have hak : ¬ key a = k := fun h => hj (ha.symm.trans h)
          simp [hj, ha]
      · rw [List.filter_cons]
        split
        · simp only [List.find?_cons, ha, decide_false]
          exact hrec
        · simp only [List.find?_cons, ha, decide_false]
          exact hrec

end KeyedTable
end Lib
end Corpcron
