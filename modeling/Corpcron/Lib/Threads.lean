import Mathlib.Data.List.Count

/-!
# Lists of threads

The threads of a process are a list of local states.  A step replaces one of
them (`threads.set i after`) or appends new ones.  The lemmas say what this does
to a property of one thread, of all threads, and to the number of threads with
a property; the last in a form that `omega` can use.
-/

namespace Corpcron
namespace Lib

variable {α : Type*} {threads : List α} {i j : Nat} {before after t : α}

/-- After a step of thread `i`, a thread is the one that was there before or the
new thread `i`. -/
theorem thread_of_set (h : (threads.set i after)[j]? = some t) :
    j = i ∧ t = after ∨ j ≠ i ∧ threads[j]? = some t := by
  by_cases hj : j = i
  · subst hj
    have hlength : j < threads.length := by
      have hbound := (List.getElem?_eq_some_iff.mp h).1
      simpa using hbound
    rw [List.getElem?_set_self hlength] at h
    exact .inl ⟨rfl, (Option.some.inj h).symm⟩
  · rw [List.getElem?_set_ne (Ne.symm hj)] at h
    exact .inr ⟨hj, h⟩

/-- The thread that has made the step. -/
theorem thread_set_self (h : threads[i]? = some before) :
    (threads.set i after)[i]? = some after :=
  List.getElem?_set_self (List.getElem?_eq_some_iff.mp h).1

/-- The other threads are as they were. -/
theorem thread_set_other (hj : j ≠ i) (h : threads[j]? = some t) :
    (threads.set i after)[j]? = some t := by
  rw [List.getElem?_set_ne hj.symm]
  exact h

/-- A step that leaves the thread as it is. -/
theorem thread_set_same (h : threads[i]? = some t) : threads.set i t = threads := by
  obtain ⟨hi, rfl⟩ := List.getElem?_eq_some_iff.mp h
  exact List.set_getElem_self hi

/-- After a new thread has been appended, a place holds what it held before or
the new thread. -/
theorem thread_concat_cases (threads : List α) (j : Nat) (new : α) :
    (threads ++ [new])[j]? = threads[j]? ∨
      j = threads.length ∧ threads[j]? = none ∧ (threads ++ [new])[j]? = some new := by
  rcases Nat.lt_trichotomy j threads.length with hlt | rfl | hgt
  · exact .inl (List.getElem?_append_left hlt)
  · exact .inr ⟨rfl, List.getElem?_eq_none (Nat.le_refl _), List.getElem?_concat_length⟩
  · left
    rw [List.getElem?_eq_none (Nat.le_of_lt hgt)]
    refine List.getElem?_eq_none ?_
    rw [List.length_append, List.length_singleton]
    exact hgt

/-- The number of threads with a property after one of them has made a step. -/
theorem countP_set_add (p : α → Bool) (after : α) (h : threads[i]? = some before) :
    (threads.set i after).countP p + (if p before then 1 else 0) =
      threads.countP p + (if p after then 1 else 0) := by
  induction threads generalizing i with
  | nil => simp at h
  | cons t rest ih =>
      cases i with
      | zero =>
          have ht : t = before := by simpa using h
          subst ht
          simp only [List.set_cons_zero, List.countP_cons]
          omega
      | succ i =>
          have hi : rest[i]? = some before := by simpa using h
          have hrest := ih hi
          simp only [List.set_cons_succ, List.countP_cons]
          omega

theorem countP_set_same {p : α → Bool} (h : threads[i]? = some before)
    (hp : p after = p before) : (threads.set i after).countP p = threads.countP p := by
  have hcount := countP_set_add p after h
  rw [hp] at hcount
  omega

theorem countP_set_lost {p : α → Bool} (h : threads[i]? = some before)
    (hbefore : p before = true) (hafter : p after = false) :
    (threads.set i after).countP p + 1 = threads.countP p := by
  have hcount := countP_set_add p after h
  rw [hbefore, hafter] at hcount
  simpa using hcount

theorem countP_set_gained {p : α → Bool} (h : threads[i]? = some before)
    (hbefore : p before = false) (hafter : p after = true) :
    (threads.set i after).countP p = threads.countP p + 1 := by
  have hcount := countP_set_add p after h
  rw [hbefore, hafter] at hcount
  simpa using hcount

/-- A thread with the property makes the count positive. -/
theorem countP_pos_of_thread {p : α → Bool} (h : threads[i]? = some t) (ht : p t = true) :
    0 < threads.countP p :=
  List.countP_pos_iff.mpr ⟨t, List.mem_of_getElem? h, ht⟩

/-- A step that does not change what a thread contributes to a list. -/
theorem filterMap_set_of_eq {β : Type*} {f : α → Option β} (h : threads[i]? = some before)
    (hf : f after = f before) : (threads.set i after).filterMap f = threads.filterMap f := by
  induction threads generalizing i with
  | nil => simp at h
  | cons x rest ih =>
      cases i with
      | zero =>
          have hx : x = before := by simpa using h
          rw [List.set_cons_zero, List.filterMap_cons, List.filterMap_cons, hf, hx]
      | succ i =>
          have hi : rest[i]? = some before := by simpa using h
          rw [List.set_cons_succ, List.filterMap_cons, List.filterMap_cons, ih hi]

/-- A step after which a thread contributes nothing to a list. -/
theorem filterMap_set_lost {β : Type*} {f : α → Option β} {b : β} (h : threads[i]? = some before)
    (hbefore : f before = some b) (hafter : f after = none) :
    (threads.filterMap f).Perm (b :: (threads.set i after).filterMap f) := by
  induction threads generalizing i with
  | nil => simp at h
  | cons x rest ih =>
      cases i with
      | zero =>
          have hx : x = before := by simpa using h
          rw [List.set_cons_zero, List.filterMap_cons_some (hx ▸ hbefore),
            List.filterMap_cons_none hafter]
      | succ i =>
          have hi : rest[i]? = some before := by simpa using h
          rw [List.set_cons_succ]
          cases hx : f x with
          | none =>
              rw [List.filterMap_cons_none hx, List.filterMap_cons_none hx]
              exact ih hi
          | some y =>
              rw [List.filterMap_cons_some hx, List.filterMap_cons_some hx]
              exact ((ih hi).cons y).trans (.swap b y _)

/-- Threads with two parts that are kept in two lists. -/
theorem zip_set {β : Type*} (threads : List α) (others : List β) (i : Nat) (after : α) (other : β) :
    (threads.set i after).zip (others.set i other) = (threads.zip others).set i (after, other) := by
  induction threads generalizing others i with
  | nil => simp
  | cons x rest ih =>
      cases others with
      | nil => simp
      | cons y ys =>
          cases i with
          | zero => simp
          | succ i => simp [ih]

end Lib
end Corpcron
