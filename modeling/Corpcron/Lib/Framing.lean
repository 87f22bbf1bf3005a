import Mathlib.Init

/-!
# Self-delimiting frames in a byte stream

A decoder looks at the front of a list and says that a whole frame is there,
that more input is needed, or that the input is invalid.  `Framing` adds what
makes such a decoder usable on a stream: a frame is not empty and lies within
the input, and an answer other than "more input is needed" stays the same when
more input arrives.

`drain` takes as many frames as there are off the front.  The point of the laws
is `drain_append`: draining what has arrived, keeping the rest and draining
again when more arrives is the same as draining everything at once, so an
incremental reader computes a function of the stream and not of the pieces it
came in.
-/

namespace Corpcron
namespace Lib

/-- What a decoder says about the front of its input. -/
inductive Decoded (φ : Type*) where
  | complete (frame : φ) (size : Nat)
  | incomplete
  | invalid

/-- A decoder of self-delimiting frames. -/
structure Framing (β φ : Type*) where
  decode : List β → Decoded φ
  size_pos : ∀ {data f n}, decode data = .complete f n → 0 < n
  size_le : ∀ {data f n}, decode data = .complete f n → n ≤ data.length
  complete_append : ∀ {data f n}, decode data = .complete f n →
    ∀ more, decode (data ++ more) = .complete f n
  invalid_append : ∀ {data}, decode data = .invalid →
    ∀ more, decode (data ++ more) = .invalid

/-- Frames taken off the front of a list, what is left, and whether the rest is
invalid. -/
structure Drained (β φ : Type*) where
  frames : List φ
  rest : List β
  invalid : Bool

namespace Framing

variable {β φ : Type*} (F : Framing β φ)

/-- Decode again and again until there is no whole frame. -/
def drain (data : List β) : Drained β φ :=
  match _h : F.decode data with
  | .complete f n =>
      let later := drain (data.drop n)
      ⟨f :: later.frames, later.rest, later.invalid⟩
  | .incomplete => ⟨[], data, false⟩
  | .invalid => ⟨[], data, true⟩
termination_by data.length
decreasing_by
  have hpos := F.size_pos _h
  have hle := F.size_le _h
  rw [List.length_drop]
  omega

variable {F}

theorem drain_complete {data : List β} {f : φ} {n : Nat}
    (h : F.decode data = .complete f n) :
    F.drain data = ⟨f :: (F.drain (data.drop n)).frames, (F.drain (data.drop n)).rest,
      (F.drain (data.drop n)).invalid⟩ := by
  rw [drain]
  split <;> simp_all

theorem drain_incomplete {data : List β} (h : F.decode data = .incomplete) :
    F.drain data = ⟨[], data, false⟩ := by
  rw [drain]
  split <;> simp_all

theorem drain_invalid {data : List β} (h : F.decode data = .invalid) :
    F.drain data = ⟨[], data, true⟩ := by
  rw [drain]
  split <;> simp_all

/-- Induction along `drain`. -/
theorem drain_induction {motive : List β → Prop}
    (complete : ∀ data f n, F.decode data = .complete f n → motive (data.drop n) → motive data)
    (incomplete : ∀ data, F.decode data = .incomplete → motive data)
    (invalid : ∀ data, F.decode data = .invalid → motive data) (data : List β) :
    motive data := by
  induction hlen : data.length using Nat.strongRecOn generalizing data with
  | ind len ih =>
      cases h : F.decode data with
      | complete f n =>
          have hpos := F.size_pos h
          have hle := F.size_le h
          refine complete data f n h (ih (data.drop n).length ?_ _ rfl)
          rw [List.length_drop]
          omega
      | incomplete => exact incomplete data h
      | invalid => exact invalid data h

/-- Taking the frames off the front commutes with more input behind it. -/
theorem drop_append_of_complete {data : List β} {f : φ} {n : Nat}
    (h : F.decode data = .complete f n) (more : List β) :
    (data ++ more).drop n = data.drop n ++ more :=
  List.drop_append_of_le_length (F.size_le h)

/-- Input after an invalid front is never looked at. -/
theorem drain_append_of_invalid (data more : List β) (h : (F.drain data).invalid = true) :
    F.drain (data ++ more) = ⟨(F.drain data).frames, (F.drain data).rest ++ more, true⟩ := by
  induction data using drain_induction (F := F) with
  | complete data f n hdec ih =>
      rw [drain_complete hdec] at h
      have hlater := ih h
      rw [drain_complete hdec, drain_complete (F.complete_append hdec more),
        drop_append_of_complete hdec, hlater]
  | incomplete data hdec =>
      rw [drain_incomplete hdec] at h
      cases h
  | invalid data hdec =>
      rw [drain_invalid hdec, drain_invalid (F.invalid_append hdec more)]

/-- Draining a part, keeping the rest and draining again when more arrives is
draining everything at once. -/
theorem drain_append (data more : List β) (h : (F.drain data).invalid = false) :
    F.drain (data ++ more) =
      ⟨(F.drain data).frames ++ (F.drain ((F.drain data).rest ++ more)).frames,
        (F.drain ((F.drain data).rest ++ more)).rest,
        (F.drain ((F.drain data).rest ++ more)).invalid⟩ := by
  induction data using drain_induction (F := F) with
  | complete data f n hdec ih =>
      rw [drain_complete hdec] at h
      have hlater := ih h
      rw [drain_complete hdec, drain_complete (F.complete_append hdec more),
        drop_append_of_complete hdec, hlater]
      rfl
  | incomplete data hdec =>
      rw [drain_incomplete hdec]
      rfl
  | invalid data hdec =>
      rw [drain_invalid hdec] at h
      cases h

/-- What is left holds no whole frame. -/
theorem decode_rest (data : List β) (h : (F.drain data).invalid = false) :
    F.decode (F.drain data).rest = .incomplete := by
  induction data using drain_induction (F := F) with
  | complete data f n hdec ih =>
      rw [drain_complete hdec] at h ⊢
      exact ih h
  | incomplete data hdec =>
      rw [drain_incomplete hdec]
      exact hdec
  | invalid data hdec =>
      rw [drain_invalid hdec] at h
      cases h

end Framing

end Lib
end Corpcron
