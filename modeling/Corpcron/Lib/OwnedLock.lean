import Mathlib.Init

/-!
# Expiring locks with owner values

A lock store maps a key to the value written by its owner and the time at
which the entry expires.  The three operations compare before they write, as a
script executed atomically by a key-value server does: `acquire` writes only
when the key is free, `renew` and `release` act only when the stored value is
the caller's own.

The lemmas say what an operation does at the key it addresses and that it does
nothing elsewhere.  An entry with another value survives every `renew` and
`release`; this is what owner values are for.

The last section is about clients of the store.  `Exclusive` relates the store
to what the clients believe to hold: the key of every holder carries its value
and no key has two holders.  One rule for each kind of client step shows how
the relation is kept.  Distinct owner values play no part in it: what excludes
a second holder is that `acquire` needs a free key.  `Attended` is the other
direction, that no entry is left behind without a holder.
-/

namespace Corpcron
namespace Lib

/-- What is stored under a locked key. -/
structure LockEntry (V : Type*) where
  value : V
  expireAt : Nat
deriving DecidableEq

/-- Keys without an entry are free. -/
def LockStore (K V : Type*) := K → Option (LockEntry V)

namespace LockStore

variable {K V : Type*} [DecidableEq K]

/-- Write one key. -/
def set (s : LockStore K V) (k : K) (entry : Option (LockEntry V)) : LockStore K V :=
  fun j => if j = k then entry else s j

@[simp] theorem set_apply (s : LockStore K V) (k j : K) (entry : Option (LockEntry V)) :
    s.set k entry j = if j = k then entry else s j := rfl

/-- Drop every entry whose time has come. -/
def expire (s : LockStore K V) (now : Nat) : LockStore K V :=
  fun k => (s k).filter fun entry => decide (now < entry.expireAt)

/-- Lose one key, whatever it holds. -/
def lose (s : LockStore K V) (k : K) : LockStore K V :=
  s.set k none

/-- Take a free key. -/
def acquire (s : LockStore K V) (k : K) (v : V) (deadline : Nat) : LockStore K V × Bool :=
  match s k with
  | none => (s.set k (some ⟨v, deadline⟩), true)
  | some _ => (s, false)

theorem acquire_ok {s : LockStore K V} {k : K} {v : V} {deadline : Nat} :
    (s.acquire k v deadline).2 = true ↔ s k = none := by
  unfold acquire
  cases hk : s k <;> simp

theorem acquire_ok_apply {s : LockStore K V} {k : K} {v : V} {deadline : Nat}
    (h : (s.acquire k v deadline).2 = true) (j : K) :
    (s.acquire k v deadline).1 j = if j = k then some ⟨v, deadline⟩ else s j := by
  have hfree := acquire_ok.mp h
  simp only [acquire, hfree, set_apply]

theorem acquire_failed {s : LockStore K V} {k : K} {v : V} {deadline : Nat}
    (h : (s.acquire k v deadline).2 = false) : (s.acquire k v deadline).1 = s := by
  unfold acquire at *
  cases hk : s k <;> simp_all

variable [DecidableEq V]

/-- Move the expiry of an entry that still carries the caller's value. -/
def renew (s : LockStore K V) (k : K) (v : V) (deadline : Nat) : LockStore K V × Bool :=
  match s k with
  | none => (s, false)
  | some entry =>
      if entry.value = v then (s.set k (some ⟨v, deadline⟩), true) else (s, false)

/-- Delete an entry that still carries the caller's value. -/
def release (s : LockStore K V) (k : K) (v : V) : LockStore K V × Bool :=
  match s k with
  | none => (s, false)
  | some entry =>
      if entry.value = v then (s.set k none, true) else (s, false)

/-- A renewal keeps the value stored under every key. -/
theorem renew_value (s : LockStore K V) (k j : K) (v : V) (deadline : Nat) :
    ((s.renew k v deadline).1 j).map LockEntry.value = (s j).map LockEntry.value := by
  unfold renew
  cases hk : s k with
  | none => rfl
  | some entry =>
      by_cases hv : entry.value = v
      · simp only [hv, if_true, set_apply]
        by_cases hj : j = k
        · simp [hj, hk, hv]
        · simp [hj]
      · simp [hv]

/-- A renewal does nothing at other keys. -/
theorem renew_ne (s : LockStore K V) {k j : K} (v : V) (deadline : Nat) (h : j ≠ k) :
    (s.renew k v deadline).1 j = s j := by
  unfold renew
  split
  · rfl
  · split <;> simp [h]

/-- A renewal leaves an entry with another value untouched, expiry included. -/
theorem renew_other {s : LockStore K V} {k j : K} {v : V} {deadline : Nat}
    {entry : LockEntry V} (hj : s j = some entry) (hne : entry.value ≠ v) :
    (s.renew k v deadline).1 j = some entry := by
  by_cases hjk : j = k
  · subst hjk
    simp [renew, hj, hne]
  · rw [renew_ne s v deadline hjk, hj]

/-- A release does nothing at other keys. -/
theorem release_ne (s : LockStore K V) {k j : K} (v : V) (h : j ≠ k) :
    (s.release k v).1 j = s j := by
  unfold release
  split
  · rfl
  · split <;> simp [h]

/-- A release leaves an entry with another value untouched. -/
theorem release_other {s : LockStore K V} {k j : K} {v : V}
    {entry : LockEntry V} (hj : s j = some entry) (hne : entry.value ≠ v) :
    (s.release k v).1 j = some entry := by
  by_cases hjk : j = k
  · subst hjk
    simp [release, hj, hne]
  · rw [release_ne s v hjk, hj]

/-! ## Holders -/

section Holders

variable {T : Type*}

/-- Every holder's key carries its value, and no key has two holders. -/
structure Exclusive (s : LockStore K V) (holding : T → Option (K × V)) : Prop where
  present : ∀ t k v, holding t = some (k, v) → (s k).map LockEntry.value = some v
  unique : ∀ t t' k v v', holding t = some (k, v) → holding t' = some (k, v') → t = t'

variable {s s' : LockStore K V} {holding holding' : T → Option (K × V)}

omit [DecidableEq K] [DecidableEq V] in
/-- Clients may give up locks, and the store may change where nobody holds
anything. -/
theorem Exclusive.shrink (h : Exclusive s holding)
    (hsub : ∀ t k v, holding' t = some (k, v) → holding t = some (k, v))
    (hkeep : ∀ t k v, holding' t = some (k, v) →
      (s' k).map LockEntry.value = (s k).map LockEntry.value) :
    Exclusive s' holding' where
  present t k v ht := by
    rw [hkeep t k v ht]
    exact h.present t k v (hsub t k v ht)
  unique t t' k v v' ht ht' := h.unique t t' k v v' (hsub t k v ht) (hsub t' k v' ht')

omit [DecidableEq K] [DecidableEq V] in
/-- A free key has no holder. -/
theorem Exclusive.not_held (h : Exclusive s holding) {k : K} (hfree : s k = none) {t : T}
    {v : V} : holding t ≠ some (k, v) := by
  intro ht
  have hpresent := h.present t k v ht
  simp [hfree] at hpresent

omit [DecidableEq V] in
/-- A client takes a free key, as a holder or without becoming one. -/
theorem Exclusive.take (h : Exclusive s holding) {t : T} {k : K} {v : V} {deadline : Nat}
    (hfree : s k = none)
    (hset : ∀ j, s' j = if j = k then some ⟨v, deadline⟩ else s j)
    (hself : ∀ j w, holding' t = some (j, w) → j = k ∧ w = v)
    (hother : ∀ a j w, a ≠ t → holding' a = some (j, w) → holding a = some (j, w)) :
    Exclusive s' holding' where
  present a j w ha := by
    by_cases hat : a = t
    · subst hat
      obtain ⟨rfl, rfl⟩ := hself j w ha
      simp [hset]
    · have hold := hother a j w hat ha
      have hjk : j ≠ k := by
        rintro rfl
        exact h.not_held hfree hold
      rw [hset, if_neg hjk]
      exact h.present a j w hold
  unique a b j w w' ha hb := by
    -- Nobody held `k` before, so `t` can be its only holder now.
    by_cases hat : a = t
    · subst hat
      obtain ⟨rfl, rfl⟩ := hself j w ha
      by_cases hba : b = a
      · exact hba.symm
      · exact absurd (hother b j w' hba hb) (h.not_held hfree)
    · by_cases hbt : b = t
      · subst hbt
        obtain ⟨rfl, rfl⟩ := hself j w' hb
        exact absurd (hother a j w hat ha) (h.not_held hfree)
      · exact h.unique a b j w w' (hother a j w hat ha) (hother b j w' hbt hb)

/-- A holder releases its key. -/
theorem Exclusive.give (h : Exclusive s holding) {t : T} {k : K} {v : V}
    (ht : holding t = some (k, v)) (hself : holding' t = none)
    (hother : ∀ a j w, a ≠ t → holding' a = some (j, w) → holding a = some (j, w)) :
    Exclusive (s.release k v).1 holding' := by
  have hne : ∀ a j w, holding' a = some (j, w) → a ≠ t := by
    rintro a j w ha rfl
    simp [hself] at ha
  apply h.shrink
  · intro a j w ha
    exact hother a j w (hne a j w ha) ha
  · intro a j w ha
    have hjk : j ≠ k := by
      rintro rfl
      exact hne a j w ha (h.unique a t j w v (hother a j w (hne a j w ha) ha) ht)
    rw [release_ne s v hjk]

/-- A release with a value that no holder carries keeps all holders. -/
theorem Exclusive.give_foreign (h : Exclusive s holding) {k : K} {v : V}
    (hforeign : ∀ t j w, holding t = some (j, w) → w ≠ v)
    (hsub : ∀ t j w, holding' t = some (j, w) → holding t = some (j, w)) :
    Exclusive (s.release k v).1 holding' := by
  apply h.shrink hsub
  intro t j w ht
  have hold := hsub t j w ht
  obtain ⟨entry, hentry, hvalue⟩ := Option.map_eq_some_iff.mp (h.present t j w hold)
  have hne : entry.value ≠ v := by
    rw [hvalue]
    exact hforeign t j w hold
  rw [release_other hentry hne, hentry]

omit [DecidableEq K] [DecidableEq V] in
/-- A holder passes its lock on to a client that had none. -/
theorem Exclusive.handover (h : Exclusive s holding) (t t' : T)
    (hmove : ∀ a k v, holding' a = some (k, v) →
      (a ≠ t ∧ holding a = some (k, v)) ∨ (a = t' ∧ holding t = some (k, v))) :
    Exclusive s holding' where
  present a k v ha := by
    rcases hmove a k v ha with ⟨-, hold⟩ | ⟨-, hold⟩
    · exact h.present a k v hold
    · exact h.present t k v hold
  unique a b k v w ha hb := by
    rcases hmove a k v ha with ⟨hat, hold⟩ | ⟨rfl, hold⟩
    · rcases hmove b k w hb with ⟨-, hold'⟩ | ⟨-, hold'⟩
      · exact h.unique a b k v w hold hold'
      · exact absurd (h.unique a t k v w hold hold') hat
    · rcases hmove b k w hb with ⟨hbt, hold'⟩ | ⟨rfl, -⟩
      · exact absurd (h.unique b t k w v hold' hold) hbt
      · rfl

/-- Every entry of the store has a holder. -/
def Attended (s : LockStore K V) (holding : T → Option (K × V)) : Prop :=
  ∀ k entry, s k = some entry → ∃ t, holding t = some (k, entry.value)

omit [DecidableEq K] [DecidableEq V] in
/-- The store may lose entries, and locks may pass from holder to holder. -/
theorem Attended.shrink (h : Attended s holding)
    (hsub : ∀ k entry, s' k = some entry → (s k).map LockEntry.value = some entry.value)
    (hkeep : ∀ t k v, holding t = some (k, v) → ∃ t', holding' t' = some (k, v)) :
    Attended s' holding' := by
  intro k entry' hentry'
  obtain ⟨entry, hentry, hvalue⟩ := Option.map_eq_some_iff.mp (hsub k entry' hentry')
  obtain ⟨t, ht⟩ := h k entry hentry
  rw [hvalue] at ht
  exact hkeep t k _ ht

omit [DecidableEq K] [DecidableEq V] in
/-- Locks may pass from holder to holder. -/
theorem Attended.handover (h : Attended s holding)
    (hkeep : ∀ t k v, holding t = some (k, v) → ∃ t', holding' t' = some (k, v)) :
    Attended s holding' :=
  h.shrink (fun k entry hentry => by rw [hentry, Option.map_some]) hkeep

omit [DecidableEq V] in
/-- A client takes a key and becomes its holder. -/
theorem Attended.take (h : Attended s holding) {t : T} {k : K} {v : V} {deadline : Nat}
    (hset : ∀ j, s' j = if j = k then some ⟨v, deadline⟩ else s j)
    (hself : holding' t = some (k, v))
    (hkeep : ∀ t j w, holding t = some (j, w) → ∃ t', holding' t' = some (j, w)) :
    Attended s' holding' := by
  intro j entry hentry
  rw [hset] at hentry
  split at hentry
  · rename_i hj
    rw [Option.some.injEq] at hentry
    subst hj hentry
    exact ⟨t, hself⟩
  · obtain ⟨a, ha⟩ := h j entry hentry
    exact hkeep a j _ ha

/-- What a release leaves is not what it was asked to delete. -/
theorem of_release {k j : K} {v : V} {entry : LockEntry V}
    (h : (s.release k v).1 j = some entry) : s j = some entry ∧ (j, entry.value) ≠ (k, v) := by
  by_cases hj : j = k
  · subst hj
    unfold release at h
    cases hentry : s j with
    | none => simp [hentry] at h
    | some found =>
        by_cases hv : found.value = v
        · simp [hentry, hv] at h
        · simp only [hentry, hv, if_false, Option.some.injEq] at h
          subst h
          exact ⟨rfl, by simpa using hv⟩
  · rw [release_ne s v hj] at h
    exact ⟨h, by simp [hj]⟩

/-- A holder that releases its key may stop being one. -/
theorem Attended.give (h : Attended s holding) {k : K} {v : V}
    (hkeep : ∀ t j w, holding t = some (j, w) → (j, w) ≠ (k, v) → ∃ t', holding' t' = some (j, w)) :
    Attended (s.release k v).1 holding' := by
  intro j entry hentry
  obtain ⟨hbefore, hne⟩ := of_release hentry
  obtain ⟨t, ht⟩ := h j entry hbefore
  exact hkeep t j _ ht hne

end Holders

end LockStore
end Lib
end Corpcron
