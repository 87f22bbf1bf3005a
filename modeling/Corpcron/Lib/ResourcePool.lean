import Mathlib.Logic.Function.Basic

/-!
# Pools of resources that are lent out

A pool keeps free resources in lists, one list for each key, and knows which
resource each client holds.  A client takes the first free resource of a key or
brings a new one, and later gives it back or drops it.

`Exclusive` says that no resource is in two places: two clients never hold the
same one, and a held one is not free.  All operations keep it; only `lend` needs
to know something, that its resource is new.
-/

namespace Corpcron
namespace Lib

/-- The free resources of every key and the resource of every client. -/
structure ResourcePool (K T R : Type*) where
  free : K → List R
  held : T → Option R

namespace ResourcePool

variable {K T R : Type*} [DecidableEq K] [DecidableEq T]

/-- Nothing is free and nothing is held. -/
def empty : ResourcePool K T R := ⟨fun _ => [], fun _ => none⟩

/-- A client takes the first free resource. -/
def take (p : ResourcePool K T R) (k : K) (t : T) : Option (ResourcePool K T R) :=
  match p.free k with
  | [] => none
  | r :: rest => some ⟨Function.update p.free k rest, Function.update p.held t (some r)⟩

/-- A client brings a resource of its own. -/
def lend (p : ResourcePool K T R) (t : T) (r : R) : ResourcePool K T R :=
  { p with held := Function.update p.held t (some r) }

/-- A client puts its resource in front of the free ones. -/
def giveBack (p : ResourcePool K T R) (k : K) (t : T) : ResourcePool K T R :=
  match p.held t with
  | none => p
  | some r => ⟨Function.update p.free k (r :: p.free k), Function.update p.held t none⟩

/-- A client gives up its resource. -/
def drop (p : ResourcePool K T R) (t : T) : ResourcePool K T R :=
  { p with held := Function.update p.held t none }

/-- No resource is in two places. -/
structure Exclusive (p : ResourcePool K T R) : Prop where
  nodup : ∀ k, (p.free k).Nodup
  one_key : ∀ k k' r, r ∈ p.free k → r ∈ p.free k' → k = k'
  one_holder : ∀ t t' r, p.held t = some r → p.held t' = some r → t = t'
  not_both : ∀ t k r, p.held t = some r → r ∉ p.free k

omit [DecidableEq K] [DecidableEq T] in
theorem exclusive_empty : (empty : ResourcePool K T R).Exclusive := by
  constructor <;> simp [empty]

variable {p p' : ResourcePool K T R} {k : K} {t : T} {r : R}

omit [DecidableEq K] in
/-- What a client holds after the resource of one client has changed. -/
theorem held_update_cases {o : Option R} {t' : T}
    (h : Function.update p.held t o t' = some r) :
    t' = t ∧ o = some r ∨ t' ≠ t ∧ p.held t' = some r := by
  by_cases ht : t' = t
  · rw [ht, Function.update_self] at h
    exact .inl ⟨ht, h⟩
  · rw [Function.update_of_ne ht] at h
    exact .inr ⟨ht, h⟩

theorem take_eq_some (h : p.take k t = some p') :
    ∃ r rest, p.free k = r :: rest ∧ p'.free = Function.update p.free k rest ∧
      p'.held = Function.update p.held t (some r) := by
  unfold take at h
  cases hfree : p.free k with
  | nil => simp [hfree] at h
  | cons r rest =>
      simp only [hfree, Option.some.injEq] at h
      subst h
      exact ⟨r, rest, rfl, rfl, rfl⟩

theorem take_eq_none (h : p.take k t = none) : p.free k = [] := by
  unfold take at h
  cases hfree : p.free k with
  | nil => rfl
  | cons r rest => simp [hfree] at h

omit [DecidableEq K] in
theorem Exclusive.drop (h : p.Exclusive) (t : T) : (p.drop t).Exclusive where
  nodup := h.nodup
  one_key := h.one_key
  one_holder a b r ha hb := by
    rcases held_update_cases ha with ⟨-, hnone⟩ | ⟨-, holda⟩
    · cases hnone
    · rcases held_update_cases hb with ⟨-, hnone⟩ | ⟨-, holdb⟩
      · cases hnone
      · exact h.one_holder a b r holda holdb
  not_both a k r ha := by
    rcases held_update_cases ha with ⟨-, hnone⟩ | ⟨-, holda⟩
    · cases hnone
    · exact h.not_both a k r holda

omit [DecidableEq K] in
theorem Exclusive.lend (h : p.Exclusive) (hfree : ∀ k, r ∉ p.free k)
    (hheld : ∀ t', p.held t' ≠ some r) : (p.lend t r).Exclusive where
  nodup := h.nodup
  one_key := h.one_key
  one_holder a b r' ha hb := by
    rcases held_update_cases ha with ⟨rfl, hr⟩ | ⟨-, holda⟩
    · rcases held_update_cases hb with ⟨rfl, -⟩ | ⟨-, holdb⟩
      · rfl
      · rw [← hr] at holdb
        exact absurd holdb (hheld b)
    · rcases held_update_cases hb with ⟨rfl, hr⟩ | ⟨-, holdb⟩
      · rw [← hr] at holda
        exact absurd holda (hheld a)
      · exact h.one_holder a b r' holda holdb
  not_both a k r' ha := by
    rcases held_update_cases ha with ⟨rfl, hr⟩ | ⟨-, holda⟩
    · rw [← Option.some.inj hr]
      exact hfree k
    · exact h.not_both a k r' holda

omit [DecidableEq T] in
/-- A resource that is free after a `take` was free before. -/
theorem mem_free_of_update {rest : List R} {j : K} {r' : R} (hfree : p.free k = r :: rest)
    (h : r' ∈ Function.update p.free k rest j) : r' ∈ p.free j := by
  by_cases hj : j = k
  · rw [hj, Function.update_self] at h
    rw [hj, hfree]
    exact List.mem_cons_of_mem _ h
  · rw [Function.update_of_ne hj] at h
    exact h

theorem Exclusive.take (h : p.Exclusive) (htake : p.take k t = some p') : p'.Exclusive := by
  obtain ⟨r, rest, hfree, hfree', hheld'⟩ := take_eq_some htake
  have hr : r ∈ p.free k := hfree ▸ List.mem_cons_self
  have hnodup : r ∉ rest ∧ rest.Nodup := List.nodup_cons.mp (hfree ▸ h.nodup k)
  constructor
  · intro j
    rw [hfree']
    by_cases hj : j = k
    · rw [hj, Function.update_self]
      exact hnodup.2
    · rw [Function.update_of_ne hj]
      exact h.nodup j
  · intro a b r' ha hb
    rw [hfree'] at ha hb
    exact h.one_key a b r' (mem_free_of_update hfree ha) (mem_free_of_update hfree hb)
  · intro a b r' ha hb
    rw [hheld'] at ha hb
    rcases held_update_cases ha with ⟨rfl, hra⟩ | ⟨-, holda⟩
    · rcases held_update_cases hb with ⟨rfl, -⟩ | ⟨-, holdb⟩
      · rfl
      · rw [← hra] at holdb
        exact absurd hr (h.not_both b k r holdb)
    · rcases held_update_cases hb with ⟨rfl, hrb⟩ | ⟨-, holdb⟩
      · rw [← hrb] at holda
        exact absurd hr (h.not_both a k r holda)
      · exact h.one_holder a b r' holda holdb
  · intro a j r' ha hj
    rw [hheld'] at ha
    rw [hfree'] at hj
    have hmem := mem_free_of_update hfree hj
    rcases held_update_cases ha with ⟨-, hra⟩ | ⟨-, holda⟩
    · -- The resource that was taken was free only under `k`, and only once.
      rw [← Option.some.inj hra] at hmem hj
      obtain rfl := h.one_key j k r hmem hr
      rw [Function.update_self] at hj
      exact hnodup.1 hj
    · exact h.not_both a j r' holda hmem

theorem Exclusive.giveBack (h : p.Exclusive) (k : K) (t : T) : (p.giveBack k t).Exclusive := by
  unfold ResourcePool.giveBack
  cases hheld : p.held t with
  | none => exact h
  | some r =>
      have hmem : ∀ {j r'}, r' ∈ Function.update p.free k (r :: p.free k) j →
          j = k ∧ r' = r ∨ r' ∈ p.free j := by
        intro j r' hr'
        by_cases hj : j = k
        · rw [hj, Function.update_self] at hr'
          rcases List.mem_cons.mp hr' with rfl | hr'
          · exact .inl ⟨hj, rfl⟩
          · exact .inr (hj ▸ hr')
        · rw [Function.update_of_ne hj] at hr'
          exact .inr hr'
      constructor
      · intro j
        dsimp only
        by_cases hj : j = k
        · rw [hj, Function.update_self]
          exact List.nodup_cons.mpr ⟨h.not_both t k r hheld, h.nodup k⟩
        · rw [Function.update_of_ne hj]
          exact h.nodup j
      · intro a b r' ha hb
        rcases hmem ha with ⟨rfl, rfl⟩ | ha'
        · rcases hmem hb with ⟨rfl, -⟩ | hb'
          · rfl
          · exact absurd hb' (h.not_both t b r' hheld)
        · rcases hmem hb with ⟨rfl, rfl⟩ | hb'
          · exact absurd ha' (h.not_both t a r' hheld)
          · exact h.one_key a b r' ha' hb'
      · intro a b r' ha hb
        exact (h.drop t).one_holder a b r' ha hb
      · intro a j r' ha hj
        rcases held_update_cases ha with ⟨-, hnone⟩ | ⟨hne, holda⟩
        · cases hnone
        · rcases hmem hj with ⟨-, rfl⟩ | hj'
          · exact hne (h.one_holder a t r' holda hheld)
          · exact h.not_both a j r' holda hj'

end ResourcePool
end Lib
end Corpcron
