import Corpcron.Net.EpollLoop
import Mathlib.Data.List.Nodup
import Mathlib.Data.List.Perm.Basic
import Mathlib.Data.List.Range

/-!
# What becomes of a registration

What a registration can go through is a conservation law (`conserved_of_run`):
each accepted one is waiting, or has been invoked, or has been withdrawn, and
never two of these.  The loop ends with a drain that invokes what is registered.
A coroutine resumed there waits again unless it sees the stop flag; on the ways
out of the loop that are not caused by `stop()` the flag is not set, and the new
registration stays behind.

* `Sound` ties the registrations to the coroutines; it is kept by `Sound.update`,
  the rule for a step of one coroutine.
* `acceptedInDrain_of_stop`: with the stop flag set nothing is registered in the
  drain.
* `drain_complete_iff` says what is left when `run` returns.
-/

namespace Corpcron
namespace EpollLoop

open Lib

/-! ## Registrations and coroutines -/

/-- Each waiting registration belongs to one coroutine, which is suspended at it
(or just about to be), and the descriptors of the coroutines are their own. -/
structure Sound (s : State) : Prop where
  mem_waiting : ∀ r, r ∈ s.waiting ↔
    ∃ c, s.coroutines[r.coroutine]? = some c ∧ c.registration? r.coroutine = some r
  ids_nodup : (s.waiting.map Registration.id).Nodup
  ids_lt : ∀ r ∈ s.waiting, r.id < s.accepted
  one_runs : ∀ i c, s.coroutines[i]? = some c → (c.pc.isActive = true ↔ s.running = some i)
  running_lt : ∀ i, s.running = some i → i < s.coroutines.length
  own_fds : ∀ (i j : Nat) (c c' : Coroutine) (fd : Nat), s.coroutines[i]? = some c →
    s.coroutines[j]? = some c' → fd ∈ c.fds → fd ∈ c'.fds → i = j
  pending_idle : ∀ r ∈ s.loop.pending, s.running ≠ some r.coroutine
  returned : s.loop = .returned → s.running = none

theorem coroutine_of_registration {c : Coroutine} {i : Nat} {r : Registration}
    (h : c.registration? i = some r) : r.coroutine = i := by
  obtain ⟨⟨wait, id⟩, -, rfl⟩ := Option.map_eq_some_iff.mp h
  rfl

/-- A coroutine is registered with a descriptor that is open for it. -/
theorem fd_mem_of_registration {c : Coroutine} {i : Nat} {r : Registration}
    (h : c.registration? i = some r) : r.fd ∈ c.fds := by
  obtain ⟨⟨wait, id⟩, hwaits, rfl⟩ := Option.map_eq_some_iff.mp h
  obtain ⟨fd, pc⟩ := c
  cases pc with
  | suspended wait' id' =>
      cases hwaits
      cases wait <;> simp [Coroutine.fds, Wait.fd, CoroutinePc.completionFd?]
  | enqueueing id' completionFd =>
      cases hwaits
      simp [Coroutine.fds, Wait.fd, CoroutinePc.completionFd?]
  | _ => cases hwaits

theorem mem_openFds {s : State} {i : Nat} {c : Coroutine} {fd : Nat}
    (hc : s.coroutines[i]? = some c) (hfd : fd ∈ c.fds) : fd ∈ s.openFds :=
  List.mem_append_right _ (List.mem_flatMap.mpr ⟨c, List.mem_of_getElem? hc, hfd⟩)

section Sound

variable {s s' : State} {r r' : Registration}

theorem Sound.nodup (h : Sound s) : s.waiting.Nodup := List.Nodup.of_map _ h.ids_nodup

theorem Sound.eq_of_coroutine (h : Sound s) (hr : r ∈ s.waiting) (hr' : r' ∈ s.waiting)
    (heq : r.coroutine = r'.coroutine) : r = r' := by
  obtain ⟨c, hc, hreg⟩ := (h.mem_waiting r).mp hr
  obtain ⟨c', hc', hreg'⟩ := (h.mem_waiting r').mp hr'
  rw [← heq] at hc' hreg'
  obtain rfl : c = c' := Option.some.inj (hc.symm.trans hc')
  exact Option.some.inj (hreg.symm.trans hreg')

theorem Sound.eq_of_fd (h : Sound s) (hr : r ∈ s.waiting) (hr' : r' ∈ s.waiting)
    (heq : r.fd = r'.fd) : r = r' := by
  obtain ⟨c, hc, hreg⟩ := (h.mem_waiting r).mp hr
  obtain ⟨c', hc', hreg'⟩ := (h.mem_waiting r').mp hr'
  have hfd' : r.fd ∈ c'.fds := heq ▸ fd_mem_of_registration hreg'
  have hsame := h.own_fds _ _ c c' r.fd hc hc' (fd_mem_of_registration hreg) hfd'
  exact h.eq_of_coroutine hr hr' hsame

/-- `delFd` for the descriptor of a registration removes that registration. -/
theorem Sound.filter_fd (h : Sound s) (hr : r ∈ s.coroCallbacks) :
    s.coroCallbacks.Perm (r :: (s.delFd r.fd).coroCallbacks) := by
  have hnodup : s.coroCallbacks.Nodup := (List.nodup_append.mp h.nodup).1
  have hfilter : (s.delFd r.fd).coroCallbacks = s.coroCallbacks.erase r := by
    rw [hnodup.erase_eq_filter]
    apply List.filter_congr
    intro x hx
    rw [Bool.eq_iff_iff, decide_eq_true_iff, bne_iff_ne]
    refine not_congr ⟨fun heq => ?_, fun heq => congrArg Registration.fd heq⟩
    exact h.eq_of_fd (List.mem_append_left _ hx) (List.mem_append_left _ hr) heq
  rw [hfilter]
  exact List.perm_cons_erase hr

/-- A coroutine that is not registered has no entry under its descriptor. -/
theorem Sound.delFd_self (h : Sound s) {i : Nat} {c : Coroutine} (hc : s.coroutines[i]? = some c)
    (hwaits : c.pc.waitsFor? = none) {fd : Nat} (hfd : fd ∈ c.fds) :
    (s.delFd fd).coroCallbacks = s.coroCallbacks := by
  apply List.filter_eq_self.mpr
  intro x hx
  simp only [ne_eq, decide_not, Bool.not_eq_true', decide_eq_false_iff_not]
  intro heq
  obtain ⟨c', hc', hreg⟩ := (h.mem_waiting x).mp (List.mem_append_left _ hx)
  have hown := h.own_fds _ _ c' c fd hc' hc (heq ▸ fd_mem_of_registration hreg) hfd
  rw [hown] at hc'
  obtain rfl : c' = c := Option.some.inj (hc'.symm.trans hc)
  simp [Coroutine.registration?, hwaits] at hreg

/-- A coroutine that is about to enqueue its request is registered.  It runs, so
its registration is not in the list of the drain. -/
theorem Sound.mem_callbacks_of_enqueueing (h : Sound s) {i : Nat} {c : Coroutine}
    {id completionFd : Nat} (hrunning : s.running = some i) (hc : s.coroutines[i]? = some c)
    (hpc : c.pc = .enqueueing id completionFd) : ⟨id, completionFd, i⟩ ∈ s.coroCallbacks := by
  have hreg : c.registration? i = some ⟨id, completionFd, i⟩ := by
    simp [Coroutine.registration?, hpc, CoroutinePc.waitsFor?, Wait.fd]
  have hwaiting := (h.mem_waiting ⟨id, completionFd, i⟩).mpr ⟨c, hc, hreg⟩
  rcases List.mem_append.mp hwaiting with hmem | hmem
  · exact hmem
  · exact absurd hrunning (h.pending_idle _ hmem)

/-! ### What a step does to the waiting registrations -/

/-- A registration comes into the list when it is accepted and leaves it when it
is invoked or withdrawn. -/
def Balanced (s s' : State) : Event → Prop
  | .quiet => s'.waiting = s.waiting ∧ s'.accepted = s.accepted
  | .accepted r => s'.waiting.Perm (r :: s.waiting) ∧ r.id = s.accepted ∧
      s'.accepted = s.accepted + 1
  | .invoked r => s.waiting.Perm (r :: s'.waiting) ∧ s'.accepted = s.accepted
  | .withdrawn r => s.waiting.Perm (r :: s'.waiting) ∧ s'.accepted = s.accepted

theorem pending_of_not_draining (h : s.loop.isDraining = false) : s.loop.pending = [] := by
  cases hloop : s.loop with
  | draining pending => simp [hloop, LoopPc.isDraining] at h
  | _ => rfl

theorem balanced_of_moves {ev : Event} (h : Sound s) (hmoves : Moves s ev s') :
    Balanced s s' ev := by
  cases hmoves with
  | stop => exact ⟨rfl, rfl⟩
  | turn loop _ hpending _ => exact ⟨congrArg (s.coroCallbacks ++ ·) hpending, rfl⟩
  | drain _ hdraining =>
      refine ⟨?_, rfl⟩
      change [] ++ s.coroCallbacks = s.coroCallbacks ++ s.loop.pending
      rw [pending_of_not_draining hdraining, List.nil_append, List.append_nil]
  | spawn loop _ _ hpending _ _ => exact ⟨congrArg (s.coroCallbacks ++ ·) hpending, rfl⟩
  | dispatch r c wait id rest _ hdraining hr hc hpc =>
      refine ⟨?_, rfl⟩
      change (s.coroCallbacks ++ s.loop.pending).Perm (r :: ((s.delFd r.fd).coroCallbacks ++ []))
      rw [pending_of_not_draining hdraining, List.append_nil, List.append_nil]
      exact h.filter_fd hr
  | replay r c wait id rest _ hloop hc hpc =>
      refine ⟨?_, rfl⟩
      change (s.coroCallbacks ++ s.loop.pending).Perm (r :: (s.coroCallbacks ++ rest))
      rw [hloop]
      exact List.perm_middle
  | move i c pc _ hc _ _ _ _ _ _ => exact ⟨rfl, rfl⟩
  | register i c wait _ hc hpc =>
      have hwaiting : (s.register i c wait).waiting =
          (s.coroCallbacks ++ [⟨s.accepted, wait.fd c.fd, i⟩]) ++ s.loop.pending := by
        cases wait <;> rfl
      have haccepted : (s.register i c wait).accepted = s.accepted + 1 := by
        cases wait <;> rfl
      refine ⟨?_, rfl, haccepted⟩
      rw [hwaiting, List.append_assoc]
      exact List.perm_middle
  | suspend i c id completionFd _ hc hpc => exact ⟨rfl, rfl⟩
  | withdraw i c id completionFd hrunning hc hpc =>
      refine ⟨?_, rfl⟩
      have hmem := h.mem_callbacks_of_enqueueing hrunning hc hpc
      exact (h.filter_fd hmem).append_right s.loop.pending
  | close i c _ hc hpc =>
      have hfd : c.fd ∈ c.fds := by simp [Coroutine.fds, hpc]
      have hsame := h.delFd_self hc (by rw [hpc]; rfl) hfd
      exact ⟨congrArg (· ++ s.loop.pending) hsame, rfl⟩

theorem Balanced.ids {ev : Event} (h : Sound s) (hbalanced : Balanced s s' ev) :
    (s'.waiting.map Registration.id).Nodup ∧ ∀ r ∈ s'.waiting, r.id < s'.accepted := by
  -- What leaves the list takes its number with it.
  have hleft : ∀ r, s.waiting.Perm (r :: s'.waiting) → s'.accepted = s.accepted →
      (s'.waiting.map Registration.id).Nodup ∧ ∀ r ∈ s'.waiting, r.id < s'.accepted := by
    intro r hperm haccepted
    have hids := (hperm.map Registration.id).nodup_iff.mp h.ids_nodup
    refine ⟨(List.nodup_cons.mp hids).2, fun r' hr' => ?_⟩
    rw [haccepted]
    exact h.ids_lt r' (hperm.mem_iff.mpr (List.mem_cons_of_mem _ hr'))
  cases ev with
  | quiet =>
      obtain ⟨hwaiting, haccepted⟩ := hbalanced
      rw [hwaiting, haccepted]
      exact ⟨h.ids_nodup, h.ids_lt⟩
  | accepted r =>
      obtain ⟨hperm, hid, haccepted⟩ := hbalanced
      constructor
      · refine (hperm.map Registration.id).nodup_iff.mpr (List.nodup_cons.mpr ⟨?_, h.ids_nodup⟩)
        intro hmem
        obtain ⟨r', hr', heq⟩ := List.mem_map.mp hmem
        have hlt := h.ids_lt r' hr'
        omega
      · intro r' hr'
        rcases List.mem_cons.mp (hperm.mem_iff.mp hr') with rfl | hr'
        · omega
        · have hlt := h.ids_lt r' hr'
          omega
  | invoked r => exact hleft r hbalanced.1 hbalanced.2
  | withdrawn r => exact hleft r hbalanced.1 hbalanced.2

/-- The rule for a step that moves one coroutine. -/
theorem Sound.update {ev : Event} (h : Sound s) (c' : Coroutine) (hbalanced : Balanced s s' ev)
    {i : Nat} {c : Coroutine} (hc : s.coroutines[i]? = some c)
    (hcoroutines : s'.coroutines = s.coroutines.set i c')
    (hmem : ∀ r, r ∈ s'.waiting ↔
      (r ∈ s.waiting ∧ r.coroutine ≠ i) ∨ c'.registration? i = some r)
    (hbefore : s.running = none ∨ s.running = some i)
    (hafter : s'.running = if c'.pc.isActive then some i else none)
    (hfds : ∀ fd ∈ c'.fds, fd ∈ c.fds ∨ fd ∉ s.openFds)
    (hpending : ∀ r ∈ s'.loop.pending, r ∈ s.waiting ∧ r.coroutine ≠ i)
    (hreturned : s'.loop ≠ .returned) : Sound s' := by
  obtain ⟨hids, hlt⟩ := hbalanced.ids h
  have hself : s'.coroutines[i]? = some c' := by
    rw [hcoroutines]
    exact thread_set_self hc
  have hother : ∀ {j : Nat}, j ≠ i → s'.coroutines[j]? = s.coroutines[j]? := by
    intro j hj
    rw [hcoroutines]
    exact List.getElem?_set_ne (Ne.symm hj)
  refine ⟨fun r => ?_, hids, hlt, fun j x hx => ?_, fun j hj => ?_, ?_, fun r hr => ?_,
    fun hloop => absurd hloop hreturned⟩
  · rw [hmem]
    by_cases hr : r.coroutine = i
    · rw [hr, hself]
      simp
    · rw [hother hr, ← h.mem_waiting]
      constructor
      · rintro (⟨hwaiting, -⟩ | hreg)
        · exact hwaiting
        · exact absurd (coroutine_of_registration hreg) hr
      · intro hwaiting
        exact .inl ⟨hwaiting, hr⟩
  · by_cases hj : j = i
    · subst hj
      obtain rfl : c' = x := Option.some.inj (hself.symm.trans hx)
      rw [hafter]
      cases c'.pc.isActive <;> simp
    · rw [hother hj] at hx
      have hidle : ¬ s.running = some j := by
        rcases hbefore with hnone | hsome
        · simp [hnone]
        · simpa [hsome] using Ne.symm hj
      have hidle' : ¬ s'.running = some j := by
        rw [hafter]
        split
        · simpa using Ne.symm hj
        · simp
      rw [h.one_runs j x hx]
      exact iff_of_false hidle hidle'
  · rw [hafter] at hj
    rw [hcoroutines, List.length_set]
    split at hj
    · obtain rfl := Option.some.inj hj
      exact (List.getElem?_eq_some_iff.mp hc).1
    · cases hj
  · -- A descriptor of the moved coroutine is one it had or a new one.
    have hcross : ∀ {k : Nat} {x : Coroutine} {fd : Nat}, k ≠ i → s.coroutines[k]? = some x →
        fd ∈ c'.fds → fd ∉ x.fds := by
      intro k x fd hk hx hfd hfdx
      rcases hfds fd hfd with hold | hnew
      · exact hk (h.own_fds k i x c fd hx hc hfdx hold)
      · exact hnew (mem_openFds hx hfdx)
    intro j k x y fd hx hy hfdx hfdy
    by_cases hj : j = i
    · subst hj
      obtain rfl : c' = x := Option.some.inj (hself.symm.trans hx)
      by_contra hk
      have hk' : k ≠ j := fun heq => hk heq.symm
      rw [hother hk'] at hy
      exact hcross hk' hy hfdx hfdy
    · rw [hother hj] at hx
      by_cases hk : k = i
      · subst hk
        obtain rfl : c' = y := Option.some.inj (hself.symm.trans hy)
        exact absurd hfdx (hcross hj hx hfdy)
      · rw [hother hk] at hy
        exact h.own_fds j k x y fd hx hy hfdx hfdy
  · rw [hafter]
    split
    · simpa using Ne.symm (hpending r hr).2
    · simp

/-- The registrations of other coroutines. -/
theorem Sound.ne_of_waitsFor (h : Sound s) {i : Nat} {c : Coroutine}
    (hc : s.coroutines[i]? = some c) (hwaits : c.pc.waitsFor? = none) (hr : r ∈ s.waiting) :
    r.coroutine ≠ i := by
  rintro rfl
  obtain ⟨c', hc', hreg⟩ := (h.mem_waiting r).mp hr
  obtain rfl : c' = c := Option.some.inj (hc'.symm.trans hc)
  simp [Coroutine.registration?, hwaits] at hreg

/-- A coroutine without a registration moves on without one. -/
theorem Sound.free (h : Sound s) (c' : Coroutine) {i : Nat} {c : Coroutine}
    (hrunning : s.running = some i)
    (hc : s.coroutines[i]? = some c) (hwaits : c.pc.waitsFor? = none)
    (hbalanced : Balanced s s' .quiet) (hcoroutines : s'.coroutines = s.coroutines.set i c')
    (hwaits' : c'.pc.waitsFor? = none)
    (hafter : s'.running = if c'.pc.isActive then some i else none)
    (hfds : ∀ fd ∈ c'.fds, fd ∈ c.fds ∨ fd ∉ s.openFds) (hloop : s'.loop = s.loop) :
    Sound s' := by
  have hnotReturned : s'.loop ≠ .returned := by
    intro hreturned
    simp [h.returned (hloop ▸ hreturned)] at hrunning
  refine h.update c' hbalanced hc hcoroutines (fun r => ?_) (.inr hrunning) hafter hfds
    (fun r hr => ?_) hnotReturned
  · have hnone : c'.registration? i = none := by
      simp [Coroutine.registration?, hwaits']
    rw [hbalanced.1, hnone]
    constructor
    · intro hr
      exact .inl ⟨hr, h.ne_of_waitsFor hc hwaits hr⟩
    · rintro (⟨hr, -⟩ | hr)
      · exact hr
      · cases hr
  · rw [hloop] at hr
    have hwaiting : r ∈ s.waiting := List.mem_append_right _ hr
    exact ⟨hwaiting, h.ne_of_waitsFor hc hwaits hwaiting⟩

/-- Who is left when the registration of one coroutine has been taken out. -/
theorem Sound.mem_rest (h : Sound s) {rest : List Registration} (hr : r ∈ s.waiting)
    (hperm : s.waiting.Perm (r :: rest)) (r' : Registration) :
    r' ∈ rest ↔ r' ∈ s.waiting ∧ r'.coroutine ≠ r.coroutine := by
  have hfresh : r ∉ rest := (List.nodup_cons.mp (hperm.nodup_iff.mp h.nodup)).1
  constructor
  · intro hr'
    have hold := hperm.mem_iff.mpr (List.mem_cons_of_mem _ hr')
    refine ⟨hold, fun hsame => hfresh ?_⟩
    rwa [← h.eq_of_coroutine hold hr hsame]
  · rintro ⟨hold, hne⟩
    rcases List.mem_cons.mp (hperm.mem_iff.mp hold) with rfl | hr'
    · exact absurd rfl hne
    · exact hr'

/-- A suspended coroutine is resumed; its registration has been taken out. -/
theorem Sound.resume (h : Sound s) {r : Registration} {c : Coroutine} {wait : Wait} {id : Nat}
    (hrunning : s.running = none) (hr : r ∈ s.waiting)
    (hc : s.coroutines[r.coroutine]? = some c) (hpc : c.pc = .suspended wait id)
    (hbalanced : Balanced s s' (.invoked r))
    (hcoroutines : s'.coroutines = s.coroutines.set r.coroutine ⟨c.fd, .resumed wait⟩)
    (hrunning' : s'.running = some r.coroutine) (hloop : s'.loop ≠ .returned) : Sound s' := by
  have hrest := h.mem_rest hr hbalanced.1
  refine h.update ⟨c.fd, .resumed wait⟩ hbalanced hc hcoroutines (fun r' => ?_) (.inl hrunning)
    hrunning' (fun fd hfd => .inl ?_)
    (fun r' hr' => (hrest r').mp (List.mem_append_right _ hr')) hloop
  · rw [hrest]
    simp [Coroutine.registration?, CoroutinePc.waitsFor?]
  · have hsame : c.fds = (⟨c.fd, .resumed wait⟩ : Coroutine).fds := by
      cases wait <;> simp [Coroutine.fds, hpc, CoroutinePc.completionFd?]
    rwa [hsame]

/-- A coroutine registers itself, or goes from one position to another of the
same registration. -/
theorem Sound.hold (h : Sound s) (c' : Coroutine) {ev : Event} {i : Nat} {c : Coroutine}
    {r : Registration} (hrunning : s.running = some i) (hc : s.coroutines[i]? = some c)
    (hbalanced : Balanced s s' ev)
    (hcoroutines : s'.coroutines = s.coroutines.set i c') (hreg : c'.registration? i = some r)
    (hmem : ∀ r', r' ∈ s'.waiting ↔ r' = r ∨ r' ∈ s.waiting)
    (hown : ∀ r' ∈ s.waiting, r'.coroutine = i → r' = r)
    (hafter : s'.running = if c'.pc.isActive then some i else none)
    (hfds : ∀ fd ∈ c'.fds, fd ∈ c.fds) (hloop : s'.loop = s.loop) : Sound s' := by
  have hnotReturned : s'.loop ≠ .returned := by
    intro hreturned
    have hnone := h.returned (hloop ▸ hreturned)
    simp [hnone] at hrunning
  refine h.update c' hbalanced hc hcoroutines (fun r' => ?_) (.inr hrunning) hafter
    (fun fd hfd => .inl (hfds fd hfd)) (fun r' hr' => ?_) hnotReturned
  · rw [hmem, hreg]
    constructor
    · rintro (rfl | hr')
      · exact .inr rfl
      · by_cases hi : r'.coroutine = i
        · exact .inr (congrArg some (hown r' hr' hi).symm)
        · exact .inl ⟨hr', hi⟩
    · rintro (⟨hr', -⟩ | hr')
      · exact .inr hr'
      · exact .inl (Option.some.inj hr').symm
  · rw [hloop] at hr'
    refine ⟨List.mem_append_right _ hr', fun hi => h.pending_idle r' hr' ?_⟩
    rw [hi]
    exact hrunning

/-- The loop moves on while no coroutine runs. -/
theorem Sound.turn (h : Sound s) (hrunning : s.running = none) (hbalanced : Balanced s s' .quiet)
    (hcoroutines : s'.coroutines = s.coroutines) (hrunning' : s'.running = none) : Sound s' := by
  obtain ⟨hids, hlt⟩ := hbalanced.ids h
  refine ⟨?_, hids, hlt, ?_, ?_, ?_, fun r _ => ?_, fun _ => hrunning'⟩
  · rw [hbalanced.1, hcoroutines]
    exact h.mem_waiting
  · rw [hcoroutines, hrunning', ← hrunning]
    exact h.one_runs
  · rw [hcoroutines, hrunning', ← hrunning]
    exact h.running_lt
  · rw [hcoroutines]
    exact h.own_fds
  · rw [hrunning']
    exact Option.some_ne_none _ |>.symm

/-- A new coroutine runs and is not registered; its descriptor is new. -/
theorem Sound.spawn {clientFd : Nat} (h : Sound s) (hrunning : s.running = none)
    (hfresh : clientFd ∉ s.openFds) (hbalanced : Balanced s s' .quiet)
    (hcoroutines : s'.coroutines = s.coroutines ++ [⟨clientFd, .head⟩])
    (hrunning' : s'.running = some s.coroutines.length) (hpending : s'.loop.pending = [])
    (hloop : s'.loop ≠ .returned) : Sound s' := by
  obtain ⟨hids, hlt⟩ := hbalanced.ids h
  have hcases : ∀ j, s'.coroutines[j]? = s.coroutines[j]? ∨
      j = s.coroutines.length ∧ s.coroutines[j]? = none ∧
        s'.coroutines[j]? = some ⟨clientFd, .head⟩ := by
    intro j
    rw [hcoroutines]
    exact thread_concat_cases s.coroutines j ⟨clientFd, .head⟩
  have hnew : ∀ {j : Nat} {c : Coroutine}, s.coroutines[j]? = some c → clientFd ∉ c.fds :=
    fun hc hfd => hfresh (mem_openFds hc hfd)
  have honly : ∀ fd ∈ (⟨clientFd, .head⟩ : Coroutine).fds, fd = clientFd := by
    intro fd hfd
    simpa [Coroutine.fds, CoroutinePc.completionFd?] using hfd
  refine ⟨fun r => ?_, hids, hlt, fun i c hc => ?_, fun i hi => ?_,
    fun i j c c' fd hc hc' hfd hfd' => ?_, fun r hr => ?_, fun hreturned => absurd hreturned hloop⟩
  · rw [hbalanced.1, h.mem_waiting]
    rcases hcases r.coroutine with hsame | ⟨-, hnone, hlast⟩
    · rw [hsame]
    · rw [hnone, hlast]
      simp [Coroutine.registration?, CoroutinePc.waitsFor?]
  · rw [hrunning']
    rcases hcases i with hsame | ⟨rfl, -, hlast⟩
    · rw [hsame] at hc
      have hlt := (List.getElem?_eq_some_iff.mp hc).1
      rw [h.one_runs i c hc, hrunning]
      simp only [reduceCtorEq, Option.some.injEq, false_iff]
      omega
    · obtain rfl := Option.some.inj (hlast.symm.trans hc)
      simp [CoroutinePc.isActive]
  · rw [hrunning'] at hi
    cases hi
    simp [hcoroutines]
  · rcases hcases i with hsame | ⟨hi, -, hlast⟩
    · rw [hsame] at hc
      rcases hcases j with hsame' | ⟨-, -, hlast'⟩
      · rw [hsame'] at hc'
        exact h.own_fds i j c c' fd hc hc' hfd hfd'
      · obtain rfl := Option.some.inj (hlast'.symm.trans hc')
        exact absurd (honly fd hfd' ▸ hfd) (hnew hc)
    · obtain rfl := Option.some.inj (hlast.symm.trans hc)
      rcases hcases j with hsame' | ⟨hj, -, -⟩
      · rw [hsame'] at hc'
        exact absurd (honly fd hfd ▸ hfd') (hnew hc')
      · rw [hi, hj]
  · rw [hpending] at hr
    cases hr

/-- The step lemma. -/
theorem sound_of_moves {ev : Event} (h : Sound s) (hmoves : Moves s ev s') : Sound s' := by
  have hbalanced := balanced_of_moves h hmoves
  have hnotReturned : ∀ {i : Nat}, s.running = some i → s.loop ≠ .returned := by
    intro i hrunning hreturned
    simp [h.returned hreturned] at hrunning
  cases hmoves with
  | stop =>
      exact ⟨h.mem_waiting, h.ids_nodup, h.ids_lt, h.one_runs, h.running_lt, h.own_fds,
        h.pending_idle, h.returned⟩
  | turn loop hrunning _ _ => exact h.turn hrunning hbalanced rfl hrunning
  | drain hrunning _ => exact h.turn hrunning hbalanced rfl hrunning
  | spawn loop clientFd hrunning hpending hdraining hfresh =>
      refine h.spawn hrunning hfresh hbalanced rfl rfl
        (hpending.trans (pending_of_not_draining hdraining.2)) ?_
      rintro rfl
      simp [LoopPc.isDraining] at hdraining
  | dispatch r c wait id rest hrunning hdraining hr hc hpc =>
      refine h.resume hrunning (List.mem_append_left _ hr) hc hpc hbalanced rfl rfl ?_
      intro hreturned
      cases hreturned
  | replay r c wait id rest hrunning hloop hc hpc =>
      have hr : r ∈ s.waiting := by simp [State.waiting, hloop, LoopPc.pending]
      refine h.resume hrunning hr hc hpc hbalanced rfl rfl ?_
      intro hreturned
      cases hreturned
  | move i c pc hrunning hc hactive hwaits hactive' hwaits' hfds _ =>
      refine h.free ⟨c.fd, pc⟩ hrunning hc hwaits hbalanced rfl hwaits' ?_
        (fun fd hfd => ?_) rfl
      · change s.running = if pc.isActive = true then some i else none
        rw [hactive', hrunning, if_pos rfl]
      have hopen : c.fds = c.fd :: c.pc.completionFd?.toList := by
        unfold Coroutine.fds
        rw [if_neg]
        intro hfinished
        simp [hfinished, CoroutinePc.isActive] at hactive
      have hopen' : (⟨c.fd, pc⟩ : Coroutine).fds = c.fd :: pc.completionFd?.toList := by
        unfold Coroutine.fds
        rw [if_neg]
        rintro rfl
        simp [CoroutinePc.isActive] at hactive'
      rw [hopen', List.mem_cons, Option.mem_toList] at hfd
      rw [hopen, List.mem_cons, Option.mem_toList]
      rcases hfd with rfl | hfd
      · exact .inl (.inl rfl)
      · rcases hfds fd hfd with hold | hnew
        · exact .inl (.inr hold)
        · exact .inr hnew
  | register i c wait hrunning hc hpc =>
      have hothers : ∀ r' ∈ s.waiting, r'.coroutine = i → r' = ⟨s.accepted, wait.fd c.fd, i⟩ := by
        intro r' hr' hi
        exact absurd hi (h.ne_of_waitsFor hc (by rw [hpc]; rfl) hr')
      have hmem : ∀ r', r' ∈ (s.register i c wait).waiting ↔
          r' = ⟨s.accepted, wait.fd c.fd, i⟩ ∨ r' ∈ s.waiting := by
        intro r'
        rw [hbalanced.1.mem_iff, List.mem_cons]
      cases wait with
      | read =>
          exact h.hold _ hrunning hc hbalanced rfl rfl hmem hothers rfl
            (by simp [Coroutine.fds, hpc, CoroutinePc.completionFd?]) rfl
      | write =>
          exact h.hold _ hrunning hc hbalanced rfl rfl hmem hothers rfl
            (by simp [Coroutine.fds, hpc, CoroutinePc.completionFd?]) rfl
      | dispatch completionFd =>
          exact h.hold _ hrunning hc hbalanced rfl rfl hmem hothers hrunning
            (by simp [Coroutine.fds, hpc, CoroutinePc.completionFd?]) rfl
  | suspend i c id completionFd hrunning hc hpc =>
      have hmine : (⟨id, completionFd, i⟩ : Registration) ∈ s.waiting :=
        List.mem_append_left _ (h.mem_callbacks_of_enqueueing hrunning hc hpc)
      refine h.hold ⟨c.fd, .suspended (.dispatch completionFd) id⟩ hrunning hc hbalanced
        rfl rfl (fun r' => ?_) (fun r' hr' hi => ?_) rfl ?_ rfl
      · have hwaiting : r' ∈ s.waiting ↔ r' = ⟨id, completionFd, i⟩ ∨ r' ∈ s.waiting := by
          constructor
          · exact .inr
          · rintro (rfl | hr')
            · exact hmine
            · exact hr'
        exact hwaiting
      · exact h.eq_of_coroutine hr' hmine hi
      · simp [Coroutine.fds, hpc, CoroutinePc.completionFd?]
  | withdraw i c id completionFd hrunning hc hpc =>
      have hmine : (⟨id, completionFd, i⟩ : Registration) ∈ s.waiting :=
        List.mem_append_left _ (h.mem_callbacks_of_enqueueing hrunning hc hpc)
      have hrest := h.mem_rest hmine hbalanced.1
      refine h.update ⟨c.fd, .sending⟩ hbalanced hc rfl (fun r' => ?_) (.inr hrunning)
        hrunning (fun fd hfd => .inl ?_) (fun r' hr' => ?_) (hnotReturned hrunning)
      · rw [hrest]
        simp [Coroutine.registration?, CoroutinePc.waitsFor?]
      · have hfd' : fd = c.fd := by simpa [Coroutine.fds, CoroutinePc.completionFd?] using hfd
        simp [Coroutine.fds, hpc, hfd']
      · exact (hrest r').mp (List.mem_append_right _ hr')
  | close i c hrunning hc hpc =>
      refine h.free ⟨c.fd, .finished⟩ hrunning hc (by rw [hpc]; rfl) hbalanced rfl rfl rfl
        (fun fd hfd => ?_) rfl
      simp [Coroutine.fds] at hfd

end Sound

/-! ## Whole runs -/

section Events

variable {trace : List LoopTransition} {τ : LoopTransition}

theorem events_snoc (f : Event → Option Registration) :
    (events (trace ++ [τ])).filterMap f =
      (events trace).filterMap f ++ (f (event τ.pre τ.action)).toList := by
  rw [events, List.map_append, List.map_singleton, filterMap_concat]
  rfl

theorem acceptedIn_snoc : acceptedIn (trace ++ [τ]) =
    acceptedIn trace ++ (event τ.pre τ.action).accepted?.toList :=
  events_snoc Event.accepted?

theorem invokedIn_snoc : invokedIn (trace ++ [τ]) =
    invokedIn trace ++ (event τ.pre τ.action).invoked?.toList :=
  events_snoc Event.invoked?

theorem withdrawnIn_snoc : withdrawnIn (trace ++ [τ]) =
    withdrawnIn trace ++ (event τ.pre τ.action).withdrawn?.toList :=
  events_snoc Event.withdrawn?

end Events

theorem sound_built (wakeFd listenFd : Nat) : Sound (State.built wakeFd listenFd) := by
  refine ⟨?_, ?_, ?_, ?_, ?_, ?_, ?_, ?_⟩ <;> simp [State.built, State.waiting, LoopPc.pending]

/-- Each accepted registration is waiting, or its callback has been invoked, or
it has been withdrawn; the registrations are numbered in the order in which they
are accepted. -/
structure Conserved (trace : List LoopTransition) (s : State) : Prop where
  sound : Sound s
  numbered : (acceptedIn trace).map Registration.id = List.range s.accepted
  balance : (acceptedIn trace).Perm (invokedIn trace ++ withdrawnIn trace ++ s.waiting)

theorem conserved_of_run {wakeFd listenFd : Nat} {trace : List LoopTransition} {s : State}
    (hrun : Run step (State.built wakeFd listenFd) trace s) : Conserved trace s := by
  apply hrun.history_invariant (P := Conserved)
  · exact ⟨sound_built wakeFd listenFd, rfl, .nil⟩
  · rintro earlier τ - - hstep ⟨hsound, hnumbered, hbalance⟩
    have hmoves := moves_of_step hstep
    have hbalanced := balanced_of_moves hsound hmoves
    refine ⟨sound_of_moves hsound hmoves, ?_, ?_⟩
    · rw [acceptedIn_snoc, List.map_append, hnumbered]
      cases hev : event τ.pre τ.action with
      | accepted r =>
          rw [hev] at hbalanced
          rw [hbalanced.2.2, List.range_succ, ← hbalanced.2.1]
          rfl
      | quiet =>
          rw [hev] at hbalanced
          simp [Event.accepted?, hbalanced.2]
      | invoked r =>
          rw [hev] at hbalanced
          simp [Event.accepted?, hbalanced.2]
      | withdrawn r =>
          rw [hev] at hbalanced
          simp [Event.accepted?, hbalanced.2]
    · rw [acceptedIn_snoc, invokedIn_snoc, withdrawnIn_snoc, List.perm_iff_count]
      intro r'
      have hcount := hbalance.count_eq r'
      cases hev : event τ.pre τ.action with
      | quiet =>
          rw [hev] at hbalanced
          simpa [Event.accepted?, Event.invoked?, Event.withdrawn?, hbalanced.1] using hcount
      | accepted r =>
          rw [hev] at hbalanced
          have hmove := hbalanced.1.count_eq r'
          simp only [Event.accepted?, Event.invoked?, Event.withdrawn?, Option.toList_some,
            Option.toList_none, List.append_nil, List.count_append, List.count_cons,
            List.count_nil] at hcount hmove ⊢
          omega
      | invoked r =>
          rw [hev] at hbalanced
          have hmove := hbalanced.1.count_eq r'
          simp only [Event.accepted?, Event.invoked?, Event.withdrawn?, Option.toList_some,
            Option.toList_none, List.append_nil, List.count_append, List.count_cons,
            List.count_nil] at hcount hmove ⊢
          omega
      | withdrawn r =>
          rw [hev] at hbalanced
          have hmove := hbalanced.1.count_eq r'
          simp only [Event.accepted?, Event.invoked?, Event.withdrawn?, Option.toList_some,
            Option.toList_none, List.append_nil, List.count_append, List.count_cons,
            List.count_nil] at hcount hmove ⊢
          omega

/-! ## The drain -/

/-- The registrations accepted after the loop has been left. -/
def acceptedInDrain (trace : List LoopTransition) : List Registration :=
  acceptedIn (trace.filter fun τ => τ.pre.loop.isDraining)

theorem acceptedInDrain_snoc {trace : List LoopTransition} {τ : LoopTransition} :
    acceptedInDrain (trace ++ [τ]) = acceptedInDrain trace ++
      if τ.pre.loop.isDraining then (event τ.pre τ.action).accepted?.toList else [] := by
  rw [acceptedInDrain, List.filter_append, List.filter_singleton]
  cases τ.pre.loop.isDraining with
  | true => exact acceptedIn_snoc
  | false => simp [acceptedInDrain]

/-- The step leaves the loop. -/
def BeginsDrain (τ : LoopTransition) : Prop :=
  τ.pre.loop.isDraining = false ∧ τ.post.loop.isDraining = true

section Drain

variable {s s' : State} {ev : Event}

theorem drain_of_moves (hmoves : Moves s ev s') (hbefore : s.loop.isDraining = false)
    (hafter : s'.loop.isDraining = true) :
    ev.accepted? = none ∧ s'.coroCallbacks = [] ∧ s'.running = none ∧
      s'.stopRequested = s.stopRequested := by
  cases hmoves with
  | drain hrunning _ => exact ⟨rfl, rfl, hrunning, rfl⟩
  | turn loop _ _ hdraining => simp_all
  | spawn loop clientFd _ _ hdraining _ => simp_all
  | replay r c wait id rest _ hloop _ _ => simp [hloop, LoopPc.isDraining] at hbefore
  | dispatch r c wait id rest _ _ _ _ _ => simp [LoopPc.isDraining] at hafter
  | stop => simp_all
  | move i c pc _ _ _ _ _ _ _ _ => simp_all [State.move]
  | register i c wait _ _ _ => cases wait <;> simp_all [State.register, State.move]
  | suspend i c id completionFd _ _ _ => simp_all [State.move]
  | withdraw i c id completionFd _ _ _ => simp_all [State.move, State.delFd]
  | close i c _ _ _ => simp_all [State.move, State.delFd]

/-- During the drain, `coro_callbacks_` only changes by registrations that are
accepted or withdrawn. -/
theorem callbacks_of_moves (h : Sound s) (hmoves : Moves s ev s')
    (hdraining : s.loop.isDraining = true) :
    s'.loop.isDraining = true ∧
      (ev.withdrawn?.toList ++ s'.coroCallbacks).Perm
        (s.coroCallbacks ++ ev.accepted?.toList) := by
  cases hmoves with
  | stop => exact ⟨hdraining, by simp [Event.withdrawn?, Event.accepted?]⟩
  | turn loop _ _ hsame =>
      exact ⟨hsame.trans hdraining, by simp [Event.withdrawn?, Event.accepted?]⟩
  | drain _ hnot => simp [hdraining] at hnot
  | spawn loop clientFd _ _ hnot _ => simp [hdraining] at hnot
  | dispatch r c wait id rest _ hnot _ _ _ => simp [hdraining] at hnot
  | replay r c wait id rest _ hloop _ _ =>
      exact ⟨rfl, by simp [State.move, Event.withdrawn?, Event.accepted?]⟩
  | move i c pc _ _ _ _ _ _ _ _ =>
      exact ⟨hdraining, by simp [State.move, Event.withdrawn?, Event.accepted?]⟩
  | register i c wait _ _ _ =>
      cases wait <;>
        exact ⟨hdraining, by simp [State.register, State.move, Event.withdrawn?, Event.accepted?]⟩
  | suspend i c id completionFd _ _ _ =>
      exact ⟨hdraining, by simp [State.move, Event.withdrawn?, Event.accepted?]⟩
  | withdraw i c id completionFd hrunning hc hpc =>
      refine ⟨hdraining, ?_⟩
      have hperm := h.filter_fd (h.mem_callbacks_of_enqueueing hrunning hc hpc)
      simpa [State.move, Event.withdrawn?, Event.accepted?] using hperm.symm
  | close i c hrunning hc hpc =>
      refine ⟨hdraining, ?_⟩
      have hfd : c.fd ∈ c.fds := by simp [Coroutine.fds, hpc]
      have hsame := h.delFd_self hc (by rw [hpc]; rfl) hfd
      simpa [State.move, Event.withdrawn?, Event.accepted?] using List.Perm.of_eq hsame

/-- What is registered during the drain is what was accepted in it and not taken
back. -/
theorem callbacks_perm_of_run {wakeFd listenFd : Nat} {trace : List LoopTransition}
    (hrun : Run step (State.built wakeFd listenFd) trace s) :
    (s.loop.isDraining = false → acceptedInDrain trace = []) ∧
    (s.loop.isDraining = true → (∀ r ∈ s.coroCallbacks, r ∈ acceptedInDrain trace) ∧
      ∀ r ∈ acceptedInDrain trace, r ∈ s.coroCallbacks ∨ r ∈ withdrawnIn trace) := by
  apply hrun.history_invariant (P := fun trace s =>
    (s.loop.isDraining = false → acceptedInDrain trace = []) ∧
    (s.loop.isDraining = true → (∀ r ∈ s.coroCallbacks, r ∈ acceptedInDrain trace) ∧
      ∀ r ∈ acceptedInDrain trace, r ∈ s.coroCallbacks ∨ r ∈ withdrawnIn trace))
  · exact ⟨fun _ => rfl, fun h => by simp [State.built, LoopPc.isDraining] at h⟩
  · rintro earlier τ - hearlier hstep ⟨hnone, hdrained⟩
    have hsound := (conserved_of_run hearlier).sound
    have hmoves := moves_of_step hstep
    rw [acceptedInDrain_snoc, withdrawnIn_snoc]
    cases hpre : τ.pre.loop.isDraining with
    | false =>
        rw [hnone hpre]
        refine ⟨fun _ => by simp, fun hpost => ?_⟩
        obtain ⟨-, hempty, -, -⟩ := drain_of_moves hmoves hpre hpost
        simp [hempty]
    | true =>
        obtain ⟨hpost, hperm⟩ := callbacks_of_moves hsound hmoves hpre
        obtain ⟨hin, hout⟩ := hdrained hpre
        refine ⟨fun hnot => by simp [hpost] at hnot, fun _ => ⟨fun r hr => ?_, fun r hr => ?_⟩⟩
        · have hmem := hperm.mem_iff.mp (List.mem_append_right _ hr)
          rw [List.mem_append] at hmem
          simp only [if_true, List.mem_append]
          exact hmem.imp (hin r) id
        · simp only [if_true, List.mem_append] at hr
          -- Registered before or accepted now: then it is registered or withdrawn now.
          have hnow : r ∈ τ.pre.coroCallbacks ++ (event τ.pre τ.action).accepted?.toList →
              r ∈ τ.post.coroCallbacks ∨
                r ∈ withdrawnIn earlier ++ (event τ.pre τ.action).withdrawn?.toList := by
            intro hmem
            rcases List.mem_append.mp (hperm.mem_iff.mpr hmem) with hwithdrawn | hkept
            · exact .inr (List.mem_append_right _ hwithdrawn)
            · exact .inl hkept
          rcases hr with hold | hnew
          · rcases hout r hold with hregistered | hwithdrawn
            · exact hnow (List.mem_append_left _ hregistered)
            · exact .inr (List.mem_append_left _ hwithdrawn)
          · exact hnow (List.mem_append_right _ hnew)

/-- The running coroutine is not about to register itself. -/
def NotAdding (s : State) : Prop :=
  ∀ i c wait, s.running = some i → s.coroutines[i]? = some c → c.pc ≠ .adding wait

/-- With the stop flag set, no coroutine gets past the check of `addCoroutine`. -/
theorem notAdding_of_moves (hmoves : Moves s ev s') (hstop : s.stopRequested = true)
    (hnot : NotAdding s) (hdraining : s.loop.isDraining = true) :
    s'.stopRequested = true ∧ NotAdding s' ∧ ev.accepted? = none := by
  -- A coroutine that is moved to another position is not at this one.
  have hset : ∀ {i : Nat} {c : Coroutine} {pc : CoroutinePc}, s.coroutines[i]? = some c →
      (∀ wait, pc ≠ .adding wait) → ∀ wait, ∀ c',
      (s.coroutines.set i ⟨c.fd, pc⟩)[i]? = some c' → c'.pc ≠ .adding wait := by
    intro i c pc hc hpc wait c' hc'
    rw [thread_set_self hc] at hc'
    cases hc'
    exact hpc wait
  cases hmoves with
  | stop => exact ⟨rfl, hnot, rfl⟩
  | turn loop hrunning _ _ =>
      exact ⟨hstop, fun i c wait hi _ => by simp [hrunning] at hi, rfl⟩
  | drain _ hdrain => simp [hdraining] at hdrain
  | spawn loop clientFd _ _ hdrain _ => simp [hdraining] at hdrain
  | dispatch r c wait id rest _ hdrain _ _ _ => simp [hdraining] at hdrain
  | replay r c wait id rest _ _ hc _ =>
      refine ⟨hstop, fun i c' wait' hi hc' => ?_, rfl⟩
      cases hi
      exact hset hc (by simp) wait' c' hc'
  | move i c pc hrunning hc _ _ _ _ _ hadding =>
      refine ⟨hstop, fun j c' wait hj hc' => ?_, rfl⟩
      obtain rfl : i = j := Option.some.inj (hrunning.symm.trans hj)
      refine hset hc (fun wait' hpc => ?_) wait c' hc'
      simp [hadding wait' hpc] at hstop
  | register i c wait hrunning hc hpc => exact absurd hpc (hnot i c wait hrunning hc)
  | suspend i c id completionFd _ _ _ => exact ⟨hstop, nofun, rfl⟩
  | withdraw i c id completionFd hrunning hc _ =>
      refine ⟨hstop, fun j c' wait hj hc' => ?_, rfl⟩
      obtain rfl : i = j := Option.some.inj (hrunning.symm.trans hj)
      exact hset hc (by simp) wait c' hc'
  | close i c _ _ _ => exact ⟨hstop, nofun, rfl⟩

/-- If `stop()` has ended the loop, nothing is accepted in the drain. -/
theorem acceptedInDrain_of_stop {wakeFd listenFd : Nat} {trace : List LoopTransition}
    (hrun : Run step (State.built wakeFd listenFd) trace s)
    (hstop : ∀ τ ∈ trace, BeginsDrain τ → τ.pre.stopRequested = true) :
    acceptedInDrain trace = [] := by
  have hinv : acceptedInDrain trace = [] ∧
      (s.loop.isDraining = true → s.stopRequested = true ∧ NotAdding s) := by
    apply hrun.history_invariant (P := fun trace s => acceptedInDrain trace = [] ∧
      (s.loop.isDraining = true → s.stopRequested = true ∧ NotAdding s))
    · exact ⟨rfl, fun h => by simp [State.built, LoopPc.isDraining] at h⟩
    · rintro earlier τ hinitial - hstep ⟨hnone, hdrained⟩
      have hmoves := moves_of_step hstep
      rw [acceptedInDrain_snoc, hnone]
      cases hpre : τ.pre.loop.isDraining with
      | false =>
          refine ⟨by simp, fun hpost => ?_⟩
          obtain ⟨-, -, hrunning, hsame⟩ := drain_of_moves hmoves hpre hpost
          have hflag := hstop τ (hinitial.subset (by simp)) ⟨hpre, hpost⟩
          exact ⟨hsame.trans hflag, fun i c wait hi _ => by simp [hrunning] at hi⟩
      | true =>
          obtain ⟨hflag, hnot⟩ := hdrained hpre
          obtain ⟨hflag', hnot', hquiet⟩ := notAdding_of_moves hmoves hflag hnot hpre
          refine ⟨by simp [hquiet], fun _ => ⟨hflag', hnot'⟩⟩
  exact hinv.1

/-! ## What is left -/

/-- When `run` has returned, nothing is registered exactly if all coroutines have
finished. -/
theorem callbacks_eq_nil_iff (h : Sound s) (hreturned : s.loop = .returned) :
    s.coroCallbacks = [] ↔ ∀ c ∈ s.coroutines, c.pc = .finished := by
  have hwaiting : s.waiting = s.coroCallbacks := by
    simp [State.waiting, hreturned, LoopPc.pending]
  rw [← hwaiting]
  constructor
  · intro hempty c hmem
    obtain ⟨i, hc⟩ := List.getElem?_of_mem hmem
    have hidle : ¬ c.pc.isActive = true := by
      rw [h.one_runs i c hc, h.returned hreturned]
      simp
    cases hpc : c.pc with
    | finished => rfl
    | suspended wait id =>
        have hreg : c.registration? i = some ⟨id, wait.fd c.fd, i⟩ := by
          simp [Coroutine.registration?, hpc, CoroutinePc.waitsFor?]
        have hmem := (h.mem_waiting ⟨id, wait.fd c.fd, i⟩).mpr ⟨c, hc, hreg⟩
        rw [hempty] at hmem
        cases hmem
    | _ => simp [hpc, CoroutinePc.isActive] at hidle
  · intro hfinished
    rw [List.eq_nil_iff_forall_not_mem]
    intro r hr
    obtain ⟨c, hc, hreg⟩ := (h.mem_waiting r).mp hr
    have hpc := hfinished c (List.mem_of_getElem? hc)
    simp [Coroutine.registration?, hpc, CoroutinePc.waitsFor?] at hreg

end Drain

/-- For every run of the loop, with `stop()` at any moment: a callback is invoked
at most once, and never after its registration was withdrawn.  When `run` has
returned, the registrations left are those that were accepted in the drain and
not withdrawn; there are none exactly if every coroutine has finished, and then
every other accepted callback has been invoked; and there are none if the stop
flag was set when the loop was left. -/
theorem drain_complete_iff (wakeFd listenFd : Nat) (trace : List LoopTransition) (s : State)
    (hrun : Run step (State.built wakeFd listenFd) trace s) :
    (invokedIn trace).Nodup ∧
    (∀ r ∈ invokedIn trace, r ∈ acceptedIn trace ∧ r ∉ withdrawnIn trace ∧ r ∉ s.waiting) ∧
    (s.loop = .returned →
      (∀ r, r ∈ s.coroCallbacks ↔ r ∈ acceptedInDrain trace ∧ r ∉ withdrawnIn trace) ∧
      (s.coroCallbacks = [] ↔ ∀ c ∈ s.coroutines, c.pc = .finished) ∧
      (s.coroCallbacks = [] →
        ∀ r ∈ acceptedIn trace, r ∈ invokedIn trace ∨ r ∈ withdrawnIn trace) ∧
      ((∀ τ ∈ trace, BeginsDrain τ → τ.pre.stopRequested = true) → s.coroCallbacks = [])) := by
  obtain ⟨hsound, hnumbered, hbalance⟩ := conserved_of_run hrun
  have haccepted : (acceptedIn trace).Nodup := by
    apply List.Nodup.of_map Registration.id
    rw [hnumbered]
    exact List.nodup_range
  have hparts := hbalance.nodup_iff.mp haccepted
  obtain ⟨hgone, -, hwaitingApart⟩ := List.nodup_append.mp hparts
  obtain ⟨hinvoked, -, hwithdrawnApart⟩ := List.nodup_append.mp hgone
  refine ⟨hinvoked, fun r hr => ⟨?_, fun hwithdrawn => ?_, fun hwaiting => ?_⟩, fun hreturned => ?_⟩
  · exact hbalance.mem_iff.mpr (List.mem_append_left _ (List.mem_append_left _ hr))
  · exact hwithdrawnApart r hr r hwithdrawn rfl
  · exact hwaitingApart r (List.mem_append_left _ hr) r hwaiting rfl
  · have hdraining : s.loop.isDraining = true := by rw [hreturned]; rfl
    have hwaiting : s.waiting = s.coroCallbacks := by
      simp [State.waiting, hreturned, LoopPc.pending]
    obtain ⟨hin, hout⟩ := (callbacks_perm_of_run hrun).2 hdraining
    refine ⟨fun r => ⟨fun hr => ⟨hin r hr, fun hwithdrawn => ?_⟩, fun hr => ?_⟩,
      callbacks_eq_nil_iff hsound hreturned, fun hempty r hr => ?_, fun hstop => ?_⟩
    · rw [← hwaiting] at hr
      exact hwaitingApart r (List.mem_append_right _ hwithdrawn) r hr rfl
    · exact (hout r hr.1).resolve_right hr.2
    · have hmem := hbalance.mem_iff.mp hr
      rw [hwaiting, hempty, List.append_nil] at hmem
      exact List.mem_append.mp hmem
    · rw [List.eq_nil_iff_forall_not_mem]
      intro r hr
      have hmem := hin r hr
      rw [acceptedInDrain_of_stop hrun hstop] at hmem
      cases hmem

/-! ## Sample runs -/

/-- Steps without anything special from outside. -/
def idle (n : Nat) : List Action := List.replicate n (.advance {})

/-- A connection with descriptor 7 is accepted and its coroutine waits for
input; the loop is about to ask for the next connection. -/
def connectionWaits : List Action :=
  idle 2 ++ [.advance { poll := .ready [4] }] ++ idle 2 ++
    [.advance { accept := .connection 7 }] ++ idle 4

/-- The loop goes back to `epoll_wait`. -/
def backToPoll : List Action := [.advance { accept := .none }] ++ idle 3

/-- The coroutine is resumed by the drain, finds no input and waits again. -/
def resumedInDrain : List Action :=
  idle 2 ++ [.advance { read := .again }] ++ idle 4

/-- `stop()` while the loop is in `epoll_wait`: the wake-up descriptor becomes
ready, the loop is left and the coroutine closes its connection. -/
def stoppedRun : List Action :=
  connectionWaits ++ backToPoll ++ [.stop, .advance { poll := .ready [3] }] ++ idle 9

theorem drain_complete_iff_stopped :
    ∃ trace s, Run step (State.built 3 4) trace s ∧ s.loop = .returned ∧
      s.coroutines.length = 1 ∧ s.coroCallbacks = [] := by
  obtain ⟨s, hrun, hs⟩ : ∃ s, Run step (State.built 3 4)
      (executeTrace step (State.built 3 4) stoppedRun) s ∧
      decide (s.loop = .returned ∧ s.coroutines.length = 1) = true :=
    exists_run_of_execute (by decide +kernel)
  obtain ⟨hreturned, hlength⟩ := of_decide_eq_true hs
  have hstop : ∀ τ ∈ executeTrace step (State.built 3 4) stoppedRun,
      τ.pre.loop.isDraining = false ∧ τ.post.loop.isDraining = true →
        τ.pre.stopRequested = true := by
    decide +kernel
  obtain ⟨-, -, hreturn⟩ := drain_complete_iff 3 4 _ s hrun
  exact ⟨_, s, hrun, hreturned, hlength, (hreturn hreturned).2.2.2 hstop⟩

/-- The loop ends because `epoll_wait` fails. -/
def pollFailedRun : List Action :=
  connectionWaits ++ backToPoll ++ [.advance { poll := .failed }] ++ resumedInDrain

/-- The loop ends because the callback of the listening socket throws. -/
def callbackThrewRun : List Action :=
  connectionWaits ++ [.advance { accept := .throws }] ++ resumedInDrain

/-- `run` has returned and the only coroutine is still registered. -/
def LeavesRegistered (actions : List Action) : Prop :=
  ∃ s, Run step (State.built 3 4) (executeTrace step (State.built 3 4) actions) s ∧
    s.loop = .returned ∧ s.coroutines = [⟨7, .suspended .read 1⟩] ∧
    s.coroCallbacks = [⟨1, 7, 0⟩]

theorem leavesRegistered_of_execute {actions : List Action}
    (h : (execute step (State.built 3 4) actions).any (fun s => decide (s.loop = .returned ∧
      s.coroutines = [⟨7, .suspended .read 1⟩] ∧ s.coroCallbacks = [⟨1, 7, 0⟩])) = true) :
    LeavesRegistered actions := by
  obtain ⟨s, hrun, hs⟩ := exists_run_of_execute h
  exact ⟨s, hrun, of_decide_eq_true hs⟩

/-- Without `stop()` the coroutine that the drain resumes is registered again
when `run` returns, and nobody resumes it any more. -/
theorem coroutine_left_registered :
    LeavesRegistered pollFailedRun ∧ LeavesRegistered callbackThrewRun := by
  constructor
  · apply leavesRegistered_of_execute
    decide +kernel
  · apply leavesRegistered_of_execute
    decide +kernel

end EpollLoop
end Corpcron
