import Corpcron.Lib.Trace
import Corpcron.Scheduler.LeaseVerdict

/-!
# `LockRenewer::loop` against `add`, `remove` and `stop`

The loop holds the mutex except while it waits and while it renews the leases of
its snapshot.  A step of the loop is therefore one of three things: a wait is
over and the loop waits again or takes a snapshot; one lease of the snapshot is
renewed in Redis; or the mutex is taken again and the snapshot is re-checked.
Between any two steps other threads may add and remove leases of any key, stop
the renewer, and cancel a source for reasons of their own.

`Tracked` says where the leases in the hands of the loop come from.  `Pass`
follows a pass through a run: which leases have been registered all the time
since the snapshot, and that the list `lost` holds the failed renewals of this
pass and of no other.
-/

namespace Corpcron

open Lib

/-! ## The loop and its environment -/

namespace LockRenewer

/-- Where the thread of the renewer is; the mutex is free at each of these
places. -/
inductive LoopPc where
  /-- There is no thread: not started yet, or `stop` has joined it. -/
  | stopped
  /-- The thread has been started and is about to take the mutex. -/
  | starting
  /-- In `cv_.wait`: there are no leases. -/
  | idle
  /-- In `cv_.wait_until`. -/
  | sleeping (nextTime : Nat)
  /-- Renewing the snapshot `due`: `lease` is next, then `todo`. -/
  | renewing (due : List Lease) (lease : Lease) (todo lost : List Lease)
  /-- About to take the mutex for the re-check. -/
  | judging (due lost : List Lease)
deriving DecidableEq

namespace LoopPc

/-- Continue with the next lease of the snapshot. -/
def renew (due lost : List Lease) : List Lease → LoopPc
  | [] => .judging due lost
  | lease :: todo => .renewing due lease todo lost

/-- A snapshot has been taken and not been re-checked yet. -/
def inPass : LoopPc → Bool
  | .renewing .. => true
  | .judging .. => true
  | _ => false

/-- The snapshot. -/
def due : LoopPc → List Lease
  | .renewing due _ _ _ => due
  | .judging due _ => due
  | _ => []

/-- The leases of the snapshot that have not been renewed yet. -/
def todo : LoopPc → List Lease
  | .renewing _ lease todo _ => lease :: todo
  | _ => []

/-- The failed renewals of the snapshot. -/
def lost : LoopPc → List Lease
  | .renewing _ _ _ lost => lost
  | .judging _ lost => lost
  | _ => []

variable (snapshot failed rest : List Lease)

@[simp] theorem inPass_renew : (renew snapshot failed rest).inPass = true := by
  cases rest <;> rfl

@[simp] theorem due_renew : (renew snapshot failed rest).due = snapshot := by
  cases rest <;> rfl

@[simp] theorem todo_renew : (renew snapshot failed rest).todo = rest := by
  cases rest <;> rfl

@[simp] theorem lost_renew : (renew snapshot failed rest).lost = failed := by
  cases rest <;> rfl

theorem empty_of_not_inPass {pc : LoopPc} (h : pc.inPass = false) :
    pc.due = [] ∧ pc.todo = [] ∧ pc.lost = [] := by
  cases pc with
  | renewing => cases h
  | judging => cases h
  | _ => exact ⟨rfl, rfl, rfl⟩

end LoopPc

/-- The lock renewer of one process.  `process` holds `leases_` and the
cancellation sources; `running` is `LockRenewer::running_`. -/
structure State where
  process : Process
  running : Bool
  pc : LoopPc

/-- What comes from outside in a step of the loop. -/
structure Input where
  /-- `steady_clock::now()`. -/
  steadyMs : Nat := 0
  /-- `wait_until` has returned because the time has come. -/
  timedOut : Bool := false
  /-- The due leases in the order of `leases_`, which is not specified. -/
  due : List Lease := []
  /-- The result of `renewLock`. -/
  renewed : Bool := true

namespace State

/-- `LockRenewer::LockRenewer`. -/
def built : State where
  process := {}
  running := false
  pc := .stopped

/-- The head of the loop, up to the point where it waits. -/
def waitAgain (s : State) : LoopPc :=
  if s.running then
    match s.process.leases with
    | [] => .idle
    | lease :: rest =>
        .sleeping (rest.foldl (fun t lease => min t lease.nextRenewAt) lease.nextRenewAt)
  else .stopped

/-- The leases that are due. -/
def dueLeases (s : State) (steadyMs : Nat) : List Lease :=
  s.process.leases.filter fun lease => decide (lease.nextRenewAt ≤ steadyMs)

/-- `LockRenewer::loop`, from one place where the mutex is free to the next. -/
def stepLoop (s : State) (inp : Input) : Option State :=
  match s.pc with
  | .stopped => none
  | .starting => some { s with pc := s.waitAgain }
  | .idle =>
      -- `cv_.wait` only returns when its predicate holds.
      if s.running = false ∨ s.process.leases ≠ [] then some { s with pc := s.waitAgain } else none
  | .sleeping nextTime =>
      if inp.timedOut = false then some { s with pc := s.waitAgain }
      else if inp.steadyMs < nextTime then none
      else if s.running = false then some { s with pc := .stopped }
      else if inp.due.isPerm (s.dueLeases inp.steadyMs) then
        some { s with pc := .renew inp.due [] inp.due }
      else none
  | .renewing due lease todo lost =>
      some { s with pc := .renew due (if inp.renewed then lost else lost ++ [lease]) todo }
  | .judging due lost =>
      let judged : State := { s with process := s.process.judgeLeases inp.steadyMs due lost }
      some { judged with pc := judged.waitAgain }

end State

inductive Action where
  | loop (inp : Input)
  | start
  | stop
  | add (steadyMs : Nat) (key value : String) (ttlSec source : Nat)
  | remove (key value : String)
  /-- A source is canceled by another part of the process. -/
  | cancel (source : Nat)

/-- One step of the loop or one call of another thread. -/
def step (s : State) : Action → Option State
  | .loop inp => s.stepLoop inp
  | .start =>
      if s.running then some s
      else if s.pc = .stopped then some { s with running := true, pc := .starting }
      else none
  | .stop =>
      if s.running then some { s with running := false, process := { s.process with leases := [] } }
      else some s
  | .add steadyMs key value ttlSec source =>
      some { s with process := s.process.addLease steadyMs key value ttlSec source }
  | .remove key value => some { s with process := s.process.removeLease key value }
  | .cancel source => some { s with process := s.process.cancel source }

abbrev RenewerTransition := Transition State Action

/-! ## What a step can do -/

/-- The lease that a call of `add` registers. -/
def Action.added? : Action → Option Lease
  | .add steadyMs key value ttlSec source =>
      some ⟨key, value, ttlSec, Process.nextRenewTime steadyMs ttlSec, source⟩
  | _ => none

def addsIn (trace : List RenewerTransition) : List Lease :=
  trace.filterMap fun τ => τ.action.added?

/-- The call of `renewLock` in a step and its result. -/
def renewal? (τ : RenewerTransition) : Option (Lease × Bool) :=
  match τ.pre.pc, τ.action with
  | .renewing _ lease _ _, .loop inp => some (lease, inp.renewed)
  | _, _ => none

/-- `renewLock` has returned `false` for the execution of `l`. -/
def FailedIn (trace : List RenewerTransition) (l : Lease) : Prop :=
  ∃ τ ∈ trace, ∃ d, renewal? τ = some (d, false) ∧ l.sameOwner d = true

/-- The cases of a step.  Another thread can only add one lease and take leases
away; the place of the loop and what it has in hand stay as they are. -/
inductive Moves (s : State) (a : Action) (s' : State) : Prop where
  | waits (inp : Input) (haction : a = .loop inp) (hpc : s.pc.inPass = false)
      (hpc' : s'.pc.inPass = false) (hprocess : s'.process = s.process)
  | snapshot (inp : Input) (haction : a = .loop inp) (hpc : s.pc.inPass = false)
      (hdue : inp.due.Perm (s.dueLeases inp.steadyMs))
      (heq : s' = { s with pc := .renew inp.due [] inp.due })
  | renewal (inp : Input) (due : List Lease) (lease : Lease) (todo lost : List Lease)
      (haction : a = .loop inp) (hpc : s.pc = .renewing due lease todo lost)
      (heq : s' = { s with
        pc := .renew due (if inp.renewed then lost else lost ++ [lease]) todo })
  | recheck (inp : Input) (due lost : List Lease) (haction : a = .loop inp)
      (hpc : s.pc = .judging due lost) (hpc' : s'.pc.inPass = false)
      (hprocess : s'.process = s.process.judgeLeases inp.steadyMs due lost)
  | other (haction : ∀ inp, a ≠ .loop inp)
      (hpc : s'.pc = s.pc ∨ s.pc.inPass = false ∧ s'.pc.inPass = false)
      (hmem : ∀ l ∈ s'.process.leases, l ∈ s.process.leases ∨ a.added? = some l)
      (hkeys : (s.process.leases.map Lease.key).Nodup →
        (s'.process.leases.map Lease.key).Nodup)

theorem State.waitAgain_inPass (s : State) : s.waitAgain.inPass = false := by
  unfold State.waitAgain
  split
  · split <;> rfl
  · rfl

theorem moves_of_stepLoop {s s' : State} {inp : Input} (h : s.stepLoop inp = some s') :
    Moves s (.loop inp) s' := by
  have hwaits : s.pc.inPass = false → s' = { s with pc := s.waitAgain } →
      Moves s (.loop inp) s' := by
    rintro hpc rfl
    exact .waits inp rfl hpc s.waitAgain_inPass rfl
  unfold State.stepLoop at h
  cases hpc : s.pc with
  | stopped => simp [hpc] at h
  | starting =>
      simp only [hpc, Option.some.injEq] at h
      exact hwaits (by rw [hpc]; rfl) h.symm
  | idle =>
      simp only [hpc, Option.ite_none_right_eq_some, Option.some.injEq] at h
      exact hwaits (by rw [hpc]; rfl) h.2.symm
  | sleeping nextTime =>
      have hout : s.pc.inPass = false := by rw [hpc]; rfl
      simp only [hpc] at h
      split at h
      · exact hwaits hout (Option.some.inj h).symm
      · split at h
        · cases h
        · split at h
          · obtain rfl := Option.some.inj h
            exact .waits inp rfl hout rfl rfl
          · split at h
            next hperm =>
              exact .snapshot inp rfl hout (List.isPerm_iff.mp hperm) (Option.some.inj h).symm
            next => cases h
  | renewing due lease todo lost =>
      simp only [hpc, Option.some.injEq] at h
      exact .renewal inp due lease todo lost rfl hpc h.symm
  | judging due lost =>
      simp only [hpc, Option.some.injEq] at h
      subst h
      exact .recheck inp due lost rfl hpc (State.waitAgain_inPass _) rfl

theorem moves_of_step {s s' : State} {a : Action} (h : step s a = some s') : Moves s a s' := by
  cases a with
  | loop inp => exact moves_of_stepLoop h
  | start =>
      simp only [step] at h
      split at h
      · obtain rfl := Option.some.inj h
        exact .other (by simp) (.inl rfl) (fun l hl => .inl hl) id
      · split at h
        next hpc =>
          obtain rfl := Option.some.inj h
          exact .other (by simp) (.inr ⟨by rw [hpc]; rfl, rfl⟩) (fun l hl => .inl hl) id
        next => cases h
  | stop =>
      simp only [step] at h
      split at h
      · obtain rfl := Option.some.inj h
        exact .other (by simp) (.inl rfl) (by simp) (by simp)
      · obtain rfl := Option.some.inj h
        exact .other (by simp) (.inl rfl) (fun l hl => .inl hl) id
  | add steadyMs key value ttlSec source =>
      obtain rfl := Option.some.inj h
      refine .other (by simp) (.inl rfl) (fun l hl => ?_) (fun hkeys => ?_)
      · rcases List.mem_append.mp hl with hold | hnew
        · exact .inl (List.mem_filter.mp hold).1
        · exact .inr (congrArg some (List.mem_singleton.mp hnew).symm)
      · -- The leases that stay have another key than the new one.
        simp only [Process.addLease, List.map_append, List.map_cons, List.map_nil]
        rw [List.nodup_append]
        refine ⟨hkeys.sublist (List.filter_sublist.map _), by simp, ?_⟩
        rintro k hk k' hk' rfl
        obtain ⟨l, hl, rfl⟩ := List.mem_map.mp hk
        have hne := (List.mem_filter.mp hl).2
        simp [List.mem_singleton.mp hk'] at hne
  | remove key value =>
      obtain rfl := Option.some.inj h
      exact .other (by simp) (.inl rfl) (fun l hl => .inl (List.mem_filter.mp hl).1)
        (fun hkeys => hkeys.sublist (List.filter_sublist.map _))
  | cancel source =>
      obtain rfl := Option.some.inj h
      exact .other (by simp) (.inl rfl) (fun l hl => .inl hl) id

/-! ## Events of a run -/

section Events

variable {trace first second : List RenewerTransition} {τ : RenewerTransition} {l : Lease}

theorem addsIn_append : addsIn (first ++ second) = addsIn first ++ addsIn second :=
  List.filterMap_append

theorem mem_addsIn_snoc (h : l ∈ addsIn trace) : l ∈ addsIn (trace ++ [τ]) := by
  rw [addsIn_append]
  exact List.mem_append_left _ h

theorem addsIn_snoc_of_added (h : τ.action.added? = some l) :
    addsIn (trace ++ [τ]) = addsIn trace ++ [l] := by
  rw [addsIn_append]
  simp [addsIn, h]

theorem failedIn_snoc :
    FailedIn (trace ++ [τ]) l ↔
      FailedIn trace l ∨ ∃ d, renewal? τ = some (d, false) ∧ l.sameOwner d = true := by
  constructor
  · rintro ⟨ρ, hρ, hfailed⟩
    rcases List.mem_append.mp hρ with hearlier | hlast
    · exact .inl ⟨ρ, hearlier, hfailed⟩
    · rw [List.mem_singleton.mp hlast] at hfailed
      exact .inr hfailed
  · rintro (⟨ρ, hρ, hfailed⟩ | hfailed)
    · exact ⟨ρ, List.mem_append_left _ hρ, hfailed⟩
    · exact ⟨τ, List.mem_append_right _ List.mem_cons_self, hfailed⟩

/-- Outside of `renewing`, and in the steps of other threads, nothing is
renewed. -/
theorem failedIn_snoc_of_none (h : renewal? τ = none) :
    FailedIn (trace ++ [τ]) l ↔ FailedIn trace l := by
  rw [failedIn_snoc, or_iff_left]
  rintro ⟨d, hd, -⟩
  rw [h] at hd
  cases hd

theorem renewal?_of_not_inPass (h : τ.pre.pc.inPass = false) : renewal? τ = none := by
  unfold renewal?
  split
  next hpc haction =>
    rw [hpc] at h
    cases h
  next => rfl

theorem renewal?_of_other (h : ∀ inp, τ.action ≠ .loop inp) : renewal? τ = none := by
  unfold renewal?
  split
  next hpc haction => exact absurd haction (h _)
  next => rfl

theorem renewal?_of_judging {due lost : List Lease} (h : τ.pre.pc = .judging due lost) :
    renewal? τ = none := by
  unfold renewal?
  rw [h]

theorem failedIn_snoc_renewing {inp : Input} {due todo lost : List Lease} {lease : Lease}
    (hpc : τ.pre.pc = .renewing due lease todo lost) (haction : τ.action = .loop inp) :
    FailedIn (trace ++ [τ]) l ↔
      FailedIn trace l ∨ inp.renewed = false ∧ l.sameOwner lease = true := by
  have hrenewal : renewal? τ = some (lease, inp.renewed) := by
    unfold renewal?
    rw [hpc, haction]
  rw [failedIn_snoc, hrenewal]
  simp only [Option.some.injEq, Prod.mk.injEq]
  constructor
  · rintro (hearlier | ⟨d, ⟨rfl, hresult⟩, howner⟩)
    · exact .inl hearlier
    · exact .inr ⟨hresult, howner⟩
  · rintro (hearlier | ⟨hresult, howner⟩)
    · exact .inl hearlier
    · exact .inr ⟨lease, ⟨rfl, hresult⟩, howner⟩

end Events

/-! ## What the loop has in hand -/

/-- The registered leases have distinct keys, the lists of the loop are parts of
its snapshot, and every lease in either was added once. -/
structure Tracked (trace : List RenewerTransition) (s : State) : Prop where
  keys : (s.process.leases.map Lease.key).Nodup
  due_keys : (s.pc.due.map Lease.key).Nodup
  todo_due : ∀ d ∈ s.pc.todo, d ∈ s.pc.due
  lost_due : ∀ d ∈ s.pc.lost, d ∈ s.pc.due
  known : ∀ l ∈ s.process.leases, ∃ t, { l with nextRenewAt := t } ∈ addsIn trace
  due_known : ∀ d ∈ s.pc.due, ∃ e ∈ addsIn trace, e.value = d.value
  failed_known : ∀ l, FailedIn trace l → ∃ e ∈ addsIn trace, e.value = l.value

theorem tracked_built : Tracked [] State.built := by
  refine ⟨?_, ?_, ?_, ?_, ?_, ?_, ?_⟩ <;>
    simp [State.built, LoopPc.due, LoopPc.todo, LoopPc.lost, FailedIn]

variable {trace : List RenewerTransition} {τ : RenewerTransition} {s : State}

theorem Tracked.value_known {l : Lease} (h : Tracked trace s) (hl : l ∈ s.process.leases) :
    ∃ e ∈ addsIn trace, e.value = l.value := by
  obtain ⟨t, ht⟩ := h.known l hl
  exact ⟨_, ht, rfl⟩

theorem Tracked.judging {due lost : List Lease} (h : Tracked trace s)
    (hpc : s.pc = .judging due lost) :
    (due.map Lease.key).Nodup ∧ ∀ d ∈ lost, d ∈ due := by
  obtain ⟨-, hkeys, -, hlost, -, -, -⟩ := h
  rw [hpc] at hkeys hlost
  exact ⟨hkeys, hlost⟩

/-- The part of `Tracked` that a step outside of `renewing` leaves alone. -/
theorem Tracked.failed_known_snoc {l : Lease} (h : Tracked trace s) (hnone : renewal? τ = none)
    (hfailed : FailedIn (trace ++ [τ]) l) : ∃ e ∈ addsIn (trace ++ [τ]), e.value = l.value := by
  obtain ⟨e, he, hvalue⟩ := h.failed_known l ((failedIn_snoc_of_none hnone).mp hfailed)
  exact ⟨e, mem_addsIn_snoc he, hvalue⟩

/-- A pass is not under way: what `Tracked` says of the lists of the loop. -/
theorem Tracked.of_not_inPass (hpc : s.pc.inPass = false)
    (hkeys : (s.process.leases.map Lease.key).Nodup)
    (hknown : ∀ l ∈ s.process.leases, ∃ t, { l with nextRenewAt := t } ∈ addsIn trace)
    (hfailed : ∀ l, FailedIn trace l → ∃ e ∈ addsIn trace, e.value = l.value) :
    Tracked trace s := by
  obtain ⟨hdue, htodo, hlost⟩ := LoopPc.empty_of_not_inPass hpc
  refine ⟨hkeys, ?_, ?_, ?_, hknown, ?_, hfailed⟩ <;> simp [hdue, htodo, hlost]

theorem tracked_of_moves (h : Tracked trace τ.pre) (hmoves : Moves τ.pre τ.action τ.post) :
    Tracked (trace ++ [τ]) τ.post := by
  have hknown : ∀ l ∈ τ.pre.process.leases,
      ∃ t, { l with nextRenewAt := t } ∈ addsIn (trace ++ [τ]) := by
    intro l hl
    obtain ⟨t, ht⟩ := h.known l hl
    exact ⟨t, mem_addsIn_snoc ht⟩
  have hdueKnown : ∀ d ∈ τ.pre.pc.due, ∃ e ∈ addsIn (trace ++ [τ]), e.value = d.value := by
    intro d hd
    obtain ⟨e, he, hvalue⟩ := h.due_known d hd
    exact ⟨e, mem_addsIn_snoc he, hvalue⟩
  cases hmoves with
  | waits inp haction hpc hpc' hprocess =>
      refine Tracked.of_not_inPass hpc' ?_ ?_ fun l => ?_
      · rw [hprocess]
        exact h.keys
      · rw [hprocess]
        exact hknown
      · exact h.failed_known_snoc (renewal?_of_not_inPass hpc)
  | snapshot inp haction hpc hdue heq =>
      have hmem : ∀ d ∈ inp.due, d ∈ τ.pre.process.leases := fun d hd =>
        (List.mem_filter.mp (hdue.mem_iff.mp hd)).1
      rw [heq]
      refine ⟨h.keys, ?_, ?_, ?_, hknown, ?_, fun l => ?_⟩
      · rw [LoopPc.due_renew, (hdue.map Lease.key).nodup_iff]
        exact h.keys.sublist (List.filter_sublist.map _)
      · simp
      · simp
      · intro d hd
        rw [LoopPc.due_renew] at hd
        obtain ⟨t, ht⟩ := hknown d (hmem d hd)
        exact ⟨_, ht, rfl⟩
      · exact h.failed_known_snoc (renewal?_of_not_inPass hpc)
  | renewal inp due lease todo lost haction hpc heq =>
      obtain ⟨hkeys, hdueKeys, htodo, hlost, -, hdue, hfailed⟩ := h
      rw [hpc] at hdueKeys htodo hlost hdue hdueKnown
      have hlease : lease ∈ due := htodo lease List.mem_cons_self
      rw [heq]
      refine ⟨hkeys, ?_, ?_, ?_, hknown, ?_, fun l hl => ?_⟩
      · rw [LoopPc.due_renew]
        exact hdueKeys
      · rw [LoopPc.todo_renew, LoopPc.due_renew]
        exact fun d hd => htodo d (List.mem_cons_of_mem _ hd)
      · rw [LoopPc.lost_renew, LoopPc.due_renew]
        intro d hd
        split at hd
        · exact hlost d hd
        · rcases List.mem_append.mp hd with hold | hnew
          · exact hlost d hold
          · rw [List.mem_singleton.mp hnew]
            exact hlease
      · rw [LoopPc.due_renew]
        exact hdueKnown
      · rcases (failedIn_snoc_renewing hpc haction).mp hl with hearlier | ⟨-, howner⟩
        · obtain ⟨e, he, hvalue⟩ := hfailed l hearlier
          exact ⟨e, mem_addsIn_snoc he, hvalue⟩
        · obtain ⟨e, he, hvalue⟩ := hdueKnown lease hlease
          exact ⟨e, he, hvalue.trans (Lease.sameOwner_iff.mp howner).2⟩
  | recheck inp due lost haction hpc hpc' hprocess =>
      have hleases : τ.post.process.leases =
          τ.pre.process.leases.filterMap (Lease.verdict inp.steadyMs due lost) := by
        rw [hprocess]
        exact Process.judgeLeases_leases h.keys (h.judging hpc).1
      refine Tracked.of_not_inPass hpc' ?_ ?_ fun l => ?_
      · rw [hleases]
        exact nodup_keys_filterMap (fun _ _ => Lease.key_of_verdict) h.keys
      · intro l' hl'
        rw [hleases] at hl'
        obtain ⟨l, hl, hverdict⟩ := List.mem_filterMap.mp hl'
        obtain ⟨t, rfl⟩ := Lease.verdict_some hverdict
        exact hknown l hl
      · exact h.failed_known_snoc (renewal?_of_judging hpc)
  | other haction hpc hmem hkeys =>
      have hknown' : ∀ l ∈ τ.post.process.leases,
          ∃ t, { l with nextRenewAt := t } ∈ addsIn (trace ++ [τ]) := by
        intro l hl
        rcases hmem l hl with hold | hnew
        · exact hknown l hold
        · refine ⟨l.nextRenewAt, ?_⟩
          rw [addsIn_snoc_of_added hnew]
          exact List.mem_append_right _ List.mem_cons_self
      have hfailed : ∀ l, FailedIn (trace ++ [τ]) l →
          ∃ e ∈ addsIn (trace ++ [τ]), e.value = l.value := fun l =>
        h.failed_known_snoc (renewal?_of_other haction)
      rcases hpc with hsame | ⟨-, hpc'⟩
      · refine ⟨hkeys h.keys, ?_, ?_, ?_, hknown', ?_, hfailed⟩
        all_goals rw [hsame]
        · exact h.due_keys
        · exact h.todo_due
        · exact h.lost_due
        · exact hdueKnown
      · exact Tracked.of_not_inPass hpc' (hkeys h.keys) hknown' hfailed

theorem tracked_of_run (hrun : Run step State.built trace s) : Tracked trace s := by
  apply hrun.history_invariant (P := Tracked)
  · exact tracked_built
  · intro earlier τ _ _ hstep h
    exact tracked_of_moves h (moves_of_step hstep)

/-! ## One pass -/

/-- The step takes a snapshot of the due leases. -/
def BeginsPass (τ : RenewerTransition) : Prop :=
  τ.pre.pc.inPass = false ∧ τ.post.pc.inPass = true

/-- The step is the re-check, after which the loop waits or ends. -/
def EndsPass (τ : RenewerTransition) : Prop :=
  τ.pre.pc.inPass = true ∧ τ.post.pc.inPass = false

/-- The lease has been the registered one ever since the snapshot. -/
def RegisteredSince (snapshot : RenewerTransition) (between : List RenewerTransition)
    (l : Lease) : Prop :=
  l ∈ snapshot.pre.process.leases ∧ ∀ ρ ∈ between, l ∈ ρ.pre.process.leases

/-- The pass that began with `snapshot` has come to the state `s` by the steps
`between`. -/
structure Pass (snapshot : RenewerTransition) (between : List RenewerTransition)
    (s : State) : Prop where
  begins : BeginsPass snapshot
  inside : ∀ ρ ∈ between, ρ.pre.pc.inPass = true ∧ ρ.post.pc.inPass = true
  due_registered : ∀ d ∈ s.pc.due, d ∈ snapshot.pre.process.leases
  failed : ∀ l : Lease, s.pc.lost.any l.sameOwner = true ↔ FailedIn between l
  since : ∀ l ∈ s.process.leases, RegisteredSince snapshot between l ∨ l ∈ addsIn between

/-- A step that leaves the registered leases or adds one keeps track of those
that have been there since the snapshot. -/
theorem Pass.since_snoc {snapshot : RenewerTransition} {between : List RenewerTransition}
    (h : Pass snapshot between τ.pre)
    (hmem : ∀ l ∈ τ.post.process.leases, l ∈ τ.pre.process.leases ∨ τ.action.added? = some l) :
    ∀ l ∈ τ.post.process.leases,
      RegisteredSince snapshot (between ++ [τ]) l ∨ l ∈ addsIn (between ++ [τ]) := by
  intro l hl
  rcases hmem l hl with hold | hnew
  · rcases h.since l hold with ⟨hfirst, hbetween⟩ | hadded
    · refine .inl ⟨hfirst, fun ρ hρ => ?_⟩
      rcases List.mem_append.mp hρ with hearlier | hlast
      · exact hbetween ρ hearlier
      · rw [List.mem_singleton.mp hlast]
        exact hold
    · exact .inr (mem_addsIn_snoc hadded)
  · right
    rw [addsIn_snoc_of_added hnew]
    exact List.mem_append_right _ List.mem_cons_self

theorem Pass.inside_snoc {snapshot : RenewerTransition} {between : List RenewerTransition}
    (h : Pass snapshot between τ.pre) (hpre : τ.pre.pc.inPass = true)
    (hpost : τ.post.pc.inPass = true) :
    ∀ ρ ∈ between ++ [τ], ρ.pre.pc.inPass = true ∧ ρ.post.pc.inPass = true := by
  intro ρ hρ
  rcases List.mem_append.mp hρ with hearlier | hlast
  · exact h.inside ρ hearlier
  · rw [List.mem_singleton.mp hlast]
    exact ⟨hpre, hpost⟩

/-- Whenever a snapshot is in hand, the run ends with a pass. -/
theorem pass_of_run (hrun : Run step State.built trace s) (hpass : s.pc.inPass = true) :
    ∃ first snapshot between, trace = first ++ snapshot :: between ∧ Pass snapshot between s := by
  refine hrun.history_invariant (P := fun trace s => s.pc.inPass = true →
    ∃ first snapshot between, trace = first ++ snapshot :: between ∧ Pass snapshot between s)
    (fun h => by cases h) ?_ hpass
  intro earlier τ _ hearlier hstep ih hpost
  cases moves_of_step hstep with
  | waits inp haction hpc hpc' hprocess => simp [hpc'] at hpost
  | recheck inp due lost haction hpc hpc' hprocess => simp [hpc'] at hpost
  | snapshot inp haction hpc hdue heq =>
      refine ⟨earlier, τ, [], rfl, ⟨hpc, hpost⟩, by simp, ?_, ?_, ?_⟩
      · intro d hd
        rw [heq, LoopPc.due_renew] at hd
        exact (List.mem_filter.mp (hdue.mem_iff.mp hd)).1
      · intro l
        rw [heq, LoopPc.lost_renew]
        simp [FailedIn]
      · intro l hl
        rw [heq] at hl
        exact .inl ⟨hl, by simp⟩
  | renewal inp due lease todo lost haction hpc heq =>
      have hpre : τ.pre.pc.inPass = true := by rw [hpc]; rfl
      obtain ⟨first, snapshot, between, rfl, hbetween⟩ := ih hpre
      refine ⟨first, snapshot, between ++ [τ], by simp, hbetween.begins,
        hbetween.inside_snoc hpre hpost, ?_, fun l => ?_, hbetween.since_snoc fun l hl => ?_⟩
      · intro d hd
        rw [heq, LoopPc.due_renew] at hd
        apply hbetween.due_registered
        rw [hpc]
        exact hd
      · have hlost := hbetween.failed l
        rw [hpc] at hlost
        rw [heq, LoopPc.lost_renew, failedIn_snoc_renewing hpc haction, ← hlost]
        cases inp.renewed <;> simp [LoopPc.lost]
      · rw [heq] at hl
        exact .inl hl
  | other haction hpc hmem hkeys =>
      rcases hpc with hsame | ⟨-, hpc'⟩
      · have hpre : τ.pre.pc.inPass = true := by rw [← hsame]; exact hpost
        obtain ⟨first, snapshot, between, rfl, hbetween⟩ := ih hpre
        refine ⟨first, snapshot, between ++ [τ], by simp, hbetween.begins,
          hbetween.inside_snoc hpre hpost, ?_, fun l => ?_, hbetween.since_snoc hmem⟩
        · rw [hsame]
          exact hbetween.due_registered
        · rw [hsame, failedIn_snoc_of_none (renewal?_of_other haction)]
          exact hbetween.failed l
      · simp [hpc'] at hpost

/-! ## Distinct owners -/

/-- A lease that has been added since the snapshot belongs to no execution whose
lease was registered at the snapshot. -/
theorem value_ne_of_added {first between : List RenewerTransition}
    {snapshot : RenewerTransition} {d l : Lease} (hrun : Run step State.built first snapshot.pre)
    (howners : ((addsIn (first ++ snapshot :: between)).map Lease.value).Nodup)
    (hd : d ∈ snapshot.pre.process.leases) (hl : l ∈ addsIn between) : d.value ≠ l.value := by
  obtain ⟨e, he, hvalue⟩ := (tracked_of_run hrun).value_known hd
  rw [addsIn_append, List.map_append, List.nodup_append] at howners
  have hlater : l ∈ addsIn (snapshot :: between) := by
    have hsplit : addsIn ([snapshot] ++ between) = addsIn [snapshot] ++ addsIn between :=
      addsIn_append
    rw [List.singleton_append] at hsplit
    rw [hsplit]
    exact List.mem_append_right _ hl
  rw [← hvalue]
  exact howners.2.2 e.value (List.mem_map_of_mem he) l.value (List.mem_map_of_mem hlater)

/-- A registered lease with a failed renewal behind it is in the hands of the
loop. -/
theorem lost_of_failedIn (hrun : Run step State.built trace s)
    (howners : ((addsIn trace).map Lease.value).Nodup) :
    ∀ l ∈ s.process.leases, FailedIn trace l → s.pc.lost.any l.sameOwner = true := by
  refine hrun.history_invariant
    (P := fun trace s => ∀ l ∈ s.process.leases, FailedIn trace l →
      s.pc.lost.any l.sameOwner = true) (by simp [State.built]) ?_
  intro earlier τ hinitial hearlier hstep ih l hl hfailed
  have htracked := tracked_of_run hearlier
  cases moves_of_step hstep with
  | waits inp haction hpc hpc' hprocess =>
      rw [hprocess] at hl
      have hlost := ih l hl ((failedIn_snoc_of_none (renewal?_of_not_inPass hpc)).mp hfailed)
      rw [(LoopPc.empty_of_not_inPass hpc).2.2] at hlost
      cases hlost
  | snapshot inp haction hpc hdue heq =>
      rw [heq] at hl
      have hlost := ih l hl ((failedIn_snoc_of_none (renewal?_of_not_inPass hpc)).mp hfailed)
      rw [(LoopPc.empty_of_not_inPass hpc).2.2] at hlost
      cases hlost
  | renewal inp due lease todo lost haction hpc heq =>
      rw [heq] at hl
      rw [heq, LoopPc.lost_renew]
      rcases (failedIn_snoc_renewing hpc haction).mp hfailed with hbefore | ⟨hresult, howner⟩
      · have hlost := ih l hl hbefore
        rw [hpc] at hlost
        have hany : lost.any l.sameOwner = true := hlost
        split
        · exact hany
        · rw [List.any_append, hany, Bool.true_or]
      · rw [hresult]
        simp [howner]
  | recheck inp due lost haction hpc hpc' hprocess =>
      -- The lease would have been dropped.
      obtain ⟨hdueKeys, hlostDue⟩ := htracked.judging hpc
      rw [hprocess, Process.judgeLeases_leases htracked.keys hdueKeys] at hl
      obtain ⟨l₀, hl₀, hverdict⟩ := List.mem_filterMap.mp hl
      obtain ⟨t, rfl⟩ := Lease.verdict_some hverdict
      have hlost := ih l₀ hl₀ ((failedIn_snoc_of_none (renewal?_of_judging hpc)).mp hfailed)
      rw [hpc] at hlost
      change lost.any l₀.sameOwner = true at hlost
      obtain ⟨d, hd, howner⟩ := List.any_eq_true.mp hlost
      rw [Lease.verdict_of_lost (hlostDue d hd) howner hlost] at hverdict
      cases hverdict
  | other haction hpc hmem hkeys =>
      have hbefore := (failedIn_snoc_of_none (renewal?_of_other haction)).mp hfailed
      rcases hmem l hl with hold | hnew
      · have hlost := ih l hold hbefore
        rcases hpc with hsame | ⟨hout, -⟩
        · rw [hsame]
          exact hlost
        · rw [(LoopPc.empty_of_not_inPass hout).2.2] at hlost
          cases hlost
      · -- The owner of a new lease has never been renewed.
        exfalso
        obtain ⟨e, he, hvalue⟩ := htracked.failed_known l hbefore
        obtain ⟨rest, hrest⟩ := hinitial
        rw [← hrest, addsIn_append, addsIn_snoc_of_added hnew, List.map_append,
          List.map_append] at howners
        have hprefix := (List.nodup_append.mp howners).1
        exact (List.nodup_append.mp hprefix).2.2 e.value (List.mem_map_of_mem he) l.value
          (List.mem_map_of_mem List.mem_cons_self) hvalue

/-! ## The verdicts of a pass -/

/-- What the re-check does with the leases registered at that moment. -/
structure Judged (snapshot : RenewerTransition) (between : List RenewerTransition)
    (recheck : RenewerTransition) : Prop where
  /-- A source is canceled for a failed renewal of its own lease, which has been
  the registered one all the time. -/
  canceled : ∀ x, recheck.post.process.canceled x = true ↔
    recheck.pre.process.canceled x = true ∨
      ∃ l ∈ recheck.pre.process.leases, l.source = x ∧ RegisteredSince snapshot between l ∧
        FailedIn between l
  failed : ∀ l ∈ recheck.pre.process.leases, FailedIn between l →
    recheck.post.process.canceled l.source = true ∧
      ∀ l' ∈ recheck.post.process.leases, l'.key ≠ l.key
  /-- A lease that was not there at the snapshot stays as it is. -/
  replaced : ∀ l ∈ recheck.pre.process.leases, l ∉ snapshot.pre.process.leases →
    l ∈ recheck.post.process.leases
  kept : ∀ l ∈ recheck.pre.process.leases, ¬ FailedIn between l →
    ∃ t, { l with nextRenewAt := t } ∈ recheck.post.process.leases
  /-- No lease comes back, and only a lease of the snapshot is put off. -/
  origin : ∀ l' ∈ recheck.post.process.leases, l' ∈ recheck.pre.process.leases ∨
    ∃ l ∈ recheck.pre.process.leases, RegisteredSince snapshot between l ∧
      ¬ FailedIn between l ∧ ∃ t, l' = { l with nextRenewAt := t }

theorem judged_of_pass {first between : List RenewerTransition}
    {snapshot : RenewerTransition} {inp : Input} {due lost : List Lease}
    (hfirst : Run step State.built first snapshot.pre)
    (htracked : Tracked (first ++ snapshot :: between) τ.pre)
    (hpass : Pass snapshot between τ.pre)
    (howners : ((addsIn (first ++ snapshot :: between)).map Lease.value).Nodup)
    (hpc : τ.pre.pc = .judging due lost)
    (hprocess : τ.post.process = τ.pre.process.judgeLeases inp.steadyMs due lost) :
    Judged snapshot between τ := by
  have hkeys := htracked.keys
  obtain ⟨hdueKeys, hlostDue⟩ := htracked.judging hpc
  have hregistered : ∀ d ∈ due, d ∈ snapshot.pre.process.leases := by
    have h := hpass.due_registered
    rw [hpc] at h
    exact h
  have hfailed : ∀ l : Lease, lost.any l.sameOwner = true ↔ FailedIn between l := by
    have h := hpass.failed
    rw [hpc] at h
    exact h
  -- A lease of the snapshot that is still registered has not been replaced.
  have hsince : ∀ l ∈ τ.pre.process.leases, ∀ d ∈ due, l.sameOwner d = true →
      RegisteredSince snapshot between l := by
    intro l hl d hd howner
    refine (hpass.since l hl).resolve_right fun hadded => ?_
    exact value_ne_of_added hfirst howners (hregistered d hd) hadded
      (Lease.sameOwner_iff.mp howner).2
  have hlost : ∀ l, FailedIn between l → ∃ d ∈ due, l.sameOwner d = true := by
    intro l hl
    obtain ⟨d, hd, howner⟩ := List.any_eq_true.mp ((hfailed l).mpr hl)
    exact ⟨d, hlostDue d hd, howner⟩
  have hleases : τ.post.process.leases =
      τ.pre.process.leases.filterMap (Lease.verdict inp.steadyMs due lost) := by
    rw [hprocess]
    exact Process.judgeLeases_leases hkeys hdueKeys
  have hcanceled : ∀ x, τ.post.process.canceled x = true ↔
      τ.pre.process.canceled x = true ∨
        ∃ l ∈ τ.pre.process.leases, l.source = x ∧ RegisteredSince snapshot between l ∧
          FailedIn between l := by
    intro x
    rw [hprocess, Process.judgeLeases_canceled hkeys]
    refine or_congr_right ⟨?_, ?_⟩
    · rintro ⟨l, hl, hsource, ⟨d, hd, howner⟩, hany⟩
      exact ⟨l, hl, hsource, hsince l hl d hd howner, (hfailed l).mp hany⟩
    · rintro ⟨l, hl, hsource, -, hl'⟩
      exact ⟨l, hl, hsource, hlost l hl', (hfailed l).mpr hl'⟩
  refine ⟨hcanceled, fun l hl hl' => ⟨?_, fun l' hmem hkey => ?_⟩, fun l hl hnew => ?_,
    fun l hl hl' => ?_, fun l' hmem => ?_⟩
  · obtain ⟨d, hd, howner⟩ := hlost l hl'
    exact (hcanceled l.source).mpr (.inr ⟨l, hl, rfl, hsince l hl d hd howner, hl'⟩)
  · rw [hleases] at hmem
    obtain ⟨l₀, hl₀, hverdict⟩ := List.mem_filterMap.mp hmem
    have hsame : l₀ = l := List.inj_on_of_nodup_map hkeys hl₀ hl
      ((Lease.key_of_verdict hverdict).symm.trans hkey)
    obtain ⟨d, hd, howner⟩ := hlost l hl'
    rw [hsame, Lease.verdict_of_lost hd howner ((hfailed l).mpr hl')] at hverdict
    cases hverdict
  · rw [hleases]
    refine List.mem_filterMap.mpr ⟨l, hl, Lease.verdict_of_not_due fun d hd howner => ?_⟩
    exact hnew (hsince l hl d hd howner).1
  · obtain ⟨t, ht⟩ := Lease.verdict_of_not_lost fun hany => hl' ((hfailed l).mp hany)
    rw [hleases]
    exact ⟨t, List.mem_filterMap.mpr ⟨l, hl, ht⟩⟩
  · rw [hleases] at hmem
    obtain ⟨l, hl, hverdict⟩ := List.mem_filterMap.mp hmem
    by_cases hdue : ∃ d ∈ due, l.sameOwner d = true
    · obtain ⟨d, hd, howner⟩ := hdue
      refine .inr ⟨l, hl, hsince l hl d hd howner, fun hl' => ?_, Lease.verdict_some hverdict⟩
      rw [Lease.verdict_of_lost hd howner ((hfailed l).mpr hl')] at hverdict
      cases hverdict
    · left
      rw [Lease.verdict_of_not_due fun d hd howner => hdue ⟨d, hd, howner⟩] at hverdict
      rw [← Option.some.inj hverdict]
      exact hl

/-- For every run of the renewer in which no two calls of `add` use the same
owner value: the loop touches the leases and the sources only in the re-check
that ends a pass, and there it judges the leases of its own snapshot by the
renewals of this pass; and whenever the loop waits, no renewal of a registered
lease has ever failed. -/
theorem renewal_judges_own_lease (trace : List RenewerTransition) (s : State)
    (hrun : Run step State.built trace s)
    (howners : ((addsIn trace).map Lease.value).Nodup) :
    (∀ before τ after inp, trace = before ++ τ :: after → τ.action = .loop inp →
      (¬ EndsPass τ → τ.post.process = τ.pre.process) ∧
      (EndsPass τ → ∃ first snapshot between, before = first ++ snapshot :: between ∧
        BeginsPass snapshot ∧
        (∀ ρ ∈ between, ρ.pre.pc.inPass = true ∧ ρ.post.pc.inPass = true) ∧
        Judged snapshot between τ)) ∧
    (s.pc.inPass = false → ∀ l ∈ s.process.leases, ¬ FailedIn trace l) := by
  constructor
  · rintro before τ after inp rfl haction
    obtain ⟨hbefore, hstep, -⟩ := hrun.split
    have hmoves := moves_of_step hstep
    constructor
    · intro hends
      cases hmoves with
      | waits inp' haction' hpc hpc' hprocess => exact hprocess
      | snapshot inp' haction' hpc hdue heq => rw [heq]
      | renewal inp' due lease todo lost haction' hpc heq => rw [heq]
      | recheck inp' due lost haction' hpc hpc' hprocess =>
          exact absurd ⟨by rw [hpc]; rfl, hpc'⟩ hends
      | other haction' hpc hmem hkeys => exact absurd haction (haction' inp)
    · rintro ⟨hpre, hpost⟩
      cases hmoves with
      | waits inp' haction' hpc hpc' hprocess => simp [hpc] at hpre
      | snapshot inp' haction' hpc hdue heq => simp [hpc] at hpre
      | renewal inp' due lease todo lost haction' hpc heq => simp [heq] at hpost
      | other haction' hpc hmem hkeys => exact absurd haction (haction' inp)
      | recheck inp' due lost haction' hpc hpc' hprocess =>
          obtain ⟨first, snapshot, between, rfl, hpass⟩ := pass_of_run hbefore hpre
          refine ⟨first, snapshot, between, rfl, hpass.begins, hpass.inside, ?_⟩
          refine judged_of_pass hbefore.split.1 (tracked_of_run hbefore) hpass ?_ hpc hprocess
          rw [addsIn_append, List.map_append] at howners
          exact (List.nodup_append.mp howners).1
  · intro hpc l hl hfailed
    have hlost := lost_of_failedIn hrun howners l hl hfailed
    rw [(LoopPc.empty_of_not_inPass hpc).2.2] at hlost
    cases hlost

/-- Two leases are due.  While the mutex is released the execution `b` takes over
the key of `a`; then both renewals fail. -/
def replacedRun : List Action :=
  [.add 0 "task:1" "a" 3 1, .add 0 "task:2" "c" 3 3, .start, .loop {},
    .loop { steadyMs := 1000, timedOut := true,
            due := [⟨"task:1", "a", 3, 1000, 1⟩, ⟨"task:2", "c", 3, 1000, 3⟩] },
    .add 1000 "task:1" "b" 3 2, .loop { renewed := false }, .loop { renewed := false },
    .loop { steadyMs := 1001 }]

theorem renewal_judges_own_lease_replaced :
    ∃ trace s, Run step State.built trace s ∧
      trace.filterMap renewal? =
        [(⟨"task:1", "a", 3, 1000, 1⟩, false), (⟨"task:2", "c", 3, 1000, 3⟩, false)] ∧
      s.process.leases = [⟨"task:1", "b", 3, 2000, 2⟩] ∧
      [1, 2, 3].map s.process.canceled = [false, false, true] ∧
      ∀ l ∈ s.process.leases, ¬ FailedIn trace l := by
  obtain ⟨s, hrun, hs⟩ : ∃ s, Run step State.built
      (executeTrace step State.built replacedRun) s ∧
      decide (s.pc.inPass = false ∧ s.process.leases = [⟨"task:1", "b", 3, 2000, 2⟩] ∧
        [1, 2, 3].map s.process.canceled = [false, false, true]) = true :=
    exists_run_of_execute (by decide +kernel)
  obtain ⟨hpc, hleases, hcanceled⟩ := of_decide_eq_true hs
  have howners : ((addsIn (executeTrace step State.built replacedRun)).map Lease.value).Nodup := by
    decide +kernel
  exact ⟨_, s, hrun, by decide +kernel, hleases, hcanceled,
    (renewal_judges_own_lease _ s hrun howners).2 hpc⟩

end LockRenewer
end Corpcron
