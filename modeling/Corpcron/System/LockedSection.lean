import Corpcron.System.LockHolders
import Corpcron.System.TableInvariant

/-!
# The locked section of a dispatch

After its `lock` has succeeded, a dispatch collects a lease, a registry entry
and a claim, one after the other; the closure takes all of them over when it is
enqueued, and every way out gives them back before the `unlock`.
`Pc.locked?` says which dispatch a thread carries through this section and what
it has collected by now.

`SectionStep` is all that can happen inside the section: each call that
collects or gives back something is a case of its own, and the other steps
change nothing.  `sectionStep_of_locked` shows that the threads keep to it, and
`inside_step` follows a dispatch through one step of the deployment, whichever
thread carries it.
-/

namespace Corpcron

open Lib

/-! ## Holdings -/

/-- What a dispatch holds besides its lock. -/
structure Holdings where
  lease : Bool
  registered : Bool
  claimed : Bool
deriving DecidableEq

namespace Holdings

def nothing : Holdings := ⟨false, false, false⟩

def all : Holdings := ⟨true, true, true⟩

end Holdings

/-- What a dispatch holds before the call of a stage; `none` before it has the
lock. -/
def DispatchStage.holdings? : DispatchStage → Option Holdings
  | .locking => none
  | .addingLease => some .nothing
  | .registering => some ⟨true, false, false⟩
  | .claiming => some ⟨true, true, false⟩
  | .checking => some .all
  | .enqueueing => some .all
  | .unregistering claimed => some ⟨true, true, claimed⟩
  | .removingLease claimed => some ⟨true, false, claimed⟩
  | .rollingBack => some ⟨false, false, true⟩
  | .unlocking => some .nothing

/-- What the closure holds before the call of a stage; `none` after its
`unlock`. -/
def ExecutionStage.holdings? : ExecutionStage → Option Holdings
  | .unregistering => some ⟨true, true, false⟩
  | .removingLease => some ⟨true, false, false⟩
  | .unlocking => some .nothing
  | .finished => none
  | _ => some .all

/-- The dispatch a thread carries through the locked section, with what it
holds. -/
def Pc.locked? : Pc → Option (Dispatch × Holdings)
  | .scheduler (.dispatching _ d stage) => stage.holdings?.map (d, ·)
  | .execution d stage => stage.holdings?.map (d, ·)
  | _ => none

variable {env : Env} {s s' : State} {a : Action} {tid p : Nat} {inp : Input} {pc : Pc}
  {d : Dispatch} {held : Holdings} {pf : Platform} {cfg : NodeConfig} {reply : Reply}
  {nodeId : String} {call : LocalAccess}

/-- Inside the section a thread holds the lock of its task. -/
theorem Pc.holds_of_locked {recovery : Bool} (h : pc.locked? = some (d, held)) :
    pc.holds recovery nodeId = some ("lock:" ++ lockKey d.task.id, d.lockValue nodeId) := by
  cases pc with
  | scheduler pc =>
      cases pc with
      | dispatching pass d' stage =>
          cases stage <;> simp [Pc.locked?, DispatchStage.holdings?] at h <;>
            rw [← h.1] <;> rfl
      | _ => simp [Pc.locked?] at h
  | execution d' stage =>
      cases stage <;> simp [Pc.locked?, ExecutionStage.holdings?] at h <;> rw [← h.1] <;> rfl
  | _ => simp [Pc.locked?] at h

/-! ## Steps inside the section -/

/-- Calls that change neither the table nor a lock nor a process. -/
def Access.quiet : Access → Bool
  | .idle => true
  | .db (.addHistory _) => true
  | .process (.cancellationRequested _) => true
  | .process (.executionCanceled _) => true
  | .process .shutdownRequested => true
  | _ => false

theorem Access.exec_procs_of_quiet {access : Access} (h : access.quiet = true) (fault : Bool)
    (steadyMs p q : Nat) (s : Stores) : (access.exec fault steadyMs p s).1.procs q = s.procs q := by
  rw [Access.exec_procs]
  cases access with
  | process call =>
      have hsame : (call.exec steadyMs (s.procs p)).1 = s.procs p := by
        cases call <;> simp [Access.quiet] at h <;> rfl
      dsimp only
      split
      · rename_i hq
        rw [hsame, hq]
      · rfl
  | _ => rfl

/-- A step inside the section of `d`: the call, what is held before it and
afterwards, `none` when the section has been left. -/
inductive SectionStep (cfg : NodeConfig) (d : Dispatch) (inp : Input) (reply : Reply) :
    Access → Holdings → Option Holdings → Prop
  | addLease :
      SectionStep cfg d inp reply
        (.process (.addLease (lockKey d.task.id) (d.lockValue cfg.nodeId) taskLockTtlSec d.source))
        .nothing (some ⟨true, false, false⟩)
  | register :
      SectionStep cfg d inp reply
        (.process (.registerTask d.task.id d.executionId d.source))
        ⟨true, false, false⟩ (some ⟨true, true, false⟩)
  | claim :
      SectionStep cfg d inp reply
        (.db (.update (.claimTaskExecution d.task.id d.executionId cfg.nodeId taskScheduled
          d.task.nextRunAt)))
        ⟨true, true, false⟩ (some ⟨true, true, reply.ok⟩)
  | work {access : Access} (hquiet : access.quiet = true) :
      SectionStep cfg d inp reply access .all (some .all)
  | throw {access : Access} (hquiet : access.quiet = true) (hthrows : inp.throws = true) :
      SectionStep cfg d inp reply access .all (some ⟨true, true, false⟩)
  | complete (lease registered : Bool) (status : Int) (nextRunAt lastRunAt : Option DateTime)
      (retryCount : Int) :
      SectionStep cfg d inp reply
        (.db (.update (.completeTaskExecution d.task.id d.executionId status nextRunAt lastRunAt
          retryCount)))
        ⟨lease, registered, true⟩ (some ⟨lease, registered, false⟩)
  | unregister (claimed : Bool) :
      SectionStep cfg d inp reply (.process (.unregisterTask d.task.id d.executionId))
        ⟨true, true, claimed⟩ (some ⟨true, false, claimed⟩)
  | removeLease (claimed : Bool) :
      SectionStep cfg d inp reply
        (.process (.removeLease (lockKey d.task.id) (d.lockValue cfg.nodeId)))
        ⟨true, false, claimed⟩ (some ⟨false, false, claimed⟩)
  | unlock :
      SectionStep cfg d inp reply
        (.redis (.unlock (lockKey d.task.id) (d.lockValue cfg.nodeId))) .nothing none

/-- What is held is given back by the call that is there for it, except that an
exception skips the completion; the section is left with nothing but the lock,
by the `unlock`. -/
theorem SectionStep.kept {access : Access} {left : Option Holdings}
    (h : SectionStep cfg d inp reply access held left) :
    (left = none ∧ held = .nothing ∧
        access = .redis (.unlock (lockKey d.task.id) (d.lockValue cfg.nodeId))) ∨
      ∃ held', left = some held' ∧
        (held.lease = true → held'.lease = true ∨
          access = .process (.removeLease (lockKey d.task.id) (d.lockValue cfg.nodeId))) ∧
        (held.registered = true → held'.registered = true ∨
          access = .process (.unregisterTask d.task.id d.executionId)) ∧
        (held.claimed = true → held'.claimed = true ∨
          (∃ status nextRunAt lastRunAt retryCount, access = .db (.update
            (.completeTaskExecution d.task.id d.executionId status nextRunAt lastRunAt
              retryCount))) ∨
          inp.throws = true) := by
  cases h with
  | unlock => exact Or.inl ⟨rfl, rfl, rfl⟩
  | addLease => exact Or.inr ⟨_, rfl, by simp [Holdings.nothing]⟩
  | register => exact Or.inr ⟨_, rfl, by simp⟩
  | claim => exact Or.inr ⟨_, rfl, by simp⟩
  | work hquiet => exact Or.inr ⟨_, rfl, Or.inl, Or.inl, Or.inl⟩
  | throw hquiet hthrows => exact Or.inr ⟨_, rfl, by simp [hthrows]⟩
  | complete lease registered =>
      exact Or.inr ⟨_, rfl, Or.inl, Or.inl, fun _ => Or.inr (Or.inl ⟨_, _, _, _, rfl⟩)⟩
  | unregister claimed => exact Or.inr ⟨_, rfl, Or.inl, fun _ => Or.inr rfl, Or.inl⟩
  | removeLease claimed => exact Or.inr ⟨_, rfl, fun _ => Or.inr rfl, Or.inl, Or.inl⟩

/-- A step of the closure that catches no exception. -/
theorem sectionStep_orUnwind {access : Access} {stage : ExecutionStage}
    (hquiet : access.quiet = true) (hstage : stage.holdings? = some .all) :
    SectionStep cfg d inp reply access .all (stage.orUnwind inp).holdings? := by
  unfold ExecutionStage.orUnwind
  split
  · rename_i hthrows
    exact .throw hquiet hthrows
  · rw [hstage]
    exact .work hquiet

theorem sectionStep_of_execution (pf : Platform) (cfg : NodeConfig) (d : Dispatch) (inp : Input)
    (reply : Reply) {stage : ExecutionStage} (h : stage.holdings? = some held) :
    SectionStep cfg d inp reply (stage.access pf cfg d) held
      (stage.next pf cfg d inp reply).holdings? := by
  cases stage <;> cases h
  case queued => exact sectionStep_orUnwind rfl rfl
  case checking startMs =>
    simp only [ExecutionStage.next]
    split
    · exact sectionStep_orUnwind rfl rfl
    · exact .work rfl
  case calling startMs => exact sectionStep_orUnwind rfl rfl
  case recording startMs endMs outcome => exact sectionStep_orUnwind rfl rfl
  case choosing endMs outcome => exact sectionStep_orUnwind rfl rfl
  case completing endTime next => exact .complete true true _ _ _ _
  case unregistering => exact .unregister false
  case removingLease => exact .removeLease false
  case unlocking => exact .unlock

theorem sectionStep_of_dispatching (cfg : NodeConfig) (pass : Pass) (d : Dispatch) (inp : Input)
    (reply : Reply) {stage : DispatchStage} (h : stage.holdings? = some held)
    (hspawn : (SchedulerPc.dispatching pass d stage).spawned inp = none) :
    ∃ left, SectionStep cfg d inp reply (stage.access cfg d) held left ∧
      (Pc.scheduler (stage.next pass d inp reply)).locked? = left.map (d, ·) := by
  cases stage <;> cases h
  case addingLease => exact ⟨_, .addLease, rfl⟩
  case registering => exact ⟨_, .register, rfl⟩
  case claiming =>
    refine ⟨_, .claim, ?_⟩
    cases hok : reply.ok <;> simp only [DispatchStage.next, hok] <;> rfl
  case checking =>
    refine ⟨_, .work rfl, ?_⟩
    cases hok : reply.ok <;> simp only [DispatchStage.next, hok] <;> rfl
  case enqueueing =>
    refine ⟨_, .work rfl, ?_⟩
    cases henqueued : inp.enqueued with
    | true => simp [SchedulerPc.spawned, henqueued] at hspawn
    | false =>
        simp only [DispatchStage.next, henqueued]
        rfl
  case unregistering claimed => exact ⟨_, .unregister claimed, rfl⟩
  case removingLease claimed =>
    refine ⟨_, .removeLease claimed, ?_⟩
    cases claimed <;> rfl
  case rollingBack => exact ⟨_, .complete false false _ _ _ _, rfl⟩
  case unlocking => exact ⟨_, .unlock, rfl⟩

/-- What a thread inside the section does: it enqueues its closure, or makes
one of these steps. -/
theorem sectionStep_of_locked (pf : Platform) (cfg : NodeConfig) (inp : Input) (reply : Reply)
    (h : pc.locked? = some (d, held)) :
    (pc.spawned inp = some d ∧ held = .all) ∨
      (pc.spawned inp = none ∧ ∃ left, SectionStep cfg d inp reply (pc.access pf cfg) held left ∧
        (pc.next pf cfg inp reply).locked? = left.map (d, ·)) := by
  cases pc with
  | scheduler pc =>
      cases pc with
      | dispatching pass d' stage =>
          obtain ⟨_, hheld, heq⟩ := Option.map_eq_some_iff.mp h
          cases heq
          cases hspawn : (Pc.scheduler (.dispatching pass d stage)).spawned inp with
          | none =>
              exact Or.inr ⟨rfl, sectionStep_of_dispatching cfg pass d inp reply hheld hspawn⟩
          | some d' =>
              left
              obtain ⟨pass', hpc, -⟩ := Pc.spawned_eq_some hspawn
              cases hpc
              cases hheld
              exact ⟨rfl, rfl⟩
      | _ => simp [Pc.locked?] at h
  | execution d' stage =>
      obtain ⟨_, hheld, heq⟩ := Option.map_eq_some_iff.mp h
      cases heq
      exact Or.inr ⟨rfl, _, sectionStep_of_execution pf cfg d inp reply hheld, rfl⟩
  | _ => simp [Pc.locked?] at h

/-- Outside recovery only threads inside the section hold a lock. -/
theorem Pc.locked_of_holds {lock : String × String} (h : pc.holds false nodeId = some lock) :
    ∃ d held, pc.locked? = some (d, held) := by
  cases pc with
  | scheduler pc =>
      cases pc with
      | recovery rest task stage => cases stage <;> simp [Pc.holds] at h
      | dispatching pass d stage => cases stage <;> first | exact ⟨d, _, rfl⟩ | simp [Pc.holds] at h
      | _ => simp [Pc.holds] at h
  | execution d stage => cases stage <;> first | exact ⟨d, _, rfl⟩ | simp [Pc.holds] at h
  | _ => simp [Pc.holds] at h

/-- How a thread comes to be inside the section after its step: by such a step,
or by its `lock`. -/
theorem sectionStep_of_next (h : (pc.next pf cfg inp reply).locked? = some (d, held)) :
    (∃ held₀, pc.locked? = some (d, held₀) ∧
        SectionStep cfg d inp reply (pc.access pf cfg) held₀ (some held)) ∨
      held = .nothing := by
  have hholds : (pc.next pf cfg inp reply).holds false cfg.nodeId = some _ :=
    Pc.holds_of_locked h
  rcases Pc.holds_next hholds with ⟨hbefore, hspawn, -⟩ | ⟨hok, key, ttl, -, haccess⟩
  · left
    obtain ⟨d₀, held₀, hlocked⟩ := Pc.locked_of_holds hbefore
    rcases sectionStep_of_locked pf cfg inp reply hlocked with
      ⟨hspawned, -⟩ | ⟨-, left, hsection, hnext⟩
    · rw [hspawn] at hspawned
      cases hspawned
    · rw [h] at hnext
      obtain ⟨_, rfl, heq⟩ := Option.map_eq_some_iff.mp hnext.symm
      cases heq
      exact ⟨held₀, hlocked, hsection⟩
  · right
    cases pc with
    | scheduler pc =>
        cases pc with
        | recovery rest task stage =>
            cases stage <;> simp [Pc.access, SchedulerPc.access] at haccess
            simp [Pc.next, SchedulerPc.next, hok, Pc.locked?] at h
        | dispatching pass d' stage =>
            cases stage <;> simp [Pc.access, SchedulerPc.access, DispatchStage.access] at haccess
            simp only [Pc.next, SchedulerPc.next, DispatchStage.next, hok, if_true] at h
            cases h
            rfl
        | _ => simp [Pc.access, SchedulerPc.access] at haccess
    | execution d' stage => cases stage <;> simp [Pc.access, ExecutionStage.access] at haccess
    | handler pc => cases pc <;> simp [Pc.access, HandlerPc.access] at haccess
    | renewer pc => cases pc <;> simp [Pc.access, RenewerPc.access] at haccess
    | dead => simp [Pc.access] at haccess

/-- Leases and registry entries are collected and given back inside the section
only. -/
theorem Pc.locked_of_access (h : pc.access pf cfg = .process call)
    (hcall : (∃ key value ttlSec source, call = .addLease key value ttlSec source) ∨
      (∃ taskId executionId source, call = .registerTask taskId executionId source) ∨
      ∃ taskId executionId, call = .unregisterTask taskId executionId) :
    ∃ d held, pc.locked? = some (d, held) := by
  cases pc with
  | scheduler pc =>
      cases pc with
      | dispatching pass d stage =>
          cases stage <;> first
            | exact ⟨d, _, rfl⟩
            | simp [Pc.access, SchedulerPc.access, DispatchStage.access] at h
      | recovery rest task stage => cases stage <;> simp [Pc.access, SchedulerPc.access] at h
      | _ =>
          simp only [Pc.access, SchedulerPc.access, reduceCtorEq, Access.process.injEq] at h <;>
            subst h <;> simp at hcall
  | execution d stage =>
      cases stage <;> first
        | exact ⟨d, _, rfl⟩
        | simp [Pc.access, ExecutionStage.access] at h
  | handler pc =>
      cases pc <;> simp [Pc.access, HandlerPc.access] at h
      subst h
      simp at hcall
  | renewer pc =>
      cases pc <;> simp [Pc.access, RenewerPc.access] at h <;> subst h <;> simp at hcall
  | dead => simp [Pc.access] at h

/-- So a thread that makes such a call makes the step of its section. -/
theorem sectionStep_of_call (inp : Input) (reply : Reply) (h : pc.access pf cfg = .process call)
    (hcall : (∃ key value ttlSec source, call = .addLease key value ttlSec source) ∨
      (∃ taskId executionId source, call = .registerTask taskId executionId source) ∨
      ∃ taskId executionId, call = .unregisterTask taskId executionId) :
    ∃ d held left, pc.locked? = some (d, held) ∧
      SectionStep cfg d inp reply (.process call) held left ∧
      (pc.next pf cfg inp reply).locked? = left.map (d, ·) := by
  obtain ⟨d, held, hlocked⟩ := Pc.locked_of_access h hcall
  rcases sectionStep_of_locked pf cfg inp reply hlocked with
    ⟨hspawn, -⟩ | ⟨-, left, hsection, hnext⟩
  · -- A thread that enqueues its dispatch makes no call.
    have hidle : pc.access pf cfg = .idle := Pc.access_of_spawned hspawn
    rw [h] at hidle
    cases hidle
  · rw [h] at hsection
    exact ⟨d, held, left, hlocked, hsection, hnext⟩

/-! ## Following a dispatch -/

/-- A thread of process `p` carries `d` through its section. -/
def Inside (p : Nat) (d : Dispatch) (held : Holdings) (s : State) : Prop :=
  ∃ tid pc, s.threads tid = some ⟨p, pc⟩ ∧ pc.locked? = some (d, held)

/-- The step of a thread inside a section. -/
theorem section_of_run (h : step env s (.run tid inp) = some s')
    (hth : s.threads tid = some ⟨p, pc⟩) (hlocked : pc.locked? = some (d, held)) :
    (pc.spawned inp = some d ∧ Inside p d held s') ∨
      ∃ left, SectionStep (env.node p) d inp (Thread.exec env inp s.stores ⟨p, pc⟩).2
          (Thread.access env ⟨p, pc⟩) held left ∧
        ∀ held', left = some held' → Inside p d held' s' := by
  rcases sectionStep_of_locked env.platform (env.node p) inp
      (Thread.exec env inp s.stores ⟨p, pc⟩).2 hlocked with
    ⟨hspawn, rfl⟩ | ⟨-, left, hsection, hnext⟩
  · exact Or.inl ⟨hspawn, inp.fresh, _, queued_of_run h hth hspawn, rfl⟩
  · right
    refine ⟨left, hsection, ?_⟩
    rintro held' rfl
    exact ⟨tid, _, thread_of_run h hth, hnext⟩

/-- What becomes of a dispatch inside its section in a step of the deployment. -/
theorem inside_step (h : step env s a = some s') (hinside : Inside p d held s) :
    Inside p d held s' ∨ a = .crash p ∨
      ∃ tid inp pc left, a = .run tid inp ∧ s.threads tid = some ⟨p, pc⟩ ∧
        SectionStep (env.node p) d inp (Thread.exec env inp s.stores ⟨p, pc⟩).2
          (Thread.access env ⟨p, pc⟩) held left ∧
        ∀ held', left = some held' → Inside p d held' s' := by
  obtain ⟨tid, pc, hth, hlocked⟩ := hinside
  rcases thread_step h hth with ⟨hstays, -⟩ | ⟨inp, rfl, -⟩ | ⟨q, rfl, hdies⟩
  · exact Or.inl ⟨tid, pc, hstays, hlocked⟩
  · rcases section_of_run h hth hlocked with ⟨-, hspawned⟩ | ⟨left, hsection, hleft⟩
    · exact Or.inl hspawned
    · exact Or.inr (Or.inr ⟨tid, inp, pc, left, rfl, hth, hsection, hleft⟩)
  · by_cases hq : q = p
    · exact Or.inr (Or.inl (by rw [hq]))
    · left
      refine ⟨tid, pc, ?_, hlocked⟩
      simp only [step, Option.some.injEq] at h
      subst h
      simp [hth, killThread, Ne.symm hq]

/-- What the steps inside the section keep, a dispatch keeps until its process
crashes. -/
theorem inside_kept {P : Dispatch → Holdings → Prop} (h : step env s a = some s')
    (hcrash : a ≠ .crash p)
    (hkeep : ∀ tid inp pc d held left, a = .run tid inp → s.threads tid = some ⟨p, pc⟩ →
      SectionStep (env.node p) d inp (Thread.exec env inp s.stores ⟨p, pc⟩).2
        (Thread.access env ⟨p, pc⟩) held left → P d held → ∃ held', left = some held' ∧ P d held')
    (hinside : ∃ d held, Inside p d held s ∧ P d held) :
    ∃ d held, Inside p d held s' ∧ P d held := by
  obtain ⟨d, held, hinside, hP⟩ := hinside
  rcases inside_step h hinside with
    hstays | hcrash' | ⟨tid, inp, pc, left, haction, hth, hsection, hleft⟩
  · exact ⟨d, held, hstays, hP⟩
  · exact absurd hcrash' hcrash
  · obtain ⟨held', hsome, hP'⟩ := hkeep tid inp pc d held left haction hth hsection hP
    exact ⟨d, held', hleft held' hsome, hP'⟩

end Corpcron
