import Corpcron.System.Cancellation
import Corpcron.System.MissingWorker

/-!
# What a scheduler leaves behind

A lock in Redis, a lease of the renewer and a registry entry are useful only
while the dispatch they belong to is under way; left behind, they block the task
until they expire, or for good.  This module shows that each of them belongs to
a thread that is still inside its locked section, so that none is left when
`stop` has joined the scheduler thread and drained the pool.

The same holds for the rows that the scheduler has claimed, but for one way out
of the section: an exception that the closure does not catch skips the
completion, and the cleanup gives back everything except the row.
-/

namespace Corpcron

open Lib Lib.LockStore

variable {env : Env} {s s' s₀ : State} {a : Action} {τ : SystemTransition}
  {trace : List SystemTransition} {tid p : Nat} {inp : Input} {stmt : Statement} {pc : Pc}
  {d : Dispatch} {k v : String}

/-- The thread of a step makes one call. -/
theorem same_call {tid' : Nat} {inp' : Input} {pc' : Pc} {call call' : LocalAccess}
    (haction : a = .run tid inp) (hth : s.threads tid = some ⟨p, pc⟩)
    (haccess : Thread.access env ⟨p, pc⟩ = .process call) (haction' : a = .run tid' inp')
    (hth' : s.threads tid' = some ⟨p, pc'⟩)
    (haccess' : Thread.access env ⟨p, pc'⟩ = .process call') : call = call' := by
  rw [haction] at haction'
  cases haction'
  rw [hth, Option.some.injEq] at hth'
  cases hth'
  rw [haccess, Access.process.injEq] at haccess'
  exact haccess'

/-! ## Leases -/

/-- A dispatch of process `p` holds this lease. -/
def LeaseOwned (env : Env) (p : Nat) (s : State) (lease : Lease) : Prop :=
  ∃ d held, Inside p d held s ∧ held.lease = true ∧ lease.key = lockKey d.task.id ∧
    lease.value = d.lockValue (env.node p).nodeId

/-- A thread that adds a lease adds that of its dispatch. -/
theorem leaseOwned_of_add {lease : Lease} {ttlSec source : Nat}
    (h : step env s (.run tid inp) = some s') (hth : s.threads tid = some ⟨p, pc⟩)
    (haccess : Thread.access env ⟨p, pc⟩ = .process (.addLease lease.key lease.value ttlSec source)) :
    LeaseOwned env p s' lease := by
  obtain ⟨d, held, left, -, hsection, hnext⟩ := sectionStep_of_call inp
    (Thread.exec env inp s.stores ⟨p, pc⟩).2 haccess (Or.inl ⟨_, _, _, _, rfl⟩)
  generalize hkey : lease.key = key at hsection
  generalize hvalue : lease.value = value at hsection
  cases hsection with
  | addLease => exact ⟨d, _, ⟨tid, _, thread_of_run h hth, hnext⟩, rfl, hkey, hvalue⟩
  | work hquiet => cases hquiet
  | throw hquiet => cases hquiet

/-- A lease keeps its owner while it is not removed. -/
theorem LeaseOwned.kept {lease : Lease} (howned : LeaseOwned env p s lease)
    (h : step env s a = some s') (hcrash : a ≠ .crash p)
    (hremove : ∀ tid inp pc, a = .run tid inp → s.threads tid = some ⟨p, pc⟩ →
      Thread.access env ⟨p, pc⟩ ≠ .process (.removeLease lease.key lease.value)) :
    LeaseOwned env p s' lease := by
  apply inside_kept h hcrash _ howned
  rintro tid inp pc d held left haction hth hsection ⟨hlease, hkey, hvalue⟩
  rcases hsection.kept with ⟨-, rfl, -⟩ | ⟨held', hsome, hkept, -⟩
  · cases hlease
  · rcases hkept hlease with hlease' | hcall
    · exact ⟨held', hsome, hlease', hkey, hvalue⟩
    · rw [← hkey, ← hvalue] at hcall
      exact absurd hcall (hremove tid inp pc haction hth)

/-- Every lease of a process belongs to one of its dispatches. -/
theorem leases_owned (hrun : Run (step env) s₀ trace s) (hstart : (s₀.stores.procs p).leases = []) :
    ∀ lease ∈ (s.stores.procs p).leases, LeaseOwned env p s lease := by
  apply hrun.invariant
    (P := fun s => ∀ lease ∈ (s.stores.procs p).leases, LeaseOwned env p s lease)
  · intro lease hlease
    simp [hstart] at hlease
  · intro τ _ hstep hpre lease hlease
    rcases local_step hstep p with
      ⟨tid, inp, pc, call, haction, hth, haccess, hprocs⟩ | ⟨hquiet, hcrash, hsame, -⟩ |
        ⟨-, hempty, -⟩
    · rw [hprocs] at hlease
      rcases LocalAccess.mem_leases hlease with
        ⟨lease₀, hlease₀, hkey, hvalue, hkept⟩ | ⟨ttlSec, source, rfl⟩
      · obtain ⟨d, held, hinside, hheld, hkey', hvalue'⟩ := hpre lease₀ hlease₀
        have howned : LeaseOwned env p τ.pre lease :=
          ⟨d, held, hinside, hheld, hkey ▸ hkey', hvalue ▸ hvalue'⟩
        apply howned.kept hstep (by rw [haction]; simp)
        intro tid' inp' pc' haction' hth' haccess'
        obtain rfl := same_call haction hth haccess haction' hth' haccess'
        exact hkept rfl
      · rw [haction] at hstep
        exact leaseOwned_of_add hstep hth haccess
    · rw [hsame] at hlease
      exact (hpre lease hlease).kept hstep hcrash
        fun tid inp pc haction hth => hquiet tid inp pc _ haction hth
    · rw [hempty] at hlease
      cases hlease

/-! ## Registry entries -/

/-- A dispatch of process `p` has made this registry entry. -/
def EntryOwned (p : Nat) (s : State) (taskId : String) (entry : RegistryEntry) : Prop :=
  ∃ d held, Inside p d held s ∧ held.registered = true ∧ d.task.id = taskId ∧
    entry = ⟨d.executionId, d.source⟩

/-- A thread that registers a task registers its dispatch. -/
theorem entryOwned_of_register {taskId : String} {entry : RegistryEntry}
    (h : step env s (.run tid inp) = some s') (hth : s.threads tid = some ⟨p, pc⟩)
    (haccess : Thread.access env ⟨p, pc⟩ =
      .process (.registerTask taskId entry.executionId entry.source)) :
    EntryOwned p s' taskId entry := by
  obtain ⟨d, held, left, -, hsection, hnext⟩ := sectionStep_of_call inp
    (Thread.exec env inp s.stores ⟨p, pc⟩).2 haccess (Or.inr (Or.inl ⟨_, _, _, rfl⟩))
  obtain ⟨e, source⟩ := entry
  cases hsection with
  | register => exact ⟨d, _, ⟨tid, _, thread_of_run h hth, hnext⟩, rfl, rfl, rfl⟩
  | work hquiet => cases hquiet
  | throw hquiet => cases hquiet

/-- An entry keeps its owner while it is not erased. -/
theorem EntryOwned.kept {taskId : String} {entry : RegistryEntry}
    (howned : EntryOwned p s taskId entry) (h : step env s a = some s') (hcrash : a ≠ .crash p)
    (herase : ∀ tid inp pc, a = .run tid inp → s.threads tid = some ⟨p, pc⟩ →
      Thread.access env ⟨p, pc⟩ ≠ .process (.unregisterTask taskId entry.executionId)) :
    EntryOwned p s' taskId entry := by
  apply inside_kept h hcrash _ howned
  rintro tid inp pc d held left haction hth hsection ⟨hregistered, rfl, rfl⟩
  rcases hsection.kept with ⟨-, rfl, -⟩ | ⟨held', hsome, -, hkept, -⟩
  · cases hregistered
  · rcases hkept hregistered with hregistered' | hcall
    · exact ⟨held', hsome, hregistered', rfl, rfl⟩
    · exact absurd hcall (herase tid inp pc haction hth)

/-- Every registry entry of a process belongs to one of its dispatches. -/
theorem registry_owned (hrun : Run (step env) s₀ trace s)
    (hstart : ∀ taskId, (s₀.stores.procs p).registry taskId = none) :
    ∀ taskId entry, (s.stores.procs p).registry taskId = some entry →
      EntryOwned p s taskId entry := by
  apply hrun.invariant (P := fun s => ∀ taskId entry,
    (s.stores.procs p).registry taskId = some entry → EntryOwned p s taskId entry)
  · intro taskId entry hentry
    simp [hstart] at hentry
  · intro τ _ hstep hpre taskId entry hentry
    rcases local_step hstep p with
      ⟨tid, inp, pc, call, haction, hth, haccess, hprocs⟩ | ⟨hquiet, hcrash, -, hsame⟩ |
        ⟨-, -, hempty⟩
    · rw [hprocs] at hentry
      rcases LocalAccess.registry_eq_some hentry with ⟨hbefore, hkept⟩ | rfl
      · apply (hpre taskId entry hbefore).kept hstep (by rw [haction]; simp)
        intro tid' inp' pc' haction' hth' haccess'
        obtain rfl := same_call haction hth haccess haction' hth' haccess'
        exact hkept rfl
      · rw [haction] at hstep
        exact entryOwned_of_register hstep hth haccess
    · rw [hsame] at hentry
      exact (hpre taskId entry hentry).kept hstep hcrash
        fun tid inp pc haction hth => hquiet tid inp pc _ haction hth
    · rw [hempty] at hentry
      cases hentry

/-! ## Locks -/

theorem lockKey_ne_empty (taskId : String) : lockKey taskId ≠ "" := by
  intro h
  have hlength := congrArg String.length h
  simp [lockKey] at hlength

theorem Dispatch.lockValue_ne_empty (d : Dispatch) (nodeId : String) : d.lockValue nodeId ≠ "" := by
  intro h
  have hlength := congrArg String.length h
  simp [Dispatch.lockValue] at hlength

theorem recoveryLockValue_ne_empty (nodeId : String) (task : TaskMeta) :
    recoveryLockValue nodeId task ≠ "" := by
  intro h
  have hlength := congrArg String.length h
  simp [recoveryLockValue] at hlength

/-- What a thread unlocks has a name, so `unlock` does not refuse it. -/
theorem Pc.unlock_nonempty {pf : Platform} {cfg : NodeConfig} {key value : String}
    (h : pc.access pf cfg = .redis (.unlock key value)) : ¬(key = "" ∨ value = "") := by
  cases pc with
  | scheduler pc =>
      cases pc with
      | recovery rest task stage =>
          cases stage <;> simp [Pc.access, SchedulerPc.access] at h
          obtain ⟨rfl, rfl⟩ := h
          exact not_or.mpr ⟨lockKey_ne_empty _, recoveryLockValue_ne_empty _ _⟩
      | dispatching pass d stage =>
          cases stage <;> simp [Pc.access, SchedulerPc.access, DispatchStage.access] at h
          obtain ⟨rfl, rfl⟩ := h
          exact not_or.mpr ⟨lockKey_ne_empty _, d.lockValue_ne_empty _⟩
      | _ => simp [Pc.access, SchedulerPc.access] at h
  | execution d stage =>
      cases stage <;> simp [Pc.access, ExecutionStage.access] at h
      obtain ⟨rfl, rfl⟩ := h
      exact not_or.mpr ⟨lockKey_ne_empty _, d.lockValue_ne_empty _⟩
  | handler pc => cases pc <;> simp [Pc.access, HandlerPc.access] at h
  | renewer pc => cases pc <;> simp [Pc.access, RenewerPc.access] at h
  | dead => simp [Pc.access] at h

/-- A holder is inside the section of a dispatch or between the calls of a
recovery. -/
theorem Pc.holds_cases {nodeId : String} (h : pc.holds true nodeId = some (k, v)) :
    (∃ d held, pc.locked? = some (d, held) ∧ k = "lock:" ++ lockKey d.task.id ∧
        v = d.lockValue nodeId) ∨
      ∃ rest task stage, pc = .scheduler (.recovery rest task stage) ∧ stage ≠ .locking ∧
        k = "lock:" ++ lockKey task.id ∧ v = recoveryLockValue nodeId task := by
  cases pc with
  | scheduler pc =>
      cases pc with
      | recovery rest task stage =>
          right
          cases stage <;> simp [Pc.holds] at h
          · exact ⟨rest, task, _, rfl, by simp, h.1.symm, h.2.symm⟩
          · exact ⟨rest, task, _, rfl, by simp, h.1.symm, h.2.symm⟩
      | dispatching pass d stage =>
          left
          cases stage <;> simp [Pc.holds] at h <;> exact ⟨d, _, rfl, h.1.symm, h.2.symm⟩
      | _ => simp [Pc.holds] at h
  | execution d stage =>
      left
      cases stage <;> simp [Pc.holds] at h <;> exact ⟨d, _, rfl, h.1.symm, h.2.symm⟩
  | _ => simp [Pc.holds] at h

/-- A holder keeps its lock until it unlocks, or passes it on to the closure. -/
theorem Pc.holds_kept (pf : Platform) {cfg : NodeConfig} (inp : Input) (reply : Reply)
    (h : pc.holds true cfg.nodeId = some (k, v)) :
    (pc.next pf cfg inp reply).holds true cfg.nodeId = some (k, v) ∨
      (∃ d, pc.spawned inp = some d) ∨
      ∃ key, k = "lock:" ++ key ∧ pc.access pf cfg = .redis (.unlock key v) := by
  rcases Pc.holds_cases h with ⟨d, held, hlocked, rfl, rfl⟩ | ⟨rest, task, stage, rfl, hstage, rfl, rfl⟩
  · rcases sectionStep_of_locked pf cfg inp reply hlocked with
      ⟨hspawn, -⟩ | ⟨-, left, hsection, hnext⟩
    · exact Or.inr (Or.inl ⟨d, hspawn⟩)
    · rcases hsection.kept with ⟨-, -, hunlock⟩ | ⟨held', rfl, -⟩
      · exact Or.inr (Or.inr ⟨_, rfl, hunlock⟩)
      · exact Or.inl (Pc.holds_of_locked hnext)
  · cases stage with
    | locking => exact absurd rfl hstage
    | recovering => exact Or.inl rfl
    | unlocking => exact Or.inr (Or.inr ⟨_, rfl, rfl⟩)

/-- A thread whose `lock` has succeeded holds the lock. -/
theorem Pc.holds_of_locked_key {pf : Platform} {cfg : NodeConfig} {reply : Reply}
    {key value : String} {ttl : Nat} (h : pc.access pf cfg = .redis (.lock key value ttl))
    (hok : reply.ok = true) :
    (pc.next pf cfg inp reply).holds true cfg.nodeId = some ("lock:" ++ key, value) := by
  cases pc with
  | scheduler pc =>
      cases pc with
      | recovery rest task stage =>
          cases stage <;> simp [Pc.access, SchedulerPc.access] at h
          obtain ⟨rfl, rfl, -⟩ := h
          simp [Pc.next, SchedulerPc.next, hok, Pc.holds]
      | dispatching pass d stage =>
          cases stage <;> simp [Pc.access, SchedulerPc.access, DispatchStage.access] at h
          obtain ⟨rfl, rfl, -⟩ := h
          simp [Pc.next, SchedulerPc.next, DispatchStage.next, hok, Pc.holds]
      | _ => simp [Pc.access, SchedulerPc.access] at h
  | execution d stage => cases stage <;> simp [Pc.access, ExecutionStage.access] at h
  | handler pc => cases pc <;> simp [Pc.access, HandlerPc.access] at h
  | renewer pc => cases pc <;> simp [Pc.access, RenewerPc.access] at h
  | dead => simp [Pc.access] at h

/-- What becomes of a lock that is held, while no process crashes. -/
theorem holding_kept (h : step env s a = some s') (hcrash : ∀ p, a ≠ .crash p)
    (hholds : holding true env s tid = some (k, v)) :
    (∃ tid', holding true env s' tid' = some (k, v)) ∨
      ∃ inp th key, a = .run tid inp ∧ s.threads tid = some th ∧ k = "lock:" ++ key ∧
        th.access env = .redis (.unlock key v) := by
  obtain ⟨th, hth, hpc⟩ := Option.bind_eq_some_iff.mp hholds
  rcases thread_step h hth with ⟨hstays, -⟩ | ⟨inp, rfl, hmoves⟩ | ⟨p, hcrashed, -⟩
  · exact Or.inl ⟨tid, by rw [holding_of_thread hstays]; exact hpc⟩
  · rcases Pc.holds_kept env.platform inp (th.exec env inp s.stores).2 hpc with
      hnext | ⟨d, hspawn⟩ | ⟨key, hk, haccess⟩
    · exact Or.inl ⟨tid, by rw [holding_of_thread hmoves]; exact hnext⟩
    · -- The closure starts with the lock of the thread that enqueues it.
      refine Or.inl ⟨inp.fresh, ?_⟩
      rw [holding_of_thread (queued_of_run h hth hspawn), ← hpc, Pc.holds_of_spawned hspawn]
      rfl
    · exact Or.inr ⟨inp, th, key, rfl, hth, hk, haccess⟩
  · exact absurd hcrashed (hcrash p)

/-- A step that does not unlock leaves every lock with a holder. -/
theorem holding_of_no_unlock (h : step env s a = some s') (hcrash : ∀ p, a ≠ .crash p)
    (hunlock : ∀ tid inp th key value, a = .run tid inp → s.threads tid = some th →
      th.access env ≠ .redis (.unlock key value)) :
    ∀ tid k v, holding true env s tid = some (k, v) →
      ∃ tid', holding true env s' tid' = some (k, v) := by
  intro tid k v hholds
  rcases holding_kept h hcrash hholds with hheld | ⟨inp, th, key, haction, hth, -, haccess⟩
  · exact hheld
  · exact absurd haccess (hunlock tid inp th key v haction hth)

/-- The step of a thread leaves no lock without a holder. -/
theorem attended_run (h : step env s (.run tid inp) = some s') (hfault : inp.fault = false)
    (hpre : Attended s.stores.locks (holding true env s)) :
    Attended s'.stores.locks (holding true env s') := by
  obtain ⟨th, hth, -⟩ := step_run h
  have hlocks := locks_of_run h hth
  have hkept : (∀ key value, th.access env ≠ .redis (.unlock key value)) →
      ∀ t k v, holding true env s t = some (k, v) → ∃ t', holding true env s' t' = some (k, v) := by
    intro hunlock
    apply holding_of_no_unlock h (by simp)
    intro tid' inp' th' key value heq hth'
    cases heq
    rw [hth, Option.some.injEq] at hth'
    subst hth'
    exact hunlock key value
  cases haccess : th.access env with
  | redis call =>
      rw [haccess] at hlocks hkept
      simp only [hfault, Bool.false_eq_true, if_false] at hlocks
      cases call with
      | lock key value ttl =>
          cases hresult : (s.stores.locks.lock s.stores.redisNow key value ttl).2 with
          | false =>
              rw [hlocks]
              simp only [LockAccess.apply, RedisLocks.lock_failed hresult]
              exact hpre.handover (hkept (by simp))
          | true =>
              obtain ⟨-, hset⟩ := RedisLocks.lock_ok hresult
              rw [hlocks]
              apply hpre.take (t := tid) hset _ (hkept (by simp))
              have hok : (th.exec env inp s.stores).2.ok = true := by
                unfold Thread.exec
                rw [haccess, Access.exec_redis_ok, hfault]
                simpa [LockAccess.apply] using hresult
              rw [holding_of_thread (thread_of_run h hth)]
              exact Pc.holds_of_locked_key haccess hok
      | renewLock key value ttl =>
          rw [hlocks]
          apply hpre.shrink _ (hkept (by simp))
          intro k entry hentry
          have hvalue := RedisLocks.renewLock_value s.stores.locks s.stores.redisNow key value ttl k
          rw [← hvalue]
          simp only [LockAccess.apply] at hentry
          rw [hentry]
          rfl
      | unlock key value =>
          rw [hlocks]
          simp only [LockAccess.apply, RedisLocks.unlock, if_neg (Pc.unlock_nonempty haccess)]
          apply hpre.give
          intro t k v hholds hne
          rcases holding_kept h (by simp) hholds with hheld | ⟨inp', th', key', heq, hth', rfl, hunlock⟩
          · exact hheld
          · cases heq
            rw [hth, Option.some.injEq] at hth'
            subst hth'
            rw [haccess] at hunlock
            cases hunlock
            exact absurd rfl hne
  | _ =>
      rw [haccess] at hlocks hkept
      rw [hlocks]
      exact hpre.handover (hkept (by simp))

/-- With Redis reachable and no crash, every lock in Redis has a holder. -/
theorem attended_of_run (hrun : Run (step env) s₀ trace s) (hstart : ∀ k, s₀.stores.locks k = none)
    (hcrash : ∀ τ ∈ trace, ∀ p, τ.action ≠ .crash p)
    (hreach : ∀ τ ∈ trace, τ.action.faults = false) :
    Attended s.stores.locks (holding true env s) := by
  apply hrun.invariant (P := fun s => Attended s.stores.locks (holding true env s))
  · intro k entry hentry
    simp [hstart] at hentry
  · intro τ hτ hstep hpre
    obtain ⟨pre, a, post⟩ := τ
    by_cases hrun : ∃ tid inp, a = .run tid inp
    · obtain ⟨tid, inp, rfl⟩ := hrun
      exact attended_run hstep (hreach _ hτ) hpre
    · apply hpre.shrink
      · -- Redis itself only drops keys.
        intro k entry hentry
        dsimp only at hstep hentry ⊢
        rw [step_locks hstep] at hentry
        cases a with
        | run tid inp => exact absurd ⟨tid, inp, rfl⟩ hrun
        | redisClock now =>
            rw [(Option.filter_eq_some_iff.mp hentry).1]
            rfl
        | redisLose key =>
            simp only [LockStore.lose, LockStore.set_apply] at hentry
            split at hentry
            · cases hentry
            · rw [hentry]
              rfl
        | _ =>
            simp only at hentry
            rw [hentry]
            rfl
      · apply holding_of_no_unlock hstep (hcrash _ hτ)
        intro tid inp th key value haction
        exact absurd ⟨tid, inp, haction⟩ hrun

/-! ## Rows -/

/-- An exception leaves the closure in this action. -/
def Action.throws : Action → Bool
  | .run _ inp => inp.throws
  | _ => false

/-- A scheduler thread has claimed the task under this id. -/
def ClaimedByScheduler (env : Env) (id e : String) (trace : List SystemTransition) : Prop :=
  ∃ τ ∈ trace, ∃ tid pass d, τ.runs? = some (tid, .scheduler (.dispatching pass d .claiming)) ∧
    τ.returned env = true ∧ d.task.id = id ∧ d.executionId = e

/-- After a completion the row does not run under its id. -/
theorem not_running_of_complete {id e : String} {status : Int} {next last : Option DateTime}
    {retry : Int} (h : step env s a = some s')
    (hstmt : statement? env s a = some (.completeTaskExecution id e status next last retry)) :
    runningExecution (s'.stores.tasks.find? id) ≠ some e := by
  intro hrunning
  obtain ⟨row, hrow, hstatus, hexec⟩ := runningExecution_eq_some.mp hrunning
  have hissued : IdleStatus status := statement_issued hstmt
  rcases running_step h hrow hstatus with hsame | ⟨_, _, _, _, _, hstmt', -⟩
  · have hreturned : SystemTransition.returned env ⟨s, a, s'⟩ = true := by
      rw [SystemTransition.returned_of_statement (τ := ⟨s, a, s'⟩) hstmt]
      exact (complete_affected hissued).mpr
        (runningExecution_eq_some.mpr ⟨row, hsame, hstatus, hexec⟩)
    obtain ⟨r, -, -, hpost⟩ :=
      SystemTransition.post_of_returned (τ := ⟨s, a, s'⟩) h hstmt rfl hreturned
    obtain rfl : row = _ := Option.some.inj (hrow.symm.trans hpost)
    exact hissued.ne_running hstatus
  · rw [hstmt] at hstmt'
    cases hstmt'

/-- A claim of a dispatch that takes effect puts the execution in progress. -/
theorem inProgress_of_claim {pass : Pass} {r : TaskRow} (h : step env s (.run tid inp) = some s')
    (hth : s.threads tid = some ⟨p, .scheduler (.dispatching pass d .claiming)⟩)
    (hstmt : statement? env s (.run tid inp) = some stmt)
    (hr : s.stores.tasks.find? stmt.taskId = some r) (hguard : stmt.guard s.stores.now r = true) :
    InProgress p d s' := by
  rcases section_of_run h hth rfl with ⟨hspawn, -⟩ | ⟨left, hsection, hleft⟩
  · cases hspawn
  · have hok : (Thread.exec env inp s.stores
        ⟨p, .scheduler (.dispatching pass d .claiming)⟩).2.ok = true := by
      simp only [statement?, hth, Option.bind_some] at hstmt
      obtain ⟨-, haccess⟩ := Access.statement?_eq_some.mp hstmt
      cases haccess
      exact (Access.exec_ok hstmt).trans
        ((claim_affected IdleStatus.scheduled).mpr ⟨r, hr, hguard⟩)
    cases hsection with
    | claim => exact ⟨_, hleft _ rfl, hok⟩

/-- A claim of a dispatch that takes effect has found an idle row. -/
theorem idle_of_claim {pass : Pass} (hstep : step env τ.pre τ.action = some τ.post)
    (hruns : τ.runs? = some (tid, .scheduler (.dispatching pass d .claiming)))
    (hreturned : τ.returned env = true) :
    runningExecution (τ.pre.stores.tasks.find? d.task.id) = none := by
  obtain ⟨cfg, r, hr, hguard, -⟩ :=
    SystemTransition.rows_of_returned hstep hruns (fun _ => rfl) (fun _ => rfl) hreturned
  refine (congrArg runningExecution hr).trans (runningExecution_of_idle ?_)
  rw [(claim_guard.mp hguard).1]
  decide

/-- What a step makes of a dispatch inside its section: it stays there, with its
claim unless the step issues the completion, or it leaves by its `unlock` when it
holds nothing but the lock. -/
def GivesBack (env : Env) (p : Nat) (d : Dispatch) (held : Holdings) (τ : SystemTransition) :
    Prop :=
  (∃ held', Inside p d held' τ.post ∧ (held.claimed = true → held'.claimed = true ∨
      ∃ status next last retry, statement? env τ.pre τ.action =
        some (.completeTaskExecution d.task.id d.executionId status next last retry))) ∨
    (held = .nothing ∧ ∃ tid inp th, τ.action = .run tid inp ∧ τ.pre.threads tid = some th ∧
      th.access env = .redis (.unlock (lockKey d.task.id) (d.lockValue (env.node p).nodeId)))

theorem givesBack_of_step {held : Holdings} (hstep : step env τ.pre τ.action = some τ.post)
    (hcrash : τ.action ≠ .crash p) (hreach : τ.action.faults = false)
    (hthrows : τ.action.throws = false) (hinside : Inside p d held τ.pre) :
    GivesBack env p d held τ := by
  rcases inside_step hstep hinside with
    hstays | hcrash' | ⟨tid, inp, pc, left, haction, hth, hsection, hleft⟩
  · exact Or.inl ⟨held, hstays, Or.inl⟩
  · exact absurd hcrash' hcrash
  · rw [haction] at hreach hthrows
    rcases hsection.kept with ⟨-, hnothing, haccess⟩ | ⟨held', rfl, -, -, hkept⟩
    · exact Or.inr ⟨hnothing, tid, inp, _, haction, hth, haccess⟩
    · left
      refine ⟨held', hleft held' rfl, fun hclaimed => ?_⟩
      rcases hkept hclaimed with hclaimed' | ⟨status, next, last, retry, haccess⟩ | hthrown
      · exact Or.inl hclaimed'
      · right
        refine ⟨status, next, last, retry, ?_⟩
        rw [haction]
        simp only [statement?, hth, Option.bind_some]
        exact Access.statement?_eq_some.mpr ⟨hreach, haccess⟩
      · rw [show inp.throws = false from hthrows] at hthrown
        cases hthrown

/-- An execution stays in progress while the row runs under its id. -/
theorem inProgress_kept (hstep : step env τ.pre τ.action = some τ.post)
    (hcrash : τ.action ≠ .crash p) (hreach : τ.action.faults = false)
    (hthrows : τ.action.throws = false) (hprogress : InProgress p d τ.pre)
    (hrunning : runningExecution (τ.post.stores.tasks.find? d.task.id) = some d.executionId) :
    InProgress p d τ.post := by
  obtain ⟨held, hinside, hclaimed⟩ := hprogress
  rcases givesBack_of_step hstep hcrash hreach hthrows hinside with
    ⟨held', hinside', hkept⟩ | ⟨rfl, -⟩
  · rcases hkept hclaimed with hclaimed' | ⟨status, next, last, retry, hstmt⟩
    · exact ⟨held', hinside', hclaimed'⟩
    · exact absurd hrunning (not_running_of_complete hstep hstmt)
  · cases hclaimed

/-- Unless an exception leaves a closure, a row that runs under an id of the
scheduler has its execution in progress. -/
theorem inProgress_of_running (hrun : Run (step env) s₀ trace s)
    (hstart : ∀ tid, s₀.threads tid = none) (hcrash : ∀ τ ∈ trace, ∀ p, τ.action ≠ .crash p)
    (hreach : ∀ τ ∈ trace, τ.action.faults = false)
    (hthrows : ∀ τ ∈ trace, τ.action.throws = false) :
    ∀ id e, runningExecution (s.stores.tasks.find? id) = some e →
      ClaimedByScheduler env id e trace →
      ∃ p d, InProgress p d s ∧ d.task.id = id ∧ d.executionId = e := by
  apply hrun.history_invariant (P := fun trace s => ∀ id e,
    runningExecution (s.stores.tasks.find? id) = some e → ClaimedByScheduler env id e trace →
      ∃ p d, InProgress p d s ∧ d.task.id = id ∧ d.executionId = e)
  · rintro id e - ⟨τ, hτ, -⟩
    cases hτ
  · rintro earlier ⟨pre, a, post⟩ hinitial hearlier hstep hpre id e hrunning
      ⟨τ', hτ', tid', pass', d', hruns', hreturned', rfl, rfl⟩
    dsimp only at hstep hpre hrunning
    have hmem : (⟨pre, a, post⟩ : SystemTransition) ∈ trace := hinitial.subset (by simp)
    have hpast : Run (step env) s₀ (earlier ++ [⟨pre, a, post⟩]) post := hearlier.snoc hstep
    obtain ⟨row, hrow, hstatus, hexec⟩ := runningExecution_eq_some.mp hrunning
    rcases running_step hstep hrow hstatus with
      hsame | ⟨e, node, expected, next, r, hstmt, hr, hguard, rfl⟩
    · have hbefore : runningExecution (pre.stores.tasks.find? d'.task.id) = some d'.executionId :=
        runningExecution_eq_some.mpr ⟨row, hsame, hstatus, hexec⟩
      rcases List.mem_append.mp hτ' with hτ' | hτ'
      · obtain ⟨p, d, hprogress, hid, he⟩ := hpre _ _ hbefore
          ⟨τ', hτ', tid', pass', d', hruns', hreturned', rfl, rfl⟩
        refine ⟨p, d, ?_, hid, he⟩
        exact inProgress_kept (τ := ⟨pre, a, post⟩) hstep (hcrash _ hmem p) (hreach _ hmem)
          (hthrows _ hmem) hprogress (by rw [hid, he]; exact hrunning)
      · -- The row was running before, so it is not this step that has claimed it.
        rw [List.mem_singleton] at hτ'
        subst hτ'
        have hidle := idle_of_claim hstep hruns' hreturned'
        rw [show runningExecution _ = some _ from hbefore] at hidle
        cases hidle
    · simp only [Statement.assign, Option.some.injEq] at hexec
      subst hexec
      obtain ⟨before, hbefore, -⟩ := hpast.pre_of_mem hτ'
      obtain ⟨inp', p', -, hth'⟩ := SystemTransition.runs?_eq_some.mp hruns'
      have hnumbered : d'.Numbered := numberedPc_of_run hbefore hstart tid' _ hth'
      obtain ⟨tid, inp, p, pass, d, rfl, -, hth, hid, he⟩ :=
        dispatch_of_claim hearlier hstart hnumbered hstmt
      exact ⟨p, d, inProgress_of_claim hstep hth hstmt hr hguard, hid, he⟩

/-! ## One node -/

/-- Before any node has been started. -/
structure State.Fresh (s : State) : Prop where
  threads : ∀ tid, s.threads tid = none
  locks : ∀ k, s.stores.locks k = none
  leases : ∀ p, (s.stores.procs p).leases = []
  registry : ∀ p taskId, (s.stores.procs p).registry taskId = none

/-- Actions of a deployment with the one node `p`, which does not crash. -/
def Action.ofNode (p : Nat) : Action → Bool
  | .boot q _ _ => q == p
  | .request q _ _ _ => q == p
  | .stop q => q == p
  | .stopLoop q => q == p
  | .crash _ => false
  | _ => true

theorem Action.ofNode_crash {q : Nat} (h : a.ofNode p = true) : a ≠ .crash q := by
  rintro rfl
  cases h

/-- All threads are the node's. -/
theorem proc_of_run (hrun : Run (step env) s₀ trace s) (hstart : ∀ tid, s₀.threads tid = none)
    (hnode : ∀ τ ∈ trace, τ.action.ofNode p = true) :
    ∀ tid th, s.threads tid = some th → th.proc = p := by
  apply hrun.invariant (P := fun s => ∀ tid th, s.threads tid = some th → th.proc = p)
  · intro tid th hth
    simp [hstart] at hth
  · intro τ hτ hstep hpre tid th hth
    have hofNode := hnode τ hτ
    cases threadOrigin hstep hth with
    | kept hbefore hidle => exact hpre tid th hbefore
    | moved inp th₀ haction hbefore heq =>
        subst heq
        exact hpre tid th₀ hbefore
    | spawned inp parent th₀ d haction hparent hspawn hname hfresh heq =>
        subst heq
        exact hpre parent th₀ hparent
    | killed q th₀ haction hbefore heq => exact absurd haction (Action.ofNode_crash hofNode)
    | booted q scheduler renewer haction hname hfresh heq =>
        rw [haction] at hofNode
        rcases heq with rfl | rfl <;> exact beq_iff_eq.mp hofNode
    | called q call inp haction hfresh heq =>
        subst heq
        rw [haction] at hofNode
        exact beq_iff_eq.mp hofNode

/-- A scheduler thread that has ended, or a closure that has. -/
def Pc.stopped : Pc → Bool
  | .scheduler .exited => true
  | .scheduler _ => false
  | .execution _ .finished => true
  | .execution _ _ => false
  | _ => true

/-- `stop()` has joined the scheduler thread and drained the pool of the node. -/
def Stopped (p : Nat) (s : State) : Prop :=
  ∀ tid pc, s.threads tid = some ⟨p, pc⟩ → pc.stopped = true

theorem Pc.locked_of_stopped (h : pc.stopped = true) : pc.locked? = none := by
  cases pc with
  | scheduler pc => cases pc <;> first | rfl | cases h
  | execution d stage => cases stage <;> first | rfl | cases h
  | _ => rfl

/-- Nothing is inside a section when the node has been stopped. -/
theorem Stopped.not_inside (h : Stopped p s) {held : Holdings} : ¬Inside p d held s := by
  rintro ⟨tid, pc, hth, hlocked⟩
  rw [Pc.locked_of_stopped (h tid pc hth)] at hlocked
  cases hlocked

/-- The lock entry belongs to a dispatch of `p` inside its section, or to a
recovery that is under way. -/
def LockOwned (env : Env) (p : Nat) (s : State) (k : String) (entry : LockEntry String) : Prop :=
  (∃ d held, Inside p d held s ∧ k = "lock:" ++ lockKey d.task.id ∧
      entry.value = d.lockValue (env.node p).nodeId) ∨
    ∃ tid rest task stage, s.threads tid = some ⟨p, .scheduler (.recovery rest task stage)⟩ ∧
      stage ≠ .locking ∧ k = "lock:" ++ lockKey task.id ∧
      entry.value = recoveryLockValue (env.node p).nodeId task

/-- Every lock in Redis is owned. -/
theorem locks_owned (hrun : Run (step env) s₀ trace s) (hfresh : s₀.Fresh)
    (hnode : ∀ τ ∈ trace, τ.action.ofNode p = true)
    (hreach : ∀ τ ∈ trace, τ.action.faults = false) :
    ∀ k entry, s.stores.locks k = some entry → LockOwned env p s k entry := by
  intro k entry hentry
  obtain ⟨tid, hholds⟩ := attended_of_run hrun hfresh.locks
    (fun τ hτ q => Action.ofNode_crash (hnode τ hτ)) hreach k entry hentry
  obtain ⟨⟨q, pc⟩, hth, hpc⟩ := Option.bind_eq_some_iff.mp hholds
  obtain rfl : q = p := proc_of_run hrun hfresh.threads hnode tid _ hth
  rcases Pc.holds_cases hpc with
    ⟨d, held, hlocked, hk, hv⟩ | ⟨rest, task, stage, rfl, hstage, hk, hv⟩
  · exact Or.inl ⟨d, held, ⟨tid, pc, hth, hlocked⟩, hk, hv⟩
  · exact Or.inr ⟨tid, rest, task, stage, hth, hstage, hk, hv⟩

/-- **Lock, lease, registry entry and claim are given back together.**  In every
state that a node can reach with MySQL and Redis at hand, each lock in Redis
belongs to a dispatch inside its locked section or to a recovery under way, and
each lease and each registry entry of the node to a dispatch inside its section;
none is left when the node has been stopped.

If moreover no exception leaves a closure, a claim is given up only together with
its completion, a row runs under an id that the scheduler has claimed only while
that execution is in progress, and no such row is left when the node has been
stopped. -/
theorem holdings_given_back {env : Env} {s₀ s : State} {trace : List SystemTransition} {p : Nat}
    (hrun : Run (step env) s₀ trace s) (hfresh : s₀.Fresh)
    (hnode : ∀ τ ∈ trace, τ.action.ofNode p = true)
    (hreach : ∀ τ ∈ trace, τ.action.faults = false) :
    (∀ k entry, s.stores.locks k = some entry → LockOwned env p s k entry) ∧
    (∀ lease ∈ (s.stores.procs p).leases, LeaseOwned env p s lease) ∧
    (∀ taskId entry, (s.stores.procs p).registry taskId = some entry →
      EntryOwned p s taskId entry) ∧
    (Stopped p s → (∀ k, s.stores.locks k = none) ∧ (s.stores.procs p).leases = [] ∧
      ∀ taskId, (s.stores.procs p).registry taskId = none) ∧
    ((∀ τ ∈ trace, τ.action.throws = false) →
      (∀ τ ∈ trace, ∀ d held, Inside p d held τ.pre → GivesBack env p d held τ) ∧
      (∀ id e, runningExecution (s.stores.tasks.find? id) = some e →
        ClaimedByScheduler env id e trace →
        ∃ d, InProgress p d s ∧ d.task.id = id ∧ d.executionId = e) ∧
      (Stopped p s → ∀ id e, ClaimedByScheduler env id e trace →
        runningExecution (s.stores.tasks.find? id) ≠ some e)) := by
  have hcrash : ∀ τ ∈ trace, ∀ q, τ.action ≠ .crash q :=
    fun τ hτ q => Action.ofNode_crash (hnode τ hτ)
  have hlocks := locks_owned hrun hfresh hnode hreach
  have hleases := leases_owned hrun (hfresh.leases p)
  have hregistry := registry_owned hrun (hfresh.registry p)
  refine ⟨hlocks, hleases, hregistry, ?_, ?_⟩
  · intro hstopped
    refine ⟨fun k => ?_, ?_, fun taskId => ?_⟩
    · cases hentry : s.stores.locks k with
      | none => rfl
      | some entry =>
          rcases hlocks k entry hentry with
            ⟨d, held, hinside, -⟩ | ⟨tid, rest, task, stage, hth, -⟩
          · exact absurd hinside hstopped.not_inside
          · cases hstopped tid _ hth
    · cases hentries : (s.stores.procs p).leases with
      | nil => rfl
      | cons lease rest =>
          obtain ⟨d, held, hinside, -⟩ := hleases lease (by simp [hentries])
          exact absurd hinside hstopped.not_inside
    · cases hentry : (s.stores.procs p).registry taskId with
      | none => rfl
      | some entry =>
          obtain ⟨d, held, hinside, -⟩ := hregistry taskId entry hentry
          exact absurd hinside hstopped.not_inside
  · intro hthrows
    have hrows : ∀ id e, runningExecution (s.stores.tasks.find? id) = some e →
        ClaimedByScheduler env id e trace →
        ∃ d, InProgress p d s ∧ d.task.id = id ∧ d.executionId = e := by
      intro id e hrunning hclaimed
      obtain ⟨q, d, hprogress, hid, he⟩ := inProgress_of_running hrun hfresh.threads hcrash hreach
        hthrows id e hrunning hclaimed
      obtain ⟨held, ⟨tid, pc, hth, hlocked⟩, hheld⟩ := hprogress
      obtain rfl : q = p := proc_of_run hrun hfresh.threads hnode tid _ hth
      exact ⟨d, ⟨held, ⟨tid, pc, hth, hlocked⟩, hheld⟩, hid, he⟩
    refine ⟨?_, hrows, ?_⟩
    · intro τ hτ d held hinside
      exact givesBack_of_step (hrun.step_of_mem hτ) (hcrash τ hτ p) (hreach τ hτ) (hthrows τ hτ)
        hinside
    · intro hstopped id e hclaimed hrunning
      obtain ⟨d, ⟨held, hinside, -⟩, -⟩ := hrows id e hrunning hclaimed
      exact hstopped.not_inside hinside

/-- The sample task is dispatched and executed, with `recording` as the step of the
closure that writes the history, and the node is stopped afterwards. -/
def executedAndStopped (recording : Input) (rest : Nat) : List Action :=
  [.boot 0 0 1] ++ runs 0 9 ++ [.run 0 { fresh := 2 }] ++ executes 2 11000 3 ++
    [.run 2 recording] ++ executes 2 11000 rest ++ [.stop 0, .stopLoop 0] ++ runs 0 2

theorem sampleState_fresh : sampleState.Fresh where
  threads _ := rfl
  locks _ := rfl
  leases _ := rfl
  registry _ _ := rfl

/-- A scheduler thread claims the sample task under its first id. -/
def claimsSample (τ : SystemTransition) : Bool :=
  match τ.runs? with
  | some (_, .scheduler (.dispatching _ d .claiming)) =>
      d.task.id == "t" && d.executionId == "t:0:0" && τ.returned sampleEnv
  | _ => false

theorem claimedByScheduler_of_claimsSample (h : trace.any claimsSample = true) :
    ClaimedByScheduler sampleEnv "t" "t:0:0" trace := by
  obtain ⟨τ, hτ, hclaims⟩ := List.any_eq_true.mp h
  unfold claimsSample at hclaims
  split at hclaims
  · rename_i tid pass d hruns
    simp only [Bool.and_eq_true, beq_iff_eq] at hclaims
    exact ⟨τ, hτ, tid, pass, d, hruns, hclaims.2, hclaims.1.1, hclaims.1.2⟩
  · cases hclaims

/-- A run of the sample node whose last state is checked to be a stopped one. -/
theorem exists_stopped_run (actions : List Action) (check : State → Bool)
    (hexec : (execute (step sampleEnv) sampleState actions).any (fun s =>
      (List.range 3).all (fun tid => (s.threads tid).all fun th => th.pc.stopped) && check s) = true)
    (htrace : (executeTrace (step sampleEnv) sampleState actions).all (fun τ =>
      τ.action.ofNode 0 && !τ.action.faults &&
        τ.action.starts.all fun tid => decide (tid < 3)) = true) :
    ∃ s, Run (step sampleEnv) sampleState (executeTrace (step sampleEnv) sampleState actions) s ∧
      (∀ τ ∈ executeTrace (step sampleEnv) sampleState actions,
        τ.action.ofNode 0 = true ∧ τ.action.faults = false) ∧ Stopped 0 s ∧ check s = true := by
  obtain ⟨s, hrun, hs⟩ := exists_run_of_execute hexec
  simp only [List.all_eq_true, Bool.and_eq_true, Bool.not_eq_true', decide_eq_true_eq] at htrace
  rw [Bool.and_eq_true] at hs
  refine ⟨s, hrun, fun τ hτ => (htrace τ hτ).1, ?_, hs.2⟩
  intro tid pc hth
  exact threads_all_of_run (p := fun th => th.pc.stopped) hrun (fun _ => rfl)
    (fun τ hτ => (htrace τ hτ).2) hs.1 tid _ hth

theorem holdings_given_back_executed :
    ∃ (trace : List SystemTransition) (s : State),
      Run (step sampleEnv) sampleState trace s ∧ Stopped 0 s ∧
      ClaimedByScheduler sampleEnv "t" "t:0:0" trace ∧ (∀ k, s.stores.locks k = none) ∧
      runningExecution (s.stores.tasks.find? "t") ≠ some "t:0:0" := by
  obtain ⟨s, hrun, hnode, hstopped, -⟩ := exists_stopped_run (executedAndStopped {} 5)
    (fun _ => true) (by decide) (by decide)
  have hclaimed := claimedByScheduler_of_claimsSample (show (executeTrace (step sampleEnv)
    sampleState (executedAndStopped {} 5)).any claimsSample = true by decide)
  have hthrows : (executeTrace (step sampleEnv) sampleState (executedAndStopped {} 5)).all
      (fun τ => !τ.action.throws) = true := by decide
  simp only [List.all_eq_true, Bool.not_eq_true'] at hthrows
  obtain ⟨-, -, -, hempty, hrows⟩ := holdings_given_back hrun sampleState_fresh
    (fun τ hτ => (hnode τ hτ).1) (fun τ hτ => (hnode τ hτ).2)
  exact ⟨_, s, hrun, hstopped, hclaimed, (hempty hstopped).1,
    (hrows hthrows).2.2 hstopped _ _ hclaimed⟩

/-- An exception after `addHistory` skips the completion: the node gives back lock,
lease and registry entry and can be stopped, but its row is still running. -/
theorem exception_leaves_row_running :
    ∃ (env : Env) (s₀ s : State) (trace : List SystemTransition) (p : Nat) (id e : String),
      Run (step env) s₀ trace s ∧ s₀.Fresh ∧ (∀ τ ∈ trace, τ.action.ofNode p = true) ∧
      (∀ τ ∈ trace, τ.action.faults = false) ∧ Stopped p s ∧
      ClaimedByScheduler env id e trace ∧
      runningExecution (s.stores.tasks.find? id) = some e := by
  obtain ⟨s, hrun, hnode, hstopped, hrunning⟩ :=
    exists_stopped_run (executedAndStopped { throws := true } 3)
      (fun s => runningExecution (s.stores.tasks.find? "t") == some "t:0:0")
      (by decide) (by decide)
  have hclaimed := claimedByScheduler_of_claimsSample (show (executeTrace (step sampleEnv)
    sampleState (executedAndStopped { throws := true } 3)).any claimsSample = true by decide)
  exact ⟨sampleEnv, sampleState, s, _, 0, "t", "t:0:0", hrun, sampleState_fresh,
    fun τ hτ => (hnode τ hτ).1, fun τ hτ => (hnode τ hτ).2, hstopped, hclaimed,
    beq_iff_eq.mp hrunning⟩

end Corpcron
