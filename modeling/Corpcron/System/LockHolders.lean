import Corpcron.System.Deployment

/-!
# Who holds a task lock

A dispatch holds the lock of its task from the moment `lock` returned true
until its `unlock`; when the closure is enqueued the lock passes from the
scheduler thread to the pool thread.  A recovery holds it between its `lock`
and `unlock`, but unlike a dispatch it has no lease, so its key may expire
under it.

`exclusive_step` shows that these threads form an exclusive set of holders in
the sense of `Lib.LockStore.Exclusive`, as long as Redis does not drop the key
of a holder.  The flag `recovery` says whether recoveries count as holders.
If they do not, a recovery may still issue its `unlock` long after its key has
expired, and the owner values have to tell it from the dispatches; this needs
node ids that do not look like the owner value of a recovery
(`NodeConfig.PlainName`).
-/

namespace Corpcron

open Lib Lib.LockStore

variable {env : Env} {s s' s₀ : State} {a : Action} {τ : SystemTransition}
  {trace : List SystemTransition} {tid : Nat} {inp : Input} {th : Thread} {recovery : Bool}
  {pc : Pc} {k v : String} {cfg : NodeConfig} {pf : Platform} {reply : Reply}

/-! ## Owner values -/

/-- The node id neither is `recovery` nor starts with `recovery:`. -/
def NodeConfig.PlainName (cfg : NodeConfig) : Prop :=
  cfg.nodeId ≠ "recovery" ∧ ¬ "recovery:".toList <+: cfg.nodeId.toList

/-- A node with a plain name never locks under the owner value of a recovery. -/
theorem NodeConfig.PlainName.lockValue_ne (hplain : cfg.PlainName) (d : Dispatch) (nodeId : String)
    (task : TaskMeta) :
    d.lockValue cfg.nodeId ≠ recoveryLockValue nodeId task := by
  intro heq
  have hlist : cfg.nodeId.toList ++ [':'] ++ d.executionId.toList =
      "recovery:".toList ++ (nodeId ++ ":" ++ task.currentExecutionId).toList := by
    have h := congrArg String.toList heq
    simpa [Dispatch.lockValue, recoveryLockValue] using h
  have hleft : cfg.nodeId.toList ++ [':'] <+:
      "recovery:".toList ++ (nodeId ++ ":" ++ task.currentExecutionId).toList :=
    ⟨_, hlist⟩
  have hright : "recovery:".toList <+:
      "recovery:".toList ++ (nodeId ++ ":" ++ task.currentExecutionId).toList :=
    List.prefix_append _ _
  by_cases hlen : "recovery:".toList.length ≤ cfg.nodeId.toList.length
  · apply hplain.2
    apply List.prefix_of_prefix_length_le hright _ hlen
    exact (List.prefix_append _ _).trans hleft
  · -- The colon after the node id is the first one, so the node id is `recovery`.
    have hshort : cfg.nodeId.toList ++ [':'] <+: "recovery:".toList := by
      apply List.prefix_of_prefix_length_le hleft hright
      simp only [List.length_append, List.length_singleton]
      omega
    rw [show "recovery:".toList = "recovery".toList ++ [':'] from rfl,
      List.prefix_concat_iff] at hshort
    rcases hshort with hname | hcolon
    · exact hplain.1 (String.toList_injective (List.append_cancel_right hname))
    · have hmem : ':' ∈ "recovery".toList := hcolon.subset (by simp)
      exact absurd hmem (by decide)

/-! ## Holders -/

/-- Key and owner value of the lock a thread holds. -/
def Pc.holds (recovery : Bool) (nodeId : String) : Pc → Option (String × String)
  | .scheduler (.dispatching _ _ .locking) => none
  | .scheduler (.dispatching _ d _) => some ("lock:" ++ lockKey d.task.id, d.lockValue nodeId)
  | .scheduler (.recovery _ _ .locking) => none
  | .scheduler (.recovery _ task _) =>
      if recovery then some ("lock:" ++ lockKey task.id, recoveryLockValue nodeId task) else none
  | .execution _ .finished => none
  | .execution d _ => some ("lock:" ++ lockKey d.task.id, d.lockValue nodeId)
  | _ => none

/-- The lock a thread of the state holds. -/
def holding (recovery : Bool) (env : Env) (s : State) (tid : Nat) : Option (String × String) :=
  (s.threads tid).bind fun th => th.pc.holds recovery (env.node th.proc).nodeId

theorem holding_of_thread (hth : s.threads tid = some th) :
    holding recovery env s tid = th.pc.holds recovery (env.node th.proc).nodeId := by
  simp [holding, hth]

theorem recoverRest_holds (recovery : Bool) (nodeId : String) (rest : List TaskMeta) :
    (Pc.scheduler (recoverRest rest)).holds recovery nodeId = none := by
  cases rest <;> rfl

theorem Pass.begin_holds (recovery : Bool) (nodeId : String) (pf : Platform) (cfg : NodeConfig)
    (inp : Input) (pass : Pass) :
    (Pc.scheduler (pass.begin pf cfg inp)).holds recovery nodeId = none := by
  unfold Pass.begin
  split
  · rfl
  · split
    · rfl
    · split
      · rfl
      · rfl
      · dsimp only
        split <;> rfl

/-- How a thread comes to hold a lock after its step: it held it before, and
neither gave it away nor released it, or its `lock` has just succeeded. -/
theorem Pc.holds_next (h : (pc.next pf cfg inp reply).holds recovery cfg.nodeId = some (k, v)) :
    (pc.holds recovery cfg.nodeId = some (k, v) ∧ pc.spawned inp = none ∧
        ∀ key value, pc.access pf cfg ≠ .redis (.unlock key value)) ∨
      (reply.ok = true ∧ ∃ key ttl, k = "lock:" ++ key ∧
        pc.access pf cfg = .redis (.lock key v ttl)) := by
  cases pc with
  | scheduler pc =>
      cases pc with
      | recovery rest task stage =>
          cases stage with
          | locking =>
              cases hok : reply.ok with
              | false => simp [Pc.next, SchedulerPc.next, hok, recoverRest_holds] at h
              | true =>
                  cases recovery <;>
                    simp [Pc.next, SchedulerPc.next, hok, Pc.holds] at h
                  obtain ⟨rfl, rfl⟩ := h
                  exact Or.inr ⟨rfl, _, _, rfl, rfl⟩
          | recovering =>
              left
              exact ⟨h, rfl, by simp [Pc.access, SchedulerPc.access]⟩
          | unlocking => simp [Pc.next, SchedulerPc.next, recoverRest_holds] at h
      | dispatching pass d stage =>
          cases stage with
          | locking =>
              cases hok : reply.ok with
              | false =>
                  cases htimeout : inp.timedOut <;>
                    simp [Pc.next, SchedulerPc.next, DispatchStage.next, hok, htimeout,
                      Pc.holds] at h
              | true =>
                  simp only [Pc.next, SchedulerPc.next, DispatchStage.next, hok, if_true,
                    Pc.holds, Option.some.injEq, Prod.mk.injEq] at h
                  obtain ⟨rfl, rfl⟩ := h
                  exact Or.inr ⟨rfl, _, _, rfl, rfl⟩
          | claiming =>
              left
              refine ⟨?_, rfl, by simp [Pc.access, SchedulerPc.access, DispatchStage.access]⟩
              cases hok : reply.ok <;>
                simpa [Pc.next, SchedulerPc.next, DispatchStage.next, hok, Pc.holds] using h
          | checking =>
              left
              refine ⟨?_, rfl, by simp [Pc.access, SchedulerPc.access, DispatchStage.access]⟩
              cases hok : reply.ok <;>
                simpa [Pc.next, SchedulerPc.next, DispatchStage.next, hok, Pc.holds] using h
          | enqueueing =>
              cases henqueued : inp.enqueued with
              | true =>
                  simp [Pc.next, SchedulerPc.next, DispatchStage.next, henqueued, Pc.holds] at h
              | false =>
                  left
                  refine ⟨?_, by simp [Pc.spawned, SchedulerPc.spawned, henqueued],
                    by simp [Pc.access, SchedulerPc.access, DispatchStage.access]⟩
                  simpa [Pc.next, SchedulerPc.next, DispatchStage.next, henqueued, Pc.holds]
                    using h
          | removingLease claimed =>
              left
              refine ⟨?_, rfl, by simp [Pc.access, SchedulerPc.access, DispatchStage.access]⟩
              cases claimed <;> exact h
          | unlocking => simp [Pc.next, SchedulerPc.next, DispatchStage.next, Pc.holds] at h
          | _ =>
              left
              exact ⟨h, rfl, by simp [Pc.access, SchedulerPc.access, DispatchStage.access]⟩
      | scanningStale => simp [Pc.next, SchedulerPc.next, recoverRest_holds] at h
      | iterating pass => simp [Pc.next, SchedulerPc.next, Pass.begin_holds] at h
      | skipping pass skip =>
          cases hdone : reply.ok || reply.failed <;>
            simp [Pc.next, SchedulerPc.next, hdone, Pc.holds] at h
      | sleeping =>
          cases hok : reply.ok <;> simp [Pc.next, SchedulerPc.next, hok, Pc.holds] at h
      | _ => simp [Pc.next, SchedulerPc.next, Pc.holds] at h
  | execution d stage =>
      left
      cases stage with
      | unlocking => simp [Pc.next, ExecutionStage.next, Pc.holds] at h
      | finished => simp [Pc.next, ExecutionStage.next, Pc.holds] at h
      | _ =>
          refine ⟨?_, rfl, by simp [Pc.access, ExecutionStage.access]⟩
          simp only [Pc.next, ExecutionStage.next, ExecutionStage.orUnwind] at h
          repeat' split at h
          all_goals exact h
  | handler pc => simp [Pc.next, Pc.holds] at h
  | renewer pc => simp [Pc.next, Pc.holds] at h
  | dead => simp [Pc.next, Pc.holds] at h

/-- A thread that tries to lock holds nothing. -/
theorem Pc.holds_of_lock {key value : String} {ttl : Nat}
    (h : pc.access pf cfg = .redis (.lock key value ttl)) :
    pc.holds recovery cfg.nodeId = none := by
  cases pc with
  | scheduler pc =>
      cases pc with
      | recovery rest task stage =>
          cases stage <;> simp [Pc.access, SchedulerPc.access] at h
          rfl
      | dispatching pass d stage =>
          cases stage <;> simp [Pc.access, SchedulerPc.access, DispatchStage.access] at h
          rfl
      | _ => simp [Pc.access, SchedulerPc.access] at h
  | execution d stage => cases stage <;> simp [Pc.access, ExecutionStage.access] at h
  | handler pc => rfl
  | renewer pc => rfl
  | dead => rfl

/-- Who unlocks: a holder, or a recovery that does not count as one. -/
theorem Pc.holds_of_unlock {key value : String}
    (h : pc.access pf cfg = .redis (.unlock key value)) :
    pc.holds recovery cfg.nodeId = some ("lock:" ++ key, value) ∨
      (recovery = false ∧ ∃ task, value = recoveryLockValue cfg.nodeId task) := by
  cases pc with
  | scheduler pc =>
      cases pc with
      | recovery rest task stage =>
          cases stage <;> simp [Pc.access, SchedulerPc.access] at h
          obtain ⟨rfl, rfl⟩ := h
          cases recovery with
          | false => exact Or.inr ⟨rfl, task, rfl⟩
          | true => exact Or.inl rfl
      | dispatching pass d stage =>
          cases stage <;> simp [Pc.access, SchedulerPc.access, DispatchStage.access] at h
          obtain ⟨rfl, rfl⟩ := h
          exact Or.inl rfl
      | _ => simp [Pc.access, SchedulerPc.access] at h
  | execution d stage =>
      cases stage <;> simp [Pc.access, ExecutionStage.access] at h
      obtain ⟨rfl, rfl⟩ := h
      exact Or.inl rfl
  | handler pc => cases pc <;> simp [Pc.access, HandlerPc.access] at h
  | renewer pc => cases pc <;> simp [Pc.access, RenewerPc.access] at h
  | dead => simp [Pc.access] at h

/-- A thread that enqueues a closure makes no call in that step. -/
theorem Pc.access_of_spawned {d : Dispatch} (h : pc.spawned inp = some d) :
    pc.access pf cfg = .idle := by
  obtain ⟨pass, rfl, -⟩ := Pc.spawned_eq_some h
  rfl

/-- A thread that enqueues a closure holds the lock of its dispatch. -/
theorem Pc.holds_of_spawned {nodeId : String} {d : Dispatch} (h : pc.spawned inp = some d) :
    pc.holds recovery nodeId = some ("lock:" ++ lockKey d.task.id, d.lockValue nodeId) := by
  obtain ⟨pass, rfl, -⟩ := Pc.spawned_eq_some h
  rfl

/-- A holder outside recovery holds under the owner value of a dispatch. -/
theorem Pc.holds_dispatch {nodeId : String} (h : pc.holds false nodeId = some (k, v)) :
    ∃ d : Dispatch, k = "lock:" ++ lockKey d.task.id ∧ v = d.lockValue nodeId := by
  cases pc with
  | scheduler pc =>
      cases pc with
      | recovery rest task stage => cases stage <;> simp [Pc.holds] at h
      | dispatching pass d stage =>
          cases stage <;> simp [Pc.holds] at h <;> exact ⟨d, h.1.symm, h.2.symm⟩
      | _ => simp [Pc.holds] at h
  | execution d stage =>
      cases stage <;> simp [Pc.holds] at h <;> exact ⟨d, h.1.symm, h.2.symm⟩
  | _ => simp [Pc.holds] at h

/-! ## Exclusion along a run -/

/-- Redis drops no key under the threads that hold it: neither by expiry nor by
loss. -/
def LockKept (recovery : Bool) (env : Env) (τ : SystemTransition) : Prop :=
  (∃ now, τ.action = .redisClock now) ∨ (∃ key, τ.action = .redisLose key) →
    ∀ tid k v, holding recovery env τ.pre tid = some (k, v) →
      (τ.post.stores.locks k).map LockEntry.value = (τ.pre.stores.locks k).map LockEntry.value

/-- What the threads hold after an action other than a thread's step. -/
theorem holding_of_no_run (h : step env s a = some s') (hrun : ∀ tid inp, a ≠ .run tid inp)
    (hholds : holding recovery env s' tid = some (k, v)) :
    holding recovery env s tid = some (k, v) := by
  obtain ⟨th, hth, hpc⟩ := Option.bind_eq_some_iff.mp hholds
  cases threadOrigin h hth with
  | kept hbefore hidle => simpa [holding, hbefore] using hpc
  | moved inp th₀ haction => exact absurd haction (hrun tid inp)
  | spawned inp parent th₀ d haction => exact absurd haction (hrun parent inp)
  | killed p th₀ haction hbefore heq => simp [heq, Pc.holds] at hpc
  | booted p scheduler renewer haction hname hfresh heq =>
      rcases heq with heq | heq <;> simp [heq, Pc.holds] at hpc
  | called p call inp haction hfresh heq => simp [heq, Pc.holds] at hpc

/-- What the other threads hold after a thread's step. -/
theorem holding_of_run {runner : Nat} (h : step env s (.run runner inp) = some s')
    (hth : s.threads runner = some th) (hholds : holding recovery env s' tid = some (k, v)) :
    (tid ≠ runner ∧ holding recovery env s tid = some (k, v)) ∨
      (tid = runner ∧
        (th.advance env inp s.stores).pc.holds recovery (env.node th.proc).nodeId =
          some (k, v)) ∨
      (th.access env = .idle ∧ tid = inp.fresh ∧ th.pc.spawned inp ≠ none ∧
        holding recovery env s runner = some (k, v)) := by
  obtain ⟨th', hth', hpc⟩ := Option.bind_eq_some_iff.mp hholds
  cases threadOrigin h hth' with
  | kept hbefore hidle =>
      left
      refine ⟨?_, by simpa [holding, hbefore] using hpc⟩
      rintro rfl
      exact hidle inp rfl
  | moved inp' th₀ haction hbefore heq =>
      injection haction with htid hinp
      subst htid hinp
      rw [hth, Option.some.injEq] at hbefore
      subst hbefore
      exact Or.inr (Or.inl ⟨rfl, by rw [heq] at hpc; exact hpc⟩)
  | spawned inp' parent th₀ d haction hparent hspawn hname hfresh heq =>
      injection haction with htid hinp
      subst htid hinp
      rw [hth, Option.some.injEq] at hparent
      subst hparent
      right
      right
      refine ⟨Pc.access_of_spawned hspawn, hname, by simp [hspawn], ?_⟩
      rw [heq] at hpc
      unfold holding
      rw [hth, Option.bind_some, Pc.holds_of_spawned hspawn]
      exact hpc
  | killed p th₀ haction => cases haction
  | booted p scheduler renewer haction hname hfresh heq =>
      rcases heq with heq | heq <;> simp [heq, Pc.holds] at hpc
  | called p call inp haction => cases haction

/-- The step of a thread that leaves the owner values under the held keys as they are
and is no successful `lock`. -/
theorem exclusive_quiet {runner : Nat} (h : step env s (.run runner inp) = some s')
    (hth : s.threads runner = some th) (hspawn : th.pc.spawned inp = none)
    (hlock : (th.exec env inp s.stores).2.ok = true →
      ∀ key value ttl, th.access env ≠ .redis (.lock key value ttl))
    (hlocks : ∀ k, (s'.stores.locks k).map LockEntry.value = (s.stores.locks k).map LockEntry.value)
    (hex : Exclusive s.stores.locks (holding recovery env s)) :
    Exclusive s'.stores.locks (holding recovery env s') := by
  apply hex.shrink
  · intro tid k v hholds
    rcases holding_of_run h hth hholds with ⟨-, hold⟩ | ⟨rfl, hpc⟩ | ⟨-, -, hspawn', -⟩
    · exact hold
    · rcases Pc.holds_next hpc with ⟨hold, -, -⟩ | ⟨hok, key, ttl, -, haccess⟩
      · simp [holding, hth, hold]
      · exact absurd haccess (hlock hok key v ttl)
    · exact absurd hspawn hspawn'
  · intro tid k v _
    exact hlocks k

section Script

variable {recovery : Bool} {env : Env} {s s' : State} {runner : Nat} {inp : Input} {th : Thread}

/-- A step that enqueues nothing gives nothing to the other threads. -/
theorem holding_other (h : step env s (.run runner inp) = some s')
    (hth : s.threads runner = some th) (hspawn : th.pc.spawned inp = none) (hne : tid ≠ runner)
    (hholds : holding recovery env s' tid = some (k, v)) :
    holding recovery env s tid = some (k, v) := by
  rcases holding_of_run h hth hholds with ⟨-, hold⟩ | ⟨heq, -⟩ | ⟨-, -, hspawn', -⟩
  · exact hold
  · exact absurd heq hne
  · exact absurd hspawn hspawn'

/-- What the thread itself holds after a script it held before, unless it has just
locked. -/
theorem holding_runner {call : LockAccess} (h : step env s (.run runner inp) = some s')
    (hth : s.threads runner = some th) (hspawn : th.pc.spawned inp = none)
    (haccess : th.access env = .redis call)
    (hholds : holding recovery env s' runner = some (k, v)) :
    (holding recovery env s runner = some (k, v) ∧ ∀ key value, call ≠ .unlock key value) ∨
      ∃ key ttl, k = "lock:" ++ key ∧ call = .lock key v ttl := by
  rcases holding_of_run h hth hholds with ⟨hne, -⟩ | ⟨-, hpc⟩ | ⟨-, -, hspawn', -⟩
  · exact absurd rfl hne
  · rcases Pc.holds_next hpc with ⟨hold, -, hunlock⟩ | ⟨-, key, ttl, hk, hlock⟩
    · left
      refine ⟨by simp [holding, hth, hold], ?_⟩
      rintro key value rfl
      exact hunlock key value haccess
    · right
      refine ⟨key, ttl, hk, ?_⟩
      change th.access env = _ at hlock
      rw [haccess] at hlock
      simpa using hlock
  · exact absurd hspawn hspawn'

/-- A thread that unlocks holds nothing afterwards. -/
theorem holding_of_unlock {key value : String} (h : step env s (.run runner inp) = some s')
    (hth : s.threads runner = some th) (hspawn : th.pc.spawned inp = none)
    (haccess : th.access env = .redis (.unlock key value)) :
    holding recovery env s' runner = none := by
  cases hholds : holding recovery env s' runner with
  | none => rfl
  | some held =>
      obtain ⟨k, v⟩ := held
      rcases holding_runner h hth hspawn haccess hholds with ⟨-, hunlock⟩ | ⟨_, _, -, hcall⟩
      · exact absurd rfl (hunlock key value)
      · cases hcall

/-- A successful `lock` keeps the holders exclusive. -/
theorem exclusive_lock {key value : String} {ttl : Nat}
    (h : step env s (.run runner inp) = some s') (hth : s.threads runner = some th)
    (hspawn : th.pc.spawned inp = none) (haccess : th.access env = .redis (.lock key value ttl))
    (hlocks : s'.stores.locks = (s.stores.locks.lock s.stores.redisNow key value ttl).1)
    (hlocked : (s.stores.locks.lock s.stores.redisNow key value ttl).2 = true)
    (hex : Exclusive s.stores.locks (holding recovery env s)) :
    Exclusive s'.stores.locks (holding recovery env s') := by
  obtain ⟨hfree, hset⟩ := RedisLocks.lock_ok hlocked
  rw [hlocks]
  apply hex.take (t := runner) hfree hset _ fun a j w => holding_other h hth hspawn
  intro j w hholds
  rcases holding_runner h hth hspawn haccess hholds with ⟨hold, -⟩ | ⟨key', ttl', hj, hcall⟩
  · have hnone : th.pc.holds recovery (env.node th.proc).nodeId = none :=
      Pc.holds_of_lock haccess
    simp [holding, hth, hnone] at hold
  · injection hcall with hkey hvalue httl
    exact ⟨by rw [hj, hkey], hvalue.symm⟩

/-- An `unlock` keeps the holders exclusive. -/
theorem exclusive_unlock {key value : String}
    (hnames : recovery = true ∨ ∀ p, (env.node p).PlainName)
    (h : step env s (.run runner inp) = some s') (hth : s.threads runner = some th)
    (hspawn : th.pc.spawned inp = none) (haccess : th.access env = .redis (.unlock key value))
    (hlocks : s'.stores.locks = (s.stores.locks.unlock key value).1)
    (hex : Exclusive s.stores.locks (holding recovery env s)) :
    Exclusive s'.stores.locks (holding recovery env s') := by
  have hdropped : holding recovery env s' runner = none :=
    holding_of_unlock h hth hspawn haccess
  have hkept : ∀ a j w, holding recovery env s' a = some (j, w) →
      holding recovery env s a = some (j, w) := by
    intro a j w hholds
    apply holding_other h hth hspawn _ hholds
    rintro rfl
    simp [hdropped] at hholds
  rw [hlocks]
  simp only [RedisLocks.unlock]
  split
  · exact hex.shrink hkept (fun _ _ _ _ => rfl)
  · have hunlocker : th.pc.holds recovery (env.node th.proc).nodeId =
            some ("lock:" ++ key, value) ∨
          (recovery = false ∧ ∃ task, value = recoveryLockValue (env.node th.proc).nodeId task) :=
        Pc.holds_of_unlock haccess
    rcases hunlocker with hheld | ⟨hrecovery, task, hvalue⟩
    · exact hex.give (t := runner) (by simp [holding, hth, hheld]) hdropped
        fun a j w => holding_other h hth hspawn
    · -- The key of the recovery may have expired and belong to a dispatch by now.
      apply hex.give_foreign _ hkept
      intro t j w hholds
      subst hrecovery
      obtain ⟨holder, -, hpc⟩ := Option.bind_eq_some_iff.mp hholds
      obtain ⟨d, -, rfl⟩ := Pc.holds_dispatch hpc
      rw [hvalue]
      exact (hnames.resolve_left (by simp) holder.proc).lockValue_ne d _ task

/-- A script executed by a thread keeps the holders exclusive. -/
theorem exclusive_script {call : LockAccess}
    (hnames : recovery = true ∨ ∀ p, (env.node p).PlainName)
    (h : step env s (.run runner inp) = some s') (hth : s.threads runner = some th)
    (hspawn : th.pc.spawned inp = none) (haccess : th.access env = .redis call)
    (hlocks : s'.stores.locks = (call.apply s.stores.redisNow s.stores.locks).1)
    (hok : (th.exec env inp s.stores).2.ok = (call.apply s.stores.redisNow s.stores.locks).2)
    (hex : Exclusive s.stores.locks (holding recovery env s)) :
    Exclusive s'.stores.locks (holding recovery env s') := by
  cases call with
  | lock key value ttl =>
      cases hresult : (s.stores.locks.lock s.stores.redisNow key value ttl).2 with
      | false =>
          apply exclusive_quiet h hth hspawn _ _ hex
          · intro hlocked
            rw [hok] at hlocked
            simp only [LockAccess.apply, hresult, Bool.false_eq_true] at hlocked
          · intro k
            rw [hlocks]
            simp only [LockAccess.apply, RedisLocks.lock_failed hresult]
      | true => exact exclusive_lock h hth hspawn haccess hlocks hresult hex
  | renewLock key value ttl =>
      apply exclusive_quiet h hth hspawn _ _ hex
      · intro _ key' value' ttl'
        simp [haccess]
      · intro k
        rw [hlocks]
        exact RedisLocks.renewLock_value _ _ _ _ _ k
  | unlock key value => exact exclusive_unlock hnames h hth hspawn haccess hlocks hex

end Script

/-- A thread's step keeps the holders exclusive. -/
theorem exclusive_run {runner : Nat} (hnames : recovery = true ∨ ∀ p, (env.node p).PlainName)
    (h : step env s (.run runner inp) = some s')
    (hex : Exclusive s.stores.locks (holding recovery env s)) :
    Exclusive s'.stores.locks (holding recovery env s') := by
  obtain ⟨th, hth, -⟩ := step_run h
  have hlocks := locks_of_run h hth
  cases hspawn : th.pc.spawned inp with
  | some d =>
      -- The closure takes over the lock of the thread that enqueues it.
      have hidle : th.access env = .idle := Pc.access_of_spawned hspawn
      rw [hidle] at hlocks
      rw [hlocks]
      apply hex.handover runner inp.fresh
      intro a k v hholds
      rcases holding_of_run h hth hholds with ⟨hne, hold⟩ | ⟨-, hpc⟩ | ⟨-, hfresh, -, hold⟩
      · exact Or.inl ⟨hne, hold⟩
      · rcases Pc.holds_next hpc with ⟨-, hnone, -⟩ | ⟨-, key, ttl, -, hlock⟩
        · simp [hspawn] at hnone
        · change th.access env = _ at hlock
          simp [hidle] at hlock
      · exact Or.inr ⟨hfresh, hold⟩
  | none =>
      cases haccess : th.access env with
      | redis call =>
          rw [haccess] at hlocks
          have hok : (th.exec env inp s.stores).2.ok =
              (!inp.fault && (call.apply s.stores.redisNow s.stores.locks).2) := by
            unfold Thread.exec
            rw [haccess]
            exact Access.exec_redis_ok _ _ _ _ _
          cases hfault : inp.fault with
          | true =>
              simp only [hfault, if_true] at hlocks
              apply exclusive_quiet h hth hspawn _ _ hex
              · intro hlocked
                simp [hok, hfault] at hlocked
              · intro k
                rw [hlocks]
          | false =>
              simp only [hfault, Bool.false_eq_true, if_false] at hlocks
              apply exclusive_script hnames h hth hspawn haccess hlocks _ hex
              simpa [hfault] using hok
      | _ =>
          rw [haccess] at hlocks
          apply exclusive_quiet h hth hspawn _ _ hex
          · simp [haccess]
          · intro k
            rw [hlocks]

/-- One action keeps the holders exclusive. -/
theorem exclusive_step (hnames : recovery = true ∨ ∀ p, (env.node p).PlainName)
    (hstep : step env τ.pre τ.action = some τ.post) (hkept : LockKept recovery env τ)
    (hex : Exclusive τ.pre.stores.locks (holding recovery env τ.pre)) :
    Exclusive τ.post.stores.locks (holding recovery env τ.post) := by
  obtain ⟨s, a, s'⟩ := τ
  dsimp only at *
  cases a with
  | run runner inp =>
      exact exclusive_run hnames hstep hex
  | redisClock now =>
      apply hex.shrink
      · intro tid k v hholds
        exact holding_of_no_run hstep (by simp) hholds
      · intro tid k v hholds
        exact hkept (Or.inl ⟨now, rfl⟩) tid k v (holding_of_no_run hstep (by simp) hholds)
  | redisLose key =>
      apply hex.shrink
      · intro tid k v hholds
        exact holding_of_no_run hstep (by simp) hholds
      · intro tid k v hholds
        exact hkept (Or.inr ⟨key, rfl⟩) tid k v (holding_of_no_run hstep (by simp) hholds)
  | _ =>
      apply hex.shrink
      · intro tid k v hholds
        exact holding_of_no_run hstep (by simp) hholds
      · intro tid k v hholds
        rw [step_locks hstep]

/-- Along a run that starts without threads the holders stay exclusive. -/
theorem exclusive_of_run (hrun : Run (step env) s₀ trace s) (hstart : ∀ tid, s₀.threads tid = none)
    (hnames : recovery = true ∨ ∀ p, (env.node p).PlainName)
    (hkept : ∀ τ ∈ trace, LockKept recovery env τ) :
    Exclusive s.stores.locks (holding recovery env s) := by
  apply hrun.invariant (P := fun s => Exclusive s.stores.locks (holding recovery env s))
  · constructor <;> simp [holding, hstart]
  · intro τ hτ hstep hpre
    exact exclusive_step hnames hstep (hkept τ hτ) hpre

/-- Whether a transition, if it is one of Redis, keeps the locks of the first
`n` threads. -/
def keepsLocks (r : Bool) (env : Env) (n : Nat) (τ : SystemTransition) : Bool :=
  match τ.action with
  | .redisClock _ | .redisLose _ =>
      (List.range n).all fun tid =>
        (holding r env τ.pre tid).all fun held =>
          (τ.post.stores.locks held.1).map LockEntry.value ==
            (τ.pre.stores.locks held.1).map LockEntry.value
  | _ => true

/-- With threads only among the first `n` the check above is complete. -/
theorem lockKept_of_keepsLocks {r : Bool} {n : Nat} (hrun : Run (step env) s₀ trace s)
    (hstart : ∀ tid, s₀.threads tid = none) (hnames : ∀ τ ∈ trace, ∀ tid ∈ τ.action.starts, tid < n)
    (hcheck : ∀ τ ∈ trace, keepsLocks r env n τ = true) :
    ∀ τ ∈ trace, LockKept r env τ := by
  intro τ hτ hredis tid k v hheld
  have hchecked := hcheck τ hτ
  have hall : ((List.range n).all fun tid =>
      (holding r env τ.pre tid).all fun held =>
        (τ.post.stores.locks held.1).map LockEntry.value ==
          (τ.pre.stores.locks held.1).map LockEntry.value) = true := by
    rcases hredis with ⟨now, haction⟩ | ⟨key, haction⟩ <;>
      simpa only [keepsLocks, haction] using hchecked
  obtain ⟨th, hth, hholds⟩ := Option.bind_eq_some_iff.mp hheld
  obtain ⟨earlier, hearlier, hinitial⟩ := hrun.pre_of_mem hτ
  have hone := threads_all_of_run
    (p := fun th => (th.pc.holds r (env.node th.proc).nodeId).all fun held =>
      (τ.post.stores.locks held.1).map LockEntry.value ==
        (τ.pre.stores.locks held.1).map LockEntry.value)
    hearlier hstart (fun x hx => hnames x (hinitial.subset hx))
    (by simpa only [holding, Option.all_bind, Function.comp_def] using hall) tid th hth
  simpa [hholds] using hone

end Corpcron
