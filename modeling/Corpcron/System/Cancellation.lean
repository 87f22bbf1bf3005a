import Corpcron.System.ExecutionIds
import Corpcron.System.LocalData
import Corpcron.System.LockedSection
import Corpcron.System.Ownership

/-!
# `CancelTask` against a dispatch of the same task

`CancelTask` disables the row and then cancels what the registry has for the
task.  A dispatch goes the other way round: it registers its cancellation
source, claims the row, and unregisters only after the completion.  So wherever
the two meet, one of them sees the other: before the claim the row is no longer
`SCHEDULED`, and after it the registry has the source of the execution.

The registry keeps one entry for each task.  That the entry is the one of the
execution in progress needs the lock (`registry_of_run`): a second dispatch of
the same task would overwrite it.

The two stores do not compare ids alike.  The database finds the row also for an
id in another case, and the registry only for the id as the row has it, so the
execution of a task that is canceled in another case is not told.
-/

namespace Corpcron

open Lib Lib.LockStore

variable {env : Env} {s s' s₀ : State} {a : Action} {τ : SystemTransition}
  {trace : List SystemTransition} {tid p : Nat} {inp : Input} {stmt : Statement} {id : String}
  {pc : Pc} {d : Dispatch}

/-! ## One dispatch of a task at a time -/

/-- Two threads inside a section of the same task are the same thread. -/
theorem section_unique {tid' p' : Nat} {pc' : Pc} {d' : Dispatch} {held held' : Holdings}
    (hex : Exclusive s.stores.locks (holding true env s)) (hth : s.threads tid = some ⟨p, pc⟩)
    (hlocked : pc.locked? = some (d, held)) (hth' : s.threads tid' = some ⟨p', pc'⟩)
    (hlocked' : pc'.locked? = some (d', held')) (hid : d.task.id = d'.task.id) : tid = tid' := by
  apply hex.unique tid tid' ("lock:" ++ lockKey d.task.id)
  · rw [holding_of_thread hth]
    exact Pc.holds_of_locked hlocked
  · rw [holding_of_thread hth', hid]
    exact Pc.holds_of_locked hlocked'

/-! ## The registry -/

/-- A thread that registers or unregisters does so for the task of its
section. -/
theorem task_of_registry {call : LocalAccess} {taskId : String}
    (haccess : Thread.access env ⟨p, pc⟩ = .process call)
    (hcall : (∃ executionId source, call = .registerTask taskId executionId source) ∨
      ∃ executionId, call = .unregisterTask taskId executionId) :
    ∃ d held, pc.locked? = some (d, held) ∧ d.task.id = taskId := by
  rcases hcall with ⟨e, source, rfl⟩ | ⟨e, rfl⟩
  · obtain ⟨d, held, left, hlocked, hsection, -⟩ :=
      sectionStep_of_call {} {} haccess (Or.inr (Or.inl ⟨_, _, _, rfl⟩))
    refine ⟨d, held, hlocked, ?_⟩
    cases hsection with
    | register => rfl
    | work hquiet => cases hquiet
    | throw hquiet => cases hquiet
  · obtain ⟨d, held, left, hlocked, hsection, -⟩ :=
      sectionStep_of_call {} {} haccess (Or.inr (Or.inr ⟨_, _, rfl⟩))
    refine ⟨d, held, hlocked, ?_⟩
    cases hsection with
    | unregister => rfl
    | work hquiet => cases hquiet
    | throw hquiet => cases hquiet

/-- The other threads leave the registry entry of a dispatch alone while it has
the lock. -/
theorem registry_of_other {held : Holdings} (h : step env s a = some s')
    (hex : Exclusive s.stores.locks (holding true env s)) (hth : s.threads tid = some ⟨p, pc⟩)
    (hlocked : pc.locked? = some (d, held)) (halive : (s.stores.procs p).alive = true)
    (hidle : ∀ inp, a ≠ .run tid inp) (hcrash : a ≠ .crash p) :
    (s'.stores.procs p).registry d.task.id = (s.stores.procs p).registry d.task.id := by
  rcases local_step h p with
    ⟨runner, inp, qc, call, rfl, hrunner, haccess, hprocs⟩ | ⟨-, -, -, hsame⟩ |
      ⟨⟨scheduler, renewer, rfl⟩ | hcrash', -⟩
  · -- A thread that writes this entry would be inside a section of the same task.
    have hother : (∃ e source, call = .registerTask d.task.id e source) ∨
        (∃ e, call = .unregisterTask d.task.id e) → False := by
      intro hcall
      obtain ⟨d', held', hlocked', hid⟩ := task_of_registry haccess hcall
      have heq := section_unique hex hth hlocked hrunner hlocked' hid.symm
      exact hidle inp (by rw [heq])
    rw [hprocs, LocalAccess.exec_registry]
    cases call with
    | registerTask taskId e source =>
        have hne : d.task.id ≠ taskId := by
          rintro rfl
          exact hother (Or.inl ⟨e, source, rfl⟩)
        simp only [Process.registerTask, if_neg hne]
    | unregisterTask taskId e =>
        have hne : d.task.id ≠ taskId := by
          rintro rfl
          exact hother (Or.inr ⟨e, rfl⟩)
        simp only [Process.unregisterTask, if_neg hne]
    | _ => rfl
  · rw [hsame]
  · -- A process is started only when it is down.
    rw [(step_boot h).1] at halive
    cases halive
  · exact absurd hcrash' hcrash

/-- A dispatch that has registered finds its own entry after its step. -/
theorem registry_of_section {s : Stores} {held₀ held : Holdings}
    (hsection : SectionStep (env.node p) d inp (Thread.exec env inp s ⟨p, pc⟩).2
      (Thread.access env ⟨p, pc⟩) held₀ (some held)) (hregistered : held.registered = true)
    (hbefore : held₀.registered = true →
      (s.procs p).registry d.task.id = some ⟨d.executionId, d.source⟩) :
    ((Thread.exec env inp s ⟨p, pc⟩).1.procs p).registry d.task.id =
      some ⟨d.executionId, d.source⟩ := by
  have hprocs := Access.exec_procs inp.fault inp.steadyMs p p s (Thread.access env ⟨p, pc⟩)
  change (Thread.exec env inp s ⟨p, pc⟩).1.procs p = _ at hprocs
  have hquietly : (Thread.access env ⟨p, pc⟩).quiet = true →
      (Thread.exec env inp s ⟨p, pc⟩).1.procs p = s.procs p :=
    fun hquiet => Access.exec_procs_of_quiet hquiet _ _ _ _ _
  generalize Thread.access env ⟨p, pc⟩ = access at hsection hprocs hquietly
  cases hsection with
  | register =>
      rw [hprocs]
      simp [LocalAccess.exec, Process.registerTask]
  | claim =>
      rw [hprocs]
      exact hbefore rfl
  | work hquiet =>
      rw [hquietly hquiet]
      exact hbefore rfl
  | throw hquiet =>
      rw [hquietly hquiet]
      exact hbefore rfl
  | complete lease registered =>
      rw [hprocs]
      exact hbefore hregistered
  | addLease => cases hregistered
  | unregister => cases hregistered
  | removeLease => cases hregistered

/-- Without lock expiry the registry of a process has the entries of its
dispatches. -/
theorem registry_of_run (hrun : Run (step env) s₀ trace s) (hstart : ∀ tid, s₀.threads tid = none)
    (hkept : ∀ τ ∈ trace, LockKept true env τ) :
    ∀ p d held, Inside p d held s → held.registered = true →
      (s.stores.procs p).registry d.task.id = some ⟨d.executionId, d.source⟩ := by
  apply hrun.history_invariant (P := fun _ s => ∀ p d held, Inside p d held s →
    held.registered = true →
      (s.stores.procs p).registry d.task.id = some ⟨d.executionId, d.source⟩)
  · rintro p d held ⟨tid, pc, hth, -⟩
    simp [hstart] at hth
  · intro earlier τ hinitial hearlier hstep hpre p d held hinside hregistered
    have hex : Exclusive τ.pre.stores.locks (holding true env τ.pre) :=
      exclusive_of_run hearlier hstart (Or.inl rfl)
        fun x hx => hkept x (hinitial.subset (List.mem_append_left _ hx))
    obtain ⟨tid, pc, hth, hlocked⟩ := hinside
    cases threadOrigin hstep hth with
    | kept hbefore hidle =>
        have hlive : pc ≠ .dead := by
          rintro rfl
          cases hlocked
        have hcrash : τ.action ≠ .crash p := by
          intro heq
          rw [heq] at hstep
          exact hlive (@dead_of_crash _ _ _ _ ⟨p, pc⟩ hstep hth)
        rw [registry_of_other hstep hex hbefore hlocked
          (alive_of_thread hearlier hstart tid _ hbefore hlive) hidle hcrash]
        exact hpre p d held ⟨tid, pc, hbefore, hlocked⟩ hregistered
    | moved inp th₀ haction hbefore heq =>
        obtain ⟨q, qc⟩ := th₀
        obtain ⟨rfl, rfl⟩ : p = q ∧ pc = _ := by
          injection heq with hproc hpc
          exact ⟨hproc, hpc⟩
        rw [haction] at hstep
        rw [stores_of_run hstep hbefore]
        rcases sectionStep_of_next hlocked with ⟨held₀, hlocked₀, hsection⟩ | rfl
        · exact registry_of_section hsection hregistered
            (hpre p d held₀ ⟨tid, qc, hbefore, hlocked₀⟩)
        · cases hregistered
    | spawned inp parent th₀ d' haction hparent hspawn hname hfresh heq =>
        obtain ⟨q, qc⟩ := th₀
        obtain ⟨rfl, rfl⟩ : p = q ∧ pc = .execution d' .queued := by
          injection heq with hproc hpc
          exact ⟨hproc, hpc⟩
        cases hlocked
        rw [haction] at hstep
        -- The parent had registered the dispatch, and this step makes no call.
        have hidle : Thread.access env ⟨p, qc⟩ = .idle := Pc.access_of_spawned hspawn
        rw [stores_of_run hstep hparent, Thread.exec, hidle]
        obtain ⟨pass, rfl, -⟩ := Pc.spawned_eq_some hspawn
        exact hpre p d .all ⟨parent, _, hparent, rfl⟩ rfl
    | killed q th₀ haction hbefore heq =>
        cases heq
        cases hlocked
    | booted q scheduler renewer haction hname hfresh heq =>
        rcases heq with heq | heq <;> cases heq <;> cases hlocked
    | called q call inp haction hfresh heq =>
        cases heq
        cases hlocked

/-! ## The row -/

/-- The execution of `d` on process `p` has claimed the row and has not yet
issued its completion. -/
def InProgress (p : Nat) (d : Dispatch) (s : State) : Prop :=
  ∃ held, Inside p d held s ∧ held.claimed = true

/-- While an execution is in progress, its task is not claimed with its id. -/
theorem not_claimed_of_inProgress {node : String} {expected : Int} {next : Option DateTime}
    (hrun : Run (step env) s₀ trace s) (hstart : ∀ tid, s₀.threads tid = none)
    (hkept : ∀ τ ∈ trace, LockKept true env τ) (hprogress : InProgress p d s) :
    statement? env s a ≠
      some (.claimTaskExecution d.task.id d.executionId node expected next) := by
  intro hstmt
  obtain ⟨held, ⟨tid, pc, hth, hlocked⟩, hclaimed⟩ := hprogress
  have hnumbered : d.Numbered := by
    have hpc := numberedPc_of_run hrun hstart tid _ hth
    cases pc with
    | scheduler pc =>
        cases pc with
        | dispatching pass d' stage =>
            obtain ⟨_, -, heq⟩ := Option.map_eq_some_iff.mp hlocked
            cases heq
            exact hpc
        | _ => cases hlocked
    | execution d' stage =>
        obtain ⟨_, -, heq⟩ := Option.map_eq_some_iff.mp hlocked
        cases heq
        exact hpc
    | _ => cases hlocked
  -- A manual execution has an id of another form, so a second dispatch would have to claim.
  obtain ⟨tid', inp, q, pass, d', -, -, hth', hid, -⟩ := dispatch_of_claim hrun hstart hnumbered hstmt
  obtain rfl : tid = tid' := section_unique
    (exclusive_of_run hrun hstart (Or.inl rfl) hkept) hth hlocked hth' rfl hid.symm
  rw [hth, Option.some.injEq] at hth'
  cases hth'
  cases hlocked
  cases hclaimed

/-- Once the row no longer runs under the id of an execution in progress, it
does not do so again. -/
theorem not_running_of_inProgress {m : State} {before between : List SystemTransition}
    (hbefore : Run (step env) s₀ before m) (hbetween : Run (step env) m between s)
    (hstart : ∀ tid, s₀.threads tid = none) (hkept : ∀ τ ∈ before ++ between, LockKept true env τ)
    (hprogress : ∀ z ∈ between, InProgress p d z.pre)
    (hinit : runningExecution (m.stores.tasks.find? d.task.id) ≠ some d.executionId) :
    runningExecution (s.stores.tasks.find? d.task.id) ≠ some d.executionId := by
  apply hbetween.history_invariant
    (P := fun _ s => runningExecution (s.stores.tasks.find? d.task.id) ≠ some d.executionId) hinit
  intro earlier z hinitial hearlier hstep hpre hrunning
  have hmem : ∀ x ∈ earlier ++ [z], x ∈ between := fun x hx => hinitial.subset hx
  obtain ⟨row, hrow, hstatus, hexec⟩ := runningExecution_eq_some.mp hrunning
  rcases running_step hstep hrow hstatus with
    hsame | ⟨e, node, expected, next, r, hstmt, -, -, rfl⟩
  · exact hpre (runningExecution_eq_some.mpr ⟨row, hsame, hstatus, hexec⟩)
  · simp only [Statement.assign, Option.some.injEq] at hexec
    subst hexec
    apply not_claimed_of_inProgress (hbefore.append hearlier) hstart _
      (hprogress z (hmem z (by simp))) hstmt
    intro x hx
    rcases List.mem_append.mp hx with hx | hx
    · exact hkept x (List.mem_append_left _ hx)
    · exact hkept x (List.mem_append_right _ (hmem x (List.mem_append_left _ hx)))

/-- The statements that may change a disabled row into anything else: those of
`UpdateTask` and `EnableTask`, and besides them a misfire skip, `DeleteTask` and
the claim of `RunTaskNow`, which are neither cancellation nor dispatch. -/
def Statement.reopens : Statement → Bool
  | .updateTaskDefinition _ => true
  | .updateTaskSchedule _ _ _ _ => true
  | .updateTaskRuntime _ _ _ _ _ => true
  | .deleteTask _ => true
  | .claimTaskExecution _ _ _ expectedStatus _ => expectedStatus == taskDisabled
  | _ => false

/-- The transition executes such a statement on the row. -/
def SystemTransition.reopens (env : Env) (id : String) (τ : SystemTransition) : Bool :=
  (statement? env τ.pre τ.action).any fun stmt => stmt.taskId == id && stmt.reopens

/-- Every other statement leaves a disabled row disabled. -/
theorem Statement.applyRow_disabled {now : DateTime} {r : TaskRow} (hreopens : stmt.reopens = false)
    (hdisabled : r.status = taskDisabled) :
    ∃ r', stmt.applyRow now (some r) = some r' ∧ r'.status = taskDisabled := by
  cases hguard : stmt.guard now r with
  | false => exact ⟨r, Statement.applyRow_of_guard_false hguard, hdisabled⟩
  | true =>
      cases stmt with
      | cancelTask id => exact ⟨_, Statement.applyRow_of_guard rfl hguard, rfl⟩
      | claimTaskExecution id e node expected next =>
          have hexpected := (claim_guard.mp hguard).1
          rw [hdisabled] at hexpected
          simp [Statement.reopens, ← hexpected] at hreopens
      | completeTaskExecution id e status next last retry =>
          have hrunning := (complete_guard.mp hguard).1
          rw [hdisabled] at hrunning
          exact absurd hrunning (by decide)
      | recoverTaskExecution id e =>
          simp only [Statement.guard, Bool.and_eq_true, beq_iff_eq] at hguard
          rw [hdisabled] at hguard
          exact absurd hguard.1 (by decide)
      | addTask task => cases hguard
      | _ => cases hreopens

/-- A disabled row stays disabled until it is reopened. -/
theorem disabled_of_run (hrun : Run (step env) s trace s')
    (hquiet : ∀ z ∈ trace, z.reopens env id = false)
    (hinit : ∃ row, s.stores.tasks.find? id = some row ∧ row.status = taskDisabled) :
    ∃ row, s'.stores.tasks.find? id = some row ∧ row.status = taskDisabled := by
  apply hrun.invariant
    (P := fun s => ∃ row, s.stores.tasks.find? id = some row ∧ row.status = taskDisabled) hinit
  rintro z hz hstep ⟨row, hrow, hdisabled⟩
  rcases row_of_step hstep id with hsame | ⟨stmt, hstmt, -, rfl⟩
  · exact ⟨row, hsame.trans hrow, hdisabled⟩
  · have hreopens : stmt.reopens = false := by
      simpa [SystemTransition.reopens, hstmt] using hquiet z hz
    rw [find?_step hstep, hstmt]
    simp only [if_true, hrow]
    exact Statement.applyRow_disabled hreopens hdisabled

/-! ## `CancelTask` -/

/-- Thread `tid` of process `p` executes the `UPDATE` of its `CancelTask` for the
given text in this transition, and it takes effect on the row `id`. -/
def SystemTransition.Cancels (env : Env) (tid p : Nat) (id text : String) (τ : SystemTransition) :
    Prop :=
  ∃ inp failure, τ.action = .run tid inp ∧
    τ.pre.threads tid = some ⟨p, .handler (.canceling id text failure)⟩ ∧ τ.returned env = true

variable {text : String}

/-- What the `UPDATE` leaves. -/
theorem SystemTransition.Cancels.row (h : τ.Cancels env tid p id text)
    (hstep : step env τ.pre τ.action = some τ.post) :
    ∃ row, τ.post.stores.tasks.find? id = some row ∧ row.status = taskDisabled := by
  obtain ⟨inp, failure, haction, hth, hreturned⟩ := h
  obtain ⟨hstmt, -⟩ := SystemTransition.statement_of_returned
    (SystemTransition.thread?_eq_some.mpr ⟨tid, inp, haction, hth⟩) rfl hreturned
  obtain ⟨r, -, -, hrow⟩ := SystemTransition.post_of_returned hstep hstmt rfl hreturned
  exact ⟨_, hrow, rfl⟩

/-- Afterwards the handler is about to cancel in the registry. -/
theorem SystemTransition.Cancels.thread (h : τ.Cancels env tid p id text)
    (hstep : step env τ.pre τ.action = some τ.post) :
    τ.post.threads tid = some ⟨p, .handler (.cancelingRegistered text)⟩ := by
  obtain ⟨inp, failure, haction, hth, hreturned⟩ := h
  obtain ⟨hstmt, hok⟩ := SystemTransition.statement_of_returned
    (SystemTransition.thread?_eq_some.mpr ⟨tid, inp, haction, hth⟩) rfl hreturned
  rw [haction] at hstep hstmt
  simp only [statement?, hth, Option.bind_some] at hstmt
  have hreply : (Thread.exec env inp τ.pre.stores
      ⟨p, .handler (.canceling id text failure)⟩).2.ok = true := (Access.exec_ok hstmt).trans hok
  rw [thread_of_run hstep hth]
  simp only [Thread.advance, Pc.next, HandlerPc.next, hreply, if_true]

/-- A handler that has disabled the row and has replied has canceled in the
registry in between. -/
theorem canceled_of_replied {response : Response} (hrun : Run (step env) s trace s')
    (hinit : s.threads tid = some ⟨p, .handler (.cancelingRegistered text)⟩)
    (hreplied : s'.threads tid = some ⟨p, .handler (.replied response)⟩) :
    ∃ y ∈ trace, ∃ inp, y.action = .run tid inp ∧
      y.pre.threads tid = some ⟨p, .handler (.cancelingRegistered text)⟩ := by
  have hpast : (∃ y ∈ trace, ∃ inp, y.action = .run tid inp ∧
        y.pre.threads tid = some ⟨p, .handler (.cancelingRegistered text)⟩) ∨
      s'.threads tid = some ⟨p, .handler (.cancelingRegistered text)⟩ ∨
      ∃ q, s'.threads tid = some ⟨q, .dead⟩ := by
    apply hrun.history_invariant (P := fun (trace : List SystemTransition) s' =>
      (∃ y ∈ trace, ∃ inp, y.action = .run tid inp ∧
          y.pre.threads tid = some ⟨p, .handler (.cancelingRegistered text)⟩) ∨
        s'.threads tid = some ⟨p, .handler (.cancelingRegistered text)⟩ ∨
        ∃ q, s'.threads tid = some ⟨q, .dead⟩)
    · exact Or.inr (Or.inl hinit)
    · rintro earlier z - - hstep (⟨y, hy, hruns⟩ | hth | ⟨q, hth⟩)
      · exact Or.inl ⟨y, List.mem_append_left _ hy, hruns⟩
      · rcases thread_step hstep hth with ⟨hstays, -⟩ | ⟨inp, haction, -⟩ | ⟨q, -, hdies⟩
        · exact Or.inr (Or.inl hstays)
        · exact Or.inl ⟨z, by simp, inp, haction, hth⟩
        · exact Or.inr (Or.inr ⟨q, hdies⟩)
      · rcases thread_step hstep hth with ⟨hstays, -⟩ | ⟨inp, -, hmoves⟩ | ⟨q, -, hdies⟩
        · exact Or.inr (Or.inr ⟨q, hstays⟩)
        · exact Or.inr (Or.inr ⟨q, hmoves⟩)
        · exact Or.inr (Or.inr ⟨q, hdies⟩)
  rcases hpast with hdone | hth | ⟨q, hth⟩
  · exact hdone
  · rw [hreplied] at hth
    cases hth
  · rw [hreplied] at hth
    cases hth

/-- The process of the handler after its `TaskCancellationRegistry::cancel`. -/
theorem procs_of_cancel (hstep : step env s a = some s') (haction : a = .run tid inp)
    (hth : s.threads tid = some ⟨p, .handler (.cancelingRegistered text)⟩) :
    s'.stores.procs p = (s.stores.procs p).cancelTask text := by
  rw [haction] at hstep
  rw [stores_of_run hstep hth]
  simp [Thread.exec, Thread.access, Pc.access, HandlerPc.access, Access.exec, LocalAccess.exec]

/-- Every dispatch of the task in the process that has registered and not yet
unregistered has been canceled. -/
def RegisteredCanceled (p : Nat) (id : String) (s s' : State) : Prop :=
  ∀ d held, Inside p d held s → d.task.id = id → held.registered = true →
    (s'.stores.procs p).canceled d.source = true

/-- `TaskCancellationRegistry::cancel` reaches the dispatches of the task exactly
if it is given the id of the row, unless they have been canceled already. -/
theorem registeredCanceled_iff {y : SystemTransition} (hrun : Run (step env) s₀ trace s)
    (hstart : ∀ tid, s₀.threads tid = none) (hkept : ∀ τ ∈ trace, LockKept true env τ)
    (hy : y ∈ trace) (haction : y.action = .run tid inp)
    (hth : y.pre.threads tid = some ⟨p, .handler (.cancelingRegistered text)⟩)
    (hone : text = id ∨ (y.pre.stores.procs p).registry text = none) :
    RegisteredCanceled p id y.pre y.post ↔ text = id ∨ RegisteredCanceled p id y.pre y.pre := by
  have hprocs := procs_of_cancel (hrun.step_of_mem hy) haction hth
  by_cases htext : text = id
  · refine iff_of_true (fun d held hinside hid hregistered => ?_) (Or.inl htext)
    obtain ⟨earlier, hearlier, hinitial⟩ := hrun.pre_of_mem hy
    have hentry := registry_of_run hearlier hstart (fun x hx => hkept x (hinitial.subset hx))
      p d held hinside hregistered
    rw [hprocs, htext, ← hid]
    simp [Process.cancelTask, hentry, Process.cancel]
  · have hnone := hone.resolve_left htext
    have hsame : y.post.stores.procs p = y.pre.stores.procs p := by
      rw [hprocs]
      simp only [Process.cancelTask, hnone]
    simp only [RegisteredCanceled, hsame, htext, false_or]

/-- The dispatch of the sample task in its first execution. -/
def sampleDispatch : Dispatch :=
  ⟨taskFromResult (insertedRow 0 sampleTask), "t:0:0", 0⟩

/-- Thread `tid` has this execution in progress and registered. -/
def carriesSample (tid : Nat) (s : State) : Bool :=
  (s.threads tid).any fun th => th.proc == 0 && th.pc.locked?.any fun x =>
    x.1.task == sampleDispatch.task && x.1.executionId == sampleDispatch.executionId &&
      x.1.source == sampleDispatch.source && x.2.claimed && x.2.registered

theorem of_carriesSample (h : carriesSample tid s = true) :
    ∃ held, Inside 0 sampleDispatch held s ∧ held.claimed = true ∧ held.registered = true := by
  simp only [carriesSample, Option.any_eq_true, Bool.and_eq_true, beq_iff_eq] at h
  obtain ⟨⟨p, pc⟩, hth, rfl, ⟨⟨task, e, source⟩, held⟩, hlocked, ⟨⟨⟨rfl, rfl⟩, rfl⟩, hclaimed⟩,
    hregistered⟩ := h
  exact ⟨held, ⟨tid, pc, hth, hlocked⟩, hclaimed, hregistered⟩

theorem inProgress_of_carriesSample (h : carriesSample tid s = true) :
    InProgress 0 sampleDispatch s := by
  obtain ⟨held, hinside, hclaimed, -⟩ := of_carriesSample h
  exact ⟨held, hinside, hclaimed⟩

/-- Thread `3` executes the `UPDATE` of a `CancelTask` of the sample task. -/
def cancelsSample (env : Env) (text : String) (τ : SystemTransition) : Bool :=
  match τ.action with
  | .run 3 _ =>
      match τ.pre.threads 3 with
      | some ⟨0, .handler (.canceling id spelled _)⟩ =>
          id == "t" && spelled == text && τ.returned env
      | _ => false
  | _ => false

theorem of_cancelsSample (h : cancelsSample env text τ = true) :
    τ.Cancels env 3 0 "t" text := by
  unfold cancelsSample at h
  split at h
  · rename_i inp haction
    split at h
    · rename_i id spelled failure hth
      simp only [Bool.and_eq_true, beq_iff_eq] at h
      obtain ⟨⟨rfl, rfl⟩, hreturned⟩ := h
      exact ⟨inp, failure, haction, hth, hreturned⟩
    · cases h
  · cases h

/-- Thread `3` of process 0 has answered its request with success. -/
def repliedBy3 (s : State) : Bool :=
  match s.threads 3 with
  | some ⟨0, .handler (.replied (.status true ""))⟩ => true
  | _ => false

theorem of_repliedBy3 (h : repliedBy3 s = true) :
    s.threads 3 = some ⟨0, .handler (.replied (.status true ""))⟩ := by
  unfold repliedBy3 at h
  split at h
  · assumption
  · cases h

/-- The sample task is canceled under the given text while its closure waits in
the queue. -/
def cancelRun (text : String) : List Action :=
  [.boot 0 0 1] ++ runs 0 9 ++
    [.run 0 { fresh := 2 }, .request 0 3 { request := .cancelTask "t" text } {}] ++ runs 3 2

/-- The sample nodes with a database that ignores case. -/
def foldingEnv : Env :=
  { sampleEnv with
    sameId := fun text id => text.toList.map Char.toLower == id.toList.map Char.toLower }

end Corpcron
