import Corpcron.System.LocalData

/-!
# Completions under shutdown

The closure reads the shutdown flag for the last time when it chooses the state
in which the task is left, after the worker has answered and after the history
row is written.  If the flag is set, it writes back the scanned time, also after
a success: the occurrence that has just been executed is due again.
`success_moves_on_iff` says what the flag and the local times have to be for a
successful execution to move the task on.
-/

namespace Corpcron

open Lib

/-- The closure before `completeTaskExecution`. -/
def Pc.completes : Pc → Bool
  | .execution _ (.completing _ _) => true
  | _ => false

theorem Pc.completes_iff {pc : Pc} :
    pc.completes = true ↔ ∃ d endTime next, pc = .execution d (.completing endTime next) := by
  unfold Pc.completes
  split <;> simp_all

/-- A stored time is set and later than the end of an execution. -/
def isLater (next ended : Option DateTime) : Bool :=
  next.any fun n => ended.any fun e => decide (e < n)

/-- The closure after its choice: it is about to write the given state, or has
written. -/
def CarriesChoice (d : Dispatch) (endTime : Option DateTime) (next : NextState) : Pc → Prop
  | .execution d' (.completing endTime' next') => d' = d ∧ endTime' = endTime ∧ next' = next
  | .execution _ .unregistering => True
  | .execution _ .removingLease => True
  | .execution _ .unlocking => True
  | .execution _ .finished => True
  | .dead => True
  | _ => False

theorem carriesChoice_next {d : Dispatch} {endTime : Option DateTime} {next : NextState}
    {pf : Platform} {cfg : NodeConfig} {inp : Input} {reply : Reply} {pc : Pc}
    (h : CarriesChoice d endTime next pc) :
    CarriesChoice d endTime next (pc.next pf cfg inp reply) := by
  cases pc with
  | execution d' stage =>
      cases stage with
      | completing endTime' next' => trivial
      | unregistering => trivial
      | removingLease => trivial
      | unlocking => trivial
      | finished => trivial
      | _ => exact False.elim h
  | dead => trivial
  | _ => exact False.elim h

/-- After its choice the closure carries the state chosen with the flag it has
read. -/
theorem carriesChoice_of_choosing (env : Env) (stores : Stores) (p : Nat) (inp : Input)
    (d : Dispatch) (endMs : Nat) (outcome : ExecutionOutcome) :
    CarriesChoice d (toDatetimeString env.platform endMs)
      (nextState env.platform d.task outcome.success (stores.procs p).shutdown endMs inp.clockMs)
      (Thread.advance env inp stores ⟨p, .execution d (.choosing endMs outcome)⟩).pc := by
  simp only [Thread.advance, Pc.next, ExecutionStage.next, ExecutionStage.orUnwind]
  split
  · trivial
  · exact ⟨rfl, rfl, rfl⟩

/-- The state chosen after a success is later than the end, or disabled, exactly
if the time it is taken from is. -/
theorem nextState_success_iff {pf : Platform} {task : TaskMeta} {shutdown : Bool}
    {endMs systemNowMs : Nat} :
    ((nextState pf task true shutdown endMs systemNowMs).status = taskDisabled ∨
        isLater (nextState pf task true shutdown endMs systemNowMs).nextRunAt
          (toDatetimeString pf endMs) = true) ↔
      if shutdown then isLater task.nextRunAt (toDatetimeString pf endMs) = true
      else nextExecution pf task.cronExpr endMs systemNowMs = 0 ∨
        isLater (toDatetimeString pf (nextExecution pf task.cronExpr endMs systemNowMs))
          (toDatetimeString pf endMs) = true := by
  have hne : taskScheduled ≠ taskDisabled := by decide
  cases shutdown with
  | true => simp [nextState, hne]
  | false =>
      by_cases hnone : nextExecution pf task.cronExpr endMs systemNowMs = 0
      · simp [nextState, hnone]
      · simp [nextState, hnone, hne]

/-- **A successful execution and its occurrence.**  For the choice of the next
state after a success, and the effective completion by the same closure: the
task is left disabled or with a time later than the end of the execution exactly
if the shutdown flag was not set at the choice and cron has no further
occurrence or one with a later local time, or the flag was set and the scanned
time is itself later than the end. -/
theorem success_moves_on_iff {env : Env} {s₀ s : State}
    {before between after : List SystemTransition} {τh τe : SystemTransition} {tid p : Nat}
    {inp : Input} {d : Dispatch} {endMs : Nat} {outcome : ExecutionOutcome}
    (hrun : Run (step env) s₀ (before ++ τh :: (between ++ τe :: after)) s)
    (haction : τh.action = .run tid inp)
    (hchoosing : τh.pre.threads tid = some ⟨p, .execution d (.choosing endMs outcome)⟩)
    (hsuccess : outcome.success = true)
    (hcomplete : τe.runsAt tid Pc.completes = true) (hcompleted : τe.returned env = true) :
    ∃ rowAfter, τe.post.stores.tasks.find? d.task.id = some rowAfter ∧
      rowAfter.lastRunAt = toDatetimeString env.platform endMs ∧
      ((rowAfter.status = taskDisabled ∨
          isLater rowAfter.nextRunAt (toDatetimeString env.platform endMs) = true) ↔
        if (τh.pre.stores.procs p).shutdown then
          isLater d.task.nextRunAt (toDatetimeString env.platform endMs) = true
        else nextExecution env.platform d.task.cronExpr endMs inp.clockMs = 0 ∨
          isLater (toDatetimeString env.platform
              (nextExecution env.platform d.task.cronExpr endMs inp.clockMs))
            (toDatetimeString env.platform endMs) = true) := by
  obtain ⟨pc, hcompletes, hpc⟩ := SystemTransition.runsAt_iff.mp hcomplete
  obtain ⟨d', endTime, next, rfl⟩ := Pc.completes_iff.mp hpc
  have hcarried : CarriesChoice d (toDatetimeString env.platform endMs)
      (nextState env.platform d.task true (τh.pre.stores.procs p).shutdown endMs inp.clockMs)
      (.execution d' (.completing endTime next)) := by
    apply carried_of_advance hrun haction hchoosing hcompletes trivial
    · -- The flag that the step reads is the one of the state before it.
      rw [← hsuccess]
      exact carriesChoice_of_choosing env τh.pre.stores p inp d endMs outcome
    · exact fun _ _ _ _ _ _ _ => carriesChoice_next
  obtain ⟨rfl, rfl, rfl⟩ := hcarried
  obtain ⟨-, hstep, -⟩ := hrun.split.2.2.split
  obtain ⟨-, row, -, -, hrow⟩ :=
    SystemTransition.rows_of_returned hstep hcompletes (fun _ => rfl) (fun _ => rfl) hcompleted
  exact ⟨_, hrow, rfl, nextState_success_iff⟩

/-- The closure of thread `tid` of process `p` chooses the next state of the
sample task after a success that ended at second `11`. -/
def choosesAtEleven (tid p : Nat) (shutdown : Bool) (τ : SystemTransition) : Bool :=
  match τ.action with
  | .run t inp =>
      match τ.pre.threads t with
      | some ⟨q, .execution d (.choosing endMs outcome)⟩ =>
          t == tid && q == p && inp.clockMs == 11000 && endMs == 11000 && outcome.success &&
            d.task == taskFromResult (insertedRow 0 sampleTask) &&
            (τ.pre.stores.procs q).shutdown == shutdown
      | _ => false
  | _ => false

theorem of_choosesAtEleven {tid p : Nat} {shutdown : Bool} {τ : SystemTransition}
    (h : choosesAtEleven tid p shutdown τ = true) :
    ∃ inp d outcome, τ.action = .run tid inp ∧
      τ.pre.threads tid = some ⟨p, .execution d (.choosing 11000 outcome)⟩ ∧
      inp.clockMs = 11000 ∧ outcome.success = true ∧
      d.task = taskFromResult (insertedRow 0 sampleTask) ∧
      (τ.pre.stores.procs p).shutdown = shutdown := by
  unfold choosesAtEleven at h
  split at h
  · rename_i t inp haction
    split at h
    · rename_i q d endMs outcome hth
      simp only [Bool.and_eq_true, beq_iff_eq] at h
      obtain ⟨⟨⟨⟨⟨⟨rfl, rfl⟩, hclock⟩, rfl⟩, hsuccess⟩, htask⟩, hshutdown⟩ := h
      exact ⟨inp, d, outcome, haction, hth, hclock, hsuccess, htask, hshutdown⟩
    · cases h
  · cases h

/-- A node claims and executes the sample task. -/
def successRun : List Action :=
  [.boot 0 0 1] ++ runs 0 9 ++ [.run 0 { fresh := 2 }] ++ executes 2 11000 6

theorem success_moves_on_iff_running :
    ∃ (before between after : List SystemTransition) (τh τe : SystemTransition) (s : State),
      Run (step sampleEnv) sampleState (before ++ τh :: (between ++ τe :: after)) s ∧
      choosesAtEleven 2 0 false τh = true ∧ τe.runsAt 2 Pc.completes = true ∧
      ∃ row, τe.post.stores.tasks.find? "t" = some row ∧
        (row.status = taskDisabled ∨ isLater row.nextRunAt (some 11) = true) := by
  obtain ⟨s, hrun⟩ := exists_run_of_isSome
    (show (execute (step sampleEnv) sampleState successRun).isSome = true by decide)
  generalize htrace : executeTrace (step sampleEnv) sampleState successRun = trace at hrun
  obtain ⟨τh, hcut, hchoose⟩ := exists_cut_of_getElem? (l := trace) 15
    (p := choosesAtEleven 2 0 false) (by subst htrace; decide)
  obtain ⟨τe, hcut', hcomplete⟩ := exists_cut_of_getElem? (l := trace.drop 16) 0
    (p := fun τ => SystemTransition.runsAt 2 Pc.completes τ &&
      SystemTransition.returned sampleEnv τ) (by subst htrace; decide)
  simp only [Bool.and_eq_true] at hcomplete
  rw [hcut, hcut'] at hrun
  obtain ⟨inp, d, outcome, haction, hth, hclock, hsuccess, htask, hshutdown⟩ :=
    of_choosesAtEleven hchoose
  obtain ⟨row, hrow, -, hiff⟩ :=
    success_moves_on_iff hrun haction hth hsuccess hcomplete.1 hcomplete.2
  rw [htask] at hrow
  refine ⟨_, _, _, τh, τe, s, hrun, hchoose, hcomplete.1, row, hrow, hiff.mpr ?_⟩
  rw [hshutdown, htask, hclock]
  decide

/-- The same, but the node is stopped after the worker has answered and the
history row is written. -/
def stoppedRun : List Action :=
  [.boot 0 0 1] ++ runs 0 9 ++ [.run 0 { fresh := 2 }] ++ executes 2 11000 4 ++ [.stop 0] ++
    executes 2 11000 2

/-- The execution has succeeded at second `11`, and the task is scheduled for
second `10` again. -/
theorem success_scheduled_again :
    ∃ (env : Env) (s₀ s : State) (before between after : List SystemTransition)
        (τh τe : SystemTransition) (tid p : Nat) (inp : Input) (d : Dispatch) (endMs : Nat)
        (outcome : ExecutionOutcome),
      Run (step env) s₀ (before ++ τh :: (between ++ τe :: after)) s ∧
      (∀ tid, s₀.threads tid = none) ∧ τh.action = .run tid inp ∧
      τh.pre.threads tid = some ⟨p, .execution d (.choosing endMs outcome)⟩ ∧
      outcome.success = true ∧ τe.runsAt tid Pc.completes = true ∧ τe.returned env = true ∧
      toDatetimeString env.platform endMs = some 11 ∧
      ∃ row, τe.post.stores.tasks.find? d.task.id = some row ∧ row.status = taskScheduled ∧
        row.nextRunAt = some 10 := by
  obtain ⟨s, hrun⟩ := exists_run_of_isSome
    (show (execute (step sampleEnv) sampleState stoppedRun).isSome = true by decide)
  generalize htrace : executeTrace (step sampleEnv) sampleState stoppedRun = trace at hrun
  obtain ⟨τh, hcut, hchoose⟩ := exists_cut_of_getElem? (l := trace) 16
    (p := choosesAtEleven 2 0 true) (by subst htrace; decide)
  obtain ⟨τe, hcut', hcomplete⟩ := exists_cut_of_getElem? (l := trace.drop 17) 0
    (p := fun τ => SystemTransition.runsAt 2 Pc.completes τ &&
      SystemTransition.returned sampleEnv τ && (τ.post.stores.tasks.find? "t").any fun row =>
        row.status == taskScheduled && row.nextRunAt == some 10) (by subst htrace; decide)
  simp only [Bool.and_eq_true, Option.any_eq_true, beq_iff_eq] at hcomplete
  rw [hcut, hcut'] at hrun
  obtain ⟨inp, d, outcome, haction, hth, -, hsuccess, htask, -⟩ := of_choosesAtEleven hchoose
  refine ⟨sampleEnv, sampleState, s, _, _, _, τh, τe, 2, 0, inp, d, 11000, outcome, hrun,
    fun _ => rfl, haction, hth, hsuccess, hcomplete.1.1, hcomplete.1.2, by decide, ?_⟩
  rw [htask]
  exact hcomplete.2

end Corpcron
