import Corpcron.System.Shutdown

/-!
# Tasks without a worker

Discovery is asked twice for a worker: by the scheduler thread when it goes
through its list, and by `executeTask` when the closure has left the queue.  The
first time a task without a worker is simply left out of the pass.  The second
time the execution has been claimed, and a missing worker is an outcome like any
other failure: it is recorded in the history, and the completion counts a retry.

`missing_worker_keeps_retries_iff` is about both lookups.  Only a node that is
being stopped puts the task back as it was scanned.
-/

namespace Corpcron

open Lib

variable {env : Env} {s s₀ : State} {τ : SystemTransition} {tid p : Nat} {inp : Input}
  {d : Dispatch} {pc : Pc} {A : NextState → Prop} {cfg : NodeConfig}

/-! ## The lookup of the scan -/

/-- The scheduler thread looks at a task and knows no worker for it: discovery
finds none, or has found none for its handler earlier in the pass. -/
def SystemTransition.MissesAtScan (env : Env) (tid : Nat) (task : TaskMeta)
    (rest : List TaskMeta) (τ : SystemTransition) : Prop :=
  ∃ inp p available, τ.action = .run tid inp ∧
    τ.pre.threads tid = some ⟨p, .scheduler (.iterating ⟨task :: rest, available⟩)⟩ ∧
    misfireSkip env.platform (env.node p) task inp.clockMs = none ∧
    (available.lookup task.handler = some false ∨
      available.lookup task.handler = none ∧ inp.endpoints = [])

/-- The thread goes on with the rest of its list. -/
theorem Pass.begin_of_miss {pf : Platform} {task : TaskMeta} (rest : List TaskMeta)
    {available : List (String × Bool)} (hdue : misfireSkip pf cfg task inp.clockMs = none)
    (hmiss : available.lookup task.handler = some false ∨
      available.lookup task.handler = none ∧ inp.endpoints = []) :
    ∃ available', Pass.begin pf cfg inp ⟨task :: rest, available⟩ =
      .iterating ⟨rest, available'⟩ := by
  rcases hmiss with hknown | ⟨hasked, hnone⟩
  · exact ⟨available, by simp [Pass.begin, hdue, hknown]⟩
  · exact ⟨(task.handler, false) :: available, by simp [Pass.begin, hdue, hasked, hnone]⟩

/-- Nothing is stored, and the task is left out of the pass. -/
theorem skipped_of_missesAtScan {task : TaskMeta} {rest : List TaskMeta}
    (hstep : step env τ.pre τ.action = some τ.post) (hmiss : τ.MissesAtScan env tid task rest) :
    τ.post.stores = τ.pre.stores ∧
      ∃ p available, τ.post.threads tid = some ⟨p, .scheduler (.iterating ⟨rest, available⟩)⟩ := by
  obtain ⟨inp, p, available, haction, hth, hdue, hmiss⟩ := hmiss
  obtain ⟨available', hbegin⟩ := Pass.begin_of_miss rest hdue hmiss
  rw [haction] at hstep
  refine ⟨stores_of_run hstep hth, p, available', ?_⟩
  rw [thread_of_run hstep hth]
  simp only [Thread.advance, Pc.next, SchedulerPc.next, hbegin]

/-! ## The lookup of `executeTask` -/

/-- In `executeTask` the execution is not canceled, and discovery finds no
endpoint. -/
def SystemTransition.MissesInExecution (tid : Nat) (d : Dispatch) (τ : SystemTransition) : Prop :=
  ∃ inp p startMs, τ.action = .run tid inp ∧
    τ.pre.threads tid = some ⟨p, .execution d (.checking startMs)⟩ ∧
    ((τ.pre.stores.procs p).shutdown || (τ.pre.stores.procs p).canceled d.source) = false ∧
    inp.endpoints = []

/-- The outcome with which a closure calls `addHistory`. -/
def Pc.recorded? : Pc → Option ExecutionOutcome
  | .execution _ (.recording _ _ outcome) => some outcome
  | _ => none

/-- The closure before it chooses the next state. -/
def Pc.chooses : Pc → Bool
  | .execution _ (.choosing _ _) => true
  | _ => false

/-- The call to MySQL or Redis of an action fails. -/
def Action.faults : Action → Bool
  | .run _ inp => inp.fault
  | _ => false

/-- Thread `tid` writes a failed history row. -/
def SystemTransition.recordsFailure (tid : Nat) (τ : SystemTransition) : Bool :=
  !τ.action.faults && τ.runsAt tid fun pc => pc.recorded?.any fun outcome => !outcome.success

/-- Thread `tid` chooses the next state of its task while its process is not
being stopped. -/
def SystemTransition.choosesRunning (tid : Nat) (τ : SystemTransition) : Bool :=
  τ.runsAt tid Pc.chooses &&
    (τ.pre.threads tid).any fun th => !(τ.pre.stores.procs th.proc).shutdown

/-- A closure whose execution has failed; once it has chosen, the next state
satisfies `A`. -/
def CarriesFailure (d : Dispatch) (A : NextState → Prop) : Pc → Prop
  | .execution d' (.recording _ _ outcome) => d' = d ∧ outcome.success = false
  | .execution d' (.choosing _ outcome) => d' = d ∧ outcome.success = false
  | .execution d' (.completing _ next) => d' = d ∧ A next
  | .execution _ .unregistering => True
  | .execution _ .removingLease => True
  | .execution _ .unlocking => True
  | .execution _ .finished => True
  | .dead => True
  | _ => False

theorem carriesFailure_of_miss {stores : Stores} {startMs : Nat}
    (hcanceled : ((stores.procs p).shutdown || (stores.procs p).canceled d.source) = false)
    (hmiss : inp.endpoints = []) :
    CarriesFailure d A (Thread.advance env inp stores ⟨p, .execution d (.checking startMs)⟩).pc := by
  have hreply : (Thread.exec env inp stores ⟨p, .execution d (.checking startMs)⟩).2.ok = false :=
    hcanceled
  simp only [Thread.advance, Pc.next, ExecutionStage.next, executeTaskPrecheck, hreply, hmiss,
    ExecutionStage.orUnwind, List.isEmpty_nil, Bool.false_eq_true, if_false, if_true]
  split
  · trivial
  · exact ⟨rfl, rfl⟩

/-- The failure is carried on; what is chosen after it depends on the shutdown
flag. -/
theorem carriesFailure_advance {stores : Stores}
    (hchoice : ∀ endMs, pc.chooses = true →
      A (nextState env.platform d.task false (stores.procs p).shutdown endMs inp.clockMs))
    (h : CarriesFailure d A pc) :
    CarriesFailure d A (Thread.advance env inp stores ⟨p, pc⟩).pc := by
  cases pc with
  | execution d' stage =>
      cases stage with
      | recording startMs endMs outcome =>
          simp only [Thread.advance, Pc.next, ExecutionStage.next, ExecutionStage.orUnwind]
          split
          · trivial
          · exact h
      | choosing endMs outcome =>
          obtain ⟨rfl, hfailed⟩ := h
          have hreply : (Thread.exec env inp stores
              ⟨p, .execution d' (.choosing endMs outcome)⟩).2.ok = (stores.procs p).shutdown := rfl
          simp only [Thread.advance, Pc.next, ExecutionStage.next, ExecutionStage.orUnwind, hreply,
            hfailed]
          split
          · trivial
          · exact ⟨rfl, hchoice endMs rfl⟩
      | completing endTime next => trivial
      | unregistering => trivial
      | removingLease => trivial
      | unlocking => trivial
      | finished => trivial
      | _ => exact False.elim h
  | dead => trivial
  | _ => exact False.elim h

/-- What such a closure records is a failure. -/
theorem failed_of_recorded (h : CarriesFailure d A pc) (hrecorded : pc.recorded?.isSome = true) :
    (pc.recorded?.any fun outcome => !outcome.success) = true := by
  cases pc with
  | execution d' stage =>
      cases stage with
      | recording startMs endMs outcome => simp [Pc.recorded?, h.2]
      | _ => cases hrecorded
  | _ => cases hrecorded

/-- Without a stop a failure counts as a retry. -/
theorem nextState_failure_retryCount (pf : Platform) (task : TaskMeta) (endMs systemNowMs : Nat) :
    (nextState pf task false false endMs systemNowMs).retryCount = task.retryCount + 1 := by
  simp only [nextState, Bool.false_eq_true, if_false]
  split <;> rfl

/-- The closure whose lookup has found no worker carries the failure to each of
its later steps. -/
theorem carriesFailure_of_run {before between after : List SystemTransition} {τk : SystemTransition}
    (hrun : Run (step env) s₀ (before ++ τk :: (between ++ τ :: after)) s)
    (hmiss : τk.MissesInExecution tid d) (hruns : τ.runs? = some (tid, pc))
    (hchoice : ∀ x ∈ between, ∀ p inp endMs, x.runsAt tid Pc.chooses = true →
      (∃ pc, x.pre.threads tid = some ⟨p, pc⟩) →
      A (nextState env.platform d.task false (x.pre.stores.procs p).shutdown endMs
        (Input.clockMs inp))) :
    CarriesFailure d A pc := by
  obtain ⟨inp, p, startMs, haction, hth, hcanceled, hnone⟩ := hmiss
  apply carried_of_advance hrun haction hth hruns trivial
  · exact carriesFailure_of_miss hcanceled hnone
  · intro x hx p' pc' inp' haction' hth'
    apply carriesFailure_advance
    intro endMs hchooses
    refine hchoice x hx p' inp' endMs (SystemTransition.runsAt_iff.mpr ⟨pc', ?_, hchooses⟩)
      ⟨pc', hth'⟩
    exact SystemTransition.runs?_eq_some.mpr ⟨inp', p', haction', hth'⟩

/-- Between the miss and a later step all steps of the closure carry the
failure. -/
theorem carriesFailure_between {before between after : List SystemTransition}
    {τk x : SystemTransition} (hrun : Run (step env) s₀ (before ++ τk :: (between ++ τ :: after)) s)
    (hmiss : τk.MissesInExecution tid d) (hx : x ∈ between) (hruns : x.runs? = some (tid, pc)) :
    CarriesFailure d (fun _ => True) pc := by
  obtain ⟨first, last, rfl⟩ := List.append_of_mem hx
  have hrun' : Run (step env) s₀
      (before ++ τk :: (first ++ x :: (last ++ τ :: after))) s := by simpa using hrun
  exact carriesFailure_of_run hrun' hmiss hruns fun _ _ _ _ _ _ _ => trivial

/-- A choice that is made while the process runs on leads to a retry. -/
theorem retryCount_of_choosesRunning {before between after : List SystemTransition}
    {x τe : SystemTransition} {d' : Dispatch} {endTime : Option DateTime} {next : NextState}
    (hrun : Run (step env) s₀ (before ++ x :: (between ++ τe :: after)) s)
    (hx : x.runs? = some (tid, pc)) (hfailed : CarriesFailure d (fun _ => True) pc)
    (hchooses : x.choosesRunning tid = true)
    (hcompletes : τe.runs? = some (tid, .execution d' (.completing endTime next))) :
    next.retryCount = d.task.retryCount + 1 := by
  obtain ⟨inp, p, haction, hth⟩ := SystemTransition.runs?_eq_some.mp hx
  simp only [SystemTransition.choosesRunning, SystemTransition.runsAt, hx, hth, Option.any_some,
    Bool.and_eq_true, beq_self_eq_true, true_and, Bool.not_eq_true'] at hchooses
  obtain ⟨hpc, hflag⟩ := hchooses
  unfold Pc.chooses at hpc
  split at hpc
  · rename_i dx endMs outcome
    obtain ⟨rfl, houtcome⟩ := hfailed
    have hcarried : CarriesChoice dx (toDatetimeString env.platform endMs)
        (nextState env.platform dx.task false false endMs inp.clockMs)
        (.execution d' (.completing endTime next)) := by
      apply carried_of_advance hrun haction hth hcompletes trivial
      · have hchosen := carriesChoice_of_choosing env x.pre.stores p inp dx endMs outcome
        rw [houtcome, hflag] at hchosen
        exact hchosen
      · exact fun _ _ _ _ _ _ _ => carriesChoice_next
    rw [hcarried.2.2]
    exact nextState_failure_retryCount _ _ _ _
  · cases hpc

/-- Such a closure writes no failed history row in a step exactly if its
`addHistory` fails. -/
theorem recordsFailure_eq_false_iff {x : SystemTransition}
    (hfailed : ∀ pc, x.runs? = some (tid, pc) → CarriesFailure d A pc) :
    x.recordsFailure tid = false ↔
      (x.runsAt tid (fun pc => pc.recorded?.isSome) = true → x.action.faults = true) := by
  constructor
  · intro hquiet hrecording
    obtain ⟨pc, hruns, hrecorded⟩ := SystemTransition.runsAt_iff.mp hrecording
    have hfailure := failed_of_recorded (hfailed pc hruns) hrecorded
    simpa [SystemTransition.recordsFailure, SystemTransition.runsAt, hruns, hfailure] using hquiet
  · intro hfaults
    rw [Bool.eq_false_iff]
    intro hrecords
    simp only [SystemTransition.recordsFailure, Bool.and_eq_true, Bool.not_eq_true'] at hrecords
    obtain ⟨hdone, hrecording⟩ := hrecords
    obtain ⟨pc, hruns, hrecorded⟩ := SystemTransition.runsAt_iff.mp hrecording
    have hsome : pc.recorded?.isSome = true := by
      cases houtcome : pc.recorded? with
      | none =>
          rw [houtcome] at hrecorded
          cases hrecorded
      | some outcome => rfl
    rw [hfaults (SystemTransition.runsAt_iff.mpr ⟨pc, hruns, hsome⟩)] at hdone
    cases hdone

/-- After a miss the closure completes with the scanned schedule and retry count
exactly if it does not choose while its process runs on. -/
theorem next_of_miss_iff {before between after : List SystemTransition} {τk τe : SystemTransition}
    {d' : Dispatch} {endTime : Option DateTime} {next : NextState}
    (hrun : Run (step env) s₀ (before ++ τk :: (between ++ τe :: after)) s)
    (hmiss : τk.MissesInExecution tid d)
    (hcompletes : τe.runs? = some (tid, .execution d' (.completing endTime next))) :
    (next.status = taskScheduled ∧ next.retryCount = d.task.retryCount) ↔
      ∀ x ∈ between, x.choosesRunning tid = false := by
  constructor
  · rintro ⟨-, hkept⟩ x hx
    rw [Bool.eq_false_iff]
    intro hchooses
    obtain ⟨pc, hruns, -⟩ := SystemTransition.runsAt_iff.mp (Bool.and_eq_true_iff.mp hchooses).1
    have hfailed := carriesFailure_between hrun hmiss hx hruns
    obtain ⟨first, last, rfl⟩ := List.append_of_mem hx
    have hrun' : Run (step env) s₀
        ((before ++ τk :: first) ++ x :: (last ++ τe :: after)) s := by simpa using hrun
    have hcounted := retryCount_of_choosesRunning hrun' hruns hfailed hchooses hcompletes
    omega
  · intro hstopped
    refine (carriesFailure_of_run
      (A := fun next => next.status = taskScheduled ∧ next.retryCount = d.task.retryCount)
      hrun hmiss hcompletes ?_).2
    rintro x hx p inp endMs hchooses ⟨pc', hth⟩
    have hflag := hstopped x hx
    simp only [SystemTransition.choosesRunning, hchooses, hth, Bool.true_and,
      Option.any_some, Bool.not_eq_false'] at hflag
    rw [hflag]
    exact ⟨rfl, rfl⟩

/-- **Executions without a worker.**  In every run: a scheduler thread that
finds no worker for a task changes nothing and leaves the task out of its pass.
When `executeTask` finds no worker and the closure completes the execution, the
task is left scheduled with the retry count it was scanned with, and no failed
history row is written, exactly if the calls to `addHistory` fail and the
process is being stopped when the closure chooses the next state. -/
theorem missing_worker_keeps_retries_iff {env : Env} {s₀ s : State}
    {trace : List SystemTransition} (hrun : Run (step env) s₀ trace s) :
    (∀ τ ∈ trace, ∀ tid task rest, τ.MissesAtScan env tid task rest →
      τ.post.stores = τ.pre.stores ∧
        ∃ p available, τ.post.threads tid = some ⟨p, .scheduler (.iterating ⟨rest, available⟩)⟩) ∧
    ∀ before between after τk τe tid d, trace = before ++ τk :: (between ++ τe :: after) →
      τk.MissesInExecution tid d → τe.runsAt tid Pc.completes = true → τe.returned env = true →
      ∃ row, τe.post.stores.tasks.find? d.task.id = some row ∧
        ((row.status = taskScheduled ∧ row.retryCount = d.task.retryCount ∧
            ∀ x ∈ between, x.recordsFailure tid = false) ↔
          ((∀ x ∈ between, x.runsAt tid (fun pc => pc.recorded?.isSome) = true →
              x.action.faults = true) ∧
            ∀ x ∈ between, x.choosesRunning tid = false)) := by
  constructor
  · intro τ hτ tid task rest hmiss
    exact skipped_of_missesAtScan (hrun.step_of_mem hτ) hmiss
  · rintro before between after τk τe tid d rfl hmiss hcomplete hcompleted
    obtain ⟨pc, hcompletes, hpc⟩ := SystemTransition.runsAt_iff.mp hcomplete
    obtain ⟨d', endTime, next, rfl⟩ := Pc.completes_iff.mp hpc
    have hrecords : ∀ x ∈ between, (x.recordsFailure tid = false ↔
        (x.runsAt tid (fun pc => pc.recorded?.isSome) = true → x.action.faults = true)) := by
      intro x hx
      exact recordsFailure_eq_false_iff fun _ => carriesFailure_between hrun hmiss hx
    obtain rfl : d' = d := (carriesFailure_of_run (A := fun _ => True) hrun hmiss hcompletes
      fun _ _ _ _ _ _ _ => trivial).1
    have hnext := next_of_miss_iff hrun hmiss hcompletes
    obtain ⟨-, hstep, -⟩ := hrun.split.2.2.split
    obtain ⟨-, row, -, -, hrow⟩ :=
      SystemTransition.rows_of_returned hstep hcompletes (fun _ => rfl) (fun _ => rfl) hcompleted
    refine ⟨_, hrow, ?_, ?_⟩
    · rintro ⟨hstatus, hretry, hquiet⟩
      exact ⟨fun x hx => (hrecords x hx).mp (hquiet x hx), hnext.mp ⟨hstatus, hretry⟩⟩
    · rintro ⟨hfaults, hstopped⟩
      obtain ⟨hstatus, hretry⟩ := hnext.mpr hstopped
      exact ⟨hstatus, hretry, fun x hx => (hrecords x hx).mpr (hfaults x hx)⟩

/-- The scheduler claims the sample task, and its closure finds no worker; steps
of the closure from there on are given by `rest`. -/
def lostWorkerRun (rest : List Action) : List Action :=
  [.boot 0 0 1] ++ runs 0 9 ++ [.run 0 { fresh := 2 }] ++
    List.replicate 2 (.run 2 { clockMs := 11000 }) ++ rest

/-- Thread `tid` looks for a worker for the sample task and finds none. -/
def missesSample (tid : Nat) (τ : SystemTransition) : Bool :=
  match τ.action with
  | .run t inp =>
      match τ.pre.threads t with
      | some ⟨p, .execution d (.checking _)⟩ =>
          t == tid && inp.endpoints.isEmpty &&
            !((τ.pre.stores.procs p).shutdown || (τ.pre.stores.procs p).canceled d.source) &&
            d.task == taskFromResult (insertedRow 0 sampleTask)
      | _ => false
  | _ => false

theorem of_missesSample (h : missesSample tid τ = true) :
    ∃ d, τ.MissesInExecution tid d ∧ d.task = taskFromResult (insertedRow 0 sampleTask) := by
  unfold missesSample at h
  split at h
  · rename_i t inp haction
    split at h
    · rename_i p d startMs hth
      simp only [Bool.and_eq_true, beq_iff_eq, List.isEmpty_iff, Bool.not_eq_true'] at h
      obtain ⟨⟨⟨rfl, hnone⟩, hcanceled⟩, htask⟩ := h
      exact ⟨d, ⟨inp, p, startMs, haction, hth, hcanceled, hnone⟩, htask⟩
    · cases h
  · cases h

theorem missing_worker_keeps_retries_iff_stopped :
    ∃ (before between after : List SystemTransition) (τk τe : SystemTransition) (s : State),
      Run (step sampleEnv) sampleState (before ++ τk :: (between ++ τe :: after)) s ∧
      missesSample 2 τk = true ∧ τe.runsAt 2 Pc.completes = true ∧
      ∃ row, τe.post.stores.tasks.find? "t" = some row ∧ row.status = taskScheduled ∧
        row.retryCount = 0 ∧ ∀ x ∈ between, x.recordsFailure 2 = false := by
  -- `addHistory` fails, and the node is stopped before the closure chooses.
  obtain ⟨s, hrun⟩ := exists_run_of_isSome
    (show (execute (step sampleEnv) sampleState
      (lostWorkerRun ([.run 2 { fault := true }, .stop 0] ++ runs 2 2))).isSome = true by decide)
  generalize htrace : executeTrace (step sampleEnv) sampleState
    (lostWorkerRun ([.run 2 { fault := true }, .stop 0] ++ runs 2 2)) = trace at hrun
  obtain ⟨τk, hcut, hmiss⟩ := exists_cut_of_getElem? (l := trace) 12
    (p := missesSample 2) (by subst htrace; decide)
  obtain ⟨τe, hcut', hcomplete⟩ := exists_cut_of_getElem? (l := trace.drop 13) 3
    (p := fun τ => SystemTransition.runsAt 2 Pc.completes τ &&
      SystemTransition.returned sampleEnv τ) (by subst htrace; decide)
  have hcondition : ((trace.drop 13).take 3).all (fun x =>
      (!SystemTransition.runsAt 2 (fun pc => pc.recorded?.isSome) x || x.action.faults) &&
        !SystemTransition.choosesRunning 2 x) = true := by
    subst htrace; decide
  simp only [List.all_eq_true, Bool.and_eq_true, Bool.or_eq_true, Bool.not_eq_true'] at hcondition
  simp only [Bool.and_eq_true] at hcomplete
  rw [hcut, hcut'] at hrun
  obtain ⟨d, hmisses, htask⟩ := of_missesSample hmiss
  obtain ⟨row, hrow, hiff⟩ := (missing_worker_keeps_retries_iff hrun).2 _ _ _ τk τe 2 d rfl hmisses
    hcomplete.1 hcomplete.2
  rw [htask] at hrow hiff
  refine ⟨_, _, _, τk, τe, s, hrun, hmiss, hcomplete.1, row, hrow, hiff.mpr ⟨?_, ?_⟩⟩
  · intro x hx hrecording
    exact (hcondition x hx).1.resolve_left (by simp [hrecording])
  · exact fun x hx => (hcondition x hx).2

/-- The worker disappears between scan and call: the execution is recorded as
failed and counted as a retry. -/
theorem missing_worker_counts_retry :
    ∃ (env : Env) (s₀ s : State) (before between after : List SystemTransition)
        (τk τe : SystemTransition) (tid : Nat) (d : Dispatch),
      Run (step env) s₀ (before ++ τk :: (between ++ τe :: after)) s ∧
      (∀ tid, s₀.threads tid = none) ∧ τk.MissesInExecution tid d ∧
      τe.runsAt tid Pc.completes = true ∧ τe.returned env = true ∧
      (∃ x ∈ between, x.recordsFailure tid = true) ∧ d.task.retryCount = 0 ∧
      (τe.post.stores.tasks.find? d.task.id).map TaskRow.retryCount = some 1 := by
  obtain ⟨s, hrun⟩ := exists_run_of_isSome
    (show (execute (step sampleEnv) sampleState (lostWorkerRun (runs 2 3))).isSome = true by decide)
  generalize htrace : executeTrace (step sampleEnv) sampleState (lostWorkerRun (runs 2 3)) = trace
    at hrun
  obtain ⟨τk, hcut, hmiss⟩ := exists_cut_of_getElem? (l := trace) 12
    (p := missesSample 2) (by subst htrace; decide)
  obtain ⟨τe, hcut', hcomplete⟩ := exists_cut_of_getElem? (l := trace.drop 13) 2
    (p := fun τ => SystemTransition.runsAt 2 Pc.completes τ &&
      SystemTransition.returned sampleEnv τ &&
      (τ.post.stores.tasks.find? "t").map TaskRow.retryCount == some 1) (by subst htrace; decide)
  have hrecords : ((trace.drop 13).take 2).any (SystemTransition.recordsFailure 2) = true := by
    subst htrace; decide
  simp only [List.any_eq_true] at hrecords
  simp only [Bool.and_eq_true, beq_iff_eq] at hcomplete
  rw [hcut, hcut'] at hrun
  obtain ⟨d, hmisses, htask⟩ := of_missesSample hmiss
  refine ⟨sampleEnv, sampleState, s, _, _, _, τk, τe, 2, d, hrun, fun _ => rfl, hmisses,
    hcomplete.1.1, hcomplete.1.2, hrecords, by rw [htask]; rfl, ?_⟩
  rw [htask]
  exact hcomplete.2

end Corpcron
