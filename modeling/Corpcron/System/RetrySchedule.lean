import Corpcron.System.ExecutedDefinition
import Corpcron.System.Shutdown

/-!
# The retry schedule

A failed execution is tried again after five seconds, and after twice the time
for each further failure, at most five minutes; the failure that uses up
`max_retries` disables the task.  The code computes one step of this, from the
retry count it has scanned.

`SchedulerExecution` is one execution as a part of a run: a scan, the claim for
what was scanned, the choice of the next state and the completion.  Between
these four the deployment does what it likes, as long as nobody else writes what
the schedule is computed from (`leavesPlan`).  `SchedulerExecution.row_after` is
the law of one execution, and `plan_of_executions` carries it through any number
of them: the stored count is the number of failures since the last success.
-/

namespace Corpcron

open Lib

variable {env : Env} {s s' s₀ : State} {τ : SystemTransition} {trace : List SystemTransition}
  {tid p : Nat} {inp : Input} {id : String} {row : TaskRow}

/-! ## What the schedule is computed from -/

/-- Cron expression, retry count and limit of a task. -/
def retryPlan (s : State) (id : String) : Option (String × Int × Int) :=
  (s.stores.tasks.find? id).map fun row => (row.cronExpr, row.retryCount, row.maxRetries)

/-- The task is disabled. -/
def isDisabled (s : State) (id : String) : Bool :=
  (s.stores.tasks.find? id).any fun row => row.status == taskDisabled

/-- The transition leaves the plan of a task as it is, and does not take it out
of `DISABLED`. -/
def SystemTransition.leavesPlan (id : String) (τ : SystemTransition) : Bool :=
  retryPlan τ.post id == retryPlan τ.pre id && (!isDisabled τ.pre id || isDisabled τ.post id)

theorem SystemTransition.leavesPlan_iff :
    τ.leavesPlan id = true ↔ retryPlan τ.post id = retryPlan τ.pre id ∧
      (isDisabled τ.pre id = true → isDisabled τ.post id = true) := by
  simp only [leavesPlan, Bool.and_eq_true, beq_iff_eq, Bool.or_eq_true, Bool.not_eq_true',
    and_congr_right_iff]
  intro _
  cases isDisabled τ.pre id <;> simp

theorem retryPlan_of_row (h : s.stores.tasks.find? id = some row) :
    retryPlan s id = some (row.cronExpr, row.retryCount, row.maxRetries) := by
  rw [retryPlan, h, Option.map_some]

theorem isDisabled_of_row (h : s.stores.tasks.find? id = some row) :
    isDisabled s id = true ↔ row.status = taskDisabled := by
  rw [isDisabled, h, Option.any_some, beq_iff_eq]

/-- The plan of a task is a function of its row. -/
theorem SystemTransition.leavesPlan_of_row
    (h : τ.post.stores.tasks.find? id = τ.pre.stores.tasks.find? id) :
    τ.leavesPlan id = true := by
  rw [leavesPlan_iff, retryPlan, retryPlan, isDisabled, isDisabled, h]
  exact ⟨rfl, fun hdisabled => hdisabled⟩

/-- A step that is no `UPDATE` leaves the plan. -/
theorem SystemTransition.leavesPlan_of_query {pc : Pc} (id : String)
    (hstep : step env τ.pre τ.action = some τ.post) (hruns : τ.runs? = some (tid, pc))
    (hquery : ∀ cfg stmt, pc.access env.platform cfg ≠ .db (.update stmt)) :
    τ.leavesPlan id = true := by
  apply leavesPlan_of_row
  rcases row_of_step hstep id with hsame | ⟨stmt, hstmt, -⟩
  · exact hsame
  · obtain ⟨cfg, haccess⟩ := access_of_statement hruns hstmt
    exact absurd haccess (hquery cfg stmt)

/-- A successful claim of a scheduler leaves the plan; it does not touch a
disabled row. -/
theorem SystemTransition.leavesPlan_of_claim {pass : Pass} {d : Dispatch}
    (hstep : step env τ.pre τ.action = some τ.post)
    (hruns : τ.runs? = some (tid, .scheduler (.dispatching pass d .claiming)))
    (hreturned : τ.returned env = true) :
    τ.leavesPlan d.task.id = true ∧ isDisabled τ.pre d.task.id = false := by
  obtain ⟨cfg, r, hr, hguard, hpost⟩ :=
    rows_of_returned hstep hruns (fun _ => rfl) (fun _ => rfl) hreturned
  change τ.pre.stores.tasks.find? d.task.id = some r at hr
  change τ.post.stores.tasks.find? d.task.id = some _ at hpost
  have hscheduled : r.status = taskScheduled := (claim_guard.mp hguard).1
  have hidle : isDisabled τ.pre d.task.id = false := by
    rw [Bool.eq_false_iff, Ne, isDisabled_of_row hr, hscheduled]
    decide
  refine ⟨leavesPlan_iff.mpr ⟨?_, ?_⟩, hidle⟩
  · rw [retryPlan_of_row hr, retryPlan_of_row hpost]
    rfl
  · intro hdisabled
    rw [hidle] at hdisabled
    cases hdisabled

/-- Along a run of such transitions the plan stays. -/
theorem leavesPlan_of_run (hrun : Run (step env) s trace s')
    (h : ∀ x ∈ trace, x.leavesPlan id = true) :
    retryPlan s' id = retryPlan s id ∧ (isDisabled s id = true → isDisabled s' id = true) := by
  apply hrun.invariant (P := fun m => retryPlan m id = retryPlan s id ∧
    (isDisabled s id = true → isDisabled m id = true))
  · exact ⟨rfl, fun hdisabled => hdisabled⟩
  · intro x hx _ hpre
    obtain ⟨hplan, hdisabled⟩ := SystemTransition.leavesPlan_iff.mp (h x hx)
    exact ⟨hplan.trans hpre.1, fun hstart => hdisabled (hpre.2 hstart)⟩

/-! ## One execution -/

/-- One execution of a task by a scheduler, from `s` to `s'`: the scheduler
thread scans, claims what it has scanned and the claim succeeds; the closure
chooses the next state outside shutdown, and its completion succeeds. -/
structure SchedulerExecution (env : Env) (id : String) (s s' : State) where
  toScan : List SystemTransition
  scan : SystemTransition
  toClaim : List SystemTransition
  claim : SystemTransition
  toChoice : List SystemTransition
  choice : SystemTransition
  toEnd : List SystemTransition
  completion : SystemTransition
  run : Run (step env) s (toScan ++ scan :: (toClaim ++ claim ::
    (toChoice ++ choice :: (toEnd ++ completion :: [])))) s'
  scheduler : Nat
  pass : Pass
  dispatch : Dispatch
  scans : scan.runs? = some (scheduler, .scheduler .scanningDue)
  /-- The claim is made in the pass of the scan. -/
  samePass : ∀ x ∈ toClaim, x.runsAt scheduler (Pc.readsDefinition id) = false
  claims : claim.runs? = some (scheduler, .scheduler (.dispatching pass dispatch .claiming))
  claimed : claim.returned env = true
  ofTask : dispatch.task.id = id
  closure : Nat
  process : Nat
  endMs : Nat
  outcome : ExecutionOutcome
  input : Input
  chooses : choice.action = .run closure input ∧
    choice.pre.threads closure = some ⟨process, .execution dispatch (.choosing endMs outcome)⟩
  notShutdown : (choice.pre.stores.procs process).shutdown = false
  completes : completion.runsAt closure Pc.completes = true
  completed : completion.returned env = true
  /-- Nobody else takes part in the schedule. -/
  undisturbed : ∀ x ∈ toScan ++ toClaim ++ toChoice ++ toEnd, x.leavesPlan id = true

namespace SchedulerExecution

variable {env : Env} {id : String} {s s' : State}

/-- Up to its completion an execution leaves the plan, and it is not one of a
disabled task. -/
theorem plan_before (e : SchedulerExecution env id s s') :
    (retryPlan e.scan.pre id = retryPlan s id ∧ retryPlan e.completion.pre id = retryPlan s id) ∧
      isDisabled s id = false := by
  obtain ⟨hscanRun, hscan, hrest⟩ := e.run.split
  obtain ⟨hclaimRun, hclaim, hrest⟩ := hrest.split
  obtain ⟨hchoiceRun, hchoice, hrest⟩ := hrest.split
  obtain ⟨hendRun, -, -⟩ := hrest.split
  have hquiet := e.undisturbed
  simp only [List.mem_append, or_imp, forall_and] at hquiet
  obtain ⟨⟨⟨hquietScan, hquietClaim⟩, hquietChoice⟩, hquietEnd⟩ := hquiet
  -- The plan from part to part of the run.
  obtain ⟨hplan₁, hdisabled₁⟩ := leavesPlan_of_run hscanRun hquietScan
  obtain ⟨hplan₂, hdisabled₂⟩ := SystemTransition.leavesPlan_iff.mp
    (SystemTransition.leavesPlan_of_query id hscan e.scans fun _ _ h => by cases h)
  obtain ⟨hplan₃, hdisabled₃⟩ := leavesPlan_of_run hclaimRun hquietClaim
  obtain ⟨hleaves, hidle⟩ := SystemTransition.leavesPlan_of_claim hclaim e.claims e.claimed
  rw [e.ofTask] at hleaves hidle
  obtain ⟨hplan₄, -⟩ := SystemTransition.leavesPlan_iff.mp hleaves
  obtain ⟨hplan₅, -⟩ := leavesPlan_of_run hchoiceRun hquietChoice
  have hruns : e.choice.runs? =
      some (e.closure, .execution e.dispatch (.choosing e.endMs e.outcome)) :=
    SystemTransition.runs?_eq_some.mpr ⟨e.input, e.process, e.chooses⟩
  obtain ⟨hplan₆, -⟩ := SystemTransition.leavesPlan_iff.mp
    (SystemTransition.leavesPlan_of_query id hchoice hruns fun _ _ h => by cases h)
  obtain ⟨hplan₇, -⟩ := leavesPlan_of_run hendRun hquietEnd
  refine ⟨⟨hplan₁, ?_⟩, ?_⟩
  · rw [hplan₇, hplan₆, hplan₅, hplan₄, hplan₃, hplan₂, hplan₁]
  · rw [Bool.eq_false_iff]
    intro hstart
    rw [hdisabled₃ (hdisabled₂ (hdisabled₁ hstart))] at hidle
    cases hidle

/-- The task the closure works from has the plan of the row. -/
theorem task_plan (e : SchedulerExecution env id s s') (hrow : s.stores.tasks.find? id = some row) :
    e.dispatch.task.cronExpr = row.cronExpr ∧ e.dispatch.task.retryCount = row.retryCount ∧
      e.dispatch.task.maxRetries = row.maxRetries := by
  have hread : e.scan.runsAt e.scheduler (Pc.readsDefinition id) = true :=
    SystemTransition.runsAt_iff.mpr ⟨_, e.scans, rfl⟩
  have hof : e.dispatch.claim.task.id = id := e.ofTask
  obtain ⟨scanned, hscanned, htask⟩ :=
    read_of_claim (c := e.dispatch.claim) e.run (by rw [hof]; exact hread)
      (by rw [hof]; exact e.samePass) e.claims rfl
  change e.dispatch.task = taskFromResult scanned at htask
  rw [hof] at hscanned
  have hplan := e.plan_before.1.1
  rw [retryPlan_of_row hscanned, retryPlan_of_row hrow] at hplan
  simp only [Option.some.injEq, Prod.mk.injEq] at hplan
  rw [htask]
  exact hplan

/-- The state the closure has chosen is the state the row is left in. -/
theorem row_chosen (e : SchedulerExecution env id s s') :
    ∃ r row', e.completion.pre.stores.tasks.find? id = some r ∧
      s'.stores.tasks.find? id = some row' ∧ row'.cronExpr = r.cronExpr ∧
      row'.maxRetries = r.maxRetries ∧
      row'.status = (nextState env.platform e.dispatch.task e.outcome.success false e.endMs
        e.input.clockMs).status ∧
      row'.nextRunAt = (nextState env.platform e.dispatch.task e.outcome.success false e.endMs
        e.input.clockMs).nextRunAt ∧
      row'.retryCount = (nextState env.platform e.dispatch.task e.outcome.success false e.endMs
        e.input.clockMs).retryCount := by
  obtain ⟨-, -, hrest⟩ := e.run.split
  obtain ⟨-, -, hrest⟩ := hrest.split
  obtain ⟨pc, hcompletes, hpc⟩ := SystemTransition.runsAt_iff.mp e.completes
  obtain ⟨d, endTime, next, rfl⟩ := Pc.completes_iff.mp hpc
  have hcarried : CarriesChoice e.dispatch (toDatetimeString env.platform e.endMs)
      (nextState env.platform e.dispatch.task e.outcome.success false e.endMs e.input.clockMs)
      (.execution d (.completing endTime next)) := by
    apply carried_of_advance hrest e.chooses.1 e.chooses.2 hcompletes trivial
    · rw [← e.notShutdown]
      exact carriesChoice_of_choosing env e.choice.pre.stores e.process e.input e.dispatch e.endMs
        e.outcome
    · exact fun _ _ _ _ _ _ _ => carriesChoice_next
  obtain ⟨rfl, rfl, rfl⟩ := hcarried
  obtain ⟨-, hstep, hnil⟩ := hrest.split.2.2.split
  obtain ⟨-, r, hr, -, hpost⟩ :=
    SystemTransition.rows_of_returned hstep hcompletes (fun _ => rfl) (fun _ => rfl) e.completed
  rw [e.ofTask] at hr hpost
  rw [← hnil.eq_of_nil] at hpost
  exact ⟨r, _, hr, hpost, rfl, rfl, rfl, rfl, rfl⟩

/-- **The law of one execution.**  A success starts the count again and takes
the next time from cron; a failure counts, and either disables the task or puts
it off by the delay. -/
theorem row_after (e : SchedulerExecution env id s s') (hrow : s.stores.tasks.find? id = some row) :
    row.status ≠ taskDisabled ∧ ∃ row', s'.stores.tasks.find? id = some row' ∧
      row'.cronExpr = row.cronExpr ∧ row'.maxRetries = row.maxRetries ∧
      (e.outcome.success = true → row'.retryCount = 0 ∧
        if nextExecution env.platform row.cronExpr e.endMs e.input.clockMs = 0 then
          row'.status = taskDisabled
        else row'.status = taskScheduled ∧ row'.nextRunAt = toDatetimeString env.platform
          (nextExecution env.platform row.cronExpr e.endMs e.input.clockMs)) ∧
      (e.outcome.success = false → row'.retryCount = row.retryCount + 1 ∧
        if row.retryCount + 1 ≥ row.maxRetries then row'.status = taskDisabled
        else row'.status = taskScheduled ∧ row'.nextRunAt = toDatetimeString env.platform
          (e.endMs + 1000 * retryDelaySeconds (row.retryCount + 1))) := by
  obtain ⟨⟨-, hplan⟩, hidle⟩ := e.plan_before
  obtain ⟨hcron, hretry, hmax⟩ := e.task_plan hrow
  obtain ⟨r, row', hr, hrow', hcron', hmax', hstatus, hnext, hcount⟩ := e.row_chosen
  rw [retryPlan_of_row hr, retryPlan_of_row hrow] at hplan
  simp only [Option.some.injEq, Prod.mk.injEq] at hplan
  refine ⟨?_, row', hrow', hcron'.trans hplan.1, hmax'.trans hplan.2.2, ?_, ?_⟩
  · rw [Ne, ← isDisabled_of_row hrow, hidle]
    decide
  · intro hsuccess
    rw [hsuccess] at hstatus hnext hcount
    simp only [nextState, hcron, Bool.false_eq_true, if_false, if_true] at hstatus hnext hcount
    by_cases hnone : nextExecution env.platform row.cronExpr e.endMs e.input.clockMs = 0
    · simp only [hnone, ne_eq, not_true_eq_false, if_false] at hstatus hcount
      rw [if_pos hnone]
      exact ⟨hcount, hstatus⟩
    · simp only [hnone, ne_eq, not_false_eq_true, if_true] at hstatus hnext hcount
      rw [if_neg hnone]
      exact ⟨hcount, hstatus, hnext⟩
  · intro hfailure
    rw [hfailure] at hstatus hnext hcount
    simp only [nextState, hretry, hmax, Bool.false_eq_true, if_false] at hstatus hnext hcount
    by_cases hlast : row.retryCount + 1 ≥ row.maxRetries
    · rw [if_pos hlast] at hstatus hcount
      rw [if_pos hlast]
      exact ⟨hcount, hstatus⟩
    · rw [if_neg hlast] at hstatus hnext hcount
      rw [if_neg hlast]
      exact ⟨hcount, hstatus, hnext⟩

end SchedulerExecution

/-! ## Any number of executions -/

/-- How an execution has ended: its outcome, its end and the reading of the clock
at the choice, which cron uses when the end is `0`. -/
structure ExecutionEnd where
  success : Bool
  endMs : Nat
  clockMs : Nat
deriving DecidableEq

/-- The end of an execution. -/
def SchedulerExecution.ended {env : Env} {id : String} {s s' : State}
    (e : SchedulerExecution env id s s') : ExecutionEnd :=
  ⟨e.outcome.success, e.endMs, e.input.clockMs⟩

/-- Executions of a task, one after the other, with their ends. -/
inductive Executions (env : Env) (id : String) (s₀ : State) : List ExecutionEnd → State → Prop
  | nil : Executions env id s₀ [] s₀
  | snoc {ends : List ExecutionEnd} {s s' : State} (earlier : Executions env id s₀ ends s)
      (e : SchedulerExecution env id s s') : Executions env id s₀ (ends ++ [e.ended]) s'

/-- The number of failures since the last success. -/
def failures (ends : List ExecutionEnd) : Nat :=
  (ends.reverse.takeWhile fun e => !e.success).length

theorem failures_snoc (ends : List ExecutionEnd) (last : ExecutionEnd) :
    failures (ends ++ [last]) = if last.success then 0 else failures ends + 1 := by
  cases hsuccess : last.success <;> simp [failures, hsuccess]

/-- The run lemma: the retry count is the number of failures since the last
success, and the task is disabled when they have used up the limit. -/
theorem plan_of_executions {ends : List ExecutionEnd} {row₀ : TaskRow}
    (hexecutions : Executions env id s₀ ends s) (hrow₀ : s₀.stores.tasks.find? id = some row₀)
    (hretry : row₀.retryCount = 0) (hmax : 1 ≤ row₀.maxRetries) :
    ∃ row, s.stores.tasks.find? id = some row ∧ row.cronExpr = row₀.cronExpr ∧
      row.maxRetries = row₀.maxRetries ∧ row.retryCount = failures ends ∧
      (failures ends : Int) ≤ row₀.maxRetries ∧
      ((failures ends : Int) = row₀.maxRetries → row.status = taskDisabled) := by
  induction hexecutions with
  | nil =>
      refine ⟨row₀, hrow₀, rfl, rfl, hretry, ?_, ?_⟩
      · change (0 : Int) ≤ row₀.maxRetries
        omega
      · intro hzero
        change (0 : Int) = row₀.maxRetries at hzero
        omega
  | @snoc ends s s' earlier e ih =>
      obtain ⟨row, hrow, hcron, hlimit, hcount, hle, hused⟩ := ih
      obtain ⟨hidle, row', hrow', hcron', hlimit', hsuccess, hfailure⟩ := e.row_after hrow
      have hleft : (failures ends : Int) < row₀.maxRetries :=
        lt_of_le_of_ne hle fun heq => hidle (hused heq)
      refine ⟨row', hrow', hcron'.trans hcron, hlimit'.trans hlimit, ?_⟩
      rw [failures_snoc]
      cases hended : e.outcome.success with
      | true =>
          rw [if_pos (show e.ended.success = true from hended)]
          refine ⟨(hsuccess hended).1, ?_, ?_⟩
          · change (0 : Int) ≤ row₀.maxRetries
            omega
          · intro hzero
            change (0 : Int) = row₀.maxRetries at hzero
            omega
      | false =>
          have hfailed : ¬ e.ended.success = true := by
            change ¬ e.outcome.success = true
            simp [hended]
          obtain ⟨hcount', hstate⟩ := hfailure hended
          rw [if_neg hfailed]
          refine ⟨?_, ?_, ?_⟩
          · rw [hcount', hcount]
            push_cast
            rfl
          · push_cast
            omega
          · intro heq
            push_cast at heq
            rw [if_pos (by omega)] at hstate
            exact hstate

/-! ## The delays -/

/-- The cap on the exponent is out of reach of the clamp at five minutes. -/
theorem retryDelaySeconds_eq {k : Nat} (hk : 1 ≤ k) :
    retryDelaySeconds k = min 300 (5 * 2 ^ (k - 1)) := by
  have hfirst : ((k : Int) - 1) = ((k - 1 : Nat) : Int) := by omega
  unfold retryDelaySeconds
  by_cases hcap : k - 1 ≤ 6
  · have hexponent : (min (max ((k : Int) - 1) 0) 6).toNat = k - 1 := by omega
    simp only [hexponent]
  · have hexponent : (min (max ((k : Int) - 1) 0) 6).toNat = 6 := by omega
    have hpow : 2 ^ 6 ≤ 2 ^ (k - 1) := Nat.pow_le_pow_right (by decide) (by omega)
    simp only [hexponent]
    omega

/-- The values of type `int` that the failure branch computes from the scanned
retry count. -/
def retryArithmetic (retryCount : Int) : List Int :=
  let next := retryCount + 1
  let exponent := min (max (next - 1) 0) 6
  let power : Nat := 2 ^ exponent.toNat
  [next, next - 1, max (next - 1) 0, exponent, power, 5 * power, min 300 (5 * power)]

theorem retryArithmetic_fits {retryCount : Int} (hlow : 0 ≤ retryCount)
    (hhigh : retryCount + 1 < 2 ^ 31) : ∀ x ∈ retryArithmetic retryCount, 0 ≤ x ∧ x < 2 ^ 31 := by
  have hexponent : (min (max (retryCount + 1 - 1) 0) 6).toNat ≤ 6 := by omega
  have hpow : 2 ^ (min (max (retryCount + 1 - 1) 0) 6).toNat ≤ 2 ^ 6 :=
    Nat.pow_le_pow_right (by decide) hexponent
  intro x hx
  simp only [retryArithmetic, List.mem_cons, List.not_mem_nil, or_false] at hx
  generalize 2 ^ (min (max (retryCount + 1 - 1) 0) 6).toNat = power at *
  rcases hx with rfl | rfl | rfl | rfl | rfl | rfl | rfl <;> omega

/-- **The retry schedule.**  For every sequence of executions of a task that
starts with retry count `0` and room for at least one failure, with `k` failures
since the last success: after a success the count is `0` and the next time is
cron's, if there is one; after a failure with `k` below the limit the task is
scheduled `min 300 (5 * 2 ^ (k - 1))` seconds after the end of the execution with
count `k`; with `k` at the limit it is disabled.  No `int` overflows on the
way. -/
theorem retry_schedule {env : Env} {id : String} {s₀ s : State} {ends : List ExecutionEnd}
    {last : ExecutionEnd} {row₀ : TaskRow}
    (hexecutions : Executions env id s₀ (ends ++ [last]) s)
    (hrow₀ : s₀.stores.tasks.find? id = some row₀) (hretry : row₀.retryCount = 0)
    (hmax : 1 ≤ row₀.maxRetries) :
    ∃ row, s.stores.tasks.find? id = some row ∧
      row.retryCount = failures (ends ++ [last]) ∧
      (failures (ends ++ [last]) : Int) ≤ row₀.maxRetries ∧
      (last.success = true → row.retryCount = 0 ∧
        if nextExecution env.platform row₀.cronExpr last.endMs last.clockMs = 0 then
          row.status = taskDisabled
        else row.status = taskScheduled ∧ row.nextRunAt = toDatetimeString env.platform
          (nextExecution env.platform row₀.cronExpr last.endMs last.clockMs)) ∧
      (last.success = false →
        ((failures (ends ++ [last]) : Int) < row₀.maxRetries →
          row.status = taskScheduled ∧ row.nextRunAt = toDatetimeString env.platform
            (last.endMs + 1000 * min 300 (5 * 2 ^ (failures (ends ++ [last]) - 1)))) ∧
        ((failures (ends ++ [last]) : Int) = row₀.maxRetries → row.status = taskDisabled)) ∧
      (row₀.maxRetries < 2 ^ 31 →
        ∀ x ∈ retryArithmetic (failures ends), 0 ≤ x ∧ x < 2 ^ 31) := by
  generalize hall : ends ++ [last] = all at hexecutions
  cases hexecutions with
  | nil => simp at hall
  | @snoc earlierEnds s _ earlier e =>
      obtain ⟨rfl, hlast⟩ := List.append_inj' hall rfl
      simp only [List.cons.injEq, and_true] at hlast
      subst hlast
      obtain ⟨before, hbefore, hcron, hlimit, hcount, hle, hused⟩ :=
        plan_of_executions earlier hrow₀ hretry hmax
      obtain ⟨row, hrow, -, -, hcount', hle', hused'⟩ :=
        plan_of_executions (earlier.snoc e) hrow₀ hretry hmax
      obtain ⟨hidle, row', hrow', -, -, hsuccess, hfailure⟩ := e.row_after hbefore
      obtain rfl : row = row' := Option.some.inj (hrow.symm.trans hrow')
      rw [hcron] at hsuccess
      refine ⟨row, hrow, hcount', hle', hsuccess, ?_, ?_⟩
      · intro hfailed
        have hk : failures (ends ++ [e.ended]) = failures ends + 1 := by
          rw [failures_snoc, hfailed]
          rfl
        obtain ⟨-, hstate⟩ := hfailure hfailed
        refine ⟨?_, hused'⟩
        intro hleft
        rw [if_neg (by omega)] at hstate
        have hdelay : retryDelaySeconds (before.retryCount + 1) =
            min 300 (5 * 2 ^ (failures (ends ++ [e.ended]) - 1)) := by
          rw [← retryDelaySeconds_eq (by omega), hk, hcount]
          rfl
        rw [hdelay] at hstate
        exact hstate
      · intro hint
        have hleft : (failures ends : Int) < row₀.maxRetries :=
          lt_of_le_of_ne hle fun heq => hidle (hused heq)
        exact retryArithmetic_fits (by omega) (by omega)

/-! ## Two failures of the sample task -/

/-- The closure, its process, its dispatch and its end at the choice of the next
state. -/
def SystemTransition.choice? (τ : SystemTransition) :
    Option (Nat × Input × Nat × Dispatch × Nat × ExecutionOutcome) :=
  match τ.action with
  | .run tid inp =>
      match τ.pre.threads tid with
      | some ⟨p, .execution d (.choosing endMs outcome)⟩ => some (tid, inp, p, d, endMs, outcome)
      | _ => none
  | _ => none

/-- The end of the execution whose scan comes after `i` transitions, its claim
`j` after that, its choice `k` after that and its completion next, if the
transitions are one. -/
def executionEnd? (env : Env) (id : String) (l : List SystemTransition) (i j k : Nat) :
    Option ExecutionEnd :=
  let fromScan := l.drop (i + 1)
  let fromClaim := fromScan.drop (j + 1)
  match l[i]?, fromScan[j]?, fromClaim[k]?, fromClaim.drop (k + 1) with
  | some scan, some claim, some choice, [completion] =>
      match claim.dispatchClaim?, choice.choice? with
      | some (scheduler, _, d), some (closure, inp, p, d', endMs, outcome) =>
          if scan.runsAt scheduler Pc.scansDue && claim.returned env && d.task.id == id &&
              d'.task == d.task && d'.executionId == d.executionId && d'.source == d.source &&
              !(choice.pre.stores.procs p).shutdown && completion.runsAt closure Pc.completes &&
              completion.returned env &&
              (fromScan.take j).all (fun x => !x.runsAt scheduler (Pc.readsDefinition id)) &&
              (l.take i ++ fromScan.take j ++ fromClaim.take k).all (fun x => x.leavesPlan id) then
            some ⟨outcome.success, endMs, inp.clockMs⟩
          else none
      | _, _ => none
  | _, _, _, _ => none

theorem SystemTransition.choice?_eq_some {endMs : Nat} {d : Dispatch} {outcome : ExecutionOutcome}
    (h : τ.choice? = some (tid, inp, p, d, endMs, outcome)) :
    τ.action = .run tid inp ∧
      τ.pre.threads tid = some ⟨p, .execution d (.choosing endMs outcome)⟩ := by
  unfold choice? at h
  split at h
  · rename_i haction
    split at h
    · rename_i hth
      cases h
      exact ⟨haction, hth⟩
    · cases h
  · cases h

/-- Transitions that pass the check are an execution. -/
theorem exists_execution {l : List SystemTransition} {i j k : Nat} {ended : ExecutionEnd}
    (hrun : Run (step env) s l s') (h : executionEnd? env id l i j k = some ended) :
    ∃ e : SchedulerExecution env id s s', e.ended = ended := by
  unfold executionEnd? at h
  dsimp only at h
  split at h
  · rename_i scan claim choice completion hscan hclaim hchoice hend
    split at h
    · rename_i scheduler pass d closure inp p d' endMs outcome hdispatch hchooses
      split at h
      · rename_i hcheck
        simp only [Bool.and_eq_true, beq_iff_eq, Bool.not_eq_true', List.all_eq_true] at hcheck
        obtain ⟨⟨⟨⟨⟨⟨⟨⟨⟨⟨hscans, hclaimed⟩, htask⟩, hsame⟩, hsame'⟩, hsame''⟩, hshutdown⟩,
          hcompletes⟩, hcompleted⟩, hpass⟩, hquiet⟩ := hcheck
        have hd : d' = d := by
          cases d
          cases d'
          simp_all
        subst hd
        obtain ⟨pc, hruns, hpc⟩ := SystemTransition.runsAt_iff.mp hscans
        obtain rfl := Pc.scansDue_iff.mp hpc
        rw [eq_cut_of_getElem? hscan, eq_cut_of_getElem? hclaim, eq_cut_of_getElem? hchoice,
          hend] at hrun
        refine ⟨⟨_, scan, _, claim, _, choice, [], completion, hrun, scheduler, pass, d', hruns,
          hpass, SystemTransition.dispatchClaim?_eq_some hdispatch, hclaimed, htask, closure, p,
          endMs, outcome, inp, SystemTransition.choice?_eq_some hchooses, hshutdown, hcompletes,
          hcompleted, ?_⟩, ?_⟩
        · simpa using hquiet
        · exact Option.some.inj h
      · cases h
    · cases h
  · cases h

/-- Steps of a closure whose worker answers with an error. -/
def fails (tid clockMs n : Nat) : List Action :=
  List.replicate n
    (.run tid { endpoints := ["worker"], clockMs, reply := .response "worker" false "" "failed" })

/-- The sample task is executed and fails at second `11`. -/
def firstFailure : List Action :=
  [.boot 0 0 1] ++ runs 0 9 ++ [.run 0 { fresh := 3 }] ++ fails 3 11000 6

/-- The closure gives up its lock, and at second `16` the task is executed again
and fails at second `17`. -/
def secondFailure : List Action :=
  fails 3 11000 3 ++ [.dbClock 16] ++ runs 0 11 ++ [.run 0 { fresh := 4 }] ++ fails 4 17000 6

/-- The second failure puts the task off by ten seconds. -/
theorem retry_schedule_twice :
    ∃ s, Executions sampleEnv "t" sampleState
        ([⟨false, 11000, 11000⟩] ++ [⟨false, 17000, 17000⟩]) s ∧
      ∃ row, s.stores.tasks.find? "t" = some row ∧ row.status = taskScheduled ∧
        row.retryCount = 2 ∧ row.nextRunAt = some 27 := by
  obtain ⟨s₁, hrun₁, hsecond⟩ := exists_run_of_execute
    (show (execute (step sampleEnv) sampleState firstFailure).any (fun s₁ =>
      (execute (step sampleEnv) s₁ secondFailure).isSome &&
        executionEnd? sampleEnv "t" (executeTrace (step sampleEnv) s₁ secondFailure) 7 5 6 ==
          some ⟨false, 17000, 17000⟩) = true by decide)
  simp only [Bool.and_eq_true, beq_iff_eq] at hsecond
  obtain ⟨s, hrun₂⟩ := exists_run_of_isSome hsecond.1
  obtain ⟨e₁, hend₁⟩ := exists_execution hrun₁
    (show executionEnd? sampleEnv "t" _ 2 5 6 = some ⟨false, 11000, 11000⟩ by decide)
  obtain ⟨e₂, hend₂⟩ := exists_execution hrun₂ hsecond.2
  have hexecutions := (Executions.nil.snoc e₁).snoc e₂
  rw [hend₁, hend₂] at hexecutions
  obtain ⟨row, hrow, hcount, -, -, hfailure, -⟩ :=
    retry_schedule hexecutions
      (show sampleState.stores.tasks.find? "t" = some (insertedRow 0 sampleTask) from rfl) rfl
      (by decide)
  obtain ⟨hstatus, hnext⟩ := (hfailure rfl).1 (by decide)
  exact ⟨s, hexecutions, row, hrow, hstatus, hcount, hnext⟩

end Corpcron
