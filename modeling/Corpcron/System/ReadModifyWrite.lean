import Corpcron.System.LocalData

/-!
# Misfire skips and edits

The misfire skip, `UpdateTask` and `EnableTask` write columns of a task back as
an earlier query has found them.  Their `UPDATE` statements are guarded by
`status <> RUNNING` only, never by the values they rely on, so each of them
undoes what has been written to the row in between.  For each pair of a read and
a write the module says exactly when nothing is undone, and exhibits a run in
which something is.
-/

namespace Corpcron

open Lib

variable {env : Env} {s s₀ : State} {τ : SystemTransition} {tid : Nat} {inp : Input}
  {stmt : Statement} {id : String} {pc : Pc} {skip : MisfireSkip} {pass : Pass}

/-! ## The misfire skip -/

/-- The scheduler thread before `getDueTasks`. -/
def Pc.scansDue : Pc → Bool
  | .scheduler .scanningDue => true
  | _ => false

/-- The scheduler thread before the `UPDATE` of a misfire skip of a task. -/
def Pc.skips (id : String) : Pc → Bool
  | .scheduler (.skipping _ skip) => skip.task.id == id
  | _ => false

theorem Pc.scansDue_iff : pc.scansDue = true ↔ pc = .scheduler .scanningDue := by
  unfold Pc.scansDue
  split <;> simp_all

theorem Pc.skips_iff :
    pc.skips id = true ↔
      ∃ pass skip, pc = .scheduler (.skipping pass skip) ∧ skip.task.id = id := by
  unfold Pc.skips
  split <;> simp_all

/-- A skip is for the task that was judged. -/
theorem misfireSkip_task {pf : Platform} {cfg : NodeConfig} {task : TaskMeta} {nowMs : Nat}
    (h : misfireSkip pf cfg task nowMs = some skip) : skip.task = task := by
  unfold misfireSkip at h
  split at h
  · obtain ⟨dueSec, -, hskip⟩ := Option.bind_eq_some_iff.mp h
    dsimp only at hskip
    split at hskip
    · split at hskip <;>
        · rw [Option.some.injEq] at hskip
          rw [← hskip]
    · simp at hskip
  · simp at h

/-- The scheduler thread since its scan: the tasks it still works on satisfy
`A`, until the next scan. -/
def CarriesScan (A : TaskMeta → Prop) : Pc → Prop
  | .scheduler (.iterating pass) => ∀ task ∈ pass.rest, A task
  | .scheduler (.skipping pass skip) => A skip.task ∧ ∀ task ∈ pass.rest, A task
  | .scheduler (.recheckingSkip pass _) => ∀ task ∈ pass.rest, A task
  | .scheduler (.numbering pass _) => ∀ task ∈ pass.rest, A task
  | .scheduler (.dispatching pass _ _) => ∀ task ∈ pass.rest, A task
  | .scheduler _ => True
  | .dead => True
  | _ => False

theorem carriesScan_begin {A : TaskMeta → Prop} (pf : Platform) (cfg : NodeConfig) (inp : Input)
    (h : ∀ task ∈ pass.rest, A task) :
    CarriesScan A (.scheduler (pass.begin pf cfg inp)) := by
  obtain ⟨rest, available⟩ := pass
  cases rest with
  | nil => trivial
  | cons task rest =>
      have hrest : ∀ t ∈ rest, A t := fun t ht => h t (List.mem_cons_of_mem _ ht)
      simp only [Pass.begin]
      split
      · rename_i skip hskip
        refine ⟨?_, hrest⟩
        rw [misfireSkip_task hskip]
        exact h task List.mem_cons_self
      · split
        · exact hrest
        · exact hrest
        · split <;> exact hrest

theorem carriesScan_next {A : TaskMeta → Prop} {pf : Platform} {cfg : NodeConfig} {reply : Reply}
    (hscan : pc.scansDue = false) (h : CarriesScan A pc) :
    CarriesScan A (pc.next pf cfg inp reply) := by
  have hrecover : ∀ rest, CarriesScan A (.scheduler (recoverRest rest)) := by
    intro rest
    cases rest <;> trivial
  cases pc with
  | scheduler pc =>
      cases pc with
      | scanningDue => simp [Pc.scansDue] at hscan
      | scanningStale => exact hrecover _
      | recovery rest task stage =>
          cases stage with
          | locking =>
              simp only [Pc.next, SchedulerPc.next]
              split
              · trivial
              · exact hrecover rest
          | recovering => trivial
          | unlocking => exact hrecover rest
      | iterating pass => exact carriesScan_begin pf cfg inp h
      | skipping pass skip =>
          simp only [Pc.next, SchedulerPc.next]
          split <;> exact h.2
      | recheckingSkip pass skip => exact h
      | numbering pass task => exact h
      | dispatching pass d stage =>
          cases stage <;> simp only [Pc.next, SchedulerPc.next, DispatchStage.next] <;>
            (repeat' split) <;> exact h
      | sleeping =>
          simp only [Pc.next, SchedulerPc.next]
          split <;> trivial
      | exited => trivial
  | dead => trivial
  | _ => exact False.elim h

/-- After its scan the thread works on the tasks that were scanned. -/
theorem carriesScan_of_scan {stores : Stores} (p : Nat) (inp : Input) :
    CarriesScan (· ∈ stores.tasks.getDueTasks stores.now 100)
      (Thread.advance env inp stores ⟨p, .scheduler .scanningDue⟩).pc := by
  intro task htask
  dsimp only at htask
  rw [Thread.exec_db rfl] at htask
  split at htask
  · simp at htask
  · exact htask

/-- The task of a skip is one that the scan of its pass has found scheduled. -/
theorem scanned_of_skip {before between after : List SystemTransition} {τs τw : SystemTransition}
    (hrun : Run (step env) s₀ (before ++ τs :: (between ++ τw :: after)) s)
    (hscan : τs.runsAt tid Pc.scansDue = true)
    (hpass : ∀ x ∈ between, x.runsAt tid Pc.scansDue = false)
    (hskip : τw.runs? = some (tid, .scheduler (.skipping pass skip))) :
    ∃ rowScan, τs.pre.stores.tasks.find? skip.task.id = some rowScan ∧
      rowScan.status = taskScheduled ∧ skip.task = taskFromResult rowScan := by
  obtain ⟨pc, hscan, hpc⟩ := SystemTransition.runsAt_iff.mp hscan
  obtain rfl := Pc.scansDue_iff.mp hpc
  have hmem : skip.task ∈ τs.pre.stores.tasks.getDueTasks τs.pre.stores.now 100 := by
    refine (carried (P := CarriesScan _) hrun hscan hskip trivial
      (fun p inp _ _ => carriesScan_of_scan p inp) ?_).1
    -- The thread makes no other scan before the write, so the list is of this one.
    intro x hx p pc inp reply hruns
    apply carriesScan_next
    rw [Bool.eq_false_iff]
    intro hscan'
    have hthis := SystemTransition.runsAt_iff.mpr ⟨pc, hruns, hscan'⟩
    rw [hpass x hx] at hthis
    cases hthis
  obtain ⟨rowScan, hrowScan, hdue, htask⟩ := TaskTable.of_mem_getDueTasks hmem
  simp only [TaskTable.isDue, Bool.and_eq_true, beq_iff_eq] at hdue
  exact ⟨rowScan, hrowScan, hdue.1, htask⟩

/-- The statement of a skip. -/
theorem statement_of_skip (hskip : τ.runs? = some (tid, .scheduler (.skipping pass skip)))
    (hstmt : statement? env τ.pre τ.action = some stmt) : skip.statement = stmt := by
  obtain ⟨_, haccess⟩ := SystemTransition.access_of_statement hskip hstmt
  simpa [Pc.access, SchedulerPc.access] using haccess

/-- **What a misfire skip acts on.**  For a scan and a misfire skip of the same
pass: the scan has found the row scheduled, and the `UPDATE` changes only the
row that was judged, and leaves its retry count alone, exactly if the call
fails or the row it meets is missing, running, already as the `UPDATE` would
leave it, or still has the status, time and retry count of the scan. -/
theorem misfire_skip_judged_iff {env : Env} {s₀ s : State}
    {before between after : List SystemTransition} {τs τw : SystemTransition} {tid : Nat}
    {pass : Pass} {skip : MisfireSkip}
    (hrun : Run (step env) s₀ (before ++ τs :: (between ++ τw :: after)) s)
    (hscan : τs.runsAt tid Pc.scansDue = true)
    (hpass : ∀ x ∈ between, x.runsAt tid Pc.scansDue = false)
    (hskip : τw.runs? = some (tid, .scheduler (.skipping pass skip))) :
    ∃ rowScan, τs.pre.stores.tasks.find? skip.task.id = some rowScan ∧
      rowScan.status = taskScheduled ∧
      ((τw.returned env = true → ∃ rowBefore rowAfter,
          τw.pre.stores.tasks.find? skip.task.id = some rowBefore ∧
          τw.post.stores.tasks.find? skip.task.id = some rowAfter ∧
          rowBefore.status = taskScheduled ∧ rowBefore.nextRunAt = rowScan.nextRunAt ∧
          rowAfter.retryCount = rowBefore.retryCount) ↔
        (statement? env τw.pre τw.action = none ∨
          ∀ rowBefore, τw.pre.stores.tasks.find? skip.task.id = some rowBefore →
            rowBefore.status = taskRunning ∨
            skip.statement.assign τw.pre.stores.now rowBefore = rowBefore ∨
            (rowBefore.status = rowScan.status ∧ rowBefore.nextRunAt = rowScan.nextRunAt ∧
              rowBefore.retryCount = rowScan.retryCount))) := by
  obtain ⟨rowScan, hrowScan, hscheduled, htask⟩ := scanned_of_skip hrun hscan hpass hskip
  have hretry : skip.task.retryCount = rowScan.retryCount := by rw [htask]; rfl
  obtain ⟨-, hstep, -⟩ := hrun.split.2.2.split
  refine ⟨rowScan, hrowScan, hscheduled, ?_, ?_⟩
  · intro hproperty
    cases hstmt : statement? env τw.pre τw.action with
    | none => exact Or.inl rfl
    | some stmt =>
        obtain rfl := statement_of_skip hskip hstmt
        right
        intro row hrow
        by_cases hrunning : row.status = taskRunning
        · exact Or.inl hrunning
        · by_cases hsame : skip.statement.assign τw.pre.stores.now row = row
          · exact Or.inr (Or.inl hsame)
          · -- The `UPDATE` changes the row, so it has to be the one that was judged.
            have hguard : skip.statement.guard τw.pre.stores.now row = true := by
              simpa [MisfireSkip.statement, Statement.guard] using hrunning
            have hreturned : τw.returned env = true := by
              rw [τw.returned_of_statement hstmt]
              exact hrow ▸ (Statement.affected_some rfl).mpr ⟨hguard, hsame⟩
            obtain ⟨rowBefore, rowAfter, hbefore, hafter, hstatus, hnext, hkept⟩ :=
              hproperty hreturned
            obtain ⟨r, hr, -, hpost⟩ := τw.post_of_returned hstep hstmt rfl hreturned
            obtain rfl : row = rowBefore := Option.some.inj (hrow.symm.trans hbefore)
            obtain rfl := Option.some.inj (hpost.symm.trans hafter)
            exact Or.inr (Or.inr ⟨hstatus.trans hscheduled.symm, hnext,
              hkept.symm.trans hretry⟩)
  · intro hcondition hreturned
    obtain ⟨stmt, hstmt, haffected⟩ := SystemTransition.returned_eq_true.mp hreturned
    obtain ⟨_, row, hrow, hguard, hpost⟩ :=
      SystemTransition.rows_of_returned hstep hskip (fun _ => rfl) (fun _ => rfl) hreturned
    obtain rfl := statement_of_skip hskip hstmt
    rw [hrow] at haffected
    rcases hcondition with hnone | hrows
    · rw [hnone] at hstmt
      cases hstmt
    · rcases hrows row hrow with hrunning | hsame | ⟨hstatus, hnext, hcount⟩
      · simp [MisfireSkip.statement, Statement.guard, hrunning] at hguard
      · exact absurd hsame ((Statement.affected_some rfl).mp haffected).2
      · exact ⟨row, _, hrow, hpost, hstatus.trans hscheduled, hnext, hretry.trans hcount.symm⟩

/-- The sample nodes with misfire policy `skip`. -/
def skipEnv : Env where
  platform := utcPlatform
  node p := { sampleEnv.node p with misfirePolicy := "skip" }

/-- A pass that finds the sample task overdue at second `1000` and skips it. -/
def skipRun : List Action :=
  [.boot 0 0 1] ++ runs 0 2 ++ [.run 0 { clockMs := 1000000 }] ++ runs 0 1

theorem misfire_skip_judged_iff_alone :
    ∃ (before between after : List SystemTransition) (τs τw : SystemTransition) (s : State),
      Run (step skipEnv) sampleState (before ++ τs :: (between ++ τw :: after)) s ∧
      τw.runsAt 0 (Pc.skips "t") = true ∧ τw.returned skipEnv = true ∧
      ∃ rowScan rowBefore rowAfter, τs.pre.stores.tasks.find? "t" = some rowScan ∧
        τw.pre.stores.tasks.find? "t" = some rowBefore ∧
        τw.post.stores.tasks.find? "t" = some rowAfter ∧
        rowBefore.status = taskScheduled ∧ rowBefore.nextRunAt = rowScan.nextRunAt ∧
        rowAfter.retryCount = rowBefore.retryCount := by
  obtain ⟨s, hrun⟩ := exists_run_of_isSome
    (show (execute (step skipEnv) sampleState skipRun).isSome = true by decide)
  generalize htrace : executeTrace (step skipEnv) sampleState skipRun = trace at hrun
  obtain ⟨τs, hcut, hscan⟩ := exists_cut_of_getElem? (l := trace) 2
    (p := fun τ => SystemTransition.runsAt 0 Pc.scansDue τ &&
      τ.pre.stores.tasks.find? "t" == some (insertedRow 0 sampleTask)) (by subst htrace; decide)
  obtain ⟨τw, hcut', hskip⟩ := exists_cut_of_getElem? (l := trace.drop 3) 1
    (p := fun τ => SystemTransition.runsAt 0 (Pc.skips "t") τ &&
      SystemTransition.returned skipEnv τ &&
      τ.pre.stores.tasks.find? "t" == some (insertedRow 0 sampleTask)) (by subst htrace; decide)
  have hpass : ((trace.drop 3).take 1).all
      (fun x => !SystemTransition.runsAt 0 Pc.scansDue x) = true := by subst htrace; decide
  simp only [List.all_eq_true, Bool.not_eq_true'] at hpass
  simp only [Bool.and_eq_true, beq_iff_eq] at hscan hskip
  rw [hcut, hcut'] at hrun
  obtain ⟨pc, hruns, hpc⟩ := SystemTransition.runsAt_iff.mp hskip.1.1
  obtain ⟨pass, skip, rfl, hid⟩ := Pc.skips_iff.mp hpc
  obtain ⟨rowScan, hrowScan, -, hiff⟩ := misfire_skip_judged_iff hrun hscan.1 hpass hruns
  rw [hid] at hrowScan hiff
  have hsame : rowScan = insertedRow 0 sampleTask :=
    Option.some.inj (hrowScan.symm.trans hscan.2)
  obtain ⟨rowBefore, rowAfter, hjudged⟩ := hiff.mpr
    (Or.inr fun row hrow => by
      obtain rfl := Option.some.inj (hrow.symm.trans hskip.2)
      rw [hsame]
      exact Or.inr (Or.inr ⟨rfl, rfl, rfl⟩))
    hskip.1.2
  exact ⟨_, _, _, τs, τw, s, hrun, hskip.1.1, hskip.1.2, rowScan, rowBefore, rowAfter, hrowScan,
    hjudged⟩

/-- The same pass, but the task is canceled after the scan. -/
def canceledSkipRun : List Action :=
  [.boot 0 0 1] ++ runs 0 2 ++ [.request 0 2 { request := .cancelTask "t" } {}] ++ runs 2 3 ++
    [.run 0 { clockMs := 1000000 }] ++ runs 0 1

/-- The skip finds the task disabled by an acknowledged `CancelTask` and makes
it scheduled again. -/
theorem misfire_skip_enables_canceled_task :
    ∃ (env : Env) (s₀ s : State) (before between after : List SystemTransition)
        (τs τw : SystemTransition) (tid : Nat) (id : String),
      Run (step env) s₀ (before ++ τs :: (between ++ τw :: after)) s ∧
      (∀ tid, s₀.threads tid = none) ∧ τs.runsAt tid Pc.scansDue = true ∧
      (∀ x ∈ between, x.runsAt tid Pc.scansDue = false) ∧
      τw.runsAt tid (Pc.skips id) = true ∧ τw.returned env = true ∧
      (τw.pre.stores.tasks.find? id).map TaskRow.status = some taskDisabled ∧
      (τw.post.stores.tasks.find? id).map TaskRow.status = some taskScheduled := by
  obtain ⟨s, hrun⟩ := exists_run_of_isSome
    (show (execute (step skipEnv) sampleState canceledSkipRun).isSome = true by decide)
  generalize htrace : executeTrace (step skipEnv) sampleState canceledSkipRun = trace at hrun
  obtain ⟨τs, hcut, hscan⟩ := exists_cut_of_getElem? (l := trace) 2
    (p := SystemTransition.runsAt 0 Pc.scansDue) (by subst htrace; decide)
  obtain ⟨τw, hcut', hskip⟩ := exists_cut_of_getElem? (l := trace.drop 3) 5
    (p := fun τ => SystemTransition.runsAt 0 (Pc.skips "t") τ &&
      SystemTransition.returned skipEnv τ &&
      (τ.pre.stores.tasks.find? "t").map TaskRow.status == some taskDisabled &&
      (τ.post.stores.tasks.find? "t").map TaskRow.status == some taskScheduled)
    (by subst htrace; decide)
  have hpass : ((trace.drop 3).take 5).all
      (fun x => !SystemTransition.runsAt 0 Pc.scansDue x) = true := by subst htrace; decide
  simp only [List.all_eq_true, Bool.not_eq_true'] at hpass
  simp only [Bool.and_eq_true, beq_iff_eq] at hskip
  rw [hcut, hcut'] at hrun
  exact ⟨skipEnv, sampleState, s, _, _, _, τs, τw, 0, "t", hrun, fun _ => rfl, hscan, hpass,
    hskip.1.1.1, hskip.1.1.2, hskip.1.2, hskip.2⟩

/-! ## `UpdateTask` and `EnableTask` -/

/-- `UpdateTask` or `EnableTask` before its `getTask`. -/
def Pc.readsForEdit (id : String) : Pc → Bool
  | .handler (.updateReading info) => info.id == id
  | .handler (.enableReading taskId _ _) => taskId == id
  | _ => false

/-- `EnableTask` before the `UPDATE` that disables a task. -/
def Pc.disables : Pc → Bool
  | .handler (.canceling _ _ _) => true
  | _ => false

/-- `UpdateTask` or `EnableTask` before its `UPDATE`. -/
def Pc.writesEdit : Pc → Bool
  | .handler (.updating _ _) => true
  | .handler (.enabling _ _) => true
  | pc => pc.disables

/-- The retry count and the last run of a task. -/
def bookkeeping (s : State) (id : String) : Option (Int × Option DateTime) :=
  (s.stores.tasks.find? id).map fun row => (row.retryCount, row.lastRunAt)

theorem bookkeeping_of_row {row : TaskRow} (h : s.stores.tasks.find? id = some row) :
    bookkeeping s id = some (row.retryCount, row.lastRunAt) := by
  rw [bookkeeping, h]
  rfl

/-- The handler after its read: it is about to write the given bookkeeping
columns to the task, or to disable it, or it has written. -/
def CarriesEdit (id : String) (read : Option (Int × Option DateTime)) : Pc → Prop
  | .handler (.updating task _) =>
      task.id = id ∧ read = some (task.retryCount, task.lastRunAt)
  | .handler (.enabling task _) =>
      task.id = id ∧ read = some (task.retryCount, task.lastRunAt)
  | .handler (.canceling taskId _ _) => taskId = id
  | .handler (.rechecking _) => True
  | .handler (.recheckingCancel _ _ _) => True
  | .handler (.cancelingRegistered _) => True
  | .handler (.replied _) => True
  | .dead => True
  | _ => False

theorem carriesEdit_next {read : Option (Int × Option DateTime)} {pf : Platform} {cfg : NodeConfig}
    {reply : Reply} (h : CarriesEdit id read pc) :
    CarriesEdit id read (pc.next pf cfg inp reply) := by
  have hupdate : ∀ taskId, CarriesEdit id read (.handler (afterUpdate reply taskId)) := by
    intro taskId
    rcases afterUpdate_cases reply taskId with ⟨response, hr⟩ | hr <;> rw [hr] <;> trivial
  cases pc with
  | handler pc =>
      cases pc with
      | updating task idle => exact hupdate task.id
      | enabling task nextRunAt => exact hupdate task.id
      | canceling taskId text failure =>
          simp only [Pc.next, HandlerPc.next]
          (repeat' split) <;> trivial
      | rechecking taskId =>
          simp only [Pc.next, HandlerPc.next]
          split <;> trivial
      | recheckingCancel taskId text failure =>
          simp only [Pc.next, HandlerPc.next]
          split <;> trivial
      | cancelingRegistered text => trivial
      | replied response => trivial
      | _ => exact False.elim h
  | dead => trivial
  | _ => exact False.elim h

/-- After its read the handler carries the bookkeeping columns that were read. -/
theorem carriesEdit_of_read (hread : pc.readsForEdit id = true) (p : Nat) (inp : Input) :
    CarriesEdit id (bookkeeping s id) (Thread.advance env inp s.stores ⟨p, pc⟩).pc := by
  have hrow : ∀ task, s.stores.tasks.getTask id = some task → task.id = id ∧
      bookkeeping s id = some (task.retryCount, task.lastRunAt) := by
    intro task htask
    obtain ⟨row, hrow, rfl, hid⟩ := TaskTable.of_getTask htask
    exact ⟨hid, bookkeeping_of_row hrow⟩
  unfold Pc.readsForEdit at hread
  split at hread
  · rename_i info
    obtain rfl : info.id = id := by simpa using hread
    simp only [Thread.advance, Pc.next, HandlerPc.next]
    rcases afterUpdateRead_cases env.platform inp info
      (Thread.exec env inp s.stores ⟨p, .handler (.updateReading info)⟩).2.task with
      ⟨response, hr⟩ | ⟨existing, next, idle, htask, hr⟩
    · rw [hr]
      trivial
    · rw [hr]
      rw [Thread.exec_db rfl] at htask
      split at htask
      · simp at htask
      · exact ⟨rfl, (hrow existing htask).2⟩
  · rename_i taskId enabled text
    obtain rfl : taskId = id := by simpa using hread
    simp only [Thread.advance, Pc.next, HandlerPc.next]
    rcases afterEnableRead_cases env.platform inp taskId enabled text
      (Thread.exec env inp s.stores ⟨p, .handler (.enableReading taskId enabled text)⟩).2.task with
      ⟨response, hr⟩ | ⟨-, hr⟩ | ⟨task, next, htask, -, hr⟩
    · rw [hr]
      trivial
    · rw [hr]
      rfl
    · rw [hr]
      rw [Thread.exec_db rfl] at htask
      split at htask
      · simp at htask
      · exact hrow task htask
  · simp at hread

/-- The `UPDATE` of an edit is guarded by the status only, and writes the
columns that were read, unless it disables the task. -/
theorem statement_of_edit {read : Option (Int × Option DateTime)} (hruns : τ.runs? = some (tid, pc))
    (hcarries : CarriesEdit id read pc) (hwrites : pc.writesEdit = true)
    (hstmt : statement? env τ.pre τ.action = some stmt) :
    stmt = .cancelTask id ∧ pc.disables = true ∨
      stmt.taskId = id ∧ stmt.isUpdate = true ∧ pc.disables = false ∧
        (∀ now r, stmt.guard now r = (r.status != taskRunning)) ∧
        ∀ now r, some ((stmt.assign now r).retryCount, (stmt.assign now r).lastRunAt) = read := by
  obtain ⟨cfg, haccess⟩ := SystemTransition.access_of_statement hruns hstmt
  unfold Pc.writesEdit at hwrites
  split at hwrites
  · obtain ⟨rfl, hread⟩ := hcarries
    obtain rfl : _ = stmt := by simpa [Pc.access, HandlerPc.access] using haccess
    exact Or.inr ⟨rfl, rfl, rfl, fun _ _ => rfl, fun _ _ => hread.symm⟩
  · obtain ⟨rfl, hread⟩ := hcarries
    obtain rfl : _ = stmt := by simpa [Pc.access, HandlerPc.access] using haccess
    exact Or.inr ⟨rfl, rfl, rfl, fun _ _ => rfl, fun _ _ => hread.symm⟩
  · refine Or.inl ⟨?_, hwrites⟩
    unfold Pc.disables at hwrites
    split at hwrites
    · obtain rfl := hcarries
      simpa [Pc.access, HandlerPc.access] using haccess.symm
    · simp at hwrites

/-- The bookkeeping columns of the row of an `UPDATE` after it. -/
theorem bookkeeping_post (hstep : step env τ.pre τ.action = some τ.post)
    (hstmt : statement? env τ.pre τ.action = some stmt) (hupdate : stmt.isUpdate = true)
    {r : TaskRow} (hr : τ.pre.stores.tasks.find? stmt.taskId = some r) :
    bookkeeping τ.post stmt.taskId =
      if stmt.guard τ.pre.stores.now r then
        some ((stmt.assign τ.pre.stores.now r).retryCount,
          (stmt.assign τ.pre.stores.now r).lastRunAt)
      else bookkeeping τ.pre stmt.taskId := by
  rw [bookkeeping, τ.post_of_statement hstep hstmt hupdate, bookkeeping_of_row hr, hr]
  rw [Option.map_some, Option.map_some]
  split <;> rfl

/-- **What an edit does to the bookkeeping columns.**  For the read and the
`UPDATE` of one `UpdateTask` or `EnableTask`: the retry count and the last run
of the task are after the `UPDATE` what they were just before it exactly if the
call fails, or the row is missing or running, or the `UPDATE` disables the task,
or it finds the two columns as they were read. -/
theorem edit_keeps_bookkeeping_iff {env : Env} {s₀ s : State}
    {before between after : List SystemTransition} {τr τw : SystemTransition} {tid : Nat}
    {id : String} (hrun : Run (step env) s₀ (before ++ τr :: (between ++ τw :: after)) s)
    (hread : τr.runsAt tid (Pc.readsForEdit id) = true)
    (hwrite : τw.runsAt tid Pc.writesEdit = true) :
    bookkeeping τw.post id = bookkeeping τw.pre id ↔
      (statement? env τw.pre τw.action = none ∨
        (∀ row, τw.pre.stores.tasks.find? id = some row → row.status = taskRunning) ∨
        τw.runsAt tid Pc.disables = true ∨
        bookkeeping τw.pre id = bookkeeping τr.pre id) := by
  obtain ⟨pc, hreads, hpc⟩ := SystemTransition.runsAt_iff.mp hread
  obtain ⟨pc', hwrites, hpc'⟩ := SystemTransition.runsAt_iff.mp hwrite
  have hcarries : CarriesEdit id (bookkeeping τr.pre id) pc' :=
    carried hrun hreads hwrites trivial (fun p inp _ _ => carriesEdit_of_read hpc p inp)
      (fun _ _ _ _ _ _ _ => carriesEdit_next)
  obtain ⟨-, hstep, -⟩ := hrun.split.2.2.split
  have hdisables : τw.runsAt tid Pc.disables = pc'.disables := by
    simp [SystemTransition.runsAt, hwrites]
  rw [hdisables]
  cases hstmt : statement? env τw.pre τw.action with
  | none =>
      have hsame := find?_step hstep id
      rw [hstmt] at hsame
      simp [bookkeeping, hsame]
  | some stmt =>
      rcases statement_of_edit hwrites hcarries hpc' hstmt with
        ⟨rfl, hdisable⟩ | ⟨rfl, hupdate, henable, hguard, hassign⟩
      · -- `cancelTask` does not write the two columns.
        have hpost := τw.post_of_statement hstep hstmt rfl
        simp only [Statement.taskId] at hpost
        simp [bookkeeping, hpost, hdisable, Statement.guard, Statement.assign, Function.comp_def]
      · cases hrow : τw.pre.stores.tasks.find? stmt.taskId with
        | none =>
            have hpost := τw.post_of_statement hstep hstmt hupdate
            simp [bookkeeping, hpost, hrow]
        | some row =>
            rw [bookkeeping_post hstep hstmt hupdate hrow, hguard, hassign]
            by_cases hrunning : row.status = taskRunning
            · simp [hrunning]
            · simp only [bne_iff_ne, ne_eq, hrunning, not_false_eq_true, if_true, henable,
                reduceCtorEq, false_or, Option.some.injEq, forall_eq', Bool.false_eq_true]
              exact eq_comm

/-- An `EnableTask` for the sample task that nobody interferes with. -/
def enableRun : List Action :=
  [.boot 0 0 1, .request 0 2 { request := .enableTask "t" true } {},
    .run 2 { clockMs := 11000 }] ++ runs 2 1

theorem edit_keeps_bookkeeping_iff_alone :
    ∃ (before between after : List SystemTransition) (τr τw : SystemTransition) (s : State),
      Run (step sampleEnv) sampleState (before ++ τr :: (between ++ τw :: after)) s ∧
      τr.runsAt 2 (Pc.readsForEdit "t") = true ∧ τw.runsAt 2 Pc.writesEdit = true ∧
      τw.returned sampleEnv = true ∧ bookkeeping τw.post "t" = bookkeeping τw.pre "t" := by
  obtain ⟨s, hrun⟩ := exists_run_of_isSome
    (show (execute (step sampleEnv) sampleState enableRun).isSome = true by decide)
  generalize htrace : executeTrace (step sampleEnv) sampleState enableRun = trace at hrun
  obtain ⟨τr, hcut, hread⟩ := exists_cut_of_getElem? (l := trace) 2
    (p := fun τ => SystemTransition.runsAt 2 (Pc.readsForEdit "t") τ &&
      bookkeeping τ.pre "t" == some (0, none)) (by subst htrace; decide)
  obtain ⟨τw, hcut', hwrite⟩ := exists_cut_of_getElem? (l := trace.drop 3) 0
    (p := fun τ => SystemTransition.runsAt 2 Pc.writesEdit τ &&
      SystemTransition.returned sampleEnv τ &&
      bookkeeping τ.pre "t" == some (0, none)) (by subst htrace; decide)
  simp only [Bool.and_eq_true, beq_iff_eq] at hread hwrite
  rw [hcut, hcut'] at hrun
  refine ⟨_, _, _, τr, τw, s, hrun, hread.1, hwrite.1.1, hwrite.1.2, ?_⟩
  exact (edit_keeps_bookkeeping_iff hrun hread.1 hwrite.1.1).mpr
    (Or.inr (Or.inr (Or.inr (hwrite.2.trans hread.2.symm))))

/-- The same `EnableTask`, but between its read and its `UPDATE` the scheduler
executes the task, and the execution fails at second `11`. -/
def overtakenEnableRun : List Action :=
  [.boot 0 0 1, .request 0 2 { request := .enableTask "t" true } {},
    .run 2 { clockMs := 11000 }] ++ runs 0 9 ++ [.run 0 { fresh := 3 }] ++
    List.replicate 9 (.run 3 { endpoints := ["worker"], clockMs := 11000 }) ++ runs 2 1

/-- The failed execution has recorded one retry and its end time; the
`EnableTask` puts both columns back to what it had read before. -/
theorem edit_loses_bookkeeping :
    ∃ (env : Env) (s₀ s : State) (before between after : List SystemTransition)
        (τr τw : SystemTransition) (tid : Nat) (id : String),
      Run (step env) s₀ (before ++ τr :: (between ++ τw :: after)) s ∧
      (∀ tid, s₀.threads tid = none) ∧ τr.runsAt tid (Pc.readsForEdit id) = true ∧
      τw.runsAt tid Pc.writesEdit = true ∧ bookkeeping τr.pre id = some (0, none) ∧
      bookkeeping τw.pre id = some (1, some 11) ∧ bookkeeping τw.post id = some (0, none) := by
  obtain ⟨s, hrun⟩ := exists_run_of_isSome
    (show (execute (step sampleEnv) sampleState overtakenEnableRun).isSome = true by decide)
  generalize htrace : executeTrace (step sampleEnv) sampleState overtakenEnableRun = trace at hrun
  obtain ⟨τr, hcut, hread⟩ := exists_cut_of_getElem? (l := trace) 2
    (p := fun τ => SystemTransition.runsAt 2 (Pc.readsForEdit "t") τ &&
      bookkeeping τ.pre "t" == some (0, none)) (by subst htrace; decide)
  obtain ⟨τw, hcut', hwrite⟩ := exists_cut_of_getElem? (l := trace.drop 3) 19
    (p := fun τ => SystemTransition.runsAt 2 Pc.writesEdit τ &&
      bookkeeping τ.pre "t" == some (1, some 11) &&
      bookkeeping τ.post "t" == some (0, none)) (by subst htrace; decide)
  simp only [Bool.and_eq_true, beq_iff_eq] at hread hwrite
  rw [hcut, hcut'] at hrun
  exact ⟨sampleEnv, sampleState, s, _, _, _, τr, τw, 2, "t", hrun, fun _ => rfl, hread.1,
    hwrite.1.1, hread.2, hwrite.1.2, hwrite.2⟩

end Corpcron
