import Corpcron.Lib.Fencing
import Corpcron.MySQL.RowInvariant

/-!
# Execution fencing on one task row

Scheduler nodes and RPC clients issue the nine statements in any order.  This
module looks at one task id in such an interleaving and proves that the
execution id written by a claim is a fencing token.

The table refines the ownership register of `Lib.Fencing`: the register is
`runningExecution` of the row, a successful claim acquires it, an effective
completion or recovery releases it and a cancel of a running row revokes it
(`rowEvent_refines`).  The history facts of the register then carry over to
the table.
-/

namespace Corpcron

open Lib Lib.Fencing

/-- A statement together with the value of `NOW()` when it is executed. -/
structure Issue where
  now : DateTime
  stmt : Statement

/-- Each statement is one atomic step on the table. -/
def tableStep (t : TaskTable) (issue : Issue) : Option TaskTable :=
  some (t.execute issue.now issue.stmt)

/-- One executed statement. -/
abbrev TableTransition := Transition TaskTable Issue

/-- The execution under which a task of the table is `RUNNING`. -/
def executionOf (id : String) (t : TaskTable) : Option String :=
  runningExecution (t.find? id)

namespace TableTransition

/-- The boolean a claim, completion or recovery returns: `executeUpdate() > 0`. -/
def returned (τ : TableTransition) : Bool :=
  τ.action.stmt.affected τ.action.now (τ.pre.find? τ.action.stmt.taskId)

/-- The statement changed (or created, or removed) the row. -/
def Changes (id : String) (τ : TableTransition) : Prop :=
  τ.post.find? id ≠ τ.pre.find? id

/-- A claim of the row with execution id `e` that returned true. -/
def SuccessfulClaim (id e : String) (τ : TableTransition) : Prop :=
  (∃ node expected next, τ.action.stmt = .claimTaskExecution id e node expected next) ∧
    τ.returned = true

/-- A call `completeTaskExecution(id, e, ...)`. -/
def Completes (id e : String) (τ : TableTransition) : Prop :=
  ∃ status next last retry, τ.action.stmt = .completeTaskExecution id e status next last retry

/-- A call `recoverTaskExecution(id, e)`. -/
def Recovers (id e : String) (τ : TableTransition) : Prop :=
  τ.action.stmt = .recoverTaskExecution id e

/-- A call `cancelTask(id)`. -/
def Cancels (id : String) (τ : TableTransition) : Prop :=
  τ.action.stmt = .cancelTask id

/-- The row runs under `e` before the statement and no longer after it. -/
def Ends (id e : String) (τ : TableTransition) : Prop :=
  executionOf id τ.pre = some e ∧ executionOf id τ.post ≠ some e

instance (id e : String) (τ : TableTransition) : Decidable (Ends id e τ) :=
  inferInstanceAs (Decidable (_ ∧ _))

/-- The execution id of a claim on the row, successful or not. -/
def claimId? (id : String) (τ : TableTransition) : Option String :=
  match τ.action.stmt with
  | .claimTaskExecution target e _ _ _ => if target = id then some e else none
  | _ => none

end TableTransition

open TableTransition

/-- The execution ids used by the claims on one row, in order. -/
def claimIds (id : String) (trace : List TableTransition) : List String :=
  trace.filterMap (claimId? id)

/-! ## Refinement of the ownership register -/

/-- What a statement does to the ownership of the row it addresses. -/
def rowEvent (now : DateTime) (stmt : Statement) (row : Option TaskRow) : FenceEvent String :=
  match stmt with
  | .claimTaskExecution _ e _ _ _ => if stmt.affected now row then .acquired e else .silent
  | .recoverTaskExecution _ e => if stmt.affected now row then .released e else .silent
  | .completeTaskExecution _ e _ _ _ _ => if stmt.affected now row then .released e else .silent
  | .cancelTask _ =>
      match runningExecution row with
      | some e => .revoked e
      | none => .silent
  | _ => .silent

variable {now : DateTime} {stmt : Statement} {row : Option TaskRow} {id e : String}
  {τ : TableTransition} {trace : List TableTransition} {t₀ t : TaskTable}

/-- A statement that cannot end an execution and is no claim leaves the owner
alone. -/
theorem runningExecution_applyRow_of_idle (hissued : stmt.Issued) (hend : stmt.mayEnd = false)
    (hclaim : ∀ id e node expected next, stmt ≠ .claimTaskExecution id e node expected next) :
    runningExecution (stmt.applyRow now row) = runningExecution row := by
  cases row with
  | none =>
      cases stmt with
      | addTask task => exact runningExecution_of_idle hissued.ne_running
      | _ => rfl
  | some r =>
      by_cases hrun : r.status = taskRunning
      · rw [Statement.applyRow_running hissued hrun hend]
      · rw [runningExecution_of_idle hrun]
        cases hguard : stmt.guard now r with
        | false =>
            rw [Statement.applyRow_of_guard_false hguard]
            exact runningExecution_of_idle hrun
        | true =>
            cases stmt with
            | addTask task => simp [Statement.guard] at hguard
            | updateTaskDefinition task =>
                simp only [Statement.applyRow, hguard, if_true]
                exact runningExecution_of_idle hissued.ne_running
            | updateTaskSchedule id next last retry =>
                simp only [Statement.applyRow, hguard, if_true]
                exact runningExecution_of_idle hrun
            | updateTaskRuntime id status next last retry =>
                simp only [Statement.applyRow, hguard, if_true]
                exact runningExecution_of_idle hissued.ne_running
            | deleteTask id => simp [Statement.applyRow, hguard]
            | claimTaskExecution id e node expected next =>
                exact absurd rfl (hclaim id e node expected next)
            | recoverTaskExecution id e => simp [Statement.mayEnd] at hend
            | completeTaskExecution id e status next last retry =>
                simp [Statement.mayEnd] at hend
            | cancelTask id => simp [Statement.mayEnd] at hend

/-- A statement that changes nothing leaves the owner alone. -/
theorem applyRow_of_not_affected (h : stmt.affected now row = false) :
    stmt.applyRow now row = row := by
  simpa [Statement.affected] using h

theorem claim_runningExecution {node : String} {expected : Int} {next : Option DateTime}
    (hidle : IdleStatus expected)
    (h : Statement.affected now (.claimTaskExecution id e node expected next) row = true) :
    runningExecution row = none ∧
      runningExecution
        (Statement.applyRow now (.claimTaskExecution id e node expected next) row) = some e := by
  obtain ⟨r, rfl, hguard⟩ := (claim_affected hidle).mp h
  have hstatus := (claim_guard.mp hguard).1
  constructor
  · apply runningExecution_of_idle
    rw [hstatus]
    exact hidle.ne_running
  · simp [Statement.applyRow, hguard, runningExecution, Statement.assign]

/-- One statement on a valid row is one step of the ownership register. -/
theorem rowEvent_refines (hissued : stmt.Issued) (hvalid : RowsValid row) :
    fenceStep (runningExecution row) (rowEvent now stmt row) =
      some (runningExecution (stmt.applyRow now row)) := by
  have hsilent : ∀ {owner : Option String}, fenceStep owner .silent = some owner := by
    intro owner
    cases owner <;> rfl
  cases stmt with
  | claimTaskExecution id e node expected next =>
      simp only [rowEvent]
      split
      · rename_i haffected
        obtain ⟨hbefore, hafter⟩ := claim_runningExecution hissued haffected
        rw [hbefore, hafter]
        rfl
      · rename_i haffected
        rw [applyRow_of_not_affected (by simpa using haffected)]
        exact hsilent
  | recoverTaskExecution id e =>
      simp only [rowEvent]
      split
      · rename_i haffected
        have howner := (recover_affected hvalid).mp haffected
        obtain ⟨r, rfl, hrun, hexec⟩ := runningExecution_eq_some.mp howner
        rw [howner]
        simp [fenceStep, Statement.applyRow, Statement.guard, hrun, hexec, Statement.assign,
          runningExecution, taskScheduled, taskRunning]
      · rename_i haffected
        rw [applyRow_of_not_affected (by simpa using haffected)]
        exact hsilent
  | completeTaskExecution id e status next last retry =>
      simp only [rowEvent]
      split
      · rename_i haffected
        have howner := (complete_affected hissued).mp haffected
        obtain ⟨r, rfl, hrun, hexec⟩ := runningExecution_eq_some.mp howner
        rw [howner]
        have hne : status ≠ taskRunning := hissued.ne_running
        simp [fenceStep, Statement.applyRow, Statement.guard, hrun, hexec, Statement.assign,
          runningExecution, hne]
      · rename_i haffected
        rw [applyRow_of_not_affected (by simpa using haffected)]
        exact hsilent
  | cancelTask id =>
      -- A cancel has no guard: it revokes whatever execution owns the row.
      have hafter : runningExecution (Statement.applyRow now (.cancelTask id) row) = none := by
        cases row with
        | none => rfl
        | some r =>
            simp [Statement.applyRow, Statement.guard, Statement.assign, runningExecution,
              taskRunning]
      rw [hafter]
      simp only [rowEvent]
      cases howner : runningExecution row with
      | none => rfl
      | some e => simp [fenceStep]
  | addTask task =>
      rw [runningExecution_applyRow_of_idle hissued rfl (by simp)]
      exact hsilent
  | updateTaskDefinition task =>
      rw [runningExecution_applyRow_of_idle hissued rfl (by simp)]
      exact hsilent
  | updateTaskSchedule id next last retry =>
      rw [runningExecution_applyRow_of_idle hissued rfl (by simp)]
      exact hsilent
  | updateTaskRuntime id status next last retry =>
      rw [runningExecution_applyRow_of_idle hissued rfl (by simp)]
      exact hsilent
  | deleteTask id =>
      rw [runningExecution_applyRow_of_idle hissued rfl (by simp)]
      exact hsilent

/-! ## Histories of one row -/

/-- The ownership event of a transition, seen from one row. -/
def tableEvent (id : String) (τ : TableTransition) : FenceEvent String :=
  if τ.action.stmt.taskId = id then
    rowEvent τ.action.now τ.action.stmt (τ.pre.find? id)
  else
    .silent

/-- The lookup of one row after a table step. -/
theorem find?_tableStep (hstep : tableStep τ.pre τ.action = some τ.post) (id : String) :
    τ.post.find? id =
      if id = τ.action.stmt.taskId then
        τ.action.stmt.applyRow τ.action.now (τ.pre.find? id)
      else τ.pre.find? id := by
  simp only [tableStep, Option.some.injEq] at hstep
  rw [← hstep]
  exact TaskTable.find?_execute _ _ _ _

theorem rowsValid_tableStep (hstep : tableStep τ.pre τ.action = some τ.post)
    (hissued : τ.action.stmt.Issued) (hvalid : RowsValid (τ.pre.find? id)) :
    RowsValid (τ.post.find? id) := by
  rw [find?_tableStep hstep]
  split
  · exact Statement.applyRow_valid hissued hvalid
  · exact hvalid

/-- A run of issued statements refines the ownership register of each row. -/
theorem tableRun_refines (id : String) (hrun : Run tableStep t₀ trace t)
    (hvalid : RowsValid (t₀.find? id)) (hissued : ∀ τ ∈ trace, τ.action.stmt.Issued) :
    Refines (executionOf id) (tableEvent id) trace := by
  intro τ hτ
  have hstep := hrun.step_of_mem hτ
  have hpre : RowsValid (τ.pre.find? id) :=
    hrun.invariant_pre (P := fun t => RowsValid (t.find? id)) hτ hvalid
      fun x hx hstep hx' => rowsValid_tableStep hstep (hissued x hx) hx'
  unfold tableEvent executionOf
  rw [find?_tableStep hstep]
  by_cases hid : τ.action.stmt.taskId = id
  · rw [if_pos hid, if_pos hid.symm]
    exact rowEvent_refines (hissued τ hτ) hpre
  · rw [if_neg hid, if_neg (fun h => hid h.symm)]
    cases runningExecution (τ.pre.find? id) <;> rfl

/-- A transition acquires the row exactly when it is a successful claim. -/
theorem tableEvent_eq_acquired :
    tableEvent id τ = .acquired e ↔ SuccessfulClaim id e τ := by
  obtain ⟨pre, ⟨now, stmt⟩, post⟩ := τ
  simp only [tableEvent, SuccessfulClaim, returned]
  cases stmt with
  | claimTaskExecution target executionId node expected next =>
      by_cases hid : target = id
      · subst hid
        simp only [Statement.taskId, if_true, rowEvent]
        split
        · rename_i haffected
          simp [haffected]
        · rename_i haffected
          simp [haffected]
      · simp [Statement.taskId, hid]
  | cancelTask target =>
      by_cases hid : target = id
      · cases howner : runningExecution (pre.find? id) <;>
          simp [Statement.taskId, hid, rowEvent, howner]
      · simp [Statement.taskId, hid]
  | recoverTaskExecution target executionId =>
      by_cases hid : target = id
      · subst hid
        simp only [Statement.taskId, if_true, rowEvent]
        split <;> simp
      · simp [Statement.taskId, hid]
  | completeTaskExecution target executionId status next last retry =>
      by_cases hid : target = id
      · subst hid
        simp only [Statement.taskId, if_true, rowEvent]
        split <;> simp
      · simp [Statement.taskId, hid]
  | _ => simp [rowEvent]

/-- A cancel of an owned row is not silent. -/
theorem tableEvent_ne_silent_of_cancels (hcancel : Cancels id τ)
    (howner : executionOf id τ.pre = some e) :
    tableEvent id τ ≠ .silent := by
  unfold Cancels at hcancel
  unfold executionOf at howner
  simp [tableEvent, hcancel, Statement.taskId, rowEvent, howner]

/-- A completion or recovery that returned true is not silent. -/
theorem tableEvent_of_ender (hender : Completes id e τ ∨ Recovers id e τ)
    (hreturned : τ.returned = true) :
    tableEvent id τ = .released e := by
  unfold returned at hreturned
  rcases hender with ⟨status, next, last, retry, hstmt⟩ | hstmt
  · rw [hstmt] at hreturned
    simp only [Statement.taskId] at hreturned
    simp [tableEvent, hstmt, Statement.taskId, rowEvent, hreturned]
  · unfold Recovers at hstmt
    rw [hstmt] at hreturned
    simp only [Statement.taskId] at hreturned
    simp [tableEvent, hstmt, Statement.taskId, rowEvent, hreturned]

/-- A statement on the row returns true exactly when it changes the row. -/
theorem returned_iff_changes (hstep : tableStep τ.pre τ.action = some τ.post) :
    τ.returned = true ↔ Changes τ.action.stmt.taskId τ := by
  simp only [returned, Changes, find?_tableStep hstep, if_true, Statement.affected]
  simp

/-- The statements that can take the row away from an execution. -/
theorem ender_of_ends (hevent : tableEvent id τ = .released e ∨ tableEvent id τ = .revoked e) :
    Completes id e τ ∨ Recovers id e τ ∨ Cancels id τ := by
  obtain ⟨pre, ⟨now, stmt⟩, post⟩ := τ
  simp only [tableEvent, Completes, Recovers, Cancels] at *
  by_cases hid : stmt.taskId = id
  · rw [if_pos hid] at hevent
    cases stmt with
    | recoverTaskExecution target executionId =>
        simp only [Statement.taskId] at hid
        subst hid
        simp only [rowEvent] at hevent
        split at hevent <;> simp at hevent
        subst hevent
        exact Or.inr (Or.inl rfl)
    | completeTaskExecution target executionId status next last retry =>
        simp only [Statement.taskId] at hid
        subst hid
        simp only [rowEvent] at hevent
        split at hevent <;> simp at hevent
        subst hevent
        exact Or.inl ⟨status, next, last, retry, rfl⟩
    | cancelTask target =>
        simp only [Statement.taskId] at hid
        subst hid
        exact Or.inr (Or.inr rfl)
    | claimTaskExecution target executionId node expected next =>
        simp only [rowEvent] at hevent
        split at hevent <;> simp at hevent
    | _ => simp [rowEvent] at hevent
  · rw [if_neg hid] at hevent
    simp at hevent

/-- With pairwise distinct claim ids there is at most one successful claim per
execution id. -/
theorem countP_successfulClaim_le_one (hdistinct : (claimIds id trace).Nodup) (e : String) :
    trace.countP (fun τ => decide (tableEvent id τ = .acquired e)) ≤ 1 := by
  have hcount : trace.countP (fun τ => decide (tableEvent id τ = .acquired e)) ≤
      (claimIds id trace).count e := by
    clear hdistinct
    unfold claimIds
    induction trace with
    | nil => simp
    | cons τ trace ih =>
        rw [List.countP_cons, List.filterMap_cons]
        by_cases hclaim : tableEvent id τ = .acquired e
        · obtain ⟨⟨node, expected, next, hstmt⟩, -⟩ := tableEvent_eq_acquired.mp hclaim
          simp only [hclaim, claimId?, hstmt, decide_true, if_true, List.count_cons_self]
          omega
        · simp only [hclaim, decide_false, Bool.false_eq_true, if_false, add_zero]
          cases claimId? id τ with
          | none => exact ih
          | some executionId => exact ih.trans List.count_le_count_cons
  exact hcount.trans (List.nodup_iff_count_le_one.mp hdistinct e)

/-- Claims of an execution are ends of it, except for the one that still owns
the row. -/
theorem countP_claims_eq (hrun : Run tableStep t₀ trace t) (hvalid : RowsValid (t₀.find? id))
    (hfree : executionOf id t₀ = none) (hissued : ∀ τ ∈ trace, τ.action.stmt.Issued) (e : String) :
    trace.countP (fun τ => decide (tableEvent id τ = .acquired e)) =
      trace.countP (fun τ => decide (Ends id e τ)) +
        (if executionOf id t = some e then 1 else 0) :=
  acquired_balance e hrun (tableRun_refines id hrun hvalid hissued) hfree

/-- With distinct claim ids an execution is ended at most once. -/
theorem countP_ends_le_one (hrun : Run tableStep t₀ trace t) (hvalid : RowsValid (t₀.find? id))
    (hfree : executionOf id t₀ = none) (hissued : ∀ τ ∈ trace, τ.action.stmt.Issued)
    (hdistinct : (claimIds id trace).Nodup) (e : String) :
    trace.countP (fun τ => decide (Ends id e τ)) ≤ 1 := by
  have hclaims := countP_successfulClaim_le_one hdistinct e
  have hbalance := countP_claims_eq hrun hvalid hfree hissued e
  omega

/-- **Execution fencing.**  In any interleaving of issued statements in which
the claims of a row carry pairwise distinct execution ids:

* a completion or recovery of `e` that changes the row comes after a successful
  claim with `e`, and since that claim there was no other successful claim, no
  cancel and no effective completion or recovery of `e`;
* a claimed execution is ended at most once, by a completion, a recovery or a
  cancel, and exactly once unless the row still runs under it;
* while the row is `RUNNING`, every other statement leaves it as it is. -/
theorem execution_fencing {t₀ t : TaskTable} {trace : List TableTransition} (id : String)
    (hrun : Run tableStep t₀ trace t)
    (hvalid : RowsValid (t₀.find? id)) (hfree : executionOf id t₀ = none)
    (hissued : ∀ τ ∈ trace, τ.action.stmt.Issued)
    (hdistinct : (claimIds id trace).Nodup) :
    (∀ before τ after e, trace = before ++ τ :: after →
      Completes id e τ ∨ Recovers id e τ → τ.returned = true ∨ Changes id τ →
      ∃ earlier claim since, before = earlier ++ claim :: since ∧
        SuccessfulClaim id e claim ∧
        ∀ x ∈ since, (∀ e', ¬ SuccessfulClaim id e' x) ∧ ¬ Cancels id x ∧
          ¬ ((Completes id e x ∨ Recovers id e x) ∧ x.returned = true)) ∧
    (∀ e, trace.countP (fun τ => decide (Ends id e τ)) ≤ 1) ∧
    (∀ e, ∀ τ ∈ trace, Ends id e τ → Completes id e τ ∨ Recovers id e τ ∨ Cancels id τ) ∧
    (∀ e, (∃ τ ∈ trace, SuccessfulClaim id e τ) →
      trace.countP (fun τ => decide (Ends id e τ)) = 1 ∨
        executionOf id t = some e) ∧
    (∀ τ ∈ trace, ∀ row, τ.pre.find? id = some row → row.status = taskRunning →
      τ.action.stmt.mayEnd = false → τ.post.find? id = some row) := by
  have hrefines := tableRun_refines id hrun hvalid hissued
  refine ⟨?_, countP_ends_le_one hrun hvalid hfree hissued hdistinct, ?_, ?_, ?_⟩
  · intro before τ after e htrace hender heffect
    subst htrace
    obtain ⟨hbefore, hstep, -⟩ := hrun.split
    have hid : τ.action.stmt.taskId = id := by
      rcases hender with ⟨_, _, _, _, hstmt⟩ | hstmt
      · rw [hstmt]; rfl
      · unfold Recovers at hstmt
        rw [hstmt]; rfl
    have hreturned : τ.returned = true := by
      rcases heffect with h | h
      · exact h
      · rw [returned_iff_changes hstep, hid]
        exact h
    have hreleased := tableEvent_of_ender hender hreturned
    have hregister := hrefines τ (by simp)
    have howner := (fenceStep_cleared hregister (.inl hreleased)).1
    obtain ⟨earlier, claim, since, hsplit, hclaim, hsilent⟩ :=
      last_acquired hbefore hrefines.left hfree howner
    refine ⟨earlier, claim, since, hsplit, tableEvent_eq_acquired.mp hclaim, ?_⟩
    intro x hx
    obtain ⟨hquiet, hown⟩ := hsilent x hx
    refine ⟨?_, ?_, ?_⟩
    · intro e' hother
      rw [tableEvent_eq_acquired.mpr hother] at hquiet
      simp at hquiet
    · intro hcancel
      exact tableEvent_ne_silent_of_cancels hcancel hown hquiet
    · rintro ⟨hagain, hdone⟩
      rw [tableEvent_of_ender hagain hdone] at hquiet
      simp at hquiet
  · intro e τ hτ hends
    exact ender_of_ends ((ends_iff (hrefines τ hτ)).mp hends)
  · rintro e ⟨τ, hτ, hclaim⟩
    have hclaims := countP_successfulClaim_le_one hdistinct e
    have hpos : 0 < trace.countP (fun τ => decide (tableEvent id τ = .acquired e)) := by
      rw [List.countP_pos_iff]
      exact ⟨τ, hτ, by simpa using tableEvent_eq_acquired.mpr hclaim⟩
    have hb := countP_claims_eq hrun hvalid hfree hissued e
    by_cases hopen : executionOf id t = some e
    · exact Or.inr hopen
    · left
      simp only [hopen, if_false] at hb
      omega
  · intro τ hτ row hrow hrunning hend
    rw [find?_tableStep (hrun.step_of_mem hτ), hrow]
    split
    · exact Statement.applyRow_running (hissued τ hτ) hrunning hend
    · rfl

/-- A task that is added, claimed and completed. -/
def claimedAndCompleted : List Issue :=
  [⟨0, .addTask { id := "t", status := taskScheduled }⟩,
   ⟨5, .claimTaskExecution "t" "e" "node" taskScheduled none⟩,
   ⟨9, .completeTaskExecution "t" "e" taskScheduled (some 20) (some 9) 0⟩]

theorem execution_fencing_claimedAndCompleted :
    ∃ trace t, Run tableStep KeyedTable.empty trace t ∧
      (∃ τ ∈ trace, SuccessfulClaim "t" "e" τ) ∧
      (trace.countP (fun τ => decide (Ends "t" "e" τ)) = 1 ∨ executionOf "t" t = some "e") := by
  have hrun : Run tableStep KeyedTable.empty
      (executeTrace tableStep KeyedTable.empty claimedAndCompleted) _ := run_of_execute rfl
  have hclaim : ∃ τ ∈ executeTrace tableStep KeyedTable.empty claimedAndCompleted,
      SuccessfulClaim "t" "e" τ := by
    refine ⟨_, List.mem_cons_of_mem _ List.mem_cons_self, ⟨_, _, _, rfl⟩, ?_⟩
    decide
  have hissued : ∀ τ ∈ executeTrace tableStep KeyedTable.empty claimedAndCompleted,
      τ.action.stmt.Issued := by
    simp [executeTrace, tableStep, claimedAndCompleted, Statement.Issued, IdleStatus]
  have hfencing := execution_fencing "t" hrun (by intro r hr; simp at hr) rfl hissued (by decide)
  exact ⟨_, _, hrun, hclaim, hfencing.2.2.2.1 "e" hclaim⟩

end Corpcron
