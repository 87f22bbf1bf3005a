import Corpcron.Lib.Trace
import Corpcron.MySQL.ExecutionFencing
import Corpcron.Rpc.TaskHandlers
import Corpcron.Scheduler.Dispatch

/-!
# A deployment of any number of nodes

`State` is the shared stores and the threads of all processes.  An action of
the deployment is one step of one thread, or something that happens to it: a
clock moves, Redis loses a key, a process is started, stopped or crashes, a
request arrives.  Processes are numbered by node; a node that has crashed may
be started again and then has fresh memory.  Thread names are never used
twice, so a thread keeps its name for the rest of the run.

The clocks are free: `NOW()` takes any value a `dbClock` action gives it, the
clocks of the nodes are part of each step's `Input`.  Statements that depend on
clocks say so in their hypotheses.

The section on steps states once what an action does to the table, to the locks and to
the threads; invariants are proved from these lemmas.
-/

namespace Corpcron

open Lib

/-! ## States -/

/-- Program counter of a thread; `dead` after a crash of its process. -/
inductive Pc where
  | scheduler (pc : SchedulerPc)
  | execution (d : Dispatch) (stage : ExecutionStage)
  | handler (pc : HandlerPc)
  | renewer (pc : RenewerPc)
  | dead

namespace Pc

/-- The call a thread makes next. -/
def access (pf : Platform) (cfg : NodeConfig) : Pc → Access
  | .scheduler pc => pc.access cfg
  | .execution d stage => stage.access pf cfg d
  | .handler pc => pc.access pf cfg
  | .renewer pc => pc.access
  | .dead => .idle

/-- Where a thread goes with the reply of its call. -/
def next (pf : Platform) (cfg : NodeConfig) (inp : Input) (reply : Reply) : Pc → Pc
  | .scheduler pc => .scheduler (pc.next pf cfg inp reply)
  | .execution d stage => .execution d (stage.next pf cfg d inp reply)
  | .handler pc => .handler (pc.next pf cfg inp reply)
  | .renewer pc => .renewer (pc.next reply)
  | .dead => .dead

/-- The closure a thread hands to the pool in this step. -/
def spawned (inp : Input) : Pc → Option Dispatch
  | .scheduler pc => pc.spawned inp
  | _ => none

end Pc

/-- A closure is handed over by a scheduler thread that is about to enqueue it. -/
theorem Pc.spawned_eq_some {inp : Input} {pc : Pc} {d : Dispatch}
    (h : pc.spawned inp = some d) :
    ∃ pass, pc = .scheduler (.dispatching pass d .enqueueing) ∧ inp.enqueued = true := by
  cases pc with
  | scheduler pc =>
      cases pc with
      | dispatching pass d' stage =>
          cases stage <;> simp [Pc.spawned, SchedulerPc.spawned] at h
          obtain ⟨henqueued, rfl⟩ := h
          exact ⟨pass, rfl, henqueued⟩
      | _ => simp [Pc.spawned, SchedulerPc.spawned] at h
  | _ => simp [Pc.spawned] at h

/-- The C library, the configuration of every node, and which ids are equal under
the collation of the database. -/
structure Env where
  platform : Platform
  node : Nat → NodeConfig
  sameId : String → String → Bool := fun text id => text == id

/-- A thread and the process it belongs to. -/
structure Thread where
  proc : Nat
  pc : Pc

namespace Thread

/-- The call of a thread, from its node's configuration. -/
def access (env : Env) (th : Thread) : Access :=
  th.pc.access env.platform (env.node th.proc)

/-- The stores after the call of a thread, and its reply. -/
def exec (env : Env) (inp : Input) (s : Stores) (th : Thread) : Stores × Reply :=
  (th.access env).exec inp.fault inp.steadyMs th.proc s

/-- The thread after its call. -/
def advance (env : Env) (inp : Input) (s : Stores) (th : Thread) : Thread :=
  ⟨th.proc, th.pc.next env.platform (env.node th.proc) inp (th.exec env inp s).2⟩

/-- The reply to a call to MySQL. -/
theorem exec_db {env : Env} {inp : Input} {s : Stores} {th : Thread} {call : DbAccess}
    (h : th.access env = .db call) :
    (th.exec env inp s).2 = if inp.fault then { failed := true } else (call.exec s).2 := by
  unfold exec
  rw [h]
  cases hfault : inp.fault <;> simp [Access.exec]

end Thread

/-- A state of the deployment. -/
structure State where
  stores : Stores
  threads : Nat → Option Thread

/-- Put a thread in place. -/
def State.setThread (s : State) (tid : Nat) (th : Thread) : State :=
  { s with threads := fun t => if t = tid then some th else s.threads t }

/-! ## Actions -/

/-- What can happen in a deployment. -/
inductive Action where
  /-- `NOW()` becomes the given value. -/
  | dbClock (now : DateTime)
  /-- The Redis clock moves and due keys expire. -/
  | redisClock (now : Nat)
  /-- Redis loses a key. -/
  | redisLose (key : String)
  /-- A node starts its scheduler and lock renewer threads. -/
  | boot (p scheduler renewer : Nat)
  /-- `stop()` cancels `shutdown_cancellation_`. -/
  | stop (p : Nat)
  /-- `stop()` sets `running_` to false. -/
  | stopLoop (p : Nat)
  | crash (p : Nat)
  /-- A request arrives and is given a thread. -/
  | request (p tid : Nat) (call : Call) (inp : Input)
  /-- A thread makes its next call. -/
  | run (tid : Nat) (inp : Input)

/-- The request an action brings. -/
def Action.request? : Action → Option Request
  | .request _ _ call _ => some call.request
  | _ => none

/-- Replace the objects of one process. -/
def Stores.setProc (s : Stores) (p : Nat) (proc : Process) : Stores :=
  { s with procs := fun q => if q = p then proc else s.procs q }

/-- The threads after a crash of `p`. -/
def killThread (p : Nat) (th : Thread) : Thread :=
  if th.proc = p then ⟨p, .dead⟩ else th

/-- One step of a thread. -/
def runThread (env : Env) (s : State) (tid : Nat) (inp : Input) : Option State :=
  match s.threads tid with
  | none => none
  | some th =>
      let moved : State :=
        State.setThread ⟨(th.exec env inp s.stores).1, s.threads⟩ tid
          (th.advance env inp s.stores)
      match th.pc.spawned inp with
      | none => some moved
      | some d =>
          if (s.threads inp.fresh).isSome then none
          else some (moved.setThread inp.fresh ⟨th.proc, .execution d .queued⟩)

/-- The step function of a deployment. -/
def step (env : Env) (s : State) : Action → Option State
  | .dbClock now => some { s with stores := { s.stores with now := now } }
  | .redisClock now =>
      some { s with
        stores := { s.stores with redisNow := now, locks := s.stores.locks.expire now } }
  | .redisLose key =>
      some { s with stores := { s.stores with locks := s.stores.locks.lose key } }
  | .boot p scheduler renewer =>
      if (s.stores.procs p).alive || (s.threads scheduler).isSome ||
          (s.threads renewer).isSome || scheduler == renewer then none
      else
        -- A process that is started again has fresh objects.
        some <| State.setThread
          (State.setThread
            ⟨s.stores.setProc p { alive := true, running := true }, s.threads⟩
            scheduler ⟨p, .scheduler .scanningStale⟩)
          renewer ⟨p, .renewer .waiting⟩
  | .stop p =>
      some { s with
        stores := s.stores.setProc p { s.stores.procs p with shutdown := true } }
  | .stopLoop p =>
      some { s with
        stores := s.stores.setProc p { s.stores.procs p with running := false } }
  | .crash p =>
      some ⟨s.stores.setProc p {}, fun t => (s.threads t).map (killThread p)⟩
  | .request p tid call inp =>
      if (s.stores.procs p).alive && (s.threads tid).isNone && call.request.matched env.sameId then
        some (s.setThread tid ⟨p, .handler (beginCall env.platform (env.node p) inp call)⟩)
      else none
  | .run tid inp => runThread env s tid inp

/-- One executed action. -/
abbrev SystemTransition := Transition State Action

/-! ## What a step does -/

variable {env : Env} {s s' s₀ : State} {a : Action} {τ : SystemTransition}
  {trace : List SystemTransition} {tid p : Nat} {inp : Input} {th : Thread} {stmt : Statement}

/-- The statement an action executes. -/
def statement? (env : Env) (s : State) : Action → Option Statement
  | .run tid inp => (s.threads tid).bind fun th => (th.access env).statement? inp.fault
  | _ => none

/-- The thread that makes the step of a transition. -/
def SystemTransition.thread? (τ : SystemTransition) : Option Thread :=
  match τ.action with
  | .run tid _ => τ.pre.threads tid
  | _ => none

/-- Whether the transition executes a statement that changes its row; this is
what the statement returns. -/
def SystemTransition.returned (env : Env) (τ : SystemTransition) : Bool :=
  (statement? env τ.pre τ.action).any fun stmt =>
    stmt.affected τ.pre.stores.now (τ.pre.stores.tasks.find? stmt.taskId)

theorem SystemTransition.thread?_eq_some :
    τ.thread? = some th ↔
      ∃ tid inp, τ.action = .run tid inp ∧ τ.pre.threads tid = some th := by
  unfold SystemTransition.thread?
  cases τ.action <;> simp

theorem SystemTransition.returned_eq_true :
    τ.returned env = true ↔
      ∃ stmt, statement? env τ.pre τ.action = some stmt ∧
        stmt.affected τ.pre.stores.now (τ.pre.stores.tasks.find? stmt.taskId) = true := by
  simp [SystemTransition.returned, Option.any_eq_true]

theorem SystemTransition.returned_of_statement (hstmt : statement? env τ.pre τ.action = some stmt) :
    τ.returned env =
      stmt.affected τ.pre.stores.now (τ.pre.stores.tasks.find? stmt.taskId) := by
  rw [SystemTransition.returned, hstmt, Option.any_some]

/-- A statement that returns true is executed and changes its row. -/
theorem SystemTransition.statement_of_returned (hthread : τ.thread? = some th)
    (haccess : th.access env = .db (.update stmt)) (hreturned : τ.returned env = true) :
    statement? env τ.pre τ.action = some stmt ∧
      stmt.affected τ.pre.stores.now (τ.pre.stores.tasks.find? stmt.taskId) = true := by
  obtain ⟨tid, inp, haction, hth⟩ := thread?_eq_some.mp hthread
  simp only [returned, haction, statement?, hth, Option.bind_some, haccess] at hreturned ⊢
  cases hfault : inp.fault with
  | true => simp [Access.statement?, hfault] at hreturned
  | false => simpa [Access.statement?, hfault] using hreturned

/-- A step of a thread, taken apart. -/
theorem step_run (h : step env s (.run tid inp) = some s') :
    ∃ th, s.threads tid = some th ∧ s'.stores = (th.exec env inp s.stores).1 ∧
      ((th.pc.spawned inp = none ∧
          ∀ t, s'.threads t =
            if t = tid then some (th.advance env inp s.stores) else s.threads t) ∨
        ∃ d, th.pc.spawned inp = some d ∧ s.threads inp.fresh = none ∧
          ∀ t, s'.threads t =
            if t = inp.fresh then some ⟨th.proc, .execution d .queued⟩
            else if t = tid then some (th.advance env inp s.stores) else s.threads t) := by
  simp only [step, runThread] at h
  cases hth : s.threads tid with
  | none => simp [hth] at h
  | some th =>
      simp only [hth] at h
      cases hspawn : th.pc.spawned inp with
      | none =>
          simp only [hspawn, Option.some.injEq] at h
          subst h
          exact ⟨th, rfl, rfl, Or.inl ⟨hspawn, fun t => rfl⟩⟩
      | some d =>
          simp only [hspawn] at h
          cases hfresh : s.threads inp.fresh with
          | some other => simp [hfresh] at h
          | none =>
              simp only [hfresh, Option.isSome_none, Bool.false_eq_true, if_false,
                Option.some.injEq] at h
              subst h
              exact ⟨th, rfl, rfl, Or.inr ⟨d, hspawn, rfl, fun t => rfl⟩⟩

/-- The stores after the step of a thread. -/
theorem stores_of_run (h : step env s (.run tid inp) = some s') (hth : s.threads tid = some th) :
    s'.stores = (th.exec env inp s.stores).1 := by
  obtain ⟨th', hth', hstores, -⟩ := step_run h
  rw [hth, Option.some.injEq] at hth'
  subst hth'
  exact hstores

/-- The thread after its step. -/
theorem thread_of_run (h : step env s (.run tid inp) = some s') (hth : s.threads tid = some th) :
    s'.threads tid = some (th.advance env inp s.stores) := by
  obtain ⟨th', hth', -, hthreads⟩ := step_run h
  rw [hth, Option.some.injEq] at hth'
  subst hth'
  rcases hthreads with ⟨-, hthreads⟩ | ⟨d, -, hfresh, hthreads⟩
  · rw [hthreads, if_pos rfl]
  · have hne : tid ≠ inp.fresh := by
      rintro rfl
      simp [hth] at hfresh
    rw [hthreads, if_neg hne, if_pos rfl]

/-- The closure that a thread enqueues in its step. -/
theorem queued_of_run {d : Dispatch} (h : step env s (.run tid inp) = some s')
    (hth : s.threads tid = some th) (hspawn : th.pc.spawned inp = some d) :
    s'.threads inp.fresh = some ⟨th.proc, .execution d .queued⟩ := by
  obtain ⟨th', hth', -, hthreads⟩ := step_run h
  rw [hth, Option.some.injEq] at hth'
  subst hth'
  rcases hthreads with ⟨hnone, -⟩ | ⟨d', hspawn', -, hthreads⟩
  · rw [hspawn] at hnone
    cases hnone
  · rw [hspawn, Option.some.injEq] at hspawn'
    subst hspawn'
    rw [hthreads, if_pos rfl]

/-- The locks after the step of a thread. -/
theorem locks_of_run (h : step env s (.run tid inp) = some s') (hth : s.threads tid = some th) :
    s'.stores.locks =
      match th.access env with
      | .redis call =>
          if inp.fault then s.stores.locks
          else (call.apply s.stores.redisNow s.stores.locks).1
      | _ => s.stores.locks := by
  rw [stores_of_run h hth]
  exact Access.exec_locks _ _ _ _ _

/-- The start of a node, taken apart. -/
theorem step_boot {scheduler renewer : Nat} (h : step env s (.boot p scheduler renewer) = some s') :
    (s.stores.procs p).alive = false ∧ s.threads scheduler = none ∧ s.threads renewer = none ∧
      s'.stores = s.stores.setProc p { alive := true, running := true } ∧
      ∀ t, s'.threads t =
        if t = renewer then some ⟨p, .renewer .waiting⟩
        else if t = scheduler then some ⟨p, .scheduler .scanningStale⟩ else s.threads t := by
  simp only [step] at h
  split at h
  · simp at h
  · rename_i hfree
    simp only [Bool.or_eq_true, not_or, Option.isSome_iff_ne_none, ne_eq, not_not,
      Bool.not_eq_true] at hfree
    simp only [Option.some.injEq] at h
    subst h
    exact ⟨hfree.1.1.1, hfree.1.1.2, hfree.1.2, rfl, fun t => rfl⟩

/-- The arrival of a request, taken apart. -/
theorem step_request {call : Call} (h : step env s (.request p tid call inp) = some s') :
    (s.stores.procs p).alive = true ∧ s.threads tid = none ∧ s'.stores = s.stores ∧
      ∀ t, s'.threads t =
        if t = tid then some ⟨p, .handler (beginCall env.platform (env.node p) inp call)⟩
        else s.threads t := by
  simp only [step] at h
  split at h
  · rename_i hfree
    simp only [Bool.and_eq_true, Option.isNone_iff_eq_none] at hfree
    simp only [Option.some.injEq] at h
    subst h
    exact ⟨hfree.1.1, hfree.1.2, rfl, fun t => rfl⟩
  · simp at h

/-- The table changes only through the statement of the action. -/
theorem step_tasks (h : step env s a = some s') :
    s'.stores.tasks =
      match statement? env s a with
      | some stmt => s.stores.tasks.execute s.stores.now stmt
      | none => s.stores.tasks := by
  cases a with
  | run tid inp =>
      obtain ⟨th, hth, hstores, -⟩ := step_run h
      rw [hstores]
      simp only [statement?, hth, Option.bind_some]
      exact Access.exec_tasks _ _ _ _ _
  | boot p scheduler renewer =>
      rw [(step_boot h).2.2.2.1]
      rfl
  | request p tid call inp =>
      rw [(step_request h).2.2.1]
      rfl
  | _ =>
      simp only [step, Option.some.injEq] at h
      subst h
      rfl

/-- One row after an action. -/
theorem find?_step (h : step env s a = some s') (id : String) :
    s'.stores.tasks.find? id =
      match statement? env s a with
      | some stmt =>
          if id = stmt.taskId then stmt.applyRow s.stores.now (s.stores.tasks.find? id)
          else s.stores.tasks.find? id
      | none => s.stores.tasks.find? id := by
  rw [step_tasks h]
  cases statement? env s a with
  | none => rfl
  | some stmt => exact TaskTable.find?_execute _ _ _ _

/-- The row of an `UPDATE` after it. -/
theorem SystemTransition.post_of_statement (h : step env τ.pre τ.action = some τ.post)
    (hstmt : statement? env τ.pre τ.action = some stmt) (hupdate : stmt.isUpdate = true) :
    τ.post.stores.tasks.find? stmt.taskId =
      (τ.pre.stores.tasks.find? stmt.taskId).map fun r =>
        if stmt.guard τ.pre.stores.now r then stmt.assign τ.pre.stores.now r else r := by
  rw [find?_step h, hstmt]
  simp only [if_true]
  cases τ.pre.stores.tasks.find? stmt.taskId with
  | none => exact Statement.applyRow_none hupdate
  | some r =>
      rw [Option.map_some]
      split
      · rename_i hguard
        exact Statement.applyRow_of_guard hupdate hguard
      · rename_i hguard
        exact Statement.applyRow_of_guard_false (by simpa using hguard)

/-- A step without a statement that returns true leaves every row as it is. -/
theorem find?_of_not_returned (h : step env τ.pre τ.action = some τ.post)
    (hreturned : τ.returned env = false) (id : String) :
    τ.post.stores.tasks.find? id = τ.pre.stores.tasks.find? id := by
  rw [find?_step h]
  unfold SystemTransition.returned at hreturned
  cases hstmt : statement? env τ.pre τ.action with
  | none => rfl
  | some stmt =>
      rw [hstmt, Option.any_some] at hreturned
      dsimp only
      split
      · rename_i hid
        subst hid
        exact applyRow_of_not_affected hreturned
      · rfl

/-- A row changes only through a statement on it that returns true. -/
theorem row_of_step (h : step env τ.pre τ.action = some τ.post) (id : String) :
    τ.post.stores.tasks.find? id = τ.pre.stores.tasks.find? id ∨
      ∃ stmt, statement? env τ.pre τ.action = some stmt ∧ τ.returned env = true ∧
        stmt.taskId = id := by
  cases hreturned : τ.returned env with
  | false => exact Or.inl (find?_of_not_returned h hreturned id)
  | true =>
      obtain ⟨stmt, hstmt, -⟩ := SystemTransition.returned_eq_true.mp hreturned
      by_cases hid : id = stmt.taskId
      · exact Or.inr ⟨stmt, hstmt, rfl, hid.symm⟩
      · left
        rw [find?_step h, hstmt]
        dsimp only
        rw [if_neg hid]

/-- What an `UPDATE` that returns true leaves. -/
theorem SystemTransition.post_of_returned (hstep : step env τ.pre τ.action = some τ.post)
    (hstmt : statement? env τ.pre τ.action = some stmt) (hupdate : stmt.isUpdate = true)
    (hreturned : τ.returned env = true) :
    ∃ r, τ.pre.stores.tasks.find? stmt.taskId = some r ∧
      stmt.guard τ.pre.stores.now r = true ∧
      τ.post.stores.tasks.find? stmt.taskId = some (stmt.assign τ.pre.stores.now r) := by
  rw [SystemTransition.returned, hstmt, Option.any_some] at hreturned
  obtain ⟨r, hr, hguard, happly⟩ := Statement.row_of_affected hupdate hreturned
  refine ⟨r, hr, hguard, ?_⟩
  rw [find?_step hstep, hstmt]
  simp only [if_true]
  exact happly

/-- A `DELETE` that returns true leaves no row. -/
theorem SystemTransition.post_of_delete {id : String}
    (hstep : step env τ.pre τ.action = some τ.post)
    (hstmt : statement? env τ.pre τ.action = some (.deleteTask id))
    (hreturned : τ.returned env = true) : τ.post.stores.tasks.find? id = none := by
  rw [SystemTransition.returned, hstmt, Option.any_some] at hreturned
  rw [find?_step hstep, hstmt]
  simp only [Statement.taskId, if_true]
  exact delete_affected hreturned

/-- The locks after an action. -/
theorem step_locks (h : step env s a = some s') :
    s'.stores.locks =
      match a with
      | .run _ _ => s'.stores.locks
      | .redisClock now => s.stores.locks.expire now
      | .redisLose key => s.stores.locks.lose key
      | _ => s.stores.locks := by
  cases a with
  | run tid inp => rfl
  | boot p scheduler renewer =>
      rw [(step_boot h).2.2.2.1]
      rfl
  | request p tid call inp => rw [(step_request h).2.2.1]
  | _ =>
      simp only [step, Option.some.injEq] at h
      subst h
      rfl

/-- Leases and registry of a process after an action that is no thread's step:
as before, or empty when the process has been started or has crashed. -/
theorem step_local (h : step env s a = some s') (hrun : ∀ tid inp, a ≠ .run tid inp) (q : Nat) :
    (a ≠ .crash q ∧ (s'.stores.procs q).leases = (s.stores.procs q).leases ∧
        (s'.stores.procs q).registry = (s.stores.procs q).registry) ∨
      (((∃ scheduler renewer, a = .boot q scheduler renewer) ∨ a = .crash q) ∧
        (s'.stores.procs q).leases = [] ∧ (s'.stores.procs q).registry = fun _ => none) := by
  cases a with
  | run tid inp => exact absurd rfl (hrun tid inp)
  | boot p scheduler renewer =>
      rw [(step_boot h).2.2.2.1]
      by_cases hq : q = p
      · subst hq
        right
        simp [Stores.setProc]
      · left
        simp [Stores.setProc, hq]
  | request p tid call inp =>
      rw [(step_request h).2.2.1]
      exact Or.inl ⟨by simp, rfl, rfl⟩
  | crash p =>
      simp only [step, Option.some.injEq] at h
      subst h
      by_cases hq : q = p
      · subst hq
        right
        simp [Stores.setProc]
      · left
        simp [Stores.setProc, hq, Ne.symm hq]
  | stop p =>
      simp only [step, Option.some.injEq] at h
      subst h
      left
      by_cases hq : q = p <;> simp [Stores.setProc, hq]
  | stopLoop p =>
      simp only [step, Option.some.injEq] at h
      subst h
      left
      by_cases hq : q = p <;> simp [Stores.setProc, hq]
  | _ =>
      simp only [step, Option.some.injEq] at h
      subst h
      exact Or.inl ⟨by simp, rfl, rfl⟩

/-- What an action does to the objects of a process: a thread of the process
makes a call on them, they keep their leases and registry entries, or the process
is started or crashes. -/
theorem local_step (h : step env s a = some s') (p : Nat) :
    (∃ tid inp pc call, a = .run tid inp ∧ s.threads tid = some ⟨p, pc⟩ ∧
        Thread.access env ⟨p, pc⟩ = .process call ∧
        s'.stores.procs p = (call.exec inp.steadyMs (s.stores.procs p)).1) ∨
      ((∀ tid inp pc call, a = .run tid inp → s.threads tid = some ⟨p, pc⟩ →
          Thread.access env ⟨p, pc⟩ ≠ .process call) ∧ a ≠ .crash p ∧
        (s'.stores.procs p).leases = (s.stores.procs p).leases ∧
        (s'.stores.procs p).registry = (s.stores.procs p).registry) ∨
      (((∃ scheduler renewer, a = .boot p scheduler renewer) ∨ a = .crash p) ∧
        (s'.stores.procs p).leases = [] ∧ (s'.stores.procs p).registry = fun _ => none) := by
  by_cases hrun : ∃ tid inp, a = .run tid inp
  · obtain ⟨tid, inp, rfl⟩ := hrun
    obtain ⟨⟨q, pc⟩, hth, hstores, -⟩ := step_run h
    have hprocs := Access.exec_procs inp.fault inp.steadyMs q p s.stores (Thread.access env ⟨q, pc⟩)
    change (Thread.exec env inp s.stores ⟨q, pc⟩).1.procs p = _ at hprocs
    rw [hstores, hprocs]
    -- A thread of another process, or one that makes another call, changes nothing.
    have hsame : (∀ call, Thread.access env ⟨q, pc⟩ = .process call → p ≠ q) →
        ∀ tid' inp' pc' call, Action.run tid inp = .run tid' inp' →
          s.threads tid' = some ⟨p, pc'⟩ → Thread.access env ⟨p, pc'⟩ ≠ .process call := by
      intro hother tid' inp' pc' call heq hth' haccess
      cases heq
      rw [hth, Option.some.injEq] at hth'
      cases hth'
      exact hother call haccess rfl
    cases haccess : Thread.access env ⟨q, pc⟩ with
    | process call =>
        by_cases hp : p = q
        · subst hp
          exact Or.inl ⟨tid, inp, pc, call, rfl, hth, haccess, by simp⟩
        · exact Or.inr (Or.inl ⟨hsame fun _ _ => hp, by simp, by simp [hp], by simp [hp]⟩)
    | _ =>
        refine Or.inr (Or.inl ⟨hsame ?_, by simp, rfl, rfl⟩)
        intro call hcall
        rw [haccess] at hcall
        cases hcall
  · right
    rcases step_local h (fun tid inp heq => hrun ⟨tid, inp, heq⟩) p with hsame | hreset
    · exact Or.inl ⟨fun tid inp _ _ heq => absurd ⟨tid, inp, heq⟩ hrun, hsame⟩
    · exact Or.inr hreset

/-! ## Where threads come from -/

/-- How a thread of the state after a step relates to the state before. -/
inductive ThreadOrigin (env : Env) (s : State) (a : Action) (tid : Nat) (th : Thread) : Prop
  | kept (hbefore : s.threads tid = some th) (hidle : ∀ inp, a ≠ .run tid inp)
  | moved (inp : Input) (th₀ : Thread) (haction : a = .run tid inp)
      (hbefore : s.threads tid = some th₀) (heq : th = th₀.advance env inp s.stores)
  | spawned (inp : Input) (parent : Nat) (th₀ : Thread) (d : Dispatch)
      (haction : a = .run parent inp) (hparent : s.threads parent = some th₀)
      (hspawn : th₀.pc.spawned inp = some d) (hname : tid = inp.fresh)
      (hfresh : s.threads tid = none) (heq : th = ⟨th₀.proc, .execution d .queued⟩)
  | killed (p : Nat) (th₀ : Thread) (haction : a = .crash p)
      (hbefore : s.threads tid = some th₀) (heq : th = ⟨p, .dead⟩)
  | booted (p scheduler renewer : Nat) (haction : a = .boot p scheduler renewer)
      (hname : tid = scheduler ∨ tid = renewer) (hfresh : s.threads tid = none)
      (heq : th = ⟨p, .scheduler .scanningStale⟩ ∨ th = ⟨p, .renewer .waiting⟩)
  | called (p : Nat) (call : Call) (inp : Input) (haction : a = .request p tid call inp)
      (hfresh : s.threads tid = none)
      (heq : th = ⟨p, .handler (beginCall env.platform (env.node p) inp call)⟩)

/-- Every thread after a step has an origin. -/
theorem threadOrigin (h : step env s a = some s') (hth : s'.threads tid = some th) :
    ThreadOrigin env s a tid th := by
  cases a with
  | run runner inp =>
      obtain ⟨th₀, hrunner, -, ⟨-, hthreads⟩ | ⟨d, hspawn, hfresh, hthreads⟩⟩ := step_run h
      · rw [hthreads] at hth
        by_cases htid : tid = runner
        · subst htid
          simp only [if_true, Option.some.injEq] at hth
          exact .moved inp th₀ rfl hrunner hth.symm
        · rw [if_neg htid] at hth
          exact .kept hth (by intro inp' heq; injection heq with h1; exact htid h1.symm)
      · rw [hthreads] at hth
        by_cases hnew : tid = inp.fresh
        · subst hnew
          simp only [if_true, Option.some.injEq] at hth
          exact .spawned inp runner th₀ d rfl hrunner hspawn rfl hfresh hth.symm
        · rw [if_neg hnew] at hth
          by_cases htid : tid = runner
          · subst htid
            simp only [if_true, Option.some.injEq] at hth
            exact .moved inp th₀ rfl hrunner hth.symm
          · rw [if_neg htid] at hth
            exact .kept hth (by intro inp' heq; injection heq with h1; exact htid h1.symm)
  | boot p scheduler renewer =>
      obtain ⟨-, hscheduler, hrenewer, -, hthreads⟩ := step_boot h
      rw [hthreads] at hth
      by_cases hnew : tid = renewer
      · subst hnew
        simp only [if_true, Option.some.injEq] at hth
        exact .booted p scheduler tid rfl (Or.inr rfl) hrenewer (Or.inr hth.symm)
      · rw [if_neg hnew] at hth
        by_cases hnew' : tid = scheduler
        · subst hnew'
          simp only [if_true, Option.some.injEq] at hth
          exact .booted p tid renewer rfl (Or.inl rfl) hscheduler (Or.inl hth.symm)
        · rw [if_neg hnew'] at hth
          exact .kept hth (by simp)
  | crash p =>
      simp only [step, Option.some.injEq] at h
      subst h
      obtain ⟨th₀, hbefore, hkill⟩ := Option.map_eq_some_iff.mp hth
      by_cases hp : th₀.proc = p
      · rw [killThread, if_pos hp] at hkill
        exact .killed p th₀ rfl hbefore hkill.symm
      · rw [killThread, if_neg hp] at hkill
        subst hkill
        exact .kept hbefore (by simp)
  | request p runner call inp =>
      obtain ⟨-, hfresh, -, hthreads⟩ := step_request h
      rw [hthreads] at hth
      by_cases htid : tid = runner
      · subst htid
        simp only [if_true, Option.some.injEq] at hth
        exact .called p call inp rfl hfresh hth.symm
      · rw [if_neg htid] at hth
        exact .kept hth (by simp)
  | _ =>
      simp only [step, Option.some.injEq] at h
      subst h
      exact .kept hth (by simp)

/-- What becomes of a thread in a step: it stays, moves, or dies. -/
theorem thread_step (h : step env s a = some s') (hth : s.threads tid = some th) :
    (s'.threads tid = some th ∧ ∀ inp, a ≠ .run tid inp) ∨
      (∃ inp, a = .run tid inp ∧ s'.threads tid = some (th.advance env inp s.stores)) ∨
      (∃ p, a = .crash p ∧ s'.threads tid = some ⟨p, .dead⟩) := by
  have hpresent : ∃ th', s'.threads tid = some th' := by
    cases a with
    | run runner inp =>
        obtain ⟨th₀, -, -, ⟨-, hthreads⟩ | ⟨d, -, -, hthreads⟩⟩ := step_run h
        · rw [hthreads]
          split
          · exact ⟨_, rfl⟩
          · exact ⟨_, hth⟩
        · rw [hthreads]
          split
          · exact ⟨_, rfl⟩
          · split
            · exact ⟨_, rfl⟩
            · exact ⟨_, hth⟩
    | boot p scheduler renewer =>
        rw [(step_boot h).2.2.2.2]
        split
        · exact ⟨_, rfl⟩
        · split
          · exact ⟨_, rfl⟩
          · exact ⟨_, hth⟩
    | crash p =>
        simp only [step, Option.some.injEq] at h
        subst h
        exact ⟨killThread p th, by simp only [hth, Option.map_some]⟩
    | request p runner call inp =>
        rw [(step_request h).2.2.2]
        split
        · exact ⟨_, rfl⟩
        · exact ⟨_, hth⟩
    | _ =>
        simp only [step, Option.some.injEq] at h
        subst h
        exact ⟨_, hth⟩
  -- No step removes a thread, so what it has become is known from its origin.
  obtain ⟨th', hth'⟩ := hpresent
  rw [hth']
  cases threadOrigin h hth' with
  | kept hbefore hidle =>
      rw [hth, Option.some.injEq] at hbefore
      exact Or.inl ⟨by rw [hbefore], hidle⟩
  | moved inp th₀ haction hbefore heq =>
      rw [hth, Option.some.injEq] at hbefore
      subst hbefore
      exact Or.inr (Or.inl ⟨inp, haction, by rw [heq]⟩)
  | spawned inp parent th₀ d haction hparent hspawn hname hfresh heq => simp [hth] at hfresh
  | killed p th₀ haction hbefore heq => exact Or.inr (Or.inr ⟨p, haction, by rw [heq]⟩)
  | booted p scheduler renewer haction hname hfresh heq => simp [hth] at hfresh
  | called p call inp haction hfresh heq => simp [hth] at hfresh

/-- A property of program counters that new threads have and that steps keep
holds of all threads of a run that starts without any. -/
theorem threads_invariant {P : Nat → Pc → Prop} (hrun : Run (step env) s₀ trace s)
    (hstart : ∀ tid, s₀.threads tid = none) (hdead : ∀ p, P p .dead)
    (hboot : ∀ p, P p (.scheduler .scanningStale) ∧ P p (.renewer .waiting))
    (hcall : ∀ τ ∈ trace, ∀ p tid call inp, τ.action = .request p tid call inp →
      P p (.handler (beginCall env.platform (env.node p) inp call)))
    (hspawn : ∀ p (pc : Pc) inp d, P p pc → pc.spawned inp = some d → P p (.execution d .queued))
    (hmove : ∀ τ ∈ trace, ∀ tid inp (th : Thread), τ.action = .run tid inp →
      τ.pre.threads tid = some th → P th.proc th.pc →
      P th.proc (th.advance env inp τ.pre.stores).pc) :
    ∀ tid th, s.threads tid = some th → P th.proc th.pc := by
  apply hrun.invariant (P := fun s => ∀ tid th, s.threads tid = some th → P th.proc th.pc)
  · intro tid th hth
    simp [hstart] at hth
  · intro τ hτ hstep hpre tid th hth
    cases threadOrigin hstep hth with
    | kept hbefore hidle => exact hpre tid th hbefore
    | moved inp th₀ haction hbefore heq =>
        subst heq
        exact hmove τ hτ tid inp th₀ haction hbefore (hpre tid th₀ hbefore)
    | spawned inp parent th₀ d haction hparent hspawned hname hfresh heq =>
        subst heq
        exact hspawn _ _ inp d (hpre parent th₀ hparent) hspawned
    | killed p th₀ haction hbefore heq =>
        subst heq
        exact hdead p
    | booted p scheduler renewer haction hname hfresh heq =>
        rcases heq with rfl | rfl
        · exact (hboot p).1
        · exact (hboot p).2
    | called p call inp haction hfresh heq =>
        subst heq
        exact hcall τ hτ p tid call inp haction

/-- A process lives until it crashes. -/
theorem step_alive {q : Nat} (h : step env s a = some s') (hcrash : a ≠ .crash q)
    (halive : (s.stores.procs q).alive = true) :
    (s'.stores.procs q).alive = true := by
  cases a with
  | run tid inp =>
      obtain ⟨th, -, hstores, -⟩ := step_run h
      rw [hstores]
      exact (Access.exec_alive _ _ _ _ _ _).trans halive
  | boot p scheduler renewer =>
      rw [(step_boot h).2.2.2.1]
      by_cases hq : q = p <;> simp [Stores.setProc, hq, halive]
  | request p tid call inp =>
      rw [(step_request h).2.2.1]
      exact halive
  | crash p =>
      simp only [step, Option.some.injEq] at h
      subst h
      have hq : q ≠ p := fun heq => hcrash (by rw [heq])
      simpa [Stores.setProc, hq] using halive
  | stop p =>
      simp only [step, Option.some.injEq] at h
      subst h
      by_cases hq : q = p
      · subst hq
        simpa [Stores.setProc] using halive
      · simpa [Stores.setProc, hq] using halive
  | stopLoop p =>
      simp only [step, Option.some.injEq] at h
      subst h
      by_cases hq : q = p
      · subst hq
        simpa [Stores.setProc] using halive
      · simpa [Stores.setProc, hq] using halive
  | _ =>
      simp only [step, Option.some.injEq] at h
      subst h
      exact halive

/-- A crash leaves no thread of its process but dead ones. -/
theorem dead_of_crash (h : step env s (.crash th.proc) = some s') (hth : s'.threads tid = some th) :
    th.pc = .dead := by
  simp only [step, Option.some.injEq] at h
  subst h
  obtain ⟨th₀, -, hkill⟩ := Option.map_eq_some_iff.mp hth
  unfold killThread at hkill
  split at hkill
  · rw [← hkill]
  · rename_i hother
    exact absurd (congrArg Thread.proc hkill) hother

/-- The process of a thread that has not died is alive. -/
theorem alive_of_thread (hrun : Run (step env) s₀ trace s) (hstart : ∀ tid, s₀.threads tid = none) :
    ∀ tid th, s.threads tid = some th → th.pc ≠ .dead →
      (s.stores.procs th.proc).alive = true := by
  apply hrun.invariant (P := fun s => ∀ tid th, s.threads tid = some th → th.pc ≠ .dead →
    (s.stores.procs th.proc).alive = true)
  · intro tid th hth
    simp [hstart] at hth
  · intro τ hτ hstep hpre tid th hth hlive
    -- A crash of its process would have left the thread dead.
    have hcrash : τ.action ≠ .crash th.proc := by
      intro heq
      rw [heq] at hstep
      exact hlive (dead_of_crash hstep hth)
    cases threadOrigin hstep hth with
    | kept hbefore hidle => exact step_alive hstep hcrash (hpre tid th hbefore hlive)
    | moved inp th₀ haction hbefore heq =>
        subst heq
        apply step_alive hstep hcrash (hpre tid th₀ hbefore _)
        intro hdead
        apply hlive
        simp [Thread.advance, hdead, Pc.next]
    | spawned inp parent th₀ d haction hparent hspawned hname hfresh heq =>
        subst heq
        apply step_alive hstep hcrash (hpre parent th₀ hparent _)
        intro hdead
        simp [hdead, Pc.spawned] at hspawned
    | killed p th₀ haction hbefore heq =>
        subst heq
        exact absurd rfl hlive
    | booted p scheduler renewer haction hname hfresh heq =>
        rw [haction] at hstep
        rw [(step_boot hstep).2.2.2.1]
        rcases heq with rfl | rfl <;> simp [Stores.setProc]
    | called p call inp haction hfresh heq =>
        subst heq
        rw [haction] at hstep
        rw [(step_request hstep).2.2.1]
        exact (step_request hstep).1

/-- The threads an action may start. -/
def Action.starts : Action → List Nat
  | .boot _ scheduler renewer => [scheduler, renewer]
  | .request _ tid _ _ => [tid]
  | .run _ inp => [inp.fresh]
  | _ => []

/-- A thread that no action starts does not exist. -/
theorem thread_none_of_run (hrun : Run (step env) s₀ trace s) (hstart : s₀.threads tid = none)
    (hnames : ∀ τ ∈ trace, tid ∉ τ.action.starts) : s.threads tid = none := by
  apply hrun.invariant (P := fun s => s.threads tid = none) hstart
  intro τ hτ hstep hpre
  cases hpost : τ.post.threads tid with
  | none => rfl
  | some th =>
      exfalso
      apply hnames τ hτ
      cases threadOrigin hstep hpost with
      | kept hbefore hidle => simp [hpre] at hbefore
      | moved inp th₀ haction hbefore heq => simp [hpre] at hbefore
      | killed p th₀ haction hbefore heq => simp [hpre] at hbefore
      | spawned inp parent th₀ d haction hparent hspawn hname hfresh heq =>
          simp [haction, Action.starts, hname]
      | booted p scheduler renewer haction hname hfresh heq =>
          simpa [haction, Action.starts] using hname
      | called p call inp haction hfresh heq => simp [haction, Action.starts]

/-- A property of all threads of a state can be checked on the names that the
run has used. -/
theorem threads_all_of_run {n : Nat} {p : Thread → Bool} (hrun : Run (step env) s₀ trace s)
    (hstart : ∀ tid, s₀.threads tid = none) (hnames : ∀ τ ∈ trace, ∀ tid ∈ τ.action.starts, tid < n)
    (hcheck : (List.range n).all (fun tid => (s.threads tid).all p) = true) :
    ∀ tid th, s.threads tid = some th → p th = true := by
  intro tid th hth
  by_cases htid : tid < n
  · have hone := List.all_eq_true.mp hcheck tid (List.mem_range.mpr htid)
    simpa [hth] using hone
  · have hnone : s.threads tid = none := by
      apply thread_none_of_run hrun (hstart tid)
      intro τ hτ hname
      exact htid (hnames τ hτ tid hname)
    rw [hnone] at hth
    cases hth

/-! ## A small deployment -/

/-- A node in a zone without daylight saving; its only cron expression fires
every ten seconds. -/
def utcPlatform : Platform where
  localtime sec := sec
  mktime civil := some civil
  cronNext expr nowSec :=
    if expr = "*/10 * * * * *" ∧ nowSec < 1000000000 then some ((nowSec / 10 + 1) * 10 : Nat)
    else none
  cronNext_range := by
    intro expr nowSec nextSec h
    split at h
    · simp only [Option.some.injEq] at h
      omega
    · simp at h

/-- Two nodes with default configuration. -/
def sampleEnv : Env where
  platform := utcPlatform
  node p := { nodeId := if p = 0 then "a" else "b" }

/-- A task that is scheduled for time `10`. -/
def sampleTask : TaskMeta where
  id := "t"
  cronExpr := "*/10 * * * * *"
  handler := "Echo"
  status := taskScheduled
  nextRunAt := some 10

/-- The state before any node is started. -/
def sampleState : State where
  stores := { now := 10, tasks := TaskTable.execute KeyedTable.empty 0 (.addTask sampleTask) }
  threads _ := none

/-- Steps of a thread, with a live worker for every handler. -/
def runs (tid n : Nat) : List Action :=
  List.replicate n (.run tid { endpoints := ["worker"] })

/-- Steps of a closure: the worker answers with success, and the clock of the
node stands at `clockMs`. -/
def executes (tid clockMs n : Nat) : List Action :=
  List.replicate n
    (.run tid { endpoints := ["worker"], clockMs, reply := .response "worker" true "" "" })

theorem sampleState_rows : sampleState.stores.tasks.rows = [insertedRow 0 sampleTask] := rfl

end Corpcron
