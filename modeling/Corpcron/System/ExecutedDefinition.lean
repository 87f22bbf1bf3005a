import Corpcron.System.ManualRun
import Corpcron.System.ReadModifyWrite

/-!
# Which definition is executed

Both ways of executing a task work from a copy of its row: the scheduler from
the list of its scan, `RunTaskNow` from its `getTask`.  The claim that follows
compares the status and, for the scheduler, `next_run_at`; it does not compare
handler and parameters.  What is sent to the worker is the copy.

An edit of the task between copy and claim is therefore noticed only if it has
left a trace in the compared columns.  `executed_definition_iff` says that the
definition sent is the one claimed exactly if the row has not changed its
handler and parameters in between.
-/

namespace Corpcron

open Lib

variable {env : Env} {s s₀ : State} {τ : SystemTransition} {tid : Nat} {inp : Input} {pc : Pc}
  {c : Claim} {pf : Platform} {cfg : NodeConfig} {reply : Reply}

/-! ## What is sent to a worker -/

/-- `ExecuteTaskRequest`, without token and deadline.  A handler of the process
itself is called with the same values. -/
structure ExecuteTaskRequest where
  taskId : String
  executionId : String
  handler : String
  params : String
deriving DecidableEq

/-- The request of an execution. -/
def Claim.request (c : Claim) : ExecuteTaskRequest where
  taskId := c.task.id
  executionId := c.executionId
  handler := c.task.handler
  params := c.task.params

/-- Whether `RpcClientPool::call` is made at all. -/
def WorkerReply.called : WorkerReply → Bool
  | .notSerialized => false
  | _ => true

/-- Whether `invokeWorker` calls a handler. -/
def Invocation.called : Invocation → Bool
  | .inProcess _ => true
  | .noDiscovery => false
  | .noWorker => false
  | .remote reply => reply.called

/-- The request a thread sends in its step, in `executeTask` or `invokeWorker`. -/
def Pc.request? (inp : Input) : Pc → Option ExecuteTaskRequest
  | .execution d (.calling _) => if inp.reply.called then some d.claim.request else none
  | .handler (.invoking m _) => if inp.invocation.called then some m.claim.request else none
  | _ => none

/-- The request that thread `tid` sends in the step of a transition. -/
def SystemTransition.sent? (tid : Nat) (τ : SystemTransition) : Option ExecuteTaskRequest :=
  match τ.action with
  | .run t inp => if t = tid then (τ.pre.threads t).bind fun th => th.pc.request? inp else none
  | _ => none

/-- A request is sent for the execution the thread has claimed. -/
theorem Pc.claimed_of_request {request : ExecuteTaskRequest} (h : pc.request? inp = some request) :
    ∃ c, pc.claimed = some c ∧ request = c.request := by
  unfold Pc.request? at h
  split at h
  · split at h
    · exact ⟨_, rfl, (Option.some.inj h).symm⟩
    · cases h
  · split at h
    · exact ⟨_, rfl, (Option.some.inj h).symm⟩
    · cases h
  · cases h

theorem SystemTransition.runs_of_sent {request : ExecuteTaskRequest}
    (h : τ.sent? tid = some request) :
    ∃ pc inp, τ.runs? = some (tid, pc) ∧ pc.request? inp = some request := by
  unfold SystemTransition.sent? at h
  split at h
  · rename_i t inp haction
    split at h
    · rename_i ht
      subst ht
      obtain ⟨⟨p, pc⟩, hth, hrequest⟩ := Option.bind_eq_some_iff.mp h
      exact ⟨pc, inp, runs?_eq_some.mpr ⟨inp, p, haction, hth⟩, hrequest⟩
    · cases h
  · cases h

/-! ## From the read to the claim -/

/-- Before the query from which a task is executed. -/
def Pc.readsDefinition (id : String) (pc : Pc) : Bool :=
  pc.scansDue || pc.readsForRun id

/-- The claim a thread is about to make. -/
def Pc.claim? : Pc → Option Claim
  | .scheduler (.dispatching _ d .claiming) => some d.claim
  | .handler (.claiming m) => some m.claim
  | _ => none

/-- Before the `claimTaskExecution` of a task. -/
def Pc.claims (id : String) (pc : Pc) : Bool :=
  pc.claim?.any fun c => c.task.id == id

theorem Pc.claims_iff {id : String} :
    pc.claims id = true ↔ ∃ c, pc.claim? = some c ∧ c.task.id = id := by
  simp [Pc.claims, Option.any_eq_true]

theorem Pc.claim?_eq_some :
    pc.claim? = some c ↔
      (∃ pass d, pc = .scheduler (.dispatching pass d .claiming) ∧ c = d.claim) ∨
        ∃ m : ManualRun, pc = .handler (.claiming m) ∧ c = m.claim := by
  constructor
  · intro h
    unfold Pc.claim? at h
    split at h
    · exact Or.inl ⟨_, _, rfl, (Option.some.inj h).symm⟩
    · exact Or.inr ⟨_, rfl, (Option.some.inj h).symm⟩
    · cases h
  · rintro (⟨pass, d, rfl, rfl⟩ | ⟨m, rfl, rfl⟩) <;> rfl

theorem Pc.access_of_claim (pf : Platform) (cfg : NodeConfig) (h : pc.claim? = some c) :
    ∃ node, pc.access pf cfg = .db (.update (.claimTaskExecution c.task.id c.executionId node
      c.expectedStatus c.expectedNextRunAt)) := by
  rcases Pc.claim?_eq_some.mp h with ⟨pass, d, rfl, rfl⟩ | ⟨m, rfl, rfl⟩
  · exact ⟨cfg.nodeId, rfl⟩
  · exact ⟨cfg.dispatchNode, rfl⟩

/-- The scheduler thread and the dispatch of a claim. -/
def SystemTransition.dispatchClaim? (τ : SystemTransition) : Option (Nat × Pass × Dispatch) :=
  match τ.runs? with
  | some (tid, .scheduler (.dispatching pass d .claiming)) => some (tid, pass, d)
  | _ => none

theorem SystemTransition.dispatchClaim?_eq_some {pass : Pass} {d : Dispatch}
    (h : τ.dispatchClaim? = some (tid, pass, d)) :
    τ.runs? = some (tid, .scheduler (.dispatching pass d .claiming)) := by
  unfold dispatchClaim? at h
  split at h
  · rename_i hruns
    cases h
    exact hruns
  · cases h

/-- The task a scheduler thread is about to dispatch or dispatches. -/
def Pc.dispatched? : Pc → Option TaskMeta
  | .scheduler (.numbering _ task) => some task
  | .scheduler (.dispatching _ d _) => some d.task
  | _ => none

theorem Pass.begin_dispatched {pass : Pass} {task : TaskMeta}
    (h : (Pc.scheduler (pass.begin pf cfg inp)).dispatched? = some task) :
    task ∈ pass.rest := by
  obtain ⟨rest, available⟩ := pass
  cases rest with
  | nil => simp [Pass.begin, Pc.dispatched?] at h
  | cons t rest =>
      simp only [Pass.begin] at h
      repeat' split at h
      all_goals simp [Pc.dispatched?] at h
      all_goals simp [h]

/-- A scheduler thread comes to dispatch a task only from the list of its pass. -/
theorem Pc.dispatched_next {task : TaskMeta}
    (h : (pc.next pf cfg inp reply).dispatched? = some task) :
    pc.dispatched? = some task ∨ ∃ pass, pc = .scheduler (.iterating pass) ∧ task ∈ pass.rest := by
  have hrecover : ∀ rest, (Pc.scheduler (recoverRest rest)).dispatched? = none := by
    intro rest
    cases rest <;> rfl
  cases pc with
  | scheduler pc =>
      cases pc with
      | iterating pass => exact Or.inr ⟨pass, rfl, Pass.begin_dispatched h⟩
      | numbering pass t => exact Or.inl h
      | dispatching pass d stage =>
          left
          cases stage <;> simp only [Pc.next, SchedulerPc.next, DispatchStage.next] at h
          all_goals
            repeat' split at h
            all_goals first | exact h | cases h
      | recovery rest t stage =>
          cases stage <;> simp only [Pc.next, SchedulerPc.next] at h
          all_goals
            repeat' split at h
            all_goals first | cases h | (rw [hrecover] at h; cases h)
      | scanningStale =>
          simp only [Pc.next, SchedulerPc.next, hrecover] at h
          cases h
      | _ =>
          simp only [Pc.next, SchedulerPc.next] at h
          repeat' split at h
          all_goals cases h
  | _ => cases h

/-- The scheduler thread since its scan: the task it dispatches and those it has
still to look at satisfy `A`. -/
def CarriesDispatch (A : TaskMeta → Prop) (pc : Pc) : Prop :=
  CarriesScan A pc ∧ ∀ task, pc.dispatched? = some task → A task

theorem carriesDispatch_next {A : TaskMeta → Prop} (hscan : pc.scansDue = false)
    (h : CarriesDispatch A pc) : CarriesDispatch A (pc.next pf cfg inp reply) := by
  refine ⟨carriesScan_next hscan h.1, ?_⟩
  intro task htask
  rcases Pc.dispatched_next htask with hold | ⟨pass, rfl, hmem⟩
  · exact h.2 task hold
  · exact h.1 task hmem

theorem carriesDispatch_of_scan {stores : Stores} (p : Nat) (inp : Input) :
    CarriesDispatch (· ∈ stores.tasks.getDueTasks stores.now 100)
      (Thread.advance env inp stores ⟨p, .scheduler .scanningDue⟩).pc :=
  ⟨carriesScan_of_scan p inp, fun _ h => by cases h⟩

/-- The task of a claim is the row that was read. -/
theorem read_of_claim {before between after : List SystemTransition} {τr τc : SystemTransition}
    (hrun : Run (step env) s₀ (before ++ τr :: (between ++ τc :: after)) s)
    (hread : τr.runsAt tid (Pc.readsDefinition c.task.id) = true)
    (hlast : ∀ x ∈ between, x.runsAt tid (Pc.readsDefinition c.task.id) = false)
    (hruns : τc.runs? = some (tid, pc)) (hclaim : pc.claim? = some c) :
    ∃ row, τr.pre.stores.tasks.find? c.task.id = some row ∧ c.task = taskFromResult row := by
  obtain ⟨pcr, hreads, hpcr⟩ := SystemTransition.runsAt_iff.mp hread
  rw [Pc.readsDefinition, Bool.or_eq_true] at hpcr
  rcases hpcr with hscan | hget
  · obtain rfl := Pc.scansDue_iff.mp hscan
    have hcarries : CarriesDispatch (· ∈ τr.pre.stores.tasks.getDueTasks τr.pre.stores.now 100)
        pc := by
      refine carried hrun hreads hruns ⟨trivial, fun _ h => by cases h⟩
        (fun p inp _ _ => carriesDispatch_of_scan p inp) ?_
      intro x hx p pc' inp reply hruns'
      apply carriesDispatch_next
      rw [Bool.eq_false_iff]
      intro hscan'
      have hthis : x.runsAt tid (Pc.readsDefinition c.task.id) = true :=
        SystemTransition.runsAt_iff.mpr ⟨pc', hruns', by simp [Pc.readsDefinition, hscan']⟩
      rw [hlast x hx] at hthis
      cases hthis
    rcases Pc.claim?_eq_some.mp hclaim with ⟨pass, d, rfl, rfl⟩ | ⟨m, rfl, rfl⟩
    · obtain ⟨row, hrow, -, htask⟩ := TaskTable.of_mem_getDueTasks (hcarries.2 d.task rfl)
      exact ⟨row, hrow, htask⟩
    · exact False.elim hcarries.1
  · obtain rfl := Pc.readsForRun_iff.mp hget
    have hcarries : CarriesRun (fun m => τr.pre.stores.tasks.getTask c.task.id = some m.task) pc :=
      carried hrun hreads hruns trivial (fun p inp _ _ => carriesRun_of_read p inp)
        (fun _ _ _ _ _ _ _ => carriesRun_next)
    rcases Pc.claim?_eq_some.mp hclaim with ⟨pass, d, rfl, rfl⟩ | ⟨m, rfl, rfl⟩
    · exact False.elim hcarries
    · obtain ⟨row, hrow, htask, -⟩ := TaskTable.of_getTask hcarries
      exact ⟨row, hrow, htask⟩

/-! ## From the claim to the call -/

/-- The transition is the step in which `tid` hands its execution to the thread
pool, where it becomes the thread `closure`. -/
def SystemTransition.enqueues (tid closure : Nat) (τ : SystemTransition) : Bool :=
  match τ.action with
  | .run t inp =>
      t == tid && inp.fresh == closure &&
        (τ.pre.threads t).any fun th => (th.pc.spawned inp).isSome
  | _ => false

/-- The execution that `tid` has claimed is carried out by `worker`: by `tid`
itself, or by the closure that `tid` enqueues before it claims again. -/
def CarriedOutBy (tid worker : Nat) (trace : List SystemTransition) : Prop :=
  worker = tid ∨
    ∃ first τ rest, trace = first ++ τ :: rest ∧ τ.enqueues tid worker = true ∧
      ∀ x ∈ first, ∀ id, x.runsAt tid (Pc.claims id) = false

theorem SystemTransition.enqueues_iff {closure : Nat} :
    τ.enqueues tid closure = true ↔
      ∃ inp th d, τ.action = .run tid inp ∧ inp.fresh = closure ∧
        τ.pre.threads tid = some th ∧ th.pc.spawned inp = some d := by
  unfold SystemTransition.enqueues
  split
  · rename_i t inp haction
    rw [haction]
    simp only [Bool.and_eq_true, beq_iff_eq, Option.any_eq_true, Option.isSome_iff_exists]
    constructor
    · rintro ⟨⟨rfl, rfl⟩, th, hth, d, hspawn⟩
      exact ⟨inp, th, d, rfl, rfl, hth, hspawn⟩
    · rintro ⟨inp', th, d, heq, rfl, hth, hspawn⟩
      injection heq with htid hinp
      subst htid hinp
      exact ⟨⟨rfl, rfl⟩, th, hth, d, hspawn⟩
  · rename_i hnot
    constructor
    · intro h
      cases h
    · rintro ⟨inp, th, d, haction, -⟩
      exact absurd haction (hnot tid inp)

/-- A thread has no claim but `c`. -/
def ClaimedOnly (c : Claim) (pc : Pc) : Prop :=
  ∀ c', pc.claimed = some c' → c' = c

/-- A step that is no claim does not add one. -/
theorem claimedOnly_next (hclaim : pc.claim? = none) (h : ClaimedOnly c pc) :
    ClaimedOnly c (pc.next pf cfg inp reply) := by
  intro c' hc'
  cases pc with
  | scheduler pc =>
      rcases SchedulerPc.claimed_next hc' with hold | ⟨-, pass, d, rfl, -⟩
      · exact h c' hold
      · cases hclaim
  | handler pc =>
      rcases HandlerPc.claimed_next hc' with hold | ⟨-, m, rfl, -⟩
      · exact h c' hold
      · cases hclaim
  | execution d stage =>
      rcases Pc.claimed_next hc' with hold | ⟨-, node, haccess⟩
      · exact h c' hold
      · cases stage <;> cases haccess
  | _ => cases hc'

/-- After its claim a thread has the claim it made, if any. -/
theorem claimedOnly_of_claim (hclaim : pc.claim? = some c) :
    ClaimedOnly c (pc.next pf cfg inp reply) := by
  intro c' hc'
  rcases Pc.claim?_eq_some.mp hclaim with ⟨pass, d, rfl, rfl⟩ | ⟨m, rfl, rfl⟩
  · rcases SchedulerPc.claimed_next hc' with hold | ⟨-, pass', d', heq, rfl⟩
    · cases hold
    · cases heq
      rfl
  · rcases HandlerPc.claimed_next hc' with hold | ⟨-, m', heq, rfl⟩
    · cases hold
    · cases heq
      rfl

theorem claimedOnly_of_carriesRun {m : ManualRun} (h : CarriesRun (· = m) pc) :
    ClaimedOnly m.claim pc := by
  intro c hc
  cases pc with
  | handler pc =>
      cases pc <;> cases hc <;> exact congrArg ManualRun.claim h
  | dead => cases hc
  | _ => exact False.elim h

/-- The thread carries out the dispatch `d`, until its process crashes. -/
def CarriesOut (d : Dispatch) (pc : Pc) : Prop :=
  (∃ stage, pc = .execution d stage) ∨ pc = .dead

theorem carriesOut_next {d : Dispatch} (h : CarriesOut d pc) :
    CarriesOut d (pc.next pf cfg inp reply) := by
  rcases h with ⟨stage, rfl⟩ | rfl
  · exact Or.inl ⟨_, rfl⟩
  · exact Or.inr rfl

theorem claimedOnly_of_carriesOut {d : Dispatch} (h : CarriesOut d pc) :
    ClaimedOnly d.claim pc := by
  intro c hc
  rcases h with ⟨stage, rfl⟩ | rfl
  · cases stage <;> cases hc <;> rfl
  · cases hc

/-- The closure that is enqueued starts with the dispatch of its parent. -/
theorem thread_of_enqueues {closure : Nat} (hstep : step env τ.pre τ.action = some τ.post)
    (h : τ.enqueues tid closure = true) :
    ∃ pass d p, τ.runs? = some (tid, .scheduler (.dispatching pass d .enqueueing)) ∧
      τ.post.threads closure = some ⟨p, .execution d .queued⟩ := by
  obtain ⟨inp, ⟨p, pc⟩, d, haction, hfresh, hth, hspawn⟩ := SystemTransition.enqueues_iff.mp h
  obtain ⟨pass, heq, -⟩ := Pc.spawned_eq_some hspawn
  dsimp only at heq hspawn
  subst heq
  rw [haction] at hstep
  refine ⟨pass, d, p, SystemTransition.runs?_eq_some.mpr ⟨inp, p, haction, hth⟩, ?_⟩
  rw [← hfresh]
  exact queued_of_run hstep hth hspawn

/-- The request that is sent for an execution is the one of its claim. -/
theorem request_of_claim {before toCall after : List SystemTransition} {τc τs : SystemTransition}
    {worker : Nat} {request : ExecuteTaskRequest}
    (hrun : Run (step env) s₀ (before ++ τc :: (toCall ++ τs :: after)) s)
    (hruns : τc.runs? = some (tid, pc)) (hclaim : pc.claim? = some c)
    (hworker : CarriedOutBy tid worker toCall) (hsent : τs.sent? worker = some request) :
    request = c.request := by
  obtain ⟨pcs, inp, hcalls, hrequest⟩ := SystemTransition.runs_of_sent hsent
  obtain ⟨c', hclaimed, rfl⟩ := Pc.claimed_of_request hrequest
  suffices honly : ClaimedOnly c pcs by rw [honly c' hclaimed]
  rcases hworker with rfl | ⟨first, τ, rest, rfl, henqueues, hfirst⟩
  · rcases Pc.claim?_eq_some.mp hclaim with ⟨pass, d, rfl, rfl⟩ | ⟨m, rfl, rfl⟩
    · -- A scheduler thread sends nothing itself.
      have hstays : (∃ pc', pcs = .scheduler pc') ∨ pcs = .dead := by
        refine carried (P := fun pc => (∃ pc', pc = .scheduler pc') ∨ pc = .dead) hrun hruns
          hcalls (Or.inr rfl) (fun _ _ _ _ => Or.inl ⟨_, rfl⟩) ?_
        rintro x - p pc' inp' reply - (⟨pc', rfl⟩ | rfl)
        · exact Or.inl ⟨_, rfl⟩
        · exact Or.inr rfl
      rcases hstays with ⟨pc', rfl⟩ | rfl <;> cases hrequest
    · apply claimedOnly_of_carriesRun
      apply carried (P := CarriesRun (· = m)) hrun hruns hcalls trivial
      · intro p inp' _ _
        have hm : CarriesRun (· = m) (.handler (.claiming m)) := rfl
        exact carriesRun_next hm
      · exact fun _ _ _ _ _ _ _ => carriesRun_next
  · have hrun' : Run (step env) s₀
        (before ++ τc :: (first ++ τ :: (rest ++ τs :: after))) s := by simpa using hrun
    obtain ⟨-, hstep, hlater⟩ := hrun'.split.2.2.split
    obtain ⟨pass, d, p, hruns', hclosure⟩ := thread_of_enqueues hstep henqueues
    -- Until it enqueues the closure, the parent makes no other claim.
    have honly : ClaimedOnly c (.scheduler (.dispatching pass d .enqueueing)) := by
      refine carried hrun' hruns hruns' (fun _ h => by cases h)
        (fun _ _ _ _ => claimedOnly_of_claim hclaim) ?_
      intro x hx p' pc' inp' reply hx'
      apply claimedOnly_next
      cases hc' : pc'.claim? with
      | none => rfl
      | some c'' =>
          have hthis : x.runsAt tid (Pc.claims c''.task.id) = true :=
            SystemTransition.runsAt_iff.mpr ⟨pc', hx', Pc.claims_iff.mpr ⟨c'', hc', rfl⟩⟩
          rw [hfirst x hx] at hthis
          cases hthis
    obtain ⟨th, hth, hout⟩ := thread_keeps (P := CarriesOut d) hlater.split.1 (Or.inr rfl)
      (fun _ _ _ _ _ _ _ => carriesOut_next) ⟨_, hclosure, Or.inl ⟨_, rfl⟩⟩
    obtain ⟨inp', p', -, hbefore⟩ := SystemTransition.runs?_eq_some.mp hcalls
    rw [hbefore, Option.some.injEq] at hth
    subst hth
    rw [← honly d.claim rfl]
    exact claimedOnly_of_carriesOut hout

/-! ## The definition that is executed -/

/-- **Which definition is executed.**  For the read, the successful claim and
the call to the worker of one execution, scheduled or manual: the handler and
parameters sent are those of the row at the claim exactly if the row has then
still the handler and parameters that were read. -/
theorem executed_definition_iff {env : Env} {s₀ s : State}
    {before toClaim toCall after : List SystemTransition} {τr τc τs : SystemTransition}
    {tid worker : Nat} {id : String} {request : ExecuteTaskRequest}
    (hrun : Run (step env) s₀
      (before ++ τr :: (toClaim ++ τc :: (toCall ++ τs :: after))) s)
    (hread : τr.runsAt tid (Pc.readsDefinition id) = true)
    (hlast : ∀ x ∈ toClaim, x.runsAt tid (Pc.readsDefinition id) = false)
    (hclaim : τc.runsAt tid (Pc.claims id) = true) (hclaimed : τc.returned env = true)
    (hworker : CarriedOutBy tid worker toCall) (hsent : τs.sent? worker = some request) :
    ∃ rowRead rowClaim, τr.pre.stores.tasks.find? id = some rowRead ∧
      τc.pre.stores.tasks.find? id = some rowClaim ∧ request.taskId = id ∧
      ((request.handler = rowClaim.handler ∧ request.params = rowClaim.params) ↔
        (rowClaim.handler = rowRead.handler ∧ rowClaim.params = rowRead.params)) := by
  obtain ⟨pc, hruns, hpc⟩ := SystemTransition.runsAt_iff.mp hclaim
  obtain ⟨c, hc, rfl⟩ := Pc.claims_iff.mp hpc
  obtain ⟨rowRead, hrowRead, htask⟩ := read_of_claim hrun hread hlast hruns hc
  have hrun' : Run (step env) s₀
      ((before ++ τr :: toClaim) ++ τc :: (toCall ++ τs :: after)) s := by simpa using hrun
  obtain rfl := request_of_claim hrun' hruns hc hworker hsent
  obtain ⟨stmt, hstmt, haffected⟩ := SystemTransition.returned_eq_true.mp hclaimed
  obtain ⟨cfg, haccess⟩ := SystemTransition.access_of_statement hruns hstmt
  obtain ⟨node, haccess'⟩ := Pc.access_of_claim env.platform cfg hc
  rw [haccess] at haccess'
  cases haccess'
  obtain ⟨rowClaim, hrowClaim, -⟩ := Statement.row_of_affected rfl haffected
  refine ⟨rowRead, rowClaim, hrowRead, hrowClaim, rfl, ?_⟩
  have hhandler : c.task.handler = rowRead.handler := by rw [htask]; rfl
  have hparams : c.task.params = rowRead.params := by rw [htask]; rfl
  simp only [Claim.request, hhandler, hparams]
  constructor <;> exact fun h => ⟨h.1.symm, h.2.symm⟩

/-- The scheduler executes the sample task, up to the call to the worker. -/
def scheduledCall : List Action :=
  [.boot 0 0 1] ++ runs 0 9 ++ [.run 0 { fresh := 3 }] ++ executes 3 11000 3

theorem executed_definition_iff_alone :
    ∃ (before toClaim toCall after : List SystemTransition) (τr τc τs : SystemTransition)
        (s : State) (request : ExecuteTaskRequest), Run (step sampleEnv) sampleState
        (before ++ τr :: (toClaim ++ τc :: (toCall ++ τs :: after))) s ∧
      τs.sent? 3 = some request ∧
      ∃ rowClaim, τc.pre.stores.tasks.find? "t" = some rowClaim ∧
        request.handler = rowClaim.handler ∧ request.params = rowClaim.params := by
  obtain ⟨s, hrun⟩ := exists_run_of_isSome
    (show (execute (step sampleEnv) sampleState scheduledCall).isSome = true by decide)
  generalize htrace : executeTrace (step sampleEnv) sampleState scheduledCall = trace at hrun
  obtain ⟨τr, hcut, hread⟩ := exists_cut_of_getElem? (l := trace) 2
    (p := fun τ => SystemTransition.runsAt 0 (Pc.readsDefinition "t") τ &&
      τ.pre.stores.tasks.find? "t" == some (insertedRow 0 sampleTask)) (by subst htrace; decide)
  obtain ⟨τc, hcut', hclaim⟩ := exists_cut_of_getElem? (l := trace.drop 3) 5
    (p := fun τ => SystemTransition.runsAt 0 (Pc.claims "t") τ &&
      SystemTransition.returned sampleEnv τ &&
      τ.pre.stores.tasks.find? "t" == some (insertedRow 0 sampleTask)) (by subst htrace; decide)
  obtain ⟨τs, hcut'', hsent⟩ := exists_cut_of_getElem? (l := (trace.drop 3).drop 6) 4
    (p := fun τ => (SystemTransition.sent? 3 τ).isSome) (by subst htrace; decide)
  obtain ⟨τq, hcutq, henqueues⟩ := exists_cut_of_getElem? (l := ((trace.drop 3).drop 6).take 4) 1
    (p := SystemTransition.enqueues 0 3) (by subst htrace; decide)
  have hlast : ((trace.drop 3).take 5).all
      (fun x => !SystemTransition.runsAt 0 (Pc.readsDefinition "t") x) = true := by
    subst htrace; decide
  have hfirst : ((((trace.drop 3).drop 6).take 4).take 1).all
      (fun x => (SystemTransition.runs? x).all fun y => y.2.claim?.isNone) = true := by
    subst htrace; decide
  simp only [List.all_eq_true, Bool.not_eq_true'] at hlast
  simp only [List.all_eq_true] at hfirst
  simp only [Bool.and_eq_true, beq_iff_eq] at hread hclaim
  obtain ⟨request, hsent⟩ := Option.isSome_iff_exists.mp hsent
  have hworker : CarriedOutBy 0 3 (((trace.drop 3).drop 6).take 4) := by
    refine Or.inr ⟨_, τq, _, hcutq, henqueues, ?_⟩
    intro x hx id
    rw [Bool.eq_false_iff]
    intro hclaims
    obtain ⟨pc, hruns, hpc⟩ := SystemTransition.runsAt_iff.mp hclaims
    obtain ⟨c, hc, -⟩ := Pc.claims_iff.mp hpc
    have hnone := hfirst x hx
    rw [hruns] at hnone
    simp [hc] at hnone
  rw [hcut, hcut', hcut''] at hrun
  obtain ⟨rowRead, rowClaim, hrowRead, hrowClaim, -, hiff⟩ :=
    executed_definition_iff hrun hread.1 hlast hclaim.1.1 hclaim.1.2 hworker hsent
  refine ⟨_, _, _, _, τr, τc, τs, s, request, hrun, hsent, rowClaim, hrowClaim, hiff.mpr ?_⟩
  have hreadRow := Option.some.inj (hrowRead.symm.trans hread.2)
  have hclaimRow := Option.some.inj (hrowClaim.symm.trans hclaim.2)
  rw [hreadRow, hclaimRow]
  exact ⟨rfl, rfl⟩

/-- A handler that has answered with success. -/
def Pc.acknowledged : Pc → Bool
  | .handler (.replied (.status success _)) => success
  | _ => false

/-- A `RunTaskNow` reads the sample task; an `UpdateTask` gives it other
parameters and is answered; then the `RunTaskNow` goes on. -/
def editedManualRun : List Action :=
  [.boot 0 0 1, .request 0 2 { request := .runTaskNow "t" } {}] ++ runs 2 1 ++
    [.request 0 3 { request := .updateTask (some
      { id := "t", cronExpr := sampleTask.cronExpr, params := "new", handler := "Echo"
        status := taskScheduled, maxRetries := 3 }) } {}] ++ runs 3 2 ++ runs 2 1 ++
    [.run 2 { invocation := .remote (.response "worker" true "" "") }]

/-- The claim compares the status only, and the worker is called with the
parameters from before the edit. -/
theorem edit_ignored_by_manual_run :
    ∃ (env : Env) (s₀ s : State) (before toClaim toCall after : List SystemTransition)
        (τr τc τs : SystemTransition) (tid worker : Nat) (id : String)
        (request : ExecuteTaskRequest), Run (step env) s₀
        (before ++ τr :: (toClaim ++ τc :: (toCall ++ τs :: after))) s ∧
      (∀ tid, s₀.threads tid = none) ∧ τr.runsAt tid (Pc.readsDefinition id) = true ∧
      (∀ x ∈ toClaim, x.runsAt tid (Pc.readsDefinition id) = false) ∧
      τc.runsAt tid (Pc.claims id) = true ∧ τc.returned env = true ∧
      CarriedOutBy tid worker toCall ∧ τs.sent? worker = some request ∧
      (τc.pre.threads 3).any (fun th => th.pc.acknowledged) = true ∧
      (τc.pre.stores.tasks.find? id).map TaskRow.params = some "new" ∧ request.params = "" := by
  obtain ⟨s, hrun⟩ := exists_run_of_isSome
    (show (execute (step sampleEnv) sampleState editedManualRun).isSome = true by decide)
  generalize htrace : executeTrace (step sampleEnv) sampleState editedManualRun = trace at hrun
  obtain ⟨τr, hcut, hread⟩ := exists_cut_of_getElem? (l := trace) 2
    (p := SystemTransition.runsAt 2 (Pc.readsDefinition "t")) (by subst htrace; decide)
  obtain ⟨τc, hcut', hclaim⟩ := exists_cut_of_getElem? (l := trace.drop 3) 3
    (p := fun τ => SystemTransition.runsAt 2 (Pc.claims "t") τ &&
      SystemTransition.returned sampleEnv τ &&
      (τ.pre.threads 3).any (fun th => th.pc.acknowledged) &&
      (τ.pre.stores.tasks.find? "t").map TaskRow.params == some "new") (by subst htrace; decide)
  obtain ⟨τs, hcut'', hsent⟩ := exists_cut_of_getElem? (l := (trace.drop 3).drop 4) 0
    (p := fun τ => (SystemTransition.sent? 2 τ).any fun request => request.params == "")
    (by subst htrace; decide)
  have hlast : ((trace.drop 3).take 3).all
      (fun x => !SystemTransition.runsAt 2 (Pc.readsDefinition "t") x) = true := by
    subst htrace; decide
  simp only [List.all_eq_true, Bool.not_eq_true'] at hlast
  simp only [Bool.and_eq_true, beq_iff_eq] at hclaim
  simp only [Option.any_eq_true, beq_iff_eq] at hsent
  obtain ⟨request, hsent, hparams⟩ := hsent
  rw [hcut, hcut', hcut''] at hrun
  exact ⟨sampleEnv, sampleState, s, _, _, _, _, τr, τc, τs, 2, 2, "t", request, hrun, fun _ => rfl,
    hread, hlast, hclaim.1.1.1, hclaim.1.1.2, Or.inl rfl, hsent, hclaim.1.2, hclaim.2, hparams⟩

end Corpcron
