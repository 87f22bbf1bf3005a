import Corpcron.System.MissingWorker
import Corpcron.System.ReadModifyWrite

/-!
# The batch of a pass

A pass of the scheduler reads at most 100 due tasks, the oldest first, and only
then asks which of them have a worker.  Tasks without one stay where they are,
and with their old times they are at the head of the next batch as well.

`scan_attempts_iff` says which tasks a pass tries to lock: those of the first 100
due tasks that have a worker.  These are the first 100 of the due tasks with a
worker exactly if the batch has no task without one, or no task with one is left
out of it.
-/

namespace Corpcron

open Lib

/-! ## Due tasks -/

/-- All due tasks in the order of the query. -/
def dueTasks (s : State) : List TaskMeta :=
  ((s.stores.tasks.rows.filter (TaskTable.isDue s.stores.now)).insertionSort
    (fun a b => TaskTable.dueBefore a b = true)).map taskFromResult

theorem getDueTasks_eq_take (s : State) (limit : Nat) :
    s.stores.tasks.getDueTasks s.stores.now limit = (dueTasks s).take limit := by
  rw [TaskTable.getDueTasks, dueTasks, List.map_take]

/-- Filtering the first `n` elements and taking the first `n` of those that pass
the filter agree only if all of the first `n` pass, or none of the others
does. -/
theorem filter_take_eq_take_filter_iff {α : Type*} (p : α → Bool) (l : List α) (n : Nat) :
    (l.take n).filter p = (l.filter p).take n ↔
      (∀ x ∈ l.drop n, p x = false) ∨ ∀ x ∈ l.take n, p x = true := by
  have hsplit : l.filter p = (l.take n).filter p ++ (l.drop n).filter p := by
    rw [← List.filter_append, List.take_append_drop]
  have hle : ((l.take n).filter p).length ≤ n :=
    (List.length_filter_le _ _).trans (List.length_take_le _ _)
  rw [hsplit, List.take_append, List.take_of_length_le hle, eq_comm,
    List.append_right_eq_self, List.take_eq_nil_iff]
  constructor
  · rintro (hfull | hnone)
    · -- The batch is full of elements that pass.
      right
      have hall : ((l.take n).filter p).length = (l.take n).length :=
        le_antisymm (List.length_filter_le _ _) ((List.length_take_le _ _).trans (by omega))
      exact List.length_filter_eq_length_iff.mp hall
    · left
      intro x hx
      simpa using List.filter_eq_nil_iff.mp hnone x hx
  · rintro (hnone | hall)
    · right
      rw [List.filter_eq_nil_iff]
      intro x hx
      simp [hnone x hx]
    · rw [List.filter_eq_self.mpr hall, List.length_take]
      by_cases hlong : n ≤ l.length
      · left
        omega
      · right
        rw [List.drop_of_length_le (by omega)]
        rfl

/-! ## The tasks of a pass -/

/-- The scheduler thread after the last task of its pass. -/
def Pc.sleeps : Pc → Bool
  | .scheduler .sleeping => true
  | _ => false

theorem Pc.sleeps_iff {pc : Pc} : pc.sleeps = true ↔ pc = .scheduler .sleeping := by
  unfold Pc.sleeps
  split <;> simp_all

/-- The task for which the thread draws an execution id; the call that follows is
the first attempt to lock it. -/
def Pc.attempted : Pc → List TaskMeta
  | .scheduler (.numbering _ task) => [task]
  | _ => []

/-- The task that a transition makes thread `tid` attempt to lock. -/
def SystemTransition.attempted (tid : Nat) (τ : SystemTransition) : List TaskMeta :=
  match τ.runs? with
  | some (t, pc) => if t = tid then pc.attempted else []
  | none => []

/-- The tasks that thread `tid` attempts to lock, in order. -/
def attempts (tid : Nat) (trace : List SystemTransition) : List TaskMeta :=
  trace.flatMap (SystemTransition.attempted tid)

theorem attempts_append_singleton (tid : Nat) (trace : List SystemTransition)
    (τ : SystemTransition) :
    attempts tid (trace ++ [τ]) = attempts tid trace ++ τ.attempted tid := by
  simp [attempts]

theorem SystemTransition.attempted_of_runs {tid : Nat} {τ : SystemTransition} {pc : Pc}
    (hruns : τ.runs? = some (tid, pc)) : τ.attempted tid = pc.attempted := by
  simp [SystemTransition.attempted, hruns]

theorem SystemTransition.attempted_of_ne {tid : Nat} {τ : SystemTransition}
    (h : ∀ inp, τ.action ≠ .run tid inp) : τ.attempted tid = [] := by
  unfold SystemTransition.attempted
  split
  · rename_i t pc hruns
    obtain ⟨inp, p, haction, -⟩ := SystemTransition.runs?_eq_some.mp hruns
    rw [if_neg]
    rintro rfl
    exact h inp haction
  · rfl

/-- Thread `tid` reads the due tasks; its node does not skip misfires. -/
def SystemTransition.startsPass (env : Env) (tid : Nat) (τ : SystemTransition) : Bool :=
  !τ.action.faults && τ.runsAt tid Pc.scansDue &&
    (τ.pre.threads tid).any fun th => (env.node th.proc).misfirePolicy != "skip"

/-- If the thread asks discovery for a handler, it is told whether the handler has
a live worker. -/
def SystemTransition.discovers (live : String → Bool) (tid : Nat) (τ : SystemTransition) : Bool :=
  match τ.action, τ.runs? with
  | .run t inp, some (_, .scheduler (.iterating ⟨task :: _, available⟩)) =>
      t != tid || (available.lookup task.handler).isSome ||
        (!inp.endpoints.isEmpty) == live task.handler
  | _, _ => true

/-- What a pass remembers about handlers is right. -/
def Pass.Remembers (live : String → Bool) (pass : Pass) : Prop :=
  ∀ handler found, pass.available.lookup handler = some found → found = live handler

/-- The scheduler thread in its pass: the attempts made and those to come are
those of `due`. -/
def InPass (live : String → Bool) (due made : List TaskMeta) : Pc → Prop
  | .scheduler (.iterating pass) => pass.Remembers live ∧
      made ++ pass.rest.filter (fun task => live task.handler) = due
  | .scheduler (.numbering pass task) => pass.Remembers live ∧
      made ++ task :: pass.rest.filter (fun task => live task.handler) = due
  | .scheduler (.dispatching pass _ _) => pass.Remembers live ∧
      made ++ pass.rest.filter (fun task => live task.handler) = due
  | .scheduler .sleeping => made = due
  | _ => False

/-- The head of the loop keeps a task exactly if it has a live worker. -/
theorem inPass_begin {live : String → Bool} {due made : List TaskMeta} (pf : Platform)
    {cfg : NodeConfig} {inp : Input} {pass : Pass} (hpolicy : cfg.misfirePolicy ≠ "skip")
    (hlive : ∀ task rest, pass.rest = task :: rest → pass.available.lookup task.handler = none →
      (!inp.endpoints.isEmpty) = live task.handler)
    (h : InPass live due made (.scheduler (.iterating pass))) :
    InPass live due made (.scheduler (pass.begin pf cfg inp)) := by
  obtain ⟨rest, available⟩ := pass
  obtain ⟨hknown, hdue⟩ := h
  cases rest with
  | nil => simpa [Pass.begin, InPass] using hdue
  | cons task rest =>
      have hskip : misfireSkip pf cfg task inp.clockMs = none := by
        simp [misfireSkip, hpolicy]
      simp only [Pass.begin, hskip]
      cases hlookup : available.lookup task.handler with
      | some found =>
          have hfound : found = live task.handler := hknown task.handler found hlookup
          cases found with
          | true =>
              refine ⟨hknown, ?_⟩
              rw [← hdue, List.filter_cons, if_pos hfound.symm]
          | false =>
              refine ⟨hknown, ?_⟩
              rw [← hdue, List.filter_cons, if_neg (by simp [← hfound])]
      | none =>
          have hfound := hlive task rest rfl hlookup
          have hknown' : Pass.Remembers live
              ⟨rest, (task.handler, !inp.endpoints.isEmpty) :: available⟩ := by
            intro handler found hmemo
            simp only [List.lookup_cons] at hmemo
            split at hmemo
            · rename_i heq
              rw [Option.some.injEq] at hmemo
              rw [← hmemo, hfound, beq_iff_eq.mp heq]
            · exact hknown handler found hmemo
          dsimp only
          split
          · rename_i hyes
            refine ⟨hknown', ?_⟩
            rw [← hdue, List.filter_cons, if_pos (hfound ▸ hyes)]
          · rename_i hno
            refine ⟨hknown', ?_⟩
            rw [← hdue, List.filter_cons, if_neg (hfound ▸ hno)]

/-- One step of the scheduler thread before the end of its pass. -/
theorem inPass_next {live : String → Bool} {due made : List TaskMeta} {pf : Platform}
    {cfg : NodeConfig} {inp : Input} {reply : Reply} {pc : Pc}
    (hpolicy : cfg.misfirePolicy ≠ "skip") (hsleeps : pc.sleeps = false)
    (hlive : ∀ pass task rest, pc = .scheduler (.iterating pass) → pass.rest = task :: rest →
      pass.available.lookup task.handler = none → (!inp.endpoints.isEmpty) = live task.handler)
    (h : InPass live due made pc) :
    InPass live due (made ++ pc.attempted) (pc.next pf cfg inp reply) := by
  cases pc with
  | scheduler pc =>
      cases pc with
      | iterating pass =>
          have hbegin := inPass_begin pf hpolicy (fun task rest => hlive pass task rest rfl) h
          simpa [Pc.attempted, Pc.next, SchedulerPc.next] using hbegin
      | numbering pass task =>
          refine ⟨h.1, ?_⟩
          rw [← h.2]
          simp [Pc.attempted]
      | dispatching pass d stage =>
          simp only [Pc.attempted, List.append_nil]
          cases stage <;> simp only [Pc.next, SchedulerPc.next, DispatchStage.next] <;>
            (repeat' split) <;> exact h
      | sleeping => simp [Pc.sleeps] at hsleeps
      | _ => exact False.elim h
  | _ => exact False.elim h

/-- A thread of node `p` that is in its pass, unless its process has crashed. -/
def Thread.InPass (p : Nat) (live : String → Bool) (due made : List TaskMeta)
    (th : Thread) : Prop :=
  th.pc = .dead ∨ th.proc = p ∧ Corpcron.InPass live due made th.pc

/-- The pass begins with the tasks of its scan. -/
theorem inPass_of_scan {env : Env} {inp : Input} {stores : Stores} (live : String → Bool) (p : Nat)
    (hfault : inp.fault = false) :
    Thread.InPass p live
      ((stores.tasks.getDueTasks stores.now 100).filter fun task => live task.handler) []
      (Thread.advance env inp stores ⟨p, .scheduler .scanningDue⟩) := by
  refine Or.inr ⟨rfl, ?_⟩
  simp only [Thread.advance]
  rw [Thread.exec_db rfl, if_neg (by simp [hfault])]
  refine ⟨?_, rfl⟩
  intro handler found hmemo
  cases hmemo

/-- The attempts of a pass so far and those to come are those of its scan. -/
theorem inPass_of_run {env : Env} {s s' : State} {during : List SystemTransition} {tid p : Nat}
    {live : String → Bool} {due : List TaskMeta} (hrun : Run (step env) s during s')
    (hpolicy : (env.node p).misfirePolicy ≠ "skip")
    (hinside : ∀ x ∈ during, x.runsAt tid Pc.sleeps = false)
    (hlive : ∀ x ∈ during, x.discovers live tid = true)
    (hinit : ∃ th, s.threads tid = some th ∧ th.InPass p live due []) :
    ∃ th, s'.threads tid = some th ∧ th.InPass p live due (attempts tid during) := by
  apply hrun.history_invariant
    (P := fun earlier m => ∃ th, m.threads tid = some th ∧
      th.InPass p live due (attempts tid earlier)) hinit
  rintro earlier τ hearlier - hstep ⟨th, hth, hpass⟩
  have hτ : τ ∈ during := hearlier.subset (by simp)
  rw [attempts_append_singleton]
  rcases thread_step hstep hth with ⟨hstays, hother⟩ | ⟨inp, haction, hmoves⟩ | ⟨q, -, hdies⟩
  · rw [SystemTransition.attempted_of_ne hother, List.append_nil]
    exact ⟨th, hstays, hpass⟩
  · refine ⟨_, hmoves, ?_⟩
    obtain ⟨q, pc⟩ := th
    have hruns : SystemTransition.runs? τ = some (tid, pc) :=
      SystemTransition.runs?_eq_some.mpr ⟨inp, q, haction, hth⟩
    rw [SystemTransition.attempted_of_runs hruns]
    rcases hpass with hdead | ⟨rfl, hpass⟩
    · dsimp only at hdead
      subst hdead
      exact Or.inl rfl
    · refine Or.inr ⟨rfl, inPass_next hpolicy ?_ ?_ hpass⟩
      · simpa [SystemTransition.runsAt, hruns] using hinside τ hτ
      · -- The handler is asked for only if the pass does not remember it.
        rintro ⟨rest, available⟩ task tasks rfl hrest hlookup
        dsimp only at hrest hlookup
        subst hrest
        simpa [SystemTransition.discovers, haction, hruns, hlookup] using hlive τ hτ
  · exact ⟨_, hdies, Or.inl rfl⟩

/-- A pass attempts to lock the tasks of its batch that have a live worker. -/
theorem attempts_of_pass {env : Env} {s₀ s : State} {before during after : List SystemTransition}
    {τs τe : SystemTransition} {tid : Nat} {live : String → Bool}
    (hrun : Run (step env) s₀ (before ++ τs :: (during ++ τe :: after)) s)
    (hstart : τs.startsPass env tid = true) (hend : τe.runsAt tid Pc.sleeps = true)
    (hinside : ∀ x ∈ during, x.runsAt tid Pc.sleeps = false)
    (hlive : ∀ x ∈ during, x.discovers live tid = true) :
    attempts tid during =
      ((dueTasks τs.pre).take 100).filter fun task => live task.handler := by
  simp only [SystemTransition.startsPass, Bool.and_eq_true, Bool.not_eq_true'] at hstart
  obtain ⟨⟨hfault, hscan⟩, hpolicy⟩ := hstart
  obtain ⟨pc, hscan, hpc⟩ := SystemTransition.runsAt_iff.mp hscan
  obtain rfl := Pc.scansDue_iff.mp hpc
  obtain ⟨inp, p, haction, hth⟩ := SystemTransition.runs?_eq_some.mp hscan
  rw [hth, Option.any_some, bne_iff_ne] at hpolicy
  obtain ⟨-, hstep, hlater⟩ := hrun.split
  rw [haction] at hstep hfault
  obtain ⟨th, hbefore, hpass⟩ := inPass_of_run hlater.split.1 hpolicy hinside hlive
    ⟨_, thread_of_run hstep hth, inPass_of_scan live p hfault⟩
  obtain ⟨pc, hruns, hpc⟩ := SystemTransition.runsAt_iff.mp hend
  obtain rfl := Pc.sleeps_iff.mp hpc
  obtain ⟨-, q, -, hsleeping⟩ := SystemTransition.runs?_eq_some.mp hruns
  rw [hsleeping, Option.some.injEq] at hbefore
  subst hbefore
  rcases hpass with hdead | ⟨-, hmade⟩
  · cases hdead
  · rw [← getDueTasks_eq_take]
    exact hmade

/-- A pass attempts to lock the first 100 due tasks that have a live worker
exactly if no task without a worker is in its batch, or no task with one is
behind it. -/
theorem scan_attempts_iff {env : Env} {s₀ s : State} {before during after : List SystemTransition}
    {τs τe : SystemTransition} {tid : Nat} {live : String → Bool}
    (hrun : Run (step env) s₀ (before ++ τs :: (during ++ τe :: after)) s)
    (hstart : τs.startsPass env tid = true) (hend : τe.runsAt tid Pc.sleeps = true)
    (hinside : ∀ x ∈ during, x.runsAt tid Pc.sleeps = false)
    (hlive : ∀ x ∈ during, x.discovers live tid = true) :
    attempts tid during = ((dueTasks τs.pre).filter fun task => live task.handler).take 100 ↔
      (∀ task ∈ (dueTasks τs.pre).drop 100, live task.handler = false) ∨
        ∀ task ∈ (dueTasks τs.pre).take 100, live task.handler = true := by
  rw [attempts_of_pass hrun hstart hend hinside hlive]
  exact filter_take_eq_take_filter_iff (fun task => live task.handler) (dueTasks τs.pre) 100

/-- Only `Echo` has a live worker. -/
def echoLive (handler : String) : Bool :=
  handler == "Echo"

/-- A pass of the scheduler thread, as it can be tested: the scan is at position
`k` and the pass has `n` further steps. -/
def passes (env : Env) (live : String → Bool) (tid k n : Nat) (l : List SystemTransition) : Bool :=
  l[k]?.any (SystemTransition.startsPass env tid) &&
    (l.drop (k + 1))[n]?.any (SystemTransition.runsAt tid Pc.sleeps) &&
    ((l.drop (k + 1)).take n).all fun τ =>
      !SystemTransition.runsAt tid Pc.sleeps τ && SystemTransition.discovers live tid τ

theorem exists_pass {env : Env} {live : String → Bool} {tid k n : Nat} {l : List SystemTransition}
    (h : passes env live tid k n l = true) :
    ∃ (τs τe : SystemTransition),
      l = l.take k ++ τs :: ((l.drop (k + 1)).take n ++ τe :: (l.drop (k + 1)).drop (n + 1)) ∧
      l[k]? = some τs ∧ τs.startsPass env tid = true ∧ τe.runsAt tid Pc.sleeps = true ∧
      (∀ x ∈ (l.drop (k + 1)).take n, x.runsAt tid Pc.sleeps = false) ∧
      ∀ x ∈ (l.drop (k + 1)).take n, x.discovers live tid = true := by
  simp only [passes, Bool.and_eq_true, Option.any_eq_true, List.all_eq_true,
    Bool.not_eq_true'] at h
  obtain ⟨⟨⟨τs, hs, hstart⟩, τe, he, hend⟩, hinside⟩ := h
  refine ⟨τs, τe, ?_, hs, hstart, hend, fun x hx => (hinside x hx).1, fun x hx => (hinside x hx).2⟩
  rw [← eq_cut_of_getElem? he]
  exact eq_cut_of_getElem? hs

/-- The sample task, and an older one whose handler has no worker. -/
def mixedState : State where
  stores :=
    { now := 10
      tasks := TaskTable.execute sampleState.stores.tasks 0
        (.addTask { sampleTask with id := "s", handler := "Down", nextRunAt := some 9 }) }
  threads _ := none

/-- The scheduler passes over the older task and dispatches the sample task. -/
def mixedPass : List Action :=
  [.boot 0 0 1] ++ runs 0 2 ++ [.run 0 {}] ++ runs 0 7 ++ [.run 0 { fresh := 3 }] ++ runs 0 2

theorem scan_attempts_iff_sample :
    ∃ (before during after : List SystemTransition) (τs τe : SystemTransition) (s : State),
      Run (step sampleEnv) mixedState (before ++ τs :: (during ++ τe :: after)) s ∧
      τs.startsPass sampleEnv 0 = true ∧ τe.runsAt 0 Pc.sleeps = true ∧
      (dueTasks τs.pre).map TaskMeta.id = ["s", "t"] ∧
      (attempts 0 during).map TaskMeta.id = ["t"] := by
  obtain ⟨s, hrun⟩ := exists_run_of_isSome
    (show (execute (step sampleEnv) mixedState mixedPass).isSome = true by decide)
  obtain ⟨τs, τe, hcut, hs, hstart, hend, hinside, hlive⟩ := exists_pass
    (show passes sampleEnv echoLive 0 2 10 (executeTrace (step sampleEnv) mixedState mixedPass) =
      true by decide)
  have hdue : (executeTrace (step sampleEnv) mixedState mixedPass)[2]?.any (fun τ =>
      (dueTasks τ.pre).map TaskMeta.id == ["s", "t"] &&
      (((dueTasks τ.pre).filter fun task => echoLive task.handler).take 100).map TaskMeta.id ==
        ["t"]) = true := by decide
  rw [hs, Option.any_some, Bool.and_eq_true, beq_iff_eq, beq_iff_eq] at hdue
  rw [hcut] at hrun
  refine ⟨_, _, _, τs, τe, s, hrun, hstart, hend, hdue.1, ?_⟩
  have hlength : (dueTasks τs.pre).length = 2 := by simpa using congrArg List.length hdue.1
  rw [(scan_attempts_iff hrun hstart hend hinside hlive).mpr (Or.inl ?_)]
  · exact hdue.2
  · rw [List.drop_of_length_le (by omega)]
    exact List.forall_mem_nil _

/-- A hundred tasks whose handler has no worker, and a later one that has one. -/
def crowdedTask (i : Nat) : TaskMeta where
  id := String.ofList (List.replicate i 'x')
  cronExpr := "*/10 * * * * *"
  handler := if i < 100 then "Down" else "Echo"
  status := taskScheduled
  nextRunAt := some i

theorem crowdedTask_id_injective : Function.Injective fun i => (crowdedTask i).id := by
  intro i j h
  have hlists : List.replicate i 'x' = List.replicate j 'x' := String.ofList_injective h
  simpa using congrArg List.length hlists

/-- All of them are due at second `100`. -/
def crowdedState : State where
  stores :=
    { now := 100
      tasks :=
        { rows := (List.range 101).map fun i => insertedRow 0 (crowdedTask i)
          nodup := by
            rw [List.map_map]
            exact List.nodup_range.map crowdedTask_id_injective } }
  threads _ := none

/-- Discovery finds no worker for the task at the head of the list, as often as
the scheduler thread asks for it. -/
def crowdedPass : List Action :=
  [.boot 0 0 1] ++ List.replicate 104 (.run 0 {})

/-- The hundred tasks fill the batch: the pass attempts nothing, although one of
the due tasks has a live worker. -/
theorem waiting_tasks_fill_batch :
    ∃ (env : Env) (live : String → Bool) (s₀ s : State)
        (before during after : List SystemTransition) (τs τe : SystemTransition) (tid : Nat),
      Run (step env) s₀ (before ++ τs :: (during ++ τe :: after)) s ∧
      (∀ tid, s₀.threads tid = none) ∧ τs.startsPass env tid = true ∧
      τe.runsAt tid Pc.sleeps = true ∧ (∀ x ∈ during, x.runsAt tid Pc.sleeps = false) ∧
      (∀ x ∈ during, x.discovers live tid = true) ∧
      ((dueTasks τs.pre).filter fun task => live task.handler).length = 1 ∧
      attempts tid during = [] := by
  obtain ⟨s, hrun⟩ := exists_run_of_isSome
    (show (execute (step sampleEnv) crowdedState crowdedPass).isSome = true by decide +kernel)
  obtain ⟨τs, τe, hcut, hs, hstart, hend, hinside, hlive⟩ := exists_pass
    (show passes sampleEnv echoLive 0 2 101
      (executeTrace (step sampleEnv) crowdedState crowdedPass) = true by decide +kernel)
  have hdue : (executeTrace (step sampleEnv) crowdedState crowdedPass)[2]?.any
      (fun τ => ((dueTasks τ.pre).filter fun task => echoLive task.handler).length == 1 &&
        ((dueTasks τ.pre).take 100).filter (fun task => echoLive task.handler) == []) = true := by
    decide +kernel
  rw [hs, Option.any_some, Bool.and_eq_true, beq_iff_eq, beq_iff_eq] at hdue
  rw [hcut] at hrun
  refine ⟨sampleEnv, echoLive, crowdedState, s, _, _, _, τs, τe, 0, hrun, fun _ => rfl, hstart,
    hend, hinside, hlive, hdue.1, ?_⟩
  rw [attempts_of_pass hrun hstart hend hinside hlive, hdue.2]

end Corpcron
