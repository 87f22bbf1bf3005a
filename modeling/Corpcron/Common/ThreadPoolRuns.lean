import Corpcron.Common.ThreadPool

/-!
# Every accepted task is run once

`WorkerStep` lists what a step of a worker loop can do.  Three invariants are
read off it: where the accepted tasks are (`Queued`), how many workers there are
of each kind (`Counted`), and which workers a `stop` still has to wait for
(`Joined`).

That nothing is lost when the pool stops comes from `Counted`: a worker leaves
only when the queue is empty, and while the pool is open there are never fewer
than `init_threads_` loops, hence at least one.  That an accepted task is started
at all is a matter of the workers being scheduled: `steps_before_start` bounds
the number of steps any live worker can make before that.
-/

namespace Corpcron
namespace ThreadPool

open Lib

variable {τ : Type}

/-! ## Steps of a worker -/

namespace WorkerPc

/-- The loop has not decided to exit. -/
def live : WorkerPc τ → Bool
  | .top | .waiting | .running _ => true
  | _ => false

def isWaiting : WorkerPc τ → Bool
  | .waiting => true
  | _ => false

def isRunning : WorkerPc τ → Bool
  | .running _ => true
  | _ => false

/-- The worker runs a task with the property. -/
def runs (p : τ → Bool) : WorkerPc τ → Bool
  | .running task => p task
  | _ => false

theorem runs_eq_false {pc : WorkerPc τ} (h : pc.isRunning = false) (p : τ → Bool) :
    pc.runs p = false := by
  cases pc with
  | running task => cases h
  | _ => rfl

end WorkerPc

/-- What a step of a worker loop does. -/
inductive WorkerStep (cfg : Config) (s : State τ) : WorkerPc τ → State τ → WorkerPc τ → Prop where
  | take (pc : WorkerPc τ) (task : τ) (rest : List τ) (hlive : pc.live = true)
      (hrunning : pc.isRunning = false) (htasks : s.tasks = task :: rest) :
      WorkerStep cfg s pc
        { s with
          idleCount := s.idleCount - (if pc.isWaiting then 1 else 0)
          tasks := rest
          started := s.started ++ [task] }
        (.running task)
  | finish (task : τ) :
      WorkerStep cfg s (.running task) { s with finished := s.finished ++ [task] } .top
  | wait (htasks : s.tasks = []) (hstopping : s.stopping = false) :
      WorkerStep cfg s .top { s with idleCount := s.idleCount + 1 } .waiting
  | retry (htasks : s.tasks = []) (hstopping : s.stopping = false) :
      WorkerStep cfg s .waiting { s with idleCount := s.idleCount - 1 } .top
  | retire (htasks : s.tasks = []) (hstopping : s.stopping = false)
      (hspare : s.currentThreads > cfg.init) :
      WorkerStep cfg s .waiting
        { s with idleCount := s.idleCount - 1, currentThreads := s.currentThreads - 1 } .exiting
  | leave (pc : WorkerPc τ) (hlive : pc.live = true) (hrunning : pc.isRunning = false)
      (htasks : s.tasks = []) (hstopping : s.stopping = true) :
      WorkerStep cfg s pc
        { s with
          idleCount := s.idleCount - (if pc.isWaiting then 1 else 0)
          currentThreads := s.currentThreads - 1 }
        .exiting
  | exit : WorkerStep cfg s .exiting s .finished

variable {cfg : Config} {s s' : State τ} {a : Action τ} {i : Nat} {pc pc' : WorkerPc τ}

theorem workerStep_of_stepWorker {timedOut : Bool}
    (h : stepWorker cfg s timedOut pc = some (s', pc')) :
    WorkerStep cfg s pc s' pc' := by
  cases pc with
  | top =>
      simp only [stepWorker] at h
      split at h
      · rename_i task rest htasks
        cases h
        exact .take .top task rest rfl rfl htasks
      · rename_i htasks
        split at h
        · rename_i hstopping
          cases h
          exact .leave .top rfl rfl htasks hstopping
        · rename_i hstopping
          cases h
          exact .wait htasks (by simpa using hstopping)
  | waiting =>
      simp only [stepWorker] at h
      split at h
      · rename_i task rest htasks
        cases h
        exact .take .waiting task rest rfl rfl htasks
      · rename_i htasks
        split at h
        · rename_i hstopping
          cases h
          exact .leave .waiting rfl rfl htasks hstopping
        · rename_i hopen
          have hstopping : s.stopping = false := by simpa using hopen
          split at h
          · split at h
            · rename_i hspare
              cases h
              exact .retire htasks hstopping hspare.2
            · cases h
              exact .retry htasks hstopping
          · cases h
  | running task =>
      cases h
      exact .finish task
  | exiting =>
      cases h
      exact .exit
  | finished => cases h

/-! ## Steps of the pool -/

/-- What a step of the pool can do. -/
inductive PoolStep (cfg : Config) (s : State τ) : Action τ → State τ → Prop where
  | refuse (task : Option τ) : PoolStep cfg s (.enqueue task)
      { s with enqueues := s.enqueues ++ [⟨task, .returned false⟩] }
  | push (task : τ) (hstopping : s.stopping = false)
      (hroom : cfg.maxPendingTasks > 0 → s.tasks.length < cfg.maxPendingTasks) :
      PoolStep cfg s (.enqueue (some task))
        { s with
          tasks := s.tasks ++ [task]
          enqueues := s.enqueues ++ [⟨some task, .adjusting⟩] }
  | pass (c grown : Nat) (task : Option τ) (hcall : s.enqueues[c]? = some ⟨task, .adjusting⟩)
      (hstopping : s.stopping = true) :
      PoolStep cfg s (.adjust c grown)
        { s with enqueues := s.enqueues.set c ⟨task, .returned true⟩ }
  | grow (c grown : Nat) (task : Option τ) (hcall : s.enqueues[c]? = some ⟨task, .adjusting⟩)
      (hstopping : s.stopping = false) (hroom : s.currentThreads ≤ cfg.max →
        s.currentThreads + grown ≤ cfg.max) :
      PoolStep cfg s (.adjust c grown)
        { s with
          currentThreads := s.currentThreads + grown
          workers := s.workers ++ List.replicate grown .top
          listed := s.listed.filter (fun i => !isFinished s i) ++
            List.range' s.workers.length grown
          enqueues := s.enqueues.set c ⟨task, .returned true⟩ }
  | worker (i : Nat) (timedOut : Bool) (pc pc' : WorkerPc τ) (s' : State τ)
      (hpc : s.workers[i]? = some pc) (hstep : WorkerStep cfg s pc s' pc') :
      PoolStep cfg s (.worker i timedOut) { s' with workers := s.workers.set i pc' }
  | call : PoolStep cfg s .stop { s with stops := s.stops ++ [.entering] }
  | returnAtOnce (j : Nat) (hpc : s.stops[j]? = some .entering) (hstopped : s.stopped = true) :
      PoolStep cfg s (.stopStep j) { s with stops := s.stops.set j .returned }
  | begin (j : Nat) (hpc : s.stops[j]? = some .entering) (hstopped : s.stopped = false) :
      PoolStep cfg s (.stopStep j)
        { s with stopping := true, stops := s.stops.set j (.joining s.listed) }
  | join (j i : Nat) (rest : List Nat) (hpc : s.stops[j]? = some (.joining (i :: rest)))
      (hfinished : isFinished s i = true) :
      PoolStep cfg s (.stopStep j) { s with stops := s.stops.set j (.joining rest) }
  | clear (j : Nat) (hpc : s.stops[j]? = some (.joining [])) :
      PoolStep cfg s (.stopStep j)
        { s with listed := [], stopped := true, stops := s.stops.set j .returned }

theorem room_le {grown : Nat} (h : grown ≤ room cfg s) (hmax : s.currentThreads ≤ cfg.max) :
    s.currentThreads + grown ≤ cfg.max := by
  unfold room at h
  split at h <;> omega

theorem poolStep_of_step (h : step cfg s a = some s') : PoolStep cfg s a s' := by
  cases a with
  | enqueue task =>
      cases h
      cases task with
      | none => exact .refuse none
      | some task =>
          simp only [enqueue]
          split
          · exact .refuse _
          · rename_i hopen
            split
            · exact .refuse _
            · rename_i hroom
              exact .push task (by simpa using hopen) (by omega)
  | adjust c grown =>
      simp only [step] at h
      split at h
      · rename_i task hcall
        obtain ⟨s₁, hadjust, rfl⟩ := Option.map_eq_some_iff.mp h
        simp only [adjustPoolSize] at hadjust
        split at hadjust
        · rename_i hstopping
          cases hadjust
          exact .pass c grown task hcall hstopping
        · rename_i hopen
          split at hadjust
          · rename_i hroom
            cases hadjust
            exact .grow c grown task hcall (by simpa using hopen) (room_le hroom)
          · cases hadjust
      · cases h
  | worker i timedOut =>
      simp only [step] at h
      split at h
      · cases h
      · rename_i pc hpc
        obtain ⟨⟨s₁, pc'⟩, hworker, rfl⟩ := Option.map_eq_some_iff.mp h
        exact .worker i timedOut pc pc' s₁ hpc (workerStep_of_stepWorker hworker)
  | stop =>
      cases h
      exact .call
  | stopStep j =>
      simp only [step] at h
      split at h
      · cases h
      · rename_i pc hpc
        obtain ⟨⟨s₁, pc'⟩, hstop, rfl⟩ := Option.map_eq_some_iff.mp h
        cases pc with
        | entering =>
            simp only [stepStop] at hstop
            split at hstop
            · cases hstop
            · split at hstop
              · rename_i hstopped
                cases hstop
                exact .returnAtOnce j hpc hstopped
              · rename_i hstopped
                cases hstop
                exact .begin j hpc (by simpa using hstopped)
        | joining rest =>
            cases rest with
            | nil =>
                cases hstop
                exact .clear j hpc
            | cons i rest =>
                simp only [stepStop] at hstop
                split at hstop
                · rename_i hfinished
                  cases hstop
                  exact .join j i rest hpc hfinished
                · cases hstop
        | returned => cases hstop

/-! ## Where the accepted tasks are -/

/-- The task of a call of `enqueue` that has not returned false. -/
def EnqueueCall.accepted? (call : EnqueueCall τ) : Option τ :=
  if call.pc = .returned false then none else call.task

/-- The accepted tasks, in the order in which they were accepted. -/
def accepted (s : State τ) : List τ := s.enqueues.filterMap EnqueueCall.accepted?

/-- The accepted tasks are the started ones followed by the queue; a started
task has ended or is run by one worker. -/
structure Queued (cfg : Config) (s : State τ) : Prop where
  order : accepted s = s.started ++ s.tasks
  once : ∀ p : τ → Bool,
    s.started.countP p = s.finished.countP p + s.workers.countP (WorkerPc.runs p)
  bounded : cfg.maxPendingTasks > 0 → s.tasks.length ≤ cfg.maxPendingTasks

theorem accepted_returned {c : Nat} {task : Option τ}
    (hcall : s.enqueues[c]? = some ⟨task, .adjusting⟩) :
    (s.enqueues.set c ⟨task, .returned true⟩).filterMap EnqueueCall.accepted? = accepted s :=
  filterMap_set_of_eq hcall rfl

theorem countP_runs_append_top (workers : List (WorkerPc τ)) (grown : Nat) (p : τ → Bool) :
    (workers ++ List.replicate grown WorkerPc.top).countP (WorkerPc.runs p) =
      workers.countP (WorkerPc.runs p) := by
  have hnew : (List.replicate grown WorkerPc.top).countP (WorkerPc.runs p) = 0 := by
    rw [List.countP_eq_zero]
    intro pc hpc
    rw [List.eq_of_mem_replicate hpc]
    exact Bool.false_ne_true
  rw [List.countP_append, hnew, Nat.add_zero]

theorem Queued.worker (h : Queued cfg s) (hpc : s.workers[i]? = some pc)
    (hstep : WorkerStep cfg s pc s' pc') :
    Queued cfg { s' with workers := s.workers.set i pc' } := by
  -- A worker that neither takes nor ends a task changes nothing here.
  have hidle : (∀ p, pc.runs p = false) → (∀ p, pc'.runs p = false) → ∀ p : τ → Bool,
      s.started.countP p = s.finished.countP p + (s.workers.set i pc').countP
        (WorkerPc.runs p) := by
    intro hbefore hafter p
    have hcount := countP_set_add (WorkerPc.runs p) pc' hpc
    rw [hbefore p, hafter p] at hcount
    have honce := h.once p
    omega
  cases hstep with
  | take _ task rest hlive hrunning htasks =>
      refine ⟨?_, fun p => ?_, fun hpending => ?_⟩
      · show accepted s = (s.started ++ [task]) ++ rest
        rw [h.order, htasks]
        simp
      · show (s.started ++ [task]).countP p = s.finished.countP p + _
        have hcount := countP_set_add (WorkerPc.runs p) (.running task) hpc
        have honce := h.once p
        rw [WorkerPc.runs_eq_false hrunning p] at hcount
        cases hp : p task <;> simp [WorkerPc.runs, hp] at hcount ⊢ <;> omega
      · show rest.length ≤ cfg.maxPendingTasks
        have hbound := h.bounded hpending
        rw [htasks, List.length_cons] at hbound
        omega
  | finish task =>
      refine ⟨h.order, fun p => ?_, h.bounded⟩
      show s.started.countP p = (s.finished ++ [task]).countP p + _
      have hcount := countP_set_add (WorkerPc.runs p) .top hpc
      have honce := h.once p
      cases hp : p task <;> simp [WorkerPc.runs, hp] at hcount ⊢ <;> omega
  | wait => exact ⟨h.order, hidle (fun _ => rfl) (fun _ => rfl), h.bounded⟩
  | retry => exact ⟨h.order, hidle (fun _ => rfl) (fun _ => rfl), h.bounded⟩
  | retire => exact ⟨h.order, hidle (fun _ => rfl) (fun _ => rfl), h.bounded⟩
  | leave _ hlive hrunning =>
      exact ⟨h.order, hidle (WorkerPc.runs_eq_false hrunning) (fun _ => rfl), h.bounded⟩
  | exit => exact ⟨h.order, hidle (fun _ => rfl) (fun _ => rfl), h.bounded⟩

theorem Queued.step (h : Queued cfg s) (hstep : PoolStep cfg s a s') : Queued cfg s' := by
  cases hstep with
  | refuse task =>
      refine ⟨?_, h.once, h.bounded⟩
      show (s.enqueues ++ _).filterMap EnqueueCall.accepted? = s.started ++ s.tasks
      rw [List.filterMap_append, ← h.order]
      simp [EnqueueCall.accepted?, accepted]
  | push task hstopping hroom =>
      refine ⟨?_, h.once, fun hpending => ?_⟩
      · show (s.enqueues ++ _).filterMap EnqueueCall.accepted? = s.started ++ (s.tasks ++ [task])
        rw [List.filterMap_append, ← List.append_assoc, ← h.order]
        simp [EnqueueCall.accepted?, accepted]
      · have hfree := hroom hpending
        simp only [List.length_append, List.length_singleton]
        omega
  | pass c grown task hcall =>
      exact ⟨(accepted_returned hcall).trans h.order, h.once, h.bounded⟩
  | grow c grown task hcall =>
      refine ⟨(accepted_returned hcall).trans h.order, fun p => ?_, h.bounded⟩
      rw [countP_runs_append_top]
      exact h.once p
  | worker i timedOut pc pc' s₁ hpc hworker => exact h.worker hpc hworker
  | call => exact ⟨h.order, h.once, h.bounded⟩
  | returnAtOnce => exact ⟨h.order, h.once, h.bounded⟩
  | begin => exact ⟨h.order, h.once, h.bounded⟩
  | join => exact ⟨h.order, h.once, h.bounded⟩
  | clear => exact ⟨h.order, h.once, h.bounded⟩

/-! ## How many workers there are -/

/-- The counters count what they are meant to, and a queue that has to be drained
has a worker. -/
structure Counted (cfg : Config) (s : State τ) : Prop where
  idle : s.idleCount = s.workers.countP WorkerPc.isWaiting
  current : s.stopping = false → s.currentThreads = s.workers.countP WorkerPc.live
  least : s.stopping = false → cfg.init ≤ s.currentThreads
  most : s.stopping = false → s.currentThreads ≤ cfg.max
  draining : s.stopping = true → s.tasks ≠ [] → 0 < s.workers.countP WorkerPc.live

theorem init_pos (cfg : Config) : 0 < cfg.init := by
  unfold Config.init
  omega

/-- A nonempty queue has a live worker. -/
theorem Counted.exists_live (h : Counted cfg s) (htasks : s.tasks ≠ []) :
    0 < s.workers.countP WorkerPc.live := by
  cases hstopping : s.stopping with
  | true => exact h.draining hstopping htasks
  | false =>
      have hleast := h.least hstopping
      have hpos := init_pos cfg
      rw [h.current hstopping] at hleast
      omega

/-- A worker that takes a task or leaves is not waiting any more. -/
theorem idle_of_step (hidle : s.idleCount = s.workers.countP WorkerPc.isWaiting)
    (hpc : s.workers[i]? = some pc) (hpc' : pc'.isWaiting = false) :
    s.idleCount - (if pc.isWaiting then 1 else 0) =
      (s.workers.set i pc').countP WorkerPc.isWaiting := by
  cases hwaiting : pc.isWaiting with
  | true =>
      have hlost := countP_set_lost hpc hwaiting hpc'
      simp only [if_true]
      omega
  | false =>
      have hsame := countP_set_same hpc (hpc'.trans hwaiting.symm)
      simp only [Bool.false_eq_true, if_false]
      omega

theorem Counted.worker (h : Counted cfg s) (hpc : s.workers[i]? = some pc)
    (hstep : WorkerStep cfg s pc s' pc') :
    Counted cfg { s' with workers := s.workers.set i pc' } := by
  -- A worker that stays alive keeps everything but the number of idle ones.
  have hkeep : pc'.live = pc.live →
      (s.workers.set i pc').countP WorkerPc.live = s.workers.countP WorkerPc.live :=
    fun hlive => countP_set_same hpc hlive
  have hidle : pc'.isWaiting = pc.isWaiting →
      s.idleCount = (s.workers.set i pc').countP WorkerPc.isWaiting :=
    fun hwaiting => h.idle.trans (countP_set_same hpc hwaiting).symm
  cases hstep with
  | take _ task rest hpclive hrunning htasks =>
      have hsame := hkeep hpclive.symm
      refine ⟨idle_of_step h.idle hpc rfl, fun hopen => ?_, h.least, h.most, fun hstopping _ => ?_⟩
      · exact (h.current hopen).trans hsame.symm
      · show 0 < (s.workers.set i (.running task)).countP WorkerPc.live
        rw [hsame]
        exact h.draining hstopping (by simp [htasks])
  | finish task =>
      have hsame := hkeep rfl
      refine ⟨hidle rfl, fun hopen => ?_, h.least, h.most, fun hstopping htasks => ?_⟩
      · exact (h.current hopen).trans hsame.symm
      · show 0 < (s.workers.set i .top).countP WorkerPc.live
        rw [hsame]
        exact h.draining hstopping htasks
  | wait htasks hstopping =>
      refine ⟨?_, fun hopen => (h.current hopen).trans (hkeep rfl).symm, h.least, h.most,
        fun _ hqueue => absurd htasks hqueue⟩
      show s.idleCount + 1 = (s.workers.set i .waiting).countP WorkerPc.isWaiting
      rw [countP_set_gained hpc rfl rfl, h.idle]
  | retry htasks hstopping =>
      exact ⟨idle_of_step h.idle hpc rfl, fun hopen => (h.current hopen).trans (hkeep rfl).symm,
        h.least, h.most, fun _ hqueue => absurd htasks hqueue⟩
  | retire htasks hstopping hspare =>
      have hlost : (s.workers.set i .exiting).countP WorkerPc.live + 1 =
          s.workers.countP WorkerPc.live := countP_set_lost hpc rfl rfl
      have hcurrent := h.current hstopping
      have hmost := h.most hstopping
      refine ⟨idle_of_step h.idle hpc rfl, fun _ => ?_, fun _ => ?_, fun _ => ?_,
        fun _ hqueue => absurd htasks hqueue⟩
      · show s.currentThreads - 1 = (s.workers.set i .exiting).countP WorkerPc.live
        omega
      · show cfg.init ≤ s.currentThreads - 1
        omega
      · show s.currentThreads - 1 ≤ cfg.max
        omega
  | leave _ hpclive hrunning htasks hstopping =>
      have hclosed : ¬s.stopping = false := by simp [hstopping]
      exact ⟨idle_of_step h.idle hpc rfl, fun hopen => absurd hopen hclosed,
        fun hopen => absurd hopen hclosed, fun hopen => absurd hopen hclosed,
        fun _ hqueue => absurd htasks hqueue⟩
  | exit =>
      have hsame := hkeep rfl
      refine ⟨hidle rfl, fun hopen => ?_, h.least, h.most, fun hstopping htasks => ?_⟩
      · exact (h.current hopen).trans hsame.symm
      · show 0 < (s.workers.set i .finished).countP WorkerPc.live
        rw [hsame]
        exact h.draining hstopping htasks

theorem Counted.step (h : Counted cfg s) (hstep : PoolStep cfg s a s') : Counted cfg s' := by
  cases hstep with
  | refuse task => exact ⟨h.idle, h.current, h.least, h.most, h.draining⟩
  | push task hstopping hroom =>
      refine ⟨h.idle, h.current, h.least, h.most, fun hclosed => ?_⟩
      have hfalse : s.stopping = true := hclosed
      rw [hstopping] at hfalse
      cases hfalse
  | pass c grown task hcall => exact ⟨h.idle, h.current, h.least, h.most, h.draining⟩
  | grow c grown task hcall hstopping hroom =>
      have hcurrent := h.current hstopping
      have hleast := h.least hstopping
      have hmost := hroom (h.most hstopping)
      refine ⟨?_, fun _ => ?_, fun _ => ?_, fun _ => hmost, fun hclosed => ?_⟩
      · show s.idleCount = (s.workers ++ List.replicate grown WorkerPc.top).countP _
        simp [h.idle, List.countP_append, List.countP_replicate, WorkerPc.isWaiting]
      · show s.currentThreads + grown =
          (s.workers ++ List.replicate grown WorkerPc.top).countP WorkerPc.live
        simp [hcurrent, List.countP_append, List.countP_replicate, WorkerPc.live]
      · show cfg.init ≤ s.currentThreads + grown
        omega
      · have hfalse : s.stopping = true := hclosed
        rw [hstopping] at hfalse
        cases hfalse
  | worker i timedOut pc pc' s₁ hpc hworker => exact h.worker hpc hworker
  | call => exact ⟨h.idle, h.current, h.least, h.most, h.draining⟩
  | returnAtOnce => exact ⟨h.idle, h.current, h.least, h.most, h.draining⟩
  | begin =>
      exact ⟨h.idle, nofun, nofun, nofun, fun _ htasks => h.exists_live htasks⟩
  | join => exact ⟨h.idle, h.current, h.least, h.most, h.draining⟩
  | clear => exact ⟨h.idle, h.current, h.least, h.most, h.draining⟩

/-! ## Whom a stop waits for -/

/-- Workers that have not finished are in `workers_` until the pool has stopped;
a `stop` that is joining has seen the others finish. -/
structure Joined (s : State τ) : Prop where
  listed : s.stopped = false → ∀ i < s.workers.length, isFinished s i = false → i ∈ s.listed
  joining : ∀ (j : Nat) (rest : List Nat), s.stops[j]? = some (.joining rest) →
    s.stopping = true ∧ ∀ i ∈ s.listed, i ∈ rest ∨ isFinished s i = true
  stopped : s.stopped = true → s.stopping = true ∧ ∀ i < s.workers.length, isFinished s i = true
  returned : ∀ j : Nat, s.stops[j]? = some .returned → s.stopped = true

theorem finished_of_isFinished (hpc : s.workers[i]? = some pc) (h : isFinished s i = true) :
    pc = .finished := by
  unfold isFinished at h
  rw [hpc] at h
  cases pc with
  | finished => rfl
  | _ => cases h

theorem isFinished_of_set (cfg : Config) (hpc : s.workers[i]? = some pc)
    (hstep : WorkerStep cfg s pc s' pc') {k : Nat} (hk : isFinished s k = true) :
    isFinished { s' with workers := s.workers.set i pc' } k = true := by
  by_cases hki : k = i
  · subst hki
    obtain rfl := finished_of_isFinished hpc hk
    cases hstep with
    | take _ _ _ hlive => cases hlive
    | leave _ hlive => cases hlive
  · unfold isFinished at hk ⊢
    rw [List.getElem?_set_ne (Ne.symm hki)]
    exact hk

/-- Of its own, a worker changes only its part of the state. -/
theorem WorkerStep.keeps (h : WorkerStep cfg s pc s' pc') :
    s'.stopping = s.stopping ∧ s'.stopped = s.stopped ∧ s'.listed = s.listed ∧
      s'.stops = s.stops ∧ s'.enqueues = s.enqueues := by
  cases h <;> exact ⟨rfl, rfl, rfl, rfl, rfl⟩

theorem Joined.worker (h : Joined s) (hpc : s.workers[i]? = some pc)
    (hstep : WorkerStep cfg s pc s' pc') :
    Joined { s' with workers := s.workers.set i pc' } := by
  obtain ⟨hstopping, hstopped, hlisted, hstops, -⟩ := hstep.keeps
  have hfinished : ∀ k, isFinished s k = true →
      isFinished { s' with workers := s.workers.set i pc' } k = true :=
    fun k hk => isFinished_of_set cfg hpc hstep hk
  constructor
  · intro hopen k hk hbusy
    have hbusy' : isFinished s k = false := by
      cases hcase : isFinished s k with
      | false => rfl
      | true => exact absurd (hfinished k hcase) (by simp [hbusy])
    show k ∈ s'.listed
    rw [hlisted]
    exact h.listed (hstopped.symm.trans hopen) k (by simpa using hk) hbusy'
  · intro j rest hj
    obtain ⟨hclosed, hseen⟩ := h.joining j rest (hstops ▸ hj)
    refine ⟨hstopping.trans hclosed, fun k hk => ?_⟩
    have hk' : k ∈ s'.listed := hk
    rw [hlisted] at hk'
    exact (hseen k hk').imp_right (hfinished k)
  · intro hdone
    obtain ⟨hclosed, hall⟩ := h.stopped (hstopped.symm.trans hdone)
    refine ⟨hstopping.trans hclosed, fun k hk => hfinished k (hall k ?_)⟩
    simpa using hk
  · intro j hj
    exact hstopped.trans (h.returned j (hstops ▸ hj))

/-- A change of the stops alone. -/
theorem Joined.of_stops {stops : List StopPc} (h : Joined s)
    (hjoining : ∀ (j : Nat) (rest : List Nat), stops[j]? = some (.joining rest) →
      s.stopping = true ∧ ∀ i ∈ s.listed, i ∈ rest ∨ isFinished s i = true)
    (hreturned : ∀ j : Nat, stops[j]? = some .returned → s.stopped = true) :
    Joined { s with stops := stops } :=
  ⟨h.listed, hjoining, h.stopped, hreturned⟩

theorem Joined.grow {grown : Nat} {enqueues : List (EnqueueCall τ)} {currentThreads : Nat}
    (h : Joined s) (hopen : s.stopping = false) :
    Joined { s with
      currentThreads := currentThreads
      workers := s.workers ++ List.replicate grown .top
      listed := s.listed.filter (fun i => !isFinished s i) ++ List.range' s.workers.length grown
      enqueues := enqueues } := by
  have hnotStopped : ¬s.stopped = true := by
    intro hstopped
    have hclosed := (h.stopped hstopped).1
    rw [hopen] at hclosed
    cases hclosed
  constructor
  · intro _ i hi hbusy
    by_cases hold : i < s.workers.length
    · have hbusy' : isFinished s i = false := by
        have hget : (s.workers ++ List.replicate grown WorkerPc.top)[i]? = s.workers[i]? :=
          List.getElem?_append_left hold
        unfold isFinished at hbusy ⊢
        rw [← hget]
        exact hbusy
      apply List.mem_append_left
      rw [List.mem_filter]
      exact ⟨h.listed (by simpa using hnotStopped) i hold hbusy', by simp [hbusy']⟩
    · apply List.mem_append_right
      rw [List.mem_range'_1]
      simp only [List.length_append, List.length_replicate] at hi
      omega
  · intro j rest hj
    have hclosed := (h.joining j rest hj).1
    rw [hopen] at hclosed
    cases hclosed
  · intro hstopped
    exact absurd hstopped hnotStopped
  · exact h.returned

/-- A `stop` that goes on joining is not one that has returned. -/
theorem Joined.returned_of_set {j k : Nat} {rest : List Nat} (h : Joined s)
    (hk : (s.stops.set j (.joining rest))[k]? = some .returned) : s.stopped = true := by
  rcases thread_of_set hk with ⟨-, hnew⟩ | ⟨-, hold⟩
  · cases hnew
  · exact h.returned k hold

theorem Joined.step (h : Joined s) (hstep : PoolStep cfg s a s') : Joined s' := by
  cases hstep with
  | refuse task => exact ⟨h.listed, h.joining, h.stopped, h.returned⟩
  | push task => exact ⟨h.listed, h.joining, h.stopped, h.returned⟩
  | pass c grown task => exact ⟨h.listed, h.joining, h.stopped, h.returned⟩
  | grow c grown task hcall hstopping => exact h.grow hstopping
  | worker i timedOut pc pc' s₁ hpc hworker => exact h.worker hpc hworker
  | call =>
      refine h.of_stops (fun j rest hj => ?_) (fun j hj => ?_)
      · rw [List.getElem?_append] at hj
        split at hj
        · exact h.joining j rest hj
        · have hmem := List.mem_of_getElem? hj
          simp at hmem
      · rw [List.getElem?_append] at hj
        split at hj
        · exact h.returned j hj
        · have hmem := List.mem_of_getElem? hj
          simp at hmem
  | returnAtOnce j hpc hstopped =>
      refine h.of_stops (fun k rest hk => ?_) (fun _ _ => hstopped)
      rcases thread_of_set hk with ⟨-, hnew⟩ | ⟨-, hold⟩
      · cases hnew
      · exact h.joining k rest hold
  | begin j hpc hstopped =>
      constructor
      · exact h.listed
      · intro k rest hk
        refine ⟨rfl, fun i hi => ?_⟩
        rcases thread_of_set hk with ⟨-, hnew⟩ | ⟨-, hold⟩
        · cases hnew
          exact .inl hi
        · exact (h.joining k rest hold).2 i hi
      · intro hdone
        exact ⟨rfl, (h.stopped hdone).2⟩
      · exact fun k hk => h.returned_of_set hk
  | join j i rest hpc hfinished =>
      refine h.of_stops (fun k rest' hk => ?_) (fun k hk => h.returned_of_set hk)
      · rcases thread_of_set hk with ⟨-, hnew⟩ | ⟨-, hold⟩
        · cases hnew
          obtain ⟨hclosed, hseen⟩ := h.joining j _ hpc
          refine ⟨hclosed, fun k' hk' => ?_⟩
          rcases hseen k' hk' with hmem | hdone
          · rcases List.mem_cons.mp hmem with rfl | hrest
            · exact .inr hfinished
            · exact .inl hrest
          · exact .inr hdone
        · exact h.joining k rest' hold
  | clear j hpc =>
      obtain ⟨hclosed, hseen⟩ := h.joining j [] hpc
      constructor
      · nofun
      · intro k rest hk
        exact ⟨hclosed, nofun⟩
      · intro _
        refine ⟨hclosed, fun i hi => ?_⟩
        -- Whoever has not finished is listed, and whoever is listed has been joined.
        cases hstopped : s.stopped with
        | true => exact (h.stopped hstopped).2 i hi
        | false =>
            cases hbusy : isFinished s i with
            | true => exact hbusy
            | false =>
                rcases hseen i (h.listed hstopped i hi hbusy) with hmem | hdone
                · cases hmem
                · rw [hbusy] at hdone
                  cases hdone
      · intro _ _
        rfl

/-! ## Runs -/

/-- A transition of a pool. -/
abbrev PoolTransition (τ : Type) := Lib.Transition (State τ) (Action τ)

theorem queued_built (cfg : Config) : Queued cfg (built cfg : State τ) := by
  refine ⟨rfl, fun p => ?_, fun _ => Nat.zero_le _⟩
  show 0 = 0 + (List.replicate cfg.init WorkerPc.top).countP (WorkerPc.runs p)
  simp [List.countP_replicate, WorkerPc.runs]

theorem counted_built (cfg : Config) : Counted cfg (built cfg : State τ) := by
  refine ⟨?_, fun _ => ?_, fun _ => Nat.le_refl _, fun _ => Nat.le_max_left _ _, nofun⟩
  · show 0 = (List.replicate cfg.init WorkerPc.top).countP WorkerPc.isWaiting
    simp [List.countP_replicate, WorkerPc.isWaiting]
  · show cfg.init = (List.replicate cfg.init WorkerPc.top).countP WorkerPc.live
    simp [List.countP_replicate, WorkerPc.live]

theorem joined_built (cfg : Config) : Joined (built cfg : State τ) := by
  refine ⟨fun _ i hi _ => ?_, nofun, nofun, nofun⟩
  show i ∈ List.range cfg.init
  simpa [built] using hi

theorem invariants_of_run {trace : List (PoolTransition τ)}
    (hrun : Run (step cfg) (built cfg) trace s) : Queued cfg s ∧ Counted cfg s ∧ Joined s := by
  refine hrun.invariant (P := fun s => Queued cfg s ∧ Counted cfg s ∧ Joined s)
    ⟨queued_built cfg, counted_built cfg, joined_built cfg⟩ ?_
  rintro t - hstep ⟨hqueued, hcounted, hjoined⟩
  have hpool := poolStep_of_step hstep
  exact ⟨hqueued.step hpool, hcounted.step hpool, hjoined.step hpool⟩

/-! ## What happens when the pool has stopped -/

theorem countP_live_of_finished (h : ∀ i < s.workers.length, isFinished s i = true)
    {p : WorkerPc τ → Bool} (hp : p .finished = false) : s.workers.countP p = 0 := by
  rw [List.countP_eq_zero]
  intro pc hmem
  obtain ⟨i, hi⟩ := List.mem_iff_getElem?.mp hmem
  rw [finished_of_isFinished hi (h i (List.getElem?_eq_some_iff.mp hi).1), hp]
  exact Bool.false_ne_true

/-- When `stop` has returned, nothing is left in the queue or running. -/
theorem all_finished_of_returned (hqueued : Queued cfg s) (hcounted : Counted cfg s)
    (hjoined : Joined s) {j : Nat} (hj : s.stops[j]? = some .returned) :
    s.tasks = [] ∧ s.finished.Perm (accepted s) := by
  classical
  have hfinished := (hjoined.stopped (hjoined.returned j hj)).2
  have htasks : s.tasks = [] := by
    by_contra hqueue
    have hlive := hcounted.exists_live hqueue
    rw [countP_live_of_finished hfinished rfl] at hlive
    exact absurd hlive (Nat.lt_irrefl 0)
  refine ⟨htasks, ?_⟩
  rw [hqueued.order, htasks, List.append_nil, List.perm_iff_count]
  intro task
  have honce := hqueued.once (· == task)
  rw [countP_live_of_finished hfinished rfl, Nat.add_zero] at honce
  exact honce.symm

/-! ## Progress -/

/-- The number of steps a worker can make before the `n`th accepted task is
started. -/
def remaining (n : Nat) (s : State τ) (pc : WorkerPc τ) : Nat :=
  2 * (n - s.started.length) + if pc.isRunning then 1 else 0

/-- Worker `w` makes the step. -/
def byWorker (w : Nat) (t : PoolTransition τ) : Bool :=
  match t.action with
  | .worker i _ => i == w
  | _ => false

theorem started_mono (h : PoolStep cfg s a s') :
    s.started.length ≤ s'.started.length := by
  cases h with
  | worker i timedOut pc pc' s₁ hpc hworker =>
      show s.started.length ≤ s₁.started.length
      cases hworker <;> simp
  | _ => exact Nat.le_refl _

/-- An accepted task stays accepted; nothing is accepted any more once the pool
is stopping. -/
theorem accepted_step (h : PoolStep cfg s a s') :
    accepted s' = accepted s ∨
      s.stopping = false ∧ ∃ task, accepted s' = accepted s ++ [task] := by
  cases h with
  | refuse task =>
      left
      show (s.enqueues ++ _).filterMap EnqueueCall.accepted? = _
      rw [List.filterMap_append]
      simp [EnqueueCall.accepted?, accepted]
  | push task hstopping hroom =>
      refine .inr ⟨hstopping, task, ?_⟩
      show (s.enqueues ++ _).filterMap EnqueueCall.accepted? = _
      rw [List.filterMap_append]
      simp [EnqueueCall.accepted?, accepted]
  | pass c grown task hcall => exact .inl (accepted_returned hcall)
  | grow c grown task hcall => exact .inl (accepted_returned hcall)
  | worker i timedOut pc pc' s₁ hpc hworker =>
      obtain ⟨-, -, -, -, henqueues⟩ := hworker.keeps
      left
      show s₁.enqueues.filterMap EnqueueCall.accepted? = _
      rw [henqueues]
      rfl
  | call => exact .inl rfl
  | returnAtOnce => exact .inl rfl
  | begin => exact .inl rfl
  | join => exact .inl rfl
  | clear => exact .inl rfl

theorem accepted_mono (h : PoolStep cfg s a s') :
    (accepted s).length ≤ (accepted s').length := by
  rcases accepted_step h with hsame | ⟨-, task, hnew⟩
  · exact Nat.le_of_eq (by rw [hsame])
  · rw [hnew, List.length_append]
    omega

/-- While the `n`th accepted task is in the queue, the queue is not empty. -/
theorem tasks_ne_nil {n : Nat} (hqueued : Queued cfg s) (hstarted : s.started.length ≤ n)
    (hn : n < (accepted s).length) : s.tasks ≠ [] := by
  intro hnil
  rw [hqueued.order, hnil, List.append_nil] at hn
  omega

/-- Then a live worker makes a step that brings it closer to the task, and stays
alive. -/
theorem remaining_worker {n : Nat} (htasks : s.tasks ≠ []) (hlive : pc.live = true)
    (hstep : WorkerStep cfg s pc s' pc') (hn : s'.started.length ≤ n) :
    pc'.live = true ∧ remaining n s' pc' + 1 ≤ remaining n s pc := by
  cases hstep with
  | take _ task rest _ hrunning _ =>
      have hlater : (s.started ++ [task]).length ≤ n := hn
      rw [List.length_append, List.length_singleton] at hlater
      refine ⟨rfl, ?_⟩
      simp only [remaining, WorkerPc.isRunning, List.length_append, List.length_singleton, if_true]
      omega
  | finish task =>
      refine ⟨rfl, ?_⟩
      simp [remaining, WorkerPc.isRunning]
  | wait hnil => exact absurd hnil htasks
  | retry hnil => exact absurd hnil htasks
  | retire hnil => exact absurd hnil htasks
  | leave _ _ _ hnil => exact absurd hnil htasks
  | exit => cases hlive

/-- A step of someone else leaves the worker where it is. -/
theorem worker_of_other {w : Nat} (hpc : s.workers[w]? = some pc) (hstep : PoolStep cfg s a s')
    (hother : byWorker w ⟨s, a, s'⟩ = false) : s'.workers[w]? = some pc := by
  cases hstep with
  | grow c grown task =>
      show (s.workers ++ _)[w]? = some pc
      rw [List.getElem?_append_left (List.getElem?_eq_some_iff.mp hpc).1]
      exact hpc
  | worker i timedOut q q' s₁ hq hworker =>
      have hne : w ≠ i := by
        rintro rfl
        simp [byWorker] at hother
      exact thread_set_other hne hpc
  | _ => exact hpc

/-- While the `n`th accepted task is in the queue, a live worker stays alive, and
only `remaining` many steps of it are possible. -/
theorem remaining_step {n w : Nat} (htasks : s.tasks ≠ []) (hpc : s.workers[w]? = some pc)
    (hlive : pc.live = true) (hstep : PoolStep cfg s a s') (hn : s'.started.length ≤ n) :
    ∃ pc', s'.workers[w]? = some pc' ∧ pc'.live = true ∧
      remaining n s' pc' + (if byWorker w ⟨s, a, s'⟩ then 1 else 0) ≤ remaining n s pc := by
  cases hby : byWorker w ⟨s, a, s'⟩ with
  | false =>
      refine ⟨pc, worker_of_other hpc hstep hby, hlive, ?_⟩
      have hmono := started_mono hstep
      simp only [remaining, Bool.false_eq_true, if_false]
      omega
  | true =>
      cases hstep with
      | worker i timedOut q q' s₁ hq hworker =>
          obtain rfl : i = w := by simpa [byWorker] using hby
          rw [hpc] at hq
          cases hq
          obtain ⟨hlive', hless⟩ := remaining_worker htasks hlive hworker hn
          exact ⟨q', thread_set_self hpc, hlive', hless⟩
      | _ => cases hby

theorem steps_before_start {trace : List (PoolTransition τ)} (hrun : Run (step cfg) s trace s')
    (hqueued : Queued cfg s) {n w : Nat} (hn : n < (accepted s).length)
    (hpc : s.workers[w]? = some pc) (hlive : pc.live = true) (hstarted : s'.started.length ≤ n) :
    trace.countP (byWorker w) ≤ remaining n s pc := by
  -- Induction on the run: the worker is alive at its end, and what it has done
  -- and what remains add up.
  have hall : ∃ pc', s'.workers[w]? = some pc' ∧ pc'.live = true ∧ Queued cfg s' ∧
      n < (accepted s').length ∧
      trace.countP (byWorker w) + remaining n s' pc' ≤ remaining n s pc := by
    induction hrun with
    | nil => exact ⟨pc, hpc, hlive, hqueued, hn, by simp⟩
    | @snoc m s' trace a hrun hstep ih =>
        have hpool := poolStep_of_step hstep
        have hearlier : m.started.length ≤ n := Nat.le_trans (started_mono hpool) hstarted
        obtain ⟨q, hq, hqlive, hmqueued, hmn, hsum⟩ := ih hearlier
        obtain ⟨q', hq', hq'live, hless⟩ := remaining_step (tasks_ne_nil hmqueued hearlier hmn)
          hq hqlive hpool hstarted
        refine ⟨q', hq', hq'live, hmqueued.step hpool,
          Nat.lt_of_lt_of_le hmn (accepted_mono hpool), ?_⟩
        rw [List.countP_append, List.countP_singleton]
        omega
  obtain ⟨_, -, -, -, -, hsum⟩ := hall
  omega

/-- A live worker is never blocked for good: its wait ends at the latest with the
timeout. -/
theorem live_worker_enabled (cfg : Config) {w : Nat} (hpc : s.workers[w]? = some pc)
    (hlive : pc.live = true) :
    (step cfg s (.worker w true)).isSome = true := by
  have hworker : (stepWorker cfg s true pc).isSome = true := by
    cases pc with
    | top =>
        simp only [stepWorker]
        split
        · rfl
        · split <;> rfl
    | waiting =>
        simp only [stepWorker]
        split
        · rfl
        · split
          · rfl
          · simp only [if_true]
            split <;> rfl
    | running task => rfl
    | exiting => cases hlive
    | finished => cases hlive
  simp only [step, hpc, Option.isSome_map]
  exact hworker

/-! ## The pool -/

theorem stopping_step (h : PoolStep cfg s a s') (hstopping : s.stopping = true) :
    s'.stopping = true := by
  cases h with
  | worker i timedOut pc pc' s₁ hpc hworker => exact hworker.keeps.1.trans hstopping
  | begin => rfl
  | _ => exact hstopping

/-- Once the pool is stopping it stays so, and nothing is accepted any more. -/
theorem stopping_of_run {trace : List (PoolTransition τ)} (hrun : Run (step cfg) s trace s')
    (hstopping : s.stopping = true) :
    s'.stopping = true ∧ accepted s' = accepted s := by
  refine hrun.invariant (P := fun m => m.stopping = true ∧ accepted m = accepted s)
    ⟨hstopping, rfl⟩ ?_
  rintro t - hstep ⟨hclosed, haccepted⟩
  have hpool := poolStep_of_step hstep
  refine ⟨stopping_step hpool hclosed, ?_⟩
  rcases accepted_step hpool with hsame | ⟨hopen, -⟩
  · exact hsame.trans haccepted
  · rw [hclosed] at hopen
    cases hopen

theorem enqueue_of_stopping (hstopping : s.stopping = true) (task : Option τ) :
    step cfg s (.enqueue task) =
      some { s with enqueues := s.enqueues ++ [⟨task, .returned false⟩] } := by
  cases task with
  | none => rfl
  | some task => simp [step, enqueue, hstopping]

/-- The `enqueue` that was called last has not been refused. -/
def State.lastAccepted (s : State τ) : Bool :=
  s.enqueues.getLast?.any fun call => call.pc matches .adjusting

/-- A pool without a bound takes every task as long as `stop` is not called. -/
theorem lastAccepted_of_run {trace : List (PoolTransition τ)}
    (hrun : Run (step cfg) (built cfg) trace s) (hstop : ∀ t ∈ trace, t.action ≠ .stop)
    (hbound : cfg.maxPendingTasks = 0) (task : τ) :
    (enqueue cfg s (some task)).lastAccepted = true := by
  have hopen : s.stops = [] ∧ s.stopping = false := by
    refine hrun.invariant (P := fun s => s.stops = [] ∧ s.stopping = false) ⟨rfl, rfl⟩ ?_
    rintro t ht hstep ⟨hstops, hstopping⟩
    have hquiet := hstop t ht
    have hpool := poolStep_of_step hstep
    generalize t.action = a, t.post = s' at hpool hquiet
    cases hpool with
    | worker i timedOut pc pc' s₁ hpc hworker =>
        obtain ⟨hsame, -, -, hsame', -⟩ := hworker.keeps
        exact ⟨hsame'.trans hstops, hsame.trans hstopping⟩
    | call => exact absurd rfl hquiet
    | begin j hpc hstopped => simp [hstops] at hpc
    | _ => simp_all
  simp [enqueue, State.lastAccepted, hopen.2, hbound]

/-- **The thread pool runs every accepted task once.**  In every run:

* the accepted tasks are the started ones followed by those in the queue, so each
  is started once and in the order accepted, and a started task has ended or is
  run by one worker;
* when a `stop` has returned, the queue is empty and the tasks that have ended are
  the accepted ones;
* once the pool is stopping, it stays so, `enqueue` returns false and no further
  task is accepted;
* the queue keeps to its bound;
* until the pool is stopping, `current_threads_` is the number of loops that have
  not decided to exit and lies between the two limits;
* while an accepted task waits in the queue there is a live worker; a live worker
  can always make a step, and it makes at most two for each task before that one,
  and one more, until the task is started. -/
theorem accepted_tasks_run_once (cfg : Config) (trace : List (PoolTransition τ)) (s : State τ)
    (hrun : Run (step cfg) (built cfg) trace s) :
    accepted s = s.started ++ s.tasks ∧
    (∀ p : τ → Bool,
      s.started.countP p = s.finished.countP p + s.workers.countP (WorkerPc.runs p)) ∧
    (∀ j : Nat, s.stops[j]? = some .returned →
      s.tasks = [] ∧ s.finished.Perm (accepted s)) ∧
    (s.stopping = true →
      (∀ task, step cfg s (.enqueue task) =
        some { s with enqueues := s.enqueues ++ [⟨task, .returned false⟩] }) ∧
      ∀ later s', Run (step cfg) s later s' → s'.stopping = true ∧ accepted s' = accepted s) ∧
    (0 < cfg.maxPendingTasks → s.tasks.length ≤ cfg.maxPendingTasks) ∧
    (s.stopping = false → s.currentThreads = s.workers.countP WorkerPc.live ∧
      cfg.init ≤ s.currentThreads ∧ s.currentThreads ≤ cfg.max) ∧
    ∀ n, s.started.length ≤ n → n < (accepted s).length →
      (∃ (w : Nat) (pc : WorkerPc τ), s.workers[w]? = some pc ∧ pc.live = true) ∧
      ∀ (w : Nat) (pc : WorkerPc τ), s.workers[w]? = some pc → pc.live = true →
        (step cfg s (.worker w true)).isSome = true ∧
        ∀ later s', Run (step cfg) s later s' → s'.started.length ≤ n →
          later.countP (byWorker w) ≤ 2 * (n - s.started.length) + 1 := by
  obtain ⟨hqueued, hcounted, hjoined⟩ := invariants_of_run hrun
  refine ⟨hqueued.order, hqueued.once,
    fun j hj => all_finished_of_returned hqueued hcounted hjoined hj,
    fun hstopping => ⟨enqueue_of_stopping hstopping, fun later s' hlater =>
      stopping_of_run hlater hstopping⟩,
    hqueued.bounded,
    fun hopen => ⟨hcounted.current hopen, hcounted.least hopen, hcounted.most hopen⟩,
    fun n hstarted hn => ⟨?_, fun w pc hpc hlive => ⟨live_worker_enabled cfg hpc hlive, ?_⟩⟩⟩
  · have hpos := hcounted.exists_live (tasks_ne_nil hqueued hstarted hn)
    obtain ⟨pc, hmem, hlive⟩ := List.countP_pos_iff.mp hpos
    obtain ⟨w, hw⟩ := List.mem_iff_getElem?.mp hmem
    exact ⟨w, pc, hw, hlive⟩
  · intro later s' hlater hwaiting
    have hsteps := steps_before_start hlater hqueued hn hpc hlive hwaiting
    have hbound : remaining n s pc ≤ 2 * (n - s.started.length) + 1 := by
      unfold remaining
      split <;> omega
    exact Nat.le_trans hsteps hbound

/-- One worker to begin with, a second one for any backlog. -/
def smallConfig : Config := { initThreads := 1, maxThreads := 2, backlogThreshold := 0 }

/-- Two tasks are accepted, the pool grows, the second worker runs both, and the
pool is stopped. -/
def drainedRun : List (Action Nat) :=
  [.enqueue (some 7), .adjust 0 1, .enqueue (some 8), .adjust 1 0, .stop, .stopStep 0] ++
    List.replicate 6 (.worker 1 false) ++ List.replicate 2 (.worker 0 false) ++
    List.replicate 3 (.stopStep 0)

theorem accepted_tasks_run_once_drained :
    ∃ trace s, Run (step smallConfig) (built smallConfig : State Nat) trace s ∧
      accepted s = [7, 8] ∧ s.finished.Perm [7, 8] ∧ s.tasks = [] := by
  have hexec : (execute (step smallConfig) (built smallConfig) drainedRun).any
      (fun s => decide (s.stops[0]? = some .returned) && decide (accepted s = [7, 8])) = true := by
    decide
  obtain ⟨s, hrun, hend⟩ := exists_run_of_execute hexec
  simp only [Bool.and_eq_true, decide_eq_true_eq] at hend
  obtain ⟨-, -, hstopped, -⟩ := accepted_tasks_run_once smallConfig _ s hrun
  obtain ⟨htasks, hfinished⟩ := hstopped 0 hend.1
  exact ⟨_, s, hrun, hend.2, hend.2 ▸ hfinished, htasks⟩

end ThreadPool
end Corpcron
