import Corpcron.Lib.Threads
import Corpcron.Lib.Trace

/-!
# `DynamicThreadPool`

Every section under `mutex_` is one step: the two of `enqueue` (the push and
`adjustPoolSize`), the one at the top of `workerLoop` and the ones after a wait,
and the one of `stop`.  A waiting worker wakes up when there is a task or the
pool is stopping, however it was notified, and otherwise when its time is up.
Tasks are values of an arbitrary type; a task that throws ends like any other.

All worker loops that were ever started are kept in `workers`; `listed` has the
numbers of those in `workers_`.  `started` and `finished` record the tasks taken
off the queue and the tasks that have ended, in order of time.
-/

namespace Corpcron
namespace ThreadPool

open Lib

/-! ## State -/

/-- The constructor arguments that matter here. -/
structure Config where
  initThreads : Nat := 4
  maxThreads : Nat := 32
  backlogThreshold : Nat := 100
  maxPendingTasks : Nat := 0

/-- `init_threads_`. -/
def Config.init (cfg : Config) : Nat := max 1 cfg.initThreads

/-- `max_threads_`. -/
def Config.max (cfg : Config) : Nat := Max.max cfg.init cfg.maxThreads

/-- Where a worker loop is. -/
inductive WorkerPc (τ : Type) where
  /-- Before it locks `mutex_`. -/
  | top
  /-- In `cv_.wait_for`. -/
  | waiting
  | running (task : τ)
  /-- Out of the loop, before `finished->store(true)`. -/
  | exiting
  | finished

/-- Where a call of `enqueue` is. -/
inductive EnqueuePc where
  /-- Before `adjustPoolSize`. -/
  | adjusting
  | returned (result : Bool)
deriving DecidableEq

/-- A call of `enqueue`; `none` for an empty function. -/
structure EnqueueCall (τ : Type) where
  task : Option τ
  pc : EnqueuePc

/-- Where a call of `stop` is. -/
inductive StopPc where
  /-- Before it has `lifecycle_mutex_`. -/
  | entering
  /-- With the workers it has not joined yet. -/
  | joining (rest : List Nat)
  | returned
deriving DecidableEq

/-- The pool and everything that runs in it. -/
structure State (τ : Type) where
  stopping : Bool := false
  stopped : Bool := false
  tasks : List τ := []
  idleCount : Nat := 0
  currentThreads : Nat
  workers : List (WorkerPc τ)
  listed : List Nat
  enqueues : List (EnqueueCall τ) := []
  stops : List StopPc := []
  started : List τ := []
  finished : List τ := []

variable {τ : Type}

/-- The pool when its constructor has returned. -/
def built (cfg : Config) : State τ where
  currentThreads := cfg.init
  workers := List.replicate cfg.init .top
  listed := List.range cfg.init

/-! ## Steps -/

/-- The first section of `enqueue`. -/
def enqueue (cfg : Config) (s : State τ) (task : Option τ) : State τ :=
  match task with
  | none => { s with enqueues := s.enqueues ++ [⟨none, .returned false⟩] }
  | some task =>
      if s.stopping then { s with enqueues := s.enqueues ++ [⟨some task, .returned false⟩] }
      else if cfg.maxPendingTasks > 0 ∧ s.tasks.length ≥ cfg.maxPendingTasks then
        { s with enqueues := s.enqueues ++ [⟨some task, .returned false⟩] }
      else
        { s with
          tasks := s.tasks ++ [task]
          enqueues := s.enqueues ++ [⟨some task, .adjusting⟩] }

/-- The worker has stored `true` in its flag. -/
def isFinished (s : State τ) (i : Nat) : Bool :=
  match s.workers[i]? with
  | some .finished => true
  | _ => false

/-- How many threads `adjustPoolSize` tries to start. -/
def room (cfg : Config) (s : State τ) : Nat :=
  if s.tasks.length > cfg.backlogThreshold ∧ s.currentThreads < cfg.max then
    min cfg.max (s.currentThreads + 2) - s.currentThreads
  else 0

/-- `adjustPoolSize`; `grown` threads could be started. -/
def adjustPoolSize (cfg : Config) (s : State τ) (grown : Nat) : Option (State τ) :=
  if s.stopping then some s
  else if grown ≤ room cfg s then
    some { s with
      currentThreads := s.currentThreads + grown
      workers := s.workers ++ List.replicate grown .top
      listed := s.listed.filter (fun i => !isFinished s i) ++
        List.range' s.workers.length grown }
  else none

/-- One step of `workerLoop`. -/
def stepWorker (cfg : Config) (s : State τ) (timedOut : Bool) :
    WorkerPc τ → Option (State τ × WorkerPc τ)
  | .top =>
      match s.tasks with
      | task :: rest =>
          some ({ s with tasks := rest, started := s.started ++ [task] }, .running task)
      | [] =>
          if s.stopping then some ({ s with currentThreads := s.currentThreads - 1 }, .exiting)
          else some ({ s with idleCount := s.idleCount + 1 }, .waiting)
  | .waiting =>
      match s.tasks with
      | task :: rest =>
          some ({ s with
            idleCount := s.idleCount - 1, tasks := rest, started := s.started ++ [task] },
            .running task)
      | [] =>
          if s.stopping then
            some ({ s with
              idleCount := s.idleCount - 1, currentThreads := s.currentThreads - 1 }, .exiting)
          else if timedOut then
            if s.idleCount - 1 > 0 ∧ s.currentThreads > cfg.init then
              some ({ s with
                idleCount := s.idleCount - 1, currentThreads := s.currentThreads - 1 }, .exiting)
            else some ({ s with idleCount := s.idleCount - 1 }, .top)
          else none
  | .running task => some ({ s with finished := s.finished ++ [task] }, .top)
  | .exiting => some (s, .finished)
  | .finished => none

/-- One step of `stop`; `lifecycle_mutex_` is held while joining. -/
def stepStop (s : State τ) : StopPc → Option (State τ × StopPc)
  | .entering =>
      if s.stops.any (fun pc => pc matches .joining _) then none
      else if s.stopped then some (s, .returned)
      else some ({ s with stopping := true }, .joining s.listed)
  | .joining (i :: rest) => if isFinished s i then some (s, .joining rest) else none
  | .joining [] => some ({ s with listed := [], stopped := true }, .returned)
  | .returned => none

/-- What can happen to a pool. -/
inductive Action (τ : Type) where
  /-- `enqueue` is called and makes its first section. -/
  | enqueue (task : Option τ)
  /-- `enqueue` number `c` makes its second section. -/
  | adjust (c : Nat) (grown : Nat)
  /-- Worker loop `i` makes a step. -/
  | worker (i : Nat) (timedOut : Bool)
  /-- `stop` is called. -/
  | stop
  /-- `stop` number `j` makes a step. -/
  | stopStep (j : Nat)

/-- The pool as a system of threads. -/
def step (cfg : Config) (s : State τ) : Action τ → Option (State τ)
  | .enqueue task => some (enqueue cfg s task)
  | .adjust c grown =>
      match s.enqueues[c]? with
      | some ⟨task, .adjusting⟩ =>
          (adjustPoolSize cfg s grown).map fun s' =>
            { s' with enqueues := s.enqueues.set c ⟨task, .returned true⟩ }
      | _ => none
  | .worker i timedOut =>
      match s.workers[i]? with
      | none => none
      | some pc =>
          (stepWorker cfg s timedOut pc).map fun next =>
            { next.1 with workers := s.workers.set i next.2 }
  | .stop => some { s with stops := s.stops ++ [.entering] }
  | .stopStep j =>
      match s.stops[j]? with
      | none => none
      | some pc =>
          (stepStop s pc).map fun next => { next.1 with stops := s.stops.set j next.2 }

end ThreadPool
end Corpcron
