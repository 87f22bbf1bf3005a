import Corpcron.Lib.Trace

/-!
# The life of an application

`ServerApp` and `WorkerApp` live alike.  The main thread sets things up, listens,
registers its services, starts a heartbeat thread, (in the server) the scheduler
and a thread that waits for signals, and serves until its event loop ends.  Then
it goes through `cleanup`, and the destructor goes through it a second time.
`stop()` is carried out by the thread that finds `stopping_` unset under the
mutex: the signal thread, or the main thread when the server fails.

Each step is what one thread does between two points at which the others can see
it; the critical sections of the mutex are single steps.  `calls` keeps the calls
to the service registry in the order in which they are made.
-/

namespace Corpcron
namespace App

open Lib

/-- What the two applications differ in. -/
structure AppConfig where
  /-- The services to register. -/
  services : List String
  hasScheduler : Bool

/-- A call to the service registry. -/
inductive Call where
  | register (service : String) (ok : Bool)
  | heartbeat (service : String)
  | unregister (service : String)
deriving DecidableEq

/-- Where a thread is in `stop()`. -/
inductive StopPc where
  /-- At the mutex. -/
  | entering
  | notifying
  | scheduler
  | exporter
  | loop
  | executor
  | done
deriving DecidableEq

/-- The parts of `cleanup` and of the destructor. -/
inductive Op where
  | stop
  | joinHeartbeat
  | unregister
  | joinSignal
deriving DecidableEq

/-- `cleanup`. -/
def cleanup : List Op := [.stop, .joinHeartbeat, .unregister, .joinSignal]

/-- The destructor. -/
def destructor : List Op := .stop :: cleanup

theorem mem_destructor (op : Op) : op ∈ destructor := by cases op <;> decide

theorem mem_cleanup_append (op : Op) (ops : List Op) : op ∈ .stop :: cleanup ++ ops :=
  List.mem_append_left _ (mem_destructor op)

inductive MainPc where
  /-- In `run`, up to the construction of the server. -/
  | setup
  /-- In `TcpServer::start`, before its hook. -/
  | starting
  | registering (todo : List String)
  /-- After a failed registration. -/
  | rollingBack (todo : List String)
  | startingHeartbeat
  | startingScheduler
  | startingSignalThread
  /-- In `EpollLoop::run`. -/
  | serving
  /-- What is left to do before the process ends. -/
  | finishing (ops : List Op)
  | stopping (pc : StopPc) (ops : List Op)
  | unregistering (todo : List String) (ops : List Op)
  | joiningSignal (ops : List Op)
deriving DecidableEq

inductive HeartbeatPc where
  | none
  /-- At `while (!stopping_)`. -/
  | head
  /-- In `wait_for`. -/
  | waiting
  | beating (todo : List String)
  | exited
  | joined
deriving DecidableEq

inductive SignalPc where
  | none
  /-- In `sigwait`. -/
  | waiting
  | stopping (pc : StopPc)
  | exited
  | joined
deriving DecidableEq

structure State where
  main : MainPc
  heartbeat : HeartbeatPc
  signal : SignalPc
  /-- `stopping_`. -/
  stopping : Bool
  /-- The stop flag of the event loop. -/
  loopStopped : Bool
  schedulerRuns : Bool
  /-- `registered_services_`; in the server, `service_registered_`. -/
  registered : List String
  /-- A signal that `sigwait` can take. -/
  signalPending : Bool
  exitCode : Option Nat
  calls : List Call
  /-- How often the body of `stop()` has been entered. -/
  stops : Nat
deriving DecidableEq

def State.built : State where
  main := .setup
  heartbeat := .none
  signal := .none
  stopping := false
  loopStopped := false
  schedulerRuns := false
  registered := []
  signalPending := false
  exitCode := none
  calls := []
  stops := 0

namespace State

/-- A step of `stop()`. -/
def stopStep (s : State) : StopPc → State × StopPc
  | .entering =>
      if s.stopping then (s, .done)
      else ({ s with stopping := true, stops := s.stops + 1 }, .notifying)
  | .notifying => (s, .scheduler)
  | .scheduler => ({ s with schedulerRuns := false }, .exporter)
  | .exporter => (s, .loop)
  | .loop => ({ s with loopStopped := true }, .executor)
  | .executor => (s, .done)
  | .done => (s, .done)

def call (s : State) (c : Call) : State := { s with calls := s.calls ++ [c] }

/-- `TcpServer::start` has returned. -/
def started (s : State) (ok : Bool) : State :=
  if ok then { s with exitCode := some 0, main := .finishing (cleanup ++ destructor) }
  else { s with exitCode := some 1, main := .finishing (.stop :: cleanup ++ destructor) }

/-- A step of the main thread; `ok` is false if what it does fails. -/
def stepMain (cfg : AppConfig) (s : State) (ok : Bool) : Option State :=
  match s.main with
  | .setup =>
      if ok then some { s with main := .starting }
      else some { s with exitCode := some 1, main := .finishing destructor }
  | .starting =>
      if ok then some { s with main := .registering cfg.services } else some (s.started false)
  | .registering (service :: todo) =>
      if ok then
        some { s.call (.register service true) with
          main := .registering todo
          registered := s.registered ++ [service] }
      else some { s.call (.register service false) with main := .rollingBack s.registered }
  | .registering [] => some { s with main := .startingHeartbeat }
  | .rollingBack (service :: todo) =>
      some { s.call (.unregister service) with main := .rollingBack todo }
  | .rollingBack [] => some ({ s with registered := [] }.started false)
  | .startingHeartbeat =>
      if ok then some { s with heartbeat := .head, main := .startingScheduler }
      else some (s.started false)
  | .startingScheduler =>
      if cfg.hasScheduler then
        if ok then some { s with schedulerRuns := true, main := .startingSignalThread }
        else some (s.started false)
      else some { s with main := .startingSignalThread }
  | .startingSignalThread =>
      if ok then some { s with signal := .waiting, main := .serving } else some (s.started false)
  | .serving =>
      if ok then if s.loopStopped then some (s.started true) else none
      else some (s.started false)
  | .finishing (.stop :: ops) => some { s with main := .stopping .entering ops }
  | .finishing (.joinHeartbeat :: ops) =>
      match s.heartbeat with
      | .none => some { s with main := .finishing ops }
      | .joined => some { s with main := .finishing ops }
      | .exited => some { s with heartbeat := .joined, main := .finishing ops }
      | _ => none
  | .finishing (.unregister :: ops) => some { s with main := .unregistering s.registered ops }
  | .finishing (.joinSignal :: ops) =>
      match s.signal with
      | .none => some { s with main := .finishing ops }
      | .joined => some { s with main := .finishing ops }
      | _ => some { s with signalPending := true, main := .joiningSignal ops }
  | .finishing [] => none
  | .stopping .done ops => some { s with main := .finishing ops }
  | .stopping pc ops =>
      let (s', pc') := s.stopStep pc
      some { s' with main := .stopping pc' ops }
  | .unregistering (service :: todo) ops =>
      some { s.call (.unregister service) with main := .unregistering todo ops }
  | .unregistering [] ops => some { s with registered := [], main := .finishing ops }
  | .joiningSignal ops =>
      match s.signal with
      | .exited => some { s with signal := .joined, main := .finishing ops }
      | _ => none

/-- A step of the heartbeat thread. -/
def stepHeartbeat (s : State) : Option State :=
  match s.heartbeat with
  | .head => some { s with heartbeat := if s.stopping then .exited else .waiting }
  | .waiting =>
      -- Either `notify_all` has woken the thread or five seconds are over.
      some { s with heartbeat := if s.stopping then .exited else .beating s.registered }
  | .beating (service :: todo) =>
      some { s.call (.heartbeat service) with heartbeat := .beating todo }
  | .beating [] => some { s with heartbeat := .head }
  | _ => none

/-- A step of the signal thread. -/
def stepSignal (s : State) : Option State :=
  match s.signal with
  | .waiting =>
      if s.signalPending then
        some { s with signalPending := false, signal := .stopping .entering }
      else none
  | .stopping .done => some { s with signal := .exited }
  | .stopping pc =>
      let (s', pc') := s.stopStep pc
      some { s' with signal := .stopping pc' }
  | _ => none

end State

inductive Action where
  /-- Someone sends `SIGINT` or `SIGTERM`. -/
  | kill
  | main (ok : Bool)
  | heartbeat
  | signal
deriving DecidableEq

def step (cfg : AppConfig) (s : State) : Action → Option State
  | .kill => some { s with signalPending := true }
  | .main ok => s.stepMain cfg ok
  | .heartbeat => s.stepHeartbeat
  | .signal => s.stepSignal

abbrev AppTransition := Transition State Action

/-! ## Positions -/

/-- The heartbeat thread has not been started. -/
def MainPc.beforeHeartbeat : MainPc → Bool
  | .setup => true
  | .starting => true
  | .registering _ => true
  | .rollingBack _ => true
  | .startingHeartbeat => true
  | _ => false

/-- The signal thread has not been started. -/
def MainPc.beforeSignal : MainPc → Bool
  | .startingScheduler => true
  | .startingSignalThread => true
  | pc => pc.beforeHeartbeat

/-- The thread is to be joined. -/
def HeartbeatPc.isAlive : HeartbeatPc → Bool
  | .none => false
  | .joined => false
  | _ => true

def SignalPc.isAlive : SignalPc → Bool
  | .none => false
  | .joined => false
  | _ => true

/-! ## What a step can do -/

/-- The steps of the start that only move on. -/
inductive Prepares (cfg : AppConfig) : MainPc → MainPc → Prop where
  | setup : Prepares cfg .setup .starting
  | listening : Prepares cfg .starting (.registering cfg.services)
  | registered : Prepares cfg (.registering []) .startingHeartbeat
  | noScheduler : Prepares cfg .startingScheduler .startingSignalThread

/-- `TcpServer::start` can return from here. -/
def MainPc.canLeave : MainPc → Bool
  | .starting => true
  | .startingHeartbeat => true
  | .startingScheduler => true
  | .startingSignalThread => true
  | .serving => true
  | _ => false

/-- All steps of the threads. -/
inductive Moves (cfg : AppConfig) (s : State) : State → Prop where
  | prepare (pc : MainPc) (hpc : Prepares cfg s.main pc) : Moves cfg s { s with main := pc }
  | abort (hmain : s.main = .setup) :
      Moves cfg s { s with exitCode := some 1, main := .finishing destructor }
  | register (service : String) (todo : List String)
      (hmain : s.main = .registering (service :: todo)) :
      Moves cfg s { s.call (.register service true) with
        main := .registering todo
        registered := s.registered ++ [service] }
  | refused (service : String) (todo : List String)
      (hmain : s.main = .registering (service :: todo)) :
      Moves cfg s { s.call (.register service false) with main := .rollingBack s.registered }
  | rollBack (service : String) (todo : List String)
      (hmain : s.main = .rollingBack (service :: todo)) :
      Moves cfg s { s.call (.unregister service) with main := .rollingBack todo }
  | rolledBack (hmain : s.main = .rollingBack []) :
      Moves cfg s ({ s with registered := [] }.started false)
  | startHeartbeat (hmain : s.main = .startingHeartbeat) :
      Moves cfg s { s with heartbeat := .head, main := .startingScheduler }
  | startScheduler (hmain : s.main = .startingScheduler) :
      Moves cfg s { s with schedulerRuns := true, main := .startingSignalThread }
  | startSignalThread (hmain : s.main = .startingSignalThread) :
      Moves cfg s { s with signal := .waiting, main := .serving }
  | leave (ok : Bool) (hmain : s.main.canLeave = true)
      (hok : ok = true → s.main = .serving ∧ s.loopStopped = true) : Moves cfg s (s.started ok)
  | beginStop (ops : List Op) (hmain : s.main = .finishing (.stop :: ops)) :
      Moves cfg s { s with main := .stopping .entering ops }
  | stop (pc : StopPc) (ops : List Op) (hmain : s.main = .stopping pc ops) (hpc : pc ≠ .done) :
      Moves cfg s { (s.stopStep pc).1 with main := .stopping (s.stopStep pc).2 ops }
  | stopped (ops : List Op) (hmain : s.main = .stopping .done ops) :
      Moves cfg s { s with main := .finishing ops }
  | noHeartbeat (ops : List Op) (hmain : s.main = .finishing (.joinHeartbeat :: ops))
      (hheartbeat : s.heartbeat.isAlive = false) : Moves cfg s { s with main := .finishing ops }
  | joinHeartbeat (ops : List Op) (hmain : s.main = .finishing (.joinHeartbeat :: ops))
      (hheartbeat : s.heartbeat = .exited) :
      Moves cfg s { s with heartbeat := .joined, main := .finishing ops }
  | beginUnregister (ops : List Op) (hmain : s.main = .finishing (.unregister :: ops)) :
      Moves cfg s { s with main := .unregistering s.registered ops }
  | unregister (service : String) (todo : List String) (ops : List Op)
      (hmain : s.main = .unregistering (service :: todo) ops) :
      Moves cfg s { s.call (.unregister service) with main := .unregistering todo ops }
  | unregistered (ops : List Op) (hmain : s.main = .unregistering [] ops) :
      Moves cfg s { s with registered := [], main := .finishing ops }
  | noSignal (ops : List Op) (hmain : s.main = .finishing (.joinSignal :: ops))
      (hsignal : s.signal.isAlive = false) : Moves cfg s { s with main := .finishing ops }
  | killSignal (ops : List Op) (hmain : s.main = .finishing (.joinSignal :: ops))
      (hsignal : s.signal.isAlive = true) :
      Moves cfg s { s with signalPending := true, main := .joiningSignal ops }
  | joinSignal (ops : List Op) (hmain : s.main = .joiningSignal ops)
      (hsignal : s.signal = .exited) :
      Moves cfg s { s with signal := .joined, main := .finishing ops }
  | heartbeatHead (hheartbeat : s.heartbeat = .head) :
      Moves cfg s { s with heartbeat := if s.stopping then .exited else .waiting }
  | heartbeatWakes (hheartbeat : s.heartbeat = .waiting) :
      Moves cfg s { s with heartbeat := if s.stopping then .exited else .beating s.registered }
  | beat (service : String) (todo : List String)
      (hheartbeat : s.heartbeat = .beating (service :: todo)) :
      Moves cfg s { s.call (.heartbeat service) with heartbeat := .beating todo }
  | beaten (hheartbeat : s.heartbeat = .beating []) : Moves cfg s { s with heartbeat := .head }
  | takeSignal (hsignal : s.signal = .waiting) (hpending : s.signalPending = true) :
      Moves cfg s { s with signalPending := false, signal := .stopping .entering }
  | signalStop (pc : StopPc) (hsignal : s.signal = .stopping pc) (hpc : pc ≠ .done) :
      Moves cfg s { (s.stopStep pc).1 with signal := .stopping (s.stopStep pc).2 }
  | signalDone (hsignal : s.signal = .stopping .done) : Moves cfg s { s with signal := .exited }

section Inversion

variable {cfg : AppConfig} {s s' : State}

theorem moves_of_stepMain {ok : Bool} (h : s.stepMain cfg ok = some s') : Moves cfg s s' := by
  have hleave : s.main.canLeave = true → Moves cfg s (s.started false) := fun hmain =>
    .leave false hmain (by simp)
  unfold State.stepMain at h
  cases hmain : s.main <;> simp only [hmain] at h
  case setup =>
    split at h <;> cases h
    · exact .prepare _ (hmain ▸ .setup)
    · exact .abort hmain
  case starting =>
    split at h <;> cases h
    · exact .prepare _ (hmain ▸ .listening)
    · exact hleave (by rw [hmain]; rfl)
  case registering todo =>
    cases todo with
    | nil =>
        cases h
        exact .prepare _ (hmain ▸ .registered)
    | cons service todo =>
        dsimp only at h
        split at h <;> cases h
        · exact .register service todo hmain
        · exact .refused service todo hmain
  case rollingBack todo =>
    cases todo with
    | nil =>
        cases h
        have hrolledBack : Moves cfg s ({ s with registered := [] }.started false) :=
          .rolledBack hmain
        rw [hmain] at hrolledBack
        exact hrolledBack
    | cons service todo =>
        cases h
        exact .rollBack service todo hmain
  case startingHeartbeat =>
    split at h <;> cases h
    · exact .startHeartbeat hmain
    · exact hleave (by rw [hmain]; rfl)
  case startingScheduler =>
    split at h
    · split at h <;> cases h
      · exact .startScheduler hmain
      · exact hleave (by rw [hmain]; rfl)
    · cases h
      exact .prepare _ (hmain ▸ .noScheduler)
  case startingSignalThread =>
    split at h <;> cases h
    · exact .startSignalThread hmain
    · exact hleave (by rw [hmain]; rfl)
  case serving =>
    split at h
    · split at h
      · rename_i hstopped
        cases h
        exact .leave true (by rw [hmain]; rfl) fun _ => ⟨hmain, hstopped⟩
      · cases h
    · cases h
      exact hleave (by rw [hmain]; rfl)
  case finishing ops =>
    cases ops with
    | nil => cases h
    | cons op ops =>
        cases op with
        | stop =>
            cases h
            exact .beginStop ops hmain
        | joinHeartbeat =>
            dsimp only at h
            split at h <;> rename_i hheartbeat <;> cases h
            · exact .noHeartbeat ops hmain (by rw [hheartbeat]; rfl)
            · exact .noHeartbeat ops hmain (by rw [hheartbeat]; rfl)
            · exact .joinHeartbeat ops hmain hheartbeat
        | unregister =>
            cases h
            exact .beginUnregister ops hmain
        | joinSignal =>
            dsimp only at h
            split at h <;> rename_i hsignal <;> cases h
            · exact .noSignal ops hmain (by rw [hsignal]; rfl)
            · exact .noSignal ops hmain (by rw [hsignal]; rfl)
            · refine .killSignal ops hmain ?_
              unfold SignalPc.isAlive
              split <;> simp_all
  case stopping pc ops =>
    cases pc with
    | done =>
        cases h
        exact .stopped ops hmain
    | _ =>
        cases h
        exact .stop _ ops hmain (by simp)
  case unregistering todo ops =>
    cases todo with
    | nil =>
        cases h
        exact .unregistered ops hmain
    | cons service todo =>
        cases h
        exact .unregister service todo ops hmain
  case joiningSignal ops =>
    split at h <;> cases h
    exact .joinSignal ops hmain ‹_›

theorem moves_of_stepHeartbeat (h : s.stepHeartbeat = some s') : Moves cfg s s' := by
  unfold State.stepHeartbeat at h
  split at h
  · rename_i hpc
    cases h
    exact .heartbeatHead hpc
  · rename_i hpc
    cases h
    exact .heartbeatWakes hpc
  · rename_i hpc
    cases h
    exact .beat _ _ hpc
  · rename_i hpc
    cases h
    exact .beaten hpc
  · cases h

theorem moves_of_stepSignal (h : s.stepSignal = some s') : Moves cfg s s' := by
  unfold State.stepSignal at h
  cases hpc : s.signal with
  | none => simp [hpc] at h
  | exited => simp [hpc] at h
  | joined => simp [hpc] at h
  | waiting =>
      simp only [hpc] at h
      split at h
      · rename_i hpending
        cases h
        exact .takeSignal hpc hpending
      · cases h
  | stopping pc =>
      cases pc with
      | done =>
          simp only [hpc, Option.some.injEq] at h
          subst h
          exact .signalDone hpc
      | _ =>
          simp only [hpc, Option.some.injEq] at h
          subst h
          exact .signalStop _ hpc (by simp)

/-- The inversion of a step. -/
theorem moves_of_step {a : Action} (h : step cfg s a = some s') :
    (a = .kill ∧ s' = { s with signalPending := true }) ∨ (a ≠ .kill ∧ Moves cfg s s') := by
  cases a with
  | kill => exact .inl ⟨rfl, (Option.some.inj h).symm⟩
  | main ok => exact .inr ⟨by simp, moves_of_stepMain h⟩
  | heartbeat => exact .inr ⟨by simp, moves_of_stepHeartbeat h⟩
  | signal => exact .inr ⟨by simp, moves_of_stepSignal h⟩

end Inversion

/-! ### Steps of `stop()` -/

section StopStep

variable {s : State}

theorem stopStep_of_stopping (hstopping : s.stopping = true) :
    s.stopStep .entering = (s, .done) := if_pos hstopping

theorem stopStep_of_not_stopping (hstopping : s.stopping = false) :
    s.stopStep .entering = ({ s with stopping := true, stops := s.stops + 1 }, .notifying) :=
  if_neg (by simp [hstopping])

/-- Once a thread is past the mutex, `stopping_` is set. -/
theorem stopping_of_stopStep {pc : StopPc} (hstopping : pc ≠ .entering → s.stopping = true) :
    (s.stopStep pc).1.stopping = true := by
  cases pc with
  | entering =>
      cases hs : s.stopping with
      | true =>
          rw [stopStep_of_stopping hs]
          exact hs
      | false => rw [stopStep_of_not_stopping hs]
  | _ => exact hstopping (by simp)

/-- `stop()` touches none of the positions. -/
theorem stopStep_frame (s : State) (pc : StopPc) :
    (s.stopStep pc).1.main = s.main ∧ (s.stopStep pc).1.heartbeat = s.heartbeat ∧
      (s.stopStep pc).1.signal = s.signal ∧ (s.stopStep pc).1.registered = s.registered ∧
      (s.stopStep pc).1.calls = s.calls := by
  cases pc with
  | entering =>
      cases hs : s.stopping with
      | true =>
          rw [stopStep_of_stopping hs]
          exact ⟨rfl, rfl, rfl, rfl, rfl⟩
      | false =>
          rw [stopStep_of_not_stopping hs]
          exact ⟨rfl, rfl, rfl, rfl, rfl⟩
  | _ => exact ⟨rfl, rfl, rfl, rfl, rfl⟩

end StopStep

end App
end Corpcron
