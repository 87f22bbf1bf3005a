import Corpcron.Net.EpollLoop
import Mathlib.Logic.Function.Basic

/-!
# The server's connections

`handleAccept` takes connections from the listening socket, counts them in
`active_connections_` and starts a coroutine of `clientHandler` for each.  The
destructor of the connection guard, at the end of the coroutine, closes the
socket and counts the connection out.  The frame of the coroutine is destroyed
by `Task::spawn` if the coroutine has ended before it returns, and by the final
suspension otherwise.

The state is that of the event loop with what these functions change: the two
counters, the sockets of the clients as the operating system sees them, and the
frames.  Connections are numbered as they are accepted, so that a `close` can be
charged to the connection that it closes although descriptors are used again.

* `loop_run`: the event loop of the server makes a run of its own.
* `Moves` says what a step does to all the rest; the coroutines only enter by
  the sockets they hold, `clients`.
-/

namespace Corpcron
namespace TcpServer

open Lib EpollLoop

/-! ## The server -/

/-- The socket of a coroutine that has not ended. -/
def client? (c : Coroutine) : Option Nat := if c.pc = .finished then none else some c.fd

/-- The sockets of the coroutines, in the order in which they were started. -/
def clients (loop : EpollLoop.State) : List (Option Nat) := loop.coroutines.map client?

/-- The connections of the coroutines that have not ended. -/
def served (clients : List (Option Nat)) (connections : List Nat) : List Nat :=
  (clients.zip connections).filterMap fun (client, connection) => client.map fun _ => connection

/-- The frame of a coroutine; `destroyed` counts the calls of `destroy()`. -/
structure Frame where
  detached : Bool
  destroyed : Nat
deriving DecidableEq

/-- A coroutine of `clientHandler`: the number of its connection and its frame. -/
structure Handler where
  connection : Nat
  frame : Frame
deriving DecidableEq

/-- A connection that an exception has left without a coroutine; `counted` if
it had been counted before. -/
structure Abandoned where
  connection : Nat
  counted : Bool
deriving DecidableEq

/-- How the start of a coroutine ends. -/
inductive Start where
  /-- Its body runs. -/
  | handler
  /-- No frame: the call of `clientHandler` throws, inside the `try`. -/
  | noFrame
  /-- The text for the log cannot be built: an exception outside the `try`. -/
  | throws
deriving DecidableEq

/-- The result of `accept4`. -/
inductive Incoming where
  /-- No connection, or an error. -/
  | none
  | interrupted
  | connection (fd : Nat) (start : Start)

structure Input where
  io : EpollLoop.Input := {}
  incoming : Incoming := .none

structure State where
  loop : EpollLoop.State
  maxConnections : UInt64
  activeConnections : UInt64
  /-- `active_connections_` and `rejected_connections_` of the metrics. -/
  activeGauge : UInt64
  rejectedConnections : UInt64
  /-- The open sockets of clients: the connection that a descriptor belongs to. -/
  sockets : Nat → Option Nat
  /-- How many connections `accept4` has returned. -/
  accepted : Nat
  /-- The calls of `close`, each with the connection that it has closed. -/
  closed : List (Option Nat)
  handlers : List Handler
  abandoned : List Abandoned
  /-- The coroutine for which `Task::spawn` has not returned. -/
  spawning : Option Nat

namespace State

def built (maxConnections : UInt64) (wakeFd listenFd : Nat) : State where
  loop := .built wakeFd listenFd
  maxConnections := maxConnections
  activeConnections := 0
  activeGauge := 0
  rejectedConnections := 0
  sockets := fun _ => none
  accepted := 0
  closed := []
  handlers := []
  abandoned := []
  spawning := none

/-- `accept4` returns a connection. -/
def accept (s : State) (fd : Nat) : State :=
  { s with sockets := Function.update s.sockets fd (some s.accepted), accepted := s.accepted + 1 }

def close (s : State) (fd : Nat) : State :=
  { s with
    sockets := Function.update s.sockets fd none
    closed := s.closed ++ [s.sockets fd] }

/-- `++active_connections_` and `incActiveConnection`. -/
def countIn (s : State) : State :=
  { s with activeConnections := s.activeConnections + 1, activeGauge := s.activeGauge + 1 }

/-- `fetch_sub` and `decActiveConnection`. -/
def countOut (s : State) : State :=
  { s with activeConnections := s.activeConnections - 1, activeGauge := s.activeGauge - 1 }

/-- `incRejectedConnection`. -/
def countRejected (s : State) : State :=
  { s with rejectedConnections := s.rejectedConnections + 1 }

/-- An exception leaves `handleAccept` with connection number `connection`. -/
def abandon (s : State) (connection : Nat) (counted : Bool) : State :=
  { s with abandoned := s.abandoned ++ [⟨connection, counted⟩] }

/-- The frame of a new coroutine; `Task::spawn` waits for its body. -/
def startHandler (s : State) (connection : Nat) : State :=
  { s with
    handlers := s.handlers ++ [⟨connection, ⟨false, 0⟩⟩]
    spawning := some s.handlers.length }

/-- The frame of coroutine `i` becomes `f frame`. -/
def setFrame (s : State) (i : Nat) (f : Frame → Frame) : State :=
  { s with handlers := s.handlers.modify i fun h => { h with frame := f h.frame } }

/-- The event loop goes on after `handleAccept` has seen `result`. -/
def turn (s : State) (inp : Input) (result : AcceptResult) : Option State :=
  (s.loop.stepLoop { inp.io with accept := result }).map fun loop => { s with loop := loop }

/-- The body of the loop of `handleAccept`. -/
def handleAccept (s : State) (inp : Input) : Option State :=
  match inp.incoming with
  | .none => s.turn inp .none
  | .interrupted => s.turn inp .retry
  | .connection fd start =>
      if fd ∈ s.loop.openFds ∨ (s.sockets fd).isSome then none
      else if s.maxConnections ≤ s.activeConnections then
        match start with
        | .throws => ((s.accept fd).abandon s.accepted false).turn inp .throws
        | _ => ((s.accept fd).countRejected.close fd).turn inp .retry
      else
        match start with
        | .throws => ((s.accept fd).countIn.abandon s.accepted true).turn inp .throws
        | .noFrame => (((s.accept fd).countIn.close fd).countOut).turn inp .retry
        | .handler => ((s.accept fd).countIn.startHandler s.accepted).turn inp (.connection fd)

/-- `FinalAwaiter::await_suspend`. -/
def finalSuspend (frame : Frame) : Frame :=
  if frame.detached then { frame with destroyed := frame.destroyed + 1 } else frame

/-- The end of `Task::spawn`, when control has come back from the coroutine. -/
def spawned (done : Bool) (frame : Frame) : Frame :=
  if done then { frame with destroyed := frame.destroyed + 1 } else { frame with detached := true }

/-- The destructor of the connection guard (`delFd` is in the step of the loop)
and the final suspension of coroutine `i`. -/
def endHandler (s : State) (i fd : Nat) : State :=
  (s.close fd).countOut.setFrame i finalSuspend

/-- One step of the thread of the event loop. -/
def advance (s : State) (inp : Input) : Option State :=
  match s.loop.running with
  | some i =>
      s.loop.coroutines[i]?.bind fun c =>
        (s.loop.stepCoroutine inp.io i c).map fun loop =>
          if c.pc = .closing then { s with loop := loop }.endHandler i c.fd
          else { s with loop := loop }
  | none =>
      match s.spawning with
      | some i =>
          s.loop.coroutines[i]?.map fun c =>
            { s.setFrame i (spawned (decide (c.pc = .finished))) with spawning := none }
      | none =>
          match s.loop.loop with
          | .accepting _ _ => s.handleAccept inp
          | _ => (s.loop.stepLoop inp.io).map fun loop => { s with loop := loop }

/-- The connections that are being served. -/
def serving (s : State) : List Nat :=
  served (clients s.loop) (s.handlers.map Handler.connection)

end State

inductive Action where
  /-- `stop()` from another thread. -/
  | stop
  | advance (inp : Input)

def step (s : State) : Action → Option State
  | .stop => some { s with loop := { s.loop with stopRequested := true } }
  | .advance inp => s.advance inp

abbrev ServerTransition := Transition State Action

/-! ## The event loop of the server -/

/-- What the body of `handleAccept` is for the event loop. -/
def State.acceptResult (s : State) : Incoming → AcceptResult
  | .none => .none
  | .interrupted => .retry
  | .connection fd start =>
      if s.maxConnections ≤ s.activeConnections then
        match start with
        | .throws => .throws
        | _ => .retry
      else
        match start with
        | .throws => .throws
        | .noFrame => .retry
        | .handler => .connection fd

/-- What a step is for the event loop; the end of `Task::spawn` is none of its
steps. -/
def State.loopAction? (s : State) : Action → Option EpollLoop.Action
  | .stop => some .stop
  | .advance inp =>
      match s.loop.running, s.spawning with
      | none, some _ => none
      | some _, _ => some (.advance inp.io)
      | none, none =>
          match s.loop.loop with
          | .accepting _ _ => some (.advance { inp.io with accept := s.acceptResult inp.incoming })
          | _ => some (.advance inp.io)

section Clients

variable {s s' : EpollLoop.State} {inp : EpollLoop.Input} {i : Nat} {c : Coroutine}

theorem client?_of_ne {pc : CoroutinePc} {fd : Nat} (h : pc ≠ .finished) :
    client? ⟨fd, pc⟩ = some fd := if_neg h

theorem clients_set (pc : CoroutinePc) :
    (s.coroutines.set i ⟨c.fd, pc⟩).map client? = (clients s).set i (client? ⟨c.fd, pc⟩) :=
  List.map_set

/-- A coroutine that has not ended keeps its socket. -/
theorem clients_move (hc : s.coroutines[i]? = some c) (hpc : c.pc ≠ .finished) {pc : CoroutinePc}
    (hpc' : pc ≠ .finished) : (s.coroutines.set i ⟨c.fd, pc⟩).map client? = clients s := by
  rw [clients_set, client?_of_ne hpc']
  apply thread_set_same
  rw [clients, List.getElem?_map, hc]
  exact congrArg some (client?_of_ne hpc)

theorem clients_of_stepCoroutine (hrunning : s.running = some i)
    (hc : s.coroutines[i]? = some c) (hpc : c.pc ≠ .closing)
    (h : s.stepCoroutine inp i c = some s') : clients s' = clients s ∧ s'.loop = s.loop := by
  have hself : ∀ {j : Nat} {c' : Coroutine}, s.running = some j → s.coroutines[j]? = some c' →
      c' = c := by
    intro j c' hj hc'
    obtain rfl : i = j := Option.some.inj (hrunning.symm.trans hj)
    exact Option.some.inj (hc'.symm.trans hc)
  have hmoves := moves_of_stepCoroutine hrunning hc h
  generalize s.coroutineEvent inp i c = ev at hmoves
  cases hmoves with
  | stop => exact ⟨rfl, rfl⟩
  | turn loop hnone _ _ => simp [hrunning] at hnone
  | drain hnone _ => simp [hrunning] at hnone
  | spawn loop clientFd hnone _ _ _ => simp [hrunning] at hnone
  | dispatch r c' wait id rest hnone _ _ _ _ => simp [hrunning] at hnone
  | replay r c' wait id rest hnone _ _ _ => simp [hrunning] at hnone
  | move j c' pc hj hc' hactive _ hactive' _ _ _ =>
      refine ⟨clients_move hc' ?_ ?_, rfl⟩
      · rintro hfinished
        simp [hfinished, CoroutinePc.isActive] at hactive
      · rintro rfl
        simp [CoroutinePc.isActive] at hactive'
  | register j c' wait hj hc' hpc' =>
      have hne : c'.pc ≠ .finished := by simp [hpc']
      cases wait with
      | read => exact ⟨clients_move hc' hne (by simp), rfl⟩
      | write => exact ⟨clients_move hc' hne (by simp), rfl⟩
      | dispatch fd => exact ⟨clients_move hc' hne (by simp), rfl⟩
  | suspend j c' id completionFd hj hc' hpc' =>
      exact ⟨clients_move hc' (by simp [hpc']) (by simp), rfl⟩
  | withdraw j c' id completionFd hj hc' hpc' =>
      exact ⟨clients_move hc' (by simp [hpc']) (by simp), rfl⟩
  | close j c' hj hc' hpc' => exact absurd (hself hj hc' ▸ hpc') hpc

/-- The guard's destructor gives the socket up. -/
theorem clients_of_closing (hpc : c.pc = .closing) (h : s.stepCoroutine inp i c = some s') :
    clients s' = (clients s).set i none ∧ s'.loop = s.loop := by
  simp only [State.stepCoroutine, hpc, Option.some.injEq] at h
  subst h
  exact ⟨clients_set .finished, rfl⟩

theorem clients_of_resume {s₁ : EpollLoop.State} {r : Registration}
    (h : s₁.resume r = some s') (hcoroutines : s₁.coroutines = s.coroutines) :
    clients s' = clients s := by
  obtain ⟨c, wait, id, hc, hpc, rfl⟩ := moves_of_resume h hcoroutines
  change (s₁.coroutines.set r.coroutine ⟨c.fd, .resumed wait⟩).map client? = clients s
  rw [hcoroutines]
  exact clients_move hc (by simp [hpc]) (by simp)

/-- Outside `handleAccept` the loop starts no coroutine. -/
theorem clients_of_stepLoop (haccepting : ∀ fd rest, s.loop ≠ .accepting fd rest)
    (h : s.stepLoop inp = some s') : clients s' = clients s := by
  unfold State.stepLoop at h
  split at h
  · cases h
    split <;> rfl
  · cases h
    split <;> rfl
  · split at h <;> cases h <;> rfl
  · cases h
    rfl
  · cases h
    rfl
  · cases h
    rfl
  · rename_i fd rest hloop
    exact absurd hloop (haccepting fd rest)
  · split at h
    · cases h
      rfl
    · exact clients_of_resume h rfl
  · cases h
    rfl
  · exact clients_of_resume h rfl
  · cases h

end Clients

/-! ## What a step can do -/

/-- What `handleAccept` does to the server apart from its event loop. -/
inductive Accepts (s : State) : AcceptResult → State → Prop where
  | none : Accepts s .none s
  | interrupted : Accepts s .retry s
  | turnedAway (fd : Nat) (hfresh : s.sockets fd = none)
      (hfull : s.maxConnections ≤ s.activeConnections) :
      Accepts s .retry ((s.accept fd).countRejected.close fd)
  | noFrame (fd : Nat) (hfresh : s.sockets fd = none)
      (hroom : s.activeConnections < s.maxConnections) :
      Accepts s .retry (((s.accept fd).countIn.close fd).countOut)
  | abandoned (fd : Nat) (hfresh : s.sockets fd = none)
      (hfull : s.maxConnections ≤ s.activeConnections) :
      Accepts s .throws ((s.accept fd).abandon s.accepted false)
  | abandonedCounted (fd : Nat) (hfresh : s.sockets fd = none)
      (hroom : s.activeConnections < s.maxConnections) :
      Accepts s .throws ((s.accept fd).countIn.abandon s.accepted true)
  | started (fd : Nat) (hfresh : s.sockets fd = none)
      (hroom : s.activeConnections < s.maxConnections) :
      Accepts s (.connection fd) ((s.accept fd).countIn.startHandler s.accepted)

/-- The sockets that a coroutine is started for. -/
def startedFor : AcceptResult → List (Option Nat)
  | .connection fd => [some fd]
  | _ => []

/-- All steps, by what they do to the sockets of the coroutines. -/
inductive Moves (s : State) : State → Prop where
  | turn (loop : EpollLoop.State) (hclients : clients loop = clients s.loop)
      (hloop : s.spawning = none ∨ loop.loop = s.loop.loop) : Moves s { s with loop := loop }
  | accept (result : AcceptResult) (s₁ : State) (loop : EpollLoop.State)
      (hspawning : s.spawning = none) (haccepts : Accepts s result s₁)
      (hclients : clients loop = clients s.loop ++ startedFor result)
      (hloop : startedFor result = [] ∨ loop.loop.isDraining = false) :
      Moves s { s₁ with loop := loop }
  | spawned (i : Nat) (client : Option Nat) (hspawning : s.spawning = some i)
      (hclient : (clients s.loop)[i]? = some client) :
      Moves s { s.setFrame i (State.spawned client.isNone) with spawning := none }
  | ended (i fd : Nat) (loop : EpollLoop.State) (hclient : (clients s.loop)[i]? = some (some fd))
      (hclients : clients loop = (clients s.loop).set i none) (hloop : loop.loop = s.loop.loop) :
      Moves s ({ s with loop := loop }.endHandler i fd)

section Inversion

variable {s s' : State} {inp : Input} {a : Action}

theorem clients_of_accepting {loop loop' : EpollLoop.State} {io : EpollLoop.Input} {fd : Nat}
    {rest : List Nat} {result : AcceptResult} (hloop : loop.loop = .accepting fd rest)
    (h : loop.stepLoop { io with accept := result } = some loop') :
    clients loop' = clients loop ++ startedFor result ∧
      (startedFor result = [] ∨ loop'.loop.isDraining = false) := by
  unfold State.stepLoop at h
  rw [hloop] at h
  cases result with
  | none =>
      cases h
      exact ⟨(List.append_nil _).symm, .inl rfl⟩
  | retry =>
      cases h
      exact ⟨(List.append_nil _).symm, .inl rfl⟩
  | throws =>
      cases h
      exact ⟨(List.append_nil _).symm, .inl rfl⟩
  | connection clientFd =>
      dsimp only at h
      split at h
      · cases h
      · cases h
        exact ⟨List.map_append, .inr rfl⟩

theorem accepts_of_turn {s₁ : State} {result : AcceptResult} (haccepts : Accepts s result s₁)
    (hsame : s₁.loop = s.loop) (h : s₁.turn inp result = some s') :
    ∃ s₁ loop, Accepts s result s₁ ∧
      s.loop.stepLoop { inp.io with accept := result } = some loop ∧
      s' = { s₁ with loop := loop } := by
  obtain ⟨loop, hloop, rfl⟩ := Option.map_eq_some_iff.mp h
  exact ⟨s₁, loop, haccepts, hsame ▸ hloop, rfl⟩

/-- The inversion of `handleAccept`. -/
theorem accepts_of_handleAccept (h : s.handleAccept inp = some s') :
    ∃ s₁ loop, Accepts s (s.acceptResult inp.incoming) s₁ ∧
      s.loop.stepLoop { inp.io with accept := s.acceptResult inp.incoming } = some loop ∧
      s' = { s₁ with loop := loop } := by
  unfold State.handleAccept at h
  unfold State.acceptResult
  cases hincoming : inp.incoming with
  | none =>
      rw [hincoming] at h
      exact accepts_of_turn .none rfl h
  | interrupted =>
      rw [hincoming] at h
      exact accepts_of_turn .interrupted rfl h
  | connection fd start =>
      simp only [hincoming] at h ⊢
      split at h
      · cases h
      · rename_i hopen
        have hfresh : s.sockets fd = none := by
          rw [not_or, Bool.not_eq_true, Option.isSome_eq_false_iff] at hopen
          exact Option.isNone_iff_eq_none.mp hopen.2
        split at h
        · rename_i hfull
          rw [if_pos hfull]
          cases start with
          | throws => exact accepts_of_turn (.abandoned fd hfresh hfull) rfl h
          | noFrame => exact accepts_of_turn (.turnedAway fd hfresh hfull) rfl h
          | handler => exact accepts_of_turn (.turnedAway fd hfresh hfull) rfl h
        · rename_i hroom
          rw [if_neg hroom]
          have hroom' : s.activeConnections < s.maxConnections := UInt64.not_le.mp hroom
          cases start with
          | throws => exact accepts_of_turn (.abandonedCounted fd hfresh hroom') rfl h
          | noFrame => exact accepts_of_turn (.noFrame fd hfresh hroom') rfl h
          | handler => exact accepts_of_turn (.started fd hfresh hroom') rfl h

/-- The inversion of a step. -/
theorem moves_of_step (h : step s a = some s') : Moves s s' := by
  cases a with
  | stop =>
      cases h
      exact .turn _ rfl (.inr rfl)
  | advance inp =>
      change s.advance inp = some s' at h
      unfold State.advance at h
      cases hrunning : s.loop.running with
      | some i =>
          simp only [hrunning] at h
          obtain ⟨c, hc, hnext⟩ := Option.bind_eq_some_iff.mp h
          obtain ⟨loop, hloop, rfl⟩ := Option.map_eq_some_iff.mp hnext
          by_cases hpc : c.pc = .closing
          · rw [if_pos hpc]
            obtain ⟨hclients, hsame⟩ := clients_of_closing hpc hloop
            refine .ended i c.fd loop ?_ hclients hsame
            rw [clients, List.getElem?_map, hc]
            exact congrArg some (client?_of_ne (by simp [hpc]))
          · rw [if_neg hpc]
            obtain ⟨hclients, hsame⟩ := clients_of_stepCoroutine hrunning hc hpc hloop
            exact .turn loop hclients (.inr hsame)
      | none =>
          simp only [hrunning] at h
          cases hspawning : s.spawning with
          | some i =>
              simp only [hspawning] at h
              obtain ⟨c, hc, rfl⟩ := Option.map_eq_some_iff.mp h
              have hdone : decide (c.pc = .finished) = (client? c).isNone := by
                unfold client?
                split <;> simp_all
              rw [hdone]
              refine .spawned i (client? c) hspawning ?_
              rw [clients, List.getElem?_map, hc]
              rfl
          | none =>
              simp only [hspawning] at h
              split at h
              · rename_i fd rest haccepting
                obtain ⟨s₁, loop, haccepts, hloop, rfl⟩ := accepts_of_handleAccept h
                obtain ⟨hclients, hdraining⟩ := clients_of_accepting haccepting hloop
                exact .accept _ s₁ loop hspawning haccepts hclients hdraining
              · rename_i haccepting
                obtain ⟨loop, hloop, rfl⟩ := Option.map_eq_some_iff.mp h
                have hturn := Moves.turn loop (clients_of_stepLoop haccepting hloop)
                  (.inl hspawning)
                rw [hspawning] at hturn
                exact hturn

/-- A step is a step of the event loop, or the end of `Task::spawn`. -/
theorem loop_of_step (h : step s a = some s') :
    (s.loopAction? a = none ∧ s'.loop = s.loop) ∨
      ∃ b, s.loopAction? a = some b ∧ EpollLoop.step s.loop b = some s'.loop := by
  cases a with
  | stop =>
      cases h
      exact .inr ⟨.stop, rfl, rfl⟩
  | advance inp =>
      change s.advance inp = some s' at h
      unfold State.advance at h
      unfold State.loopAction?
      cases hrunning : s.loop.running with
      | some i =>
          simp only [hrunning] at h
          obtain ⟨c, hc, hnext⟩ := Option.bind_eq_some_iff.mp h
          obtain ⟨loop, hloop, rfl⟩ := Option.map_eq_some_iff.mp hnext
          refine .inr ⟨.advance inp.io, rfl, ?_⟩
          have hstep : EpollLoop.step s.loop (.advance inp.io) = some loop := by
            simp only [EpollLoop.step, hrunning, hc, Option.bind_some, hloop]
          split <;> exact hstep
      | none =>
          simp only [hrunning] at h
          cases hspawning : s.spawning with
          | some i =>
              simp only [hspawning] at h
              obtain ⟨c, hc, rfl⟩ := Option.map_eq_some_iff.mp h
              exact .inl ⟨rfl, rfl⟩
          | none =>
              simp only [hspawning] at h
              right
              split at h
              · rename_i fd rest haccepting
                obtain ⟨s₁, loop, -, hloop, rfl⟩ := accepts_of_handleAccept h
                refine ⟨_, rfl, ?_⟩
                simp only [EpollLoop.step, hrunning, hloop]
              · rename_i haccepting
                obtain ⟨loop, hloop, rfl⟩ := Option.map_eq_some_iff.mp h
                refine ⟨.advance inp.io, rfl, ?_⟩
                simp only [EpollLoop.step, hrunning, hloop]

end Inversion

/-- What a step is for the event loop alone. -/
def project : ServerTransition → Option LoopTransition :=
  Transition.project State.loop State.loopAction?

/-- The event loop of the server makes a run of its own. -/
theorem loop_run {maxConnections : UInt64} {wakeFd listenFd : Nat}
    {trace : List ServerTransition} {s : State}
    (hrun : Run step (State.built maxConnections wakeFd listenFd) trace s) :
    Run EpollLoop.step (EpollLoop.State.built wakeFd listenFd) (trace.filterMap project) s.loop :=
  hrun.project fun _ _ _ => loop_of_step

end TcpServer
end Corpcron
