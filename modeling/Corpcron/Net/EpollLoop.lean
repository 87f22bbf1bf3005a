import Corpcron.Lib.Threads
import Corpcron.Lib.Trace

/-!
# The event loop and its coroutines

`EpollLoop::run` resumes coroutines that wait for a descriptor.  A coroutine of
`clientHandler` runs on the loop's thread until it waits again: for its socket,
or for the completion of a dispatched request.  `stop()` comes from another
thread, at any moment, so every look at the stop flag is a step of its own.

What the operating system, the executor and the clients do is an input of each
step.  The system only promises not to hand out a descriptor that is open, and
`epoll_ctl` not to add one that is registered.

`Moves` says once what a step can do, with the registration it is about;
everything later is proved over it.
-/

namespace Corpcron
namespace EpollLoop

open Lib

/-! ## Coroutines -/

/-- What a coroutine waits for: its socket, or the descriptor on which a
dispatched request reports that it is done. -/
inductive Wait where
  | read
  | write
  | dispatch (completionFd : Nat)
deriving DecidableEq

def Wait.fd (clientFd : Nat) : Wait → Nat
  | .read => clientFd
  | .write => clientFd
  | .dispatch completionFd => completionFd

/-- Where a coroutine of `clientHandler` is. -/
inductive CoroutinePc where
  /-- At `while (!loop->isStopping())`. -/
  | head
  /-- In `addCoroutine`, about to read the stop flag. -/
  | checkingAdd (wait : Wait)
  /-- In `addCoroutine`, about to call `epoll_ctl`. -/
  | adding (wait : Wait)
  /-- In `RpcDispatchAwaitable::await_suspend`, registered and about to enqueue. -/
  | enqueueing (id completionFd : Nat)
  | suspended (wait : Wait) (id : Nat)
  /-- In `await_resume`. -/
  | resumed (wait : Wait)
  | reading
  /-- At `tryDecodeFrame`. -/
  | decoding
  | sending
  /-- In the destructor of the connection guard. -/
  | closing
  | finished
deriving DecidableEq

/-- The coroutine of a connection. -/
structure Coroutine where
  fd : Nat
  pc : CoroutinePc
deriving DecidableEq

/-- An entry of `coro_callbacks_`; `id` counts the accepted registrations. -/
structure Registration where
  id : Nat
  fd : Nat
  coroutine : Nat
deriving DecidableEq

/-- Where to go on when the wait cannot be registered. -/
def Wait.refused : Wait → CoroutinePc
  | .read => .closing
  | .write => .closing
  | .dispatch _ => .sending

/-- The coroutine runs. -/
def CoroutinePc.isActive : CoroutinePc → Bool
  | .suspended _ _ => false
  | .finished => false
  | _ => true

/-- The registration that belongs to the position. -/
def CoroutinePc.waitsFor? : CoroutinePc → Option (Wait × Nat)
  | .suspended wait id => some (wait, id)
  | .enqueueing id completionFd => some (.dispatch completionFd, id)
  | _ => none

/-- The completion descriptor that is open at the position. -/
def CoroutinePc.completionFd? : CoroutinePc → Option Nat
  | .checkingAdd (.dispatch fd) => some fd
  | .adding (.dispatch fd) => some fd
  | .enqueueing _ fd => some fd
  | .suspended (.dispatch fd) _ => some fd
  | .resumed (.dispatch fd) => some fd
  | _ => none

namespace Coroutine

/-- The descriptors that are open for the coroutine. -/
def fds (c : Coroutine) : List Nat :=
  if c.pc = .finished then [] else c.fd :: c.pc.completionFd?.toList

/-- The registration of coroutine number `i`. -/
def registration? (c : Coroutine) (i : Nat) : Option Registration :=
  c.pc.waitsFor?.map fun (wait, id) => ⟨id, wait.fd c.fd, i⟩

end Coroutine

/-! ## The loop -/

/-- Where `run` is; the lists are what is still to be done. -/
inductive LoopPc where
  /-- At the first check of the stop flag. -/
  | entry
  /-- At the head of the loop. -/
  | checking
  /-- In `epoll_wait`. -/
  | polling
  | batch (events : List Nat)
  /-- In a plain callback; for the listening socket, at the head of the loop of
  `handleAccept`. -/
  | plain (fd : Nat) (events : List Nat)
  /-- In `accept4`. -/
  | accepting (fd : Nat) (events : List Nat)
  /-- At the search in `coro_callbacks_`. -/
  | lookup (fd : Nat) (events : List Nat)
  /-- In the second loop of `resumePendingCoroutines`. -/
  | draining (pending : List Registration)
  | returned
deriving DecidableEq

def LoopPc.pending : LoopPc → List Registration
  | .draining pending => pending
  | _ => []

/-- The loop has been left. -/
def LoopPc.isDraining : LoopPc → Bool
  | .draining _ => true
  | .returned => true
  | _ => false

inductive PollResult where
  | interrupted
  | failed
  | ready (fds : List Nat)

inductive AcceptResult where
  /-- No connection, or an error. -/
  | none
  /-- Interrupted, or turned away at the limit of connections. -/
  | retry
  | connection (fd : Nat)
  | throws

inductive ReadResult where
  | again
  /-- End of the stream, or an error. -/
  | closed
  | data

inductive DecodeResult where
  | incomplete
  /-- Malformed or too large. -/
  | invalid
  /-- A frame; the descriptor for its completion, if there is one. -/
  | frame (completionFd : Option Nat)

inductive SendResult where
  /-- All responses of the request are sent. -/
  | done
  | again
  | failed

/-- What the outside does during one step. -/
structure Input where
  poll : PollResult := .interrupted
  accept : AcceptResult := .none
  read : ReadResult := .again
  decode : DecodeResult := .incomplete
  send : SendResult := .done
  /-- Whether `epoll_ctl` adds a descriptor that is not registered. -/
  adds : Bool := true
  /-- Whether the executor takes the request. -/
  enqueued : Bool := true

structure State where
  stopRequested : Bool
  loop : LoopPc
  /-- The coroutine that runs. -/
  running : Option Nat
  coroutines : List Coroutine
  coroCallbacks : List Registration
  /-- The keys of `callbacks_`. -/
  callbacks : List Nat
  listenFd : Nat
  /-- How many registrations have been accepted. -/
  accepted : Nat
deriving DecidableEq

namespace State

/-- The loop before `run`, with the wake-up descriptor and the listening
socket. -/
def built (wakeFd listenFd : Nat) : State where
  stopRequested := false
  loop := .entry
  running := none
  coroutines := []
  coroCallbacks := []
  callbacks := [wakeFd, listenFd]
  listenFd := listenFd
  accepted := 0

/-- The registrations whose callback has not been invoked. -/
def waiting (s : State) : List Registration := s.coroCallbacks ++ s.loop.pending

/-- The descriptors that the operating system does not hand out again. -/
def openFds (s : State) : List Nat := s.callbacks ++ s.coroutines.flatMap Coroutine.fds

/-- `delFd`. -/
def delFd (s : State) (fd : Nat) : State :=
  { s with
    callbacks := s.callbacks.filter (· ≠ fd)
    coroCallbacks := s.coroCallbacks.filter (·.fd ≠ fd) }

/-- Coroutine `i` goes on at `pc`. -/
def move (s : State) (i : Nat) (c : Coroutine) (pc : CoroutinePc) : State :=
  { s with coroutines := s.coroutines.set i ⟨c.fd, pc⟩ }

/-- The beginning of `resumePendingCoroutines`. -/
def beginDrain (s : State) : State :=
  { s with loop := .draining s.coroCallbacks, coroCallbacks := [] }

/-- The callback of a registration: the coroutine is resumed.  The callback of a
coroutine that is not suspended would touch a frame that is gone. -/
def resume (s : State) (r : Registration) : Option State :=
  match s.coroutines[r.coroutine]? with
  | some c =>
      match c.pc with
      | .suspended wait _ =>
          some { s.move r.coroutine c (.resumed wait) with running := some r.coroutine }
      | _ => none
  | none => none

/-- The descriptor is in the interest list of `epoll`. -/
def isRegistered (s : State) (fd : Nat) : Bool :=
  s.callbacks.contains fd || s.coroCallbacks.any (·.fd == fd)

/-- `addCoroutine` after its checks have been passed. -/
def register (s : State) (i : Nat) (c : Coroutine) (wait : Wait) : State :=
  let s' : State := { s with
    coroCallbacks := s.coroCallbacks ++ [⟨s.accepted, wait.fd c.fd, i⟩]
    accepted := s.accepted + 1 }
  match wait with
  | .dispatch completionFd => s'.move i c (.enqueueing s.accepted completionFd)
  | wait => { s'.move i c (.suspended wait s.accepted) with running := none }

/-- One step of the loop itself. -/
def stepLoop (s : State) (inp : Input) : Option State :=
  match s.loop with
  | .entry => some (if s.stopRequested then s.beginDrain else { s with loop := .checking })
  | .checking => some (if s.stopRequested then s.beginDrain else { s with loop := .polling })
  | .polling =>
      match inp.poll with
      | .interrupted => some { s with loop := .checking }
      | .failed => some s.beginDrain
      | .ready fds => some { s with loop := .batch fds }
  | .batch [] => some { s with loop := .checking }
  | .batch (fd :: rest) =>
      some { s with loop := if fd ∈ s.callbacks then .plain fd rest else .lookup fd rest }
  | .plain fd rest =>
      some { s with
        loop := if fd = s.listenFd ∧ s.stopRequested = false then .accepting fd rest
          else .lookup fd rest }
  | .accepting fd rest =>
      match inp.accept with
      | .none => some { s with loop := .lookup fd rest }
      | .retry => some { s with loop := .plain fd rest }
      | .throws => some s.beginDrain
      | .connection clientFd =>
          if clientFd ∈ s.openFds then none
          else some { s with
            loop := .plain fd rest
            running := some s.coroutines.length
            coroutines := s.coroutines ++ [⟨clientFd, .head⟩] }
  | .lookup fd rest =>
      match s.coroCallbacks.find? (·.fd == fd) with
      | none => some { s with loop := .batch rest }
      | some r => { s.delFd fd with loop := .batch rest }.resume r
  | .draining [] => some { s with loop := .returned }
  | .draining (r :: rest) => { s with loop := .draining rest }.resume r
  | .returned => none

/-- One step of the running coroutine `c`, number `i`. -/
def stepCoroutine (s : State) (inp : Input) (i : Nat) (c : Coroutine) : Option State :=
  match c.pc with
  | .head => some (s.move i c (if s.stopRequested then .closing else .checkingAdd .read))
  | .checkingAdd wait => some (s.move i c (if s.stopRequested then wait.refused else .adding wait))
  | .adding wait =>
      if inp.adds ∧ s.isRegistered (wait.fd c.fd) = false then some (s.register i c wait)
      else some (s.move i c wait.refused)
  | .enqueueing id completionFd =>
      if inp.enqueued then
        some { s.move i c (.suspended (.dispatch completionFd) id) with running := none }
      else some ((s.delFd completionFd).move i c .sending)
  | .suspended _ _ => none
  | .resumed .read => some (s.move i c (if s.stopRequested then .closing else .reading))
  | .resumed .write => some (s.move i c (if s.stopRequested then .closing else .sending))
  | .resumed (.dispatch _) => some (s.move i c .sending)
  | .reading =>
      match inp.read with
      | .again => some (s.move i c .head)
      | .closed => some (s.move i c .closing)
      | .data => some (s.move i c .decoding)
  | .decoding =>
      match inp.decode with
      | .incomplete => some (s.move i c .head)
      | .invalid => some (s.move i c .closing)
      | .frame none => some (s.move i c .sending)
      | .frame (some completionFd) =>
          if completionFd ∈ s.openFds then none
          else some (s.move i c (.checkingAdd (.dispatch completionFd)))
  | .sending =>
      match inp.send with
      | .done => some (s.move i c .decoding)
      | .again => some (s.move i c (.checkingAdd .write))
      | .failed => some (s.move i c .closing)
  | .closing => some { (s.delFd c.fd).move i c .finished with running := none }
  | .finished => none

end State

inductive Action where
  /-- `stop()` from another thread. -/
  | stop
  | advance (inp : Input)

/-- One step. -/
def step (s : State) : Action → Option State
  | .stop => some { s with stopRequested := true }
  | .advance inp =>
      match s.running with
      | none => s.stepLoop inp
      | some i => s.coroutines[i]?.bind (s.stepCoroutine inp i)

/-- A transition of the loop. -/
abbrev LoopTransition := Transition State Action

/-! ## What happens to a registration -/

inductive Event where
  | quiet
  | accepted (r : Registration)
  | invoked (r : Registration)
  | withdrawn (r : Registration)
deriving DecidableEq

/-- What the next step of the loop does to a registration. -/
def State.loopEvent (s : State) : Event :=
  match s.loop with
  | .lookup fd _ =>
      match s.coroCallbacks.find? (·.fd == fd) with
      | some r => .invoked r
      | none => .quiet
  | .draining (r :: _) => .invoked r
  | _ => .quiet

/-- What the next step of the running coroutine does to a registration. -/
def State.coroutineEvent (s : State) (inp : Input) (i : Nat) (c : Coroutine) : Event :=
  match c.pc with
  | .adding wait =>
      if inp.adds ∧ s.isRegistered (wait.fd c.fd) = false then
        .accepted ⟨s.accepted, wait.fd c.fd, i⟩
      else .quiet
  | .enqueueing id completionFd =>
      if inp.enqueued then .quiet else .withdrawn ⟨id, completionFd, i⟩
  | _ => .quiet

/-- What a step does to a registration. -/
def event (s : State) : Action → Event
  | .stop => .quiet
  | .advance inp =>
      match s.running with
      | none => s.loopEvent
      | some i => (s.coroutines[i]?.map (s.coroutineEvent inp i)).getD .quiet

def Event.accepted? : Event → Option Registration
  | .accepted r => some r
  | _ => none

def Event.invoked? : Event → Option Registration
  | .invoked r => some r
  | _ => none

def Event.withdrawn? : Event → Option Registration
  | .withdrawn r => some r
  | _ => none

def events (trace : List LoopTransition) : List Event := trace.map fun τ => event τ.pre τ.action

/-- The registrations accepted in a run, in order. -/
def acceptedIn (trace : List LoopTransition) : List Registration :=
  (events trace).filterMap Event.accepted?

/-- The callbacks invoked in a run. -/
def invokedIn (trace : List LoopTransition) : List Registration :=
  (events trace).filterMap Event.invoked?

/-- The registrations that their own coroutine has taken back. -/
def withdrawnIn (trace : List LoopTransition) : List Registration :=
  (events trace).filterMap Event.withdrawn?

/-! ## What a step can do -/

/-- All steps, each with what it does to a registration. -/
inductive Moves (s : State) : Event → State → Prop where
  | stop : Moves s .quiet { s with stopRequested := true }
  | turn (loop : LoopPc) (hrunning : s.running = none) (hpending : loop.pending = s.loop.pending)
      (hdraining : loop.isDraining = s.loop.isDraining) : Moves s .quiet { s with loop := loop }
  | drain (hrunning : s.running = none) (hdraining : s.loop.isDraining = false) :
      Moves s .quiet s.beginDrain
  | spawn (loop : LoopPc) (clientFd : Nat) (hrunning : s.running = none)
      (hpending : loop.pending = s.loop.pending)
      (hdraining : loop.isDraining = false ∧ s.loop.isDraining = false)
      (hfresh : clientFd ∉ s.openFds) :
      Moves s .quiet { s with
        loop := loop
        running := some s.coroutines.length
        coroutines := s.coroutines ++ [⟨clientFd, .head⟩] }
  | dispatch (r : Registration) (c : Coroutine) (wait : Wait) (id : Nat) (rest : List Nat)
      (hrunning : s.running = none)
      (hdraining : s.loop.isDraining = false) (hr : r ∈ s.coroCallbacks)
      (hc : s.coroutines[r.coroutine]? = some c) (hpc : c.pc = .suspended wait id) :
      Moves s (.invoked r)
        { (s.delFd r.fd).move r.coroutine c (.resumed wait) with
          loop := .batch rest, running := some r.coroutine }
  | replay (r : Registration) (c : Coroutine) (wait : Wait) (id : Nat) (rest : List Registration)
      (hrunning : s.running = none) (hloop : s.loop = .draining (r :: rest))
      (hc : s.coroutines[r.coroutine]? = some c) (hpc : c.pc = .suspended wait id) :
      Moves s (.invoked r)
        { s.move r.coroutine c (.resumed wait) with
          loop := .draining rest, running := some r.coroutine }
  | move (i : Nat) (c : Coroutine) (pc : CoroutinePc) (hrunning : s.running = some i)
      (hc : s.coroutines[i]? = some c) (hactive : c.pc.isActive = true)
      (hwaits : c.pc.waitsFor? = none) (hactive' : pc.isActive = true)
      (hwaits' : pc.waitsFor? = none)
      (hfds : ∀ fd, pc.completionFd? = some fd → c.pc.completionFd? = some fd ∨ fd ∉ s.openFds)
      (hadding : ∀ wait, pc = .adding wait → s.stopRequested = false) :
      Moves s .quiet (s.move i c pc)
  | register (i : Nat) (c : Coroutine) (wait : Wait) (hrunning : s.running = some i)
      (hc : s.coroutines[i]? = some c) (hpc : c.pc = .adding wait) :
      Moves s (.accepted ⟨s.accepted, wait.fd c.fd, i⟩) (s.register i c wait)
  | suspend (i : Nat) (c : Coroutine) (id completionFd : Nat) (hrunning : s.running = some i)
      (hc : s.coroutines[i]? = some c) (hpc : c.pc = .enqueueing id completionFd) :
      Moves s .quiet { s.move i c (.suspended (.dispatch completionFd) id) with running := none }
  | withdraw (i : Nat) (c : Coroutine) (id completionFd : Nat) (hrunning : s.running = some i)
      (hc : s.coroutines[i]? = some c) (hpc : c.pc = .enqueueing id completionFd) :
      Moves s (.withdrawn ⟨id, completionFd, i⟩) ((s.delFd completionFd).move i c .sending)
  | close (i : Nat) (c : Coroutine) (hrunning : s.running = some i)
      (hc : s.coroutines[i]? = some c) (hpc : c.pc = .closing) :
      Moves s .quiet { (s.delFd c.fd).move i c .finished with running := none }

theorem moves_of_resume {s s' s₁ : State} {r : Registration}
    (h : s₁.resume r = some s') (hcoroutines : s₁.coroutines = s.coroutines) :
    ∃ c wait id, s.coroutines[r.coroutine]? = some c ∧ c.pc = .suspended wait id ∧
      s' = { s₁.move r.coroutine c (.resumed wait) with running := some r.coroutine } := by
  unfold State.resume at h
  rw [hcoroutines] at h
  split at h
  · rename_i c hc
    split at h
    · rename_i wait id hpc
      exact ⟨c, wait, id, hc, hpc, (Option.some.inj h).symm⟩
    · cases h
  · cases h

theorem moves_of_stepLoop {s s' : State} {inp : Input} (hrunning : s.running = none)
    (h : s.stepLoop inp = some s') : Moves s s.loopEvent s' := by
  have hturn : ∀ loop : LoopPc, loop.pending = s.loop.pending →
      loop.isDraining = s.loop.isDraining → Moves s .quiet { s with loop := loop } :=
    fun loop => Moves.turn loop hrunning
  unfold State.stepLoop at h
  unfold State.loopEvent
  cases hloop : s.loop with
  | entry =>
      simp only [hloop, Option.some.injEq] at h
      subst h
      dsimp only
      split
      · exact .drain hrunning (by rw [hloop]; rfl)
      · exact hturn _ (by rw [hloop]; rfl) (by rw [hloop]; rfl)
  | checking =>
      simp only [hloop, Option.some.injEq] at h
      subst h
      dsimp only
      split
      · exact .drain hrunning (by rw [hloop]; rfl)
      · exact hturn _ (by rw [hloop]; rfl) (by rw [hloop]; rfl)
  | polling =>
      simp only [hloop] at h
      split at h
      · cases h
        exact hturn _ (by rw [hloop]; rfl) (by rw [hloop]; rfl)
      · cases h
        exact .drain hrunning (by rw [hloop]; rfl)
      · cases h
        exact hturn _ (by rw [hloop]; rfl) (by rw [hloop]; rfl)
  | batch events =>
      cases events with
      | nil =>
          simp only [hloop, Option.some.injEq] at h
          subst h
          exact hturn _ (by rw [hloop]; rfl) (by rw [hloop]; rfl)
      | cons fd rest =>
          simp only [hloop, Option.some.injEq] at h
          subst h
          dsimp only
          apply hturn
          · rw [hloop]
            split <;> rfl
          · rw [hloop]
            split <;> rfl
  | plain fd rest =>
      simp only [hloop, Option.some.injEq] at h
      subst h
      dsimp only
      apply hturn
      · rw [hloop]
        split <;> rfl
      · rw [hloop]
        split <;> rfl
  | accepting fd rest =>
      simp only [hloop] at h
      split at h
      · cases h
        exact hturn _ (by rw [hloop]; rfl) (by rw [hloop]; rfl)
      · cases h
        exact hturn _ (by rw [hloop]; rfl) (by rw [hloop]; rfl)
      · cases h
        exact .drain hrunning (by rw [hloop]; rfl)
      · split at h
        · cases h
        · rename_i hfresh
          cases h
          exact .spawn _ _ hrunning (by rw [hloop]; rfl) ⟨rfl, by rw [hloop]; rfl⟩ hfresh
  | lookup fd rest =>
      simp only [hloop] at h
      split at h
      · rename_i hfind
        cases h
        simp only [hfind]
        exact hturn _ (by rw [hloop]; rfl) (by rw [hloop]; rfl)
      · rename_i r hfind
        simp only [hfind]
        have hfd : r.fd = fd := by simpa using List.find?_some hfind
        subst hfd
        obtain ⟨c, wait, id, hc, hpc, rfl⟩ := moves_of_resume (s := s) h rfl
        exact .dispatch r c wait id rest hrunning (by rw [hloop]; rfl)
          (List.mem_of_find?_eq_some hfind) hc hpc
  | draining pending =>
      cases pending with
      | nil =>
          simp only [hloop, Option.some.injEq] at h
          subst h
          exact hturn _ (by rw [hloop]; rfl) (by rw [hloop]; rfl)
      | cons r rest =>
          simp only [hloop] at h
          obtain ⟨c, wait, id, hc, hpc, rfl⟩ := moves_of_resume (s := s) h rfl
          exact .replay r c wait id rest hrunning hloop hc hpc
  | returned => simp [hloop] at h

theorem moves_of_stepCoroutine {s s' : State} {inp : Input} {i : Nat} {c : Coroutine}
    (hrunning : s.running = some i) (hc : s.coroutines[i]? = some c)
    (h : s.stepCoroutine inp i c = some s') : Moves s (s.coroutineEvent inp i c) s' := by
  -- Most steps only move on and open no descriptor.
  have hmove : ∀ pc : CoroutinePc, c.pc.isActive = true → c.pc.waitsFor? = none →
      pc ∈ [.head, .checkingAdd .read, .checkingAdd .write, .reading, .decoding, .sending,
        .closing] → Moves s .quiet (s.move i c pc) := by
    intro pc hactive hwaits hpc
    simp only [List.mem_cons, List.not_mem_nil, or_false] at hpc
    rcases hpc with rfl | rfl | rfl | rfl | rfl | rfl | rfl <;>
      exact .move i c _ hrunning hc hactive hwaits rfl rfl (by simp [CoroutinePc.completionFd?])
        (by simp)
  have hrefused : ∀ wait : Wait, c.pc.isActive = true → c.pc.waitsFor? = none →
      Moves s .quiet (s.move i c wait.refused) := by
    intro wait hactive hwaits
    cases wait with
    | read => exact hmove .closing hactive hwaits (by simp)
    | write => exact hmove .closing hactive hwaits (by simp)
    | dispatch fd => exact hmove .sending hactive hwaits (by simp)
  unfold State.stepCoroutine at h
  unfold State.coroutineEvent
  cases hpc : c.pc with
  | head =>
      simp only [hpc, Option.some.injEq] at h
      subst h
      dsimp only
      split
      · exact hmove .closing (by rw [hpc]; rfl) (by rw [hpc]; rfl) (by simp)
      · exact hmove (.checkingAdd .read) (by rw [hpc]; rfl) (by rw [hpc]; rfl) (by simp)
  | checkingAdd wait =>
      simp only [hpc, Option.some.injEq] at h
      subst h
      dsimp only
      split
      · exact hrefused wait (by rw [hpc]; rfl) (by rw [hpc]; rfl)
      · rename_i hstop
        refine .move i c (.adding wait) hrunning hc (by rw [hpc]; rfl) (by rw [hpc]; rfl) rfl rfl
          ?_ fun _ _ => by simpa using hstop
        intro fd hfd
        rw [hpc]
        cases wait with
        | read => cases hfd
        | write => cases hfd
        | dispatch fd' => exact .inl hfd
  | adding wait =>
      simp only [hpc] at h
      dsimp only
      split at h
      · rename_i hadds
        cases h
        rw [if_pos hadds]
        exact .register i c wait hrunning hc hpc
      · rename_i hadds
        cases h
        rw [if_neg hadds]
        exact hrefused wait (by rw [hpc]; rfl) (by rw [hpc]; rfl)
  | enqueueing id completionFd =>
      simp only [hpc] at h
      dsimp only
      split at h
      · rename_i henqueued
        cases h
        rw [if_pos henqueued]
        exact .suspend i c id completionFd hrunning hc hpc
      · rename_i henqueued
        cases h
        rw [if_neg henqueued]
        exact .withdraw i c id completionFd hrunning hc hpc
  | suspended wait id => simp [hpc] at h
  | resumed wait =>
      cases wait with
      | read =>
          simp only [hpc, Option.some.injEq] at h
          subst h
          dsimp only
          split
          · exact hmove .closing (by rw [hpc]; rfl) (by rw [hpc]; rfl) (by simp)
          · exact hmove .reading (by rw [hpc]; rfl) (by rw [hpc]; rfl) (by simp)
      | write =>
          simp only [hpc, Option.some.injEq] at h
          subst h
          dsimp only
          split
          · exact hmove .closing (by rw [hpc]; rfl) (by rw [hpc]; rfl) (by simp)
          · exact hmove .sending (by rw [hpc]; rfl) (by rw [hpc]; rfl) (by simp)
      | dispatch fd =>
          simp only [hpc, Option.some.injEq] at h
          subst h
          exact hmove .sending (by rw [hpc]; rfl) (by rw [hpc]; rfl) (by simp)
  | reading =>
      simp only [hpc] at h
      split at h
      · cases h
        exact hmove .head (by rw [hpc]; rfl) (by rw [hpc]; rfl) (by simp)
      · cases h
        exact hmove .closing (by rw [hpc]; rfl) (by rw [hpc]; rfl) (by simp)
      · cases h
        exact hmove .decoding (by rw [hpc]; rfl) (by rw [hpc]; rfl) (by simp)
  | decoding =>
      simp only [hpc] at h
      split at h
      · cases h
        exact hmove .head (by rw [hpc]; rfl) (by rw [hpc]; rfl) (by simp)
      · cases h
        exact hmove .closing (by rw [hpc]; rfl) (by rw [hpc]; rfl) (by simp)
      · cases h
        exact hmove .sending (by rw [hpc]; rfl) (by rw [hpc]; rfl) (by simp)
      · rename_i completionFd _
        split at h
        · cases h
        · rename_i hfresh
          cases h
          refine .move i c (.checkingAdd (.dispatch completionFd)) hrunning hc (by rw [hpc]; rfl)
            (by rw [hpc]; rfl) rfl rfl ?_ nofun
          intro fd hfd
          cases hfd
          exact .inr hfresh
  | sending =>
      simp only [hpc] at h
      split at h
      · cases h
        exact hmove .decoding (by rw [hpc]; rfl) (by rw [hpc]; rfl) (by simp)
      · cases h
        exact hmove (.checkingAdd .write) (by rw [hpc]; rfl) (by rw [hpc]; rfl) (by simp)
      · cases h
        exact hmove .closing (by rw [hpc]; rfl) (by rw [hpc]; rfl) (by simp)
  | closing =>
      simp only [hpc, Option.some.injEq] at h
      subst h
      exact .close i c hrunning hc hpc
  | finished => simp [hpc] at h

/-- The inversion of a step. -/
theorem moves_of_step {τ : LoopTransition} (hstep : step τ.pre τ.action = some τ.post) :
    Moves τ.pre (event τ.pre τ.action) τ.post := by
  cases haction : τ.action with
  | stop =>
      rw [haction] at hstep
      rw [← Option.some.inj hstep]
      exact .stop
  | advance inp =>
      rw [haction, step] at hstep
      rw [event]
      cases hrunning : τ.pre.running with
      | none =>
          rw [hrunning] at hstep
          exact moves_of_stepLoop hrunning hstep
      | some i =>
          rw [hrunning] at hstep
          obtain ⟨c, hc, hnext⟩ := Option.bind_eq_some_iff.mp hstep
          simp only [hc, Option.map_some, Option.getD_some]
          exact moves_of_stepCoroutine hrunning hc hnext

end EpollLoop
end Corpcron
