import Corpcron.Net.EpollDrain
import Corpcron.Net.TcpServer

/-!
# Sockets and frames of the connections

The books of the server: every accepted connection is closed once, or still held
by its coroutine, or lost by an exception (`Accounted`), and every frame is
destroyed once, by `Task::spawn` or by the final suspension (`Framed`).  With
what is known about the drain of the event loop this gives what is left when
`run` returns.
-/

namespace Corpcron
namespace TcpServer

open Lib EpollLoop

/-! ## The books -/

section Served

variable {clients : List (Option Nat)} {connections : List Nat} {i fd connection : Nat}

theorem served_concat (hlength : clients.length = connections.length) :
    served (clients ++ [some fd]) (connections ++ [connection]) =
      served clients connections ++ [connection] := by
  rw [served, List.zip_append hlength, List.filterMap_append]
  rfl

theorem served_set_none (hclient : clients[i]? = some (some fd))
    (hconnection : connections[i]? = some connection) :
    (served clients connections).Perm (connection :: served (clients.set i none) connections) := by
  have hzip : (clients.zip connections)[i]? = some (some fd, connection) :=
    List.getElem?_zip_eq_some.mpr ⟨hclient, hconnection⟩
  have hset : (clients.set i none).zip connections =
      (clients.zip connections).set i (none, connection) := by
    rw [← zip_set, thread_set_same hconnection]
  rw [served, served, hset]
  exact filterMap_set_lost hzip rfl rfl

theorem map_connection_setFrame (s : State) (i : Nat) (f : Frame → Frame) :
    (s.setFrame i f).handlers.map Handler.connection = s.handlers.map Handler.connection := by
  refine List.ext_getElem? fun j => ?_
  rw [List.getElem?_map, List.getElem?_map]
  change ((s.handlers.modify i _)[j]?).map _ = _
  rw [List.getElem?_modify]
  cases s.handlers[j]? with
  | none => rfl
  | some h =>
      simp only [Option.map_some, Functor.map]
      split <;> rfl

end Served

theorem perm_insert {all front back : List (Option Nat)} (h : (front ++ back).Perm all)
    (x : Option Nat) : (front ++ x :: back).Perm (all ++ [x]) :=
  List.perm_middle.trans ((h.cons x).trans (List.perm_append_singleton x all).symm)

theorem toNat_add_one_of_lt {a b : UInt64} (h : a < b) : (a + 1).toNat = a.toNat + 1 := by
  have hlt : a.toNat < b.toNat := UInt64.lt_iff_toNat_lt.mp h
  have hbound := b.toNat_lt
  rw [UInt64.toNat_add]
  exact Nat.mod_eq_of_lt (by rw [UInt64.toNat_one]; omega)

theorem add_one_le_of_lt {a b : UInt64} (h : a < b) : a + 1 ≤ b := by
  rw [UInt64.le_iff_toNat_le, toNat_add_one_of_lt h]
  exact UInt64.lt_iff_toNat_lt.mp h

theorem toNat_sub_one_of_pos {a : UInt64} (h : 0 < a.toNat) : (a - 1).toNat = a.toNat - 1 :=
  UInt64.toNat_sub_of_le _ _ (UInt64.le_iff_toNat_le.mpr h)

/-- No two coroutines hold the same socket. -/
theorem client_unique {loop : EpollLoop.State} (h : Sound loop) {i j fd : Nat}
    (hi : (clients loop)[i]? = some (some fd)) (hj : (clients loop)[j]? = some (some fd)) :
    i = j := by
  have hopen : ∀ {k : Nat}, (clients loop)[k]? = some (some fd) →
      ∃ c, loop.coroutines[k]? = some c ∧ fd ∈ c.fds := by
    intro k hk
    rw [clients, List.getElem?_map] at hk
    obtain ⟨c, hc, hclient⟩ := Option.map_eq_some_iff.mp hk
    unfold client? at hclient
    split at hclient
    · cases hclient
    · rename_i hpc
      cases hclient
      refine ⟨c, hc, ?_⟩
      rw [Coroutine.fds, if_neg hpc]
      exact List.mem_cons_self
  obtain ⟨c, hc, hfd⟩ := hopen hi
  obtain ⟨c', hc', hfd'⟩ := hopen hj
  exact h.own_fds i j c c' fd hc hc' hfd hfd'

/-- Every connection that was accepted has been closed once, or is being served
or abandoned, and the counters count the last two. -/
structure Accounted (s : State) : Prop where
  length : (clients s.loop).length = s.handlers.length
  held : ∀ (i fd connection : Nat), (clients s.loop)[i]? = some (some fd) →
    (s.handlers.map Handler.connection)[i]? = some connection → s.sockets fd = some connection
  balance : (s.closed ++ (s.serving ++ s.abandoned.map Abandoned.connection).map some).Perm
    ((List.range s.accepted).map some)
  active : s.activeConnections.toNat = s.serving.length + s.abandoned.countP Abandoned.counted
  gauge : s.activeGauge = s.activeConnections
  bounded : s.activeConnections ≤ s.maxConnections

theorem accounted_built (maxConnections : UInt64) (wakeFd listenFd : Nat) :
    Accounted (State.built maxConnections wakeFd listenFd) where
  length := rfl
  held := by simp [State.built, clients, EpollLoop.State.built]
  balance := .nil
  active := rfl
  gauge := rfl
  bounded := UInt64.zero_le

namespace Accounted

variable {s s₁ s' : State}

/-- A new descriptor is none of those that are held. -/
theorem held_update (h : Accounted s) {fd₀ : Nat} (hfresh : s.sockets fd₀ = none)
    (x : Option Nat) {i fd connection : Nat} (hclient : (clients s.loop)[i]? = some (some fd))
    (hconnection : (s.handlers.map Handler.connection)[i]? = some connection) :
    Function.update s.sockets fd₀ x fd = some connection := by
  have hold := h.held i fd connection hclient hconnection
  have hne : fd ≠ fd₀ := by
    rintro rfl
    rw [hfresh] at hold
    cases hold
  rw [Function.update_of_ne hne]
  exact hold

theorem map_range_succ (n : Nat) :
    (List.range (n + 1)).map some = (List.range n).map some ++ [some n] := by
  rw [List.range_succ, List.map_append, List.map_singleton]

theorem balance_abandoned (h : Accounted s) (counted : Bool) :
    (s.closed ++ (s.serving ++
      (s.abandon s.accepted counted).abandoned.map Abandoned.connection).map some).Perm
      ((List.range (s.accepted + 1)).map some) := by
  rw [map_range_succ, State.abandon, List.map_append (f := Abandoned.connection),
    ← List.append_assoc s.serving, List.map_append, ← List.append_assoc]
  refine perm_insert ?_ _
  rw [List.map_nil, List.map_nil, List.append_nil]
  exact h.balance

theorem balance_started (h : Accounted s) :
    (s.closed ++ (s.serving ++ [s.accepted] ++
      s.abandoned.map Abandoned.connection).map some).Perm
      ((List.range (s.accepted + 1)).map some) := by
  rw [map_range_succ, List.append_assoc, List.map_append, ← List.append_assoc]
  refine perm_insert ?_ _
  rw [List.append_assoc, ← List.map_append]
  exact h.balance

/-- The coroutines are as they were. -/
theorem turn (h : Accounted s) {loop : EpollLoop.State} (hclients : clients loop = clients s.loop) :
    Accounted { s with loop := loop } := by
  have hserving : State.serving { s with loop := loop } = s.serving := by
    rw [State.serving, hclients]
    rfl
  refine ⟨hclients ▸ h.length, hclients ▸ h.held, ?_, ?_, h.gauge, h.bounded⟩
  · rw [hserving]
    exact h.balance
  · rw [hserving]
    exact h.active

/-- A connection that is accepted and closed on the spot. -/
theorem acceptClose (h : Accounted s) {fd : Nat} (hfresh : s.sockets fd = none) :
    Accounted ((s.accept fd).close fd) := by
  refine ⟨h.length, fun i fd' connection hclient hconnection => ?_, ?_, h.active, h.gauge,
    h.bounded⟩
  · change Function.update (Function.update s.sockets fd _) fd none fd' = _
    rw [Function.update_idem]
    exact h.held_update hfresh none hclient hconnection
  · change (s.closed ++ [Function.update s.sockets fd (some s.accepted) fd] ++ _).Perm
      ((List.range (s.accepted + 1)).map some)
    rw [Function.update_self, List.append_assoc, map_range_succ]
    exact perm_insert h.balance _

/-- `handleAccept` keeps the books, whichever way it takes. -/
theorem accept (h : Accounted s) {result : AcceptResult} (haccepts : Accepts s result s₁)
    {loop : EpollLoop.State} (hclients : clients loop = clients s.loop ++ startedFor result) :
    Accounted { s₁ with loop := loop } := by
  -- No way out but the last starts a coroutine.
  have hsame : startedFor result = [] → clients loop = clients s.loop := by
    intro hnone
    rw [hclients, hnone, List.append_nil]
  cases haccepts with
  | none => exact h.turn (hsame rfl)
  | interrupted => exact h.turn (hsame rfl)
  | turnedAway fd hfresh _ =>
      have hclosed := h.acceptClose hfresh
      refine turn (s := (s.accept fd).countRejected.close fd) ?_ (hsame rfl)
      exact ⟨hclosed.length, hclosed.held, hclosed.balance, hclosed.active, hclosed.gauge,
        hclosed.bounded⟩
  | noFrame fd hfresh _ =>
      -- The connection is counted in and out.
      have hcount : ((s.accept fd).countIn.close fd).countOut = (s.accept fd).close fd := by
        simp [State.countIn, State.close, State.countOut]
      rw [hcount]
      exact (h.acceptClose hfresh).turn (hsame rfl)
  | abandoned fd hfresh _ =>
      refine turn (s := (s.accept fd).abandon s.accepted false) ?_ (hsame rfl)
      refine ⟨h.length, ?_, h.balance_abandoned false, ?_, h.gauge, h.bounded⟩
      · intro i fd' connection hclient hconnection
        exact h.held_update hfresh _ hclient hconnection
      · change _ = _ + (s.abandoned ++ [_]).countP _
        rw [List.countP_append]
        exact h.active
  | abandonedCounted fd hfresh hroom =>
      refine turn (s := (s.accept fd).countIn.abandon s.accepted true) ?_ (hsame rfl)
      refine ⟨h.length, ?_, h.balance_abandoned true, ?_, congrArg (· + 1) h.gauge,
        add_one_le_of_lt hroom⟩
      · intro i fd' connection hclient hconnection
        exact h.held_update hfresh _ hclient hconnection
      · change (s.activeConnections + 1).toNat = s.serving.length + (s.abandoned ++ [_]).countP _
        rw [toNat_add_one_of_lt hroom, List.countP_append, h.active]
        rfl
  | started fd hfresh hroom =>
      have hserving : State.serving { (s.accept fd).countIn.startHandler s.accepted with
          loop := loop } = s.serving ++ [s.accepted] := by
        change served (clients loop) ((s.handlers ++ [_]).map Handler.connection) = _
        rw [hclients, List.map_append]
        refine served_concat ?_
        rw [h.length, List.length_map]
      refine ⟨?_, ?_, ?_, ?_, congrArg (· + 1) h.gauge, add_one_le_of_lt hroom⟩
      · change (clients loop).length = (s.handlers ++ [_]).length
        rw [hclients, List.length_append, List.length_append, h.length]
        rfl
      · intro i fd' connection hclient hconnection
        change (clients loop)[i]? = _ at hclient
        change ((s.handlers ++ [_]).map Handler.connection)[i]? = _ at hconnection
        change Function.update s.sockets fd (some s.accepted) fd' = _
        rw [hclients] at hclient
        rw [List.map_append] at hconnection
        -- One of the old coroutines, or the new one.
        rcases thread_concat_cases (clients s.loop) i (some fd) with hold | ⟨hi, -, hnew⟩
        · have hlt : i < (clients s.loop).length := by
            rw [startedFor, hold] at hclient
            exact (List.getElem?_eq_some_iff.mp hclient).1
          rw [startedFor, hold] at hclient
          rw [List.getElem?_append_left (by rw [List.length_map, ← h.length]; exact hlt)]
            at hconnection
          exact h.held_update hfresh _ hclient hconnection
        · rw [startedFor, hnew, Option.some.injEq, Option.some.injEq] at hclient
          rw [hi, h.length, ← List.length_map (f := Handler.connection)] at hconnection
          rw [← hclient, Function.update_self]
          have hlast := List.getElem?_concat_length
            (l := s.handlers.map Handler.connection) (a := s.accepted)
          exact hlast.symm.trans hconnection
      · rw [hserving]
        exact h.balance_started
      · rw [hserving, List.length_append]
        change (s.activeConnections + 1).toNat = s.serving.length + 1 + s.abandoned.countP _
        rw [toNat_add_one_of_lt hroom, h.active]
        omega

theorem setFrame (h : Accounted s) (i : Nat) (f : Frame → Frame) : Accounted (s.setFrame i f) := by
  have hconnections := map_connection_setFrame s i f
  have hserving : (s.setFrame i f).serving = s.serving := congrArg (served _) hconnections
  refine ⟨?_, ?_, hserving ▸ h.balance, hserving ▸ h.active, h.gauge, h.bounded⟩
  · have hlength := congrArg List.length hconnections
    rw [List.length_map, List.length_map] at hlength
    rw [hlength]
    exact h.length
  · rw [hconnections]
    exact h.held

/-- The destructor of a connection guard keeps the books: its socket is held by
no other coroutine. -/
theorem endHandler (h : Accounted s) (hsound : Sound s.loop) {i fd : Nat}
    {loop : EpollLoop.State} (hclient : (clients s.loop)[i]? = some (some fd))
    (hclients : clients loop = (clients s.loop).set i none) :
    Accounted ({ s with loop := loop }.endHandler i fd) := by
  refine setFrame ?_ i State.finalSuspend
  have hlt : i < s.handlers.length := h.length ▸ (List.getElem?_eq_some_iff.mp hclient).1
  have hconnection : (s.handlers.map Handler.connection)[i]? = some s.handlers[i].connection := by
    rw [List.getElem?_map, List.getElem?_eq_getElem hlt]
    rfl
  have hsocket := h.held i fd _ hclient hconnection
  have hperm := served_set_none hclient hconnection
  have hserving : State.serving { s with loop := loop } =
      served ((clients s.loop).set i none) (s.handlers.map Handler.connection) := by
    rw [State.serving, hclients]
  rw [← hserving] at hperm
  have hactive := h.active
  rw [State.serving, hperm.length_eq, List.length_cons] at hactive
  have hsub := toNat_sub_one_of_pos (a := s.activeConnections) (by omega)
  refine ⟨?_, ?_, ?_, ?_, congrArg (· - 1) h.gauge, ?_⟩
  · change (clients loop).length = s.handlers.length
    rw [hclients, List.length_set]
    exact h.length
  · intro j fd' connection hclient' hconnection'
    change (clients loop)[j]? = _ at hclient'
    rw [hclients] at hclient'
    rcases thread_of_set hclient' with ⟨-, hnone⟩ | ⟨hj, hclient'⟩
    · cases hnone
    · have hne : fd' ≠ fd := by
        rintro rfl
        exact hj (client_unique hsound hclient' hclient)
      change Function.update s.sockets fd none fd' = _
      rw [Function.update_of_ne hne]
      exact h.held j fd' connection hclient' hconnection'
  · change (s.closed ++ [s.sockets fd] ++ (State.serving { s with loop := loop } ++
      s.abandoned.map Abandoned.connection).map some).Perm _
    rw [hsocket, List.append_assoc]
    refine List.Perm.trans ?_ h.balance
    exact (((hperm.append_right _).map some).append_left s.closed).symm
  · change (s.activeConnections - 1).toNat =
      (State.serving { s with loop := loop }).length + s.abandoned.countP _
    omega
  · change s.activeConnections - 1 ≤ s.maxConnections
    have hbounded := UInt64.le_iff_toNat_le.mp h.bounded
    rw [UInt64.le_iff_toNat_le]
    omega

theorem of_moves (h : Accounted s) (hsound : Sound s.loop) (hmoves : Moves s s') :
    Accounted s' := by
  cases hmoves with
  | turn loop hclients _ => exact h.turn hclients
  | accept result s₁ loop _ haccepts hclients _ => exact h.accept haccepts hclients
  | spawned i client _ _ =>
      have hframe := h.setFrame i (State.spawned client.isNone)
      exact ⟨hframe.length, hframe.held, hframe.balance, hframe.active, hframe.gauge,
        hframe.bounded⟩
  | ended i fd loop hclient hclients _ => exact h.endHandler hsound hclient hclients

end Accounted

/-! ## Frames -/

/-- The frame of a coroutine is untouched until `Task::spawn` has returned, then
detached and alive until the coroutine ends, and then destroyed once. -/
def Frame.Fits (frame : Frame) (spawning : Bool) (client : Option Nat) : Prop :=
  if spawning then frame = ⟨false, 0⟩
  else if client.isSome then frame = ⟨true, 0⟩
  else frame.destroyed = 1

structure Framed (s : State) : Prop where
  started : ∀ i, s.spawning = some i → s.loop.loop.isDraining = false
  fits : ∀ (i : Nat) (client : Option Nat) (h : Handler), (clients s.loop)[i]? = some client →
    s.handlers[i]? = some h → h.frame.Fits (s.spawning == some i) client

theorem framed_built (maxConnections : UInt64) (wakeFd listenFd : Nat) :
    Framed (State.built maxConnections wakeFd listenFd) := by
  refine ⟨?_, ?_⟩ <;> simp [State.built]

section Frames

variable {s s₁ s' : State} {i j : Nat} {h : Handler}

theorem handler_of_setFrame {f : Frame → Frame} (hj : (s.setFrame i f).handlers[j]? = some h) :
    ∃ h₀, s.handlers[j]? = some h₀ ∧ h.frame = if i = j then f h₀.frame else h₀.frame := by
  change (s.handlers.modify i _)[j]? = some h at hj
  rw [List.getElem?_modify] at hj
  obtain ⟨h₀, hh₀, rfl⟩ := Option.map_eq_some_iff.mp hj
  refine ⟨h₀, hh₀, ?_⟩
  split <;> rfl

/-- Either nothing is started, or one coroutine. -/
theorem handlers_of_accepts {result : AcceptResult} (haccepts : Accepts s result s₁) :
    (startedFor result = [] ∧ s₁.handlers = s.handlers ∧ s₁.spawning = s.spawning) ∨
      ∃ fd, startedFor result = [some fd] ∧
        s₁.handlers = s.handlers ++ [⟨s.accepted, ⟨false, 0⟩⟩] ∧
        s₁.spawning = some s.handlers.length := by
  cases haccepts with
  | started fd _ _ => exact .inr ⟨fd, rfl, rfl, rfl⟩
  | _ => exact .inl ⟨rfl, rfl, rfl⟩

namespace Framed

/-- The frames are as they were. -/
theorem congr (h : Framed s) (hhandlers : s'.handlers = s.handlers)
    (hspawning : s'.spawning = s.spawning) (hclients : clients s'.loop = clients s.loop)
    (hloop : s.spawning = none ∨ s'.loop.loop = s.loop.loop) : Framed s' := by
  refine ⟨fun i hi => ?_, ?_⟩
  · rw [hspawning] at hi
    rcases hloop with hnone | hsame
    · rw [hnone] at hi
      cases hi
    · rw [hsame]
      exact h.started i hi
  · rw [hhandlers, hspawning, hclients]
    exact h.fits

/-- A coroutine is started; the others are all detached or at their end. -/
theorem start (h : Framed s) (hspawning : s.spawning = none) {fd connection : Nat}
    (hlength : (clients s.loop).length = s.handlers.length)
    (hhandlers : s'.handlers = s.handlers ++ [⟨connection, ⟨false, 0⟩⟩])
    (hspawning' : s'.spawning = some s.handlers.length)
    (hclients : clients s'.loop = clients s.loop ++ [some fd])
    (hdraining : s'.loop.loop.isDraining = false) : Framed s' := by
  refine ⟨fun _ _ => hdraining, fun j client handler hclient hhandler => ?_⟩
  rw [hclients] at hclient
  rw [hhandlers] at hhandler
  rcases thread_concat_cases s.handlers j ⟨connection, ⟨false, 0⟩⟩ with hsame | ⟨rfl, -, hnew⟩
  · -- A coroutine that was there before.
    rw [hsame] at hhandler
    have hlt := (List.getElem?_eq_some_iff.mp hhandler).1
    rw [List.getElem?_append_left (hlength ▸ hlt)] at hclient
    have hfits := h.fits j client handler hclient hhandler
    rw [hspawning] at hfits
    have hne : (s'.spawning == some j) = false := by
      rw [hspawning']
      exact beq_false_of_ne fun heq => absurd hlt (by simp [Option.some.inj heq])
    rw [hne]
    exact hfits
  · rw [hnew, Option.some.injEq] at hhandler
    rw [hspawning', beq_self_eq_true, ← hhandler]
    rfl

/-- `Task::spawn` returns: it destroys the frame of a coroutine that has ended
and detaches any other. -/
theorem spawned (h : Framed s) {client : Option Nat} (hspawning : s.spawning = some i)
    (hclient : (clients s.loop)[i]? = some client) :
    Framed { s.setFrame i (State.spawned client.isNone) with spawning := none } := by
  refine ⟨by simp, fun j client' handler hclient' hhandler => ?_⟩
  obtain ⟨h₀, hh₀, hframe⟩ := handler_of_setFrame hhandler
  have hfits := h.fits j client' h₀ hclient' hh₀
  rw [hspawning] at hfits
  rw [hframe]
  by_cases hij : i = j
  · subst hij
    obtain rfl : client = client' := Option.some.inj (hclient.symm.trans hclient')
    rw [beq_self_eq_true] at hfits
    rw [if_pos rfl, show h₀.frame = ⟨false, 0⟩ from hfits]
    cases client <;> rfl
  · rw [beq_false_of_ne (by simpa using hij)] at hfits
    rw [if_neg hij]
    exact hfits

/-- A coroutine ends: its frame is destroyed unless `Task::spawn` is still to
look at it. -/
theorem ended (h : Framed s) {fd : Nat} {loop : EpollLoop.State}
    (hclient : (clients s.loop)[i]? = some (some fd))
    (hclients : clients loop = (clients s.loop).set i none) (hloop : loop.loop = s.loop.loop) :
    Framed ({ s with loop := loop }.endHandler i fd) := by
  refine ⟨fun j hj => ?_, fun j client handler hclient' hhandler => ?_⟩
  · change loop.loop.isDraining = false
    rw [hloop]
    exact h.started j hj
  obtain ⟨h₀, hh₀, hframe⟩ := handler_of_setFrame hhandler
  change (clients loop)[j]? = _ at hclient'
  change handler.frame.Fits (s.spawning == some j) client
  rw [hclients] at hclient'
  rw [hframe]
  rcases thread_of_set hclient' with ⟨rfl, hnone⟩ | ⟨hne, hold⟩
  · have hfits := h.fits j (some fd) h₀ hclient hh₀
    rw [if_pos rfl, hnone]
    cases hspawning : s.spawning == some j with
    | true =>
        rw [hspawning] at hfits
        rw [show h₀.frame = ⟨false, 0⟩ from hfits]
        rfl
    | false =>
        rw [hspawning] at hfits
        rw [show h₀.frame = ⟨true, 0⟩ from hfits]
        rfl
  · rw [if_neg (Ne.symm hne)]
    exact h.fits j client h₀ hold hh₀

theorem of_moves (h : Framed s) (hlength : (clients s.loop).length = s.handlers.length)
    (hmoves : Moves s s') : Framed s' := by
  cases hmoves with
  | turn loop hclients hloop => exact h.congr rfl rfl hclients hloop
  | accept result s₁ loop hspawning haccepts hclients hdraining =>
      rcases handlers_of_accepts haccepts with ⟨hnone, hhandlers, hsame⟩ | ⟨fd, hfd, hhandlers, hi⟩
      · rw [hnone, List.append_nil] at hclients
        exact h.congr hhandlers hsame hclients (.inl hspawning)
      · rw [hfd] at hclients hdraining
        exact h.start hspawning hlength hhandlers hi hclients (hdraining.resolve_left (by simp))
  | spawned i client hspawning hclient => exact h.spawned hspawning hclient
  | ended i fd loop hclient hclients hloop => exact h.ended hclient hclients hloop

end Framed

end Frames

theorem maxConnections_of_moves {s s' : State} (hmoves : Moves s s') :
    s'.maxConnections = s.maxConnections := by
  cases hmoves with
  | accept result s₁ loop _ haccepts _ _ => cases haccepts <;> rfl
  | _ => rfl

section Runs

variable {maxConnections : UInt64} {wakeFd listenFd : Nat} {trace : List ServerTransition}
  {s : State}

theorem sound_of_run (hrun : Run step (State.built maxConnections wakeFd listenFd) trace s) :
    Sound s.loop := (conserved_of_run (loop_run hrun)).sound

theorem accounted_of_run (hrun : Run step (State.built maxConnections wakeFd listenFd) trace s) :
    Accounted s := by
  apply hrun.history_invariant (P := fun _ s => Accounted s)
  · exact accounted_built maxConnections wakeFd listenFd
  · intro earlier τ _ hearlier hstep h
    exact h.of_moves (sound_of_run hearlier) (moves_of_step hstep)

theorem framed_of_run (hrun : Run step (State.built maxConnections wakeFd listenFd) trace s) :
    Framed s := by
  apply hrun.history_invariant (P := fun _ s => Framed s)
  · exact framed_built maxConnections wakeFd listenFd
  · intro earlier τ _ hearlier hstep h
    exact h.of_moves (accounted_of_run hearlier).length (moves_of_step hstep)

theorem maxConnections_of_run
    (hrun : Run step (State.built maxConnections wakeFd listenFd) trace s) :
    s.maxConnections = maxConnections := by
  refine hrun.invariant (P := fun s => s.maxConnections = maxConnections) rfl ?_
  intro τ _ hstep h
  exact (maxConnections_of_moves (moves_of_step hstep)).trans h

/-- The step leaves the loop of `run`. -/
def LeavesLoop (τ : ServerTransition) : Prop :=
  τ.pre.loop.loop.isDraining = false ∧ τ.post.loop.loop.isDraining = true

/-- When `stop()` has ended the loop and `run` has returned, all coroutines have
ended. -/
theorem clients_of_stop (hrun : Run step (State.built maxConnections wakeFd listenFd) trace s)
    (hreturned : s.loop.loop = .returned)
    (hstop : ∀ τ ∈ trace, LeavesLoop τ → τ.pre.loop.stopRequested = true) :
    ∀ client ∈ clients s.loop, client = none := by
  have hloop := loop_run hrun
  have hstop' : ∀ τ ∈ trace.filterMap project, BeginsDrain τ → τ.pre.stopRequested = true := by
    intro τ' hτ' hleaves
    obtain ⟨τ, hτ, hproject⟩ := List.mem_filterMap.mp hτ'
    obtain ⟨b, -, rfl⟩ := Option.map_eq_some_iff.mp hproject
    exact hstop τ hτ hleaves
  have hempty : s.loop.coroCallbacks = [] := by
    rw [List.eq_nil_iff_forall_not_mem]
    intro r hr
    have hdraining : s.loop.loop.isDraining = true := by
      rw [hreturned]
      rfl
    have hmem := ((callbacks_perm_of_run hloop).2 hdraining).1 r hr
    rw [acceptedInDrain_of_stop hloop hstop'] at hmem
    cases hmem
  have hfinished := (callbacks_eq_nil_iff (sound_of_run hrun) hreturned).mp hempty
  intro client hclient
  obtain ⟨c, hc, rfl⟩ := List.mem_map.mp hclient
  exact if_pos (hfinished c hc)

end Runs

theorem served_eq_nil {clients : List (Option Nat)} {connections : List Nat}
    (h : ∀ client ∈ clients, client = none) : served clients connections = [] := by
  refine List.filterMap_eq_nil_iff.mpr ?_
  rintro ⟨client, connection⟩ hmem
  rw [h client (List.of_mem_zip hmem).1]
  rfl

/-- For every run of the server, with clients and `stop()` at any moment: the
number of active connections is that of the connections that are served or were
counted and then abandoned; it never wraps around and never exceeds the limit,
and the metric shows it.  Of the accepted connections each one has been closed
exactly once, or is being served, or has been abandoned, and `close` is called
for nothing else.  When `stop()` has ended the loop and `run` has returned, no
connection is served; without an exception in `handleAccept` the count is then 0
and all connections are closed. -/
theorem connections_accounted (maxConnections : UInt64) (wakeFd listenFd : Nat)
    (trace : List ServerTransition) (s : State)
    (hrun : Run step (State.built maxConnections wakeFd listenFd) trace s) :
    s.activeConnections.toNat = s.serving.length + s.abandoned.countP Abandoned.counted ∧
    s.activeConnections ≤ maxConnections ∧
    s.activeGauge = s.activeConnections ∧
    (s.closed ++ (s.serving ++ s.abandoned.map Abandoned.connection).map some).Perm
      ((List.range s.accepted).map some) ∧
    (s.loop.loop = .returned →
      (∀ τ ∈ trace, LeavesLoop τ → τ.pre.loop.stopRequested = true) →
      s.serving = [] ∧
      (s.abandoned = [] → s.activeConnections = 0 ∧
        s.closed.Perm ((List.range s.accepted).map some))) := by
  have haccounted := accounted_of_run hrun
  refine ⟨haccounted.active, maxConnections_of_run hrun ▸ haccounted.bounded, haccounted.gauge,
    haccounted.balance, fun hreturned hstop => ?_⟩
  have hserving : s.serving = [] := served_eq_nil (clients_of_stop hrun hreturned hstop)
  refine ⟨hserving, fun habandoned => ⟨?_, ?_⟩⟩
  · have hactive := haccounted.active
    rw [hserving, habandoned] at hactive
    exact UInt64.toNat_inj.mp hactive
  · have hbalance := haccounted.balance
    rw [hserving, habandoned, List.map_nil, List.append_nil, List.map_nil,
      List.append_nil] at hbalance
    exact hbalance

/-- Steps without anything special from outside. -/
def quiet (n : Nat) : List Action := List.replicate n (.advance {})

/-- One connection is served at a time: the second one is turned away, then
`stop()` ends the loop and the first one is closed. -/
def secondTurnedAway : List Action :=
  quiet 2 ++ [.advance { io := { poll := .ready [4] } }] ++ quiet 2 ++
    [.advance { incoming := .connection 7 .handler }] ++ quiet 5 ++
    [.advance { incoming := .connection 8 .handler }] ++ quiet 5 ++
    [.stop, .advance { io := { poll := .ready [3] } }] ++ quiet 9

theorem stops_secondTurnedAway : ∀ τ ∈ executeTrace step (State.built 1 3 4) secondTurnedAway,
    τ.pre.loop.loop.isDraining = false ∧ τ.post.loop.loop.isDraining = true →
      τ.pre.loop.stopRequested = true := by
  decide +kernel

theorem connections_accounted_turnedAway :
    ∃ trace s, Run step (State.built 1 3 4) trace s ∧ s.loop.loop = .returned ∧ s.accepted = 2 ∧
      s.rejectedConnections = 1 ∧ s.activeConnections = 0 ∧ s.closed.Perm [some 0, some 1] := by
  obtain ⟨s, hrun, hs⟩ : ∃ s, Run step (State.built 1 3 4)
      (executeTrace step (State.built 1 3 4) secondTurnedAway) s ∧
      decide (s.loop.loop = .returned ∧ s.accepted = 2 ∧ s.rejectedConnections = 1 ∧
        s.abandoned = []) = true :=
    exists_run_of_execute (by decide +kernel)
  obtain ⟨hreturned, haccepted, hrejected, habandoned⟩ := of_decide_eq_true hs
  obtain ⟨-, -, -, -, hend⟩ := connections_accounted 1 3 4 _ s hrun
  obtain ⟨hactive, hclosed⟩ := (hend hreturned stops_secondTurnedAway).2 habandoned
  rw [haccepted] at hclosed
  exact ⟨_, s, hrun, hreturned, haccepted, hrejected, hactive, hclosed⟩

/-- The loop only invokes a callback while no coroutine runs, and the callback is
that of a coroutine that has not ended. -/
theorem client_of_invoked {loop loop' : EpollLoop.State} {b : EpollLoop.Action} {r : Registration}
    (hstep : EpollLoop.step loop b = some loop') (h : event loop b = .invoked r) :
    loop.running = none ∧ ∃ fd, (clients loop)[r.coroutine]? = some (some fd) := by
  have hmoves : EpollLoop.Moves loop (event loop b) loop' :=
    EpollLoop.moves_of_step (τ := ⟨loop, b, loop'⟩) hstep
  have hclient : ∀ {c : Coroutine} {wait : Wait} {id : Nat},
      loop.coroutines[r.coroutine]? = some c → c.pc = .suspended wait id →
      ∃ fd, (clients loop)[r.coroutine]? = some (some fd) := by
    intro c wait id hc hpc
    refine ⟨c.fd, ?_⟩
    rw [clients, List.getElem?_map, hc]
    exact congrArg some (client?_of_ne (by simp [hpc]))
  rw [h] at hmoves
  cases hmoves with
  | dispatch _ c wait id rest hrunning _ _ hc hpc => exact ⟨hrunning, hclient hc hpc⟩
  | replay _ c wait id rest hrunning _ hc hpc => exact ⟨hrunning, hclient hc hpc⟩

/-- The loop goes on after `Task::spawn` has returned. -/
theorem spawning_of_loopAction {s : State} {a : Action} {b : EpollLoop.Action}
    (hb : s.loopAction? a = some b) (hrunning : s.loop.running = none) (hstop : b ≠ .stop) :
    s.spawning = none := by
  cases a with
  | stop => exact absurd (Option.some.inj hb).symm hstop
  | advance inp =>
      unfold State.loopAction? at hb
      simp only [hrunning] at hb
      cases hspawning : s.spawning with
      | none => rfl
      | some i => simp [hspawning] at hb

/-- For every run of the server: a frame is destroyed at most once; once
`Task::spawn` has returned, it is destroyed exactly if its coroutine has ended;
and the callbacks that the loop invokes only resume coroutines whose frames are
detached and not destroyed.  When `stop()` has ended the loop and `run` has
returned, every frame has been destroyed. -/
theorem frames_destroyed_once (maxConnections : UInt64) (wakeFd listenFd : Nat)
    (trace : List ServerTransition) (s : State)
    (hrun : Run step (State.built maxConnections wakeFd listenFd) trace s) :
    (∀ (i : Nat) (c : Coroutine) (h : Handler), s.loop.coroutines[i]? = some c →
      s.handlers[i]? = some h → h.frame.destroyed ≤ 1 ∧
        (s.spawning ≠ some i → (h.frame.destroyed = 1 ↔ c.pc = .finished))) ∧
    (∀ τ ∈ trace, ∀ b r, τ.pre.loopAction? τ.action = some b →
      event τ.pre.loop b = .invoked r →
      ∃ connection, τ.pre.handlers[r.coroutine]? = some ⟨connection, ⟨true, 0⟩⟩) ∧
    (s.loop.loop = .returned →
      (∀ τ ∈ trace, LeavesLoop τ → τ.pre.loop.stopRequested = true) →
      ∀ h ∈ s.handlers, h.frame.destroyed = 1) := by
  have hframed := framed_of_run hrun
  refine ⟨fun i c h hc hh => ?_, fun τ hτ b r hb hevent => ?_, fun hreturned hstop h hmem => ?_⟩
  · have hclient : (clients s.loop)[i]? = some (client? c) := by
      rw [clients, List.getElem?_map, hc]
      rfl
    have hfits := hframed.fits i _ h hclient hh
    by_cases hspawning : s.spawning = some i
    · rw [hspawning, beq_self_eq_true] at hfits
      rw [show h.frame = ⟨false, 0⟩ from hfits]
      exact ⟨Nat.zero_le 1, fun hne => absurd hspawning hne⟩
    · rw [beq_false_of_ne hspawning] at hfits
      by_cases hpc : c.pc = .finished
      · rw [client?, if_pos hpc] at hfits
        exact ⟨Nat.le_of_eq hfits, fun _ => iff_of_true hfits hpc⟩
      · rw [client?, if_neg hpc] at hfits
        rw [show h.frame = ⟨true, 0⟩ from hfits]
        exact ⟨Nat.zero_le 1, fun _ => iff_of_false Nat.zero_ne_one hpc⟩
  · obtain ⟨earlier, hearlier, -⟩ := hrun.pre_of_mem hτ
    obtain ⟨loop', hloop⟩ : ∃ loop', EpollLoop.step τ.pre.loop b = some loop' := by
      rcases loop_of_step (hrun.step_of_mem hτ) with ⟨hnone, -⟩ | ⟨b', hb', hstep⟩
      · rw [hb] at hnone
        cases hnone
      · rw [hb, Option.some.injEq] at hb'
        exact ⟨_, hb' ▸ hstep⟩
    obtain ⟨hrunning, fd, hclient⟩ := client_of_invoked hloop hevent
    have hspawning := spawning_of_loopAction hb hrunning (by rintro rfl; cases hevent)
    have hlt : r.coroutine < τ.pre.handlers.length :=
      (accounted_of_run hearlier).length ▸ (List.getElem?_eq_some_iff.mp hclient).1
    have hhandler := List.getElem?_eq_getElem hlt
    have hfits := (framed_of_run hearlier).fits _ _ _ hclient hhandler
    rw [hspawning] at hfits
    refine ⟨τ.pre.handlers[r.coroutine].connection, hhandler.trans ?_⟩
    rw [← show _ = Frame.mk true 0 from hfits]
  · obtain ⟨i, hi⟩ := List.getElem?_of_mem hmem
    have hlt : i < (clients s.loop).length :=
      (accounted_of_run hrun).length ▸ (List.getElem?_eq_some_iff.mp hi).1
    have hnone := clients_of_stop hrun hreturned hstop _ (List.getElem_mem hlt)
    have hspawning : s.spawning ≠ some i := by
      intro hspawning
      have hdraining := hframed.started i hspawning
      rw [hreturned] at hdraining
      cases hdraining
    have hfits := hframed.fits i none h (by rw [List.getElem?_eq_getElem hlt, hnone]) hi
    rw [beq_false_of_ne hspawning] at hfits
    exact hfits

theorem frames_destroyed_once_turnedAway :
    ∃ trace s, Run step (State.built 1 3 4) trace s ∧ s.handlers.length = 1 ∧
      ∀ h ∈ s.handlers, h.frame.destroyed = 1 := by
  obtain ⟨s, hrun, hs⟩ : ∃ s, Run step (State.built 1 3 4)
      (executeTrace step (State.built 1 3 4) secondTurnedAway) s ∧
      decide (s.loop.loop = .returned ∧ s.handlers.length = 1) = true :=
    exists_run_of_execute (by decide +kernel)
  obtain ⟨hreturned, hlength⟩ := of_decide_eq_true hs
  obtain ⟨-, -, hend⟩ := frames_destroyed_once 1 3 4 _ s hrun
  exact ⟨_, s, hrun, hlength, hend hreturned stops_secondTurnedAway⟩

end TcpServer
end Corpcron
