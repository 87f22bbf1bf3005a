import Corpcron.App.Lifecycle

/-!
# How an application ends

Whatever has been started is still to be ended: `Ordered` compares the threads,
the services and the stop flag with what the main thread has left to do.  `Kept`
follows the calls to the registry, and `Carried` the thread that carries out
`stop()`.  All three are kept by every step of every thread, so at the end
nothing is left (`nothing_left_behind`).
-/

namespace Corpcron
namespace App

open Lib

/-! ## The order of things -/

/-- What the main thread still has to do before the process ends. -/
def MainPc.left : MainPc → List Op
  | .finishing ops => ops
  | .stopping _ ops => .stop :: ops
  | .unregistering _ ops => .unregister :: ops
  | .joiningSignal ops => .joinSignal :: ops
  | _ => .stop :: cleanup ++ destructor

/-- The heartbeat thread is joined before services are unregistered. -/
def joinsFirst : List Op → Bool
  | [] => false
  | .joinHeartbeat :: _ => true
  | .unregister :: _ => false
  | _ :: ops => joinsFirst ops

/-- The part of the end is done, or there is nothing to do for it. -/
def Op.Done (s : State) : Op → Prop
  | .stop => s.stopping = true
  | .joinHeartbeat => s.heartbeat.isAlive = false
  | .unregister => s.registered = []
  | .joinSignal => s.signal.isAlive = false

/-- What is not done is still to be done. -/
structure Ordered (s : State) : Prop where
  beforeHeartbeat : s.main.beforeHeartbeat = true → s.heartbeat = .none
  beforeSignal : s.main.beforeSignal = true → s.signal = .none ∧ s.stopping = false
  left : ∀ op, ¬ Op.Done s op → op ∈ s.main.left
  joins : s.heartbeat.isAlive = true → joinsFirst s.main.left = true
  mainStop : ∀ pc ops, s.main = .stopping pc ops → pc ≠ .entering → s.stopping = true
  signalStop : ∀ pc, s.signal = .stopping pc → pc ≠ .entering → s.stopping = true
  stops : s.stops = if s.stopping then 1 else 0

theorem ordered_built : Ordered State.built where
  beforeHeartbeat _ := rfl
  beforeSignal _ := ⟨rfl, rfl⟩
  left op _ := mem_cleanup_append op _
  joins h := by cases h
  mainStop _ _ h := by cases h
  signalStop _ h := by cases h
  stops := rfl

/-- The thread is as it was, or has been joined. -/
def HeartbeatPc.Stays (pc pc' : HeartbeatPc) : Prop := pc' = pc ∨ pc = .exited ∧ pc' = .joined

def SignalPc.Stays (pc pc' : SignalPc) : Prop := pc' = pc ∨ pc = .exited ∧ pc' = .joined

theorem HeartbeatPc.Stays.isAlive {pc pc' : HeartbeatPc} (h : pc.Stays pc')
    (halive : pc'.isAlive = true) : pc' = pc :=
  h.resolve_right fun hjoined => by rw [hjoined.2] at halive; cases halive

theorem SignalPc.Stays.isAlive {pc pc' : SignalPc} (h : pc.Stays pc')
    (halive : pc'.isAlive = true) : pc' = pc :=
  h.resolve_right fun hjoined => by rw [hjoined.2] at halive; cases halive

namespace Ordered

variable {cfg : AppConfig} {s s' : State}

/-- The rule for a step of the main thread. -/
theorem mainGoes (h : Ordered s) (hstopping : s'.stopping = s.stopping)
    (hstops : s'.stops = s.stops) (hheartbeat : s.heartbeat.Stays s'.heartbeat)
    (hsignal : s.signal.Stays s'.signal)
    (hbefore : s'.main.beforeHeartbeat = true → s.main.beforeHeartbeat = true)
    (hbefore' : s'.main.beforeSignal = true → s.main.beforeSignal = true)
    (hleft : ∀ op, ¬ Op.Done s' op → op ∈ s'.main.left)
    (hjoins : s'.heartbeat.isAlive = true → joinsFirst s'.main.left = true)
    (hpc : ∀ pc ops, s'.main = .stopping pc ops → pc ≠ .entering → s.stopping = true) :
    Ordered s' where
  beforeHeartbeat hmain := by
    have hnone := h.beforeHeartbeat (hbefore hmain)
    rcases hheartbeat with hsame | ⟨hexited, -⟩
    · exact hsame.trans hnone
    · rw [hnone] at hexited
      cases hexited
  beforeSignal hmain := by
    obtain ⟨hnone, hnot⟩ := h.beforeSignal (hbefore' hmain)
    rcases hsignal with hsame | ⟨hexited, -⟩
    · exact ⟨hsame.trans hnone, hstopping.trans hnot⟩
    · rw [hnone] at hexited
      cases hexited
  left := hleft
  joins := hjoins
  mainStop pc ops hmain hne := hstopping.trans (hpc pc ops hmain hne)
  signalStop pc hsig hne := by
    have hsame := hsignal.isAlive (by rw [hsig]; rfl)
    exact hstopping.trans (h.signalStop pc (hsame ▸ hsig) hne)
  stops := by rw [hstops, hstopping]; exact h.stops

/-- The main thread goes on to a position at which as much is left. -/
theorem go (h : Ordered s) (hstopping : s'.stopping = s.stopping) (hstops : s'.stops = s.stops)
    (hheartbeat : s'.heartbeat = s.heartbeat) (hsignal : s'.signal = s.signal)
    (hsame : s'.main.left = s.main.left)
    (hbefore : s'.main.beforeHeartbeat = true → s.main.beforeHeartbeat = true)
    (hbefore' : s'.main.beforeSignal = true → s.main.beforeSignal = true)
    (hleft : ∀ op, ¬ Op.Done s' op → op ∈ s.main.left)
    (hpc : ∀ pc ops, s'.main = .stopping pc ops → pc ≠ .entering → s.stopping = true) :
    Ordered s' := by
  refine h.mainGoes hstopping hstops (.inl hheartbeat) (.inl hsignal) hbefore hbefore' ?_ ?_ hpc
  · rw [hsame]
    exact hleft
  · rw [hsame, hheartbeat]
    exact h.joins

/-- A part of the end is over, and what it had to do is done. -/
theorem drop (h : Ordered s) (op : Op) {ops : List Op} (hleft : s.main.left = op :: ops)
    (hmain : s'.main = .finishing ops) (hstopping : s'.stopping = s.stopping)
    (hstops : s'.stops = s.stops) (hheartbeat : s.heartbeat.Stays s'.heartbeat)
    (hsignal : s.signal.Stays s'.signal)
    (hregistered : s'.registered = s.registered ∨ s'.registered = []) (hdone : Op.Done s' op) :
    Ordered s' := by
  have hstays : ∀ op', Op.Done s op' → Op.Done s' op' := by
    intro op' hop
    cases op' with
    | stop => exact hstopping.trans hop
    | joinHeartbeat =>
        rcases hheartbeat with hsame | ⟨-, hjoined⟩
        · exact (congrArg _ hsame).trans hop
        · exact congrArg _ hjoined
    | unregister => exact hregistered.elim (fun hsame => hsame.trans hop) id
    | joinSignal =>
        rcases hsignal with hsame | ⟨-, hjoined⟩
        · exact (congrArg _ hsame).trans hop
        · exact congrArg _ hjoined
  refine h.mainGoes hstopping hstops hheartbeat hsignal ?_ ?_ (fun op' hop => ?_)
    (fun halive => ?_) ?_
  · simp [hmain, MainPc.beforeHeartbeat]
  · simp [hmain, MainPc.beforeSignal, MainPc.beforeHeartbeat]
  · have hmem := h.left op' fun hbefore => hop (hstays op' hbefore)
    rw [hleft] at hmem
    rw [hmain]
    rcases List.mem_cons.mp hmem with rfl | hmem
    · exact absurd hdone hop
    · exact hmem
  · have hjoins := h.joins (hheartbeat.isAlive halive ▸ halive)
    rw [hleft] at hjoins
    rw [hmain]
    cases op with
    | stop => exact hjoins
    | joinHeartbeat => exact absurd (hdone.symm.trans halive) (by simp)
    | unregister => cases hjoins
    | joinSignal => exact hjoins
  · simp [hmain]

/-- The main thread comes to the end, with everything left to do. -/
theorem finishes (h : Ordered s) {registered : List String} {code : Option Nat} {ops : List Op}
    (hall : ∀ op, op ∈ ops) (hjoins : joinsFirst ops = true) :
    Ordered { s with registered := registered, exitCode := code, main := .finishing ops } :=
  h.mainGoes rfl rfl (.inl rfl) (.inl rfl) (fun hpc => by cases hpc) (fun hpc => by cases hpc)
    (fun op _ => hall op) (fun _ => hjoins) (fun _ _ hpc => by cases hpc)

/-- `TcpServer::start` returns. -/
theorem started (h : Ordered s) (ok : Bool) : Ordered (s.started ok) := by
  cases ok with
  | true => exact h.finishes (fun op => List.mem_append_right _ (mem_destructor op)) rfl
  | false => exact h.finishes (fun op => mem_cleanup_append op _) rfl

/-- A step of `stop()`, by whichever thread. -/
theorem stopStep (h : Ordered s) (hmain : s.main.beforeSignal = false) (pc : StopPc) :
    Ordered (s.stopStep pc).1 := by
  cases pc with
  | entering =>
      cases hs : s.stopping with
      | true =>
          rw [stopStep_of_stopping hs]
          exact h
      | false =>
          rw [stopStep_of_not_stopping hs]
          refine ⟨h.beforeHeartbeat, fun hpc => ?_, fun op hnot => ?_, h.joins, fun _ _ _ _ => rfl,
            fun _ _ _ => rfl, ?_⟩
          · exact absurd (hmain.symm.trans hpc) (by simp)
          · cases op with
            | stop => exact absurd rfl hnot
            | _ => exact h.left _ hnot
          · have hstops := h.stops
            rw [hs] at hstops
            exact congrArg (· + 1) hstops
  | scheduler =>
      exact ⟨h.beforeHeartbeat, h.beforeSignal, h.left, h.joins, h.mainStop, h.signalStop, h.stops⟩
  | loop =>
      exact ⟨h.beforeHeartbeat, h.beforeSignal, h.left, h.joins, h.mainStop, h.signalStop, h.stops⟩
  | _ => exact h

/-- The heartbeat thread goes on. -/
theorem heartbeatGoes (h : Ordered s) (halive : s.heartbeat.isAlive = true) {pc : HeartbeatPc}
    {calls : List Call} : Ordered { s with heartbeat := pc, calls := calls } where
  beforeHeartbeat hpc := by
    rw [h.beforeHeartbeat hpc] at halive
    cases halive
  beforeSignal := h.beforeSignal
  left op hnot := by
    cases op with
    | joinHeartbeat => exact h.left _ (by simp [Op.Done, halive])
    | _ => exact h.left _ hnot
  joins _ := h.joins halive
  mainStop := h.mainStop
  signalStop := h.signalStop
  stops := h.stops

/-- The signal thread goes on to `pc`. -/
theorem signalGoes (h : Ordered s) (halive : s.signal.isAlive = true) {pc : SignalPc}
    {pending : Bool}
    (hpc : ∀ stopPc, pc = .stopping stopPc → stopPc ≠ .entering → s.stopping = true) :
    Ordered { s with signal := pc, signalPending := pending } where
  beforeHeartbeat := h.beforeHeartbeat
  beforeSignal hmain := by
    rw [(h.beforeSignal hmain).1] at halive
    cases halive
  left op hnot := by
    cases op with
    | joinSignal => exact h.left _ (by simp [Op.Done, halive])
    | _ => exact h.left _ hnot
  joins := h.joins
  mainStop := h.mainStop
  signalStop := hpc
  stops := h.stops

theorem of_moves (h : Ordered s) (hmoves : Moves cfg s s') : Ordered s' := by
  cases hmoves with
  | prepare pc hpc =>
      generalize hmain : s.main = main at hpc
      cases hpc <;>
        exact h.go rfl rfl rfl rfl (by rw [hmain]; rfl) (by simp [hmain, MainPc.beforeHeartbeat])
          (by simp [hmain, MainPc.beforeSignal, MainPc.beforeHeartbeat]) h.left (by simp)
  | abort _ => exact h.finishes mem_destructor rfl
  | register service todo hmain =>
      refine h.go rfl rfl rfl rfl (by rw [hmain]; rfl) (fun _ => by rw [hmain]; rfl)
        (fun _ => by rw [hmain]; rfl) (fun op _ => ?_) (fun _ _ hpc => by cases hpc)
      rw [hmain]
      exact mem_cleanup_append op _
  | rolledBack _ => exact h.finishes (fun op => mem_cleanup_append op _) rfl
  | startHeartbeat hmain =>
      have hbefore := h.beforeSignal (by rw [hmain]; rfl)
      exact ⟨fun hpc => (by cases hpc), fun _ => hbefore, fun op _ => mem_cleanup_append op _,
        fun _ => rfl, fun _ _ hpc => (by cases hpc), h.signalStop, h.stops⟩
  | startSignalThread hmain =>
      exact ⟨fun hpc => (by cases hpc), fun hpc => (by cases hpc),
        fun op _ => mem_cleanup_append op _, fun _ => rfl, fun _ _ hpc => (by cases hpc),
        fun _ hpc => (by cases hpc), h.stops⟩
  | leave ok _ _ => exact h.started ok
  | stop pc ops hmain _ =>
      have hs := h.stopStep (by rw [hmain]; rfl) pc
      have hleft : (MainPc.stopping (s.stopStep pc).2 ops).left = (s.stopStep pc).1.main.left := by
        rw [(stopStep_frame s pc).1, hmain]
        rfl
      exact hs.go rfl rfl rfl rfl hleft (fun hpc => by cases hpc) (fun hpc => by cases hpc)
        hs.left (fun _ _ _ _ => stopping_of_stopStep (h.mainStop pc ops hmain))
  | stopped ops hmain =>
      exact h.drop .stop (by rw [hmain]; rfl) rfl rfl rfl (.inl rfl) (.inl rfl) (.inl rfl)
        (h.mainStop .done ops hmain (by simp))
  | noHeartbeat ops hmain hheartbeat =>
      exact h.drop .joinHeartbeat (by rw [hmain]; rfl) rfl rfl rfl (.inl rfl) (.inl rfl)
        (.inl rfl) hheartbeat
  | joinHeartbeat ops hmain hexited =>
      exact h.drop .joinHeartbeat (by rw [hmain]; rfl) rfl rfl rfl (.inr ⟨hexited, rfl⟩) (.inl rfl)
        (.inl rfl) rfl
  | unregistered ops hmain =>
      exact h.drop .unregister (by rw [hmain]; rfl) rfl rfl rfl (.inl rfl) (.inl rfl) (.inr rfl) rfl
  | noSignal ops hmain hsignal =>
      exact h.drop .joinSignal (by rw [hmain]; rfl) rfl rfl rfl (.inl rfl) (.inl rfl)
        (.inl rfl) hsignal
  | joinSignal ops hmain hexited =>
      exact h.drop .joinSignal (by rw [hmain]; rfl) rfl rfl rfl (.inl rfl) (.inr ⟨hexited, rfl⟩)
        (.inl rfl) rfl
  | heartbeatHead hpc => exact h.heartbeatGoes (by rw [hpc]; rfl)
  | heartbeatWakes hpc => exact h.heartbeatGoes (by rw [hpc]; rfl)
  | beat service todo hpc => exact h.heartbeatGoes (by rw [hpc]; rfl)
  | beaten hpc => exact h.heartbeatGoes (by rw [hpc]; rfl)
  | takeSignal hpc _ =>
      refine h.signalGoes (by rw [hpc]; rfl) fun stopPc heq hne => ?_
      cases heq
      exact absurd rfl hne
  | signalStop pc hpc _ =>
      have hmain : s.main.beforeSignal = false := by
        by_contra hbefore
        rw [(h.beforeSignal (by simpa using hbefore)).1] at hpc
        cases hpc
      have hs := h.stopStep hmain pc
      obtain ⟨-, -, hsame, -, -⟩ := stopStep_frame s pc
      refine hs.signalGoes (by rw [hsame, hpc]; rfl) fun _ _ _ => ?_
      exact stopping_of_stopStep (h.signalStop pc hpc)
  | signalDone hpc => exact h.signalGoes (by rw [hpc]; rfl) fun _ heq => by cases heq
  | _ =>
      -- The main thread goes on, and as much is left.
      have hmain := ‹s.main = _›
      exact h.go rfl rfl rfl rfl (by rw [hmain]; rfl) (by simp [hmain, MainPc.beforeHeartbeat])
        (by simp [hmain, MainPc.beforeSignal, MainPc.beforeHeartbeat]) h.left (by simp)

end Ordered

/-! ## What is registered -/

/-- The services that the registry lists after a call, as far as this process is
concerned. -/
def Call.apply (listed : List String) : Call → List String
  | .register service ok => if ok then service :: listed else listed
  | .heartbeat service => service :: listed
  | .unregister service => listed.filter (· ≠ service)

def listed (calls : List Call) : List String := calls.foldl Call.apply []

theorem listed_concat (calls : List Call) (c : Call) :
    listed (calls ++ [c]) = c.apply (listed calls) := by
  rw [listed, List.foldl_append]
  rfl

/-- The services that the main thread will unregister. -/
def MainPc.keeps (registered : List String) : MainPc → List String
  | .rollingBack todo => todo
  | .unregistering todo _ => todo
  | _ => registered

/-- Everything that is listed will be unregistered. -/
structure Kept (s : State) : Prop where
  beating : ∀ todo, s.heartbeat = .beating todo → todo ⊆ s.registered
  listed : App.listed s.calls ⊆ s.main.keeps s.registered

theorem kept_built : Kept State.built where
  beating _ h := by cases h
  listed := List.nil_subset _

namespace Kept

variable {cfg : AppConfig} {s s' : State}

/-- A step without a call. -/
theorem quiet (h : Kept s) (hheartbeat : ∀ todo, s'.heartbeat = .beating todo →
      s.heartbeat = .beating todo ∨ todo ⊆ s'.registered)
    (hcalls : s'.calls = s.calls) (hregistered : s'.registered = s.registered)
    (hkeeps : s'.main.keeps s.registered = s.main.keeps s.registered) : Kept s' := by
  refine ⟨fun todo htodo => ?_, ?_⟩
  · rcases hheartbeat todo htodo with hold | hnew
    · rw [hregistered]
      exact h.beating todo hold
    · exact hnew
  · rw [hcalls, hregistered, hkeeps]
    exact h.listed

/-- `registered_services_` is cleared when nothing is left to unregister. -/
theorem clear (h : Kept s) (hheartbeat : s'.heartbeat.isAlive = false)
    (hcalls : s'.calls = s.calls) (hkeeps : s.main.keeps s.registered = []) : Kept s' := by
  refine ⟨fun todo htodo => ?_, ?_⟩
  · rw [htodo] at hheartbeat
    cases hheartbeat
  · have hnone := h.listed
    rw [hkeeps] at hnone
    rw [hcalls, List.subset_nil.mp hnone]
    exact List.nil_subset _

/-- A service is unregistered. -/
theorem unregister (h : Kept s) {service : String} {todo : List String}
    (hheartbeat : s'.heartbeat = s.heartbeat) (hregistered : s'.registered = s.registered)
    (hcalls : s'.calls = s.calls ++ [.unregister service])
    (hbefore : s.main.keeps s.registered = service :: todo)
    (hafter : s'.main.keeps s'.registered = todo) : Kept s' := by
  refine ⟨fun todo' htodo => ?_, ?_⟩
  · rw [hregistered]
    exact h.beating todo' (hheartbeat ▸ htodo)
  · intro x hx
    rw [hcalls, listed_concat, Call.apply, List.mem_filter] at hx
    have hmem := h.listed hx.1
    rw [hbefore] at hmem
    rw [hafter]
    exact (List.mem_cons.mp hmem).resolve_left (by simpa using hx.2)

theorem started (h : Kept s) (hkeeps : s.main.keeps s.registered = s.registered) (ok : Bool) :
    Kept (s.started ok) := by
  cases ok <;> exact h.quiet (fun _ => .inl) rfl rfl hkeeps.symm

/-- While the heartbeat thread is there, nothing is unregistered. -/
theorem keeps_of_alive (hordered : Ordered s) (halive : s.heartbeat.isAlive = true) :
    s.main.keeps s.registered = s.registered := by
  cases hmain : s.main with
  | rollingBack todo =>
      rw [hordered.beforeHeartbeat (by rw [hmain]; rfl)] at halive
      cases halive
  | unregistering todo ops =>
      have hjoins := hordered.joins halive
      rw [hmain] at hjoins
      cases hjoins
  | _ => rfl

theorem of_moves (h : Kept s) (hordered : Ordered s) (hmoves : Moves cfg s s') : Kept s' := by
  cases hmoves with
  | prepare pc hpc =>
      generalize hmain : s.main = main at hpc
      cases hpc <;> exact h.quiet (fun _ => .inl) rfl rfl (by rw [hmain]; rfl)
  | register service todo hmain =>
      have hlisted := h.listed
      rw [hmain] at hlisted
      refine ⟨fun todo' htodo => ?_, fun x hx => ?_⟩
      · exact List.Subset.trans (h.beating todo' htodo) (List.subset_append_left _ _)
      · change x ∈ App.listed (s.calls ++ [.register service true]) at hx
        rw [listed_concat] at hx
        change x ∈ s.registered ++ [service]
        rcases List.mem_cons.mp hx with rfl | hold
        · simp
        · exact List.mem_append_left _ (hlisted hold)
  | refused service todo hmain =>
      have hlisted := h.listed
      rw [hmain] at hlisted
      refine ⟨h.beating, ?_⟩
      change App.listed (s.calls ++ [.register service false]) ⊆ s.registered
      rw [listed_concat]
      exact hlisted
  | rollBack service todo hmain => exact h.unregister rfl rfl rfl (by rw [hmain]; rfl) rfl
  | rolledBack hmain =>
      refine h.clear ?_ rfl (by rw [hmain]; rfl)
      change s.heartbeat.isAlive = false
      rw [hordered.beforeHeartbeat (by rw [hmain]; rfl)]
      rfl
  | startHeartbeat hmain =>
      exact h.quiet (fun _ hpc => by cases hpc) rfl rfl (by rw [hmain]; rfl)
  | leave ok hmain _ =>
      refine h.started ?_ ok
      cases hpc : s.main with
      | rollingBack todo => simp [hpc, MainPc.canLeave] at hmain
      | unregistering todo ops => simp [hpc, MainPc.canLeave] at hmain
      | _ => rfl
  | stop pc ops hmain _ =>
      obtain ⟨-, hheartbeat, -, hregistered, hcalls⟩ := stopStep_frame s pc
      exact h.quiet (fun todo htodo => .inl (hheartbeat ▸ htodo)) hcalls hregistered
        (by rw [hmain]; rfl)
  | joinHeartbeat ops hmain _ =>
      exact h.quiet (fun _ hpc => by cases hpc) rfl rfl (by rw [hmain]; rfl)
  | unregister service todo ops hmain => exact h.unregister rfl rfl rfl (by rw [hmain]; rfl) rfl
  | unregistered ops hmain =>
      refine h.clear ?_ rfl (by rw [hmain]; rfl)
      change s.heartbeat.isAlive = false
      by_contra halive
      have hjoins := hordered.joins (by simpa using halive)
      rw [hmain] at hjoins
      cases hjoins
  | heartbeatHead _ =>
      refine h.quiet (fun todo htodo => ?_) rfl rfl rfl
      dsimp only at htodo
      split at htodo <;> cases htodo
  | heartbeatWakes _ =>
      refine h.quiet (fun todo htodo => ?_) rfl rfl rfl
      dsimp only at htodo
      split at htodo
      · cases htodo
      · cases htodo
        exact .inr (List.Subset.refl _)
  | beat service todo hpc =>
      have hkeeps := keeps_of_alive hordered (by rw [hpc]; rfl)
      have htodo := h.beating _ hpc
      refine ⟨fun todo' htodo' => ?_, fun x hx => ?_⟩
      · cases htodo'
        exact List.Subset.trans (List.subset_cons_self _ _) htodo
      · change x ∈ s.main.keeps s.registered
        rw [hkeeps]
        change x ∈ App.listed (s.calls ++ [.heartbeat service]) at hx
        rw [listed_concat] at hx
        rcases List.mem_cons.mp hx with rfl | hold
        · exact htodo List.mem_cons_self
        · exact hkeeps ▸ h.listed hold
  | beaten _ => exact h.quiet (fun _ hpc => by cases hpc) rfl rfl rfl
  | takeSignal _ _ => exact h.quiet (fun _ => .inl) rfl rfl rfl
  | signalStop pc _ _ =>
      obtain ⟨hmain, hheartbeat, -, hregistered, hcalls⟩ := stopStep_frame s pc
      exact h.quiet (fun todo htodo => .inl (hheartbeat ▸ htodo)) hcalls hregistered
        (congrArg (MainPc.keeps s.registered) hmain)
  | signalDone _ => exact h.quiet (fun _ => .inl) rfl rfl rfl
  | _ => exact h.quiet (fun _ => .inl) rfl rfl (by rw [‹s.main = _›]; rfl)

end Kept

/-! ## Who carries out `stop()` -/

/-- The steps left in `stop()`. -/
def StopPc.remaining : StopPc → Nat
  | .entering => 6
  | .notifying => 5
  | .scheduler => 4
  | .exporter => 3
  | .loop => 2
  | .executor => 1
  | .done => 0

/-- What `stop()` does at this position is still to be done. -/
def StopPc.Pending (s : State) : StopPc → Prop
  | .scheduler => s.schedulerRuns = true
  | .loop => s.loopStopped = false
  | _ => False

/-- A thread at this position of the body of `stop()` will come to `work`. -/
def StopPc.Reaches (pc work : StopPc) : Prop := pc ≠ .entering ∧ work.remaining ≤ pc.remaining

/-- Once `stopping_` is set, what `stop()` has not done yet will be done by a
thread at one of the positions `at?`. -/
def Carries (s : State) (at? : StopPc → Prop) : Prop :=
  s.stopping = true → ∀ work, StopPc.Pending s work → ∃ pc, at? pc ∧ pc.Reaches work

section Carries

variable {s s' : State} {at? others : StopPc → Prop} {work : StopPc}

theorem StopPc.Pending.remaining (h : StopPc.Pending s work) :
    0 < work.remaining ∧ work.remaining ≤ 5 := by
  cases work with
  | scheduler => decide
  | loop => decide
  | _ => exact h.elim

theorem Carries.mono {at?' : StopPc → Prop} (h : Carries s at?)
    (hstopping : s'.stopping = s.stopping) (hscheduler : s'.schedulerRuns = s.schedulerRuns)
    (hloop : s'.loopStopped = s.loopStopped) (hat : ∀ pc, pc ≠ .done → at? pc → at?' pc) :
    Carries s' at?' := by
  intro hs work hwork
  have hbefore : StopPc.Pending s work := by
    cases work with
    | scheduler => exact hscheduler.symm.trans hwork
    | loop => exact hloop.symm.trans hwork
    | _ => exact hwork.elim
  obtain ⟨pc, hpc, hreaches⟩ := h (hstopping ▸ hs) work hbefore
  refine ⟨pc, hat pc ?_ hpc, hreaches⟩
  rintro rfl
  exact absurd hbefore.remaining.1 (Nat.not_lt.mpr hreaches.2)

/-- The step of one thread, whatever the others do. -/
theorem Carries.stopStep {pc : StopPc} (h : Carries s fun p => p = pc ∨ others p) :
    Carries (s.stopStep pc).1 fun p => p = (s.stopStep pc).2 ∨ others p := by
  cases pc with
  | entering =>
      cases hs : s.stopping with
      | true =>
          -- Somebody else is in the body.
          rw [stopStep_of_stopping hs]
          intro _ work hwork
          obtain ⟨p, rfl | hp, hreaches⟩ := h hs work hwork
          · exact absurd rfl hreaches.1
          · exact ⟨p, .inr hp, hreaches⟩
      | false =>
          rw [stopStep_of_not_stopping hs]
          exact fun _ work hwork => ⟨.notifying, .inl rfl, by simp, hwork.remaining.2⟩
  | _ =>
      -- What is still to be done after the step is not what the step does.
      intro hs work hwork
      have hbefore : StopPc.Pending s work := by
        cases work <;> first | exact hwork | cases hwork
      obtain ⟨p, rfl | hp, hreaches⟩ := h hs work hbefore
      · refine ⟨_, .inl rfl, by simp [State.stopStep], ?_⟩
        cases work <;> simp_all [State.stopStep, StopPc.Pending, StopPc.Reaches, StopPc.remaining]
      · exact ⟨p, .inr hp, hreaches⟩

end Carries

/-- A thread is at this position of `stop()`. -/
def State.stopsAt (s : State) (pc : StopPc) : Prop :=
  s.signal = .stopping pc ∨ ∃ ops, s.main = .stopping pc ops

/-- What `stop()` has not done yet is being done. -/
abbrev Carried (s : State) : Prop := Carries s s.stopsAt

theorem carried_built : Carried State.built := fun h => by cases h

namespace Carried

variable {cfg : AppConfig} {s s' : State}

/-- The main thread goes on outside `stop()`. -/
theorem mainGoes (h : Carried s) (hmain : ∀ pc ops, s.main = .stopping pc ops → pc = .done)
    (hstopping : s'.stopping = s.stopping) (hscheduler : s'.schedulerRuns = s.schedulerRuns)
    (hloop : s'.loopStopped = s.loopStopped)
    (hsignal : ∀ pc, s.signal = .stopping pc → s'.signal = .stopping pc) : Carried s' := by
  refine h.mono hstopping hscheduler hloop fun pc hne hpc => ?_
  rcases hpc with hpc | ⟨ops, hpc⟩
  · exact .inl (hsignal pc hpc)
  · exact absurd (hmain pc ops hpc) hne

/-- A step at which `stopping_` is not set. -/
theorem early (hstopping : s'.stopping = false) : Carried s' :=
  fun hs => by simp [hstopping] at hs

theorem of_moves (h : Carried s) (hordered : Ordered s) (hmoves : Moves cfg s s') :
    Carried s' := by
  -- Where the main thread is not in `stop()`.
  have hnot : ∀ {main : MainPc}, s.main = main → (∀ pc ops, main ≠ .stopping pc ops) →
      ∀ pc ops, s.main = .stopping pc ops → pc = .done := by
    intro main hmain hne pc ops hpc
    exact absurd (hmain.symm.trans hpc) (hne pc ops)
  cases hmoves with
  | prepare pc hpc =>
      generalize hmain : s.main = main at hpc
      cases hpc <;> exact h.mainGoes (hnot hmain (by simp)) rfl rfl rfl fun _ => id
  | startScheduler hmain => exact early (hordered.beforeSignal (by rw [hmain]; rfl)).2
  | startSignalThread hmain => exact early (hordered.beforeSignal (by rw [hmain]; rfl)).2
  | leave ok hmain _ =>
      have hpc : ∀ pc ops, s.main = .stopping pc ops → pc = .done := by
        intro pc ops hpc
        simp [hpc, MainPc.canLeave] at hmain
      cases ok <;> exact h.mainGoes hpc rfl rfl rfl fun _ => id
  | stop pc ops hmain _ =>
      have hs : Carries s fun p => p = pc ∨ s.signal = .stopping p := by
        refine h.mono rfl rfl rfl fun p _ hp => ?_
        rcases hp with hsignal | ⟨ops', hmain'⟩
        · exact .inr hsignal
        · rw [hmain] at hmain'
          cases hmain'
          exact .inl rfl
      refine hs.stopStep.mono rfl rfl rfl fun p _ hp => ?_
      rcases hp with rfl | hsignal
      · exact .inr ⟨ops, rfl⟩
      · exact .inl ((stopStep_frame s pc).2.2.1.trans hsignal)
  | stopped ops hmain =>
      refine h.mainGoes (fun pc ops' hpc => ?_) rfl rfl rfl fun _ => id
      rw [hmain] at hpc
      cases hpc
      rfl
  | joinSignal ops hmain hsignal =>
      refine h.mainGoes (hnot hmain (by simp)) rfl rfl rfl fun pc hpc => ?_
      rw [hsignal] at hpc
      cases hpc
  | heartbeatHead _ => exact h.mono rfl rfl rfl fun _ _ hpc => hpc
  | heartbeatWakes _ => exact h.mono rfl rfl rfl fun _ _ hpc => hpc
  | beat service todo _ => exact h.mono rfl rfl rfl fun _ _ hpc => hpc
  | beaten _ => exact h.mono rfl rfl rfl fun _ _ hpc => hpc
  | takeSignal hsignal _ =>
      refine h.mono rfl rfl rfl fun pc _ hpc => ?_
      rcases hpc with hpc | hpc
      · rw [hsignal] at hpc
        cases hpc
      · exact .inr hpc
  | signalStop pc hsignal _ =>
      have hs : Carries s fun p => p = pc ∨ ∃ ops, s.main = .stopping p ops := by
        refine h.mono rfl rfl rfl fun p _ hp => ?_
        rcases hp with hsignal' | hmain
        · rw [hsignal] at hsignal'
          cases hsignal'
          exact .inl rfl
        · exact .inr hmain
      refine hs.stopStep.mono rfl rfl rfl fun p _ hp => ?_
      rcases hp with rfl | ⟨ops, hmain⟩
      · exact .inl rfl
      · exact .inr ⟨ops, (stopStep_frame s pc).1.trans hmain⟩
  | signalDone hsignal =>
      refine h.mono rfl rfl rfl fun pc hne hpc => ?_
      rcases hpc with hpc | hpc
      · rw [hsignal] at hpc
        cases hpc
        exact absurd rfl hne
      · exact .inr hpc
  | _ => exact h.mainGoes (hnot ‹s.main = _› (by simp)) rfl rfl rfl fun _ => id

end Carried

/-! ## Whole runs -/

structure Sound (s : State) : Prop where
  ordered : Ordered s
  kept : Kept s
  carried : Carried s

theorem Sound.of_step {cfg : AppConfig} {s s' : State} {a : Action} (h : Sound s)
    (hstep : step cfg s a = some s') : Sound s' := by
  obtain ⟨ho, hk, hc⟩ := h
  rcases moves_of_step hstep with ⟨-, rfl⟩ | ⟨-, hmoves⟩
  · exact ⟨⟨ho.beforeHeartbeat, ho.beforeSignal, ho.left, ho.joins, ho.mainStop, ho.signalStop,
      ho.stops⟩, ⟨hk.beating, hk.listed⟩, hc.mono rfl rfl rfl fun _ _ hpc => hpc⟩
  · exact ⟨ho.of_moves hmoves, hk.of_moves ho hmoves, Carried.of_moves hc ho hmoves⟩

theorem sound_of_run {cfg : AppConfig} {trace : List AppTransition} {s : State}
    (hrun : Run (step cfg) State.built trace s) : Sound s :=
  hrun.invariant ⟨ordered_built, kept_built, carried_built⟩ fun _ _ hstep h => h.of_step hstep

/-- For every run of an application, whatever fails and whenever signals come:
the body of `stop()` is entered at most once.  When the process ends, it has been
carried out: the scheduler and the event loop have been stopped; no thread is
left that could still run or is not joined; and every service that was registered
or refreshed by a heartbeat has been unregistered after that. -/
theorem nothing_left_behind (cfg : AppConfig) (trace : List AppTransition) (s : State)
    (hrun : Run (step cfg) State.built trace s) :
    s.stops ≤ 1 ∧
    (s.main = .finishing [] →
      s.stops = 1 ∧ s.schedulerRuns = false ∧ s.loopStopped = true ∧
      s.heartbeat.isAlive = false ∧ s.signal.isAlive = false ∧ listed s.calls = []) := by
  obtain ⟨hordered, hkept, hcarried⟩ := sound_of_run hrun
  have hstops := hordered.stops
  refine ⟨?_, fun hmain => ?_⟩
  · rw [hstops]
    split <;> omega
  have hleft : s.main.left = [] := by
    rw [hmain]
    rfl
  -- Nothing is left, so everything is done.
  have hdone : ∀ op, Op.Done s op := by
    intro op
    by_contra hnot
    have hmem := hordered.left op hnot
    rw [hleft] at hmem
    cases hmem
  have hstopping : s.stopping = true := hdone .stop
  have hsignal : s.signal.isAlive = false := hdone .joinSignal
  have hregistered : s.registered = [] := hdone .unregister
  -- Nobody is in `stop()` any more, so there is nothing that it has not done.
  have hnothing : ∀ work, ¬ StopPc.Pending s work := by
    intro work hwork
    obtain ⟨pc, hpc | ⟨ops, hpc⟩, -⟩ := hcarried hstopping work hwork
    · rw [hpc] at hsignal
      cases hsignal
    · rw [hmain] at hpc
      cases hpc
  refine ⟨by rw [hstops, if_pos hstopping], by simpa [StopPc.Pending] using hnothing .scheduler,
    by simpa [StopPc.Pending] using hnothing .loop, hdone .joinHeartbeat, hsignal, ?_⟩
  have hlisted := hkept.listed
  rw [hmain] at hlisted
  change listed s.calls ⊆ s.registered at hlisted
  rw [hregistered] at hlisted
  exact List.subset_nil.mp hlisted

/-- A worker with one handler is told to stop during its first heartbeats. -/
def signalledRun : List Action :=
  List.replicate 8 (.main true) ++ List.replicate 4 .heartbeat ++ [.kill] ++
    List.replicate 8 .signal ++ List.replicate 4 (.main true) ++ List.replicate 2 .heartbeat ++
    List.replicate 17 (.main true)

theorem nothing_left_behind_signalled :
    ∃ trace s, Run (step ⟨["worker", "worker:echo"], false⟩) State.built trace s ∧
      s.main = .finishing [] ∧ s.exitCode = some 0 ∧
      s.calls = [.register "worker" true, .register "worker:echo" true, .heartbeat "worker",
        .heartbeat "worker:echo", .unregister "worker", .unregister "worker:echo"] ∧
      s.stops = 1 ∧ s.signal.isAlive = false := by
  obtain ⟨s, hrun, hs⟩ : ∃ s, Run (step ⟨["worker", "worker:echo"], false⟩) State.built
      (executeTrace (step ⟨["worker", "worker:echo"], false⟩) State.built signalledRun) s ∧
      decide (s.main = .finishing [] ∧ s.exitCode = some 0 ∧
        s.calls = [.register "worker" true, .register "worker:echo" true, .heartbeat "worker",
          .heartbeat "worker:echo", .unregister "worker", .unregister "worker:echo"]) = true :=
    exists_run_of_execute (by decide +kernel)
  obtain ⟨hmain, hcode, hcalls⟩ := of_decide_eq_true hs
  obtain ⟨hstops, -, -, -, hsignal, -⟩ := (nothing_left_behind _ _ s hrun).2 hmain
  exact ⟨_, s, hrun, hmain, hcode, hcalls, hstops, hsignal⟩

end App
end Corpcron
