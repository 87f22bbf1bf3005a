import Corpcron.App.Shutdown

/-!
# The end comes

Once `stopping_` is set, an application ends.  Every step of one of its threads
uses up some of `remaining` (`remaining_of_moves`), and as long as the main
thread is not through, some thread can go on without anything having to fail
(`progress`): the joins and the event loop do not wait for each other.
-/

namespace Corpcron
namespace App

open Lib

/-! ## What is left to do -/

/-- The steps of a part of the end, without the services. -/
def Op.cost : Op → Nat
  | .stop => 8
  | .joinHeartbeat => 1
  | .unregister => 2
  | .joinSignal => 2

def costs : List Op → Nat
  | [] => 0
  | op :: ops => op.cost + costs ops

@[simp] theorem costs_cons (op : Op) (ops : List Op) : costs (op :: ops) = op.cost + costs ops :=
  rfl

/-- The steps left to the main thread while it serves or ends; `n` services are
registered. -/
def MainPc.remaining (n : Nat) : MainPc → Nat
  | .serving => costs (.stop :: cleanup ++ destructor) + n + 1
  | .finishing ops => costs ops + n
  | .stopping pc ops => pc.remaining + 1 + costs ops + n
  | .unregistering todo ops => todo.length + 1 + costs ops
  | .joiningSignal ops => 1 + costs ops + n
  | _ => 0

def HeartbeatPc.remaining : HeartbeatPc → Nat
  | .head => 1
  | .waiting => 1
  | .beating todo => todo.length + 2
  | _ => 0

def SignalPc.remaining : SignalPc → Nat
  | .waiting => 8
  | .stopping pc => pc.remaining + 1
  | _ => 0

/-- The steps left to all threads. -/
def State.remaining (s : State) : Nat :=
  s.main.remaining s.registered.length + s.heartbeat.remaining + s.signal.remaining

section Steps

variable {cfg : AppConfig} {s s' : State}

theorem stopStep_remaining (s : State) {pc : StopPc} (hpc : pc ≠ .done) :
    (s.stopStep pc).2.remaining < pc.remaining := by
  cases pc with
  | entering =>
      cases hs : s.stopping with
      | true =>
          rw [stopStep_of_stopping hs]
          exact Nat.zero_lt_succ 5
      | false =>
          rw [stopStep_of_not_stopping hs]
          exact Nat.lt_succ_self 5
  | done => exact absurd rfl hpc
  | _ => exact Nat.lt_succ_self _

/-- The rule for a step of the main thread. -/
theorem remaining_of_main (hheartbeat : s'.heartbeat.remaining ≤ s.heartbeat.remaining)
    (hsignal : s'.signal.remaining ≤ s.signal.remaining)
    (hmain : s'.main.remaining s'.registered.length < s.main.remaining s.registered.length) :
    s'.remaining < s.remaining := by
  unfold State.remaining
  omega

/-- With `stopping_` set, every step of a thread uses up some of what is left. -/
theorem remaining_of_moves (hordered : Ordered s) (hstopping : s.stopping = true)
    (hmoves : Moves cfg s s') : s'.stopping = true ∧ s'.remaining < s.remaining := by
  -- The application has been started.
  have hlate : s.main.beforeSignal = false := by
    by_contra hbefore
    simp [(hordered.beforeSignal (by simpa using hbefore)).2] at hstopping
  cases hmoves with
  | prepare pc hpc =>
      generalize hmain : s.main = main at hpc hlate
      cases hpc <;> cases hlate
  | abort hmain => rw [hmain] at hlate; cases hlate
  | register service todo hmain => rw [hmain] at hlate; cases hlate
  | refused service todo hmain => rw [hmain] at hlate; cases hlate
  | rollBack service todo hmain => rw [hmain] at hlate; cases hlate
  | rolledBack hmain => rw [hmain] at hlate; cases hlate
  | startHeartbeat hmain => rw [hmain] at hlate; cases hlate
  | startScheduler hmain => rw [hmain] at hlate; cases hlate
  | startSignalThread hmain => rw [hmain] at hlate; cases hlate
  | leave ok hmain _ =>
      have hserving : s.main = .serving := by
        cases hpc : s.main with
        | serving => rfl
        | _ =>
            simp [hpc, MainPc.canLeave, MainPc.beforeSignal, MainPc.beforeHeartbeat] at hmain hlate
      cases ok with
      | true =>
          refine ⟨hstopping, remaining_of_main (Nat.le_refl _) (Nat.le_refl _) ?_⟩
          rw [hserving]
          change costs (cleanup ++ destructor) + s.registered.length <
            costs (.stop :: (cleanup ++ destructor)) + s.registered.length + 1
          rw [costs_cons]
          omega
      | false =>
          refine ⟨hstopping, remaining_of_main (Nat.le_refl _) (Nat.le_refl _) ?_⟩
          rw [hserving]
          exact Nat.lt_succ_self _
  | stop pc ops hmain hpc =>
      obtain ⟨-, hheartbeat, hsignal, hregistered, -⟩ := stopStep_frame s pc
      refine ⟨stopping_of_stopStep fun _ => hstopping, remaining_of_main ?_ ?_ ?_⟩
      · exact Nat.le_of_eq (congrArg HeartbeatPc.remaining hheartbeat)
      · exact Nat.le_of_eq (congrArg SignalPc.remaining hsignal)
      · have hless := stopStep_remaining s hpc
        dsimp only
        rw [hmain, hregistered]
        simp only [MainPc.remaining]
        omega
  | joinHeartbeat ops hmain _ =>
      refine ⟨hstopping, remaining_of_main (Nat.zero_le _) (Nat.le_refl _) ?_⟩
      rw [hmain]
      simp only [MainPc.remaining, costs_cons, Op.cost]
      omega
  | joinSignal ops hmain _ =>
      refine ⟨hstopping, remaining_of_main (Nat.le_refl _) (Nat.zero_le _) ?_⟩
      rw [hmain]
      simp only [MainPc.remaining]
      omega
  | heartbeatHead hheartbeat =>
      refine ⟨hstopping, ?_⟩
      simp only [State.remaining, hheartbeat, hstopping, if_true, HeartbeatPc.remaining]
      omega
  | heartbeatWakes hheartbeat =>
      refine ⟨hstopping, ?_⟩
      simp only [State.remaining, hheartbeat, hstopping, if_true, HeartbeatPc.remaining]
      omega
  | beat service todo hheartbeat =>
      refine ⟨hstopping, ?_⟩
      simp only [State.remaining, State.call, hheartbeat, HeartbeatPc.remaining, List.length_cons]
      omega
  | beaten hheartbeat =>
      refine ⟨hstopping, ?_⟩
      simp only [State.remaining, hheartbeat, HeartbeatPc.remaining, List.length_nil]
      omega
  | takeSignal hsignal _ =>
      refine ⟨hstopping, ?_⟩
      simp only [State.remaining, hsignal, SignalPc.remaining, StopPc.remaining]
      omega
  | signalStop pc hsignal hpc =>
      obtain ⟨hmain, hheartbeat, -, hregistered, -⟩ := stopStep_frame s pc
      refine ⟨stopping_of_stopStep fun _ => hstopping, ?_⟩
      have hless := stopStep_remaining s hpc
      simp only [State.remaining, hmain, hheartbeat, hregistered, hsignal, SignalPc.remaining]
      omega
  | signalDone hsignal =>
      refine ⟨hstopping, ?_⟩
      simp only [State.remaining, hsignal, SignalPc.remaining, StopPc.remaining]
      omega
  | _ =>
      -- The main thread goes through the end.
      refine ⟨hstopping, remaining_of_main (Nat.le_refl _) (Nat.le_refl _) ?_⟩
      rw [‹s.main = _›]
      simp only [MainPc.remaining, costs_cons, Op.cost, StopPc.remaining, List.length_cons,
        List.length_nil]
      omega

end Steps

/-! ## Nobody waits in vain -/

/-- While the main thread waits for the signal thread, that thread is there and
has a signal to take. -/
def Awaited (s : State) : Prop :=
  ∀ ops, s.main = .joiningSignal ops →
    s.signal.isAlive = true ∧ (s.signal = .waiting → s.signalPending = true)

section Progress

variable {cfg : AppConfig} {s s' : State}

theorem Awaited.of_main (hmain : ∀ ops, s'.main ≠ .joiningSignal ops) : Awaited s' :=
  fun ops hpc => absurd hpc (hmain ops)

theorem Awaited.congr (h : Awaited s) (hmain : s'.main = s.main) (hsignal : s'.signal = s.signal)
    (hpending : s'.signalPending = s.signalPending) : Awaited s' := by
  unfold Awaited
  rw [hmain, hsignal, hpending]
  exact h

theorem Awaited.of_moves (h : Awaited s) (hmoves : Moves cfg s s') : Awaited s' := by
  cases hmoves with
  | prepare pc hpc =>
      generalize s.main = main at hpc
      cases hpc <;> exact .of_main (by simp)
  | leave ok _ _ => cases ok <;> exact .of_main (by simp [State.started])
  | rolledBack _ => exact .of_main (by simp [State.started])
  | killSignal ops _ hsignal => exact fun _ _ => ⟨hsignal, fun _ => rfl⟩
  | heartbeatHead _ => exact h.congr rfl rfl rfl
  | heartbeatWakes _ => exact h.congr rfl rfl rfl
  | beat _ _ _ => exact h.congr rfl rfl rfl
  | beaten _ => exact h.congr rfl rfl rfl
  | takeSignal _ _ => exact fun ops hpc => ⟨rfl, fun hwaiting => by cases hwaiting⟩
  | signalStop pc _ _ => exact fun ops hpc => ⟨rfl, fun hwaiting => by cases hwaiting⟩
  | signalDone _ => exact fun ops hpc => ⟨rfl, fun hwaiting => by cases hwaiting⟩
  | _ => exact .of_main (by simp)

theorem Awaited.of_step (h : Awaited s) {a : Action} (hstep : step cfg s a = some s') :
    Awaited s' := by
  rcases moves_of_step hstep with ⟨-, rfl⟩ | ⟨-, hmoves⟩
  · exact fun ops hpc => ⟨(h ops hpc).1, fun _ => rfl⟩
  · exact h.of_moves hmoves

theorem awaited_of_run {trace : List AppTransition} (hrun : Run (step cfg) State.built trace s) :
    Awaited s :=
  hrun.invariant (.of_main (by simp [State.built])) fun _ _ hstep h => Awaited.of_step h hstep

/-- A thread can go on, and nothing has to fail for it. -/
def CanGoOn (cfg : AppConfig) (s : State) : Prop :=
  ∃ a ∈ [Action.main true, .heartbeat, .signal], (step cfg s a).isSome = true

theorem canGoOn_main (h : (s.stepMain cfg true).isSome = true) : CanGoOn cfg s :=
  ⟨.main true, by simp, h⟩

theorem canGoOn_signal {pc : StopPc} (h : s.signal = .stopping pc) : CanGoOn cfg s := by
  refine ⟨.signal, by simp, ?_⟩
  change s.stepSignal.isSome = true
  unfold State.stepSignal
  cases pc <;> simp [h]

theorem progress (hsound : Sound s) (hawaited : Awaited s) (hstopping : s.stopping = true)
    (hmain : s.main ≠ .finishing []) : CanGoOn cfg s := by
  have hlate : s.main.beforeSignal = false := by
    by_contra hbefore
    simp [(hsound.ordered.beforeSignal (by simpa using hbefore)).2] at hstopping
  cases hpc : s.main with
  | serving =>
      -- Either the loop has been stopped, or the signal thread is on its way to it.
      cases hloop : s.loopStopped with
      | true =>
          apply canGoOn_main
          simp [State.stepMain, hpc, hloop]
      | false =>
          obtain ⟨pc, hsignal | ⟨ops, hmain'⟩, -⟩ := hsound.carried hstopping .loop hloop
          · exact canGoOn_signal hsignal
          · rw [hpc] at hmain'
            cases hmain'
  | finishing ops =>
      cases ops with
      | nil => exact absurd hpc hmain
      | cons op ops =>
          cases op with
          | stop =>
              apply canGoOn_main
              simp [State.stepMain, hpc]
          | joinHeartbeat =>
              -- A heartbeat thread that has not ended can go on itself.
              cases hheartbeat : s.heartbeat with
              | head =>
                  exact ⟨.heartbeat, by simp, by simp [step, State.stepHeartbeat, hheartbeat]⟩
              | waiting =>
                  exact ⟨.heartbeat, by simp, by simp [step, State.stepHeartbeat, hheartbeat]⟩
              | beating todo =>
                  refine ⟨.heartbeat, by simp, ?_⟩
                  cases todo <;> simp [step, State.stepHeartbeat, hheartbeat]
              | _ =>
                  apply canGoOn_main
                  simp [State.stepMain, hpc, hheartbeat]
          | unregister =>
              apply canGoOn_main
              simp [State.stepMain, hpc]
          | joinSignal =>
              apply canGoOn_main
              cases hsignal : s.signal <;> simp [State.stepMain, hpc, hsignal]
  | stopping pc ops =>
      apply canGoOn_main
      cases pc <;> simp [State.stepMain, hpc]
  | unregistering todo ops =>
      apply canGoOn_main
      cases todo <;> simp [State.stepMain, hpc]
  | joiningSignal ops =>
      obtain ⟨halive, hpending⟩ := hawaited ops hpc
      cases hsignal : s.signal with
      | none => rw [hsignal] at halive; cases halive
      | joined => rw [hsignal] at halive; cases halive
      | waiting =>
          refine ⟨.signal, by simp, ?_⟩
          simp [step, State.stepSignal, hsignal, hpending hsignal]
      | stopping pc => exact canGoOn_signal hsignal
      | exited =>
          apply canGoOn_main
          simp [State.stepMain, hpc, hsignal]
  | _ => rw [hpc] at hlate; cases hlate

end Progress

/-- A step of one of the threads of the application. -/
def isOwn (τ : AppTransition) : Bool := decide (τ.action ≠ .kill)

theorem remaining_of_step {cfg : AppConfig} {τ : AppTransition} (hordered : Ordered τ.pre)
    (hstopping : τ.pre.stopping = true) (hstep : step cfg τ.pre τ.action = some τ.post) :
    τ.post.stopping = true ∧
      (if isOwn τ then 1 else 0) + τ.post.remaining ≤ τ.pre.remaining := by
  rcases moves_of_step hstep with ⟨hkill, hpost⟩ | ⟨hown, hmoves⟩
  · rw [hpost, if_neg (by simp [isOwn, hkill])]
    exact ⟨hstopping, Nat.le_of_eq (Nat.zero_add _)⟩
  · obtain ⟨hset, hless⟩ := remaining_of_moves hordered hstopping hmoves
    rw [if_pos (by simp [isOwn, hown])]
    exact ⟨hset, by omega⟩

/-- Once `stop()` has set `stopping_`, an application ends, however its threads
are interleaved and whichever signals still come: no run from there on has more
steps of its threads than `remaining`, and as long as the main thread is not
through with the destructor, some thread can go on without anything having to
fail. -/
theorem shutdown_ends (cfg : AppConfig) (trace later : List AppTransition) (s s' : State)
    (hrun : Run (step cfg) State.built trace s) (hstopping : s.stopping = true)
    (hlater : Run (step cfg) s later s') :
    later.countP isOwn + s'.remaining ≤ s.remaining ∧
      (s'.main ≠ .finishing [] → CanGoOn cfg s') := by
  -- All along the way the flag stays set.
  have hset : ∀ {earlier : List AppTransition} {m : State}, Run (step cfg) s earlier m →
      m.stopping = true := by
    intro earlier m hearlier
    apply hearlier.history_invariant (P := fun _ m => m.stopping = true) hstopping
    intro before τ _ hbefore hstep hpre
    exact (remaining_of_step (sound_of_run (hrun.append hbefore)).ordered hpre hstep).1
  constructor
  · refine hlater.countP_add_le fun τ hτ => ?_
    obtain ⟨earlier, hearlier, -⟩ := hlater.pre_of_mem hτ
    exact (remaining_of_step (sound_of_run (hrun.append hearlier)).ordered (hset hearlier)
      (hlater.step_of_mem hτ)).2
  · have hall := hrun.append hlater
    exact progress (sound_of_run hall) (awaited_of_run hall) (hset hlater)

theorem shutdown_ends_signalled :
    ∃ trace s, Run (step ⟨["rpc"], true⟩) State.built trace s ∧ s.remaining = 51 ∧
      ∀ later s', Run (step ⟨["rpc"], true⟩) s later s' → later.countP isOwn ≤ 51 ∧
        (s'.main ≠ .finishing [] → CanGoOn ⟨["rpc"], true⟩ s') := by
  obtain ⟨s, hrun, hs⟩ : ∃ s, Run (step ⟨["rpc"], true⟩) State.built
      (executeTrace (step ⟨["rpc"], true⟩) State.built
        (List.replicate 7 (.main true) ++ [.kill, .signal, .signal])) s ∧
      decide (s.stopping = true ∧ s.remaining = 51) = true :=
    exists_run_of_execute (by decide +kernel)
  obtain ⟨hstopping, hremaining⟩ := of_decide_eq_true hs
  refine ⟨_, s, hrun, hremaining, fun later s' hlater => ?_⟩
  obtain ⟨hbound, hprogress⟩ := shutdown_ends _ _ later s s' hrun hstopping hlater
  exact ⟨by omega, hprogress⟩

end App
end Corpcron
