import Corpcron.System.ExecutionIds

/-!
# When two dispatches get the same execution id

`next_execution_id` puts together the task, the clock reading in milliseconds and
a counter of the process.  The three parts can be read back from the id
(`nextExecutionId_inj`), so two ids agree exactly if all three parts do.

The counter belongs to one lifetime of one process: it starts at zero with each
`boot`.  Within a lifetime the dispatches that reach a successful claim have
ascending numbers (`claims_ascending`).  Nothing in the id names the node or the
lifetime, so across lifetimes it is up to the clocks.
-/

namespace Corpcron

open Lib

/-! ## Reading an id -/

theorem colon_not_mem_toString (n : Nat) : ':' ∉ (toString n).toList := by
  rw [Nat.toString_eq_repr, Nat.toList_repr]
  intro hmem
  have hdigit := Nat.isDigit_of_mem_toDigits (b := 10) (by decide) (by decide) hmem
  exact absurd hdigit (by decide)

theorem toString_nat_inj {m n : Nat} : (toString m).toList = (toString n).toList ↔ m = n := by
  constructor
  · intro heq
    rw [Nat.toString_eq_repr, Nat.toString_eq_repr, Nat.toList_repr, Nat.toList_repr] at heq
    simpa using congrArg (fun digits => Nat.ofDigitChars 10 digits 0) heq
  · rintro rfl
    rfl

theorem nextExecutionId_inj {taskId taskId' : String} {nowMs nowMs' sequence sequence' : Nat} :
    nextExecutionId taskId nowMs sequence = nextExecutionId taskId' nowMs' sequence' ↔
      taskId = taskId' ∧ nowMs = nowMs' ∧ sequence = sequence' := by
  have hlist : ∀ (id : String) (ms n : Nat), (nextExecutionId id ms n).toList =
      (id.toList ++ ':' :: (toString ms).toList) ++ ':' :: (toString n).toList := by
    intro id ms n
    simp [nextExecutionId]
  rw [← String.toList_inj, hlist, hlist,
    append_cons_inj_of_last (colon_not_mem_toString _) (colon_not_mem_toString _),
    append_cons_inj_of_last (colon_not_mem_toString _) (colon_not_mem_toString _), String.toList_inj,
    toString_nat_inj, toString_nat_inj, and_assoc]

/-! ## The scheduler thread of a process -/

variable {env : Env} {s s' s₀ : State} {a : Action} {p tid : Nat} {inp : Input} {reply : Reply}
  {trace : List SystemTransition} {τ : SystemTransition} {pass : Pass} {d : Dispatch}
  {P : SystemTransition → Prop}

/-- Where a scheduler thread comes from. -/
theorem scheduler_origin {pc : SchedulerPc} (h : step env s a = some s')
    (hth : s'.threads tid = some ⟨p, .scheduler pc⟩) :
    (s.threads tid = some ⟨p, .scheduler pc⟩ ∧ ∀ inp, a ≠ .run tid inp) ∨
    (∃ inp pc₀, a = .run tid inp ∧ s.threads tid = some ⟨p, .scheduler pc₀⟩ ∧
      pc = pc₀.next env.platform (env.node p) inp
        (Thread.exec env inp s.stores ⟨p, .scheduler pc₀⟩).2) ∨
    (∃ renewer, a = .boot p tid renewer ∧ pc = .scanningStale) := by
  cases threadOrigin h hth with
  | kept hbefore hidle => exact .inl ⟨hbefore, hidle⟩
  | moved inp th₀ haction hbefore heq =>
      obtain ⟨q, pc₀⟩ := th₀
      cases pc₀ with
      | scheduler pc₀ =>
          simp only [Thread.advance, Pc.next, Thread.mk.injEq, Pc.scheduler.injEq] at heq
          obtain ⟨rfl, heq⟩ := heq
          exact .inr (.inl ⟨inp, pc₀, haction, hbefore, heq⟩)
      | _ => simp [Thread.advance, Pc.next] at heq
  | spawned inp parent th₀ d haction hparent hspawn hname hfresh heq => simp at heq
  | killed q th₀ haction hbefore heq => simp at heq
  | booted q scheduler renewer haction hname hfresh heq =>
      subst haction
      have hthreads := (step_boot h).2.2.2.2 tid
      rw [hth] at hthreads
      split at hthreads
      · simp at hthreads
      · split at hthreads
        next hne htid =>
          simp only [Option.some.injEq, Thread.mk.injEq, Pc.scheduler.injEq] at hthreads
          obtain ⟨rfl, rfl⟩ := hthreads
          exact .inr (.inr ⟨renewer, by rw [htid], rfl⟩)
        next =>
          rw [hfresh] at hthreads
          cases hthreads
  | called q call inp haction hfresh heq => simp at heq

/-- A node with a living thread is not started again. -/
theorem not_boot_of_thread {pc : Pc} (hrun : Run (step env) s₀ trace s)
    (hstart : ∀ tid, s₀.threads tid = none) (h : step env s a = some s')
    (hth : s.threads tid = some ⟨p, pc⟩) (hlive : pc ≠ .dead) (scheduler renewer : Nat) :
    a ≠ .boot p scheduler renewer := by
  rintro rfl
  have halive := alive_of_thread hrun hstart tid _ hth hlive
  rw [(step_boot h).1] at halive
  cases halive

/-- A process has one scheduler thread. -/
theorem scheduler_unique (hrun : Run (step env) s₀ trace s)
    (hstart : ∀ tid, s₀.threads tid = none) :
    ∀ p tid tid' pc pc', s.threads tid = some ⟨p, .scheduler pc⟩ →
      s.threads tid' = some ⟨p, .scheduler pc'⟩ → tid = tid' := by
  refine hrun.history_invariant (P := fun _ s => ∀ p tid tid' pc pc',
    s.threads tid = some ⟨p, .scheduler pc⟩ → s.threads tid' = some ⟨p, .scheduler pc'⟩ →
      tid = tid') (fun p tid tid' pc pc' hth => by simp [hstart] at hth) ?_
  intro earlier τ _ hearlier hstep ih p tid tid' pc pc' hth hth'
  have hbefore : ∀ t pc, τ.post.threads t = some ⟨p, .scheduler pc⟩ →
      (∃ pc₀, τ.pre.threads t = some ⟨p, .scheduler pc₀⟩) ∨
        ∃ renewer, τ.action = .boot p t renewer := by
    intro t pc ht
    rcases scheduler_origin hstep ht with ⟨hsame, -⟩ | ⟨-, pc₀, -, hsame, -⟩ | ⟨renewer, hboot, -⟩
    · exact .inl ⟨pc, hsame⟩
    · exact .inl ⟨pc₀, hsame⟩
    · exact .inr ⟨renewer, hboot⟩
  rcases hbefore tid pc hth with ⟨pc₀, hold⟩ | ⟨renewer, hboot⟩
  · rcases hbefore tid' pc' hth' with ⟨pc₀', hold'⟩ | ⟨renewer, hboot⟩
    · exact ih p tid tid' pc₀ pc₀' hold hold'
    · exact absurd hboot (not_boot_of_thread hearlier hstart hstep hold (by simp) _ _)
  · rcases hbefore tid' pc' hth' with ⟨pc₀', hold'⟩ | ⟨renewer', hboot'⟩
    · exact absurd hboot (not_boot_of_thread hearlier hstart hstep hold' (by simp) _ _)
    · rw [hboot] at hboot'
      cases hboot'
      rfl

/-! ## The counter -/

/-- Only `next_execution_id` moves the counter. -/
theorem LocalAccess.exec_sequence (steadyMs : Nat) (proc : Process) (call : LocalAccess) :
    (call.exec steadyMs proc).1.sequence = proc.sequence ∨
      call = .nextSequence ∧ (call.exec steadyMs proc).1.sequence = proc.sequence + 1 := by
  cases call with
  | nextSequence => exact .inr ⟨rfl, rfl⟩
  | judgeLeases due lost =>
      left
      simp only [LocalAccess.exec]
      induction due generalizing proc with
      | nil => rfl
      | cons lease due ih =>
          rw [List.foldl_cons, ih]
          unfold Process.judgeLease
          split
          · rfl
          · split
            · split <;> rfl
            · rfl
  | cancelTask taskId =>
      left
      simp only [LocalAccess.exec, Process.cancelTask]
      split <;> rfl
  | _ => exact .inl rfl

/-- A process that is neither started nor crashes in a step lives on or not as
before, and its counter does not go back. -/
theorem counter_of_step (h : step env s a = some s')
    (hboot : ∀ scheduler renewer, a ≠ .boot p scheduler renewer) (hcrash : a ≠ .crash p) :
    (s'.stores.procs p).alive = (s.stores.procs p).alive ∧
      (s.stores.procs p).sequence ≤ (s'.stores.procs p).sequence := by
  cases a with
  | run tid inp =>
      obtain ⟨⟨q, pc⟩, -, hstores, -⟩ := step_run h
      rw [hstores]
      refine ⟨Access.exec_alive _ _ _ _ _ _, ?_⟩
      have hprocs := Access.exec_procs inp.fault inp.steadyMs q p s.stores
        (Thread.access env ⟨q, pc⟩)
      change (Thread.exec env inp s.stores ⟨q, pc⟩).1.procs p = _ at hprocs
      rw [hprocs]
      cases Thread.access env ⟨q, pc⟩ with
      | process call =>
          dsimp only
          split
          next hp =>
            rw [← hp]
            have hcall := call.exec_sequence inp.steadyMs (s.stores.procs p)
            omega
          next => exact Nat.le_refl _
      | _ => exact Nat.le_refl _
  | boot q scheduler renewer =>
      have hne : p ≠ q := by
        rintro rfl
        exact hboot scheduler renewer rfl
      rw [(step_boot h).2.2.2.1]
      simp [Stores.setProc, hne]
  | crash q =>
      have hne : p ≠ q := by
        rintro rfl
        exact hcrash rfl
      simp only [step, Option.some.injEq] at h
      subst h
      simp [Stores.setProc, hne]
  | request q tid call inp =>
      rw [(step_request h).2.2.1]
      exact ⟨rfl, Nat.le_refl _⟩
  | stop q =>
      simp only [step, Option.some.injEq] at h
      subst h
      by_cases hq : p = q <;> simp [Stores.setProc, hq]
  | stopLoop q =>
      simp only [step, Option.some.injEq] at h
      subst h
      by_cases hq : p = q <;> simp [Stores.setProc, hq]
  | _ =>
      simp only [step, Option.some.injEq] at h
      subst h
      exact ⟨rfl, Nat.le_refl _⟩

theorem not_alive_of_crash (h : step env s (.crash p) = some s') :
    (s'.stores.procs p).alive = false := by
  simp only [step, Option.some.injEq] at h
  subst h
  simp [Stores.setProc]

/-! ## Numbers and claims -/

/-- A dispatch of process `p` is claimed successfully in the step. -/
def SystemTransition.Claims (env : Env) (p : Nat) (d : Dispatch) (τ : SystemTransition) : Prop :=
  ∃ tid inp pass, τ.action = .run tid inp ∧
    τ.pre.threads tid = some ⟨p, .scheduler (.dispatching pass d .claiming)⟩ ∧
    τ.returned env = true

/-- The dispatch is numbered in the step, when the clock shows `nowMs`. -/
def SystemTransition.Numbers (p : Nat) (d : Dispatch) (nowMs : Nat) (τ : SystemTransition) :
    Prop :=
  ∃ tid inp pass, τ.action = .run tid inp ∧ inp.clockMs = nowMs ∧
    τ.pre.threads tid = some ⟨p, .scheduler (.numbering pass d.task)⟩ ∧
    (τ.pre.stores.procs p).sequence = d.source

/-- The process is not started in these steps. -/
def NoBoot (p : Nat) (trace : List SystemTransition) : Prop :=
  ∀ τ ∈ trace, ∀ scheduler renewer, τ.action ≠ .boot p scheduler renewer

/-- A step with the property has been made in the present lifetime of `p`. -/
def InLifetime (p : Nat) (P : SystemTransition → Prop) (trace : List SystemTransition) : Prop :=
  ∃ before τ after, trace = before ++ τ :: after ∧ P τ ∧ NoBoot p after

theorem InLifetime.snoc (h : InLifetime p P trace)
    (hboot : ∀ scheduler renewer, τ.action ≠ .boot p scheduler renewer) :
    InLifetime p P (trace ++ [τ]) := by
  obtain ⟨before, ρ, after, rfl, hρ, hafter⟩ := h
  refine ⟨before, ρ, after ++ [τ], by simp, hρ, fun σ hσ => ?_⟩
  rcases List.mem_append.mp hσ with hearlier | hlast
  · exact hafter σ hearlier
  · rw [List.mem_singleton.mp hlast]
    exact hboot

theorem inLifetime_last (h : P τ) : InLifetime p P (trace ++ [τ]) :=
  ⟨trace, τ, [], rfl, h, by simp [NoBoot]⟩

/-- What has happened in the lifetime happened before the last step or in it. -/
theorem inLifetime_snoc_cases (h : InLifetime p P (trace ++ [τ])) :
    P τ ∨ InLifetime p P trace ∧ ∀ scheduler renewer, τ.action ≠ .boot p scheduler renewer := by
  obtain ⟨before, ρ, after, heq, hρ, hafter⟩ := h
  rcases List.eq_nil_or_concat after with rfl | ⟨rest, last, rfl⟩
  · obtain ⟨-, hlast⟩ := List.append_inj' heq rfl
    rw [List.cons.inj hlast |>.1]
    exact .inl hρ
  · have hsplit : trace ++ [τ] = (before ++ ρ :: rest) ++ [last] := by simpa using heq
    obtain ⟨rfl, hlast⟩ := List.append_inj' hsplit rfl
    obtain rfl : τ = last := (List.cons.inj hlast).1
    refine .inr ⟨⟨before, ρ, rest, rfl, hρ, fun σ hσ => ?_⟩, ?_⟩
    · exact hafter σ (by simp [hσ])
    · exact hafter τ (by simp)

/-- The dispatch has been numbered in the present lifetime of its process; this
is where its id comes from. -/
def NumberedIn (trace : List SystemTransition) (p : Nat) (d : Dispatch) (nowMs : Nat) : Prop :=
  InLifetime p (SystemTransition.Numbers p d nowMs) trace ∧
    d.executionId = nextExecutionId d.task.id nowMs d.source

/-- The stages up to the claim. -/
def DispatchStage.unclaimed : DispatchStage → Bool
  | .locking => true
  | .addingLease => true
  | .registering => true
  | .claiming => true
  | _ => false

/-- A dispatch goes through its stages in order. -/
theorem DispatchStage.unclaimed_of_next {pass₀ : Pass} {d₀ : Dispatch}
    {stage stage₀ : DispatchStage}
    (h : stage₀.next pass₀ d₀ inp reply = .dispatching pass d stage) :
    pass₀ = pass ∧ d₀ = d ∧
      (stage.unclaimed = true → stage₀.unclaimed = true ∧ stage₀ ≠ .claiming) := by
  unfold DispatchStage.next at h
  repeat' split at h
  all_goals
    cases h
    try exact ⟨rfl, rfl, by simp [DispatchStage.unclaimed]⟩

/-- How a scheduler thread comes to a stage of a dispatch. -/
theorem dispatching_of_next {pf : Platform} {cfg : NodeConfig} {pc : SchedulerPc}
    {stage : DispatchStage} (h : pc.next pf cfg inp reply = .dispatching pass d stage) :
    (∃ task, pc = .numbering pass task ∧
      d = ⟨task, nextExecutionId task.id inp.clockMs reply.number, reply.number⟩) ∨
    ∃ stage₀, pc = .dispatching pass d stage₀ ∧
      (stage.unclaimed = true → stage₀.unclaimed = true ∧ stage₀ ≠ .claiming) := by
  cases pc with
  | scanningStale =>
      simp only [SchedulerPc.next] at h
      cases hreply : reply.tasks <;> simp [hreply, recoverRest] at h
  | recovery rest task stage₀ =>
      cases stage₀ with
      | locking =>
          simp only [SchedulerPc.next] at h
          split at h
          · cases h
          · cases rest <;> simp [recoverRest] at h
      | recovering => simp [SchedulerPc.next] at h
      | unlocking =>
          simp only [SchedulerPc.next] at h
          cases rest <;> simp [recoverRest] at h
  | iterating pass₀ =>
      simp only [SchedulerPc.next, Pass.begin] at h
      split at h
      · cases h
      · split at h
        · cases h
        · split at h
          · cases h
          · cases h
          · split at h <;> cases h
  | skipping pass₀ skip =>
      simp only [SchedulerPc.next] at h
      split at h <;> cases h
  | numbering pass₀ task =>
      simp only [SchedulerPc.next, SchedulerPc.dispatching.injEq] at h
      obtain ⟨rfl, rfl, -⟩ := h
      exact .inl ⟨task, rfl, rfl⟩
  | dispatching pass₀ d₀ stage₀ =>
      obtain ⟨rfl, rfl, hstage⟩ := DispatchStage.unclaimed_of_next h
      exact .inr ⟨stage₀, rfl, hstage⟩
  | sleeping =>
      simp only [SchedulerPc.next] at h
      split at h <;> cases h
  | _ => simp [SchedulerPc.next] at h

/-- The numbers of a process: a dispatch carries the number it was given in this
lifetime, below the counter, and until it is claimed its number is above those
of all dispatches claimed in this lifetime. -/
structure Ascending (env : Env) (trace : List SystemTransition) (s : State) : Prop where
  numbered : ∀ tid p pass d stage,
    s.threads tid = some ⟨p, .scheduler (.dispatching pass d stage)⟩ →
      (∃ nowMs, NumberedIn trace p d nowMs) ∧ d.source < (s.stores.procs p).sequence
  claimed : ∀ p d, (s.stores.procs p).alive = true →
    InLifetime p (SystemTransition.Claims env p d) trace →
      d.source < (s.stores.procs p).sequence
  unclaimed : ∀ tid p pass d stage,
    s.threads tid = some ⟨p, .scheduler (.dispatching pass d stage)⟩ →
      stage.unclaimed = true → ∀ d', InLifetime p (SystemTransition.Claims env p d') trace →
        d'.source < d.source

/-- The counter stays ahead of the claimed dispatches. -/
theorem Ascending.claimed_step (h : Ascending env trace τ.pre)
    (hstep : step env τ.pre τ.action = some τ.post) (halive : (τ.post.stores.procs p).alive = true)
    (hin : InLifetime p (SystemTransition.Claims env p d) (trace ++ [τ])) :
    d.source < (τ.post.stores.procs p).sequence := by
  rcases inLifetime_snoc_cases hin with ⟨tid, inp, pass, haction, hth, -⟩ | ⟨hbefore, hboot⟩
  · have hcounter := (counter_of_step (p := p) hstep (by simp [haction]) (by simp [haction])).2
    exact Nat.lt_of_lt_of_le (h.numbered tid p pass d _ hth).2 hcounter
  · by_cases hcrash : τ.action = .crash p
    · rw [hcrash] at hstep
      rw [not_alive_of_crash hstep] at halive
      cases halive
    · obtain ⟨hsame, hcounter⟩ := counter_of_step hstep hboot hcrash
      rw [hsame] at halive
      exact Nat.lt_of_lt_of_le (h.claimed p d halive hbefore) hcounter

/-- A dispatch that its thread does not work on in this step. -/
theorem Ascending.of_kept (h : Ascending env trace τ.pre) (hrun : Run (step env) s₀ trace τ.pre)
    (hstart : ∀ tid, s₀.threads tid = none) (hstep : step env τ.pre τ.action = some τ.post)
    {stage : DispatchStage} (hidle : ∀ inp, τ.action ≠ .run tid inp)
    (hth : τ.pre.threads tid = some ⟨p, .scheduler (.dispatching pass d stage)⟩)
    (hpost : τ.post.threads tid = some ⟨p, .scheduler (.dispatching pass d stage)⟩) :
    ((∃ nowMs, NumberedIn (trace ++ [τ]) p d nowMs) ∧
        d.source < (τ.post.stores.procs p).sequence) ∧
      (stage.unclaimed = true →
        ∀ d', InLifetime p (SystemTransition.Claims env p d') (trace ++ [τ]) →
          d'.source < d.source) := by
  have hboot := not_boot_of_thread hrun hstart hstep hth (by simp)
  have hcrash : τ.action ≠ .crash p := by
    intro heq
    rw [heq] at hstep
    have hdead : Pc.scheduler (.dispatching pass d stage) = .dead := dead_of_crash hstep hpost
    cases hdead
  obtain ⟨⟨nowMs, hnumbered, hid⟩, hsource⟩ := h.numbered tid p pass d stage hth
  refine ⟨⟨⟨nowMs, hnumbered.snoc hboot, hid⟩, ?_⟩, fun hstage d' hin => ?_⟩
  · exact Nat.lt_of_lt_of_le hsource (counter_of_step hstep hboot hcrash).2
  · rcases inLifetime_snoc_cases hin with ⟨tid', inp, pass', haction, hth', -⟩ | ⟨hbefore, -⟩
    · -- The claim would be one of this very thread.
      obtain rfl := scheduler_unique hrun hstart p _ _ _ _ hth hth'
      exact absurd haction (hidle inp)
    · exact h.unclaimed tid p pass d stage hth hstage d' hbefore

/-- A dispatch that is given its number in this step. -/
theorem Ascending.of_numbered (h : Ascending env trace τ.pre) (hrun : Run (step env) s₀ trace τ.pre)
    (hstart : ∀ tid, s₀.threads tid = none) (hstep : step env τ.pre τ.action = some τ.post)
    (d : Dispatch) (haction : τ.action = .run tid inp)
    (hth : τ.pre.threads tid = some ⟨p, .scheduler (.numbering pass d.task)⟩)
    (hsource : d.source = (τ.pre.stores.procs p).sequence)
    (hid : d.executionId = nextExecutionId d.task.id inp.clockMs d.source) :
    ((∃ nowMs, NumberedIn (trace ++ [τ]) p d nowMs) ∧
        d.source < (τ.post.stores.procs p).sequence) ∧
      ∀ d', InLifetime p (SystemTransition.Claims env p d') (trace ++ [τ]) →
        d'.source < d.source := by
  have hpost : (τ.post.stores.procs p).sequence = (τ.pre.stores.procs p).sequence + 1 := by
    rw [haction] at hstep
    rw [stores_of_run hstep hth]
    simp [Thread.exec, Thread.access, Pc.access, SchedulerPc.access, Access.exec,
      LocalAccess.exec]
  refine ⟨⟨⟨inp.clockMs, ?_, hid⟩, ?_⟩, fun d' hin => ?_⟩
  · exact inLifetime_last ⟨tid, inp, pass, haction, rfl, hth, hsource.symm⟩
  · omega
  · rw [hsource]
    rcases inLifetime_snoc_cases hin with ⟨tid', inp', pass', haction', hth', -⟩ | ⟨hbefore, -⟩
    · rw [haction] at haction'
      cases haction'
      rw [hth] at hth'
      simp at hth'
    · exact h.claimed p d' (alive_of_thread hrun hstart tid _ hth (by simp)) hbefore

/-- A dispatch whose thread works on it in this step. -/
theorem Ascending.of_moved (h : Ascending env trace τ.pre)
    (hstep : step env τ.pre τ.action = some τ.post) {stage stage₀ : DispatchStage}
    (haction : τ.action = .run tid inp)
    (hth : τ.pre.threads tid = some ⟨p, .scheduler (.dispatching pass d stage₀)⟩)
    (hstage : stage.unclaimed = true → stage₀.unclaimed = true ∧ stage₀ ≠ .claiming) :
    ((∃ nowMs, NumberedIn (trace ++ [τ]) p d nowMs) ∧
        d.source < (τ.post.stores.procs p).sequence) ∧
      (stage.unclaimed = true →
        ∀ d', InLifetime p (SystemTransition.Claims env p d') (trace ++ [τ]) →
          d'.source < d.source) := by
  have hboot : ∀ scheduler renewer, τ.action ≠ .boot p scheduler renewer := by simp [haction]
  obtain ⟨⟨nowMs, hnumbered, hid⟩, hsource⟩ := h.numbered tid p pass d stage₀ hth
  refine ⟨⟨⟨nowMs, hnumbered.snoc hboot, hid⟩, ?_⟩, fun hunclaimed d' hin => ?_⟩
  · exact Nat.lt_of_lt_of_le hsource (counter_of_step hstep hboot (by simp [haction])).2
  · obtain ⟨hearly, hnot⟩ := hstage hunclaimed
    rcases inLifetime_snoc_cases hin with ⟨tid', inp', pass', haction', hth', -⟩ | ⟨hbefore, -⟩
    · rw [haction] at haction'
      cases haction'
      rw [hth] at hth'
      simp only [Option.some.injEq, Thread.mk.injEq, true_and, Pc.scheduler.injEq,
        SchedulerPc.dispatching.injEq] at hth'
      exact absurd hth'.2.2 hnot
    · exact h.unclaimed tid p pass d stage₀ hth hearly d' hbefore

theorem ascending_of_run (hrun : Run (step env) s₀ trace s)
    (hstart : ∀ tid, s₀.threads tid = none) : Ascending env trace s := by
  apply hrun.history_invariant (P := Ascending env)
  · refine ⟨fun tid p pass d stage hth => ?_, fun p d _ hin => ?_,
      fun tid p pass d stage hth => ?_⟩
    · simp [hstart] at hth
    · obtain ⟨before, τ, after, heq, -⟩ := hin
      simp at heq
    · simp [hstart] at hth
  · intro earlier τ _ hearlier hstep h
    have hthread : ∀ tid p pass d stage,
        τ.post.threads tid = some ⟨p, .scheduler (.dispatching pass d stage)⟩ →
        ((∃ nowMs, NumberedIn (earlier ++ [τ]) p d nowMs) ∧
            d.source < (τ.post.stores.procs p).sequence) ∧
          (stage.unclaimed = true →
            ∀ d', InLifetime p (SystemTransition.Claims env p d') (earlier ++ [τ]) →
              d'.source < d.source) := by
      intro tid p pass d stage hth
      rcases scheduler_origin hstep hth with
        ⟨hbefore, hidle⟩ | ⟨inp, pc₀, haction, hbefore, hnext⟩ | ⟨renewer, -, hpc⟩
      · exact h.of_kept hearlier hstart hstep hidle hbefore hth
      · rcases dispatching_of_next hnext.symm with ⟨task, rfl, hd⟩ | ⟨stage₀, rfl, hstage⟩
        · obtain ⟨hnumbered, hclaims⟩ := h.of_numbered hearlier hstart hstep d haction
            (by rw [hd]; exact hbefore) (by rw [hd]; rfl) (by rw [hd])
          exact ⟨hnumbered, fun _ => hclaims⟩
        · exact h.of_moved hstep haction hbefore hstage
      · cases hpc
    refine ⟨fun tid p pass d stage hth => (hthread tid p pass d stage hth).1,
      fun p d halive hin => h.claimed_step hstep halive hin,
      fun tid p pass d stage hth => (hthread tid p pass d stage hth).2⟩

/-! ## Collisions -/

/-- For any two successful claims of a run, in this order: both dispatches were
numbered in the lifetime of their process in which they are claimed; their ids
are equal exactly if task, clock reading and number are; and this does not happen
within one lifetime of a process, where the numbers ascend. -/
theorem execution_ids_eq_iff (trace : List SystemTransition)
    (hrun : Run (step env) s₀ trace s) (hstart : ∀ tid, s₀.threads tid = none)
    (before mid after : List SystemTransition) (τ₁ τ₂ : SystemTransition)
    (htrace : trace = before ++ τ₁ :: (mid ++ τ₂ :: after)) (p₁ p₂ : Nat) (d₁ d₂ : Dispatch)
    (hclaim₁ : τ₁.Claims env p₁ d₁) (hclaim₂ : τ₂.Claims env p₂ d₂) :
    ∃ nowMs₁ nowMs₂, NumberedIn before p₁ d₁ nowMs₁ ∧
      NumberedIn (before ++ τ₁ :: mid) p₂ d₂ nowMs₂ ∧
      (d₁.executionId = d₂.executionId ↔
        d₁.task.id = d₂.task.id ∧ nowMs₁ = nowMs₂ ∧ d₁.source = d₂.source) ∧
      (p₁ = p₂ → NoBoot p₁ mid →
        d₁.source < d₂.source ∧ d₁.executionId ≠ d₂.executionId) := by
  subst htrace
  have hsplit : Run (step env) s₀ ((before ++ τ₁ :: mid) ++ τ₂ :: after) s := by
    simpa using hrun
  have hrun₂ := hsplit.split.1
  have hrun₁ := hrun.split.1
  have ⟨tid₁, inp₁, pass₁, _, hth₁, _⟩ := hclaim₁
  obtain ⟨tid₂, inp₂, pass₂, -, hth₂, -⟩ := hclaim₂
  obtain ⟨⟨nowMs₁, hnumbered₁⟩, -⟩ :=
    (ascending_of_run hrun₁ hstart).numbered tid₁ p₁ pass₁ d₁ _ hth₁
  obtain ⟨⟨nowMs₂, hnumbered₂⟩, -⟩ :=
    (ascending_of_run hrun₂ hstart).numbered tid₂ p₂ pass₂ d₂ _ hth₂
  have hids : d₁.executionId = d₂.executionId ↔
      d₁.task.id = d₂.task.id ∧ nowMs₁ = nowMs₂ ∧ d₁.source = d₂.source := by
    rw [hnumbered₁.2, hnumbered₂.2]
    exact nextExecutionId_inj
  refine ⟨nowMs₁, nowMs₂, hnumbered₁, hnumbered₂, hids, ?_⟩
  rintro rfl hmid
  have hlifetime : InLifetime p₁ (SystemTransition.Claims env p₁ d₁) (before ++ τ₁ :: mid) :=
    ⟨before, τ₁, mid, rfl, hclaim₁, hmid⟩
  have hless : d₁.source < d₂.source :=
    (ascending_of_run hrun₂ hstart).unclaimed tid₂ p₁ pass₂ d₂ .claiming hth₂ rfl d₁ hlifetime
  exact ⟨hless, fun heq => Nat.ne_of_lt hless (hids.mp heq).2.2⟩

/-! ## Two nodes at the same millisecond -/

/-- Both nodes of the sample deployment find the task due and number a dispatch,
at `clock₁` and `clock₂`.  Node 0 gets the lock, claims the task and executes it
in 20 ms.  It is stopped before the closure chooses the next state, so the closure
leaves the task scheduled at the time it was due; then node 1 gets the lock for
which it has been waiting. -/
def twoNodesRun (clock₁ clock₂ : Nat) : List Action :=
  [.boot 0 0 1, .boot 1 2 3] ++ executes 0 clock₁ 4 ++ executes 2 clock₂ 4 ++
    executes 0 clock₁ 5 ++ [.run 0 { fresh := 4 }] ++ executes 4 (clock₁ + 20) 4 ++ [.stop 0] ++
    executes 4 (clock₁ + 20) 5 ++ executes 2 clock₂ 4

/-- The first dispatch of process `p` is claimed for the sample task. -/
def claimsFirst (p : Nat) (id : String) (τ : SystemTransition) : Bool :=
  τ.returned sampleEnv &&
    match τ.thread? with
    | some ⟨q, .scheduler (.dispatching _ d .claiming)⟩ =>
        decide (q = p ∧ d.executionId = id ∧ d.task.id = "t" ∧ d.source = 0)
    | _ => false

theorem of_claimsFirst {id : String} (h : claimsFirst p id τ = true) :
    ∃ d, τ.Claims sampleEnv p d ∧ d.executionId = id ∧ d.task.id = "t" ∧ d.source = 0 := by
  unfold claimsFirst at h
  obtain ⟨hreturned, hthread⟩ := Bool.and_eq_true_iff.mp h
  split at hthread
  next q pass d hth =>
    obtain ⟨rfl, hd⟩ := of_decide_eq_true hthread
    obtain ⟨tid, inp, haction, hth⟩ := SystemTransition.thread?_eq_some.mp hth
    exact ⟨d, ⟨tid, inp, pass, haction, hth, hreturned⟩, hd⟩
  next => cases hthread

/-- The two claims of such a run. -/
theorem claims_of_twoNodesRun (clock₁ clock₂ : Nat) (id₁ id₂ : String)
    (hsome : (execute (step sampleEnv) sampleState (twoNodesRun clock₁ clock₂)).isSome = true)
    (hfirst : (executeTrace (step sampleEnv) sampleState
      (twoNodesRun clock₁ clock₂))[13]?.any (claimsFirst 0 id₁) = true)
    (hsecond : ((executeTrace (step sampleEnv) sampleState
      (twoNodesRun clock₁ clock₂)).drop 14)[15]?.any (claimsFirst 1 id₂) = true) :
    ∃ (before mid after : List SystemTransition) (τ₁ τ₂ : SystemTransition) (d₁ d₂ : Dispatch)
        (s : State),
      Run (step sampleEnv) sampleState (before ++ τ₁ :: (mid ++ τ₂ :: after)) s ∧
      (τ₁.Claims sampleEnv 0 d₁ ∧ d₁.executionId = id₁ ∧ d₁.task.id = "t" ∧ d₁.source = 0) ∧
      (τ₂.Claims sampleEnv 1 d₂ ∧ d₂.executionId = id₂ ∧ d₂.task.id = "t" ∧ d₂.source = 0) := by
  obtain ⟨s, hrun⟩ := exists_run_of_isSome hsome
  obtain ⟨τ₁, hcut₁, hτ₁⟩ := exists_cut_of_getElem? 13 hfirst
  obtain ⟨τ₂, hcut₂, hτ₂⟩ := exists_cut_of_getElem? 15 hsecond
  obtain ⟨d₁, hd₁⟩ := of_claimsFirst hτ₁
  obtain ⟨d₂, hd₂⟩ := of_claimsFirst hτ₂
  rw [hcut₂] at hcut₁
  rw [hcut₁] at hrun
  exact ⟨_, _, _, τ₁, τ₂, d₁, d₂, s, hrun, hd₁, hd₂⟩

theorem execution_ids_eq_iff_apart :
    ∃ (before mid after : List SystemTransition) (τ₁ τ₂ : SystemTransition) (d₁ d₂ : Dispatch)
        (nowMs₁ nowMs₂ : Nat) (s : State),
      Run (step sampleEnv) sampleState (before ++ τ₁ :: (mid ++ τ₂ :: after)) s ∧
      NumberedIn before 0 d₁ nowMs₁ ∧ NumberedIn (before ++ τ₁ :: mid) 1 d₂ nowMs₂ ∧
      d₁.executionId = "t:10000:0" ∧ d₂.executionId = "t:10001:0" ∧ nowMs₁ ≠ nowMs₂ := by
  obtain ⟨before, mid, after, τ₁, τ₂, d₁, d₂, s, hrun, ⟨hclaim₁, hid₁, htask₁, hsource₁⟩,
    hclaim₂, hid₂, htask₂, hsource₂⟩ :=
    claims_of_twoNodesRun 10000 10001 "t:10000:0" "t:10001:0" (by decide +kernel)
      (by decide +kernel) (by decide +kernel)
  obtain ⟨nowMs₁, nowMs₂, hnumbered₁, hnumbered₂, hiff, -⟩ :=
    execution_ids_eq_iff _ hrun (fun _ => rfl) before mid after τ₁ τ₂ rfl 0 1 d₁ d₂ hclaim₁ hclaim₂
  refine ⟨before, mid, after, τ₁, τ₂, d₁, d₂, nowMs₁, nowMs₂, s, hrun, hnumbered₁, hnumbered₂,
    hid₁, hid₂, fun hsame => ?_⟩
  have heq := hiff.mpr ⟨htask₁.trans htask₂.symm, hsame, hsource₁.trans hsource₂.symm⟩
  rw [hid₁, hid₂] at heq
  exact absurd heq (by decide)

/-- When both clocks show the same millisecond, the task is claimed twice under
one id, by two nodes. -/
theorem same_id_claimed_twice :
    ∃ (before mid after : List SystemTransition) (τ₁ τ₂ : SystemTransition) (d₁ d₂ : Dispatch)
        (s : State),
      Run (step sampleEnv) sampleState (before ++ τ₁ :: (mid ++ τ₂ :: after)) s ∧
      τ₁.Claims sampleEnv 0 d₁ ∧ τ₂.Claims sampleEnv 1 d₂ ∧
      d₁.executionId = "t:10000:0" ∧ d₂.executionId = "t:10000:0" := by
  obtain ⟨before, mid, after, τ₁, τ₂, d₁, d₂, s, hrun, ⟨hclaim₁, hid₁, -⟩, hclaim₂, hid₂, -⟩ :=
    claims_of_twoNodesRun 10000 10000 "t:10000:0" "t:10000:0" (by decide +kernel)
      (by decide +kernel) (by decide +kernel)
  exact ⟨before, mid, after, τ₁, τ₂, d₁, d₂, s, hrun, hclaim₁, hclaim₂, hid₁, hid₂⟩

end Corpcron
