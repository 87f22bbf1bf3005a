import Mathlib.Data.List.Induction
import Mathlib.Data.List.Count

/-!
# Runs of a step function

A system is given by a partial step function `step : σ → α → Option σ`.  A run
keeps the whole list of executed transitions, in chronological order, so that
a statement can speak about two different moments of one run: the state just
before an earlier step and the state just after a later one.

* `Run` is the run relation, built by appending one transition at the end.
* `Run.invariant` is the invariant rule.  The step obligation only has to be
  met by the transitions that really occur, so a side condition on the run is
  simply a hypothesis about the members of its trace.
* `Run.history_invariant` is the same rule for properties of state and history.
* `Run.countP_add_le` is the rule for a measure.
* `Run.split` cuts a run at one of its transitions.
* `execute` runs a list of actions; `run_of_execute` turns a successful
  execution into a run, which is how concrete runs are exhibited, and
  `exists_cut_of_getElem?` cuts them.
* `filterMap_concat` is for the list of what the transitions of a run show.
* `Run.project` is for a system that contains another one: its run, seen through
  `Transition.project`, is a run of the inner system.
-/

namespace Corpcron
namespace Lib

/-- One executed step together with the states around it. -/
structure Transition (σ α : Type*) where
  pre : σ
  action : α
  post : σ

/-- `Run step s trace s'`: the transitions of `trace`, executed one after the
other, lead from `s` to `s'`. -/
inductive Run {σ α : Type*} (step : σ → α → Option σ) (s : σ) :
    List (Transition σ α) → σ → Prop
  | nil : Run step s [] s
  | snoc {m s' : σ} {trace : List (Transition σ α)} {a : α}
      (hrun : Run step s trace m) (hstep : step m a = some s') :
      Run step s (trace ++ [⟨m, a, s'⟩]) s'

section Rules

variable {σ α : Type*} {step : σ → α → Option σ}

/-- A run whose transitions all keep `P` leads from `P` to `P`. -/
theorem Run.invariant {P : σ → Prop} {s s' : σ} {trace : List (Transition σ α)}
    (hrun : Run step s trace s') (hinit : P s)
    (hkeep : ∀ τ ∈ trace, step τ.pre τ.action = some τ.post → P τ.pre → P τ.post) :
    P s' := by
  induction hrun with
  | nil => exact hinit
  | @snoc m s' trace a hrun hstep ih =>
      have hearlier : P m := by
        apply ih
        intro τ hτ
        exact hkeep τ (List.mem_append_left _ hτ)
      exact hkeep ⟨m, a, s'⟩ (by simp) hstep hearlier

/-- The invariant rule for a property that also looks at the part of the run
passed so far. -/
theorem Run.history_invariant {P : List (Transition σ α) → σ → Prop} {s s' : σ}
    {trace : List (Transition σ α)} (hrun : Run step s trace s') (hinit : P [] s)
    (hkeep : ∀ earlier τ, earlier ++ [τ] <+: trace → Run step s earlier τ.pre →
      step τ.pre τ.action = some τ.post → P earlier τ.pre → P (earlier ++ [τ]) τ.post) :
    P trace s' := by
  induction hrun with
  | nil => exact hinit
  | @snoc m s' trace a hrun hstep ih =>
      have hearlier : P trace m := by
        apply ih
        intro earlier τ hinitial
        exact hkeep earlier τ (hinitial.trans (List.prefix_append _ _))
      exact hkeep trace ⟨m, a, s'⟩ List.prefix_rfl hrun hstep hearlier

/-- Two runs that meet compose. -/
theorem Run.append {s m s' : σ} {first second : List (Transition σ α)}
    (hfirst : Run step s first m) (hsecond : Run step m second s') :
    Run step s (first ++ second) s' := by
  induction hsecond with
  | nil => simpa using hfirst
  | snoc _ hstep ih =>
      rw [← List.append_assoc]
      exact Run.snoc ih hstep

/-- A run over a concatenated trace passes through a middle state. -/
theorem Run.of_append {s s' : σ} {first second : List (Transition σ α)}
    (hrun : Run step s (first ++ second) s') :
    ∃ m, Run step s first m ∧ Run step m second s' := by
  -- Runs grow at their end, so the second part is taken apart from there.
  induction second using List.reverseRecOn generalizing s' with
  | nil => exact ⟨s', by simpa using hrun, Run.nil⟩
  | append_singleton second τ ih =>
      rw [← List.append_assoc] at hrun
      generalize htrace : (first ++ second) ++ [τ] = trace at hrun
      cases hrun with
      | nil => simp at htrace
      | @snoc m s' trace a hrun hstep =>
          obtain ⟨hearlier, hlast⟩ := List.append_inj' htrace rfl
          subst hearlier
          obtain ⟨mid, hfirst, hsecond⟩ := ih hrun
          simp only [List.cons.injEq, and_true] at hlast
          subst hlast
          exact ⟨mid, hfirst, Run.snoc hsecond hstep⟩

/-- A run without transitions has not moved. -/
theorem Run.eq_of_nil {s s' : σ} (hrun : Run step s [] s') : s' = s := by
  generalize htrace : ([] : List (Transition σ α)) = trace at hrun
  cases hrun with
  | nil => rfl
  | snoc => simp at htrace

/-- A run that starts with a given transition. -/
theorem Run.of_cons {s s' : σ} {τ : Transition σ α}
    {rest : List (Transition σ α)} (hrun : Run step s (τ :: rest) s') :
    s = τ.pre ∧ step τ.pre τ.action = some τ.post ∧ Run step τ.post rest s' := by
  have hconcat : Run step s ([τ] ++ rest) s' := by simpa using hrun
  obtain ⟨m, hhead, hrest⟩ := hconcat.of_append
  generalize htrace : [τ] = trace at hhead
  cases hhead with
  | nil => simp at htrace
  | @snoc start _ trace a hempty hstep =>
      have hsingle : [] ++ [τ] = trace ++ [⟨start, a, m⟩] := by simpa using htrace
      obtain ⟨hnil, hlast⟩ := List.append_inj' hsingle rfl
      subst hnil
      simp only [List.cons.injEq, and_true] at hlast
      subst hlast
      have hstart : start = s := hempty.eq_of_nil
      subst hstart
      exact ⟨rfl, hstep, hrest⟩

/-- Cut a run at one of its transitions. -/
theorem Run.split {s s' : σ} {τ : Transition σ α}
    {before after : List (Transition σ α)}
    (hrun : Run step s (before ++ τ :: after) s') :
    Run step s before τ.pre ∧ step τ.pre τ.action = some τ.post ∧
      Run step τ.post after s' := by
  obtain ⟨m, hbefore, hrest⟩ := hrun.of_append
  obtain ⟨hm, hstep, hafter⟩ := hrest.of_cons
  subst hm
  exact ⟨hbefore, hstep, hafter⟩

/-- If the transitions with `p` make a measure smaller and no other makes it
larger, a run has no more of them than the measure at its beginning. -/
theorem Run.countP_add_le {p : Transition σ α → Bool} {μ : σ → Nat} {s s' : σ}
    {trace : List (Transition σ α)} (hrun : Run step s trace s')
    (hμ : ∀ τ ∈ trace, (if p τ then 1 else 0) + μ τ.post ≤ μ τ.pre) :
    trace.countP p + μ s' ≤ μ s := by
  induction hrun with
  | nil => simp
  | @snoc m s' trace a hrun hstep ih =>
      have hearlier := ih fun τ hτ => hμ τ (List.mem_append_left _ hτ)
      have hlast := hμ ⟨m, a, s'⟩ (by simp)
      rw [List.countP_append, List.countP_singleton]
      dsimp only at hlast ⊢
      omega

/-- Every transition of a run is a step of the system. -/
theorem Run.step_of_mem {s s' : σ} {τ : Transition σ α}
    {trace : List (Transition σ α)} (hrun : Run step s trace s')
    (hτ : τ ∈ trace) : step τ.pre τ.action = some τ.post := by
  obtain ⟨before, after, rfl⟩ := List.append_of_mem hτ
  exact hrun.split.2.1

/-- The part of a run before one of its transitions. -/
theorem Run.pre_of_mem {s s' : σ} {τ : Transition σ α} {trace : List (Transition σ α)}
    (hrun : Run step s trace s') (hτ : τ ∈ trace) :
    ∃ earlier, Run step s earlier τ.pre ∧ earlier <+: trace := by
  obtain ⟨before, after, rfl⟩ := List.append_of_mem hτ
  exact ⟨before, hrun.split.1, List.prefix_append _ _⟩

/-- An invariant kept along a run also holds before each of its
transitions. -/
theorem Run.invariant_pre {P : σ → Prop} {s s' : σ} {τ : Transition σ α}
    {trace : List (Transition σ α)} (hrun : Run step s trace s') (hτ : τ ∈ trace)
    (hinit : P s)
    (hkeep : ∀ τ ∈ trace, step τ.pre τ.action = some τ.post → P τ.pre → P τ.post) :
    P τ.pre := by
  obtain ⟨before, after, rfl⟩ := List.append_of_mem hτ
  apply hrun.split.1.invariant hinit
  intro τ' hτ'
  exact hkeep τ' (List.mem_append_left _ hτ')

end Rules

/-! ## Executing a list of actions -/

/-- Execute the actions in order; `none` when one of them is not enabled. -/
def execute {σ α : Type*} (step : σ → α → Option σ) : σ → List α → Option σ
  | s, [] => some s
  | s, a :: rest =>
      match step s a with
      | none => none
      | some s' => execute step s' rest

/-- The transitions passed while executing the actions. -/
def executeTrace {σ α : Type*} (step : σ → α → Option σ) :
    σ → List α → List (Transition σ α)
  | _, [] => []
  | s, a :: rest =>
      match step s a with
      | none => []
      | some s' => ⟨s, a, s'⟩ :: executeTrace step s' rest

/-- A successful execution is a run. -/
theorem run_of_execute {σ α : Type*} {step : σ → α → Option σ} {s s' : σ}
    {actions : List α} (hexec : execute step s actions = some s') :
    Run step s (executeTrace step s actions) s' := by
  induction actions generalizing s with
  | nil =>
      simp only [execute, Option.some.injEq] at hexec
      subst hexec
      exact Run.nil
  | cons a rest ih =>
      simp only [execute] at hexec
      cases hstep : step s a with
      | none => simp [hstep] at hexec
      | some m =>
          simp only [hstep] at hexec
          simp only [executeTrace, hstep]
          have hfirst : Run step s [⟨s, a, m⟩] m := by
            simpa using Run.snoc Run.nil hstep
          simpa using hfirst.append (ih hexec)

/-- An execution that ends in a state with a decidable property. -/
theorem exists_run_of_execute {σ α : Type*} {step : σ → α → Option σ} {s : σ}
    {actions : List α} {p : σ → Bool} (h : (execute step s actions).any p = true) :
    ∃ s', Run step s (executeTrace step s actions) s' ∧ p s' = true := by
  cases hexec : execute step s actions with
  | none => simp [hexec] at h
  | some s' =>
      rw [hexec] at h
      exact ⟨s', run_of_execute hexec, h⟩

/-- An execution in which every action is enabled. -/
theorem exists_run_of_isSome {σ α : Type*} {step : σ → α → Option σ} {s : σ}
    {actions : List α} (h : (execute step s actions).isSome = true) :
    ∃ s', Run step s (executeTrace step s actions) s' := by
  obtain ⟨s', hexec⟩ := Option.isSome_iff_exists.mp h
  exact ⟨s', run_of_execute hexec⟩

/-- What a list shows after one more element. -/
theorem filterMap_concat {β γ : Type*} (f : β → Option γ) (l : List β) (x : β) :
    (l ++ [x]).filterMap f = l.filterMap f ++ (f x).toList := by
  rw [List.filterMap_append]
  cases hx : f x with
  | none => rw [List.filterMap_cons_none hx, List.filterMap_nil, Option.toList_none]
  | some y => rw [List.filterMap_cons_some hx, List.filterMap_nil, Option.toList_some]

/-- What a transition is for an inner system: `abs` is the inner state and
`act` the inner action, if the step is one of the inner system. -/
def Transition.project {σ α ρ β : Type*} (abs : σ → ρ) (act : σ → α → Option β)
    (τ : Transition σ α) : Option (Transition ρ β) :=
  (act τ.pre τ.action).map fun b => ⟨abs τ.pre, b, abs τ.post⟩

/-- If each step is a step of the inner system or leaves it alone, a run is a
run of the inner system. -/
theorem Run.project {σ α ρ β : Type*} {step : σ → α → Option σ} {inner : ρ → β → Option ρ}
    {abs : σ → ρ} {act : σ → α → Option β}
    (hsteps : ∀ s a s', step s a = some s' →
      (act s a = none ∧ abs s' = abs s) ∨ ∃ b, act s a = some b ∧ inner (abs s) b = some (abs s'))
    {s s' : σ} {trace : List (Transition σ α)} (hrun : Run step s trace s') :
    Run inner (abs s) (trace.filterMap (Transition.project abs act)) (abs s') := by
  induction hrun with
  | nil => exact .nil
  | @snoc m s' trace a hrun hstep ih =>
      rw [filterMap_concat]
      rcases hsteps m a s' hstep with ⟨hnone, hsame⟩ | ⟨b, hb, hinner⟩
      · have hproject : Transition.project abs act ⟨m, a, s'⟩ = none := by
          simp only [Transition.project, hnone, Option.map_none]
        rw [hproject, hsame, Option.toList_none, List.append_nil]
        exact ih
      · have hproject : Transition.project abs act ⟨m, a, s'⟩ = some ⟨abs m, b, abs s'⟩ := by
          simp only [Transition.project, hb, Option.map_some]
        rw [hproject]
        exact .snoc ih hinner

/-- A list is cut at the last occurrence of an element in one way only. -/
theorem append_cons_inj_of_last {β : Type*} {x : β} {u u' w w' : List β} (hw : x ∉ w)
    (hw' : x ∉ w') : u ++ x :: w = u' ++ x :: w' ↔ u = u' ∧ w = w' := by
  -- The longer of the two first parts would put the element into the other second part.
  constructor
  · intro heq
    rcases List.append_eq_append_iff.mp heq with ⟨v, rfl, hv⟩ | ⟨v, rfl, hv⟩
    · cases v with
      | nil => exact ⟨(List.append_nil u).symm, (List.cons.inj hv).2⟩
      | cons c rest =>
          rw [(List.cons.inj hv).2] at hw
          exact absurd (List.mem_append_right _ List.mem_cons_self) hw
    · cases v with
      | nil => exact ⟨List.append_nil u', (List.cons.inj hv).2.symm⟩
      | cons c rest =>
          rw [(List.cons.inj hv).2] at hw'
          exact absurd (List.mem_append_right _ List.mem_cons_self) hw'
  · rintro ⟨rfl, rfl⟩
    rfl

/-- Cut a list at a position. -/
theorem eq_cut_of_getElem? {β : Type*} {l : List β} {k : Nat} {x : β} (h : l[k]? = some x) :
    l = l.take k ++ x :: l.drop (k + 1) := by
  obtain ⟨hk, rfl⟩ := List.getElem?_eq_some_iff.mp h
  rw [List.getElem_cons_drop, List.take_append_drop]

/-- Cut a list at a position whose element has a decidable property. -/
theorem exists_cut_of_getElem? {β : Type*} {l : List β} {p : β → Bool} (k : Nat)
    (h : l[k]?.any p = true) : ∃ x, l = l.take k ++ x :: l.drop (k + 1) ∧ p x = true := by
  cases hx : l[k]? with
  | none => simp [hx] at h
  | some x =>
      rw [hx, Option.any_some] at h
      exact ⟨x, eq_cut_of_getElem? hx, h⟩

end Lib
end Corpcron
