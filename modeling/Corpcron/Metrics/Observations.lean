import Corpcron.Lib.RingBuffer
import Corpcron.Lib.Threads
import Corpcron.Lib.Trace
import Corpcron.Metrics.Percentile

/-!
# `observeTaskDuration`, `observeScheduleDelay` and what `snapshot` makes of them

Any number of threads observe values of the two metrics.  An observation first
raises the maximum with a compare-and-swap loop and then, under
`samples_mutex_`, writes the value to its place in the window.  The loop may
fail spuriously, and threads interleave between any two atomic operations.

`snapshot` reads the maximum first and the window later, in one critical
section; `snapshotOf` takes the states at these two moments.
-/

namespace Corpcron
namespace Observations

open Lib

/-! ## The metrics -/

inductive Metric where
  | taskDuration
  | scheduleDelay
deriving DecidableEq

/-- `kSampleWindowSize`. -/
def sampleWindowSize : Nat := 1024

/-- The samples of a metric and how many there have been. -/
structure Samples where
  cells : List Nat
  length_cells : cells.length = sampleWindowSize
  total : Nat

namespace Samples

def empty : Samples where
  cells := List.replicate sampleWindowSize 0
  length_cells := List.length_replicate
  total := 0

/-- The critical section of an observation. -/
def record (samples : Samples) (value : Nat) : Samples where
  cells := samples.cells.set (samples.total % sampleWindowSize) value
  length_cells := by rw [List.length_set, samples.length_cells]
  total := (samples.total + 1) % 2 ^ 64

/-- The values that `snapshot` copies. -/
def values (samples : Samples) : List Nat :=
  samples.cells.take (min samples.total sampleWindowSize)

end Samples

/-- Where an observation stands. -/
inductive ObserverPc where
  /-- Before the first load of the maximum. -/
  | loading
  /-- In the loop of `updateMax`, with the maximum it has seen. -/
  | comparing (current : Nat)
  | recording
  | finished
deriving DecidableEq

/-- A call of `observeTaskDuration` or `observeScheduleDelay`. -/
structure Observer where
  metric : Metric
  value : Nat
  pc : ObserverPc
deriving DecidableEq

/-- The maximum has been raised to the value if need be. -/
def ObserverPc.raised : ObserverPc → Bool
  | .recording => true
  | .finished => true
  | _ => false

structure State where
  maximum : Metric → Nat
  samples : Metric → Samples
  observers : List Observer

namespace State

def built : State where
  maximum _ := 0
  samples _ := .empty
  observers := []

/-- The observer in place `i` goes on. -/
def move (s : State) (i : Nat) (o : Observer) (pc : ObserverPc) : State :=
  { s with observers := s.observers.set i { o with pc } }

/-- One atomic operation of an observation. -/
def stepObserver (s : State) (i : Nat) (o : Observer) (spurious : Bool) : Option State :=
  match o.pc with
  | .loading => some (s.move i o (.comparing (s.maximum o.metric)))
  | .comparing current =>
      if current < o.value then
        -- `compare_exchange_weak`
        if s.maximum o.metric = current ∧ spurious = false then
          some { s.move i o .recording with
            maximum := Function.update s.maximum o.metric o.value }
        else some (s.move i o (.comparing (s.maximum o.metric)))
      else some (s.move i o .recording)
  | .recording =>
      some { s.move i o .finished with
        samples := Function.update s.samples o.metric ((s.samples o.metric).record o.value) }
  | .finished => none

end State

inductive Action where
  /-- A thread calls the method of the metric. -/
  | observe (metric : Metric) (value : Nat)
  | advance (i : Nat) (spurious : Bool)

def step (s : State) : Action → Option State
  | .observe metric value =>
      some { s with observers := s.observers ++ [⟨metric, value, .loading⟩] }
  | .advance i spurious =>
      match s.observers[i]? with
      | none => none
      | some o => s.stepObserver i o spurious

abbrev ObservationTransition := Transition State Action

/-- The fields of `MetricsSnapshot` for one metric. -/
structure MetricSnapshot where
  maximum : Nat
  samplesTotal : Nat
  p95 : Nat
  p99 : Nat

/-- `snapshot`, which loads the maximum in `loaded` and copies the samples in
`copied`. -/
def snapshotOf (metric : Metric) (loaded copied : State) : MetricSnapshot where
  maximum := loaded.maximum metric
  samplesTotal := (copied.samples metric).total
  p95 := percentile (copied.samples metric).values (doubleLiteral 95 100)
  p99 := percentile (copied.samples metric).values (doubleLiteral 99 100)

/-! ## What a step does -/

/-- The value that a step records for a metric. -/
def recorded? (metric : Metric) (τ : ObservationTransition) : Option Nat :=
  match τ.action with
  | .advance i _ =>
      match τ.pre.observers[i]? with
      | some o => if o.metric = metric ∧ o.pc = .recording then some o.value else none
      | none => none
  | .observe _ _ => none

/-- The observations of a metric, in the order of their critical sections. -/
def observedIn (metric : Metric) (trace : List ObservationTransition) : List Nat :=
  trace.filterMap (recorded? metric)

/-- The cases of a step. -/
inductive Moves (s : State) : Action → State → Prop where
  | called (metric : Metric) (value : Nat) :
      Moves s (.observe metric value)
        { s with observers := s.observers ++ [⟨metric, value, .loading⟩] }
  | looked (i : Nat) (spurious : Bool) (o : Observer) (ho : s.observers[i]? = some o)
      (hpc : o.pc.raised = false) :
      Moves s (.advance i spurious) (s.move i o (.comparing (s.maximum o.metric)))
  | raised (i : Nat) (spurious : Bool) (o : Observer) (ho : s.observers[i]? = some o)
      (hpc : o.pc = .comparing (s.maximum o.metric)) (hvalue : s.maximum o.metric < o.value) :
      Moves s (.advance i spurious)
        { s.move i o .recording with maximum := Function.update s.maximum o.metric o.value }
  | enough (i : Nat) (spurious : Bool) (o : Observer) (current : Nat)
      (ho : s.observers[i]? = some o) (hpc : o.pc = .comparing current)
      (hvalue : o.value ≤ current) :
      Moves s (.advance i spurious) (s.move i o .recording)
  | recorded (i : Nat) (spurious : Bool) (o : Observer) (ho : s.observers[i]? = some o)
      (hpc : o.pc = .recording) :
      Moves s (.advance i spurious)
        { s.move i o .finished with
          samples := Function.update s.samples o.metric ((s.samples o.metric).record o.value) }

theorem moves_of_step {s s' : State} {a : Action} (h : step s a = some s') : Moves s a s' := by
  cases a with
  | observe metric value =>
      obtain rfl := Option.some.inj h
      exact .called metric value
  | advance i spurious =>
      simp only [step] at h
      cases ho : s.observers[i]? with
      | none => simp [ho] at h
      | some o =>
          simp only [ho, State.stepObserver] at h
          cases hpc : o.pc with
          | loading =>
              simp only [hpc, Option.some.injEq] at h
              subst h
              exact .looked i spurious o ho (by rw [hpc]; rfl)
          | comparing current =>
              simp only [hpc] at h
              split at h
              next hless =>
                split at h
                next hcas =>
                  obtain rfl := Option.some.inj h
                  obtain ⟨rfl, -⟩ := hcas
                  exact .raised i spurious o ho hpc hless
                next =>
                  obtain rfl := Option.some.inj h
                  exact .looked i spurious o ho (by rw [hpc]; rfl)
              next hless =>
                obtain rfl := Option.some.inj h
                exact .enough i spurious o current ho hpc (Nat.le_of_not_lt hless)
          | recording =>
              simp only [hpc, Option.some.injEq] at h
              subst h
              exact .recorded i spurious o ho hpc
          | finished => simp [hpc] at h

/-! ## The window -/

variable {metric : Metric} {trace : List ObservationTransition} {τ : ObservationTransition}
  {s : State}

theorem observedIn_snoc :
    observedIn metric (trace ++ [τ]) = observedIn metric trace ++ (recorded? metric τ).toList :=
  filterMap_concat (recorded? metric) trace τ

/-- The last observations are in the window, and all are counted. -/
structure Windowed (values : List Nat) (samples : Samples) : Prop where
  holds : Holds samples.cells values
  total : samples.total = values.length % 2 ^ 64

theorem Windowed.record {values : List Nat} {samples : Samples} (h : Windowed values samples)
    (v : Nat) : Windowed (values ++ [v]) (samples.record v) := by
  have hlength := samples.length_cells
  constructor
  · -- The counter wraps at a multiple of the size of the window.
    have hindex : samples.total % sampleWindowSize = values.length % samples.cells.length := by
      rw [h.total, hlength]
      exact Nat.mod_mod_of_dvd _ (by decide)
    have hpush := h.holds.push (by rw [hlength]; decide) v
    rw [← hindex] at hpush
    exact hpush
  · change (samples.total + 1) % 2 ^ 64 = _
    rw [h.total, List.length_append, List.length_singleton, Nat.mod_add_mod]

theorem recorded?_advance {i : Nat} {spurious : Bool} {o : Observer}
    (haction : τ.action = .advance i spurious) (ho : τ.pre.observers[i]? = some o) :
    recorded? metric τ =
      if o.metric = metric ∧ o.pc = .recording then some o.value else none := by
  simp only [recorded?, haction, ho]

theorem recorded?_of_not_recording {i : Nat} {spurious : Bool} {o : Observer}
    (haction : τ.action = .advance i spurious) (ho : τ.pre.observers[i]? = some o)
    (hpc : o.pc ≠ .recording) : recorded? metric τ = none := by
  rw [recorded?_advance haction ho, if_neg]
  exact fun h => hpc h.2

theorem ObserverPc.ne_recording_of_raised {pc : ObserverPc} (h : pc.raised = false) :
    pc ≠ .recording := by
  rintro rfl
  cases h

/-- A step records at most one value, and the samples of a metric change only
so. -/
theorem samples_of_moves (h : Moves τ.pre τ.action τ.post) (metric : Metric) :
    (recorded? metric τ = none ∧ τ.post.samples metric = τ.pre.samples metric) ∨
      ∃ v, recorded? metric τ = some v ∧
        τ.post.samples metric = (τ.pre.samples metric).record v := by
  obtain ⟨pre, action, post⟩ := τ
  dsimp only at h ⊢
  cases h with
  | called m v => exact .inl ⟨rfl, rfl⟩
  | looked i spurious o ho hpc =>
      exact .inl ⟨recorded?_of_not_recording rfl ho (ObserverPc.ne_recording_of_raised hpc), rfl⟩
  | raised i spurious o ho hpc hvalue =>
      exact .inl ⟨recorded?_of_not_recording rfl ho (by simp [hpc]), rfl⟩
  | enough i spurious o current ho hpc hvalue =>
      exact .inl ⟨recorded?_of_not_recording rfl ho (by simp [hpc]), rfl⟩
  | recorded i spurious o ho hpc =>
      rw [recorded?_advance rfl ho]
      by_cases hmetric : o.metric = metric
      · subst hmetric
        exact .inr ⟨o.value, if_pos ⟨rfl, hpc⟩, Function.update_self _ _ _⟩
      · exact .inl ⟨if_neg fun h => hmetric h.1, Function.update_of_ne (Ne.symm hmetric) _ _⟩

theorem windowed_of_run (hrun : Run step State.built trace s) (metric : Metric) :
    Windowed (observedIn metric trace) (s.samples metric) := by
  refine hrun.history_invariant
    (P := fun trace s => Windowed (observedIn metric trace) (s.samples metric))
    ⟨holds_nil _, rfl⟩ ?_
  intro earlier τ _ _ hstep ih
  rw [observedIn_snoc]
  rcases samples_of_moves (moves_of_step hstep) metric with ⟨hnone, hsame⟩ | ⟨v, hsome, hrecord⟩
  · rw [hnone, Option.toList_none, List.append_nil, hsame]
    exact ih
  · rw [hsome, Option.toList_some, hrecord]
    exact ih.record v

/-- The copied values are the last observations. -/
theorem Windowed.values_perm {values : List Nat} {samples : Samples} (h : Windowed values samples)
    (hcount : values.length < 2 ^ 64) :
    samples.total = values.length ∧
      samples.values.Perm (values.drop (values.length - min values.length sampleWindowSize)) := by
  have htotal : samples.total = values.length := by rw [h.total, Nat.mod_eq_of_lt hcount]
  refine ⟨htotal, ?_⟩
  have hperm := h.holds.perm_window
  rw [samples.length_cells] at hperm
  unfold Samples.values
  rw [htotal]
  exact hperm

/-! ## The maximum -/

/-- The maximum of a metric against the observations that are under way: it
covers those that have passed `updateMax` and is the value of one of them, and
the loop never compares with more than it. -/
structure Covered (metric : Metric) (trace : List ObservationTransition) (s : State) : Prop where
  seen : ∀ o ∈ s.observers, ∀ current, o.metric = metric → o.pc = .comparing current →
    current ≤ s.maximum metric
  covers : ∀ o ∈ s.observers, o.metric = metric → o.pc.raised = true →
    o.value ≤ s.maximum metric
  attained : s.maximum metric = 0 ∨
    ∃ o ∈ s.observers, o.metric = metric ∧ o.pc.raised = true ∧ o.value = s.maximum metric
  observed : ∀ v, v ∈ observedIn metric trace ↔
    ∃ o ∈ s.observers, o.metric = metric ∧ o.pc = .finished ∧ o.value = v

/-- A step of one observer.  The maximum may only rise, and then to the value of
this observer; the value is recorded when the observer finishes. -/
theorem Covered.of_advance {i : Nat} {spurious : Bool} {o : Observer} {pc : ObserverPc}
    (h : Covered metric trace τ.pre) (haction : τ.action = .advance i spurious)
    (ho : τ.pre.observers[i]? = some o) (hunfinished : o.pc ≠ .finished)
    (hpost : τ.post.observers = τ.pre.observers.set i { o with pc })
    (hfinishes : pc = .finished ↔ o.pc = .recording)
    (hle : τ.pre.maximum metric ≤ τ.post.maximum metric)
    (hseen : o.metric = metric → ∀ current, pc = .comparing current →
      current ≤ τ.post.maximum metric)
    (hcovers : o.metric = metric → pc.raised = true → o.value ≤ τ.post.maximum metric)
    (hattained : τ.post.maximum metric = τ.pre.maximum metric ∧
        (o.pc.raised = true → pc.raised = true) ∨
      o.metric = metric ∧ pc.raised = true ∧ o.value = τ.post.maximum metric) :
    Covered metric (trace ++ [τ]) τ.post := by
  have hmember : ∀ o' ∈ τ.post.observers, o' = { o with pc } ∨ o' ∈ τ.pre.observers := by
    intro o' ho'
    rw [hpost] at ho'
    exact (List.mem_or_eq_of_mem_set ho').symm
  have hnew : { o with pc } ∈ τ.post.observers := by
    rw [hpost]
    exact List.mem_of_getElem? (thread_set_self ho)
  -- What the other observers are witnesses of, they still are.
  have hother : ∀ o' ∈ τ.pre.observers, o' ≠ o → o' ∈ τ.post.observers := by
    intro o' ho' hne
    obtain ⟨j, hj⟩ := List.mem_iff_getElem?.mp ho'
    have hij : j ≠ i := by
      rintro rfl
      rw [ho] at hj
      exact hne (Option.some.inj hj).symm
    rw [hpost]
    exact List.mem_of_getElem? (thread_set_other hij hj)
  refine ⟨?_, ?_, ?_, ?_⟩
  · intro o' ho' current hmetric hpc
    rcases hmember o' ho' with rfl | hold
    · exact hseen hmetric current hpc
    · exact Nat.le_trans (h.seen o' hold current hmetric hpc) hle
  · intro o' ho' hmetric hraised
    rcases hmember o' ho' with rfl | hold
    · exact hcovers hmetric hraised
    · exact Nat.le_trans (h.covers o' hold hmetric hraised) hle
  · rcases hattained with ⟨hsame, hkeeps⟩ | ⟨hmetric, hraised, hvalue⟩
    · rw [hsame]
      rcases h.attained with hzero | ⟨o', ho', hmetric, hraised, hvalue⟩
      · exact .inl hzero
      · right
        by_cases heq : o' = o
        · subst heq
          exact ⟨_, hnew, hmetric, hkeeps hraised, hvalue⟩
        · exact ⟨o', hother o' ho' heq, hmetric, hraised, hvalue⟩
    · exact .inr ⟨_, hnew, hmetric, hraised, hvalue⟩
  · intro v
    rw [observedIn_snoc, List.mem_append, h.observed, recorded?_advance haction ho,
      Option.mem_toList, Option.ite_none_right_eq_some, Option.some.injEq]
    constructor
    · rintro (⟨o', ho', hmetric, hpc, hvalue⟩ | ⟨⟨hmetric, hpc⟩, hvalue⟩)
      · have hne : o' ≠ o := by
          rintro rfl
          exact hunfinished hpc
        exact ⟨o', hother o' ho' hne, hmetric, hpc, hvalue⟩
      · exact ⟨_, hnew, hmetric, hfinishes.mpr hpc, hvalue⟩
    · rintro ⟨o', ho', hmetric, hpc, hvalue⟩
      rcases hmember o' ho' with rfl | hold
      · exact .inr ⟨⟨hmetric, hfinishes.mp hpc⟩, hvalue⟩
      · exact .inl ⟨o', hold, hmetric, hpc, hvalue⟩

theorem Covered.of_called {m : Metric} {value : Nat} (h : Covered metric trace τ.pre)
    (haction : τ.action = .observe m value)
    (hpost : τ.post = { τ.pre with observers := τ.pre.observers ++ [⟨m, value, .loading⟩] }) :
    Covered metric (trace ++ [τ]) τ.post := by
  have hnone : recorded? metric τ = none := by simp only [recorded?, haction]
  have hmember : ∀ o, o ∈ τ.post.observers ↔
      o ∈ τ.pre.observers ∨ o = ⟨m, value, .loading⟩ := by
    intro o
    rw [hpost, List.mem_append, List.mem_singleton]
  have hmaximum : τ.post.maximum = τ.pre.maximum := by rw [hpost]
  refine ⟨?_, ?_, ?_, ?_⟩
  · intro o ho current hmetric hpc
    rw [hmaximum]
    rcases (hmember o).mp ho with hold | rfl
    · exact h.seen o hold current hmetric hpc
    · cases hpc
  · intro o ho hmetric hraised
    rw [hmaximum]
    rcases (hmember o).mp ho with hold | rfl
    · exact h.covers o hold hmetric hraised
    · cases hraised
  · rw [hmaximum]
    rcases h.attained with hzero | ⟨o, ho, hrest⟩
    · exact .inl hzero
    · exact .inr ⟨o, (hmember o).mpr (.inl ho), hrest⟩
  · intro v
    rw [observedIn_snoc, hnone, Option.toList_none, List.append_nil, h.observed]
    constructor
    · rintro ⟨o, ho, hrest⟩
      exact ⟨o, (hmember o).mpr (.inl ho), hrest⟩
    · rintro ⟨o, ho, hmetric, hpc, hvalue⟩
      rcases (hmember o).mp ho with hold | rfl
      · exact ⟨o, hold, hmetric, hpc, hvalue⟩
      · cases hpc

theorem covered_of_run (hrun : Run step State.built trace s) (metric : Metric) :
    Covered metric trace s := by
  apply hrun.history_invariant (P := Covered metric)
  · exact ⟨by simp [State.built], by simp [State.built], .inl rfl, by simp [State.built, observedIn]⟩
  · intro earlier τ _ _ hstep ih
    have hmoves := moves_of_step hstep
    obtain ⟨pre, action, post⟩ := τ
    dsimp only at hmoves ih ⊢
    cases hmoves with
    | called m value => exact ih.of_called rfl rfl
    | looked i spurious o ho hpc =>
        refine ih.of_advance rfl ho ?_ rfl ?_ (Nat.le_refl _) ?_ ?_ (.inl ⟨rfl, ?_⟩)
        · rintro hfinished
          rw [hfinished] at hpc
          cases hpc
        · exact ⟨fun h => (by cases h), fun h => absurd h (ObserverPc.ne_recording_of_raised hpc)⟩
        · rintro rfl current hcurrent
          cases hcurrent
          exact Nat.le_refl _
        · exact fun _ hraised => by cases hraised
        · intro hraised
          rw [hpc] at hraised
          cases hraised
    | raised i spurious o ho hpc hvalue =>
        refine ih.of_advance rfl ho (by simp [hpc]) rfl (by simp [hpc]) ?_ (by simp) ?_ ?_
        · by_cases hmetric : o.metric = metric
          · subst hmetric
            dsimp only
            rw [Function.update_self]
            exact hvalue.le
          · dsimp only
            rw [Function.update_of_ne (Ne.symm hmetric)]
        · rintro rfl -
          dsimp only
          rw [Function.update_self]
        · by_cases hmetric : o.metric = metric
          · subst hmetric
            refine .inr ⟨rfl, rfl, ?_⟩
            dsimp only
            rw [Function.update_self]
          · refine .inl ⟨?_, by simp [hpc, ObserverPc.raised]⟩
            dsimp only
            rw [Function.update_of_ne (Ne.symm hmetric)]
    | enough i spurious o current ho hpc hvalue =>
        refine ih.of_advance rfl ho (by simp [hpc]) rfl (by simp [hpc]) (Nat.le_refl _) (by simp)
          ?_ (.inl ⟨rfl, by simp [hpc, ObserverPc.raised]⟩)
        rintro hmetric -
        exact Nat.le_trans hvalue (ih.seen o (List.mem_of_getElem? ho) current hmetric hpc)
    | recorded i spurious o ho hpc =>
        refine ih.of_advance rfl ho (by simp [hpc]) rfl (by simp [hpc]) (Nat.le_refl _) (by simp)
          ?_ (.inl ⟨rfl, fun _ => rfl⟩)
        rintro hmetric -
        exact ih.covers o (List.mem_of_getElem? ho) hmetric (by rw [hpc]; rfl)

/-! ## The snapshot -/

/-- No observation of the metric is under way. -/
def State.Quiet (s : State) (metric : Metric) : Prop :=
  ∀ o ∈ s.observers, o.metric = metric → o.pc = .finished

/-- While nothing is under way, the maximum is that of all observations. -/
theorem Covered.maximum_of_quiet (h : Covered metric trace s) (hquiet : s.Quiet metric) :
    (∀ v ∈ observedIn metric trace, v ≤ s.maximum metric) ∧
      (s.maximum metric = 0 ∨ s.maximum metric ∈ observedIn metric trace) := by
  constructor
  · intro v hv
    obtain ⟨o, ho, hmetric, hpc, rfl⟩ := (h.observed v).mp hv
    exact h.covers o ho hmetric (by rw [hpc]; rfl)
  · rcases h.attained with hzero | ⟨o, ho, hmetric, -, hvalue⟩
    · exact .inl hzero
    · exact .inr ((h.observed _).mpr ⟨o, ho, hmetric, hquiet o ho hmetric, hvalue⟩)

/-- The observations whose percentiles `snapshot` reports. -/
def lastObservations (values : List Nat) : List Nat :=
  values.drop (values.length - min values.length sampleWindowSize)

theorem length_lastObservations (values : List Nat) :
    (lastObservations values).length = min values.length sampleWindowSize := by
  rw [lastObservations, List.length_drop]
  omega

section Window

variable {values copied : List Nat}

theorem lastObservations_ne_nil (hvalues : values ≠ []) : lastObservations values ≠ [] := by
  apply List.ne_nil_of_length_pos
  have hpos : 0 < values.length := List.length_pos_iff.mpr hvalues
  rw [length_lastObservations]
  exact Nat.lt_min.mpr ⟨hpos, by decide⟩

/-- Nothing has been observed. -/
theorem percentile_of_eq_nil (hperm : copied.Perm (lastObservations values)) (hvalues : values = [])
    (quantile : Nat) : percentile copied quantile = 0 := by
  rw [hvalues] at hperm
  have hcopied : copied = [] := hperm.eq_nil
  rw [hcopied, percentile_nil]

/-- The order in which the samples are copied does not matter, and a window has
few enough of them for the rank to be exact. -/
theorem isNth_of_window {percent quantile : Nat} (hperm : copied.Perm (lastObservations values))
    (hvalues : values ≠ []) (hquantile : IsQuantile percent quantile) :
    IsNth (lastObservations values) (nearestRank percent (lastObservations values).length)
      (percentile copied quantile) := by
  have hcopied : copied ≠ [] := by
    intro hnil
    rw [hnil] at hperm
    exact lastObservations_ne_nil hvalues hperm.symm.eq_nil
  have hbound : copied.length ≤ 2 ^ 44 := by
    rw [hperm.length_eq, length_lastObservations]
    exact Nat.le_trans (Nat.min_le_right _ _) (by decide)
  have hnth := percentile_isNth hquantile hcopied hbound
  rw [hperm.length_eq] at hnth
  exact hnth.perm hperm

end Window

theorem observedIn_append (metric : Metric) (first second : List ObservationTransition) :
    observedIn metric (first ++ second) = observedIn metric first ++ observedIn metric second :=
  List.filterMap_append

/-- For every interleaving of observations of both metrics: `snapshot` reports
the number of observations of a metric and the nearest-rank percentiles of the
last 1024 of them.  If none is under way when the maximum is loaded and none is
recorded until the samples are copied, the maximum is that of all observations
and the percentiles do not exceed it. -/
theorem snapshot_percentiles (metric : Metric) (first second : List ObservationTransition)
    (loaded copied : State) (hfirst : Run step State.built first loaded)
    (hsecond : Run step loaded second copied)
    (hcount : (observedIn metric (first ++ second)).length < 2 ^ 64) :
    let values := observedIn metric (first ++ second)
    let window := lastObservations values
    let snapshot := snapshotOf metric loaded copied
    snapshot.samplesTotal = values.length ∧
    (values = [] → snapshot.p95 = 0 ∧ snapshot.p99 = 0) ∧
    (values ≠ [] → IsNth window (nearestRank 95 window.length) snapshot.p95 ∧
      IsNth window (nearestRank 99 window.length) snapshot.p99) ∧
    snapshot.p95 ≤ snapshot.p99 ∧
    (loaded.Quiet metric → observedIn metric second = [] →
      (values = [] → snapshot.maximum = 0) ∧
      (values ≠ [] → snapshot.maximum ∈ values) ∧
      (∀ v ∈ values, v ≤ snapshot.maximum) ∧
      snapshot.p99 ≤ snapshot.maximum) := by
  intro values window snapshot
  obtain ⟨htotal, hperm⟩ := (windowed_of_run (hfirst.append hsecond) metric).values_perm hcount
  change (copied.samples metric).values.Perm window at hperm
  have hempty : values = [] → snapshot.p95 = 0 ∧ snapshot.p99 = 0 := fun hvalues =>
    ⟨percentile_of_eq_nil hperm hvalues _, percentile_of_eq_nil hperm hvalues _⟩
  have hnth : values ≠ [] → IsNth window (nearestRank 95 window.length) snapshot.p95 ∧
      IsNth window (nearestRank 99 window.length) snapshot.p99 := fun hvalues =>
    ⟨isNth_of_window hperm hvalues isQuantile_95, isNth_of_window hperm hvalues isQuantile_99⟩
  have hle : snapshot.p95 ≤ snapshot.p99 := by
    by_cases hvalues : values = []
    · rw [(hempty hvalues).1]
      exact Nat.zero_le _
    · exact (hnth hvalues).1.mono (hnth hvalues).2 (nearestRank_mono (by decide) _)
  refine ⟨htotal, hempty, hnth, hle, ?_⟩
  intro hquiet hnone
  have hsame : values = observedIn metric first := by
    change observedIn metric (first ++ second) = _
    rw [observedIn_append, hnone, List.append_nil]
  obtain ⟨hcovers, hattained⟩ := (covered_of_run hfirst metric).maximum_of_quiet hquiet
  rw [← hsame] at hcovers hattained
  change snapshot.maximum = 0 ∨ snapshot.maximum ∈ values at hattained
  refine ⟨fun hvalues => ?_, fun hvalues => ?_, hcovers, ?_⟩
  · rcases hattained with hzero | hmem
    · exact hzero
    · rw [hvalues] at hmem
      cases hmem
  · rcases hattained with hzero | hmem
    · -- All observations are zero then.
      obtain ⟨v, hv⟩ := List.exists_mem_of_ne_nil values hvalues
      have hv0 : v ≤ snapshot.maximum := hcovers v hv
      have heq : v = snapshot.maximum := by omega
      rw [← heq]
      exact hv
    · exact hmem
  · by_cases hvalues : values = []
    · rw [(hempty hvalues).2]
      exact Nat.zero_le _
    · exact hcovers _ (List.mem_of_mem_drop (hnth hvalues).2.mem)

/-- Three tasks take 10, 100 and 20 ms, and a delay of 7 ms is observed in
between. -/
def threeTasksRun : List Action :=
  let completes (i : Nat) : List Action := List.replicate 3 (.advance i false)
  [.observe .taskDuration 10] ++ completes 0 ++ [.observe .scheduleDelay 7] ++ completes 1 ++
    [.observe .taskDuration 100] ++ completes 2 ++ [.observe .taskDuration 20] ++ completes 3

theorem snapshot_percentiles_three :
    ∃ s, Run step State.built (executeTrace step State.built threeTasksRun) s ∧
      (snapshotOf .taskDuration s s).samplesTotal = 3 ∧
      IsNth [10, 100, 20] 3 (snapshotOf .taskDuration s s).p95 ∧
      (snapshotOf .taskDuration s s).p99 ≤ (snapshotOf .taskDuration s s).maximum := by
  obtain ⟨s, hrun, hs⟩ : ∃ s, Run step State.built
      (executeTrace step State.built threeTasksRun) s ∧
      decide (∀ o ∈ s.observers, o.metric = .taskDuration → o.pc = .finished) = true :=
    exists_run_of_execute (by decide +kernel)
  have hquiet := of_decide_eq_true hs
  have hobserved : observedIn .taskDuration (executeTrace step State.built threeTasksRun ++ []) =
      [10, 100, 20] := by decide +kernel
  obtain ⟨htotal, -, hnth, -, hmaximum⟩ := snapshot_percentiles .taskDuration _ [] s s hrun .nil
    (by rw [hobserved]; decide)
  rw [hobserved] at htotal hnth
  exact ⟨s, hrun, htotal, (hnth (by decide)).1, (hmaximum hquiet rfl).2.2.2⟩

end Observations
end Corpcron
