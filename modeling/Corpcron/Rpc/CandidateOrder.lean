import Corpcron.Lib.Rotation
import Corpcron.Rpc.RequestGate

/-!
# The order of the candidates

`orderedCandidates` drops empty texts and repetitions, starts at a place given
by a counter that all calls share, and keeps the endpoints that are healthy
enough.  `orderedCandidates_eq` says what it returns if nothing else happens
meanwhile, and `execute_orderedCandidates` that the pool computes this.

In a pool with other calls every endpoint is looked at in a state of its own.
`answers` is what a call is told, and `sorted_of_run` says that its candidates
are the endpoints for which the answer was yes, in the order of the rotation.
What the calls do in between does not matter to who comes first:
`candidate_order_fair` counts this over any interleaving.
-/

namespace Corpcron
namespace RpcClientPool

open Lib

/-! ## The first occurrences -/

theorem uniqueEndpoints_concat (endpoints : List String) (e : String) :
    uniqueEndpoints (endpoints ++ [e]) =
      if e = "" ∨ e ∈ uniqueEndpoints endpoints then uniqueEndpoints endpoints
      else uniqueEndpoints endpoints ++ [e] := by
  rw [uniqueEndpoints, List.foldl_append]
  rfl

variable {options : Options} {s s' : State} {τ : PoolTransition} {trace : List PoolTransition}
  {i : Nat} {inp : Input} {pc pc' : CallPc} {e : String} {endpoints : List String}

theorem mem_uniqueEndpoints :
    e ∈ uniqueEndpoints endpoints ↔ e ∈ endpoints ∧ e ≠ "" := by
  induction endpoints using List.reverseRecOn with
  | nil => simp [uniqueEndpoints]
  | append_singleton endpoints last ih =>
      rw [uniqueEndpoints_concat]
      split
      · rename_i hskip
        rw [ih, List.mem_append, List.mem_singleton]
        constructor
        · rintro ⟨hmem, hne⟩
          exact ⟨.inl hmem, hne⟩
        · rintro ⟨hmem | rfl, hne⟩
          · exact ⟨hmem, hne⟩
          · exact ih.mp (hskip.resolve_left hne)
      · rename_i hnew
        rw [not_or] at hnew
        rw [List.mem_append, List.mem_append, List.mem_singleton, ih]
        constructor
        · rintro (⟨hmem, hne⟩ | rfl)
          · exact ⟨.inl hmem, hne⟩
          · exact ⟨.inr rfl, hnew.1⟩
        · rintro ⟨hmem | rfl, hne⟩
          · exact .inl ⟨hmem, hne⟩
          · exact .inr rfl

/-- What is kept is kept in the order of the first occurrences. -/
theorem uniqueEndpoints_inOrder (endpoints : List String) :
    (uniqueEndpoints endpoints).Pairwise fun a b => endpoints.idxOf a < endpoints.idxOf b := by
  induction endpoints using List.reverseRecOn with
  | nil => exact List.Pairwise.nil
  | append_singleton endpoints last ih =>
      have hearlier : ∀ a ∈ uniqueEndpoints endpoints,
          (endpoints ++ [last]).idxOf a = endpoints.idxOf a := by
        intro a ha
        exact List.idxOf_append_of_mem (mem_uniqueEndpoints.mp ha).1
      have hold : (uniqueEndpoints endpoints).Pairwise fun a b =>
          (endpoints ++ [last]).idxOf a < (endpoints ++ [last]).idxOf b := by
        refine ih.imp_of_mem ?_
        intro a b ha hb hlt
        rwa [hearlier a ha, hearlier b hb]
      rw [uniqueEndpoints_concat]
      split
      · exact hold
      · rename_i hnew
        rw [not_or] at hnew
        have hfresh : last ∉ endpoints := fun h => hnew.2 (mem_uniqueEndpoints.mpr ⟨h, hnew.1⟩)
        refine List.pairwise_append.mpr ⟨hold, List.pairwise_singleton _ _, ?_⟩
        intro a ha b hb
        obtain rfl := List.mem_singleton.mp hb
        rw [hearlier a ha, List.idxOf_append_of_notMem hfresh]
        have hlt := List.idxOf_lt_length_of_mem (mem_uniqueEndpoints.mp ha).1
        omega

/-! ## A call on its own -/

/-- `orderedCandidates` if nothing else happens meanwhile: the new value of
`round_robin_` and what is returned. -/
def orderedCandidates (s : State) (endpoints : List String) : Nat × List String :=
  let unique := uniqueEndpoints endpoints
  if unique.isEmpty then (s.roundRobin, unique)
  else
    let start := s.roundRobin % unique.length
    let visited := (List.range unique.length).filterMap fun i =>
      unique[(start + i) % unique.length]?
    ((s.roundRobin + 1) % 2 ^ 64,
      visited.filter fun endpoint => (s.endpoints endpoint).isHealthyEnough s.now)

theorem orderedCandidates_eq (s : State) (endpoints : List String) :
    (orderedCandidates s endpoints).2 =
      ((uniqueEndpoints endpoints).rotate s.roundRobin).filter fun endpoint =>
        (s.endpoints endpoint).isHealthyEnough s.now := by
  unfold orderedCandidates
  dsimp only
  split
  · rename_i hempty
    rw [List.isEmpty_iff.mp hempty]
    rfl
  · rw [filterMap_range_eq_rotate, List.rotate_mod]

theorem orderedCandidates_nodup (s : State) (endpoints : List String) :
    (orderedCandidates s endpoints).2.Nodup := by
  rw [orderedCandidates_eq]
  exact (List.nodup_rotate.mpr (uniqueEndpoints_nodup endpoints)).filter _

theorem mem_orderedCandidates :
    e ∈ (orderedCandidates s endpoints).2 ↔
      e ∈ endpoints ∧ e ≠ "" ∧ (s.endpoints e).isHealthyEnough s.now = true := by
  rw [orderedCandidates_eq, List.mem_filter, List.mem_rotate, mem_uniqueEndpoints, and_assoc]

/-- The walk of a call that begins. -/
theorem beginCall_walk (s : State) (endpoints : List String) :
    (beginCall s endpoints).2 =
        .ordering s.now ((uniqueEndpoints endpoints).rotate s.roundRobin) [] ∨
      (uniqueEndpoints endpoints).rotate s.roundRobin = [] ∧
        ∃ result, (beginCall s endpoints).2 = .returned result := by
  unfold beginCall
  dsimp only
  split
  · rename_i hempty
    refine .inr ⟨?_, _, rfl⟩
    rw [List.isEmpty_iff.mp hempty]
    rfl
  · refine .inl ?_
    rw [List.rotate_eq_drop_append_take_mod]

theorem beginCall_roundRobin (h : uniqueEndpoints endpoints ≠ []) :
    (beginCall s endpoints).1 = (s.roundRobin + 1) % 2 ^ 64 := by
  unfold beginCall
  dsimp only
  rw [if_neg (by simpa using h)]

/-- The loop of `orderedCandidates`, when the call that is in it makes the next
steps. -/
theorem execute_ordering (options : Options) (inp : Input) (s : State) (i now : Nat)
    (pending ordered : List String)
    (hpc : s.calls[i]? = some (.ordering now pending ordered)) :
    execute (step options) s (List.replicate pending.length (.advance i inp)) =
      some { s with calls := s.calls.set i (.ordering now [] (ordered ++ pending.filter
        fun endpoint => (s.endpoints endpoint).isHealthyEnough now)) } := by
  induction pending generalizing s ordered with
  | nil =>
      have hsame : s.calls.set i (.ordering now [] ordered) = s.calls := by
        obtain ⟨hi, hget⟩ := List.getElem?_eq_some_iff.mp hpc
        rw [← hget, List.set_getElem_self]
      simp [execute, hsame]
  | cons e pending ih =>
      -- One step asks for `e`; the rest is the same loop after it.
      let kept := if (s.endpoints e).isHealthyEnough now then ordered ++ [e] else ordered
      have hstep : step options s (.advance i inp) =
          some { s with calls := s.calls.set i (.ordering now pending kept) } := by
        simp only [step, hpc, stepCall, kept]
        split <;> rfl
      have hnext := ih { s with calls := s.calls.set i (.ordering now pending kept) } kept
        (thread_set_self hpc)
      rw [List.length_cons, List.replicate_succ, execute, hstep]
      dsimp only
      rw [hnext]
      simp only [List.set_set, kept, List.filter_cons]
      split <;> simp

/-- A call that is not interrupted computes `orderedCandidates`. -/
theorem execute_orderedCandidates (options : Options) (inp : Input) (s : State)
    (endpoints : List String) (hsome : uniqueEndpoints endpoints ≠ []) :
    execute (step options) s (.call endpoints ::
        List.replicate (uniqueEndpoints endpoints).length (.advance s.calls.length inp)) =
      some { s with
        roundRobin := (orderedCandidates s endpoints).1
        calls := s.calls ++ [.ordering s.now [] (orderedCandidates s endpoints).2] } := by
  have hcounter : (orderedCandidates s endpoints).1 = (s.roundRobin + 1) % 2 ^ 64 := by
    unfold orderedCandidates
    dsimp only
    rw [if_neg (by simpa using hsome)]
  have hwalk : (beginCall s endpoints).2 =
      .ordering s.now ((uniqueEndpoints endpoints).rotate s.roundRobin) [] := by
    rcases beginCall_walk s endpoints with hwalk | ⟨hempty, -⟩
    · exact hwalk
    · exact absurd (List.rotate_eq_nil_iff.mp hempty) hsome
  have hloop := execute_ordering options inp
    { s with
      roundRobin := (beginCall s endpoints).1
      calls := s.calls ++ [(beginCall s endpoints).2] }
    s.calls.length s.now ((uniqueEndpoints endpoints).rotate s.roundRobin) [] (by simp [hwalk])
  rw [List.length_rotate] at hloop
  rw [execute]
  simp only [step]
  rw [hloop, hcounter, beginCall_roundRobin hsome, orderedCandidates_eq]
  simp

/-! ## A call among others -/

/-- The endpoint a call is about to look at, and what it is told. -/
def CallPc.asks? (s : State) : CallPc → Option (String × Bool)
  | .ordering now (e :: _) _ => some (e, (s.endpoints e).isHealthyEnough now)
  | _ => none

/-- What call `i` asks in a step. -/
def asked? (i : Nat) (τ : PoolTransition) : Option (String × Bool) :=
  (τ.pre.calls[i]?).bind (CallPc.asks? τ.pre)

/-- The endpoints call `i` has looked at, each with what it was told. -/
def answers (i : Nat) (trace : List PoolTransition) : List (String × Bool) :=
  (history i trace).filterMap (asked? i)

/-- The endpoints for which the answer was yes. -/
def accepted (told : List (String × Bool)) : List String :=
  (told.filter Prod.snd).map Prod.fst

/-- In `orderedCandidates`. -/
def CallPc.isOrdering : CallPc → Bool
  | .ordering _ _ _ => true
  | _ => false

/-- Call `i` walks through `walk`: in the loop it has asked for the first part
of it, after the loop for all of it. -/
structure Sorted (i : Nat) (walk : List String) (trace : List PoolTransition) (pc : CallPc) :
    Prop where
  during : ∀ now pending ordered, pc = .ordering now pending ordered →
    (answers i trace).map Prod.fst ++ pending = walk ∧ ordered = accepted (answers i trace) ∧
      (history i trace).findSome? (ordered? i) = none
  after : pc.isOrdering = false →
    (answers i trace).map Prod.fst = walk ∧ candidates i trace = accepted (answers i trace)

section Sorted

variable {walk : List String}

theorem answers_snoc_other (h : ofCall i τ = false) :
    answers i (trace ++ [τ]) = answers i trace := by
  rw [answers, history_snoc_other h, answers]

theorem answers_snoc_self (h : ofCall i τ = true) (hpc : τ.pre.calls[i]? = some pc) :
    answers i (trace ++ [τ]) = answers i trace ++ (pc.asks? τ.pre).toList := by
  have hasked : asked? i τ = pc.asks? τ.pre := by rw [asked?, hpc, Option.bind_some]
  rw [answers, history_snoc_self h, filterMap_concat, hasked, answers]

theorem accepted_concat (told : List (String × Bool)) (e : String) (yes : Bool) :
    accepted (told ++ [(e, yes)]) = if yes then accepted told ++ [e] else accepted told := by
  cases yes <;> simp [accepted]

theorem Sorted.other (h : Sorted i walk trace pc) (hof : ofCall i τ = false) :
    Sorted i walk (trace ++ [τ]) pc := by
  refine ⟨?_, ?_⟩
  · rw [answers_snoc_other hof, history_snoc_other hof]
    exact h.during
  · rw [answers_snoc_other hof, candidates_snoc_other hof]
    exact h.after

/-- After the loop. -/
theorem Sorted.finished (hpc : pc.isOrdering = false)
    (hwalk : (answers i trace).map Prod.fst = walk)
    (hcandidates : candidates i trace = accepted (answers i trace)) : Sorted i walk trace pc := by
  refine ⟨?_, fun _ => ⟨hwalk, hcandidates⟩⟩
  rintro now pending ordered rfl
  cases hpc

/-- A call that has left the loop does not come back to it. -/
theorem CallStep.after_ordering (hstep : CallStep options s inp pc pc')
    (hpc : pc.isOrdering = false) :
    pc'.isOrdering = false ∧ pc.asks? s = none ∧ pc.ordered? = none := by
  cases hstep with
  | filter => cases hpc
  | unavailable => cases hpc
  | enter => cases hpc
  | _ => exact ⟨rfl, rfl, rfl⟩

/-- The loop asks for the next endpoint and keeps it if the answer is yes. -/
theorem stepCall_ask {endpoints' : String → EndpointState} {now : Nat}
    {pending ordered : List String}
    (hstep : stepCall options s inp (.ordering now (e :: pending) ordered) = some (endpoints', pc')) :
    pc' = .ordering now pending
      (if (s.endpoints e).isHealthyEnough now then ordered ++ [e] else ordered) := by
  simp only [stepCall] at hstep
  split at hstep
  · rename_i hyes
    cases hstep
    rw [if_pos hyes]
  · rename_i hno
    cases hstep
    rw [if_neg hno]

section Step

variable (hof : ofCall i τ = true) (hpc : τ.pre.calls[i]? = some pc)

include hof hpc

theorem Sorted.ask {now : Nat} {pending ordered : List String} (h : Sorted i walk trace pc)
    (hordering : pc = .ordering now (e :: pending) ordered) :
    Sorted i walk (trace ++ [τ]) (.ordering now pending
      (if (τ.pre.endpoints e).isHealthyEnough now then ordered ++ [e] else ordered)) := by
  subst hordering
  obtain ⟨hwalk, hordered, hnone⟩ := h.during now (e :: pending) ordered rfl
  have htold : answers i (trace ++ [τ]) =
      answers i trace ++ [(e, (τ.pre.endpoints e).isHealthyEnough now)] :=
    answers_snoc_self hof hpc
  refine ⟨?_, fun hnot => by cases hnot⟩
  intro now' pending' ordered' heq
  cases heq
  refine ⟨?_, ?_, ?_⟩
  · rw [htold, ← hwalk]
    simp
  · rw [htold, accepted_concat, hordered]
  · rw [findSome?_snoc_self hof hpc, hnone]
    rfl

/-- When the loop is over, what it has gathered is the result. -/
theorem Sorted.leave {now : Nat} {ordered : List String} (h : Sorted i walk trace pc)
    (hordering : pc = .ordering now [] ordered) (hpc' : pc'.isOrdering = false) :
    Sorted i walk (trace ++ [τ]) pc' := by
  subst hordering
  obtain ⟨hwalk, hordered, hnone⟩ := h.during now [] ordered rfl
  have hsame : answers i (trace ++ [τ]) = answers i trace := by
    rw [answers_snoc_self hof hpc]
    exact List.append_nil _
  refine .finished hpc' ?_ ?_
  · rw [hsame, ← hwalk, List.append_nil]
  · rw [candidates, findSome?_snoc_self hof hpc, hnone, hsame, ← hordered]
    rfl

/-- Nothing changes after the loop. -/
theorem Sorted.later (h : Sorted i walk trace pc) (hordering : pc.isOrdering = false)
    (hstep : CallStep options τ.pre inp pc pc') :
    Sorted i walk (trace ++ [τ]) pc' := by
  obtain ⟨hpc', hasks, hreturns⟩ := hstep.after_ordering hordering
  obtain ⟨hwalk, hcandidates⟩ := h.after hordering
  have hsame : answers i (trace ++ [τ]) = answers i trace := by
    rw [answers_snoc_self hof hpc, hasks]
    exact List.append_nil _
  refine .finished hpc' ?_ ?_
  · rw [hsame, hwalk]
  · rw [candidates, findSome?_snoc_self hof hpc, hreturns, Option.or_none, hsame]
    exact hcandidates

theorem Sorted.step {endpoints' : String → EndpointState} (h : Sorted i walk trace pc)
    (hstep : stepCall options τ.pre inp pc = some (endpoints', pc')) :
    Sorted i walk (trace ++ [τ]) pc' := by
  cases callStep_of_stepCall hstep with
  | filter now e pending ordered =>
      rw [stepCall_ask hstep]
      exact h.ask hof hpc rfl
  | unavailable => exact h.leave hof hpc rfl rfl
  | enter => exact h.leave hof hpc rfl rfl
  | _ => exact h.later hof hpc rfl (callStep_of_stepCall hstep)

end Step

/-- A call that begins has asked nothing yet. -/
theorem sorted_beginCall (hempty : history i trace = []) (s : State) (endpoints : List String) :
    Sorted i ((uniqueEndpoints endpoints).rotate s.roundRobin) trace
      (beginCall s endpoints).2 := by
  have hanswers : answers i trace = [] := by rw [answers, hempty, List.filterMap_nil]
  rcases beginCall_walk s endpoints with hpc | ⟨hwalk, result, hpc⟩
  · refine ⟨?_, ?_⟩
    · intro now pending ordered heq
      rw [hpc] at heq
      cases heq
      rw [hanswers, hempty]
      exact ⟨rfl, rfl, rfl⟩
    · intro hnot
      rw [hpc] at hnot
      cases hnot
  · refine .finished ?_ ?_ ?_
    · rw [hpc]
      rfl
    · rw [hanswers, hwalk]
      rfl
    · rw [candidates, hempty, hanswers]
      rfl

end Sorted

/-! ## Runs of the pool -/

/-- The call a step enters, with the counter it finds. -/
def enters? (τ : PoolTransition) : Option (List String × Nat) :=
  match τ.action with
  | .call endpoints => some (endpoints, τ.pre.roundRobin)
  | _ => none

/-- The calls entered in a run. -/
def entered (trace : List PoolTransition) : List (List String × Nat) :=
  trace.filterMap enters?

theorem entered_snoc_none (h : enters? τ = none) : entered (trace ++ [τ]) = entered trace := by
  rw [entered, filterMap_concat, h]
  exact List.append_nil _

theorem entered_snoc_call (trace : List PoolTransition) (s s' : State) (l : List String) :
    entered (trace ++ [⟨s, .call l, s'⟩]) = entered trace ++ [(l, s.roundRobin)] :=
  filterMap_concat enters? trace ⟨s, .call l, s'⟩

/-- The calls of a run that starts with `base` calls in the pool. -/
structure InOrder (base : Nat) (trace : List PoolTransition) (s : State) : Prop where
  length : s.calls.length = base + (entered trace).length
  fresh : ∀ i, s.calls.length ≤ i → history i trace = []
  sorted : ∀ j endpoints r, (entered trace)[j]? = some (endpoints, r) →
    ∃ pc, s.calls[base + j]? = some pc ∧
      Sorted (base + j) ((uniqueEndpoints endpoints).rotate r) trace pc

theorem advance_cases (hstep : step options s (.advance i inp) = some s') :
    ∃ pc endpoints' pc', s.calls[i]? = some pc ∧
      stepCall options s inp pc = some (endpoints', pc') ∧
      s' = { s with endpoints := endpoints', calls := s.calls.set i pc' } := by
  simp only [step] at hstep
  split at hstep
  · cases hstep
  · rename_i pc hpc
    obtain ⟨⟨endpoints', pc'⟩, hcall, hnext⟩ := Option.map_eq_some_iff.mp hstep
    exact ⟨pc, endpoints', pc', hpc, hcall, hnext.symm⟩

section InOrder

variable {base : Nat}

/-- Time passes. -/
theorem InOrder.tick (h : InOrder base trace s) (ms : Nat) :
    InOrder base (trace ++ [⟨s, .tick ms, { s with now := s.now + ms }⟩])
      { s with now := s.now + ms } := by
  refine ⟨?_, ?_, ?_⟩
  · rw [entered_snoc_none rfl]
    exact h.length
  · intro i hi
    rw [history_snoc_other rfl]
    exact h.fresh i hi
  · intro j endpoints r hj
    rw [entered_snoc_none rfl] at hj
    obtain ⟨pc, hpc, hsorted⟩ := h.sorted j endpoints r hj
    exact ⟨pc, hpc, hsorted.other rfl⟩

/-- A call is entered. -/
theorem InOrder.call (h : InOrder base trace s) (l : List String)
    (hcalls : s'.calls = s.calls ++ [(beginCall s l).2]) :
    InOrder base (trace ++ [⟨s, .call l, s'⟩]) s' := by
  have hlength := h.length
  refine ⟨?_, ?_, ?_⟩
  · rw [entered_snoc_call, hcalls, List.length_append, List.length_append, hlength]
    exact Nat.add_assoc _ _ _
  · intro i hi
    rw [history_snoc_other rfl]
    rw [hcalls, List.length_append] at hi
    exact h.fresh i (Nat.le_of_add_right_le hi)
  · intro j endpoints r hj
    rw [entered_snoc_call] at hj
    rw [hcalls]
    rcases Nat.lt_or_ge j (entered trace).length with hlt | hge
    · rw [List.getElem?_append_left hlt] at hj
      obtain ⟨pc, hpc, hsorted⟩ := h.sorted j endpoints r hj
      refine ⟨pc, ?_, hsorted.other rfl⟩
      rw [List.getElem?_append_left (by omega)]
      exact hpc
    · rw [List.getElem?_append_right hge, List.getElem?_singleton] at hj
      split at hj
      · rename_i hzero
        cases hj
        have hj : base + j = s.calls.length := by omega
        refine ⟨(beginCall s l).2, ?_, ?_⟩
        · rw [hj, List.getElem?_concat_length]
        · refine sorted_beginCall ?_ s l
          rw [history_snoc_other rfl]
          exact h.fresh _ (Nat.le_of_eq hj.symm)
      · cases hj

/-- A call makes a step. -/
theorem InOrder.advance {endpoints' : String → EndpointState} (h : InOrder base trace s)
    (hpc : s.calls[i]? = some pc) (hstep : stepCall options s inp pc = some (endpoints', pc'))
    (hcalls : s'.calls = s.calls.set i pc') :
    InOrder base (trace ++ [⟨s, .advance i inp, s'⟩]) s' := by
  have hsize : s'.calls.length = s.calls.length := by rw [hcalls, List.length_set]
  refine ⟨?_, ?_, ?_⟩
  · rw [entered_snoc_none rfl, hsize]
    exact h.length
  · intro k hk
    rw [hsize] at hk
    have hi : i < s.calls.length := (List.getElem?_eq_some_iff.mp hpc).1
    have hother : ofCall k ⟨s, .advance i inp, s'⟩ = false := by
      simp only [ofCall, beq_eq_false_iff_ne]
      omega
    rw [history_snoc_other hother]
    exact h.fresh k hk
  · intro j endpoints r hj
    rw [entered_snoc_none rfl] at hj
    obtain ⟨q, hq, hsorted⟩ := h.sorted j endpoints r hj
    rw [hcalls]
    by_cases hself : i = base + j
    · subst hself
      rw [hpc] at hq
      cases hq
      have hof : ofCall (base + j) ⟨s, .advance (base + j) inp, s'⟩ = true := by simp [ofCall]
      exact ⟨pc', thread_set_self hpc, hsorted.step hof hpc hstep⟩
    · have hof : ofCall (base + j) ⟨s, .advance i inp, s'⟩ = false := by simp [ofCall, hself]
      exact ⟨q, by rw [List.getElem?_set_ne hself]; exact hq, hsorted.other hof⟩

end InOrder

/-- Whatever else happens in the pool, the candidates of a call are what it was
told to keep of its own rotation. -/
theorem inOrder_of_run {s₀ : State} (hrun : Run (step options) s₀ trace s) :
    InOrder s₀.calls.length trace s := by
  induction hrun with
  | nil => exact ⟨rfl, fun _ _ => rfl, by simp [entered]⟩
  | @snoc m s' trace a hrun hstep ih =>
      cases a with
      | tick ms =>
          cases hstep
          exact ih.tick ms
      | call l =>
          cases hstep
          exact ih.call l rfl
      | advance i inp =>
          obtain ⟨pc, endpoints', pc', hpc, hcall, rfl⟩ := advance_cases hstep
          exact ih.advance hpc hcall rfl

/-! ## Turns -/

/-- As long as every call has endpoints, the counter counts the calls. -/
theorem roundRobin_of_run {s₀ : State} (hrun : Run (step options) s₀ trace s)
    (hcounter : s₀.roundRobin < 2 ^ 64)
    (hnonempty : ∀ c ∈ entered trace, uniqueEndpoints c.1 ≠ []) :
    s.roundRobin = (s₀.roundRobin + (entered trace).length) % 2 ^ 64 ∧
      ∀ j endpoints r, (entered trace)[j]? = some (endpoints, r) →
        r = (s₀.roundRobin + j) % 2 ^ 64 := by
  induction hrun with
  | nil => exact ⟨(Nat.mod_eq_of_lt hcounter).symm, by simp [entered]⟩
  | @snoc m s' trace a hrun hstep ih =>
      cases a with
      | tick ms =>
          cases hstep
          rw [entered_snoc_none rfl] at hnonempty ⊢
          exact ih hnonempty
      | advance i inp =>
          obtain ⟨pc, endpoints', pc', -, -, rfl⟩ := advance_cases hstep
          rw [entered_snoc_none rfl] at hnonempty ⊢
          exact ih hnonempty
      | call l =>
          cases hstep
          rw [entered_snoc_call] at hnonempty ⊢
          obtain ⟨hnow, hearlier⟩ := ih fun c hc => hnonempty c (List.mem_append_left _ hc)
          have hl : uniqueEndpoints l ≠ [] := hnonempty (l, m.roundRobin) (by simp)
          constructor
          · change (beginCall m l).1 = _
            rw [beginCall_roundRobin hl, hnow, List.length_append, List.length_singleton]
            omega
          · intro j endpoints r hj
            rcases Nat.lt_or_ge j (entered trace).length with hlt | hge
            · rw [List.getElem?_append_left hlt] at hj
              exact hearlier j endpoints r hj
            · rw [List.getElem?_append_right hge, List.getElem?_singleton] at hj
              split at hj
              · rename_i hzero
                cases hj
                rw [hnow, show (entered trace).length = j by omega]
              · cases hj

/-- Every answer was given for an endpoint of the walk, in some step of the
run. -/
theorem exists_mem_of_answers {yes : Bool} (h : (e, yes) ∈ answers i trace) :
    ∃ τ ∈ trace, ∃ now, yes = (τ.pre.endpoints e).isHealthyEnough now := by
  obtain ⟨τ, hτ, hasked⟩ := List.mem_filterMap.mp h
  refine ⟨τ, List.mem_of_mem_filter hτ, ?_⟩
  obtain ⟨pc, -, hasks⟩ := Option.bind_eq_some_iff.mp hasked
  unfold CallPc.asks? at hasks
  split at hasks
  · cases hasks
    exact ⟨_, rfl⟩
  · cases hasks

theorem accepted_eq_of_all {told : List (String × Bool)} (h : ∀ a ∈ told, a.2 = true) :
    accepted told = told.map Prod.fst := by
  rw [accepted, List.filter_eq_self.mpr h]

/-- While all endpoints are closed, the candidates of a call are its whole
rotation. -/
theorem candidates_of_closed {s₀ : State} (hrun : Run (step options) s₀ trace s) {j r : Nat}
    (hentered : (entered trace)[j]? = some (endpoints, r))
    (hclosed : ∀ τ ∈ trace, ∀ e ∈ uniqueEndpoints endpoints,
      (τ.pre.endpoints e).circuitState = .closed)
    (hreturned : ∀ pc, s.calls[s₀.calls.length + j]? = some pc → pc.isOrdering = false) :
    candidates (s₀.calls.length + j) trace = (uniqueEndpoints endpoints).rotate r := by
  obtain ⟨pc, hpc, hsorted⟩ := (inOrder_of_run hrun).sorted j endpoints r hentered
  obtain ⟨hwalk, hcandidates⟩ := hsorted.after (hreturned pc hpc)
  rw [hcandidates, ← hwalk]
  refine accepted_eq_of_all ?_
  rintro ⟨e, yes⟩ hmem
  obtain ⟨τ, hτ, now, hyes⟩ := exists_mem_of_answers hmem
  have he : e ∈ uniqueEndpoints endpoints := by
    rw [← List.mem_rotate, ← hwalk]
    exact List.mem_map_of_mem hmem
  rw [hyes, EndpointState.isHealthyEnough, hclosed τ hτ e he]

/-- The calls numbered from `base` on, by who comes first in each of them. -/
def firsts (base count : Nat) (trace : List PoolTransition) : List (Option String) :=
  (List.range count).map fun j => (candidates (base + j) trace).head?

/-- In calls with the same closed endpoints and no wrap of the counter, the
endpoints take turns. -/
theorem firsts_eq_turns {s₀ : State} (hrun : Run (step options) s₀ trace s) {unique : List String}
    (hsame : ∀ c ∈ entered trace, uniqueEndpoints c.1 = unique)
    (hwrap : s₀.roundRobin + (entered trace).length ≤ 2 ^ 64)
    (hclosed : ∀ τ ∈ trace, ∀ e ∈ unique, (τ.pre.endpoints e).circuitState = .closed)
    (hreturned : ∀ j < (entered trace).length, ∀ pc,
      s.calls[s₀.calls.length + j]? = some pc → pc.isOrdering = false) (hunique : unique ≠ []) :
    firsts s₀.calls.length (entered trace).length trace =
      turns unique s₀.roundRobin (entered trace).length := by
  refine List.map_congr_left ?_
  intro j hj
  have hlt : j < (entered trace).length := List.mem_range.mp hj
  obtain ⟨⟨endpoints, r⟩, hentered⟩ : ∃ c, (entered trace)[j]? = some c :=
    ⟨_, List.getElem?_eq_getElem hlt⟩
  have hendpoints : uniqueEndpoints endpoints = unique :=
    hsame _ (List.mem_of_getElem? hentered)
  have hcounter := (roundRobin_of_run hrun (by omega) (by
    intro c hc
    rw [hsame c hc]
    exact hunique)).2 j endpoints r hentered
  rw [Nat.mod_eq_of_lt (by omega)] at hcounter
  rw [candidates_of_closed hrun hentered (by rw [hendpoints]; exact hclosed) (hreturned j hlt),
    hendpoints, hcounter, turn]

/-- What `orderedCandidates` returns, that a pool computes it, and that in whole
rounds of calls every endpoint comes first equally often, whoever makes them
and whatever happens in between. -/
theorem candidate_order_fair :
    (∀ (s : State) (endpoints : List String),
      (orderedCandidates s endpoints).2.Nodup ∧
      (∀ e, e ∈ (orderedCandidates s endpoints).2 ↔
        e ∈ endpoints ∧ e ≠ "" ∧ (s.endpoints e).isHealthyEnough s.now = true) ∧
      (orderedCandidates s endpoints).2 =
        ((uniqueEndpoints endpoints).rotate s.roundRobin).filter (fun e =>
          (s.endpoints e).isHealthyEnough s.now) ∧
      (uniqueEndpoints endpoints).Pairwise (fun a b => endpoints.idxOf a < endpoints.idxOf b)) ∧
    (∀ (options : Options) (inp : Input) (s : State) (endpoints : List String),
      uniqueEndpoints endpoints ≠ [] →
      execute (step options) s (.call endpoints ::
          List.replicate (uniqueEndpoints endpoints).length (.advance s.calls.length inp)) =
        some { s with
          roundRobin := (orderedCandidates s endpoints).1
          calls := s.calls ++ [.ordering s.now [] (orderedCandidates s endpoints).2] }) ∧
    ∀ (options : Options) (s₀ s : State) (trace : List PoolTransition) (unique : List String)
      (k : Nat), Run (step options) s₀ trace s →
      (entered trace).length = k * unique.length →
      (∀ c ∈ entered trace, uniqueEndpoints c.1 = unique) →
      s₀.roundRobin + k * unique.length ≤ 2 ^ 64 →
      (∀ τ ∈ trace, ∀ e ∈ unique, (τ.pre.endpoints e).circuitState = .closed) →
      (∀ j < k * unique.length, ∀ pc, s.calls[s₀.calls.length + j]? = some pc →
        pc.isOrdering = false) →
      ∀ e ∈ unique, (firsts s₀.calls.length (k * unique.length) trace).count (some e) = k := by
  refine ⟨?_, execute_orderedCandidates, ?_⟩
  · intro s endpoints
    exact ⟨orderedCandidates_nodup s endpoints, fun e => mem_orderedCandidates,
      orderedCandidates_eq s endpoints, uniqueEndpoints_inOrder endpoints⟩
  · intro options s₀ s trace unique k hrun hlength hsame hwrap hclosed hreturned e he
    rw [← hlength] at hwrap hreturned
    have hturns := firsts_eq_turns hrun hsame hwrap hclosed hreturned (List.ne_nil_of_mem he)
    rw [hlength] at hturns
    rw [hturns]
    rcases Nat.eq_zero_or_pos k with rfl | hk
    · simp [turns]
    · have hsome : 0 < (entered trace).length := by
        rw [hlength]
        exact Nat.mul_pos hk (List.length_pos_of_mem he)
      have hnodup : unique.Nodup := by
        rw [← hsame _ (List.getElem_mem hsome)]
        exact uniqueEndpoints_nodup _
      exact count_turns hnodup he _ _

/-- Two calls that run through each other. -/
def twoCalls : List Action :=
  [.call ["a", "b"], .call ["a", "", "b", "a"], .advance 1 {}, .advance 0 {}, .advance 0 {},
    .advance 1 {}, .advance 1 {}, .advance 0 {}]

/-- Each of the two endpoints comes first in one of the calls. -/
theorem candidate_order_fair_two :
    ∃ s, Run (step {}) {} (executeTrace (step {}) {} twoCalls) s ∧
      (firsts 0 2 (executeTrace (step {}) {} twoCalls)).count (some "a") = 1 := by
  obtain ⟨s, hrun, hreturned⟩ := exists_run_of_execute
    (p := fun s => s.calls.all fun pc => !pc.isOrdering)
    (show (execute (step {}) {} twoCalls).any _ = true by decide +kernel)
  refine ⟨s, hrun, ?_⟩
  refine candidate_order_fair.2.2 {} {} s _ ["a", "b"] 1 hrun (by decide +kernel)
    (by decide +kernel) (by decide) (by decide +kernel) ?_ "a" (by decide)
  intro j _ pc hpc
  have hall := List.all_eq_true.mp hreturned pc (List.mem_of_getElem? hpc)
  simpa using hall

end RpcClientPool
end Corpcron
