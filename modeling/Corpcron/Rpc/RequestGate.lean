import Corpcron.Rpc.CircuitBreaker

/-!
# The gate in front of a business request

A call looks at the health of an endpoint three times: `orderedCandidates`
filters with it, `reserveHalfOpenProbe` may turn it into a probe, and when no
probe is reserved `isHealthyEnough` is asked again.  Other calls change the
endpoint between the three.  The last check also lets an open circuit pass whose
cooldown is over, without a probe.  `Refused` shows that this does not happen:
it uses the clock reading of the reservation that was refused, and a circuit
that has opened since is closed to that reading for a whole cooldown.

* `CallStep` says where a step of a call can lead.
* `history` is the part of a run that one call makes; what a call sends and
  whom it asks is read off it.
-/

namespace Corpcron
namespace RpcClientPool

open Lib

/-! ## Steps of a call, seen from the call -/

/-- Where one step leads a call. -/
inductive CallStep (options : Options) (s : State) (inp : Input) : CallPc → CallPc → Prop where
  | filter (now : Nat) (e : String) (pending ordered kept : List String)
      (hkept : kept = ordered ++ [e] ∨ kept = ordered) :
      CallStep options s inp (.ordering now (e :: pending) ordered) (.ordering now pending kept)
  | unavailable (now : Nat) (result : CallResult) :
      CallStep options s inp (.ordering now [] []) (.returned result)
  | enter (now : Nat) (ordered : List String) :
      CallStep options s inp (.ordering now [] ordered) (.iterating ⟨ordered, ""⟩)
  | giveUp (l : Loop) (result : CallResult) :
      CallStep options s inp (.iterating l) (.returned result)
  | invalid (e : String) (rest : List String) (lastError lastError' : String) :
      CallStep options s inp (.iterating ⟨e :: rest, lastError⟩) (.failing e ⟨rest, lastError'⟩)
  | reach (e : String) (rest : List String) (lastError : String) :
      CallStep options s inp (.iterating ⟨e :: rest, lastError⟩)
        (.reserving e s.now ⟨rest, lastError⟩)
  | countInvalid (e : String) (l : Loop) : CallStep options s inp (.failing e l) (.iterating l)
  | reserve (e : String) (now : Nat) (l : Loop) :
      CallStep options s inp (.reserving e now l) (.probing e l)
  | refuse (e : String) (now : Nat) (l : Loop)
      (hrefused : (s.endpoints e).reserveHalfOpenProbe now = none) :
      CallStep options s inp (.reserving e now l) (.gating e now l)
  | probe (e : String) (l : Loop) :
      CallStep options s inp (.probing e l)
        (.finishing e (!options.healthCheckProbe || inp.serving) l)
  | probeFailed (e : String) (l : Loop) (lastError : String) :
      CallStep options s inp (.finishing e false l) (.iterating ⟨l.candidates, lastError⟩)
  | probeOk (e : String) (l : Loop) :
      CallStep options s inp (.finishing e true l) (.borrowing e l)
  | pass (e : String) (now : Nat) (l : Loop)
      (hhealthy : (s.endpoints e).isHealthyEnough now = true) :
      CallStep options s inp (.gating e now l) (.borrowing e l)
  | block (e : String) (now : Nat) (l : Loop) (lastError : String) :
      CallStep options s inp (.gating e now l) (.iterating ⟨l.candidates, lastError⟩)
  | borrow (e : String) (l : Loop) :
      CallStep options s inp (.borrowing e l) (.calling e l)
  | exchange (e : String) (l : Loop) :
      CallStep options s inp (.calling e l) (.releasing e inp.client l)
  | release (e : String) (result : ClientResult) (l : Loop) :
      CallStep options s inp (.releasing e result l) (.recording e result l)
  | finish (e : String) (result : ClientResult) (l : Loop) (returned : CallResult) :
      CallStep options s inp (.recording e result l) (.returned returned)
  | next (e : String) (result : ClientResult) (l : Loop) (lastError : String)
      (hfailed : result.ok = false) (hcanceled : result.status ≠ .canceled)
      (hdeadline : result.status ≠ .deadlineExceeded) :
      CallStep options s inp (.recording e result l) (.iterating ⟨l.candidates, lastError⟩)

variable {options : Options} {s s' : State} {τ : PoolTransition} {trace : List PoolTransition}
  {i : Nat} {inp : Input} {pc pc' : CallPc} {e : String}

/-- The inversion lemma for `stepCall`, seen from the call. -/
theorem callStep_of_stepCall {endpoints' : String → EndpointState}
    (h : stepCall options s inp pc = some (endpoints', pc')) : CallStep options s inp pc pc' := by
  cases pc with
  | ordering now pending ordered =>
      cases pending with
      | nil =>
          simp only [stepCall] at h
          split at h
          · rename_i hempty
            rw [List.isEmpty_iff.mp hempty]
            cases h
            exact .unavailable now _
          · cases h
            exact .enter now ordered
      | cons e pending =>
          simp only [stepCall] at h
          split at h
          · cases h
            exact .filter now e pending ordered _ (.inl rfl)
          · cases h
            exact .filter now e pending ordered _ (.inr rfl)
  | iterating l =>
      obtain ⟨candidates, lastError⟩ := l
      cases candidates with
      | nil =>
          cases h
          exact .giveUp _ _
      | cons e rest =>
          simp only [stepCall] at h
          split at h
          · cases h
            exact .giveUp _ _
          split at h
          · cases h
            exact .giveUp _ _
          split at h
          · cases h
            exact .invalid e rest _ _
          · cases h
            exact .reach e rest lastError
  | failing e l =>
      obtain ⟨state, -, hnext⟩ := Option.map_eq_some_iff.mp h
      cases hnext
      exact .countInvalid e l
  | reserving e now l =>
      simp only [stepCall] at h
      split at h
      · cases h
        exact .reserve e now l
      · rename_i hrefused
        cases h
        exact .refuse e now l hrefused
  | probing e l =>
      cases h
      exact .probe e l
  | finishing e success l =>
      obtain ⟨state, -, hnext⟩ := Option.map_eq_some_iff.mp h
      cases hnext
      cases success with
      | true => exact .probeOk e l
      | false => exact .probeFailed e l _
  | gating e now l =>
      simp only [stepCall] at h
      split at h
      · rename_i hhealthy
        cases h
        exact .pass e now l hhealthy
      · cases h
        exact .block e now l _
  | borrowing e l =>
      cases h
      exact .borrow e l
  | calling e l =>
      cases h
      exact .exchange e l
  | releasing e result l =>
      cases h
      exact .release e result l
  | recording e result l =>
      obtain ⟨state, -, hnext⟩ := Option.map_eq_some_iff.mp h
      simp only [Prod.mk.injEq] at hnext
      obtain ⟨-, rfl⟩ := hnext
      split
      · exact .finish e result l _
      · rename_i hok
        split
        · exact .finish e result l _
        · rename_i hstatus
          rw [not_or] at hstatus
          exact .next e result l _ (by simpa using hok) hstatus.1 hstatus.2
  | returned result => cases h

/-- Call `i` makes the step. -/
def ofCall (i : Nat) (τ : PoolTransition) : Bool :=
  match τ.action with
  | .advance j _ => j == i
  | _ => false

/-- What a step does to call `i`: nothing, it begins, or it is the one that
moves. -/
theorem call_cases (i : Nat) (hstep : step options τ.pre τ.action = some τ.post) :
    (ofCall i τ = false ∧ τ.post.calls[i]? = τ.pre.calls[i]?) ∨
    (ofCall i τ = false ∧ τ.pre.calls[i]? = none ∧
      ∃ endpoints, τ.post.calls[i]? = some (beginCall τ.pre endpoints).2) ∨
    ∃ inp pc pc', τ.action = .advance i inp ∧ ofCall i τ = true ∧ τ.pre.calls[i]? = some pc ∧
      τ.post.calls[i]? = some pc' ∧ CallStep options τ.pre inp pc pc' := by
  obtain ⟨s, a, s'⟩ := τ
  dsimp only at hstep ⊢
  cases a with
  | tick ms =>
      cases hstep
      exact .inl ⟨rfl, rfl⟩
  | call endpoints =>
      cases hstep
      rcases thread_concat_cases s.calls i (beginCall s endpoints).2 with
        hsame | ⟨-, hnone, hnew⟩
      · exact .inl ⟨rfl, hsame⟩
      · exact .inr (.inl ⟨rfl, hnone, endpoints, hnew⟩)
  | advance j inp =>
      simp only [step] at hstep
      split at hstep
      · cases hstep
      · rename_i pc hpc
        obtain ⟨⟨endpoints', pc'⟩, hcall, hnext⟩ := Option.map_eq_some_iff.mp hstep
        cases hnext
        by_cases hj : j = i
        · subst hj
          refine .inr (.inr ⟨inp, pc, pc', rfl, by simp [ofCall], hpc, ?_,
            callStep_of_stepCall hcall⟩)
          exact thread_set_self hpc
        · exact .inl ⟨by simp [ofCall, hj], List.getElem?_set_ne hj⟩

/-! ## The history of a call -/

/-- The steps of call `i`. -/
def history (i : Nat) (trace : List PoolTransition) : List PoolTransition :=
  trace.filter (ofCall i)

theorem history_snoc_other (h : ofCall i τ = false) :
    history i (trace ++ [τ]) = history i trace := by
  simp [history, List.filter_append, h]

theorem history_snoc_self (h : ofCall i τ = true) :
    history i (trace ++ [τ]) = history i trace ++ [τ] := by
  simp [history, List.filter_append, h]

/-- The endpoint to which a call is about to send the business request. -/
def CallPc.requests? : CallPc → Option String
  | .calling e _ => some e
  | _ => none

/-- What `orderedCandidates` is about to return. -/
def CallPc.ordered? : CallPc → Option (List String)
  | .ordering _ [] ordered => some ordered
  | _ => none

/-- The endpoint to which a step of call `i` sends the business request. -/
def requested? (i : Nat) (τ : PoolTransition) : Option String :=
  (τ.pre.calls[i]?).bind CallPc.requests?

/-- What `orderedCandidates` returns in a step of call `i`. -/
def ordered? (i : Nat) (τ : PoolTransition) : Option (List String) :=
  (τ.pre.calls[i]?).bind CallPc.ordered?

/-- The endpoints to which call `i` has sent the business request, in order. -/
def requests (i : Nat) (trace : List PoolTransition) : List String :=
  (history i trace).filterMap (requested? i)

/-- The candidates of call `i`; none before `orderedCandidates` has returned. -/
def candidates (i : Nat) (trace : List PoolTransition) : List String :=
  ((history i trace).findSome? (ordered? i)).getD []

theorem requested?_eq (hpc : τ.pre.calls[i]? = some pc) : requested? i τ = pc.requests? := by
  rw [requested?, hpc, Option.bind_some]

theorem ordered?_eq (hpc : τ.pre.calls[i]? = some pc) : ordered? i τ = pc.ordered? := by
  rw [ordered?, hpc, Option.bind_some]

theorem requests_snoc_other (h : ofCall i τ = false) :
    requests i (trace ++ [τ]) = requests i trace := by
  rw [requests, history_snoc_other h, requests]

theorem requests_snoc_self (h : ofCall i τ = true) (hpc : τ.pre.calls[i]? = some pc) :
    requests i (trace ++ [τ]) = requests i trace ++ pc.requests?.toList := by
  rw [requests, history_snoc_self h, List.filterMap_append, requests, ← requested?_eq hpc]
  cases hrequest : requested? i τ <;> simp [hrequest]

theorem candidates_snoc_other (h : ofCall i τ = false) :
    candidates i (trace ++ [τ]) = candidates i trace := by
  rw [candidates, history_snoc_other h, candidates]

theorem findSome?_snoc_self (h : ofCall i τ = true) (hpc : τ.pre.calls[i]? = some pc) :
    (history i (trace ++ [τ])).findSome? (ordered? i) =
      ((history i trace).findSome? (ordered? i)).or pc.ordered? := by
  rw [history_snoc_self h, List.findSome?_append, ← ordered?_eq hpc]
  cases hordered : ordered? i τ <;> simp [hordered]

/-! ## Each candidate at most once, in order -/

theorem uniqueEndpoints_nodup (endpoints : List String) : (uniqueEndpoints endpoints).Nodup := by
  -- The loop only appends what is not there yet.
  have hloop : ∀ unique : List String, unique.Nodup →
      (endpoints.foldl (fun unique endpoint =>
        if endpoint = "" ∨ endpoint ∈ unique then unique else unique ++ [endpoint])
          unique).Nodup := by
    induction endpoints with
    | nil => exact fun _ h => h
    | cons endpoint endpoints ih =>
        intro unique h
        apply ih
        dsimp only
        split
        · exact h
        · rename_i hnew
          rw [not_or] at hnew
          rw [List.nodup_append]
          refine ⟨h, by simp, fun a ha b hb => ?_⟩
          rw [List.mem_singleton.mp hb]
          rintro rfl
          exact hnew.2 ha
  exact hloop [] List.nodup_nil

/-- The candidates to which a call may still send the request. -/
def CallPc.remaining : CallPc → List String
  | .iterating l | .failing _ l | .releasing _ _ l | .recording _ _ l => l.candidates
  | .reserving e _ l | .probing e l | .finishing e _ l | .gating e _ l | .borrowing e l
  | .calling e l => e :: l.candidates
  | .ordering _ _ _ | .returned _ => []

/-- What has been requested and what may still be is a part of the candidates,
in their order. -/
structure Served (i : Nat) (trace : List PoolTransition) (pc : CallPc) : Prop where
  nodup : (candidates i trace).Nodup
  inOrder : (requests i trace ++ pc.remaining).Sublist (candidates i trace)
  /-- In `orderedCandidates` there is nothing yet. -/
  ordering : ∀ now pending ordered, pc = .ordering now pending ordered →
    (history i trace).findSome? (ordered? i) = none ∧ (ordered ++ pending).Nodup

/-- A step of another call. -/
theorem Served.other (h : Served i trace pc) (hof : ofCall i τ = false) :
    Served i (trace ++ [τ]) pc := by
  refine ⟨?_, ?_, ?_⟩
  · rw [candidates_snoc_other hof]
    exact h.nodup
  · rw [candidates_snoc_other hof, requests_snoc_other hof]
    exact h.inOrder
  · rw [history_snoc_other hof]
    exact h.ordering

/-- A step in the loop: what it requests comes first among what was left. -/
theorem Served.move (h : Served i trace pc) (hof : ofCall i τ = true)
    (hpc : τ.pre.calls[i]? = some pc) (hloop : pc.ordered? = none)
    (hloop' : ∀ now pending ordered, pc' ≠ .ordering now pending ordered)
    (hleft : (pc.requests?.toList ++ pc'.remaining).Sublist pc.remaining) :
    Served i (trace ++ [τ]) pc' := by
  have hcandidates : candidates i (trace ++ [τ]) = candidates i trace := by
    rw [candidates, findSome?_snoc_self hof hpc, hloop, Option.or_none, candidates]
  refine ⟨?_, ?_, fun now pending ordered hpc' => absurd hpc' (hloop' now pending ordered)⟩
  · rw [hcandidates]
    exact h.nodup
  · rw [hcandidates, requests_snoc_self hof hpc, List.append_assoc]
    exact (hleft.append_left _).trans h.inOrder

/-- The end of `orderedCandidates`. -/
theorem Served.start {now : Nat} {ordered : List String}
    (h : Served i trace (.ordering now [] ordered)) (hof : ofCall i τ = true)
    (hpc : τ.pre.calls[i]? = some (.ordering now [] ordered))
    (hloop' : ∀ now pending ordered, pc' ≠ .ordering now pending ordered)
    (hleft : pc'.remaining = ordered) : Served i (trace ++ [τ]) pc' := by
  obtain ⟨hnone, hnodup⟩ := h.ordering now [] ordered rfl
  have hcandidates : candidates i (trace ++ [τ]) = ordered := by
    rw [candidates, findSome?_snoc_self hof hpc, hnone]
    rfl
  have hrequests : requests i trace = [] := by
    have hpart := h.inOrder
    rw [candidates, hnone, Option.getD_none, List.sublist_nil, List.append_eq_nil_iff] at hpart
    exact hpart.1
  refine ⟨?_, ?_, fun now pending ordered hpc' => absurd hpc' (hloop' now pending ordered)⟩
  · rw [hcandidates]
    simpa using hnodup
  · rw [hcandidates, requests_snoc_self hof hpc, hrequests, hleft]
    exact List.Sublist.refl _

theorem Served.step (h : Served i trace pc) (hof : ofCall i τ = true)
    (hpc : τ.pre.calls[i]? = some pc) (hstep : CallStep options τ.pre inp pc pc') :
    Served i (trace ++ [τ]) pc' := by
  cases hstep with
  | filter now e pending ordered kept hkept =>
      obtain ⟨hnone, hnodup⟩ := h.ordering now (e :: pending) ordered rfl
      have hcandidates : (history i (trace ++ [τ])).findSome? (ordered? i) = none := by
        rw [findSome?_snoc_self hof hpc, hnone]
        rfl
      have hnodup' : (kept ++ pending).Nodup := by
        rcases hkept with rfl | rfl
        · simpa using hnodup
        · exact hnodup.sublist ((List.sublist_cons_self e pending).append_left _)
      have hrequests := h.inOrder
      rw [candidates, hnone] at hrequests
      refine ⟨?_, ?_, ?_⟩
      · rw [candidates, hcandidates]
        exact List.nodup_nil
      · rw [candidates, hcandidates, requests_snoc_self hof hpc]
        simpa [CallPc.requests?, CallPc.remaining] using hrequests
      · rintro _ _ _ ⟨⟩
        exact ⟨hcandidates, hnodup'⟩
  | unavailable now result => exact h.start hof hpc nofun rfl
  | enter now ordered => exact h.start hof hpc nofun rfl
  | giveUp l result => exact h.move hof hpc rfl nofun (List.nil_sublist _)
  | invalid e rest lastError lastError' =>
      exact h.move hof hpc rfl nofun (List.sublist_cons_self e rest)
  | probeFailed e l lastError => exact h.move hof hpc rfl nofun (List.sublist_cons_self e _)
  | block e now l lastError => exact h.move hof hpc rfl nofun (List.sublist_cons_self e _)
  | finish e result l returned => exact h.move hof hpc rfl nofun (List.nil_sublist _)
  | _ => exact h.move hof hpc rfl nofun (List.Sublist.refl _)

/-- A call that begins has its endpoints without repetitions, rotated. -/
theorem served_beginCall (hempty : history i trace = []) (s : State) (endpoints : List String) :
    Served i trace (beginCall s endpoints).2 := by
  have hrequests : requests i trace = [] := by rw [requests, hempty, List.filterMap_nil]
  have hcandidates : candidates i trace = [] := by rw [candidates, hempty]; rfl
  refine ⟨by rw [hcandidates]; exact List.nodup_nil, ?_, ?_⟩
  · have hremaining : (beginCall s endpoints).2.remaining = [] := by
      unfold beginCall
      dsimp only
      split <;> rfl
    rw [hrequests, hremaining, hcandidates]
    exact List.Sublist.refl _
  · intro now pending ordered hpc
    refine ⟨by rw [hempty]; rfl, ?_⟩
    unfold beginCall at hpc
    dsimp only at hpc
    split at hpc
    · cases hpc
    · cases hpc
      have hrotated := List.perm_append_comm.trans
        (List.Perm.of_eq (List.take_append_drop (s.roundRobin % (uniqueEndpoints endpoints).length)
          (uniqueEndpoints endpoints)))
      exact hrotated.nodup_iff.mpr (uniqueEndpoints_nodup endpoints)

theorem served_of_run {now : Nat} (hrun : Run (step options) (built now) trace s) (i : Nat) :
    (s.calls[i]? = none → history i trace = []) ∧
      ∀ pc, s.calls[i]? = some pc → Served i trace pc := by
  refine hrun.history_invariant (P := fun trace s => (s.calls[i]? = none → history i trace = []) ∧
    ∀ pc, s.calls[i]? = some pc → Served i trace pc) ⟨fun _ => rfl, by simp [built]⟩ ?_
  rintro earlier τ - - hstep ⟨hnone, hserved⟩
  rcases call_cases i hstep with ⟨hof, hsame⟩ | ⟨hof, hfresh, endpoints, hbegun⟩ |
      ⟨inp, pc, pc', -, hof, hpc, hpc', hcall⟩
  · rw [hsame, history_snoc_other hof]
    exact ⟨hnone, fun pc hpc => (hserved pc hpc).other hof⟩
  · constructor
    · intro hmissing
      rw [hbegun] at hmissing
      cases hmissing
    · intro pc hpc
      rw [hbegun] at hpc
      cases hpc
      exact served_beginCall (by rw [history_snoc_other hof, hnone hfresh]) _ _
  · constructor
    · intro hmissing
      rw [hpc'] at hmissing
      cases hmissing
    · intro q hq
      rw [hpc'] at hq
      cases hq
      exact (hserved pc hpc).step hof hpc hcall

/-! ## Nothing after the last exchange -/

/-- The exchange ends the call: it has succeeded, was canceled or ran out of
time. -/
def ClientResult.isFinal (result : ClientResult) : Bool :=
  result.ok || result.status == .canceled || result.status == .deadlineExceeded

/-- The call has made its last exchange. -/
def CallPc.spent : CallPc → Bool
  | .releasing _ result _ | .recording _ result _ => result.isFinal
  | .returned _ => true
  | _ => false

theorem spent_step (hstep : CallStep options s inp pc pc') (h : pc.spent = true) :
    pc'.spent = true ∧ pc.requests? = none := by
  cases hstep with
  | release e result l => exact ⟨h, rfl⟩
  | finish e result l returned => exact ⟨rfl, rfl⟩
  | next e result l lastError hfailed hcanceled hdeadline =>
      simp [CallPc.spent, ClientResult.isFinal, hfailed, hcanceled, hdeadline] at h
  | _ => cases h

theorem requests_eq_nil_of_spent (hrun : Run (step options) s trace s')
    (hpc : s.calls[i]? = some pc) (hspent : pc.spent = true) : requests i trace = [] := by
  refine (hrun.history_invariant (P := fun trace s => requests i trace = [] ∧
    ∃ pc, s.calls[i]? = some pc ∧ pc.spent = true) ⟨rfl, pc, hpc, hspent⟩ ?_).1
  rintro earlier τ - - hstep ⟨hnone, q, hq, hspent⟩
  rcases call_cases i hstep with ⟨hof, hsame⟩ | ⟨-, hfresh, -⟩ |
      ⟨inp, q', q'', -, hof, hq', hq'', hcall⟩
  · exact ⟨by rw [requests_snoc_other hof, hnone], q, by rw [hsame, hq], hspent⟩
  · rw [hq] at hfresh
    cases hfresh
  · rw [hq] at hq'
    cases hq'
    obtain ⟨hspent', hquiet⟩ := spent_step hcall hspent
    refine ⟨?_, q'', hq'', hspent'⟩
    rw [requests_snoc_self hof hq, hnone, hquiet]
    rfl

/-! ## The last check -/

theorem now_le_of_step (hstep : step options τ.pre τ.action = some τ.post) :
    τ.pre.now ≤ τ.post.now := by
  rcases step_cases hstep with ⟨ms, -, hpost⟩ | ⟨_, _, -, hnow, -⟩ | ⟨_, _, _, _, -, -, hnow, -⟩
  · rw [hpost]
    exact Nat.le_add_right _ _
  · exact hnow.ge
  · exact hnow.ge

/-- A circuit that is open after a step was open before, up to the same time, or
has just opened for a whole cooldown. -/
theorem open_of_step (hstep : step options τ.pre τ.action = some τ.post)
    (h : Recoverable options τ.pre e) (hopen : (τ.post.endpoints e).circuitState = .open) :
    (τ.pre.endpoints e).circuitState = .open ∧
        (τ.post.endpoints e).unhealthyUntil = (τ.pre.endpoints e).unhealthyUntil ∨
      (τ.post.endpoints e).unhealthyUntil = τ.pre.now + options.cooldownMs.toNat := by
  have hrecord : ∀ success, (τ.pre.endpoints e).record options τ.pre.now success =
      some (τ.post.endpoints e) →
      (τ.post.endpoints e).unhealthyUntil = τ.pre.now + options.cooldownMs.toNat := by
    intro success hstate
    rcases record_result hstate h.failures with hclosed | ⟨-, -, -, huntil⟩
    · rw [hclosed] at hopen
      cases hopen
    · exact huntil
  rcases step_cases hstep with ⟨ms, -, hpost⟩ | ⟨_, _, -, -, hendpoints, -, -⟩ |
      ⟨_, _, _, _, -, -, -, -, hendpoint⟩
  · rw [hpost] at hopen ⊢
    exact .inl ⟨hopen, rfl⟩
  · rw [hendpoints] at hopen ⊢
    exact .inl ⟨hopen, rfl⟩
  · cases hendpoint e with
    | quiet idle hstate hreserved =>
        rw [hstate] at hopen ⊢
        exact .inl ⟨hopen, rfl⟩
    | reserve now l hpc hpc' hstate =>
        rw [(reserve_result hstate).2] at hopen
        cases hopen
    | finish success l hpc hpc' hstate => exact .inr (hrecord success hstate)
    | record success hpc hpc' hstate => exact .inr (hrecord success hstate)

/-- What the clock reading `now` of a candidate is good for: it lies in the past,
and once a reservation with it was refused, no open circuit passes with it. -/
def Refused (s : State) : CallPc → Prop
  | .reserving _ now _ => now ≤ s.now
  | .gating e now _ => now ≤ s.now ∧
      ((s.endpoints e).circuitState = .open → now < (s.endpoints e).unhealthyUntil)
  | _ => True

/-- Steps of others: an open circuit stays closed to an older clock reading. -/
theorem Refused.mono (hcooldown : 1 ≤ options.cooldownMs)
    (hstep : step options τ.pre τ.action = some τ.post)
    (hrecoverable : ∀ e, Recoverable options τ.pre e) (h : Refused τ.pre pc) :
    Refused τ.post pc := by
  have hnow := now_le_of_step hstep
  cases pc with
  | reserving e now l => exact h.trans hnow
  | gating e now l =>
      obtain ⟨hread, huntil⟩ := h
      refine ⟨hread.trans hnow, fun hopen => ?_⟩
      rcases open_of_step hstep (hrecoverable e) hopen with ⟨hbefore, hsame⟩ | hopened
      · rw [hsame]
        exact huntil hbefore
      · rw [hopened]
        omega
  | _ => trivial

theorem beginCall_refused (s t : State) (endpoints : List String) :
    Refused t (beginCall s endpoints).2 := by
  unfold beginCall
  dsimp only
  split <;> trivial

/-- A reservation is refused at an open circuit only because of the time. -/
theorem refused_of_reserve {now : Nat} (h : Recoverable options s e)
    (hrefused : (s.endpoints e).reserveHalfOpenProbe now = none)
    (hopen : (s.endpoints e).circuitState = .open) : now < (s.endpoints e).unhealthyUntil := by
  have hflight := (h.opened hopen).2.1
  unfold EndpointState.reserveHalfOpenProbe at hrefused
  split at hrefused
  · rename_i hwhy
    simpa [hopen, hflight] using hwhy
  · cases hrefused

theorem refused_of_run (hcooldown : 1 ≤ options.cooldownMs) {now : Nat}
    (hrun : Run (step options) (built now) trace s) (i : Nat) :
    ∀ pc, s.calls[i]? = some pc → Refused s pc := by
  refine hrun.history_invariant (P := fun _ s => ∀ pc, s.calls[i]? = some pc → Refused s pc)
    (by simp [built]) ?_
  intro earlier τ _ hearlier hstep h
  have hrecoverable := recoverable_of_run hearlier
  rcases call_cases i hstep with ⟨-, hsame⟩ | ⟨-, -, endpoints, hbegun⟩ |
      ⟨inp, pc, pc', -, -, hpc, hpc', hcall⟩
  · intro pc hpc
    exact (h pc (hsame ▸ hpc)).mono hcooldown hstep hrecoverable
  · intro pc hpc
    rw [hbegun] at hpc
    cases hpc
    exact beginCall_refused _ _ _
  · intro q hq
    rw [hpc'] at hq
    cases hq
    -- The new place of the call, judged in the old state.
    have hbefore : Refused τ.pre pc' := by
      cases hcall with
      | reach e rest lastError => exact Nat.le_refl _
      | refuse e now l hrefused =>
          exact ⟨h _ hpc, refused_of_reserve (hrecoverable e) hrefused⟩
      | _ => trivial
    exact hbefore.mono hcooldown hstep hrecoverable

/-- The last check of call `i` before it borrows a connection to `e` is passed:
the circuit is closed, or it is the end of the call's own probe, the step before,
which has succeeded or is switched off. -/
inductive Passed (options : Options) (i : Nat) (e : String) (earlier : List PoolTransition)
    (check : PoolTransition) : Prop where
  | closed (now : Nat) (l : Loop) (hpc : check.pre.calls[i]? = some (.gating e now l))
      (hclosed : (check.pre.endpoints e).circuitState = .closed)
  | probed (l : Loop) (hpc : check.pre.calls[i]? = some (.finishing e true l))
      (before : List PoolTransition) (probe : PoolTransition) (inp : Input)
      (hearlier : earlier = before ++ [probe]) (haction : probe.action = .advance i inp)
      (hprobe : probe.pre.calls[i]? = some (.probing e l))
      (hserving : options.healthCheckProbe = false ∨ inp.serving = true)

/-- What the history of call `i` ends with, by the place of the call. -/
def Gated (options : Options) (i : Nat) (past : List PoolTransition) : CallPc → Prop
  | .finishing e success l => ∃ before probe inp, past = before ++ [probe] ∧
      probe.action = .advance i inp ∧ probe.pre.calls[i]? = some (.probing e l) ∧
      success = (!options.healthCheckProbe || inp.serving)
  | .borrowing e _ => ∃ earlier check, past = earlier ++ [check] ∧
      Passed options i e earlier check
  | .calling e l => ∃ earlier check borrow, past = earlier ++ [check, borrow] ∧
      borrow.pre.calls[i]? = some (.borrowing e l) ∧ Passed options i e earlier check
  | _ => True

theorem beginCall_gated (options : Options) (i : Nat) (past : List PoolTransition) (s : State)
    (endpoints : List String) : Gated options i past (beginCall s endpoints).2 := by
  unfold beginCall
  dsimp only
  split <;> trivial

theorem Gated.step {past : List PoolTransition} (h : Gated options i past pc)
    (hrefused : Refused τ.pre pc) (haction : τ.action = .advance i inp)
    (hpc : τ.pre.calls[i]? = some pc) (hstep : CallStep options τ.pre inp pc pc') :
    Gated options i (past ++ [τ]) pc' := by
  cases hstep with
  | probe e l => exact ⟨past, τ, inp, rfl, haction, hpc, rfl⟩
  | probeOk e l =>
      obtain ⟨before, probe, inp', hpast, hprobeAction, hprobe, hsuccess⟩ := h
      refine ⟨past, τ, rfl, .probed l hpc before probe inp' hpast hprobeAction hprobe ?_⟩
      cases hoption : options.healthCheckProbe with
      | false => exact .inl rfl
      | true => exact .inr (by simpa [hoption] using hsuccess.symm)
  | pass e now l hhealthy =>
      refine ⟨past, τ, rfl, .closed now l hpc ?_⟩
      unfold EndpointState.isHealthyEnough at hhealthy
      cases hcircuit : (τ.pre.endpoints e).circuitState with
      | closed => rfl
      | «open» =>
          have huntil := hrefused.2 hcircuit
          simp only [hcircuit, Bool.and_eq_true, decide_eq_true_eq] at hhealthy
          omega
      | halfOpen => simp [hcircuit] at hhealthy
  | borrow e l =>
      obtain ⟨earlier, check, hpast, hpassed⟩ := h
      exact ⟨earlier, check, τ, by rw [hpast, List.append_assoc]; rfl, hpc, hpassed⟩
  | _ => trivial

theorem gated_of_run (hcooldown : 1 ≤ options.cooldownMs) {now : Nat}
    (hrun : Run (step options) (built now) trace s) (i : Nat) :
    ∀ pc, s.calls[i]? = some pc → Gated options i (history i trace) pc := by
  refine hrun.history_invariant
    (P := fun trace s => ∀ pc, s.calls[i]? = some pc → Gated options i (history i trace) pc)
    (by simp [built]) ?_
  intro earlier τ _ hearlier hstep h
  rcases call_cases i hstep with ⟨hof, hsame⟩ | ⟨-, -, endpoints, hbegun⟩ |
      ⟨inp, pc, pc', haction, hof, hpc, hpc', hcall⟩
  · intro pc hpc
    rw [history_snoc_other hof]
    exact h pc (hsame ▸ hpc)
  · intro pc hpc
    rw [hbegun] at hpc
    cases hpc
    exact beginCall_gated _ _ _ _ _
  · intro q hq
    rw [hpc'] at hq
    cases hq
    rw [history_snoc_self hof]
    exact (h pc hpc).step (refused_of_run hcooldown hearlier i pc hpc) haction hpc hcall

/-! ## The result -/

theorem pc_of_requested (h : requested? i τ = some e) :
    ∃ l, τ.pre.calls[i]? = some (.calling e l) := by
  obtain ⟨pc, hpc, hrequests⟩ := Option.bind_eq_some_iff.mp h
  cases pc with
  | calling e' l =>
      cases hrequests
      exact ⟨l, hpc⟩
  | _ => cases hrequests

theorem requests_sublist_candidates {now : Nat} (hrun : Run (step options) (built now) trace s)
    (i : Nat) :
    (candidates i trace).Nodup ∧ (requests i trace).Sublist (candidates i trace) := by
  obtain ⟨hnone, hserved⟩ := served_of_run hrun i
  cases hpc : s.calls[i]? with
  | none =>
      have hempty := hnone hpc
      rw [candidates, requests, hempty]
      exact ⟨List.nodup_nil, List.Sublist.refl _⟩
  | some pc =>
      have h := hserved pc hpc
      exact ⟨h.nodup, (List.sublist_append_left _ _).trans h.inOrder⟩

/-- **The gate before every business request.**  With a cooldown of at least one
millisecond, in every run of any number of calls: before a call sends its request
to an endpoint it has borrowed a connection, and before that its last check found
the circuit closed or was the successful end of its own probe.  The endpoints it
sends to are among its candidates, in their order and without repetition, and
there is none after an exchange that has succeeded, was canceled or ran out of
time. -/
theorem request_gate (options : Options) (hcooldown : 1 ≤ options.cooldownMs) (now : Nat)
    (trace : List PoolTransition) (s : State)
    (hrun : Run (step options.normalized) (built now) trace s) (i : Nat) :
    (∀ before τ after e, trace = before ++ τ :: after → ofCall i τ = true →
      requested? i τ = some e →
        ∃ earlier check borrow l, history i before = earlier ++ [check, borrow] ∧
          borrow.pre.calls[i]? = some (.borrowing e l) ∧
          Passed options.normalized i e earlier check) ∧
    (candidates i trace).Nodup ∧ (requests i trace).Sublist (candidates i trace) ∧
    ∀ before τ after inp e, trace = before ++ τ :: after → τ.action = .advance i inp →
      requested? i τ = some e → inp.client.isFinal = true → requests i after = [] := by
  have hcooldown' : 1 ≤ options.normalized.cooldownMs := by
    simp only [Options.normalized]
    split <;> omega
  obtain ⟨hnodup, hinOrder⟩ := requests_sublist_candidates hrun i
  refine ⟨?_, hnodup, hinOrder, ?_⟩
  · rintro before τ after e rfl _ hrequest
    obtain ⟨hbefore, -, -⟩ := hrun.split
    obtain ⟨l, hpc⟩ := pc_of_requested hrequest
    obtain ⟨earlier, check, borrow, hpast, hborrow, hpassed⟩ :=
      gated_of_run hcooldown' hbefore i _ hpc
    exact ⟨earlier, check, borrow, l, hpast, hborrow, hpassed⟩
  · rintro before τ after inp e rfl haction hrequest hfinal
    obtain ⟨-, hstep, hafter⟩ := hrun.split
    obtain ⟨l, hpc⟩ := pc_of_requested hrequest
    rcases call_cases i hstep with ⟨hof, -⟩ | ⟨-, hfresh, -⟩ |
        ⟨inp', pc, pc', haction', -, hpc₁, hpc', hcall⟩
    · simp [ofCall, haction] at hof
    · rw [hpc] at hfresh
      cases hfresh
    · rw [hpc] at hpc₁
      cases hpc₁
      rw [haction] at haction'
      cases haction'
      cases hcall with
      | exchange => exact requests_eq_nil_of_spent hafter hpc' hfinal

/-- Open at the first failure, for a millisecond. -/
def briefOptions : Options := { failureThreshold := 1, cooldownMs := 1 }

/-- A call fails and opens the circuit; when the cooldown is over, the next one
probes and sends its request. -/
def probedRequestRun : List Action :=
  [.call ["h:1"]] ++ advances 0 6 ++ [.advance 0 unreachable] ++ advances 0 3 ++
    [.tick 1, .call ["h:1"]] ++ advances 1 10

/-- The request of the second call of `probedRequestRun` has passed the gate, and
is its only one. -/
theorem request_gate_probed :
    ∃ before τ after s,
      Run (step briefOptions.normalized) (built 0) (before ++ τ :: after) s ∧
      requested? 1 τ = some "h:1" ∧
      (∃ earlier check borrow l, history 1 before = earlier ++ [check, borrow] ∧
        borrow.pre.calls[1]? = some (.borrowing "h:1" l) ∧
        Passed briefOptions.normalized 1 "h:1" earlier check) ∧
      requests 1 after = [] := by
  obtain ⟨s, hrun⟩ := exists_run_of_isSome
    (show (execute (step briefOptions.normalized) (built 0) probedRequestRun).isSome = true by
      decide +kernel)
  generalize htrace : executeTrace (step briefOptions.normalized) (built 0) probedRequestRun =
    trace at hrun
  obtain ⟨τ, hcut, hτ⟩ := exists_cut_of_getElem? (l := trace) 20
    (p := fun τ => ofCall 1 τ && decide (requested? 1 τ = some "h:1") &&
      match τ.action with
      | .advance i inp => i == 1 && inp.client.isFinal
      | _ => false) (by subst htrace; decide +kernel)
  simp only [Bool.and_eq_true, decide_eq_true_eq] at hτ
  obtain ⟨⟨hof, hrequest⟩, hexchange⟩ := hτ
  obtain ⟨hgate, -, -, hlast⟩ := request_gate briefOptions (by decide) 0 trace s hrun 1
  have hgated := hgate _ τ _ "h:1" hcut hof hrequest
  split at hexchange
  · rename_i i inp haction
    simp only [Bool.and_eq_true, beq_iff_eq] at hexchange
    obtain ⟨rfl, hfinal⟩ := hexchange
    exact ⟨_, τ, _, s, hcut ▸ hrun, hrequest, hgated,
      hlast _ τ _ inp "h:1" hcut haction hrequest hfinal⟩
  · cases hexchange

end RpcClientPool
end Corpcron
