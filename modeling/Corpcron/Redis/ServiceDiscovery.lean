import Corpcron.Redis.ServiceRegistry

/-!
# Discovery refines a registry of deadlines

What the registry is for can be said without keys: each endpoint of a service is
alive up to a deadline.  `Registry` is that view and `Refines` ties it to the
database, service by service: the strings carry the deadlines, and the set lists
at least what is alive.  The set may list more, which is what the loop of
`discoverServices` removes.

* `Agrees.refines` is the frame rule: a method that stays off the keys of a
  service keeps that service's part of the relation.
* `refines_apply` is the step lemma, one case for each method.
* `RegistryHistory.of_run` follows a whole run and reads the deadlines off its
  calls.
-/

namespace Corpcron
namespace ServiceRegistry

open Lib

/-- Until when each endpoint of each service is alive. -/
structure Registry where
  now : Nat
  deadline : String → String → Option Nat

namespace Registry

/-- Set or remove the deadline of one endpoint. -/
def assign (registry : Registry) (service endpoint : String) (deadline : Option Nat) : Registry :=
  { registry with
    deadline := fun s e =>
      if s = service ∧ e = endpoint then deadline else registry.deadline s e }

/-- A registration for `ttlSec` seconds; without a name, an endpoint or a time
to live it is refused. -/
def register (registry : Registry) (service endpoint : String) (ttlSec : Int) : Registry :=
  if service = "" ∨ endpoint = "" ∨ ttlSec ≤ 0 then registry
  else registry.assign service endpoint (some (registry.now + 1000 * ttlSec.toNat))

/-- The abstract effect of an action; looking up changes nothing. -/
def apply (registry : Registry) : Action → Registry
  | .register service endpoint ttlSec => registry.register service endpoint ttlSec
  | .heartbeat service endpoint ttlSec => registry.register service endpoint ttlSec
  | .unregister service endpoint => registry.assign service endpoint none
  | .discover _ => registry
  | .elapse milliseconds => { registry with now := registry.now + milliseconds }

/-- The endpoint's deadline has not passed. -/
def Alive (registry : Registry) (service endpoint : String) : Prop :=
  ∃ deadline, registry.deadline service endpoint = some deadline ∧ registry.now ≤ deadline

theorem assign_deadline_self (registry : Registry) (service endpoint : String)
    (deadline : Option Nat) :
    (registry.assign service endpoint deadline).deadline service endpoint = deadline := by
  simp [assign]

theorem assign_deadline_of_ne (registry : Registry) {service endpoint s e : String}
    (deadline : Option Nat) (h : ¬ (s = service ∧ e = endpoint)) :
    (registry.assign service endpoint deadline).deadline s e = registry.deadline s e := by
  simp only [assign]
  rw [if_neg h]

end Registry

/-! ## The relation -/

/-- The part of the relation that is about one service. -/
structure RefinesService (V : Vocabulary) (db : Keyspace String String) (registry : Registry)
    (service : String) : Prop where
  node : ∀ endpoint ∈ V.endpoints, db (nodeKey service endpoint) =
    (registry.deadline service endpoint).map (KeyValue.str endpoint)
  noString : db.NoString (setKey service)
  members_known : ∀ endpoint ∈ db.members (setKey service), endpoint ∈ V.endpoints
  deadline_known : ∀ endpoint deadline, registry.deadline service endpoint = some deadline →
    service ≠ "" ∧ endpoint ∈ V.endpoints
  listed : ∀ endpoint, registry.Alive service endpoint →
    endpoint ∈ db.members (setKey service)

/-- The database represents the registry. -/
structure Refines (V : Vocabulary) (state : State) (registry : Registry) : Prop where
  now_eq : state.now = registry.now
  services : ∀ service ∈ V.services, RefinesService V state.db registry service

/-- Nothing is stored yet under the keys of these names. -/
def Fresh (V : Vocabulary) (state : State) : Prop :=
  ∀ service ∈ V.services, state.db (setKey service) = none ∧
    ∀ endpoint ∈ V.endpoints, state.db (nodeKey service endpoint) = none

theorem Fresh.refines {V : Vocabulary} {state : State} (h : Fresh V state) :
    Refines V state ⟨state.now, fun _ _ => none⟩ := by
  refine ⟨rfl, fun service hs => ?_⟩
  obtain ⟨hset, hnode⟩ := h service hs
  refine ⟨?_, ?_, ?_, ?_, ?_⟩
  · intro endpoint he
    simpa using hnode endpoint he
  · intro value expireAt
    simp [hset]
  · intro endpoint hmem
    simp [Keyspace.members, hset] at hmem
  · intro endpoint deadline hdeadline
    simp at hdeadline
  · rintro endpoint ⟨deadline, hdeadline, -⟩
    simp at hdeadline

section Frame

variable {V : Vocabulary} {db db' : Keyspace String String} {registry registry' : Registry}
  {service other : String}

/-- Two databases with the same keys for a service. -/
structure Agrees (V : Vocabulary) (db' db : Keyspace String String) (service : String) :
    Prop where
  set_eq : db' (setKey service) = db (setKey service)
  node_eq : ∀ endpoint ∈ V.endpoints,
    db' (nodeKey service endpoint) = db (nodeKey service endpoint)

/-- A method that only writes keys of one service leaves those of the others. -/
theorem agrees_of_frame (hs : service ∈ V.services) (ho : other ∈ V.services)
    (hne : other ≠ service)
    (hframe : ∀ k, k ≠ setKey service → (∀ e ∈ V.endpoints, k ≠ nodeKey service e) →
      db' k = db k) : Agrees V db' db other := by
  constructor
  · apply hframe
    · rw [Ne, setKey_inj]
      exact hne
    · intro e he
      exact V.setKey_ne_nodeKey ho hs he
  · intro endpoint hendpoint
    apply hframe
    · exact (V.setKey_ne_nodeKey hs ho hendpoint).symm
    · intro e he hkeys
      exact hne (V.nodeKey_injective hendpoint he hkeys).1

/-- The frame rule. -/
theorem Agrees.refines (hagrees : Agrees V db' db service)
    (h : RefinesService V db registry service) (hnow : registry'.now = registry.now)
    (hdeadline : ∀ e, registry'.deadline service e = registry.deadline service e) :
    RefinesService V db' registry' service := by
  have hmembers := Keyspace.members_congr hagrees.set_eq
  refine ⟨?_, h.noString.congr hagrees.set_eq, ?_, ?_, ?_⟩
  · intro endpoint he
    rw [hagrees.node_eq endpoint he, hdeadline]
    exact h.node endpoint he
  · rw [hmembers]
    exact h.members_known
  · intro endpoint deadline hsome
    rw [hdeadline] at hsome
    exact h.deadline_known endpoint deadline hsome
  · rintro endpoint ⟨deadline, hsome, hle⟩
    rw [hdeadline] at hsome
    rw [hnow] at hle
    rw [hmembers]
    exact h.listed endpoint ⟨deadline, hsome, hle⟩

/-- The string of an endpoint exists exactly as long as the endpoint is
alive. -/
theorem RefinesService.contains_iff (h : RefinesService V db registry service)
    {endpoint : String} (he : endpoint ∈ V.endpoints) :
    db.contains registry.now (nodeKey service endpoint) = true ↔
      registry.Alive service endpoint := by
  have hnode := h.node endpoint he
  unfold Registry.Alive
  cases hdeadline : registry.deadline service endpoint with
  | none =>
      rw [hdeadline] at hnode
      simp [Keyspace.contains_none _ hnode]
  | some deadline =>
      rw [hdeadline] at hnode
      simp [Keyspace.contains_str _ hnode]

end Frame

/-! ## One step -/

section Step

variable {V : Vocabulary} {state : State} {registry : Registry} {service endpoint : String}

/-- A change of the string of one endpoint and of its place in the set is a
change of one deadline. -/
theorem Refines.assign (h : Refines V state registry) (hs : service ∈ V.services)
    (he : endpoint ∈ V.endpoints) {db : Keyspace String String} {deadline : Option Nat}
    (hname : service ≠ "")
    (hnode : db (nodeKey service endpoint) = deadline.map (KeyValue.str endpoint))
    (hlisted : deadline ≠ none → endpoint ∈ db.members (setKey service))
    (hmembers : ∀ m, m ≠ endpoint →
      (m ∈ db.members (setKey service) ↔ m ∈ state.db.members (setKey service)))
    (hnoString : db.NoString (setKey service))
    (hframe : ∀ k, k ≠ setKey service → k ≠ nodeKey service endpoint → db k = state.db k) :
    Refines V { state with db := db } (registry.assign service endpoint deadline) := by
  have hservice := h.services service hs
  refine ⟨h.now_eq, fun other ho => ?_⟩
  change RefinesService V db (registry.assign service endpoint deadline) other
  by_cases hother : other = service
  · subst hother
    -- Only the one endpoint has a new deadline.
    have hkept : ∀ e, e ≠ endpoint → (registry.assign other endpoint deadline).deadline other e =
        registry.deadline other e := fun e heq =>
      Registry.assign_deadline_of_ne _ _ fun hsame => heq hsame.2
    refine ⟨?_, hnoString, ?_, ?_, ?_⟩
    · intro e hknown
      by_cases heq : e = endpoint
      · subst heq
        rw [hnode, Registry.assign_deadline_self]
      · rw [hkept e heq, ← hservice.node e hknown]
        apply hframe _ (nodeKey_ne_setKey other e)
        intro hkeys
        exact heq (V.nodeKey_injective hknown he hkeys).2
    · intro e hmem
      by_cases heq : e = endpoint
      · exact heq ▸ he
      · exact hservice.members_known e ((hmembers e heq).mp hmem)
    · intro e time hdeadline
      by_cases heq : e = endpoint
      · exact ⟨hname, heq ▸ he⟩
      · rw [hkept e heq] at hdeadline
        exact hservice.deadline_known e time hdeadline
    · rintro e ⟨time, hdeadline, hle⟩
      by_cases heq : e = endpoint
      · subst heq
        rw [Registry.assign_deadline_self] at hdeadline
        exact hlisted (by simp [hdeadline])
      · rw [hkept e heq] at hdeadline
        exact (hmembers e heq).mpr (hservice.listed e ⟨time, hdeadline, hle⟩)
  · have hagrees : Agrees V db state.db other :=
      agrees_of_frame hs ho hother fun k hset hnodes => hframe k hset (hnodes endpoint he)
    refine hagrees.refines (h.services other ho) rfl fun e => ?_
    exact Registry.assign_deadline_of_ne _ _ fun hsame => hother hsame.1

theorem refines_register (h : Refines V state registry) (hs : service ∈ V.services)
    (he : endpoint ∈ V.endpoints) (ttlSec : Int) :
    Refines V (registerService state service endpoint ttlSec).1
      (registry.register service endpoint ttlSec) := by
  by_cases hrefused : service = "" ∨ endpoint = "" ∨ ttlSec ≤ 0
  · unfold registerService Registry.register
    rw [if_pos hrefused, if_pos hrefused]
    exact h
  obtain ⟨db, hcall, hnode, hmembers, hnoString, hframe⟩ :=
    registerService_spec hs he hrefused (h.services service hs).noString
  rw [hcall, Registry.register, if_neg hrefused]
  apply h.assign hs he _ _ _ _ hnoString hframe
  · intro hname
    exact hrefused (.inl hname)
  · rw [hnode, h.now_eq]
    rfl
  · intro _
    exact (hmembers endpoint).mpr (.inl rfl)
  · intro m hm
    simp [hmembers, hm]

theorem refines_unregister (h : Refines V state registry) (hs : service ∈ V.services)
    (he : endpoint ∈ V.endpoints) :
    Refines V (unregisterService state service endpoint)
      (registry.assign service endpoint none) := by
  have hservice := h.services service hs
  have hendpoint : endpoint ≠ "" := by
    rintro rfl
    obtain ⟨host, port, hparts, -⟩ := V.hostPort "" he
    simp at hparts
  by_cases hname : service = ""
  · -- The call returns at once, and nothing is registered under an empty name.
    have hunknown : registry.deadline service endpoint = none := by
      rw [Option.eq_none_iff_forall_ne_some]
      intro deadline hdeadline
      exact (hservice.deadline_known endpoint deadline hdeadline).1 hname
    have hsame : registry.assign service endpoint none = registry := by
      obtain ⟨now, deadline⟩ := registry
      simp only [Registry.assign, Registry.mk.injEq, true_and]
      funext s e
      by_cases hkey : s = service ∧ e = endpoint
      · rw [if_pos hkey, hkey.1, hkey.2]
        exact hunknown.symm
      · rw [if_neg hkey]
    rw [hsame, unregisterService, if_pos (.inl hname)]
    exact h
  · have haccepted : ¬ (service = "" ∨ endpoint = "") := by
      rintro (hempty | hempty)
      · exact hname hempty
      · exact hendpoint hempty
    obtain ⟨db, hcall, hnode, hmembers, hnoString, hframe⟩ :=
      unregisterService_spec hs he haccepted hservice.noString
    rw [hcall]
    apply h.assign hs he hname _ _ _ hnoString hframe
    · exact hnode
    · intro hsome
      exact absurd rfl hsome
    · intro m hm
      simp [hmembers, hm]

/-- The loop removes only endpoints whose deadline has passed. -/
theorem refines_discover (h : Refines V state registry) (hs : service ∈ V.services) :
    Refines V (discoverServices state service).1 registry := by
  by_cases hname : service = ""
  · rw [discoverServices, if_pos hname]
    exact h
  have hservice := h.services service hs
  obtain ⟨db, hcall, hmembers, hnoString, hframe⟩ :=
    discoverServices_spec hs hname hservice.noString
  rw [hcall]
  refine ⟨h.now_eq, fun other ho => ?_⟩
  change RefinesService V db registry other
  by_cases hother : other = service
  · subst hother
    refine ⟨?_, hnoString, ?_, hservice.deadline_known, ?_⟩
    · intro e hknown
      rw [hframe _ (nodeKey_ne_setKey other e)]
      exact hservice.node e hknown
    · intro e hmem
      exact hservice.members_known e ((hmembers e).mp hmem).1
    · intro e halive
      have hlisted := hservice.listed e halive
      rw [hmembers, h.now_eq]
      exact ⟨hlisted, (hservice.contains_iff (hservice.members_known e hlisted)).mpr halive⟩
  · have hagrees : Agrees V db state.db other :=
      agrees_of_frame hs ho hother fun k hset _ => hframe k hset
    exact hagrees.refines (h.services other ho) rfl fun _ => rfl

theorem refines_elapse (h : Refines V state registry) (milliseconds : Nat) :
    Refines V { state with now := state.now + milliseconds }
      { registry with now := registry.now + milliseconds } := by
  refine ⟨congrArg (· + milliseconds) h.now_eq, fun other ho => ?_⟩
  have hother := h.services other ho
  refine ⟨hother.node, hother.noString, hother.members_known, hother.deadline_known, ?_⟩
  rintro e ⟨deadline, hdeadline, hle⟩
  exact hother.listed e ⟨deadline, hdeadline, Nat.le_trans (Nat.le_add_right _ _) hle⟩

/-- The names an action uses are in the vocabulary. -/
def Action.Over (V : Vocabulary) : Action → Prop
  | .register service endpoint _ => service ∈ V.services ∧ endpoint ∈ V.endpoints
  | .heartbeat service endpoint _ => service ∈ V.services ∧ endpoint ∈ V.endpoints
  | .unregister service endpoint => service ∈ V.services ∧ endpoint ∈ V.endpoints
  | .discover service => service ∈ V.services
  | .elapse _ => True

/-- The step lemma: every action keeps the relation. -/
theorem refines_apply (h : Refines V state registry) {action : Action} (hover : action.Over V) :
    Refines V (apply state action) (registry.apply action) := by
  cases action with
  | register service endpoint ttlSec => exact refines_register h hover.1 hover.2 ttlSec
  | heartbeat service endpoint ttlSec => exact refines_register h hover.1 hover.2 ttlSec
  | unregister service endpoint => exact refines_unregister h hover.1 hover.2
  | discover service => exact refines_discover h hover
  | elapse milliseconds => exact refines_elapse h milliseconds

end Step

/-! ## The answer to a lookup -/

/-- What `discoverServices` returns in a state. -/
def discovered (state : State) (service : String) : List String :=
  (discoverServices state service).2

section Answer

variable {V : Vocabulary} {state : State} {registry : Registry} {service : String}

theorem discovered_eq (hs : service ∈ V.services) (hname : service ≠ "")
    (hset : state.db.NoString (setKey service)) :
    discovered state service = (state.db.members (setKey service)).filter
      fun e => state.db.contains state.now (nodeKey service e) := by
  obtain ⟨db, hcall, -⟩ := discoverServices_spec hs hname hset
  rw [discovered, hcall]

theorem discovered_nodup (h : Refines V state registry) (hs : service ∈ V.services) :
    (discovered state service).Nodup := by
  by_cases hname : service = ""
  · simp [discovered, discoverServices, hname]
  · rw [discovered_eq hs hname (h.services service hs).noString]
    exact (Keyspace.members_nodup _ _).filter _

theorem mem_discovered_iff (h : Refines V state registry) (hs : service ∈ V.services)
    (endpoint : String) :
    endpoint ∈ discovered state service ↔ registry.Alive service endpoint := by
  have hservice := h.services service hs
  by_cases hname : service = ""
  · constructor
    · intro hmem
      simp [discovered, discoverServices, hname] at hmem
    · rintro ⟨deadline, hdeadline, -⟩
      exact absurd hname (hservice.deadline_known endpoint deadline hdeadline).1
  · rw [discovered_eq hs hname hservice.noString, List.mem_filter, h.now_eq]
    constructor
    · rintro ⟨hmem, hcontains⟩
      exact (hservice.contains_iff (hservice.members_known endpoint hmem)).mp hcontains
    · intro halive
      have hlisted := hservice.listed endpoint halive
      exact ⟨hlisted,
        (hservice.contains_iff (hservice.members_known endpoint hlisted)).mpr halive⟩

/-- The answer is a function of the clock and of the service's own keys. -/
theorem Agrees.discovered_eq {state' : State} (h : Refines V state registry)
    (hs : service ∈ V.services) (hnow : state'.now = state.now)
    (hagrees : Agrees V state'.db state.db service) :
    discovered state' service = discovered state service := by
  by_cases hname : service = ""
  · simp [discovered, discoverServices, hname]
  have hservice := h.services service hs
  have hnoString := hservice.noString
  rw [ServiceRegistry.discovered_eq hs hname hnoString,
    ServiceRegistry.discovered_eq hs hname (hnoString.congr hagrees.set_eq),
    Keyspace.members_congr hagrees.set_eq, hnow]
  apply List.filter_congr
  intro e hmem
  exact Keyspace.contains_congr _ (hagrees.node_eq e (hservice.members_known e hmem))

/-- The service an action is about. -/
def Action.service? : Action → Option String
  | .register service _ _ => some service
  | .heartbeat service _ _ => some service
  | .unregister service _ => some service
  | .discover service => some service
  | .elapse _ => none

/-- A method only writes keys of its own service, and takes no time. -/
theorem apply_frame (h : Refines V state registry) {action : Action} (hover : action.Over V)
    (hservice : action.service? = some service) :
    (apply state action).now = state.now ∧
      ∀ k, k ≠ setKey service → (∀ e ∈ V.endpoints, k ≠ nodeKey service e) →
        (apply state action).db k = state.db k := by
  have hregister : ∀ endpoint ttlSec, service ∈ V.services → endpoint ∈ V.endpoints →
      (registerService state service endpoint ttlSec).1.now = state.now ∧
      ∀ k, k ≠ setKey service → (∀ e ∈ V.endpoints, k ≠ nodeKey service e) →
        (registerService state service endpoint ttlSec).1.db k = state.db k := by
    intro endpoint ttlSec hs he
    by_cases hrefused : service = "" ∨ endpoint = "" ∨ ttlSec ≤ 0
    · rw [registerService, if_pos hrefused]
      exact ⟨rfl, fun _ _ _ => rfl⟩
    · obtain ⟨db, hcall, -, -, -, hframe⟩ :=
        registerService_spec hs he hrefused (h.services service hs).noString
      rw [hcall]
      exact ⟨rfl, fun k hset hnodes => hframe k hset (hnodes endpoint he)⟩
  cases action with
  | register s endpoint ttlSec =>
      obtain rfl : s = service := by simpa [Action.service?] using hservice
      exact hregister endpoint ttlSec hover.1 hover.2
  | heartbeat s endpoint ttlSec =>
      obtain rfl : s = service := by simpa [Action.service?] using hservice
      exact hregister endpoint ttlSec hover.1 hover.2
  | unregister s endpoint =>
      obtain rfl : s = service := by simpa [Action.service?] using hservice
      change (unregisterService state s endpoint).now = state.now ∧ _
      by_cases hrefused : s = "" ∨ endpoint = ""
      · simp [apply, unregisterService, hrefused]
      · obtain ⟨db, hcall, -, -, -, hframe⟩ :=
          unregisterService_spec hover.1 hover.2 hrefused (h.services s hover.1).noString
        simp only [apply, hcall, true_and]
        exact fun k hset hnodes => hframe k hset (hnodes endpoint hover.2)
  | discover s =>
      obtain rfl : s = service := by simpa [Action.service?] using hservice
      by_cases hname : s = ""
      · simp [apply, discoverServices, hname]
      · obtain ⟨db, hcall, -, -, hframe⟩ :=
          discoverServices_spec hover hname (h.services s hover).noString
        simp only [apply, hcall, true_and]
        exact fun k hset _ => hframe k hset
  | elapse milliseconds => simp [Action.service?] at hservice

/-- What is done for one service does not show in the answers for another. -/
theorem discovered_of_other (h : Refines V state registry) {action : Action}
    (hover : action.Over V) {other : String} (ho : other ∈ V.services)
    (hs : service ∈ V.services) (hservice : action.service? = some service)
    (hne : other ≠ service) :
    discovered (apply state action) other = discovered state other := by
  obtain ⟨hnow, hframe⟩ := apply_frame h hover hservice
  exact (agrees_of_frame hs ho hne hframe).discovered_eq h ho hnow

theorem Action.Over.service_mem {action : Action} (hover : action.Over V)
    (hservice : action.service? = some service) : service ∈ V.services := by
  cases action <;> simp_all [Action.Over, Action.service?]

end Answer

/-! ## Whole runs -/

/-- A transition of the registry. -/
abbrev RegistryTransition := Transition State Action

/-- The transition is an accepted registration with this deadline. -/
def Registers (τ : RegistryTransition) (service endpoint : String) (deadline : Nat) : Prop :=
  ∃ ttlSec : Int, (τ.action = .register service endpoint ttlSec ∨
      τ.action = .heartbeat service endpoint ttlSec) ∧
    ¬ (service = "" ∨ endpoint = "" ∨ ttlSec ≤ 0) ∧
    deadline = τ.pre.now + 1000 * ttlSec.toNat

/-- The transition registers or unregisters the endpoint. -/
def Concerns (τ : RegistryTransition) (service endpoint : String) : Prop :=
  (∃ deadline, Registers τ service endpoint deadline) ∨ τ.action = .unregister service endpoint

/-- The last of the calls that register or unregister the endpoint registered
it, with this deadline. -/
def LastRegistered (trace : List RegistryTransition) (service endpoint : String)
    (deadline : Nat) : Prop :=
  ∃ before τ after, trace = before ++ τ :: after ∧ Registers τ service endpoint deadline ∧
    ∀ τ' ∈ after, ¬ Concerns τ' service endpoint

variable {V : Vocabulary} {s₀ state : State} {registry : Registry} {τ : RegistryTransition}
  {trace : List RegistryTransition} {service endpoint s e : String} {deadline : Nat} {ttlSec : Int}

theorem lastRegistered_snoc :
    LastRegistered (trace ++ [τ]) service endpoint deadline ↔
      Registers τ service endpoint deadline ∨
        (¬ Concerns τ service endpoint ∧ LastRegistered trace service endpoint deadline) := by
  constructor
  · rintro ⟨before, τ', after, htrace, hregisters, hafter⟩
    -- The registration is the new transition exactly when nothing follows it.
    rcases List.eq_nil_or_concat after with rfl | ⟨after, last, rfl⟩
    · obtain ⟨-, hlast⟩ := List.append_inj' htrace rfl
      simp only [List.cons.injEq, and_true] at hlast
      exact .inl (hlast ▸ hregisters)
    · have hparts : trace ++ [τ] = (before ++ τ' :: after) ++ [last] := by
        simpa using htrace
      obtain ⟨hearlier, hlast⟩ := List.append_inj' hparts rfl
      simp only [List.cons.injEq, and_true] at hlast
      subst hlast
      exact .inr ⟨hafter τ (by simp), before, τ', after, hearlier, hregisters,
        fun x hx => hafter x (by simp [hx])⟩
  · rintro (hregisters | ⟨hother, before, τ', after, rfl, hregisters, hafter⟩)
    · exact ⟨trace, τ, [], rfl, hregisters, by simp⟩
    · refine ⟨before, τ', after ++ [τ], by simp, hregisters, ?_⟩
      intro x hx
      rcases List.mem_append.mp hx with hx | hx
      · exact hafter x hx
      · rw [List.mem_singleton.mp hx]
        exact hother

theorem registers_iff
    (haction : τ.action = .register s e ttlSec ∨ τ.action = .heartbeat s e ttlSec)
    {service endpoint : String} {deadline : Nat} :
    Registers τ service endpoint deadline ↔ (service = s ∧ endpoint = e) ∧
      ¬ (s = "" ∨ e = "" ∨ ttlSec ≤ 0) ∧ deadline = τ.pre.now + 1000 * ttlSec.toNat := by
  constructor
  · rintro ⟨ttlSec', hcall, haccepted, hdeadline⟩
    have hsame : s = service ∧ e = endpoint ∧ ttlSec = ttlSec' := by
      rcases haction with haction | haction <;> rcases hcall with hcall | hcall <;>
        rw [haction] at hcall <;> cases hcall <;> exact ⟨rfl, rfl, rfl⟩
    obtain ⟨rfl, rfl, rfl⟩ := hsame
    exact ⟨⟨rfl, rfl⟩, haccepted, hdeadline⟩
  · rintro ⟨⟨rfl, rfl⟩, haccepted, hdeadline⟩
    exact ⟨ttlSec, haction, haccepted, hdeadline⟩

/-- A registration sets the deadline it names and no other. -/
theorem deadline_register
    (haction : τ.action = .register s e ttlSec ∨ τ.action = .heartbeat s e ttlSec)
    (hnow : τ.pre.now = registry.now) (service endpoint : String) (deadline : Nat) :
    (registry.register s e ttlSec).deadline service endpoint = some deadline ↔
      Registers τ service endpoint deadline ∨
        (¬ Concerns τ service endpoint ∧ registry.deadline service endpoint = some deadline) := by
  have hcall : τ.action ≠ .unregister service endpoint := by
    rcases haction with haction | haction <;> simp [haction]
  unfold Concerns Registry.register
  simp only [registers_iff haction, hcall, or_false]
  by_cases hrefused : s = "" ∨ e = "" ∨ ttlSec ≤ 0
  · rw [if_pos hrefused]
    simp [hrefused]
  · rw [if_neg hrefused]
    by_cases hkey : service = s ∧ endpoint = e
    · obtain ⟨rfl, rfl⟩ := hkey
      rw [Registry.assign_deadline_self, hnow]
      simp only [hrefused, not_false_eq_true, true_and, and_self, exists_eq, not_true_eq_false,
        false_and, or_false, Option.some.injEq]
      exact eq_comm
    · rw [Registry.assign_deadline_of_ne _ _ hkey]
      simp [hkey]

/-- An action changes a deadline exactly when it registers or unregisters the
endpoint. -/
theorem deadline_apply (hnow : τ.pre.now = registry.now) (service endpoint : String)
    (deadline : Nat) :
    (registry.apply τ.action).deadline service endpoint = some deadline ↔
      Registers τ service endpoint deadline ∨
        (¬ Concerns τ service endpoint ∧ registry.deadline service endpoint = some deadline) := by
  cases haction : τ.action with
  | register s e ttlSec => exact deadline_register (.inl haction) hnow service endpoint deadline
  | heartbeat s e ttlSec => exact deadline_register (.inr haction) hnow service endpoint deadline
  | unregister s e =>
      have hkey : Concerns τ service endpoint ↔ service = s ∧ endpoint = e := by
        simp [Concerns, Registers, haction, eq_comm]
      have hregisters : ¬ Registers τ service endpoint deadline := by
        simp [Registers, haction]
      rw [hkey]
      change (registry.assign s e none).deadline service endpoint = some deadline ↔ _
      by_cases hsame : service = s ∧ endpoint = e
      · obtain ⟨rfl, rfl⟩ := hsame
        rw [Registry.assign_deadline_self]
        simp [hregisters]
      · rw [Registry.assign_deadline_of_ne _ _ hsame]
        simp [hregisters, hsame]
  | discover s => simp [Registry.apply, Concerns, Registers, haction]
  | elapse milliseconds => simp [Registry.apply, Concerns, Registers, haction]

/-- The database represents the registry that the calls so far describe. -/
def RegistryHistory (V : Vocabulary) (trace : List RegistryTransition) (state : State) : Prop :=
  ∃ registry, Refines V state registry ∧ ∀ service endpoint deadline,
    registry.deadline service endpoint = some deadline ↔
      LastRegistered trace service endpoint deadline

theorem apply_of_step (hstep : step τ.pre τ.action = some τ.post) :
    apply τ.pre τ.action = τ.post := by
  simpa [step] using hstep

/-- The run lemma. -/
theorem RegistryHistory.of_run (hrun : Run step s₀ trace state) (hfresh : Fresh V s₀)
    (hover : ∀ τ ∈ trace, τ.action.Over V) : RegistryHistory V trace state := by
  apply hrun.history_invariant (P := RegistryHistory V)
  · refine ⟨_, hfresh.refines, fun service endpoint deadline => ?_⟩
    simp [LastRegistered]
  · rintro earlier τ hinitial - hstep ⟨registry, hrefines, hlast⟩
    have hmem : τ ∈ trace := hinitial.subset (by simp)
    refine ⟨registry.apply τ.action, ?_, fun service endpoint deadline => ?_⟩
    · rw [← apply_of_step hstep]
      exact refines_apply hrefines (hover τ hmem)
    · rw [deadline_apply hrefines.now_eq, lastRegistered_snoc, hlast]

/-- The relation holds around every transition of a run. -/
theorem refines_of_mem (hrun : Run step s₀ trace state) (hfresh : Fresh V s₀)
    (hover : ∀ τ ∈ trace, τ.action.Over V) (hτ : τ ∈ trace) :
    ∃ registry, Refines V τ.pre registry ∧ Refines V τ.post (registry.apply τ.action) := by
  obtain ⟨earlier, hearlier, hinitial⟩ := hrun.pre_of_mem hτ
  obtain ⟨registry, hrefines, -⟩ :=
    RegistryHistory.of_run hearlier hfresh fun τ' hτ' => hover τ' (hinitial.subset hτ')
  refine ⟨registry, hrefines, ?_⟩
  rw [← apply_of_step (hrun.step_of_mem hτ)]
  exact refines_apply hrefines (hover τ hτ)

/-- A registration is visible at once, whatever was removed before. -/
theorem discovered_of_registers (hpre : Refines V τ.pre registry)
    (hpost : Refines V τ.post (registry.apply τ.action)) (hs : service ∈ V.services)
    (hregisters : Registers τ service endpoint deadline) :
    endpoint ∈ discovered τ.post service := by
  rw [mem_discovered_iff hpost hs]
  refine ⟨deadline, (deadline_apply hpre.now_eq service endpoint deadline).mpr (.inl hregisters),
    ?_⟩
  obtain ⟨ttlSec, hcall, -, hdeadline⟩ := hregisters
  have hclock : (registry.apply τ.action).now = registry.now := by
    rcases hcall with hcall | hcall <;> rw [hcall] <;>
      simp only [Registry.apply, Registry.register] <;> split <;> rfl
  rw [hclock, hdeadline, hpre.now_eq]
  exact Nat.le_add_right _ _

/-- Service discovery on every run that starts without the services' keys.  A
lookup returns, each once, the endpoints whose last registration or
unregistration was a registration that has not run out; a call for one service
does not change the answer for another; and the removal done by a lookup
neither takes an endpoint from the answers nor keeps a later registration from
showing. -/
theorem discovery_refines_registry {V : Vocabulary} {s₀ state : State}
    {trace : List RegistryTransition} (hrun : Run step s₀ trace state) (hfresh : Fresh V s₀)
    (hover : ∀ τ ∈ trace, τ.action.Over V) :
    (∀ service ∈ V.services, (discovered state service).Nodup ∧
      ∀ endpoint, endpoint ∈ discovered state service ↔
        ∃ deadline, LastRegistered trace service endpoint deadline ∧ state.now ≤ deadline) ∧
    (∀ τ ∈ trace, ∀ service, τ.action.service? = some service →
      ∀ other ∈ V.services, other ≠ service →
        discovered τ.post other = discovered τ.pre other) ∧
    (∀ before τ after service, trace = before ++ τ :: after → τ.action = .discover service →
      (∀ endpoint, endpoint ∈ discovered τ.pre service →
        endpoint ∈ τ.post.db.members (setKey service)) ∧
      (∀ endpoint, endpoint ∈ discovered τ.post service ↔
        endpoint ∈ discovered τ.pre service) ∧
      ∀ τ' ∈ after, ∀ endpoint deadline, Registers τ' service endpoint deadline →
        endpoint ∈ discovered τ'.post service) := by
  refine ⟨?_, ?_, ?_⟩
  · intro service hs
    obtain ⟨registry, hrefines, hlast⟩ := RegistryHistory.of_run hrun hfresh hover
    refine ⟨discovered_nodup hrefines hs, fun endpoint => ?_⟩
    rw [mem_discovered_iff hrefines hs]
    simp only [Registry.Alive, hlast, hrefines.now_eq]
  · intro τ hτ service hservice other ho hne
    obtain ⟨registry, hpre, -⟩ := refines_of_mem hrun hfresh hover hτ
    rw [← apply_of_step (hrun.step_of_mem hτ)]
    exact discovered_of_other hpre (hover τ hτ) ho ((hover τ hτ).service_mem hservice)
      hservice hne
  · rintro before τ after service rfl hdiscover
    have hτ : τ ∈ before ++ τ :: after := by simp
    have hs : service ∈ V.services :=
      (hover τ hτ).service_mem (by rw [hdiscover]; rfl)
    obtain ⟨registry, hpre, hpost⟩ := refines_of_mem hrun hfresh hover hτ
    -- A lookup leaves the registry as it is.
    have hsame : registry.apply τ.action = registry := by rw [hdiscover]; rfl
    rw [hsame] at hpost
    refine ⟨?_, ?_, ?_⟩
    · intro endpoint hmem
      exact (hpost.services service hs).listed endpoint ((mem_discovered_iff hpre hs _).mp hmem)
    · intro endpoint
      rw [mem_discovered_iff hpost hs, mem_discovered_iff hpre hs]
    · intro τ' hτ' endpoint deadline hregisters
      obtain ⟨registry', hpre', hpost'⟩ := refines_of_mem hrun hfresh hover
        (List.mem_append_right _ (List.mem_cons_of_mem _ hτ'))
      exact discovered_of_registers hpre' hpost' hs hregisters

/-- One service with one worker. -/
def emailVocabulary : Vocabulary where
  services := {"email"}
  endpoints := {"worker:9001"}
  service_noNul := by
    rintro service rfl
    decide
  endpoint_noNul := by
    rintro endpoint rfl
    decide
  hostPort := by
    rintro endpoint rfl
    exact ⟨"worker".toList, "9001".toList, by decide, by decide, by decide⟩
  separate := by
    rintro service rfl other rfl endpoint rfl
    decide

/-- The worker's registration runs out and is removed by a lookup; its next
heartbeat makes it visible again. -/
def emailActions : List Action :=
  [.register "email" "worker:9001" 30, .elapse 31000, .discover "email",
    .heartbeat "email" "worker:9001" 30, .elapse 10000]

theorem discovery_refines_registry_email :
    ∃ trace state, Run step ⟨0, fun _ => none⟩ trace state ∧
      Fresh emailVocabulary ⟨0, fun _ => none⟩ ∧
      (∀ τ ∈ trace, τ.action.Over emailVocabulary) ∧
      "worker:9001" ∈ discovered state "email" := by
  have hrun : Run step ⟨0, fun _ => none⟩
      (executeTrace step ⟨0, fun _ => none⟩ emailActions) _ := run_of_execute rfl
  have hfresh : Fresh emailVocabulary ⟨0, fun _ => none⟩ := by
    intro service _
    exact ⟨rfl, fun _ _ => rfl⟩
  have hover : ∀ τ ∈ executeTrace step ⟨0, fun _ => none⟩ emailActions,
      τ.action.Over emailVocabulary := by
    intro τ hτ
    simp only [executeTrace, step, emailActions, List.mem_cons, List.not_mem_nil, or_false] at hτ
    rcases hτ with rfl | rfl | rfl | rfl | rfl
    · exact ⟨rfl, rfl⟩
    · trivial
    · rfl
    · exact ⟨rfl, rfl⟩
    · trivial
  refine ⟨_, _, hrun, hfresh, hover, ?_⟩
  have hanswer := ((discovery_refines_registry hrun hfresh hover).1 "email" rfl).2 "worker:9001"
  refine hanswer.mpr ⟨61000, ⟨[_, _, _], _, [_], rfl, ⟨30, .inr rfl, by decide, rfl⟩, ?_⟩,
    by decide⟩
  simp [Concerns, Registers]

end ServiceRegistry
end Corpcron
