import Corpcron.Lib.Threads
import Corpcron.Redis.ServiceDiscovery

/-!
# Workers in the service registry

A worker registers its service and one service `<service>:<handler>` for each of
its handlers.  Here nothing is assumed about these names, so the keys of two of
them can be one key: the commands see a text only up to its first NUL, and the
colon between the parts can also stand inside a part.

* `Followed` traces what is listed under one service back to the calls.  In
  contrast to `Refines` it only goes from the database to the calls, and other
  services may overwrite the keys at any time.
* `Fleet` is any number of worker processes with their loops over
  `registered_services_`; its runs are runs of the registry (`registry_run`).
* `registered_of_discovered` puts the two together: an endpoint that a lookup
  returns belongs to a worker that has registered the looked up name, as far as
  Redis sees it.  That worker may be gone by then, and another one may listen at
  its address; `listener_of_discovered` says when it is still there.
-/

namespace Corpcron
namespace ServiceRegistry

open Lib

/-! ## Keys of arbitrary names -/

/-- An address as a worker registers it. -/
structure Addressed (endpoint : String) : Prop where
  hostPort : IsHostPort endpoint
  noNul : '\x00' ∉ endpoint.toList

theorem noNul_services : '\x00' ∉ "services:".toList := by decide

theorem cStr_setKey (service : String) : cStr (setKey service) = setKey (cStr service) :=
  cStr_append_of_noNul service noNul_services

theorem cStr_nodeKey {service endpoint : String} (hs : '\x00' ∉ service.toList)
    (he : Addressed endpoint) : cStr (nodeKey service endpoint) = nodeKey service endpoint := by
  apply cStr_eq_self
  have hendpoint := he.noNul
  simp [nodeKey_toList, hs, hendpoint]

/-- The endpoint of a service whose name has a NUL is not part of the key. -/
theorem cStr_nodeKey_of_nul {service : String} (endpoint : String)
    (hs : '\x00' ∈ service.toList) : cStr (nodeKey service endpoint) = setKey (cStr service) := by
  have hset : '\x00' ∈ (setKey service).toList := by simp [setKey_toList, hs]
  have hcolon : '\x00' ∈ (setKey service ++ ":").toList := by simp [hset]
  rw [nodeKey, cStr_append_of_nul _ hcolon, cStr_append_of_nul _ hset, cStr_setKey]

/-! ## What the methods do, for any name -/

section Methods

variable {service endpoint : String} {ttlSec : Int}

theorem registerService_keys (state : State) (hs : '\x00' ∉ service.toList)
    (he : Addressed endpoint)
    (haccepted : ¬ (service = "" ∨ endpoint = "" ∨ ttlSec ≤ 0)) :
    let db := (registerService state service endpoint ttlSec).1.db
    db (nodeKey service endpoint) = some (.str endpoint (state.now + 1000 * ttlSec.toNat)) ∧
      (∀ m ∈ db.members (setKey service), m = endpoint ∨ m ∈ state.db.members (setKey service)) ∧
      ∀ k, k ≠ setKey service → k ≠ nodeKey service endpoint → db k = state.db k := by
  intro db
  have hdistinct := nodeKey_ne_setKey service endpoint
  have hset : cStr (setKey service) = setKey service := by rw [cStr_setKey, cStr_eq_self hs]
  have hkept : (state.db.setEx (nodeKey service endpoint) endpoint
      (state.now + 1000 * ttlSec.toNat)).members (setKey service) =
        state.db.members (setKey service) :=
    Keyspace.members_congr (Function.update_of_ne hdistinct.symm _ _)
  have hdb : db = (registerService state service endpoint ttlSec).1.db := rfl
  unfold registerService at hdb
  rw [if_neg haccepted] at hdb
  simp only [cStr_nodeKey hs he, cStr_eq_self he.noNul, hset] at hdb
  split at hdb
  · rw [hdb]
    refine ⟨Function.update_self _ _ _, fun m hm => .inr ?_, fun k _ hk => ?_⟩
    · rwa [← hkept]
    · exact Function.update_of_ne hk _ _
  · rename_i added hadd
    obtain ⟨hmembers, hframe⟩ := Keyspace.sadd_eq_some hadd
    change db = added at hdb
    rw [hdb]
    refine ⟨?_, fun m hm => ?_, fun k hk hnode => ?_⟩
    · rw [hframe _ hdistinct]
      exact Function.update_self _ _ _
    · rw [← hkept]
      exact hmembers m hm
    · rw [hframe k hk]
      exact Function.update_of_ne hnode _ _

/-- A name with a NUL: both keys are the same, the string takes the place of the
set and the set command fails. -/
theorem registerService_keys_of_nul (state : State) (hs : '\x00' ∈ service.toList)
    (haccepted : ¬ (service = "" ∨ endpoint = "" ∨ ttlSec ≤ 0)) :
    let db := (registerService state service endpoint ttlSec).1.db
    db.members (setKey (cStr service)) = [] ∧
      ∀ k, k ≠ setKey (cStr service) → db k = state.db k := by
  intro db
  have hdb : db = (registerService state service endpoint ttlSec).1.db := rfl
  unfold registerService at hdb
  rw [if_neg haccepted] at hdb
  simp only [cStr_nodeKey_of_nul endpoint hs, cStr_setKey] at hdb
  have hstring : (state.db.setEx (setKey (cStr service)) (cStr endpoint)
      (state.now + 1000 * ttlSec.toNat)).sadd state.now (setKey (cStr service))
        (cStr endpoint) = none := by
    simp [Keyspace.sadd, Keyspace.get, Keyspace.setEx]
  rw [hstring] at hdb
  rw [hdb]
  refine ⟨Keyspace.members_of_str (Function.update_self _ _ _), fun k hk => ?_⟩
  exact Function.update_of_ne hk _ _

theorem unregisterService_keys (state : State) (hs : '\x00' ∉ service.toList)
    (he : Addressed endpoint)
    (haccepted : ¬ (service = "" ∨ endpoint = "")) :
    let db := (unregisterService state service endpoint).db
    (∀ m ∈ db.members (setKey service), m ∈ state.db.members (setKey service) ∧ m ≠ endpoint) ∧
      ∀ k, k ≠ setKey service →
        db k = state.db k ∨ k = nodeKey service endpoint ∧ db k = none := by
  intro db
  have hset : cStr (setKey service) = setKey service := by rw [cStr_setKey, cStr_eq_self hs]
  have hdb : db = (unregisterService state service endpoint).db := rfl
  unfold unregisterService at hdb
  rw [if_neg haccepted] at hdb
  simp only [cStr_nodeKey hs he, cStr_eq_self he.noNul, hset] at hdb
  split at hdb
  · rename_i hnone
    rw [hdb, Keyspace.srem_eq_none hnone]
    exact ⟨by simp, fun k _ => .inl rfl⟩
  · rename_i removed hsome
    obtain ⟨hmembers, hframe⟩ := Keyspace.srem_eq_some hsome
    have hkept : (removed.del (nodeKey service endpoint)).members (setKey service) =
        removed.members (setKey service) :=
      Keyspace.members_congr (Function.update_of_ne (nodeKey_ne_setKey service endpoint).symm _ _)
    rw [hdb, hkept]
    refine ⟨hmembers, fun k hk => ?_⟩
    by_cases hnode : k = nodeKey service endpoint
    · subst hnode
      exact .inr ⟨rfl, Function.update_self _ _ _⟩
    · rw [← hframe k hk]
      exact .inl (Function.update_of_ne hnode _ _)

theorem unregisterService_keys_of_nul (state : State) (hs : '\x00' ∈ service.toList)
    (haccepted : ¬ (service = "" ∨ endpoint = "")) :
    let db := (unregisterService state service endpoint).db
    db.members (setKey (cStr service)) = [] ∧
      ∀ k, k ≠ setKey (cStr service) → db k = state.db k := by
  intro db
  have hdb : db = (unregisterService state service endpoint).db := rfl
  unfold unregisterService at hdb
  rw [if_neg haccepted] at hdb
  simp only [cStr_nodeKey_of_nul endpoint hs, cStr_setKey] at hdb
  split at hdb
  · rename_i hnone
    rw [hdb, Keyspace.srem_eq_none hnone]
    exact ⟨rfl, fun _ _ => rfl⟩
  · rename_i removed hsome
    obtain ⟨-, hframe⟩ := Keyspace.srem_eq_some hsome
    rw [hdb]
    refine ⟨?_, fun k hk => ?_⟩
    · simp [Keyspace.members, Keyspace.del]
    · rw [← hframe k hk]
      exact Function.update_of_ne hk _ _

theorem discoverServices_keys (state : State) (service : String) :
    let key := setKey (cStr service)
    let db := (discoverServices state service).1.db
    (∀ m ∈ db.members key, m ∈ state.db.members key) ∧
      (state.db.members key = [] → db key = state.db key) ∧
      (∀ k, k ≠ key → db k = state.db k) ∧
      ∀ e ∈ discovered state service, e ∈ state.db.members key ∧
        state.db.contains state.now (nodeKey (cStr service) e) = true := by
  intro key db
  have hdb : db = (discoverServices state service).1.db := rfl
  rw [discovered]
  unfold discoverServices at hdb ⊢
  rw [cStr_setKey] at hdb ⊢
  by_cases hname : service = ""
  · rw [if_pos hname] at hdb ⊢
    rw [hdb]
    exact ⟨fun _ hm => hm, fun _ => rfl, fun _ _ => rfl, by simp⟩
  rw [if_neg hname] at hdb ⊢
  cases hfound : state.db.smembers state.now (setKey (cStr service)) with
  | none =>
      rw [hfound] at hdb
      rw [hdb]
      exact ⟨fun _ hm => hm, fun _ => rfl, fun _ _ => rfl, by simp⟩
  | some found =>
      obtain ⟨rfl, hempty | hempty⟩ := Keyspace.smembers_eq_some hfound
      · obtain ⟨db', hloop, hmembers, -, hframe⟩ :=
          aliveEndpoints_spec state.now (state.db.members (setKey (cStr service))) hempty
        simp only [hfound, hloop] at hdb
        rw [hdb]
        refine ⟨fun m hm => ((hmembers m).mp hm).1, fun hnone => ?_, hframe, ?_⟩
        · rw [hnone] at hloop
          exact congrFun (congrArg Prod.fst hloop).symm _
        · intro e he
          simpa [hloop] using he
      · simp only [hfound, hempty, aliveEndpoints] at hdb ⊢
        rw [hdb]
        exact ⟨fun _ hm => hm, fun _ => rfl, fun _ _ => rfl, by simp⟩

end Methods

/-! ## Where the entries of a service come from -/

/-- What is listed under the service has been registered there, and the string
of an endpoint carries the deadline of the last registration. -/
structure Followed (service : String) (trace : List RegistryTransition)
    (db : Keyspace String String) : Prop where
  listed : ∀ e ∈ db.members (setKey service), Addressed e ∧
    ∃ deadline, LastRegistered trace service e deadline ∧
      ∀ value expireAt, db (nodeKey service e) = some (.str value expireAt) → expireAt = deadline
  node_noSet : ∀ e, Addressed e → ∀ members nodup,
    db (nodeKey service e) ≠ some (.set members nodup)

section Followed

variable {service : String} {trace : List RegistryTransition} {τ : RegistryTransition}
  {db db' : Keyspace String String}

/-- What a step has to do with the keys of the service. -/
theorem Followed.snoc (h : Followed service trace db)
    (hlisted : ∀ e ∈ db'.members (setKey service),
      (e ∈ db.members (setKey service) ∧ ¬ Concerns τ service e) ∨
        Addressed e ∧ ∃ deadline, Registers τ service e deadline ∧
          ∀ value expireAt, db' (nodeKey service e) = some (.str value expireAt) →
            expireAt = deadline)
    (hnodes : ∀ e, Addressed e → db' (nodeKey service e) = db (nodeKey service e) ∨
      (∀ members nodup, db' (nodeKey service e) ≠ some (.set members nodup)) ∧
        (e ∈ db'.members (setKey service) → Concerns τ service e)) :
    Followed service (trace ++ [τ]) db' := by
  constructor
  · intro e he
    rcases hlisted e he with ⟨hold, hother⟩ | ⟨haddressed, deadline, hregisters, hdeadline⟩
    · obtain ⟨haddressed, deadline, hlast, hdeadline⟩ := h.listed e hold
      refine ⟨haddressed, deadline, lastRegistered_snoc.mpr (.inr ⟨hother, hlast⟩), ?_⟩
      rcases hnodes e haddressed with hsame | ⟨-, hconcerns⟩
      · rw [hsame]
        exact hdeadline
      · exact absurd (hconcerns he) hother
    · exact ⟨haddressed, deadline, lastRegistered_snoc.mpr (.inl hregisters), hdeadline⟩
  · intro e haddressed members nodup
    rcases hnodes e haddressed with hsame | ⟨hnoSet, -⟩
    · rw [hsame]
      exact h.node_noSet e haddressed members nodup
    · exact hnoSet members nodup

/-- The call is made with an address, and not for a name that Redis sees like an
endpoint of the service. -/
def Action.Clear (service : String) : Action → Prop
  | .register s e _ => Addressed e ∧ ∀ e', Addressed e' → cStr s ≠ service ++ ":" ++ e'
  | .heartbeat s e _ => Addressed e ∧ ∀ e', Addressed e' → cStr s ≠ service ++ ":" ++ e'
  | .unregister s e => Addressed e ∧ ∀ e', Addressed e' → cStr s ≠ service ++ ":" ++ e'
  | .discover _ => True
  | .elapse _ => True

theorem nodeKey_ne_of_clear {s e : String} (hclear : cStr s ≠ service ++ ":" ++ e) :
    nodeKey service e ≠ setKey (cStr s) := by
  intro hkeys
  exact hclear (setKey_eq_nodeKey_iff.mp hkeys.symm)

theorem followed_register (h : Followed service trace τ.pre.db) (hname : '\x00' ∉ service.toList)
    {s e : String} {ttlSec : Int}
    (haction : τ.action = .register s e ttlSec ∨ τ.action = .heartbeat s e ttlSec)
    (hpost : τ.post = (registerService τ.pre s e ttlSec).1) (haddress : Addressed e)
    (hclear : ∀ e', Addressed e' → cStr s ≠ service ++ ":" ++ e') :
    Followed service (trace ++ [τ]) τ.post.db := by
  have hregisters := @registers_iff τ s e ttlSec haction
  have hconcerns : ∀ e', Concerns τ service e' → service = s ∧ e' = e := by
    rintro e' (⟨deadline, hreg⟩ | hunregister)
    · exact (hregisters.mp hreg).1
    · rcases haction with haction | haction <;> rw [haction] at hunregister <;> cases hunregister
  by_cases hrefused : s = "" ∨ e = "" ∨ ttlSec ≤ 0
  · have hsame : τ.post = τ.pre := by rw [hpost, registerService, if_pos hrefused]
    rw [hsame]
    refine h.snoc (fun e' he' => .inl ⟨he', ?_⟩) (fun _ _ => .inl rfl)
    rintro (⟨deadline, hreg⟩ | hunregister)
    · exact (hregisters.mp hreg).2.1 hrefused
    · rcases haction with haction | haction <;> rw [haction] at hunregister <;> cases hunregister
  rw [hpost]
  by_cases hs : '\x00' ∈ s.toList
  · -- The string under the cut name hides the set; it may be the set of the service.
    have hother : service ≠ s := fun heq => hname (heq ▸ hs)
    obtain ⟨hempty, hframe⟩ := registerService_keys_of_nul τ.pre hs hrefused
    refine h.snoc (fun e' he' => .inl ⟨?_, fun hc => hother (hconcerns e' hc).1⟩) ?_
    · by_cases hkey : setKey service = setKey (cStr s)
      · rw [hkey, hempty] at he'
        cases he'
      · rwa [Keyspace.members_congr (hframe _ hkey)] at he'
    · intro e' he'
      exact .inl (hframe _ (nodeKey_ne_of_clear (hclear e' he')))
  · obtain ⟨hnode, hmembers, hframe⟩ :=
      registerService_keys τ.pre hs haddress hrefused
    have hcut : cStr s = s := cStr_eq_self hs
    by_cases hsame : service = s
    · subst hsame
      refine h.snoc (fun e' he' => ?_) (fun e' he' => ?_)
      · by_cases heq : e' = e
        · subst heq
          refine .inr ⟨haddress, _, hregisters.mpr ⟨⟨rfl, rfl⟩, hrefused, rfl⟩, ?_⟩
          intro value expireAt hvalue
          rw [hnode] at hvalue
          cases hvalue
          rfl
        · exact .inl ⟨(hmembers e' he').resolve_left heq, fun hc => heq (hconcerns e' hc).2⟩
      · by_cases heq : e' = e
        · subst heq
          refine .inr ⟨?_, fun _ => .inl ⟨_, hregisters.mpr ⟨⟨rfl, rfl⟩, hrefused, rfl⟩⟩⟩
          intro members nodup hvalue
          rw [hnode] at hvalue
          cases hvalue
        · refine .inl (hframe _ (nodeKey_ne_setKey service e') fun hkeys => heq ?_)
          exact (nodeKey_inj he'.hostPort haddress.hostPort hkeys).2
    · refine h.snoc (fun e' he' => .inl ⟨?_, fun hc => hsame (hconcerns e' hc).1⟩) ?_
      · by_cases hkey : setKey service = nodeKey s e
        · rw [hkey, Keyspace.members_of_str hnode] at he'
          cases he'
        · rwa [Keyspace.members_congr (hframe _ (mt setKey_inj.mp hsame) hkey)] at he'
      · intro e' he'
        have hset : nodeKey service e' ≠ setKey s := by
          rw [← hcut]
          exact nodeKey_ne_of_clear (hclear e' he')
        refine .inl (hframe _ hset fun hkeys => hsame ?_)
        exact (nodeKey_inj he'.hostPort haddress.hostPort hkeys).1

theorem followed_unregister (h : Followed service trace τ.pre.db)
    (hname : '\x00' ∉ service.toList) {s e : String} (haction : τ.action = .unregister s e)
    (hpost : τ.post = unregisterService τ.pre s e) (haddress : Addressed e)
    (hclear : ∀ e', Addressed e' → cStr s ≠ service ++ ":" ++ e') :
    Followed service (trace ++ [τ]) τ.post.db := by
  have hconcerns : ∀ e', Concerns τ service e' ↔ s = service ∧ e = e' := by
    intro e'
    simp [Concerns, Registers, haction]
  have hnonempty : e ≠ "" := by
    rintro rfl
    obtain ⟨host, port, hparts, -⟩ := haddress.hostPort
    simp at hparts
  by_cases hrefused : s = "" ∨ e = ""
  · -- Without a name nothing happens, and nothing can be listed.
    obtain rfl : s = "" := hrefused.resolve_right hnonempty
    have hsame : τ.post = τ.pre := by rw [hpost, unregisterService, if_pos hrefused]
    rw [hsame]
    refine h.snoc (fun e' he' => .inl ⟨he', fun hc => ?_⟩) (fun _ _ => .inl rfl)
    obtain ⟨-, deadline, ⟨_, _, _, -, ⟨_, -, haccepted, -⟩, -⟩, -⟩ := h.listed e' he'
    exact haccepted (.inl ((hconcerns e').mp hc).1.symm)
  rw [hpost]
  by_cases hs : '\x00' ∈ s.toList
  · have hother : s ≠ service := fun heq => hname (heq ▸ hs)
    obtain ⟨hempty, hframe⟩ := unregisterService_keys_of_nul τ.pre hs hrefused
    refine h.snoc (fun e' he' => .inl ⟨?_, fun hc => hother ((hconcerns e').mp hc).1⟩) ?_
    · by_cases hkey : setKey service = setKey (cStr s)
      · rw [hkey, hempty] at he'
        cases he'
      · rwa [Keyspace.members_congr (hframe _ hkey)] at he'
    · intro e' he'
      exact .inl (hframe _ (nodeKey_ne_of_clear (hclear e' he')))
  · obtain ⟨hmembers, hframe⟩ := unregisterService_keys τ.pre hs haddress hrefused
    have hcut : cStr s = s := cStr_eq_self hs
    refine h.snoc (fun e' he' => .inl ?_) (fun e' he' => ?_)
    · by_cases hsame : s = service
      · subst hsame
        obtain ⟨hold, hne⟩ := hmembers e' he'
        exact ⟨hold, fun hc => hne ((hconcerns e').mp hc).2.symm⟩
      · refine ⟨?_, fun hc => hsame ((hconcerns e').mp hc).1⟩
        rcases hframe _ (mt setKey_inj.mp (Ne.symm hsame)) with hkept | ⟨-, hdeleted⟩
        · rwa [Keyspace.members_congr hkept] at he'
        · rw [Keyspace.members, hdeleted] at he'
          cases he'
    · have hset : nodeKey service e' ≠ setKey s := by
        rw [← hcut]
        exact nodeKey_ne_of_clear (hclear e' he')
      rcases hframe _ hset with hkept | ⟨hkeys, hdeleted⟩
      · exact .inl hkept
      · obtain ⟨hsame, heq⟩ := nodeKey_inj he'.hostPort haddress.hostPort hkeys
        exact .inr ⟨by simp [hdeleted], fun _ => (hconcerns e').mpr ⟨hsame.symm, heq.symm⟩⟩

theorem followed_discover (h : Followed service trace τ.pre.db) {s : String}
    (haction : τ.action = .discover s) (hpost : τ.post = (discoverServices τ.pre s).1) :
    Followed service (trace ++ [τ]) τ.post.db := by
  have hconcerns : ∀ e', ¬ Concerns τ service e' := by
    intro e'
    simp [Concerns, Registers, haction]
  obtain ⟨hmembers, hempty, hframe, -⟩ := discoverServices_keys τ.pre s
  rw [hpost]
  refine h.snoc (fun e' he' => .inl ⟨?_, hconcerns e'⟩) (fun e' he' => .inl ?_)
  · by_cases hkey : setKey service = setKey (cStr s)
    · rw [hkey] at he' ⊢
      exact hmembers e' he'
    · rwa [Keyspace.members_congr (hframe _ hkey)] at he'
  · by_cases hkey : nodeKey service e' = setKey (cStr s)
    · -- The looked up key is not a set, so there is nothing to remove.
      rw [hkey]
      apply hempty
      rw [← hkey, Keyspace.members]
      split
      · rename_i members nodup hvalue
        exact absurd hvalue (h.node_noSet e' he' members nodup)
      · rfl
    · exact hframe _ hkey

/-- The step lemma. -/
theorem followed_step (h : Followed service trace τ.pre.db) (hname : '\x00' ∉ service.toList)
    (hclear : τ.action.Clear service) (hstep : step τ.pre τ.action = some τ.post) :
    Followed service (trace ++ [τ]) τ.post.db := by
  have hpost := (apply_of_step hstep).symm
  cases haction : τ.action with
  | register s e ttlSec =>
      rw [haction] at hpost hclear
      exact followed_register h hname (.inl haction) hpost hclear.1 hclear.2
  | heartbeat s e ttlSec =>
      rw [haction] at hpost hclear
      exact followed_register h hname (.inr haction) hpost hclear.1 hclear.2
  | unregister s e =>
      rw [haction] at hpost hclear
      exact followed_unregister h hname haction hpost hclear.1 hclear.2
  | discover s =>
      rw [haction] at hpost
      exact followed_discover h haction hpost
  | elapse milliseconds =>
      rw [haction] at hpost
      have hdb : τ.post.db = τ.pre.db := by rw [hpost]; rfl
      rw [hdb]
      exact h.snoc (fun e' he' => .inl ⟨he', by simp [Concerns, Registers, haction]⟩)
        (fun _ _ => .inl rfl)

/-- An endpoint that a lookup returns is registered under the name that Redis
sees, and its deadline has not passed. -/
theorem lastRegistered_of_discovered {state₀ state : State} {name e : String}
    (hrun : Run step state₀ trace state) (hfresh : ∀ k, state₀.db k = none)
    (hclear : ∀ τ ∈ trace, τ.action.Clear (cStr name)) (he : e ∈ discovered state name) :
    ∃ deadline, LastRegistered trace (cStr name) e deadline ∧ state.now ≤ deadline := by
  have hfollowed : Followed (cStr name) trace state.db := by
    apply hrun.history_invariant (P := fun trace state => Followed (cStr name) trace state.db)
    · refine ⟨fun e he => ?_, fun e _ members nodup => by simp [hfresh]⟩
      simp [Keyspace.members, hfresh] at he
    · intro earlier τ hinitial _ hstep hearlier
      exact followed_step hearlier (noNul_cStr name) (hclear τ (hinitial.subset (by simp))) hstep
  obtain ⟨-, -, -, hfound⟩ := discoverServices_keys state name
  obtain ⟨hlisted, hcontains⟩ := hfound e he
  obtain ⟨haddressed, deadline, hlast, hdeadline⟩ := hfollowed.listed e hlisted
  refine ⟨deadline, hlast, ?_⟩
  cases hvalue : state.db (nodeKey (cStr name) e) with
  | none => simp [Keyspace.contains_none _ hvalue] at hcontains
  | some value =>
      cases value with
      | str value expireAt =>
          rw [Keyspace.contains_str _ hvalue, decide_eq_true_eq] at hcontains
          exact hdeadline value expireAt hvalue ▸ hcontains
      | set members nodup => exact absurd hvalue (hfollowed.node_noSet e haddressed members nodup)

end Followed

/-! ## Worker processes -/

/-- What a worker is configured with; `handlers` is `handlerNames()`. -/
structure Worker where
  serviceName : String
  endpoint : String
  handlers : List String
  addressed : Addressed endpoint

/-- `services` of `WorkerApp::registerServices`. -/
def Worker.services (w : Worker) : List String :=
  w.serviceName :: w.handlers.map fun handler => w.serviceName ++ ":" ++ handler

/-- Where a worker is; each list holds the services it still has to go
through. -/
inductive WorkerPc where
  /-- In `registerServices`. -/
  | registering (todo : List String)
  /-- `registerServices` has returned true and the heartbeat thread sleeps. -/
  | waiting
  /-- One round of heartbeats. -/
  | beating (todo : List String)
  /-- In `cleanup`, or in `registerServices` after a failed registration. -/
  | unregistering (todo : List String)
  | ended

/-- One `WorkerApp`. -/
structure WorkerProcess where
  worker : Worker
  pc : WorkerPc
  registeredServices : List String
  /-- Whether `listen_fd_` is open. -/
  listening : Bool

namespace WorkerProcess

/-- The worker listens before it registers. -/
def start (worker : Worker) : WorkerProcess := ⟨worker, .registering worker.services, [], true⟩

/-- The next call to Redis. -/
def call? (p : WorkerProcess) : Option Action :=
  match p.pc with
  | .registering (service :: _) => some (.register service p.worker.endpoint 30)
  | .beating (service :: _) => some (.heartbeat service p.worker.endpoint 30)
  | .unregistering (service :: _) => some (.unregister service p.worker.endpoint)
  | _ => none

/-- The process after its next step.  `ok` is the result of a registration,
`stopping` what the heartbeat thread reads when it wakes up. -/
def next (p : WorkerProcess) (ok stopping : Bool) : WorkerProcess :=
  match p.pc with
  | .registering (service :: rest) =>
      if ok then
        { p with pc := .registering rest, registeredServices := p.registeredServices ++ [service] }
      else { p with pc := .unregistering p.registeredServices, registeredServices := [] }
  | .registering [] => { p with pc := .waiting }
  | .waiting =>
      -- `cleanup` begins when `TcpServer::start` has closed the socket and returned.
      if stopping then ⟨p.worker, .unregistering p.registeredServices, [], false⟩
      else { p with pc := .beating p.registeredServices }
  | .beating (_ :: rest) => { p with pc := .beating rest }
  | .beating [] => { p with pc := .waiting }
  | .unregistering (_ :: rest) => { p with pc := .unregistering rest }
  | .unregistering [] => { p with pc := .ended, listening := false }
  | .ended => p

/-- `closeListenSocket` after `stop()`; the heartbeat thread is not waited for. -/
def close? (p : WorkerProcess) : Option WorkerProcess :=
  match p.pc with
  | .waiting | .beating _ => some { p with listening := false }
  | _ => none

def kill (p : WorkerProcess) : WorkerProcess := { p with pc := .ended, listening := false }

end WorkerProcess

/-- The registry and all workers that have been started. -/
structure Fleet where
  registry : State
  processes : List WorkerProcess

inductive FleetAction where
  | start (worker : Worker)
  | advance (i : Nat) (stopping : Bool)
  | close (i : Nat)
  /-- A process ends without `cleanup`. -/
  | kill (i : Nat)
  /-- Someone looks up a name. -/
  | discover (service : String)
  | elapse (milliseconds : Nat)

namespace Fleet

/-- The call to Redis that an action makes. -/
def call? (f : Fleet) : FleetAction → Option Action
  | .advance i _ => f.processes[i]?.bind WorkerProcess.call?
  | .discover service => some (.discover service)
  | .elapse milliseconds => some (.elapse milliseconds)
  | _ => none

/-- What a registration returns. -/
def replied (state : State) : Option Action → Bool
  | some (.register service endpoint ttlSec) =>
      (registerService state service endpoint ttlSec).2
  | _ => true

/-- The registry after a call. -/
def after (state : State) (call : Option Action) : State := call.elim state (apply state)

/-- The processes after an action.  An address is bound by one process only. -/
def processes? (f : Fleet) : FleetAction → Option (List WorkerProcess)
  | .start worker =>
      if ∃ p ∈ f.processes, p.listening = true ∧ p.worker.endpoint = worker.endpoint then none
      else some (f.processes ++ [.start worker])
  | .advance i stopping =>
      f.processes[i]?.map fun p =>
        f.processes.set i (p.next (replied f.registry p.call?) stopping)
  | .close i => f.processes[i]?.bind fun p => p.close?.map (f.processes.set i)
  | .kill i => f.processes[i]?.map fun p => f.processes.set i p.kill
  | .discover _ | .elapse _ => some f.processes

/-- One step of the fleet. -/
def step (f : Fleet) (action : FleetAction) : Option Fleet :=
  (f.processes? action).map (⟨after f.registry (f.call? action), ·⟩)

end Fleet

/-- A transition of the fleet. -/
abbrev FleetTransition := Transition Fleet FleetAction

/-- What a run of the fleet does to the registry. -/
def registryTrace (trace : List FleetTransition) : List RegistryTransition :=
  trace.filterMap (Transition.project Fleet.registry Fleet.call?)

section Fleet

variable {f f' : Fleet} {trace : List FleetTransition} {τ : FleetTransition}

/-- The runs of the fleet are runs of the registry. -/
theorem registry_run (hrun : Run Fleet.step f trace f') :
    Run step f.registry (registryTrace trace) f'.registry := by
  refine hrun.project fun f a f' hstep => ?_
  obtain ⟨processes, -, rfl⟩ := Option.map_eq_some_iff.mp hstep
  cases hcall : f.call? a with
  | none => exact .inl ⟨rfl, rfl⟩
  | some call => exact .inr ⟨call, rfl, rfl⟩

/-! ### The processes of a run -/

/-- The services a process still has to go through. -/
def WorkerPc.todo : WorkerPc → List String
  | .registering todo => todo
  | .beating todo => todo
  | .unregistering todo => todo
  | .waiting => []
  | .ended => []

/-- A process only handles services of its own worker. -/
structure WorkerProcess.Own (p : WorkerProcess) : Prop where
  todo : p.pc.todo ⊆ p.worker.services
  registered : p.registeredServices ⊆ p.worker.services

theorem WorkerProcess.Own.next {p : WorkerProcess} (h : p.Own) (ok stopping : Bool) :
    (p.next ok stopping).Own := by
  obtain ⟨worker, pc, registered⟩ := p
  obtain ⟨htodo, hregistered⟩ := h
  -- A list that is worked off keeps a tail; the others start with all that is registered.
  cases pc with
  | registering todo =>
      cases todo with
      | nil => exact ⟨by simp [WorkerProcess.next, WorkerPc.todo], hregistered⟩
      | cons service rest =>
          have hparts : service ∈ worker.services ∧ rest ⊆ worker.services := by
            simpa [WorkerPc.todo] using htodo
          cases ok with
          | true =>
              refine ⟨hparts.2, ?_⟩
              intro s hs
              rcases List.mem_append.mp hs with hs | hs
              · exact hregistered hs
              · rw [List.mem_singleton.mp hs]
                exact hparts.1
          | false => exact ⟨hregistered, List.nil_subset _⟩
  | waiting =>
      cases stopping with
      | true => exact ⟨hregistered, List.nil_subset _⟩
      | false => exact ⟨hregistered, hregistered⟩
  | beating todo =>
      cases todo with
      | nil => exact ⟨List.nil_subset _, hregistered⟩
      | cons service rest => exact ⟨(List.cons_subset.mp htodo).2, hregistered⟩
  | unregistering todo =>
      cases todo with
      | nil => exact ⟨List.nil_subset _, hregistered⟩
      | cons service rest => exact ⟨(List.cons_subset.mp htodo).2, hregistered⟩
  | ended => exact ⟨List.nil_subset _, hregistered⟩

/-- What a step can do to a process. -/
structure WorkerProcess.Becomes (p p' : WorkerProcess) : Prop where
  worker : p'.worker = p.worker
  own : p.Own → p'.Own
  listening : p'.listening = true → p.listening = true

theorem WorkerProcess.becomes_next (p : WorkerProcess) (ok stopping : Bool) :
    p.Becomes (p.next ok stopping) := by
  refine ⟨?_, fun h => h.next ok stopping, ?_⟩
  all_goals
    unfold WorkerProcess.next
    split <;> (try split) <;> simp

theorem WorkerProcess.becomes_close {p p' : WorkerProcess} (h : p.close? = some p') :
    p.Becomes p' := by
  unfold WorkerProcess.close? at h
  split at h <;> cases h <;> exact ⟨rfl, fun h => ⟨h.todo, h.registered⟩, by simp⟩

/-- A process is added at an address at which nobody listens, or one process is
replaced, or all stay. -/
theorem processes_cases (hstep : τ.pre.step τ.action = some τ.post) :
    (∃ worker, (∀ p ∈ τ.pre.processes, p.listening = true →
        p.worker.endpoint ≠ worker.endpoint) ∧
      τ.post.processes = τ.pre.processes ++ [.start worker]) ∨
    (∃ i p p', τ.pre.processes[i]? = some p ∧ p.Becomes p' ∧
      τ.post.processes = τ.pre.processes.set i p') ∨
    τ.post.processes = τ.pre.processes := by
  obtain ⟨processes, hprocesses, hpost⟩ := Option.map_eq_some_iff.mp hstep
  rw [← hpost]
  cases haction : τ.action with
  | start worker =>
      simp only [haction, Fleet.processes?] at hprocesses
      split at hprocesses
      · cases hprocesses
      · rename_i hfree
        cases hprocesses
        exact .inl ⟨worker, fun p hp hlistens heq => hfree ⟨p, hp, hlistens, heq⟩, rfl⟩
  | advance i stopping =>
      simp only [haction, Fleet.processes?, Option.map_eq_some_iff] at hprocesses
      obtain ⟨p, hi, rfl⟩ := hprocesses
      exact .inr (.inl ⟨i, p, _, hi, p.becomes_next _ _, rfl⟩)
  | close i =>
      simp only [haction, Fleet.processes?, Option.bind_eq_some_iff, Option.map_eq_some_iff]
        at hprocesses
      obtain ⟨p, hi, p', hclose, rfl⟩ := hprocesses
      exact .inr (.inl ⟨i, p, p', hi, WorkerProcess.becomes_close hclose, rfl⟩)
  | kill i =>
      simp only [haction, Fleet.processes?, Option.map_eq_some_iff] at hprocesses
      obtain ⟨p, hi, rfl⟩ := hprocesses
      refine .inr (.inl ⟨i, p, p.kill, hi, ⟨rfl, fun h => ⟨List.nil_subset _, h.registered⟩, ?_⟩,
        rfl⟩)
      simp [WorkerProcess.kill]
  | discover service =>
      simp only [haction, Fleet.processes?, Option.some.injEq] at hprocesses
      exact .inr (.inr hprocesses.symm)
  | elapse milliseconds =>
      simp only [haction, Fleet.processes?, Option.some.injEq] at hprocesses
      exact .inr (.inr hprocesses.symm)

/-- The process at a place stays one of the same worker. -/
theorem worker_kept (hrun : Run Fleet.step f trace f') {i : Nat} {p : WorkerProcess}
    (hi : f.processes[i]? = some p) :
    ∃ p', f'.processes[i]? = some p' ∧ p'.worker = p.worker := by
  refine hrun.invariant (P := fun f' => ∃ p', f'.processes[i]? = some p' ∧ p'.worker = p.worker)
    ⟨p, hi, rfl⟩ ?_
  rintro τ - hstep ⟨q, hq, hworker⟩
  rcases processes_cases hstep with ⟨worker, -, hpost⟩ | ⟨j, r, r', hj, hbecomes, hpost⟩ | hpost
  · rcases thread_concat_cases τ.pre.processes i (.start worker) with hsame | ⟨-, hnone, -⟩
    · exact ⟨q, by rw [hpost, hsame, hq], hworker⟩
    · simp [hnone] at hq
  · by_cases hij : i = j
    · subst hij
      obtain rfl : r = q := Option.some.inj (hj.symm.trans hq)
      exact ⟨r', by rw [hpost, thread_set_self hj], hbecomes.worker.trans hworker⟩
    · exact ⟨q, by rw [hpost, thread_set_other hij hq], hworker⟩
  · exact ⟨q, by rw [hpost, hq], hworker⟩

/-- The processes handle their own services, and no two listen at one address. -/
structure Fleet.Sound (f : Fleet) : Prop where
  own : ∀ p ∈ f.processes, p.Own
  sole : ∀ (i j : Nat) (p q : WorkerProcess), f.processes[i]? = some p →
    f.processes[j]? = some q → p.listening = true → q.listening = true →
    p.worker.endpoint = q.worker.endpoint → i = j

theorem sound_step (hstep : τ.pre.step τ.action = some τ.post) (h : τ.pre.Sound) :
    τ.post.Sound := by
  rcases processes_cases hstep with ⟨worker, hfree, hpost⟩ | ⟨i, p, p', hi, hbecomes, hpost⟩ | hpost
  · constructor
    · intro q hq
      rw [hpost, List.mem_append, List.mem_singleton] at hq
      rcases hq with hq | rfl
      · exact h.own q hq
      · exact ⟨List.Subset.refl _, List.nil_subset _⟩
    · intro i j p q hi hj hp hq heq
      rw [hpost] at hi hj
      rcases thread_concat_cases τ.pre.processes i (.start worker) with hsame | ⟨rfl, -, hnew⟩ <;>
        rcases thread_concat_cases τ.pre.processes j (.start worker) with hsame' | ⟨rfl, -, hnew'⟩
      · exact h.sole i j p q (hsame ▸ hi) (hsame' ▸ hj) hp hq heq
      · obtain rfl := Option.some.inj (hnew'.symm.trans hj)
        exact absurd heq (hfree p (List.mem_of_getElem? (hsame ▸ hi)) hp)
      · obtain rfl := Option.some.inj (hnew.symm.trans hi)
        exact absurd heq.symm (hfree q (List.mem_of_getElem? (hsame' ▸ hj)) hq)
      · rfl
  · -- Whoever listens afterwards has listened before, for the same worker.
    have hbefore : ∀ {j : Nat} {q : WorkerProcess}, (τ.pre.processes.set i p')[j]? = some q →
        ∃ q₀, τ.pre.processes[j]? = some q₀ ∧ q₀.Becomes q := by
      intro j q hj
      rcases thread_of_set hj with ⟨rfl, rfl⟩ | ⟨-, hj⟩
      · exact ⟨p, hi, hbecomes⟩
      · exact ⟨q, hj, rfl, fun h => h, fun h => h⟩
    rw [← hpost] at hbefore
    constructor
    · intro q hq
      obtain ⟨j, hj⟩ := List.getElem?_of_mem hq
      obtain ⟨q₀, hj, hbecomes⟩ := hbefore hj
      exact hbecomes.own (h.own q₀ (List.mem_of_getElem? hj))
    · intro j k q r hj hk hq hr heq
      obtain ⟨q₀, hj, hbecomes⟩ := hbefore hj
      obtain ⟨r₀, hk, hbecomes'⟩ := hbefore hk
      rw [hbecomes.worker, hbecomes'.worker] at heq
      exact h.sole j k q₀ r₀ hj hk (hbecomes.listening hq) (hbecomes'.listening hr) heq
  · exact ⟨hpost ▸ h.own, hpost ▸ h.sole⟩

theorem sound_of_run (hrun : Run Fleet.step f trace f') (hstart : f.processes = []) :
    f'.Sound := by
  refine hrun.invariant (P := Fleet.Sound) ⟨?_, ?_⟩ fun τ _ hstep => sound_step hstep
  · simp [hstart]
  · simp [hstart]

/-! ### Who has registered what is found -/

/-- The call is one of the process. -/
def FleetTransition.Calls (i : Nat) (p : WorkerProcess) (call : Action) (τ : FleetTransition) :
    Prop :=
  (∃ stopping, τ.action = .advance i stopping) ∧ τ.pre.processes[i]? = some p ∧
    p.call? = some call

/-- Who makes a call of the run that is no lookup. -/
theorem calls_of_project {ρ : RegistryTransition}
    (h : Transition.project Fleet.registry Fleet.call? τ = some ρ) :
    (∃ i p, τ.Calls i p ρ.action) ∧ ρ.pre = τ.pre.registry ∨
      (∃ service, ρ.action = .discover service) ∨ ∃ milliseconds, ρ.action = .elapse milliseconds := by
  obtain ⟨call, hcall, rfl⟩ := Option.map_eq_some_iff.mp h
  cases haction : τ.action with
  | advance i stopping =>
      rw [haction] at hcall
      obtain ⟨p, hi, hp⟩ := Option.bind_eq_some_iff.mp hcall
      exact .inl ⟨⟨i, p, ⟨stopping, haction⟩, hi, hp⟩, rfl⟩
  | discover service =>
      rw [haction] at hcall
      cases hcall
      exact .inr (.inl ⟨service, rfl⟩)
  | elapse milliseconds =>
      rw [haction] at hcall
      cases hcall
      exact .inr (.inr ⟨milliseconds, rfl⟩)
  | start worker => simp [haction, Fleet.call?] at hcall
  | close i => simp [haction, Fleet.call?] at hcall
  | kill i => simp [haction, Fleet.call?] at hcall

/-- A process makes its calls for its own services, under its own address. -/
theorem WorkerProcess.Own.of_call {p : WorkerProcess} (hown : p.Own) {call : Action}
    (hcall : p.call? = some call) :
    ∃ service ∈ p.worker.services, call = .register service p.worker.endpoint 30 ∨
      call = .heartbeat service p.worker.endpoint 30 ∨
      call = .unregister service p.worker.endpoint := by
  have htodo := hown.todo
  unfold WorkerProcess.call? at hcall
  split at hcall
  all_goals
    rename_i hpc
    cases hcall
    try
      rw [hpc] at htodo
      exact ⟨_, (List.cons_subset.mp htodo).1, by simp⟩

/-- The worker is registered under the service: its last call about it was a
registration or a heartbeat, and the entry has not expired. -/
def Live (trace : List FleetTransition) (f : Fleet) (w : Worker) (service : String) : Prop :=
  ∃ deadline, LastRegistered (registryTrace trace) service w.endpoint deadline ∧
    f.registry.now ≤ deadline

/-- No service of a worker looks to Redis like an endpoint of the service. -/
def Apart (f : Fleet) (service : String) : Prop :=
  ∀ p ∈ f.processes, ∀ s ∈ p.worker.services, ∀ e, Addressed e → cStr s ≠ service ++ ":" ++ e

/-- All calls of a run are clear of a service that is apart. -/
theorem clear_of_run (hrun : Run Fleet.step f trace f') (hstart : f.processes = [])
    {service : String} (hapart : Apart f' service) :
    ∀ ρ ∈ registryTrace trace, ρ.action.Clear service := by
  intro ρ hρ
  obtain ⟨τ, hτ, hproject⟩ := List.mem_filterMap.mp hρ
  rcases calls_of_project hproject with
    ⟨⟨i, p, -, hi, hcall⟩, -⟩ | ⟨service, hcall⟩ | ⟨milliseconds, hcall⟩
  · obtain ⟨before, after, rfl⟩ := List.append_of_mem hτ
    obtain ⟨hbefore, hstep, hafter⟩ := hrun.split
    have hown := (sound_of_run hbefore hstart).own p (List.mem_of_getElem? hi)
    -- The worker is still in the list at the end.
    obtain ⟨p', hi', hworker⟩ := worker_kept (Run.nil.snoc hstep |>.append hafter) hi
    obtain ⟨s, hs, hcalls⟩ := hown.of_call hcall
    have hclear := hapart p' (List.mem_of_getElem? hi') s (hworker ▸ hs)
    rcases hcalls with heq | heq | heq <;> rw [heq] <;> exact ⟨p.worker.addressed, hclear⟩
  · rw [hcall]
    trivial
  · rw [hcall]
    trivial

/-- Who has registered what a lookup finds, and when; it has not been unregistered
since. -/
theorem registered_of_discovered (hrun : Run Fleet.step f trace f') (hstart : f.processes = [])
    (hfresh : ∀ k, f.registry.db k = none) {name e : String} (hapart : Apart f' (cStr name))
    (he : e ∈ discovered f'.registry name) :
    ∃ before τ after i p, trace = before ++ τ :: after ∧ p.worker.endpoint = e ∧
      (τ.Calls i p (.register (cStr name) e 30) ∨ τ.Calls i p (.heartbeat (cStr name) e 30)) ∧
      f'.registry.now ≤ τ.pre.registry.now + 30000 ∧
      (∀ ρ ∈ registryTrace after, ρ.action ≠ .unregister (cStr name) e) ∧
      cStr name ∈ p.worker.services ∧ Live trace f' p.worker (cStr name) := by
  obtain ⟨deadline, hlast, hnow⟩ := lastRegistered_of_discovered (registry_run hrun) hfresh
    (clear_of_run hrun hstart hapart) he
  have hlive := hlast
  obtain ⟨earlier, ρ, later, htrace, ⟨ttlSec, hregisters, -, rfl⟩, hlater⟩ := hlast
  obtain ⟨l₁, l₂, rfl, -, htail⟩ := List.filterMap_eq_append_iff.mp htrace
  obtain ⟨quiet, τ, after, rfl, -, hproject, rfl⟩ := List.filterMap_eq_cons_iff.mp htail
  rw [← List.append_assoc] at hrun
  have hbefore := hrun.split.1
  have hquiet : ∀ ρ ∈ registryTrace after, ρ.action ≠ .unregister (cStr name) e :=
    fun ρ hρ heq => hlater ρ hρ (.inr heq)
  rcases calls_of_project hproject with
    ⟨⟨i, p, hcalls⟩, hpre⟩ | ⟨service, hcall⟩ | ⟨milliseconds, hcall⟩
  · have hown := (sound_of_run hbefore hstart).own p (List.mem_of_getElem? hcalls.2.1)
    obtain ⟨s, hs, hcall⟩ := hown.of_call hcalls.2.2
    refine ⟨l₁ ++ quiet, τ, after, i, p, by simp, ?_⟩
    rcases hregisters with heq | heq <;> rw [heq] at hcall hcalls <;> simp at hcall <;>
      obtain ⟨rfl, rfl, rfl⟩ := hcall
    · exact ⟨rfl, .inl hcalls, by simpa [hpre] using hnow, hquiet, hs, _, hlive, hnow⟩
    · exact ⟨rfl, .inr hcalls, by simpa [hpre] using hnow, hquiet, hs, _, hlive, hnow⟩
  · rcases hregisters with heq | heq <;> simp [heq] at hcall
  · rcases hregisters with heq | heq <;> simp [heq] at hcall

/-- Every process that has registered the service or renewed it in the last 30
seconds, and has not unregistered it since, still listens: it has not been killed,
stopped or replaced. -/
def KeepsListening (trace : List FleetTransition) (f : Fleet) (service : String) : Prop :=
  ∀ before τ after i p, trace = before ++ τ :: after →
    (τ.Calls i p (.register service p.worker.endpoint 30) ∨
      τ.Calls i p (.heartbeat service p.worker.endpoint 30)) →
    f.registry.now ≤ τ.pre.registry.now + 30000 →
    (∀ ρ ∈ registryTrace after, ρ.action ≠ .unregister service p.worker.endpoint) →
    ∃ p', f.processes[i]? = some p' ∧ p'.listening = true

/-- Who listens at an address that a lookup finds. -/
theorem listener_of_discovered (hrun : Run Fleet.step f trace f') (hstart : f.processes = [])
    (hfresh : ∀ k, f.registry.db k = none) {name e : String} (hapart : Apart f' (cStr name))
    (hkeeps : KeepsListening trace f' (cStr name)) (he : e ∈ discovered f'.registry name) :
    ∃ p ∈ f'.processes, p.listening = true ∧ p.worker.endpoint = e ∧
      cStr name ∈ p.worker.services ∧ Live trace f' p.worker (cStr name) ∧
      ∀ q ∈ f'.processes, q.listening = true → q.worker.endpoint = e → q = p := by
  obtain ⟨before, τ, after, i, p, rfl, rfl, hcalls, hnow, hquiet, hservice, hlive⟩ :=
    registered_of_discovered hrun hstart hfresh hapart he
  obtain ⟨-, hstep, hafter⟩ := hrun.split
  have hi : τ.pre.processes[i]? = some p := hcalls.elim (·.2.1) (·.2.1)
  obtain ⟨p', hi', hworker⟩ := worker_kept (Run.nil.snoc hstep |>.append hafter) hi
  obtain ⟨p'', hi'', hlistens⟩ := hkeeps before τ after i p rfl hcalls hnow hquiet
  obtain rfl : p' = p'' := Option.some.inj (hi'.symm.trans hi'')
  rw [← hworker] at hservice hlive
  refine ⟨p', List.mem_of_getElem? hi', hlistens, by rw [hworker], hservice, hlive, ?_⟩
  intro q hq hqlistens heq
  obtain ⟨j, hj⟩ := List.getElem?_of_mem hq
  rw [← hworker] at heq
  have hsame := (sound_of_run hrun hstart).sole j i q p' hj hi' hqlistens hlistens heq
  subst hsame
  exact Option.some.inj (hj.symm.trans hi')

end Fleet

end ServiceRegistry
end Corpcron
