import Corpcron.Lib.CString
import Corpcron.Lib.Keyspace
import Corpcron.Lib.Trace

/-!
# The service registry of `RedisClient`

A service is a set of endpoints under the key `services:<service>` and one
string with an expiry for each endpoint, under `services:<service>:<endpoint>`.
The methods of the client run one script each, so each is one step here.  All
texts reach Redis through `c_str()`.

* `registerService`, `heartbeat`, `unregisterService` and `discoverServices`
  are the methods, `aliveEndpoints` is the loop of the last one's script.
* `Vocabulary` says for which names and endpoints the keys are unambiguous.
* `registerService_spec` and its two companions say what a method does to the
  two kinds of keys; everything later is read off them.
-/

namespace Corpcron
namespace ServiceRegistry

open Lib

/-- The database and its clock, in milliseconds. -/
structure State where
  now : Nat
  db : Keyspace String String

/-! ## Methods -/

def setKey (service : String) : String := "services:" ++ service

def nodeKey (service endpoint : String) : String := setKey service ++ ":" ++ endpoint

/-- `RedisClient::registerService`.  The string is written before the set is
touched, and stays when the set command fails. -/
def registerService (state : State) (service endpoint : String) (ttlSec : Int) :
    State × Bool :=
  if service = "" ∨ endpoint = "" ∨ ttlSec ≤ 0 then (state, false)
  else
    let db := state.db.setEx (cStr (nodeKey service endpoint)) (cStr endpoint)
      (state.now + 1000 * ttlSec.toNat)
    match db.sadd state.now (cStr (setKey service)) (cStr endpoint) with
    | none => ({ state with db := db }, false)
    | some db' => ({ state with db := db' }, true)

/-- `RedisClient::heartbeat`. -/
def heartbeat (state : State) (service endpoint : String) (ttlSec : Int) : State × Bool :=
  registerService state service endpoint ttlSec

/-- `RedisClient::unregisterService`. -/
def unregisterService (state : State) (service endpoint : String) : State :=
  if service = "" ∨ endpoint = "" then state
  else
    match state.db.srem state.now (cStr (setKey service)) (cStr endpoint) with
    | none => state
    | some db => { state with db := db.del (cStr (nodeKey service endpoint)) }

/-- The loop over the members: an endpoint without its string is removed from
the set. -/
def aliveEndpoints (now : Nat) (key : String) :
    List String → Keyspace String String → Keyspace String String × Option (List String)
  | [], db => (db, some [])
  | endpoint :: rest, db =>
      if db.contains now (key ++ ":" ++ endpoint) then
        let (db', alive) := aliveEndpoints now key rest db
        (db', alive.map (endpoint :: ·))
      else
        match db.srem now key endpoint with
        | none => (db, none)
        | some db' => aliveEndpoints now key rest db'

/-- `RedisClient::discoverServices`.  A reply that is not an array gives no
endpoints. -/
def discoverServices (state : State) (service : String) : State × List String :=
  if service = "" then (state, [])
  else
    match state.db.smembers state.now (cStr (setKey service)) with
    | none => (state, [])
    | some members =>
        let (db, alive) := aliveEndpoints state.now (cStr (setKey service)) members state.db
        ({ state with db := db }, alive.getD [])

/-- The calls of any number of clients, and the passing of time. -/
inductive Action where
  | register (service endpoint : String) (ttlSec : Int)
  | heartbeat (service endpoint : String) (ttlSec : Int)
  | unregister (service endpoint : String)
  | discover (service : String)
  | elapse (milliseconds : Nat)

/-- The effect of one action. -/
def apply (state : State) : Action → State
  | .register service endpoint ttlSec => (registerService state service endpoint ttlSec).1
  | .heartbeat service endpoint ttlSec =>
      (ServiceRegistry.heartbeat state service endpoint ttlSec).1
  | .unregister service endpoint => unregisterService state service endpoint
  | .discover service => (discoverServices state service).1
  | .elapse milliseconds => { state with now := state.now + milliseconds }

/-- Every action is enabled in every state. -/
def step (state : State) (action : Action) : Option State := some (apply state action)

/-! ## Names and keys -/

/-- `host:port`, neither part with a colon. -/
def IsHostPort (endpoint : String) : Prop :=
  ∃ host port : List Char, endpoint.toList = host ++ ':' :: port ∧ ':' ∉ host ∧ ':' ∉ port

/-- Names of services and endpoints whose keys do not run into each other. -/
structure Vocabulary where
  services : Set String
  endpoints : Set String
  service_noNul : ∀ service ∈ services, '\x00' ∉ service.toList
  endpoint_noNul : ∀ endpoint ∈ endpoints, '\x00' ∉ endpoint.toList
  hostPort : ∀ endpoint ∈ endpoints, IsHostPort endpoint
  /-- No service is named like an endpoint of another one. -/
  separate : ∀ service ∈ services, ∀ other ∈ services, ∀ endpoint ∈ endpoints,
    service ≠ other ++ ":" ++ endpoint

theorem setKey_toList (service : String) :
    (setKey service).toList = "services:".toList ++ service.toList := by
  rw [setKey, String.toList_append]

theorem nodeKey_toList (service endpoint : String) :
    (nodeKey service endpoint).toList =
      "services:".toList ++ (service.toList ++ ':' :: endpoint.toList) := by
  rw [nodeKey, String.toList_append, String.toList_append, setKey_toList]
  simp

theorem setKey_inj {service other : String} : setKey service = setKey other ↔ service = other := by
  rw [← String.toList_inj, setKey_toList, setKey_toList, List.append_cancel_left_eq,
    String.toList_inj]

/-- The host is the second last part of a key, so the key gives back the name of
the service even when that contains colons. -/
theorem nodeKey_inj {service other endpoint endpoint' : String} (he : IsHostPort endpoint)
    (he' : IsHostPort endpoint') (h : nodeKey service endpoint = nodeKey other endpoint') :
    service = other ∧ endpoint = endpoint' := by
  obtain ⟨host, port, hparts, hhost, hport⟩ := he
  obtain ⟨host', port', hparts', hhost', hport'⟩ := he'
  rw [← String.toList_inj, nodeKey_toList, nodeKey_toList, List.append_cancel_left_eq, hparts,
    hparts'] at h
  have hlast : (service.toList ++ ':' :: host) ++ ':' :: port =
      (other.toList ++ ':' :: host') ++ ':' :: port' := by
    simpa using h
  obtain ⟨hfront, hports⟩ := (append_cons_inj_of_last hport hport').mp hlast
  obtain ⟨hservice, hhosts⟩ := (append_cons_inj_of_last hhost hhost').mp hfront
  refine ⟨String.toList_inj.mp hservice, String.toList_inj.mp ?_⟩
  rw [hparts, hparts', hports, hhosts]

theorem setKey_eq_nodeKey_iff {service other endpoint : String} :
    setKey service = nodeKey other endpoint ↔ service = other ++ ":" ++ endpoint := by
  rw [← String.toList_inj, setKey_toList, nodeKey_toList, List.append_cancel_left_eq,
    ← String.toList_inj, String.toList_append, String.toList_append]
  simp

/-- An endpoint's key is longer than the key of its own service. -/
theorem nodeKey_ne_setKey (service endpoint : String) :
    nodeKey service endpoint ≠ setKey service := by
  intro h
  have hlength := congrArg List.length (String.toList_inj.mpr h)
  rw [nodeKey_toList, setKey_toList] at hlength
  simp at hlength

namespace Vocabulary

variable {V : Vocabulary} {service other endpoint endpoint' : String}

theorem cStr_setKey (hs : service ∈ V.services) : cStr (setKey service) = setKey service := by
  apply cStr_eq_self
  have hname := V.service_noNul service hs
  simp [setKey_toList, hname]

theorem cStr_nodeKey (hs : service ∈ V.services) (he : endpoint ∈ V.endpoints) :
    cStr (nodeKey service endpoint) = nodeKey service endpoint := by
  apply cStr_eq_self
  have hname := V.service_noNul service hs
  have hendpoint := V.endpoint_noNul endpoint he
  simp [nodeKey_toList, hname, hendpoint]

theorem cStr_endpoint (he : endpoint ∈ V.endpoints) : cStr endpoint = endpoint :=
  cStr_eq_self (V.endpoint_noNul endpoint he)

theorem setKey_ne_nodeKey (hs : service ∈ V.services) (ho : other ∈ V.services)
    (he : endpoint ∈ V.endpoints) : setKey service ≠ nodeKey other endpoint := by
  rw [Ne, setKey_eq_nodeKey_iff]
  exact V.separate service hs other ho endpoint he

theorem nodeKey_injective (he : endpoint ∈ V.endpoints) (he' : endpoint' ∈ V.endpoints)
    (h : nodeKey service endpoint = nodeKey other endpoint') :
    service = other ∧ endpoint = endpoint' :=
  nodeKey_inj (V.hostPort endpoint he) (V.hostPort endpoint' he') h

end Vocabulary

/-! ## What the methods do -/

section Methods

variable {V : Vocabulary} {state : State} {service endpoint : String}

theorem registerService_spec (hs : service ∈ V.services) (he : endpoint ∈ V.endpoints)
    {ttlSec : Int} (haccepted : ¬ (service = "" ∨ endpoint = "" ∨ ttlSec ≤ 0))
    (hset : state.db.NoString (setKey service)) :
    ∃ db, registerService state service endpoint ttlSec = ({ state with db := db }, true) ∧
      db (nodeKey service endpoint) =
        some (.str endpoint (state.now + 1000 * ttlSec.toNat)) ∧
      (∀ m, m ∈ db.members (setKey service) ↔
        m = endpoint ∨ m ∈ state.db.members (setKey service)) ∧
      db.NoString (setKey service) ∧
      ∀ k, k ≠ setKey service → k ≠ nodeKey service endpoint → db k = state.db k := by
  have hdistinct := nodeKey_ne_setKey service endpoint
  -- Writing the string does not touch the set.
  have hkept : (state.db.setEx (nodeKey service endpoint) endpoint
      (state.now + 1000 * ttlSec.toNat)) (setKey service) = state.db (setKey service) :=
    Function.update_of_ne hdistinct.symm _ _
  obtain ⟨db, hadd, hmembers, hnoString, hframe⟩ :=
    (hset.congr hkept).sadd_eq state.now endpoint
  refine ⟨db, ?_, ?_, ?_, hnoString, ?_⟩
  · unfold registerService
    rw [if_neg haccepted]
    simp only [V.cStr_setKey hs, V.cStr_nodeKey hs he, V.cStr_endpoint he, hadd]
  · rw [hframe _ hdistinct]
    exact Function.update_self _ _ _
  · intro m
    rw [hmembers, Keyspace.members_congr hkept]
  · intro k hk hnode
    rw [hframe k hk]
    exact Function.update_of_ne hnode _ _

theorem unregisterService_spec (hs : service ∈ V.services) (he : endpoint ∈ V.endpoints)
    (haccepted : ¬ (service = "" ∨ endpoint = "")) (hset : state.db.NoString (setKey service)) :
    ∃ db, unregisterService state service endpoint = { state with db := db } ∧
      db (nodeKey service endpoint) = none ∧
      (∀ m, m ∈ db.members (setKey service) ↔
        m ∈ state.db.members (setKey service) ∧ m ≠ endpoint) ∧
      db.NoString (setKey service) ∧
      ∀ k, k ≠ setKey service → k ≠ nodeKey service endpoint → db k = state.db k := by
  have hdistinct := nodeKey_ne_setKey service endpoint
  obtain ⟨db, hrem, hmembers, hnoString, hframe⟩ := hset.srem_eq state.now endpoint
  have hkept : (db.del (nodeKey service endpoint)) (setKey service) = db (setKey service) :=
    Function.update_of_ne hdistinct.symm _ _
  refine ⟨db.del (nodeKey service endpoint), ?_, Function.update_self _ _ _, ?_,
    hnoString.congr hkept, ?_⟩
  · unfold unregisterService
    rw [if_neg haccepted]
    simp only [V.cStr_setKey hs, V.cStr_nodeKey hs he, V.cStr_endpoint he, hrem]
  · intro m
    rw [Keyspace.members_congr hkept, hmembers]
    simp
  · intro k hk hnode
    rw [← hframe k hk]
    exact Function.update_of_ne hnode _ _

/-- The loop returns the members with a string and removes the others. -/
theorem aliveEndpoints_spec (now : Nat) (members : List String) :
    ∀ {db : Keyspace String String}, db.NoString (setKey service) →
      ∃ db', aliveEndpoints now (setKey service) members db =
          (db', some (members.filter fun e => db.contains now (nodeKey service e))) ∧
        (∀ m, m ∈ db'.members (setKey service) ↔ m ∈ db.members (setKey service) ∧
          (m ∈ members → db.contains now (nodeKey service m) = true)) ∧
        db'.NoString (setKey service) ∧ ∀ k, k ≠ setKey service → db' k = db k := by
  induction members with
  | nil =>
      intro db hset
      exact ⟨db, rfl, by simp, hset, fun _ _ => rfl⟩
  | cons endpoint rest ih =>
      intro db hset
      by_cases halive : db.contains now (nodeKey service endpoint) = true
      · obtain ⟨db', hloop, hmembers, hnoString, hframe⟩ := ih hset
        refine ⟨db', ?_, fun m => ?_, hnoString, hframe⟩
        · change (if db.contains now (nodeKey service endpoint) = true then _ else _) = _
          rw [if_pos halive, hloop, List.filter_cons, if_pos halive]
          rfl
        · rw [hmembers, List.mem_cons]
          by_cases hm : m = endpoint
          · subst hm
            simp [halive]
          · simp [hm]
      · obtain ⟨removed, hrem, hleft, hnoString, hframe⟩ := hset.srem_eq now endpoint
        obtain ⟨db', hloop, hmembers, hnoString', hframe'⟩ := ih hnoString
        -- The endpoints' strings are not touched by the removal.
        have hsame : ∀ e, removed.contains now (nodeKey service e) =
            db.contains now (nodeKey service e) := fun e =>
          Keyspace.contains_congr now (hframe _ (nodeKey_ne_setKey service e))
        refine ⟨db', ?_, fun m => ?_, hnoString', fun k hk => (hframe' k hk).trans (hframe k hk)⟩
        · change (if db.contains now (nodeKey service endpoint) = true then _ else _) = _
          rw [if_neg halive, List.filter_cons, if_neg halive]
          simp only [hrem, hloop, hsame]
        · rw [hmembers, hleft, hsame, List.mem_cons]
          by_cases hm : m = endpoint
          · subst hm
            simp [halive]
          · simp [hm]

theorem discoverServices_spec (hs : service ∈ V.services) (hname : service ≠ "")
    (hset : state.db.NoString (setKey service)) :
    ∃ db, discoverServices state service = ({ state with db := db },
        (state.db.members (setKey service)).filter
          fun e => state.db.contains state.now (nodeKey service e)) ∧
      (∀ m, m ∈ db.members (setKey service) ↔ m ∈ state.db.members (setKey service) ∧
        state.db.contains state.now (nodeKey service m) = true) ∧
      db.NoString (setKey service) ∧ ∀ k, k ≠ setKey service → db k = state.db k := by
  obtain ⟨db, hloop, hmembers, hnoString, hframe⟩ :=
    aliveEndpoints_spec state.now (state.db.members (setKey service)) hset
  refine ⟨db, ?_, fun m => ?_, hnoString, hframe⟩
  · unfold discoverServices
    rw [if_neg hname]
    simp only [V.cStr_setKey hs, hset.smembers_eq, hloop, Option.getD_some]
  · rw [hmembers]
    constructor
    · rintro ⟨hm, himp⟩
      exact ⟨hm, himp hm⟩
    · rintro ⟨hm, halive⟩
      exact ⟨hm, fun _ => halive⟩

end Methods

end ServiceRegistry
end Corpcron
