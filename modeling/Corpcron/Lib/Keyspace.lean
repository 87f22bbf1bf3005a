import Mathlib.Data.List.Nodup
import Mathlib.Logic.Function.Basic

/-!
# Keys with strings and sets

The part of a Redis database that scripts of string and set commands see.  A
string has a time up to which it exists; a set has members and no expiry, and a
set without members does not exist.  A command for sets fails on a string, which
is `none` here.

Expired strings stay in the map and are not seen: `get` is the view of the
commands.  `members` is the content of a key as a set; the lemmas say what each
command does to it and that it leaves the other keys alone.
-/

namespace Corpcron
namespace Lib

/-- What a key holds. -/
inductive KeyValue (α : Type*) where
  | str (value : α) (expireAt : Nat)
  | set (members : List α) (nodup : members.Nodup)

/-- The keys of a database. -/
abbrev Keyspace (κ α : Type*) := κ → Option (KeyValue α)

namespace Keyspace

variable {κ α : Type*}

/-- What the commands see at time `now`. -/
def get (db : Keyspace κ α) (now : Nat) (key : κ) : Option (KeyValue α) :=
  match db key with
  | some (.str value expireAt) => if now ≤ expireAt then some (.str value expireAt) else none
  | other => other

/-- The members of a key that holds a set. -/
def members (db : Keyspace κ α) (key : κ) : List α :=
  match db key with
  | some (.set members _) => members
  | _ => []

/-- The key does not hold a string. -/
def NoString (db : Keyspace κ α) (key : κ) : Prop :=
  ∀ value expireAt, db key ≠ some (.str value expireAt)

/-! ## Commands that read -/

/-- `EXISTS`. -/
def contains (db : Keyspace κ α) (now : Nat) (key : κ) : Bool := (db.get now key).isSome

/-- `SMEMBERS`. -/
def smembers (db : Keyspace κ α) (now : Nat) (key : κ) : Option (List α) :=
  match db.get now key with
  | some (.str _ _) => none
  | some (.set members _) => some members
  | none => some []

theorem contains_str {db : Keyspace κ α} {key : κ} {value : α} {expireAt : Nat} (now : Nat)
    (h : db key = some (.str value expireAt)) :
    db.contains now key = decide (now ≤ expireAt) := by
  by_cases hnow : now ≤ expireAt <;> simp [contains, get, h, hnow]

theorem contains_none {db : Keyspace κ α} {key : κ} (now : Nat) (h : db key = none) :
    db.contains now key = false := by
  simp [contains, get, h]

theorem members_nodup (db : Keyspace κ α) (key : κ) : (db.members key).Nodup := by
  unfold members
  split
  · assumption
  · exact List.nodup_nil

theorem members_congr {db db' : Keyspace κ α} {key : κ} (h : db' key = db key) :
    db'.members key = db.members key := by
  unfold members
  rw [h]

theorem contains_congr {db db' : Keyspace κ α} {key : κ} (now : Nat) (h : db' key = db key) :
    db'.contains now key = db.contains now key := by
  unfold contains get
  rw [h]

theorem NoString.congr {db db' : Keyspace κ α} {key : κ} (hdb : db.NoString key)
    (h : db' key = db key) : db'.NoString key := by
  intro value expireAt
  rw [h]
  exact hdb value expireAt

/-- Without a string at the key, commands for sets see what is there. -/
theorem NoString.get_eq {db : Keyspace κ α} {key : κ} (h : db.NoString key) (now : Nat) :
    db.get now key = db key := by
  unfold get
  split
  · rename_i value expireAt hkey
    exact absurd hkey (h value expireAt)
  · rfl

theorem NoString.smembers_eq {db : Keyspace κ α} {key : κ} (h : db.NoString key) (now : Nat) :
    db.smembers now key = some (db.members key) := by
  unfold smembers members
  rw [h.get_eq]
  cases hkey : db key with
  | none => rfl
  | some value =>
      cases value with
      | str value expireAt => exact absurd hkey (h value expireAt)
      | set members nodup => rfl

theorem members_of_str {db : Keyspace κ α} {key : κ} {value : α} {expireAt : Nat}
    (h : db key = some (.str value expireAt)) : db.members key = [] := by
  simp [members, h]

section Get

variable {db : Keyspace κ α} {key : κ} {now : Nat}

theorem members_of_get_str {value : α} {expireAt : Nat}
    (h : db.get now key = some (.str value expireAt)) : db.members key = [] := by
  unfold get at h
  split at h
  · rename_i hkey
    exact members_of_str hkey
  · exact members_of_str h

theorem key_of_get_set {members : List α} {nodup : members.Nodup}
    (h : db.get now key = some (.set members nodup)) : db key = some (.set members nodup) := by
  unfold get at h
  split at h
  · split at h <;> simp at h
  · exact h

theorem members_of_get_set {members : List α} {nodup : members.Nodup}
    (h : db.get now key = some (.set members nodup)) : db.members key = members := by
  simp [Keyspace.members, key_of_get_set h]

/-- Nothing is visible: there is no key, or a string that has expired. -/
theorem members_of_get_none (h : db.get now key = none) : db.members key = [] := by
  unfold get at h
  split at h
  · rename_i hkey
    exact members_of_str hkey
  · simp [members, h]

theorem smembers_eq_some {found : List α} (h : db.smembers now key = some found) :
    found = db.members key ∧ (db.NoString key ∨ found = []) := by
  unfold smembers at h
  split at h
  · cases h
  · rename_i members nodup hget
    obtain rfl := Option.some.inj h
    refine ⟨(members_of_get_set hget).symm, .inl fun value expireAt => ?_⟩
    simp [key_of_get_set hget]
  · rename_i hget
    obtain rfl := Option.some.inj h
    exact ⟨(members_of_get_none hget).symm, .inr rfl⟩

end Get

/-! ## Commands that write -/

variable [DecidableEq κ]

/-- `SET key value EX ...`, with the time of the expiry. -/
def setEx (db : Keyspace κ α) (key : κ) (value : α) (expireAt : Nat) : Keyspace κ α :=
  Function.update db key (some (.str value expireAt))

/-- `DEL`. -/
def del (db : Keyspace κ α) (key : κ) : Keyspace κ α := Function.update db key none

/-- Store the members of a set; an empty set is removed. -/
def store (db : Keyspace κ α) (key : κ) (members : List α) (nodup : members.Nodup) :
    Keyspace κ α :=
  Function.update db key (if members = [] then none else some (.set members nodup))

@[simp] theorem members_store (db : Keyspace κ α) (key : κ) (members : List α)
    (nodup : members.Nodup) : (db.store key members nodup).members key = members := by
  by_cases hempty : members = []
  · subst hempty
    simp [store, Keyspace.members]
  · simp [store, Keyspace.members, hempty]

theorem store_of_ne (db : Keyspace κ α) {key k : κ} (members : List α) (nodup : members.Nodup)
    (h : k ≠ key) : db.store key members nodup k = db k :=
  Function.update_of_ne h _ _

theorem noString_store (db : Keyspace κ α) (key : κ) (members : List α)
    (nodup : members.Nodup) : (db.store key members nodup).NoString key := by
  intro value expireAt
  by_cases hempty : members = [] <;> simp [store, hempty]

variable [DecidableEq α]

/-- `SADD`. -/
def sadd (db : Keyspace κ α) (now : Nat) (key : κ) (member : α) : Option (Keyspace κ α) :=
  match db.get now key with
  | some (.str _ _) => none
  | some (.set members nodup) =>
      some (db.store key (members.insert member) (nodup.insert))
  | none => some (db.store key [member] (List.nodup_singleton member))

/-- `SREM`. -/
def srem (db : Keyspace κ α) (now : Nat) (key : κ) (member : α) : Option (Keyspace κ α) :=
  match db.get now key with
  | some (.str _ _) => none
  | some (.set members nodup) =>
      some (db.store key (members.filter (· ≠ member)) (nodup.filter _))
  | none => some db

theorem NoString.sadd_eq {db : Keyspace κ α} {key : κ} (h : db.NoString key) (now : Nat)
    (member : α) : ∃ db', db.sadd now key member = some db' ∧
      (∀ m, m ∈ db'.members key ↔ m = member ∨ m ∈ db.members key) ∧ db'.NoString key ∧
      ∀ k, k ≠ key → db' k = db k := by
  unfold sadd
  rw [h.get_eq]
  cases hkey : db key with
  | none =>
      refine ⟨_, rfl, fun m => ?_, noString_store _ _ _ _, fun k hk => store_of_ne _ _ _ hk⟩
      rw [members_store]
      simp [members, hkey]
  | some value =>
      cases value with
      | str value expireAt => exact absurd hkey (h value expireAt)
      | set members nodup =>
          refine ⟨_, rfl, fun m => ?_, noString_store _ _ _ _, fun k hk => store_of_ne _ _ _ hk⟩
          rw [members_store]
          simp [Keyspace.members, hkey]

theorem NoString.srem_eq {db : Keyspace κ α} {key : κ} (h : db.NoString key) (now : Nat)
    (member : α) : ∃ db', db.srem now key member = some db' ∧
      db'.members key = (db.members key).filter (· ≠ member) ∧ db'.NoString key ∧
      ∀ k, k ≠ key → db' k = db k := by
  unfold srem
  rw [h.get_eq]
  cases hkey : db key with
  | none => exact ⟨db, rfl, by simp [members, hkey], h, fun _ _ => rfl⟩
  | some value =>
      cases value with
      | str value expireAt => exact absurd hkey (h value expireAt)
      | set members nodup =>
          refine ⟨_, rfl, ?_, noString_store _ _ _ _, fun k hk => store_of_ne _ _ _ hk⟩
          rw [members_store]
          simp [Keyspace.members, hkey]

/-! ## Keys of unknown content -/

theorem sadd_eq_some {db db' : Keyspace κ α} {key : κ} {now : Nat} {member : α}
    (h : db.sadd now key member = some db') :
    (∀ m ∈ db'.members key, m = member ∨ m ∈ db.members key) ∧ ∀ k, k ≠ key → db' k = db k := by
  unfold sadd at h
  split at h
  · cases h
  · rename_i members nodup hget
    obtain rfl := Option.some.inj h
    refine ⟨fun m hm => ?_, fun k hk => store_of_ne _ _ _ hk⟩
    rw [members_store, List.mem_insert_iff] at hm
    rwa [members_of_get_set hget]
  · obtain rfl := Option.some.inj h
    refine ⟨fun m hm => .inl ?_, fun k hk => store_of_ne _ _ _ hk⟩
    simpa using hm

theorem srem_eq_none {db : Keyspace κ α} {key : κ} {now : Nat} {member : α}
    (h : db.srem now key member = none) : db.members key = [] := by
  unfold srem at h
  split at h
  · rename_i hget
    exact members_of_get_str hget
  · cases h
  · cases h

theorem srem_eq_some {db db' : Keyspace κ α} {key : κ} {now : Nat} {member : α}
    (h : db.srem now key member = some db') :
    (∀ m ∈ db'.members key, m ∈ db.members key ∧ m ≠ member) ∧ ∀ k, k ≠ key → db' k = db k := by
  unfold srem at h
  split at h
  · cases h
  · rename_i members nodup hget
    obtain rfl := Option.some.inj h
    refine ⟨fun m hm => ?_, fun k hk => store_of_ne _ _ _ hk⟩
    rw [members_store] at hm
    rw [members_of_get_set hget]
    simpa using hm
  · rename_i hget
    obtain rfl := Option.some.inj h
    refine ⟨fun m hm => ?_, fun _ _ => rfl⟩
    rw [members_of_get_none hget] at hm
    cases hm

end Keyspace
end Lib
end Corpcron
