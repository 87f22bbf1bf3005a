import Corpcron.Lib.CString
import Corpcron.Lib.Threads
import Corpcron.Lib.Trace
import Corpcron.Redis.TaskLock

/-!
# Lock calls over connections that fail

`RedisClient::command` sends a script and, when no reply comes, reconnects and
sends it once more.  Whether the server has executed the first one is not known.
`lock` repeats the whole command until it succeeds or its time is over.  Here any
number of such calls run against one server; a call is cut into the moments at
which other clients can come in between.

`SETNX` is not idempotent: executed a second time it finds the key that the first
execution has set and reports failure, and so does `DEL`.  `lock_call_exact` says
that this is the only way in which the results of `lock` and `unlock` are wrong.

* `Request.eval` is one execution of a script.
* `KeptSince` traces a lock that is held back to the step that took it.
* `Acknowledged` is an execution whose success was reported; a call with such a
  step returns true.
-/

namespace Corpcron
namespace LockCommand

open Lib

/-! ## Scripts -/

/-- The methods that run a script on a lock. -/
inductive Script where
  | lock (expireSec : Int)
  | renewLock (expireSec : Int)
  | unlock
deriving DecidableEq

/-- Whether the method is `lock`. -/
def Script.isLock : Script → Bool
  | .lock _ => true
  | _ => false

/-- A call with its arguments. -/
structure Request where
  script : Script
  key : String
  value : String
deriving DecidableEq

namespace Request

/-- `lock_key`, as it reaches Redis. -/
def lockKey (r : Request) : String := cStr ("lock:" ++ r.key)

/-- The owner value, as it reaches Redis. -/
def owner (r : Request) : String := cStr r.value

/-- The check at the beginning of each method. -/
def accepted (r : Request) : Bool :=
  r.key != "" && r.value != "" &&
    match r.script with
    | .lock expireSec | .renewLock expireSec => decide (0 < expireSec)
    | .unlock => true

/-- One execution of the script at time `now`: the locks after it, and whether
its reply is the one that means success. -/
def eval (now : Nat) (locks : RedisLocks) (r : Request) : RedisLocks × Bool :=
  match r.script with
  | .lock expireSec => locks.acquire r.lockKey r.owner (now + expireSec.toNat)
  | .renewLock expireSec => locks.renew r.lockKey r.owner (now + expireSec.toNat)
  | .unlock => locks.release r.lockKey r.owner

end Request

/-- The key of the request carries its owner value. -/
def Holds (locks : RedisLocks) (r : Request) : Prop :=
  (locks r.lockKey).map LockEntry.value = some r.owner

instance (locks : RedisLocks) (r : Request) : Decidable (Holds locks r) :=
  inferInstanceAs (Decidable (_ = _))

/-- For texts without NUL an execution is one attempt of `RedisLocks.lock`. -/
theorem eval_lock {now : Nat} {locks : RedisLocks} {key value : String} {expireSec : Nat}
    (hkey : '\x00' ∉ key.toList) (hvalue : '\x00' ∉ value.toList)
    (haccepted : Request.accepted ⟨.lock expireSec, key, value⟩ = true) :
    Request.eval now locks ⟨.lock expireSec, key, value⟩ =
      locks.lock now key value expireSec := by
  have hlock : cStr ("lock:" ++ key) = "lock:" ++ key := by
    apply cStr_eq_self
    rw [String.toList_append]
    simp [hkey]
  simp only [Request.accepted, Bool.and_eq_true, bne_iff_ne, decide_eq_true_eq] at haccepted
  have hvalid : ¬ (key = "" ∨ value = "" ∨ expireSec = 0) := by
    rintro (hempty | hempty | hzero)
    · exact haccepted.1.1 hempty
    · exact haccepted.1.2 hempty
    · omega
  rw [RedisLocks.lock, if_neg hvalid]
  simp only [Request.eval, Request.lockKey, Request.owner, hlock, cStr_eq_self hvalue,
    Int.toNat_natCast]

/-! ## Calls -/

/-- What becomes of a script that is sent. -/
inductive Delivery where
  /-- It is executed and the reply comes. -/
  | answered
  /-- The server replies with an error. -/
  | refused
  /-- No reply comes. -/
  | lost (executed : Bool)
deriving DecidableEq

/-- The server executes the script. -/
def Delivery.executes : Delivery → Bool
  | .answered => true
  | .refused => false
  | .lost executed => executed

/-- Program counter of a call. -/
inductive CallPc where
  /-- At the beginning of `command`. -/
  | connecting (r : Request)
  /-- At the first `redisvCommand`. -/
  | sending (r : Request)
  | reconnecting (r : Request)
  /-- At the second `redisvCommand`. -/
  | resending (r : Request)
  /-- `command` has returned nothing, or not what means success. -/
  | judging (r : Request)
  | returned (r : Request) (ok : Bool)
deriving DecidableEq

/-- The script a call is about to send. -/
def CallPc.sends? : CallPc → Option Request
  | .sending r | .resending r => some r
  | _ => none

def CallPc.request : CallPc → Request
  | .connecting r | .sending r | .reconnecting r | .resending r | .judging r | .returned r _ => r

/-- What a step of a call meets outside. -/
structure Input where
  /-- Whether the connection is there or can be made. -/
  connected : Bool := true
  delivery : Delivery := .answered
  /-- Whether the time of `lock` is over. -/
  timedOut : Bool := true

/-- The server's locks and clock, and the calls of all clients. -/
structure State where
  now : Nat := 0
  locks : RedisLocks := fun _ => none
  calls : List CallPc := []

/-- Where a call begins. -/
def beginCall (r : Request) : CallPc :=
  if r.accepted then .connecting r else .returned r false

/-- The locks after a script was sent. -/
def deliver (s : State) (r : Request) (delivery : Delivery) : RedisLocks :=
  if delivery.executes then (r.eval s.now s.locks).1 else s.locks

/-- The reply that comes back says success. -/
def acknowledged (s : State) (r : Request) (delivery : Delivery) : Bool :=
  delivery == .answered && (r.eval s.now s.locks).2

/-- One step of a call. -/
def stepCall (s : State) (inp : Input) : CallPc → Option (RedisLocks × CallPc)
  | .connecting r => some (s.locks, if inp.connected then .sending r else .judging r)
  | .sending r =>
      some (deliver s r inp.delivery,
        if acknowledged s r inp.delivery then .returned r true
        else
          match inp.delivery with
          | .lost _ => .reconnecting r
          | _ => .judging r)
  | .reconnecting r => some (s.locks, if inp.connected then .resending r else .judging r)
  | .resending r =>
      some (deliver s r inp.delivery,
        if acknowledged s r inp.delivery then .returned r true else .judging r)
  | .judging r =>
      -- Only `lock` tries again.
      some (s.locks,
        if r.script.isLock && !inp.timedOut then .connecting r else .returned r false)
  | .returned _ _ => none

/-- What can happen. -/
inductive Action where
  /-- The clock of Redis moves and due keys expire. -/
  | clock (now : Nat)
  /-- Redis loses a key. -/
  | lose (key : String)
  /-- A method is called. -/
  | call (r : Request)
  /-- Call number `i` makes a step. -/
  | advance (i : Nat) (inp : Input)

def step (s : State) : Action → Option State
  | .clock now => some { s with now := now, locks := s.locks.expire now }
  | .lose key => some { s with locks := s.locks.lose key }
  | .call r => some { s with calls := s.calls ++ [beginCall r] }
  | .advance i inp =>
      match s.calls[i]? with
      | none => none
      | some pc =>
          (stepCall s inp pc).map fun next =>
            { s with locks := next.1, calls := s.calls.set i next.2 }

/-- An executed step. -/
abbrev LockTransition := Lib.Transition State Action

/-! ## What scripts do -/

section Scripts

variable {now : Nat} {locks : RedisLocks} {r r' : Request}

/-- A script makes a key carry a value only by taking it. -/
theorem holds_of_eval (h : Holds (r'.eval now locks).1 r) :
    Holds locks r ∨ r'.script.isLock = true ∧ r'.lockKey = r.lockKey ∧ r'.owner = r.owner ∧
      locks r.lockKey = none ∧ (r'.eval now locks).2 = true := by
  unfold Request.eval at *
  cases hscript : r'.script with
  | lock expireSec =>
      simp only [hscript] at h ⊢
      cases hok : (locks.acquire r'.lockKey r'.owner (now + expireSec.toNat)).2 with
      | false =>
          rw [LockStore.acquire_failed hok] at h
          exact .inl h
      | true =>
          have hfree := LockStore.acquire_ok.mp hok
          rw [Holds, LockStore.acquire_ok_apply hok] at h
          split at h
          · rename_i hkey
            refine .inr ⟨rfl, hkey.symm, ?_, hkey ▸ hfree, rfl⟩
            simpa using h
          · exact .inl h
  | renewLock expireSec =>
      simp only [hscript] at h ⊢
      rw [Holds, LockStore.renew_value] at h
      exact .inl h
  | unlock =>
      simp only [hscript] at h ⊢
      obtain ⟨entry, hentry, hvalue⟩ := Option.map_eq_some_iff.mp h
      left
      rw [Holds, (LockStore.of_release hentry).1, Option.map_some, hvalue]

/-- An execution of `lock` that succeeds takes the key. -/
theorem holds_of_lock (hlock : r.script.isLock = true) (hok : (r.eval now locks).2 = true) :
    Holds (r.eval now locks).1 r := by
  unfold Request.eval at *
  cases hscript : r.script with
  | lock expireSec =>
      simp only [hscript] at hok ⊢
      rw [Holds, LockStore.acquire_ok_apply hok, if_pos rfl]
      rfl
  | _ => simp [hscript, Script.isLock] at hlock

/-- An execution of `lock` succeeds on a free key. -/
theorem lock_of_free (hlock : r.script.isLock = true) (hfree : locks r.lockKey = none) :
    (r.eval now locks).2 = true := by
  unfold Request.eval
  cases hscript : r.script with
  | lock expireSec => exact LockStore.acquire_ok.mpr hfree
  | _ => simp [hscript, Script.isLock] at hlock

/-- An execution of `unlock` deletes a lock with the owner value and reports it. -/
theorem unlock_of_holds (hunlock : r.script = .unlock) (h : Holds locks r) :
    (r.eval now locks).2 = true ∧ ¬ Holds (r.eval now locks).1 r := by
  obtain ⟨entry, hentry, hvalue⟩ := Option.map_eq_some_iff.mp h
  simp [Request.eval, hunlock, LockStore.release, hentry, hvalue, Holds]

end Scripts

/-! ## Steps -/

/-- Call `i` makes the step. -/
def ofCall (i : Nat) (τ : LockTransition) : Bool :=
  match τ.action with
  | .advance j _ => j == i
  | _ => false

/-- What a step does to call `i`. -/
theorem call_cases {τ : LockTransition} (i : Nat) (hstep : step τ.pre τ.action = some τ.post) :
    (ofCall i τ = false ∧ τ.post.calls[i]? = τ.pre.calls[i]?) ∨
    (ofCall i τ = false ∧ τ.pre.calls[i]? = none ∧
      ∃ r, τ.post.calls[i]? = some (beginCall r)) ∨
    ∃ inp pc pc', τ.action = .advance i inp ∧ ofCall i τ = true ∧ τ.pre.calls[i]? = some pc ∧
      τ.post.calls[i]? = some pc' ∧ stepCall τ.pre inp pc = some (τ.post.locks, pc') := by
  obtain ⟨s, a, s'⟩ := τ
  dsimp only at hstep ⊢
  cases a with
  | clock now =>
      cases hstep
      exact .inl ⟨rfl, rfl⟩
  | lose key =>
      cases hstep
      exact .inl ⟨rfl, rfl⟩
  | call r =>
      cases hstep
      rcases thread_concat_cases s.calls i (beginCall r) with
        hsame | ⟨-, hnone, hnew⟩
      · exact .inl ⟨rfl, hsame⟩
      · exact .inr (.inl ⟨rfl, hnone, r, hnew⟩)
  | advance j inp =>
      simp only [step] at hstep
      split at hstep
      · cases hstep
      · rename_i pc hpc
        obtain ⟨⟨locks, pc'⟩, hcall, hnext⟩ := Option.map_eq_some_iff.mp hstep
        cases hnext
        by_cases hj : j = i
        · subst hj
          exact .inr (.inr ⟨inp, pc, pc', rfl, by simp [ofCall], hpc, thread_set_self hpc, hcall⟩)
        · exact .inl ⟨by simp [ofCall, hj], List.getElem?_set_ne hj⟩

variable {s s₀ : State} {inp : Input} {pc pc' : CallPc} {locks : RedisLocks} {r : Request} {i : Nat}
  {τ : LockTransition} {trace : List LockTransition} {delivery : Delivery}

/-- A step of a call that sends nothing leaves the locks alone; one that sends a
script does what becomes of the script. -/
theorem locks_of_stepCall (h : stepCall s inp pc = some (locks, pc')) :
    locks = s.locks ∨ ∃ r, pc.sends? = some r ∧ inp.delivery.executes = true ∧
      locks = (r.eval s.now s.locks).1 := by
  have hdeliver : ∀ r, pc.sends? = some r → locks = deliver s r inp.delivery →
      locks = s.locks ∨ ∃ r, pc.sends? = some r ∧ inp.delivery.executes = true ∧
        locks = (r.eval s.now s.locks).1 := by
    intro r hsends hlocks
    unfold deliver at hlocks
    split at hlocks
    · rename_i hexecutes
      exact .inr ⟨r, hsends, hexecutes, hlocks⟩
    · exact .inl hlocks
  cases pc with
  | sending r =>
      simp only [stepCall, Option.some.injEq, Prod.mk.injEq] at h
      exact hdeliver r rfl h.1.symm
  | resending r =>
      simp only [stepCall, Option.some.injEq, Prod.mk.injEq] at h
      exact hdeliver r rfl h.1.symm
  | returned r ok => cases h
  | _ =>
      simp only [stepCall, Option.some.injEq, Prod.mk.injEq] at h
      exact .inl h.1.symm

/-- A call keeps its request. -/
theorem request_of_stepCall (h : stepCall s inp pc = some (locks, pc')) :
    pc'.request = pc.request := by
  cases pc with
  | sending r =>
      simp only [stepCall, Option.some.injEq, Prod.mk.injEq] at h
      obtain ⟨-, rfl⟩ := h
      split
      · rfl
      · split <;> rfl
  | returned r ok => cases h
  | _ =>
      simp only [stepCall, Option.some.injEq, Prod.mk.injEq] at h
      obtain ⟨-, rfl⟩ := h
      split <;> rfl

/-- A call whose script is acknowledged returns true. -/
theorem returned_of_acknowledged (h : stepCall s inp pc = some (locks, pc'))
    (hsends : pc.sends? = some r) (hack : acknowledged s r inp.delivery = true) :
    pc' = .returned r true := by
  cases pc with
  | sending q =>
      cases hsends
      simp only [stepCall, hack, if_true, Option.some.injEq, Prod.mk.injEq] at h
      exact h.2.symm
  | resending q =>
      cases hsends
      simp only [stepCall, hack, if_true, Option.some.injEq, Prod.mk.injEq] at h
      exact h.2.symm
  | _ => cases hsends

/-- A call returns true only when its script is acknowledged. -/
theorem acknowledged_of_returned (h : stepCall s inp pc = some (locks, .returned r true)) :
    pc.sends? = some r ∧ acknowledged s r inp.delivery = true := by
  cases pc with
  | sending q =>
      simp only [stepCall, Option.some.injEq, Prod.mk.injEq] at h
      obtain ⟨-, h⟩ := h
      split at h
      · rename_i hack
        cases h
        exact ⟨rfl, hack⟩
      · split at h <;> cases h
  | resending q =>
      simp only [stepCall, Option.some.injEq, Prod.mk.injEq] at h
      obtain ⟨-, h⟩ := h
      split at h
      · rename_i hack
        cases h
        exact ⟨rfl, hack⟩
      · cases h
  | returned q ok => cases h
  | _ =>
      simp only [stepCall, Option.some.injEq, Prod.mk.injEq] at h
      obtain ⟨-, h⟩ := h
      split at h <;> cases h

/-- A lock that is held after a step was held before, or the step has taken
it. -/
theorem holds_of_step (hstep : step τ.pre τ.action = some τ.post) (h : Holds τ.post.locks r) :
    Holds τ.pre.locks r ∨ ∃ i inp pc r', τ.action = .advance i inp ∧
      τ.pre.calls[i]? = some pc ∧ pc.sends? = some r' ∧ inp.delivery.executes = true ∧
      r'.script.isLock = true ∧ r'.lockKey = r.lockKey ∧ r'.owner = r.owner ∧
      τ.pre.locks r.lockKey = none := by
  obtain ⟨s, a, s'⟩ := τ
  dsimp only at hstep h ⊢
  cases a with
  | clock now =>
      cases hstep
      left
      obtain ⟨entry, hentry, hvalue⟩ := Option.map_eq_some_iff.mp h
      rw [Holds, (Option.filter_eq_some_iff.mp hentry).1, Option.map_some, hvalue]
  | lose key =>
      cases hstep
      left
      obtain ⟨entry, hentry, hvalue⟩ := Option.map_eq_some_iff.mp h
      simp only [LockStore.lose, LockStore.set_apply] at hentry
      split at hentry
      · cases hentry
      · rw [Holds, hentry, Option.map_some, hvalue]
  | call q =>
      cases hstep
      exact .inl h
  | advance i inp =>
      rcases call_cases (τ := ⟨s, .advance i inp, s'⟩) i hstep with ⟨hof, -⟩ | ⟨hof, -⟩ |
          ⟨inp', pc, pc', haction, -, hpc, -, hcall⟩
      · simp [ofCall] at hof
      · simp [ofCall] at hof
      · cases haction
        rcases locks_of_stepCall hcall with hsame | ⟨r', hsends, hexecutes, hlocks⟩
        · rw [hsame] at h
          exact .inl h
        · rw [hlocks] at h
          rcases holds_of_eval h with hold | ⟨hlock, hkey, howner, hfree, -⟩
          · exact .inl hold
          · exact .inr ⟨i, inp, pc, r', rfl, hpc, hsends, hexecutes, hlock, hkey, howner, hfree⟩

/-! ## Histories -/

/-- Call `i` sends `r` in the step `τ`, which becomes what `delivery` says. -/
structure Sends (i : Nat) (r : Request) (delivery : Delivery) (τ : LockTransition) : Prop where
  action : ∃ inp, τ.action = .advance i inp ∧ inp.delivery = delivery
  place : ∃ pc, τ.pre.calls[i]? = some pc ∧ pc.sends? = some r

/-- Another `lock` call for the same key with the same owner value. -/
def SameLock (r r' : Request) : Prop :=
  r'.script.isLock = true ∧ r'.lockKey = r.lockKey ∧ r'.owner = r.owner

instance (r r' : Request) : Decidable (SameLock r r') := inferInstanceAs (Decidable (_ ∧ _))

/-- In the run only call `i` locks the key of `r` with its owner value, and this
with `r` only. -/
def SoleOwner (trace : List LockTransition) (i : Nat) (r : Request) : Prop :=
  ∀ τ ∈ trace, ∀ j pc, τ.pre.calls[j]? = some pc → SameLock r pc.request →
    j = i ∧ pc.request = r

instance (trace : List LockTransition) (i : Nat) (r : Request) :
    Decidable (SoleOwner trace i r) :=
  decidable_of_iff (∀ τ ∈ trace, ∀ p ∈ τ.pre.calls.zipIdx, SameLock r p.1.request →
      p.2 = i ∧ p.1.request = r) <| by
    simp only [SoleOwner, Prod.forall, List.mk_mem_zipIdx_iff_getElem?]
    exact forall₂_congr fun _ _ => forall_comm

/-- The lock is held since a step of call `i` that found the key free. -/
def KeptSince (trace : List LockTransition) (i : Nat) (r : Request) (p : Delivery → Prop) : Prop :=
  ∃ earlier ρ later delivery, trace = earlier ++ ρ :: later ∧ Sends i r delivery ρ ∧ p delivery ∧
    ρ.pre.locks r.lockKey = none ∧ ∀ σ ∈ ρ :: later, Holds σ.post.locks r

theorem request_of_sends (h : pc.sends? = some r) :
    pc.request = r := by
  cases pc with
  | sending q =>
      cases h
      rfl
  | resending q =>
      cases h
      rfl
  | _ => cases h

theorem keptSince_of_run (hrun : Run step s₀ trace s) (hfresh : ¬ Holds s₀.locks r)
    (hsole : SoleOwner trace i r) :
    Holds s.locks r → KeptSince trace i r (·.executes = true) := by
  refine hrun.history_invariant
    (P := fun trace s => Holds s.locks r → KeptSince trace i r (·.executes = true))
    (fun h => absurd h hfresh) ?_
  intro earlier τ hinitial _ hstep hkept hholds
  rcases holds_of_step hstep hholds with hbefore |
      ⟨j, inp, pc, r', haction, hpc, hsends, hexecutes, hlock, hkey, howner, hfree⟩
  · obtain ⟨first, ρ, later, delivery, hcut, hρ, hdelivery, hfree, hlater⟩ := hkept hbefore
    refine ⟨first, ρ, later ++ [τ], delivery, by simp [hcut], hρ, hdelivery, hfree, ?_⟩
    intro σ hσ
    rw [← List.cons_append, List.mem_append, List.mem_singleton] at hσ
    rcases hσ with hold | rfl
    · exact hlater σ hold
    · exact hholds
  · have hrequest := request_of_sends hsends
    have hmine := hsole τ (hinitial.subset (by simp)) j pc hpc
      (by rw [hrequest]; exact ⟨hlock, hkey, howner⟩)
    obtain ⟨rfl, hsame⟩ := hmine
    obtain rfl : r' = r := hrequest.symm.trans hsame
    refine ⟨earlier, τ, [], inp.delivery, rfl, ⟨⟨inp, haction, rfl⟩, pc, hpc, hsends⟩, hexecutes,
      hfree, ?_⟩
    intro σ hσ
    rw [List.mem_singleton.mp hσ]
    exact hholds

/-- An execution whose success is reported to call `i`. -/
def Acknowledged (i : Nat) (r : Request) (τ : LockTransition) : Prop :=
  Sends i r .answered τ ∧ (r.eval τ.pre.now τ.pre.locks).2 = true

/-- A call has returned true exactly if one of its steps was acknowledged. -/
theorem acknowledged_iff (hrun : Run step s₀ trace s) (hstart : s₀.calls = []) (i : Nat)
    (r : Request) :
    (∃ τ ∈ trace, Acknowledged i r τ) ↔ s.calls[i]? = some (.returned r true) := by
  refine hrun.history_invariant (P := fun trace s =>
    (∃ τ ∈ trace, Acknowledged i r τ) ↔ s.calls[i]? = some (.returned r true))
    (by simp [hstart]) ?_
  intro earlier τ _ _ hstep hiff
  -- Only a step of call `i` counts, and a call that has returned makes no step.
  have hsplit : (∃ σ ∈ earlier ++ [τ], Acknowledged i r σ) ↔
      (∃ σ ∈ earlier, Acknowledged i r σ) ∨ Acknowledged i r τ := by
    simp only [List.mem_append, List.mem_singleton, or_and_right, exists_or, exists_eq_left]
  rw [hsplit, hiff]
  rcases call_cases i hstep with ⟨hof, hsame⟩ | ⟨hof, hfresh, q, hbegun⟩ |
      ⟨inp, pc, pc', haction, hof, hpc, hpc', hcall⟩
  · have hnot : ¬ Acknowledged i r τ := by
      rintro ⟨⟨⟨inp, haction, -⟩, -⟩, -⟩
      simp [ofCall, haction] at hof
    rw [hsame]
    simp [hnot]
  · have hnot : ¬ Acknowledged i r τ := by
      rintro ⟨⟨-, pc, hpc, -⟩, -⟩
      rw [hfresh] at hpc
      cases hpc
    have hbegin : beginCall q ≠ .returned r true := by
      unfold beginCall
      split <;> simp
    rw [hfresh, hbegun]
    simp [hnot, hbegin]
  · constructor
    · rintro (hbefore | ⟨⟨⟨inp', haction', hdelivery⟩, pc₁, hpc₁, hsends⟩, hok⟩)
      · rw [hpc] at hbefore
        cases hbefore
        cases hcall
      · rw [haction] at haction'
        cases haction'
        rw [hpc] at hpc₁
        cases hpc₁
        rw [hpc', returned_of_acknowledged hcall hsends (by simp [acknowledged, hdelivery, hok])]
    · intro hreturned
      rw [hpc'] at hreturned
      cases hreturned
      obtain ⟨hsends, hack⟩ := acknowledged_of_returned hcall
      simp only [acknowledged, Bool.and_eq_true, beq_iff_eq] at hack
      exact .inr ⟨⟨⟨inp, haction, hack.1⟩, pc, hpc, hsends⟩, hack.2⟩

/-! ## The result -/

/-- What a step that sends `r` makes of the locks. -/
theorem locks_of_sends (hstep : step τ.pre τ.action = some τ.post) (h : Sends i r delivery τ) :
    τ.post.locks = deliver τ.pre r delivery := by
  obtain ⟨⟨inp, haction, rfl⟩, pc, hpc, hsends⟩ := h
  rcases call_cases i hstep with ⟨hof, -⟩ | ⟨-, hfresh, -⟩ |
      ⟨inp', pc₁, pc', haction', -, hpc₁, -, hcall⟩
  · simp [ofCall, haction] at hof
  · rw [hpc] at hfresh
    cases hfresh
  · rw [haction] at haction'
    cases haction'
    rw [hpc] at hpc₁
    cases hpc₁
    cases pc with
    | sending q =>
        cases hsends
        simp only [stepCall, Option.some.injEq, Prod.mk.injEq] at hcall
        exact hcall.1.symm
    | resending q =>
        cases hsends
        simp only [stepCall, Option.some.injEq, Prod.mk.injEq] at hcall
        exact hcall.1.symm
    | _ => cases hsends

/-- A call has the same request at every moment of a run. -/
theorem request_of_run (hrun : Run step s₀ trace s) (hpc : s₀.calls[i]? = some pc) :
    ∃ pc', s.calls[i]? = some pc' ∧ pc'.request = pc.request := by
  refine hrun.invariant (P := fun s => ∃ pc', s.calls[i]? = some pc' ∧ pc'.request = pc.request)
    ⟨pc, hpc, rfl⟩ ?_
  rintro τ - hstep ⟨q, hq, hrequest⟩
  rcases call_cases i hstep with ⟨-, hsame⟩ | ⟨-, hfresh, -⟩ |
      ⟨inp, q₁, q', -, -, hq₁, hq', hcall⟩
  · exact ⟨q, by rw [hsame, hq], hrequest⟩
  · rw [hq] at hfresh
    cases hfresh
  · rw [hq] at hq₁
    cases hq₁
    refine ⟨q', hq', ?_⟩
    rw [← hrequest]
    exact request_of_stepCall hcall

theorem ofCall_of_sends (h : Sends i r delivery τ) : ofCall i τ = true := by
  obtain ⟨⟨inp, haction, -⟩, -⟩ := h
  simp [ofCall, haction]

/-- A step of call `i` that changes the locks executes its script. -/
theorem sends_of_locks {ok : Bool} (hrun : Run step s₀ trace s)
    (hreturned : s.calls[i]? = some (.returned r ok)) {ρ : LockTransition} (hρ : ρ ∈ trace)
    (hof : ofCall i ρ = true) (hchanged : ρ.post.locks ≠ ρ.pre.locks) :
    ∃ delivery, Sends i r delivery ρ ∧ delivery.executes = true := by
  obtain ⟨before, after, rfl⟩ := List.append_of_mem hρ
  obtain ⟨-, hstep, hafter⟩ := hrun.split
  rcases call_cases i hstep with ⟨hother, -⟩ | ⟨hother, -⟩ |
      ⟨inp, pc, pc', haction, -, hpc, hpc', hcall⟩
  · simp [hof] at hother
  · simp [hof] at hother
  · rcases locks_of_stepCall hcall with hsame | ⟨r', hsends, hexecutes, -⟩
    · exact absurd hsame hchanged
    · -- The request sent is the one the call returns with.
      obtain ⟨q, hq, hrequest⟩ := request_of_run hafter hpc'
      rw [hreturned] at hq
      cases hq
      obtain rfl : r = r' := by
        rw [← request_of_sends hsends, ← request_of_stepCall hcall, ← hrequest]
        rfl
      exact ⟨inp.delivery, ⟨⟨inp, haction, rfl⟩, pc, hpc, hsends⟩, hexecutes⟩

/-- An execution that could not be acknowledged has lost its reply. -/
theorem eq_lost_of_executes (hexecutes : delivery.executes = true)
    (hanswered : delivery ≠ .answered) : delivery = .lost true := by
  cases delivery with
  | answered => exact absurd rfl hanswered
  | refused => cases hexecutes
  | lost executed =>
      cases hexecutes
      rfl

/-- **What the result of a lock call says.**  In every run of any number of
clients with any faults: when `lock` has returned false, and no other call locks
the key with the same owner value, the key carries the value exactly if an
execution of the call's own script took it, the reply was lost, and the key has
been held since.  When `lock` has returned true, the key carried the value after
one of the call's steps.  When `unlock` has returned false, it has deleted a lock
with its value exactly if an execution that found the value has lost its
reply. -/
theorem lock_call_exact (s₀ s : State) (trace : List LockTransition)
    (hrun : Run step s₀ trace s) (hstart : s₀.calls = []) (i : Nat) (r : Request) (ok : Bool)
    (hreturned : s.calls[i]? = some (.returned r ok)) :
    (r.script.isLock = true → ok = false → ¬ Holds s₀.locks r → SoleOwner trace i r →
      (Holds s.locks r ↔ KeptSince trace i r (· = .lost true))) ∧
    (r.script.isLock = true → ok = true →
      ∃ ρ ∈ trace, ofCall i ρ = true ∧ Holds ρ.post.locks r) ∧
    (r.script = .unlock → ok = false →
      ((∃ ρ ∈ trace, ofCall i ρ = true ∧ Holds ρ.pre.locks r ∧ ¬ Holds ρ.post.locks r) ↔
        ∃ ρ ∈ trace, Sends i r (.lost true) ρ ∧ Holds ρ.pre.locks r)) := by
  have hack := acknowledged_iff hrun hstart i r
  -- A call that has returned false was never told of a success.
  have hunacknowledged : ok = false → ∀ ρ ∈ trace, ∀ delivery, Sends i r delivery ρ →
      (r.eval ρ.pre.now ρ.pre.locks).2 = true → delivery ≠ .answered := by
    rintro rfl ρ hρ delivery hsends heval rfl
    have htrue := hack.mp ⟨ρ, hρ, hsends, heval⟩
    rw [hreturned] at htrue
    cases htrue
  refine ⟨?_, ?_, ?_⟩
  · intro hlock hok hfresh hsole
    constructor
    · intro hholds
      obtain ⟨earlier, ρ, later, delivery, rfl, hsends, hexecutes, hfree, hkept⟩ :=
        keptSince_of_run hrun hfresh hsole hholds
      have hlost := hunacknowledged hok ρ (by simp) delivery hsends (lock_of_free hlock hfree)
      exact ⟨earlier, ρ, later, delivery, rfl, hsends, eq_lost_of_executes hexecutes hlost, hfree,
        hkept⟩
    · rintro ⟨earlier, ρ, later, delivery, rfl, -, -, -, hkept⟩
      -- The last step of the run is one of those after which the lock is held.
      obtain ⟨-, -, hafter⟩ := hrun.split
      refine hafter.invariant (P := fun s => Holds s.locks r) (hkept ρ (by simp)) ?_
      intro τ hτ _ _
      exact hkept τ (List.mem_cons_of_mem _ hτ)
  · rintro hlock rfl
    obtain ⟨ρ, hρ, hsends, heval⟩ := hack.mpr hreturned
    refine ⟨ρ, hρ, ofCall_of_sends hsends, ?_⟩
    rw [locks_of_sends (hrun.step_of_mem hρ) hsends]
    exact holds_of_lock hlock heval
  · intro hunlock hok
    constructor
    · rintro ⟨ρ, hρ, hof, hbefore, hafter⟩
      have hchanged : ρ.post.locks ≠ ρ.pre.locks := by
        intro hsame
        rw [hsame] at hafter
        exact hafter hbefore
      obtain ⟨delivery, hsends, hexecutes⟩ := sends_of_locks hrun hreturned hρ hof hchanged
      have hlost := hunacknowledged hok ρ hρ delivery hsends (unlock_of_holds hunlock hbefore).1
      rw [eq_lost_of_executes hexecutes hlost] at hsends
      exact ⟨ρ, hρ, hsends, hbefore⟩
    · rintro ⟨ρ, hρ, hsends, hbefore⟩
      refine ⟨ρ, hρ, ofCall_of_sends hsends, hbefore, ?_⟩
      rw [locks_of_sends (hrun.step_of_mem hρ) hsends]
      exact (unlock_of_holds hunlock hbefore).2

/-! ## Runs -/

/-- The task lock of a dispatch. -/
def lockRequest : Request := ⟨.lock 60, "task:t", "a:t:1:0"⟩

/-- Its release. -/
def unlockRequest : Request := ⟨.unlock, "task:t", "a:t:1:0"⟩

/-- Call `i` from its first script to its result: the first reply is lost, the
second comes. -/
def retried (i : Nat) (executed : Bool) : List Action :=
  [.advance i {}, .advance i { delivery := .lost executed }, .advance i {}, .advance i {},
    .advance i {}]

/-- Another client has the lock; the script of the first attempt is not
executed, that of the second is. -/
def contendedRun : List Action :=
  [.call ⟨.lock 60, "task:t", "b:t:1:0"⟩, .advance 0 {}, .advance 0 {}, .call lockRequest] ++
    retried 1 false

/-- In `contendedRun` the call returns false and has left nothing behind. -/
theorem lock_call_exact_contended :
    ∃ trace s, Run step {} trace s ∧ s.calls[1]? = some (.returned lockRequest false) ∧
      SoleOwner trace 1 lockRequest ∧ ¬ Holds s.locks lockRequest ∧
      ¬ KeptSince trace 1 lockRequest (· = .lost true) := by
  obtain ⟨s, hrun, hs⟩ := exists_run_of_execute
    (show (execute step {} contendedRun).any (fun s =>
      decide (s.calls[1]? = some (.returned lockRequest false)) &&
      !decide (Holds s.locks lockRequest)) = true by decide +kernel)
  simp only [Bool.and_eq_true, decide_eq_true_eq, Bool.not_eq_true', decide_eq_false_iff_not] at hs
  have hsole : SoleOwner (executeTrace step {} contendedRun) 1 lockRequest := by decide +kernel
  obtain ⟨hlock, -, -⟩ := lock_call_exact {} s _ hrun rfl 1 lockRequest false hs.1
  have hiff := hlock rfl rfl (by decide) hsole
  exact ⟨_, s, hrun, hs.1, hsole, hs.2, fun hkept => hs.2 (hiff.mpr hkept)⟩

/-- The script of the first attempt is executed and its reply lost. -/
def lostLockRun : List Action := [.call lockRequest] ++ retried 0 true

/-- The same for the release of a lock that was taken without faults. -/
def lostUnlockRun : List Action :=
  [.call lockRequest, .advance 0 {}, .advance 0 {}, .call unlockRequest] ++ retried 1 true

/-- `lock` returns false and the key carries its value; `unlock` returns false
after it has deleted the lock. -/
theorem lock_retry_reports_failure :
    (∃ trace s, Run step {} trace s ∧ s.calls[0]? = some (.returned lockRequest false) ∧
      Holds s.locks lockRequest) ∧
    ∃ trace s ρ, Run step {} trace s ∧ s.calls[1]? = some (.returned unlockRequest false) ∧
      ρ ∈ trace ∧ ofCall 1 ρ = true ∧ Holds ρ.pre.locks unlockRequest ∧
      ¬ Holds ρ.post.locks unlockRequest := by
  constructor
  · obtain ⟨s, hrun, hs⟩ := exists_run_of_execute
      (show (execute step {} lostLockRun).any (fun s =>
        decide (s.calls[0]? = some (.returned lockRequest false)) &&
        decide (Holds s.locks lockRequest)) = true by decide +kernel)
    simp only [Bool.and_eq_true, decide_eq_true_eq] at hs
    exact ⟨_, s, hrun, hs⟩
  · obtain ⟨s, hrun, hs⟩ := exists_run_of_execute
      (show (execute step {} lostUnlockRun).any (fun s =>
        decide (s.calls[1]? = some (.returned unlockRequest false))) = true by decide +kernel)
    generalize htrace : executeTrace step {} lostUnlockRun = trace at hrun
    obtain ⟨ρ, hcut, hρ⟩ := exists_cut_of_getElem? (l := trace) 5
      (p := fun ρ => ofCall 1 ρ && decide (Holds ρ.pre.locks unlockRequest) &&
        !decide (Holds ρ.post.locks unlockRequest)) (by subst htrace; decide +kernel)
    simp only [Bool.and_eq_true, decide_eq_true_eq, Bool.not_eq_true',
      decide_eq_false_iff_not] at hρ
    have hmem : ρ ∈ trace := by
      rw [hcut]
      simp
    exact ⟨trace, s, ρ, hrun, by simpa using hs, hmem, hρ.1.1, hρ.1.2, hρ.2⟩

end LockCommand
end Corpcron
