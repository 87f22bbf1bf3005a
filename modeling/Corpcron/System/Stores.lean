import Corpcron.MySQL.TaskStore
import Corpcron.Redis.TaskLock

/-!
# What the threads of a deployment share

Scheduler loops, pool threads, lock renewers and RPC handlers interact only
through three kinds of shared objects: the MySQL tables, the locks in Redis,
and the objects of their own process (the flags of `stop`, the counter of
`next_execution_id`, the leases of the lock renewer and the cancellation
registry).  `Stores` holds all of them.

A thread uses them one call at a time.  `Access` lists the calls and
`Access.exec` executes one of them atomically: every SQL statement, every Lua
script and every critical section of a process-local mutex is one such call.
A call to MySQL or Redis may also fail, in which case the clients log the
error and return `false` or an empty result; this is `Input.fault`.

The lemmas at the end are the frame of an access: which part of `Stores` it
can change at all.
-/

namespace Corpcron

open Lib

/-! ## Process-local objects -/

/-- `LockRenewer::Lease`; the cancellation source is named by the sequence
number drawn for the dispatch that created it. -/
structure Lease where
  key : String
  value : String
  ttlSec : Nat
  nextRenewAt : Nat
  source : Nat
deriving DecidableEq

/-- `TaskCancellationRegistry::Entry`. -/
structure RegistryEntry where
  executionId : String
  source : Nat
deriving DecidableEq

/-- The shared objects of one server process. -/
structure Process where
  alive : Bool := false
  /-- `TaskScheduler::running_`. -/
  running : Bool := false
  /-- `shutdown_cancellation_`. -/
  shutdown : Bool := false
  /-- The counter of `next_execution_id`. -/
  sequence : Nat := 0
  leases : List Lease := []
  /-- `TaskCancellationRegistry::sources_`, by task id. -/
  registry : String → Option RegistryEntry := fun _ => none
  /-- The cancellation sources that have been canceled. -/
  canceled : Nat → Bool := fun _ => false

namespace Process

/-- `CancellationSource::cancel`. -/
def cancel (p : Process) (source : Nat) : Process :=
  { p with canceled := fun n => n == source || p.canceled n }

/-- `LockRenewer::nextRenewTime`, in milliseconds of the steady clock. -/
def nextRenewTime (steadyMs ttlSec : Nat) : Nat :=
  steadyMs + 1000 * max 1 (ttlSec / 3)

/-- `LockRenewer::add`: replaces a lease with the same key. -/
def addLease (p : Process) (steadyMs : Nat) (key value : String) (ttlSec source : Nat) :
    Process :=
  { p with
    leases := p.leases.filter (fun lease => lease.key != key) ++
      [⟨key, value, ttlSec, nextRenewTime steadyMs ttlSec, source⟩] }

/-- `LockRenewer::remove`: only a lease with the caller's value is erased. -/
def removeLease (p : Process) (key value : String) : Process :=
  { p with leases := p.leases.filter (fun lease => !(lease.key == key && lease.value == value)) }

/-- The part of `LockRenewer::loop` that follows the renewals: a lease that is
still the registered one is dropped and its source canceled when the renewal
failed, and put off otherwise. -/
def judgeLease (p : Process) (steadyMs : Nat) (lost : List Lease) (lease : Lease) : Process :=
  match p.leases.find? (fun l => l.key == lease.key) with
  | none => p
  | some found =>
      if found.value = lease.value then
        if lost.any (fun l => l.key == lease.key && l.value == lease.value) then
          { p.cancel found.source with
            leases := p.leases.filter (fun l => l.key != lease.key) }
        else
          { p with
            leases := p.leases.map fun l =>
              if l.key = lease.key then
                { l with nextRenewAt := nextRenewTime steadyMs lease.ttlSec }
              else l }
      else p

/-- `TaskCancellationRegistry::registerTask`. -/
def registerTask (p : Process) (taskId executionId : String) (source : Nat) : Process :=
  { p with registry := fun k => if k = taskId then some ⟨executionId, source⟩ else p.registry k }

/-- `TaskCancellationRegistry::unregisterTask`. -/
def unregisterTask (p : Process) (taskId executionId : String) : Process :=
  { p with
    registry := fun k =>
      if k = taskId then (p.registry k).filter (fun entry => entry.executionId != executionId)
      else p.registry k }

/-- `TaskCancellationRegistry::cancel`. -/
def cancelTask (p : Process) (taskId : String) : Process :=
  match p.registry taskId with
  | none => p
  | some entry => p.cancel entry.source

end Process

/-! ## Calls -/

/-- Everything the threads share. -/
structure Stores where
  /-- `NOW()` in MySQL. -/
  now : DateTime
  tasks : TaskTable
  history : List TaskHistory := []
  /-- The clock of Redis, in seconds. -/
  redisNow : Nat := 0
  locks : RedisLocks := fun _ => none
  procs : Nat → Process := fun _ => {}

/-- What a call gives back; each call sets the fields it has results for. -/
structure Reply where
  ok : Bool := false
  /-- The call threw or found no connection. -/
  failed : Bool := false
  task : Option TaskMeta := none
  tasks : List TaskMeta := []
  number : Nat := 0
  leases : List Lease := []

/-- Calls of `MySQLClient` that are one SQL statement. -/
inductive DbAccess where
  | update (stmt : Statement)
  | getTask (id : String)
  | getDueTasks (limit : Nat)
  | getStaleRunningTasks (staleAfterSec : Int) (limit : Nat)
  | taskExists (id : String)
  | taskExistsAndIsNotRunning (id : String)
  | addHistory (entry : TaskHistory)

/-- Calls of `RedisClient` that are one Lua script on a lock. -/
inductive LockAccess where
  | lock (key value : String) (expireSec : Nat)
  | renewLock (key value : String) (expireSec : Nat)
  | unlock (key value : String)

/-- Calls on the objects of the caller's process. -/
inductive LocalAccess where
  | nextSequence
  | addLease (key value : String) (ttlSec source : Nat)
  | removeLease (key value : String)
  | dueLeases
  | judgeLeases (due lost : List Lease)
  | registerTask (taskId executionId : String) (source : Nat)
  | unregisterTask (taskId executionId : String)
  | cancelTask (taskId : String)
  /-- `task_cancellation.isCancellationRequested()`. -/
  | cancellationRequested (source : Nat)
  /-- `shutdown_cancellation_.isCancellationRequested()`. -/
  | shutdownRequested
  /-- The token linked from `shutdown_cancellation_` and `task_cancellation`. -/
  | executionCanceled (source : Nat)
  /-- `running_`. -/
  | running

/-- One call of a thread; `idle` is a step without a call. -/
inductive Access where
  | idle
  | db (call : DbAccess)
  | redis (call : LockAccess)
  | process (call : LocalAccess)

/-- Execute a call to MySQL. -/
def DbAccess.exec (s : Stores) : DbAccess → Stores × Reply
  | .update stmt =>
      ({ s with tasks := s.tasks.execute s.now stmt },
        { ok := stmt.affected s.now (s.tasks.find? stmt.taskId) })
  | .getTask id => (s, { ok := (s.tasks.getTask id).isSome, task := s.tasks.getTask id })
  | .getDueTasks limit => (s, { ok := true, tasks := s.tasks.getDueTasks s.now limit })
  | .getStaleRunningTasks staleAfterSec limit =>
      (s, { ok := true, tasks := s.tasks.getStaleRunningTasks s.now staleAfterSec limit })
  | .taskExists id => (s, { ok := s.tasks.taskExists id })
  | .taskExistsAndIsNotRunning id => (s, { ok := s.tasks.taskExistsAndIsNotRunning id })
  | .addHistory entry => ({ s with history := Corpcron.addHistory s.history entry }, { ok := true })

/-- The locks after a call to Redis, and whether the call succeeded. -/
def LockAccess.apply (redisNow : Nat) (locks : RedisLocks) : LockAccess → RedisLocks × Bool
  | .lock key value expireSec => locks.lock redisNow key value expireSec
  | .renewLock key value expireSec => locks.renewLock redisNow key value expireSec
  | .unlock key value => locks.unlock key value

/-- Execute a call to Redis. -/
def LockAccess.exec (s : Stores) (call : LockAccess) : Stores × Reply :=
  ({ s with locks := (call.apply s.redisNow s.locks).1 },
    { ok := (call.apply s.redisNow s.locks).2 })

/-- Execute a call on the caller's process. -/
def LocalAccess.exec (steadyMs : Nat) (p : Process) : LocalAccess → Process × Reply
  | .nextSequence => ({ p with sequence := p.sequence + 1 }, { ok := true, number := p.sequence })
  | .addLease key value ttlSec source =>
      (p.addLease steadyMs key value ttlSec source, { ok := true })
  | .removeLease key value => (p.removeLease key value, { ok := true })
  | .dueLeases =>
      (p, { ok := true, leases := p.leases.filter fun l => decide (l.nextRenewAt ≤ steadyMs) })
  | .judgeLeases due lost => (due.foldl (fun p lease => p.judgeLease steadyMs lost lease) p, { ok := true })
  | .registerTask taskId executionId source =>
      (p.registerTask taskId executionId source, { ok := true })
  | .unregisterTask taskId executionId => (p.unregisterTask taskId executionId, { ok := true })
  | .cancelTask taskId => (p.cancelTask taskId, { ok := (p.registry taskId).isSome })
  | .cancellationRequested source => (p, { ok := p.canceled source })
  | .shutdownRequested => (p, { ok := p.shutdown })
  | .executionCanceled source => (p, { ok := p.shutdown || p.canceled source })
  | .running => (p, { ok := p.running })

theorem Process.judgeLease_alive (steadyMs : Nat) (lost : List Lease) (p : Process)
    (lease : Lease) : (p.judgeLease steadyMs lost lease).alive = p.alive := by
  unfold Process.judgeLease
  split
  · rfl
  · split
    · split <;> rfl
    · rfl

theorem LocalAccess.exec_alive (steadyMs : Nat) (p : Process) (call : LocalAccess) :
    (call.exec steadyMs p).1.alive = p.alive := by
  cases call with
  | judgeLeases due lost =>
      simp only [LocalAccess.exec]
      induction due generalizing p with
      | nil => rfl
      | cons lease due ih =>
          rw [List.foldl_cons, ih]
          exact Process.judgeLease_alive steadyMs lost p lease
  | cancelTask taskId =>
      simp only [LocalAccess.exec, Process.cancelTask]
      split <;> rfl
  | _ => rfl

/-- Execute one access of a thread of process `p`. -/
def Access.exec (fault : Bool) (steadyMs p : Nat) (s : Stores) : Access → Stores × Reply
  | .idle => (s, {})
  | .db call => if fault then (s, { failed := true }) else call.exec s
  | .redis call => if fault then (s, { failed := true }) else call.exec s
  | .process call =>
      ({ s with
          procs := fun q => if q = p then (call.exec steadyMs (s.procs p)).1 else s.procs q },
        (call.exec steadyMs (s.procs p)).2)

/-! ## The frame of an access -/

/-- The statement an access executes. -/
def Access.statement? (fault : Bool) : Access → Option Statement
  | .db (.update stmt) => if fault then none else some stmt
  | _ => none

/-- The statement of an access is the one it is built from. -/
theorem Access.statement?_eq_some {access : Access} {fault : Bool} {stmt : Statement} :
    access.statement? fault = some stmt ↔ fault = false ∧ access = .db (.update stmt) := by
  cases access with
  | db call => cases call <;> cases fault <;> simp [statement?]
  | _ => simp [statement?]

/-- The table changes only through the statement of the access. -/
theorem Access.exec_tasks (fault : Bool) (steadyMs p : Nat) (s : Stores) (access : Access) :
    (access.exec fault steadyMs p s).1.tasks =
      match access.statement? fault with
      | some stmt => s.tasks.execute s.now stmt
      | none => s.tasks := by
  cases access with
  | idle => rfl
  | process call => rfl
  | redis call => cases fault <;> rfl
  | db call => cases fault <;> cases call <;> rfl

/-- A statement that was executed returns whether it changed its row. -/
theorem Access.exec_ok {fault : Bool} {steadyMs p : Nat} {s : Stores} {access : Access}
    {stmt : Statement} (h : access.statement? fault = some stmt) :
    (access.exec fault steadyMs p s).2.ok = stmt.affected s.now (s.tasks.find? stmt.taskId) := by
  cases access with
  | idle => simp [statement?] at h
  | process call => simp [statement?] at h
  | redis call => simp [statement?] at h
  | db call =>
      cases fault <;> cases call <;> simp [statement?] at h
      subst h
      rfl

/-- The locks change only through a script. -/
theorem Access.exec_locks (fault : Bool) (steadyMs p : Nat) (s : Stores) (access : Access) :
    (access.exec fault steadyMs p s).1.locks =
      match access with
      | .redis call => if fault then s.locks else (call.apply s.redisNow s.locks).1
      | _ => s.locks := by
  cases access with
  | idle => rfl
  | process call => rfl
  | redis call => cases fault <;> rfl
  | db call => cases fault <;> cases call <;> rfl

/-- Whether a script reported success. -/
theorem Access.exec_redis_ok (fault : Bool) (steadyMs p : Nat) (s : Stores)
    (call : LockAccess) :
    ((Access.redis call).exec fault steadyMs p s).2.ok =
      (!fault && (call.apply s.redisNow s.locks).2) := by
  cases fault <;> rfl

/-- Accesses neither start nor end a process. -/
@[simp] theorem Access.exec_alive (fault : Bool) (steadyMs p q : Nat) (s : Stores)
    (access : Access) :
    ((access.exec fault steadyMs p s).1.procs q).alive = (s.procs q).alive := by
  cases access with
  | idle => rfl
  | redis call => cases fault <;> rfl
  | db call => cases fault <;> cases call <;> rfl
  | process call =>
      by_cases hq : q = p
      · subst hq
        simp only [Access.exec, if_true]
        exact call.exec_alive steadyMs _
      · simp [Access.exec, hq]

/-! ## Leases and registry entries -/

theorem Process.judgeLease_registry (steadyMs : Nat) (lost : List Lease) (p : Process)
    (lease : Lease) : (p.judgeLease steadyMs lost lease).registry = p.registry := by
  unfold Process.judgeLease
  split
  · rfl
  · split
    · split <;> rfl
    · rfl

/-- The renewer drops leases or puts them off; it adds none. -/
theorem Process.mem_judgeLease {steadyMs : Nat} {lost : List Lease} {p : Process}
    {lease l : Lease} (h : l ∈ (p.judgeLease steadyMs lost lease).leases) :
    ∃ l₀ ∈ p.leases, l₀.key = l.key ∧ l₀.value = l.value := by
  unfold Process.judgeLease at h
  split at h
  · exact ⟨l, h, rfl, rfl⟩
  · split at h
    · split at h
      · exact ⟨l, (List.mem_filter.mp h).1, rfl, rfl⟩
      · obtain ⟨l₀, hl₀, rfl⟩ := List.mem_map.mp h
        refine ⟨l₀, hl₀, ?_⟩
        split <;> exact ⟨rfl, rfl⟩
    · exact ⟨l, h, rfl, rfl⟩

/-- The registry after a call. -/
theorem LocalAccess.exec_registry (steadyMs : Nat) (p : Process) (call : LocalAccess) :
    (call.exec steadyMs p).1.registry =
      match call with
      | .registerTask taskId executionId source =>
          (p.registerTask taskId executionId source).registry
      | .unregisterTask taskId executionId => (p.unregisterTask taskId executionId).registry
      | _ => p.registry := by
  cases call with
  | judgeLeases due lost =>
      simp only [LocalAccess.exec]
      induction due generalizing p with
      | nil => rfl
      | cons lease due ih =>
          rw [List.foldl_cons, ih]
          exact Process.judgeLease_registry steadyMs lost p lease
  | cancelTask taskId =>
      simp only [LocalAccess.exec, Process.cancelTask]
      split <;> rfl
  | _ => rfl

/-- Where a registry entry comes from: it was there before and is not the one
that the call erases, or the call has registered it. -/
theorem LocalAccess.registry_eq_some {steadyMs : Nat} {p : Process} {call : LocalAccess}
    {taskId : String} {entry : RegistryEntry}
    (h : (call.exec steadyMs p).1.registry taskId = some entry) :
    (p.registry taskId = some entry ∧ call ≠ .unregisterTask taskId entry.executionId) ∨
      call = .registerTask taskId entry.executionId entry.source := by
  rw [LocalAccess.exec_registry] at h
  cases call with
  | registerTask id executionId source =>
      simp only [Process.registerTask] at h
      split at h
      · rename_i hid
        rw [Option.some.injEq] at h
        subst hid h
        exact Or.inr rfl
      · exact Or.inl ⟨h, by simp⟩
  | unregisterTask id executionId =>
      left
      simp only [Process.unregisterTask] at h
      split at h
      · rename_i hid
        subst hid
        obtain ⟨hentry, hother⟩ := Option.filter_eq_some_iff.mp h
        refine ⟨hentry, ?_⟩
        intro heq
        injection heq with _ hexec
        simp [hexec] at hother
      · rename_i hid
        exact ⟨h, fun heq => hid (by injection heq with hid' _; exact hid'.symm)⟩
  | _ => exact Or.inl ⟨h, by simp⟩

/-- Where a lease comes from: its key was leased under the same value before
and is not the one that the call erases, or the call has added it. -/
theorem LocalAccess.mem_leases {steadyMs : Nat} {p : Process} {call : LocalAccess} {l : Lease}
    (h : l ∈ (call.exec steadyMs p).1.leases) :
    (∃ l₀ ∈ p.leases, l₀.key = l.key ∧ l₀.value = l.value ∧
        call ≠ .removeLease l.key l.value) ∨
      ∃ ttlSec source, call = .addLease l.key l.value ttlSec source := by
  cases call with
  | judgeLeases due lost =>
      left
      simp only [LocalAccess.exec] at h
      have hold : ∃ l₀ ∈ p.leases, l₀.key = l.key ∧ l₀.value = l.value := by
        induction due generalizing p with
        | nil => exact ⟨l, h, rfl, rfl⟩
        | cons lease due ih =>
            obtain ⟨l₁, hl₁, hkey, hvalue⟩ := ih h
            obtain ⟨l₀, hl₀, hkey', hvalue'⟩ := Process.mem_judgeLease hl₁
            exact ⟨l₀, hl₀, hkey'.trans hkey, hvalue'.trans hvalue⟩
      obtain ⟨l₀, hl₀, hkey, hvalue⟩ := hold
      exact ⟨l₀, hl₀, hkey, hvalue, by simp⟩
  | cancelTask taskId =>
      left
      simp only [LocalAccess.exec, Process.cancelTask] at h
      split at h <;> exact ⟨l, h, rfl, rfl, by simp⟩
  | addLease key value ttlSec source =>
      simp only [LocalAccess.exec, Process.addLease, List.mem_append, List.mem_filter,
        List.mem_singleton] at h
      rcases h with ⟨hold, -⟩ | rfl
      · exact Or.inl ⟨l, hold, rfl, rfl, by simp⟩
      · exact Or.inr ⟨ttlSec, source, rfl⟩
  | removeLease key value =>
      left
      simp only [LocalAccess.exec, Process.removeLease, List.mem_filter] at h
      refine ⟨l, h.1, rfl, rfl, ?_⟩
      intro heq
      injection heq with hkey hvalue
      simp [hkey, hvalue] at h
  | _ => exact Or.inl ⟨l, h, rfl, rfl, by simp⟩

/-- The objects of a process change only through a call of its own threads. -/
theorem Access.exec_procs (fault : Bool) (steadyMs p q : Nat) (s : Stores) (access : Access) :
    (access.exec fault steadyMs p s).1.procs q =
      match access with
      | .process call => if q = p then (call.exec steadyMs (s.procs p)).1 else s.procs q
      | _ => s.procs q := by
  cases access with
  | idle => rfl
  | process call => rfl
  | redis call => cases fault <;> rfl
  | db call => cases fault <;> cases call <;> rfl

/-! ## What comes from outside -/

/-- What `RpcClientPool::call` and the parsers of its reply give back. -/
inductive WorkerReply where
  | notSerialized
  /-- No answer: the endpoint tried last and the error of the pool. -/
  | failed (endpoint poolError : String)
  /-- An `RpcError` frame, parsed into code and message if possible. -/
  | rpcError (endpoint : String) (error : Option (Nat × String))
  | unexpected (endpoint : String) (serialId : Nat)
  | unparsable (endpoint : String)
  | response (endpoint : String) (success : Bool) (result error : String)
  /-- The call throws; `none` for something that is not a `std::exception`. -/
  | exception (what : Option String)

/-- How `RpcDispatcher::invokeWorker` reaches a handler. -/
inductive Invocation where
  /-- A handler registered in the process itself. -/
  | inProcess (result : Except (Option String) String)
  | noDiscovery
  | noWorker
  | remote (reply : WorkerReply)

/-- What a thread gets from outside the modelled stores during one step. -/
structure Input where
  /-- The call to MySQL or Redis fails without an effect. -/
  fault : Bool := false
  /-- `system_clock::now()`, in milliseconds. -/
  clockMs : Nat := 0
  /-- `steady_clock::now()`, in milliseconds. -/
  steadyMs : Nat := 0
  /-- Result of `discoverServices`. -/
  endpoints : List String := []
  /-- Result of `handlerAvailable` for a non-empty handler name. -/
  handlerAvailable : Bool := true
  /-- `lock` finds its timeout passed after a failed attempt. -/
  timedOut : Bool := false
  /-- Result of `thread_pool_->enqueue`; see `closure_enqueued`. -/
  enqueued : Bool := true
  /-- An exception is thrown after the call, where the closure of an execution
  does not catch it. -/
  throws : Bool := false
  /-- Result of `rpc_client_pool_->call`. -/
  reply : WorkerReply := .failed "" ""
  /-- How a manual execution reaches its handler. -/
  invocation : Invocation := .noDiscovery
  /-- Result of `generate_uuid`. -/
  uuid : String := ""
  /-- Name for a thread started by this step. -/
  fresh : Nat := 0

end Corpcron
