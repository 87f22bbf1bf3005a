import Corpcron.System.LockHolders

/-!
# Mutual exclusion of scheduled executions

A row may leave `RUNNING` while its execution is still in progress: a cancel
followed by an enable makes the task claimable again.  What keeps a second
scheduler execution from starting is therefore not the row but the task lock,
which every dispatch holds from before its claim until after its completion.

The proviso is that Redis drops no key while the dispatch or execution that
set it is in progress; keys set by recoveries may expire at any time.  A
recovery whose key has expired still issues its `unlock`.  It is harmless
because its owner value differs from that of every dispatch, which is the case
unless a node is called `recovery` or `recovery:...`; the run at the end shows
what happens with such a node.
-/

namespace Corpcron

open Lib Lib.LockStore

/-- The task a scheduler or pool thread is executing: from the successful
`claimTaskExecution` to the end of `executeTask`, or to the rollback of a
dispatch that is not enqueued. -/
def Pc.executing : Pc → Option String
  | .scheduler (.dispatching _ d .checking) => some d.task.id
  | .scheduler (.dispatching _ d .enqueueing) => some d.task.id
  | .scheduler (.dispatching _ d (.unregistering true)) => some d.task.id
  | .scheduler (.dispatching _ d (.removingLease true)) => some d.task.id
  | .scheduler (.dispatching _ d .rollingBack) => some d.task.id
  | .execution d .queued => some d.task.id
  | .execution d (.checking _) => some d.task.id
  | .execution d (.calling _) => some d.task.id
  | _ => none

/-- An execution in progress holds the lock of its task. -/
theorem Pc.holds_of_executing {pc : Pc} {id : String} (nodeId : String)
    (h : pc.executing = some id) :
    ∃ v, pc.holds false nodeId = some ("lock:" ++ lockKey id, v) := by
  unfold Pc.executing at h
  split at h <;> cases h <;> exact ⟨_, rfl⟩

/-- An `unlock` or `renewLock` leaves every lock with another owner value as it
is, expiry included. -/
theorem script_other {env : Env} {s s' : State} {tid : Nat} {inp : Input} {th : Thread}
    {key value k : String} {entry : LockEntry String}
    (h : step env s (.run tid inp) = some s') (hth : s.threads tid = some th)
    (haccess : th.access env = .redis (.unlock key value) ∨
      ∃ ttl, th.access env = .redis (.renewLock key value ttl))
    (hk : s.stores.locks k = some entry) (hne : entry.value ≠ value) :
    s'.stores.locks k = some entry := by
  rw [locks_of_run h hth]
  rcases haccess with haccess | ⟨ttl, haccess⟩
  · simp only [haccess, LockAccess.apply]
    split
    · exact hk
    · exact RedisLocks.unlock_other hk hne
  · simp only [haccess, LockAccess.apply]
    split
    · exact hk
    · exact RedisLocks.renewLock_other hk hne

/-- **Mutual exclusion.**  In any run of nodes with plain names in which Redis
drops no lock of a dispatch or execution in progress, at most one scheduler
execution of a task is in progress at any moment; and an `unlock` or renewal
never touches a lock held under another owner value. -/
theorem scheduled_executions_exclusive {env : Env} {s₀ s : State}
    {trace : List SystemTransition} (hrun : Run (step env) s₀ trace s)
    (hstart : ∀ tid, s₀.threads tid = none)
    (hnames : ∀ p, (env.node p).PlainName)
    (hkept : ∀ τ ∈ trace, LockKept false env τ) :
    (∀ id tid tid' th th', s.threads tid = some th → s.threads tid' = some th' →
      th.pc.executing = some id → th'.pc.executing = some id → tid = tid') ∧
    (∀ τ ∈ trace, ∀ tid inp th key value, τ.action = .run tid inp →
      τ.pre.threads tid = some th →
      (th.access env = .redis (.unlock key value) ∨
        ∃ ttl, th.access env = .redis (.renewLock key value ttl)) →
      ∀ k entry, τ.pre.stores.locks k = some entry → entry.value ≠ value →
        τ.post.stores.locks k = some entry) := by
  constructor
  · intro id tid tid' th th' hth hth' hexec hexec'
    have hex := exclusive_of_run hrun hstart (Or.inr hnames) hkept
    obtain ⟨v, hheld⟩ := Pc.holds_of_executing (env.node th.proc).nodeId hexec
    obtain ⟨v', hheld'⟩ := Pc.holds_of_executing (env.node th'.proc).nodeId hexec'
    exact hex.unique tid tid' _ v v' ((holding_of_thread hth).trans hheld)
      ((holding_of_thread hth').trans hheld')
  · intro τ hτ tid inp th key value haction hth haccess k entry hk hne
    have hstep := hrun.step_of_mem hτ
    rw [haction] at hstep
    exact script_other hstep hth haccess hk hne

/-- A node that claims the task of the sample state. -/
def dispatchClaim : List Action :=
  [.boot 0 0 1] ++ runs 0 8

theorem scheduled_executions_exclusive_dispatchClaim :
    ∃ trace s, Run (step sampleEnv) sampleState trace s ∧
      (∃ th, s.threads 0 = some th ∧ th.pc.executing = some "t") ∧
      ∀ tid th, s.threads tid = some th → th.pc.executing = some "t" → tid = 0 := by
  obtain ⟨s, hrun, hclaimed⟩ := exists_run_of_execute (s := sampleState)
    (p := fun s => ((s.threads 0).bind fun th => th.pc.executing) == some "t")
    (show (execute (step sampleEnv) sampleState dispatchClaim).any _ = true by decide)
  simp only [beq_iff_eq, Option.bind_eq_some_iff] at hclaimed
  obtain ⟨th₀, hth₀, hexec₀⟩ := hclaimed
  have hplain : ∀ p, (sampleEnv.node p).PlainName := by
    intro p
    unfold NodeConfig.PlainName sampleEnv
    dsimp only
    split <;> decide
  have hkept := lockKept_of_keepsLocks (r := false) (n := 2) hrun (fun _ => rfl) (by decide)
    (by decide)
  refine ⟨_, s, hrun, ⟨th₀, hth₀, hexec₀⟩, ?_⟩
  intro tid th hth hexec
  exact (scheduled_executions_exclusive hrun (fun _ => rfl) hplain hkept).1 "t" tid 0 th th₀
    hth hth₀ hexec hexec₀

/-! ## A node called like a recovery -/

/-- Three nodes: `a`, `aa` and `recovery:a`, and any number of further ones. -/
def recoveryNameEnv : Env where
  platform := utcPlatform
  node p :=
    { nodeId := if p = 2 then "recovery:a" else String.ofList (List.replicate (p + 1) 'a') }

theorem recoveryNameEnv_distinct (p q : Nat)
    (h : (recoveryNameEnv.node p).nodeId = (recoveryNameEnv.node q).nodeId) : p = q := by
  have hhead : ∀ n, ("recovery:a" : String) ≠ String.ofList (List.replicate (n + 1) 'a') := by
    intro n heq
    have hlist := congrArg String.toList heq
    simp [List.replicate_succ] at hlist
  simp only [recoveryNameEnv] at h
  by_cases hp : p = 2
  · by_cases hq : q = 2
    · rw [hp, hq]
    · rw [if_pos hp, if_neg hq] at h
      exact absurd h (hhead q)
  · by_cases hq : q = 2
    · rw [if_neg hp, if_pos hq] at h
      exact absurd h.symm (hhead p)
    · rw [if_neg hp, if_neg hq] at h
      have hlength := congrArg String.length h
      simpa using hlength

/-- Node `recovery:a` scans the task and draws an execution id, but has not
locked yet; node `aa` draws the same id, claims the task and crashes.  Node `a`
starts to recover that execution and its lock, too, expires before its
statement.  Meanwhile `recovery:a` locks, under the owner value of the recovery,
and claims the task once it is recovered.  The `unlock` of the recovery then
removes the lock of `recovery:a`, and after a cancel and an enable node `a`
dispatches the task a second time. -/
def recoveryNameRun : List Action :=
  [.boot 2 0 1] ++ runs 0 4 ++ [.boot 1 2 3] ++ runs 2 8 ++ [.crash 1, .redisClock 60, .dbClock 200,
    .boot 0 4 5] ++ runs 4 2 ++ [.redisClock 120] ++ runs 0 3 ++ runs 4 1 ++ runs 0 1 ++ runs 4 1 ++
  [.request 0 6 { request := .cancelTask "t" } {}] ++ runs 6 1 ++
  [.request 0 7 { request := .enableTask "t" true } {}] ++ runs 7 2 ++ runs 4 7

/-- The task is executed twice at the same time although all node ids are
distinct and Redis keeps every lock of a dispatch in progress. -/
theorem scheduled_executions_overlap :
    ∃ env s₀ trace s, Run (step env) s₀ trace s ∧ (∀ tid, s₀.threads tid = none) ∧
      (∀ p q, (env.node p).nodeId = (env.node q).nodeId → p = q) ∧
      (∀ τ ∈ trace, LockKept false env τ) ∧
      ∃ id tid tid' th th', s.threads tid = some th ∧ s.threads tid' = some th' ∧
        th.pc.executing = some id ∧ th'.pc.executing = some id ∧ tid ≠ tid' := by
  obtain ⟨s, hrun, hboth⟩ := exists_run_of_execute (s := sampleState)
    (p := fun s =>
      ((s.threads 0).bind fun th => th.pc.executing) == some "t" &&
        ((s.threads 4).bind fun th => th.pc.executing) == some "t")
    (show (execute (step recoveryNameEnv) sampleState recoveryNameRun).any _ = true by decide)
  have hkept := lockKept_of_keepsLocks (r := false) (n := 8) hrun (fun _ => rfl) (by decide)
    (by decide)
  simp only [Bool.and_eq_true, beq_iff_eq, Option.bind_eq_some_iff] at hboth
  obtain ⟨⟨th, hth, hexec⟩, th', hth', hexec'⟩ := hboth
  exact ⟨recoveryNameEnv, sampleState, _, s, hrun, fun _ => rfl, recoveryNameEnv_distinct, hkept,
    "t", 0, 4, th, th', hth, hth', hexec, hexec', by decide⟩

end Corpcron
