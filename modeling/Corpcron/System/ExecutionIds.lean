import Corpcron.System.TableInvariant

/-!
# Execution ids

The scheduler numbers its executions `<task>:<time>:<sequence>`, `RunTaskNow`
names them `manual:<task>:<uuid>`.  A task id may contain any characters, colons
included, so one format could be read as the other; for one and the same task it
cannot, because a time begins with a digit.

`numberedPc_of_run` says that the threads of a run use ids of these formats.
Together they tell a row that a dispatch has claimed from one that a manual
execution has claimed.
-/

namespace Corpcron

open Lib

/-! ## The two formats -/

/-- If a word that ends in `:` can be put in front of `id:`, the rest begins
with the word. -/
theorem eq_append_of_shift {word : List Char} (hword : ':' ∉ word) :
    ∀ (id u w : List Char),
      (word ++ [':']) ++ (id ++ ':' :: u) = id ++ ':' :: w → w = (word ++ [':']) ++ u := by
  intro id
  -- By induction on the length of `id`, from which the word is cut off in front.
  induction hlen : id.length using Nat.strong_induction_on generalizing id with
  | _ n ih =>
      intro u w heq
      have hleft : word ++ [':'] <+: id ++ ':' :: w := ⟨_, heq⟩
      by_cases hshort : (word ++ [':']).length ≤ id.length
      · obtain ⟨rest, rfl⟩ : word ++ [':'] <+: id :=
          List.prefix_of_prefix_length_le hleft (List.prefix_append _ _) hshort
        have hless : rest.length < n := by
          rw [← hlen]
          simp only [List.length_append, List.length_singleton]
          omega
        apply ih rest.length hless rest rfl u w
        rw [List.append_assoc (word ++ [':']) rest] at heq
        exact List.append_cancel_left (heq.trans (List.append_assoc _ _ _))
      · have hright : id ++ [':'] <+: id ++ ':' :: w := ⟨w, by simp⟩
        have hin : id ++ [':'] <+: word ++ [':'] := by
          apply List.prefix_of_prefix_length_le hright hleft
          simp only [List.length_append, List.length_singleton] at hshort ⊢
          omega
        rw [List.prefix_concat_iff] at hin
        rcases hin with hsame | hinside
        · obtain rfl : id = word := List.append_cancel_right hsame
          have hrest : (id ++ [':']) ++ ((id ++ [':']) ++ u) = (id ++ [':']) ++ w := by
            simpa using heq
          exact (List.append_cancel_left hrest).symm
        · exact absurd (hinside.subset (by simp)) hword

/-- A manual execution never has the id of a scheduled one of the same task. -/
theorem manualExecutionId_ne (taskId uuid : String) (nowMs sequence : Nat) :
    manualExecutionId taskId uuid ≠ nextExecutionId taskId nowMs sequence := by
  intro heq
  have hlist : ("manual".toList ++ [':']) ++ (taskId.toList ++ ':' :: uuid.toList) =
      taskId.toList ++ ':' ::
        ((toString nowMs).toList ++ ':' :: (toString sequence).toList) := by
    have h := congrArg String.toList heq
    simpa [manualExecutionId, nextExecutionId] using h
  have hdigits := eq_append_of_shift (by decide) _ _ _ hlist
  rw [Nat.toString_eq_repr, Nat.toList_repr] at hdigits
  cases htime : Nat.toDigits 10 nowMs with
  | nil => exact Nat.toDigits_ne_nil htime
  | cons c cs =>
      rw [htime] at hdigits
      have hdigit : c.isDigit = true :=
        Nat.isDigit_of_mem_toDigits (b := 10) (n := nowMs) (by decide) (by decide)
          (by rw [htime]; exact List.mem_cons_self)
      have hc : c = 'm' := (List.cons.inj hdigits).1
      rw [hc] at hdigit
      exact absurd hdigit (by decide)

/-! ## The ids of the threads -/

/-- The id of a dispatch is one that `next_execution_id` gives for its task. -/
def Dispatch.Numbered (d : Dispatch) : Prop :=
  ∃ nowMs sequence, d.executionId = nextExecutionId d.task.id nowMs sequence

/-- The id of a manual execution is one that `RunTaskNow` makes for its task. -/
def ManualRun.Numbered (m : ManualRun) : Prop :=
  ∃ uuid, m.executionId = manualExecutionId m.task.id uuid

/-- The thread works under an id of its kind. -/
def NumberedPc : Pc → Prop
  | .scheduler (.dispatching _ d _) => d.Numbered
  | .execution d _ => d.Numbered
  | .handler (.claiming m) => m.Numbered
  | .handler (.invoking m _) => m.Numbered
  | .handler (.recording m _ _ _) => m.Numbered
  | .handler (.completing m _ _ _) => m.Numbered
  | .handler (.abandoned m _) => m.Numbered
  | _ => True

theorem numberedPc_recoverRest (rest : List TaskMeta) :
    NumberedPc (.scheduler (recoverRest rest)) := by
  cases rest <;> trivial

theorem numberedPc_begin (pf : Platform) (cfg : NodeConfig) (inp : Input) (pass : Pass) :
    NumberedPc (.scheduler (pass.begin pf cfg inp)) := by
  unfold Pass.begin
  split
  · trivial
  · split
    · trivial
    · split
      · trivial
      · trivial
      · dsimp only
        split <;> trivial

theorem numberedPc_next {pf : Platform} {cfg : NodeConfig} {inp : Input} {reply : Reply} {pc : Pc}
    (h : NumberedPc pc) : NumberedPc (pc.next pf cfg inp reply) := by
  cases pc with
  | scheduler pc =>
      cases pc with
      | scanningStale => exact numberedPc_recoverRest _
      | recovery rest task stage =>
          cases stage with
          | locking =>
              simp only [Pc.next, SchedulerPc.next]
              split
              · trivial
              · exact numberedPc_recoverRest rest
          | recovering => trivial
          | unlocking => exact numberedPc_recoverRest rest
      | iterating pass => exact numberedPc_begin pf cfg inp pass
      | numbering pass task => exact ⟨_, _, rfl⟩
      | dispatching pass d stage =>
          cases stage <;> simp only [Pc.next, SchedulerPc.next, DispatchStage.next] <;>
            (repeat' split) <;> first | exact h | trivial
      | skipping pass skip =>
          simp only [Pc.next, SchedulerPc.next]
          split <;> trivial
      | sleeping =>
          simp only [Pc.next, SchedulerPc.next]
          split <;> trivial
      | _ => trivial
  | execution d stage => exact h
  | handler pc =>
      cases pc with
      | runReading taskId =>
          simp only [Pc.next, HandlerPc.next]
          rcases afterRunRead_cases inp reply.task with ⟨response, hr⟩ | ⟨m, -, hid, hr⟩
          · rw [hr]
            trivial
          · rw [hr]
            exact ⟨inp.uuid, hid⟩
      | updateReading info =>
          simp only [Pc.next, HandlerPc.next]
          rcases afterUpdateRead_cases pf inp info reply.task with ⟨r, hr⟩ | ⟨_, _, _, -, hr⟩ <;>
            rw [hr] <;> trivial
      | enableReading taskId enabled text =>
          simp only [Pc.next, HandlerPc.next]
          rcases afterEnableRead_cases pf inp taskId enabled text reply.task with
            ⟨r, hr⟩ | ⟨-, hr⟩ | ⟨_, _, -, -, hr⟩ <;> rw [hr] <;> trivial
      | deleteReading taskId =>
          simp only [Pc.next, HandlerPc.next]
          rcases afterDeleteRead_cases taskId reply.task with ⟨r, hr⟩ | hr <;> rw [hr] <;> trivial
      | updating task idle =>
          simp only [Pc.next, HandlerPc.next]
          rcases afterUpdate_cases reply task.id with ⟨r, hr⟩ | hr <;> rw [hr] <;> trivial
      | enabling task nextRunAt =>
          simp only [Pc.next, HandlerPc.next]
          rcases afterUpdate_cases reply task.id with ⟨r, hr⟩ | hr <;> rw [hr] <;> trivial
      | _ =>
          simp only [Pc.next, HandlerPc.next]
          (repeat' split) <;> first | exact h | trivial
  | renewer pc => trivial
  | dead => trivial

/-- All threads of a run work under such ids. -/
theorem numberedPc_of_run {env : Env} {s₀ s : State} {trace : List SystemTransition}
    (hrun : Run (step env) s₀ trace s) (hstart : ∀ tid, s₀.threads tid = none) :
    ∀ tid th, s.threads tid = some th → NumberedPc th.pc := by
  apply threads_invariant (P := fun _ pc => NumberedPc pc) hrun hstart
  · exact fun _ => trivial
  · exact fun _ => ⟨trivial, trivial⟩
  · intro τ _ p tid call inp _
    have hbegins := beginCall_begins env.platform (env.node p) inp call
    generalize beginCall env.platform (env.node p) inp call = pc at hbegins
    generalize call.request = request at hbegins
    cases hbegins <;> trivial
  · intro p pc inp d hpc hspawn
    obtain ⟨pass, rfl, -⟩ := Pc.spawned_eq_some hspawn
    exact hpc
  · exact fun _ _ _ _ _ _ _ hpc => numberedPc_next hpc

/-- A claim with the id of a dispatch is made by a scheduler thread. -/
theorem dispatch_of_claim {env : Env} {s₀ s : State} {trace : List SystemTransition} {a : Action}
    {d : Dispatch} {node : String} {expected : Int} {next : Option DateTime}
    (hrun : Run (step env) s₀ trace s) (hstart : ∀ tid, s₀.threads tid = none) (hd : d.Numbered)
    (hstmt : statement? env s a =
      some (.claimTaskExecution d.task.id d.executionId node expected next)) :
    ∃ tid inp p pass d', a = .run tid inp ∧ inp.fault = false ∧
      s.threads tid = some ⟨p, .scheduler (.dispatching pass d' .claiming)⟩ ∧
      d'.task.id = d.task.id ∧ d'.executionId = d.executionId := by
  obtain ⟨tid, inp, ⟨p, pc⟩, haction, hth, hfault, hissues⟩ := issuer_of_statement hstmt
  generalize hid : d.task.id = id at hissues
  generalize hexec : d.executionId = e at hissues
  cases hissues with
  | claim pass d' => exact ⟨tid, inp, p, pass, d', haction, hfault, hth, rfl, rfl⟩
  | manualClaim m =>
      obtain ⟨uuid, huuid⟩ : m.Numbered := numberedPc_of_run hrun hstart tid _ hth
      obtain ⟨nowMs, sequence, hnumber⟩ := hd
      rw [hid, hexec, huuid] at hnumber
      exact absurd hnumber (manualExecutionId_ne _ _ _ _)

end Corpcron
