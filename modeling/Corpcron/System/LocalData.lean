import Corpcron.System.Deployment

/-!
# What a thread carries from one step to a later one

Handlers and the scheduler read a task, do something else, and then write
columns back as they were read.  What a thread carries from the read to the
write is followed through its program counters by `carried`: a property of the
program counter that the read establishes and that the thread's own steps keep
still holds at the write.  The other threads play no part in this; they act on
the row in the meantime.
-/

namespace Corpcron

open Lib

variable {env : Env} {s s' s₀ : State} {τ : SystemTransition} {trace : List SystemTransition}
  {tid p : Nat} {inp : Input} {stmt : Statement} {P : Pc → Prop}

/-- The thread that makes the step of a transition, with its program counter. -/
def SystemTransition.runs? (τ : SystemTransition) : Option (Nat × Pc) :=
  match τ.action with
  | .run tid _ => (τ.pre.threads tid).map fun th => (tid, th.pc)
  | _ => none

theorem SystemTransition.runs?_eq_some {pc : Pc} :
    τ.runs? = some (tid, pc) ↔
      ∃ inp p, τ.action = .run tid inp ∧ τ.pre.threads tid = some ⟨p, pc⟩ := by
  constructor
  · intro h
    unfold SystemTransition.runs? at h
    split at h
    · rename_i tid' inp haction
      obtain ⟨⟨p, pc'⟩, hth, heq⟩ := Option.map_eq_some_iff.mp h
      simp only [Prod.mk.injEq] at heq
      obtain ⟨rfl, rfl⟩ := heq
      exact ⟨inp, p, haction, hth⟩
    · simp at h
  · rintro ⟨inp, p, haction, hth⟩
    simp [SystemTransition.runs?, haction, hth]

/-- The statement of a transition is the one its thread is about to execute. -/
theorem SystemTransition.access_of_statement {pc : Pc} (hruns : τ.runs? = some (tid, pc))
    (hstmt : statement? env τ.pre τ.action = some stmt) :
    ∃ cfg, pc.access env.platform cfg = .db (.update stmt) := by
  obtain ⟨inp, p, haction, hth⟩ := runs?_eq_some.mp hruns
  rw [haction] at hstmt
  simp only [statement?, hth, Option.bind_some, Access.statement?_eq_some] at hstmt
  exact ⟨env.node p, hstmt.2⟩

/-- The step of a transition is one of the thread `tid`, at a program counter
with the given property. -/
def SystemTransition.runsAt (tid : Nat) (at? : Pc → Bool) (τ : SystemTransition) : Bool :=
  τ.runs?.any fun x => x.1 == tid && at? x.2

theorem SystemTransition.runsAt_iff {at? : Pc → Bool} :
    τ.runsAt tid at? = true ↔ ∃ pc, τ.runs? = some (tid, pc) ∧ at? pc = true := by
  constructor
  · intro h
    simp only [SystemTransition.runsAt, Option.any_eq_true, Bool.and_eq_true, beq_iff_eq] at h
    obtain ⟨⟨t, pc⟩, hruns, rfl, hat⟩ := h
    exact ⟨pc, hruns, hat⟩
  · rintro ⟨pc, hruns, hat⟩
    simp [SystemTransition.runsAt, hruns, hat]

/-- An `UPDATE` of a thread that returns true: the row it has found and the row
it leaves. -/
theorem SystemTransition.rows_of_returned {pc : Pc} {stmt : NodeConfig → Statement}
    (hstep : step env τ.pre τ.action = some τ.post) (hruns : τ.runs? = some (tid, pc))
    (haccess : ∀ cfg, pc.access env.platform cfg = .db (.update (stmt cfg)))
    (hupdate : ∀ cfg, (stmt cfg).isUpdate = true) (hreturned : τ.returned env = true) :
    ∃ cfg r, τ.pre.stores.tasks.find? (stmt cfg).taskId = some r ∧
      (stmt cfg).guard τ.pre.stores.now r = true ∧
      τ.post.stores.tasks.find? (stmt cfg).taskId =
        some ((stmt cfg).assign τ.pre.stores.now r) := by
  obtain ⟨inp, p, haction, hth⟩ := runs?_eq_some.mp hruns
  obtain ⟨hstmt, -⟩ := statement_of_returned
    (thread?_eq_some.mpr ⟨tid, inp, haction, hth⟩) (haccess (env.node p)) hreturned
  obtain ⟨r, hrows⟩ := post_of_returned hstep hstmt (hupdate _) hreturned
  exact ⟨env.node p, r, hrows⟩

/-- Along a run a thread keeps what its own steps keep, unless its process
crashes. -/
theorem thread_keeps_of_advance (hrun : Run (step env) s trace s') (hdead : P .dead)
    (hmove : ∀ x ∈ trace, ∀ p pc inp, x.action = .run tid inp →
      x.pre.threads tid = some ⟨p, pc⟩ → P pc → P (Thread.advance env inp x.pre.stores ⟨p, pc⟩).pc)
    (hinit : ∃ th, s.threads tid = some th ∧ P th.pc) :
    ∃ th, s'.threads tid = some th ∧ P th.pc := by
  apply hrun.invariant (P := fun s => ∃ th, s.threads tid = some th ∧ P th.pc) hinit
  rintro x hx hstep ⟨⟨p, pc⟩, hth, hpc⟩
  rcases thread_step hstep hth with ⟨hstays, -⟩ | ⟨inp, haction, hmoves⟩ | ⟨q, -, hdies⟩
  · exact ⟨_, hstays, hpc⟩
  · exact ⟨_, hmoves, hmove x hx p pc inp haction hth hpc⟩
  · exact ⟨_, hdies, hdead⟩

/-- The same for what a step keeps whatever the reply of its call is. -/
theorem thread_keeps (hrun : Run (step env) s trace s') (hdead : P .dead)
    (hmove : ∀ x ∈ trace, ∀ p pc inp reply, x.runs? = some (tid, pc) → P pc →
      P (pc.next env.platform (env.node p) inp reply))
    (hinit : ∃ th, s.threads tid = some th ∧ P th.pc) :
    ∃ th, s'.threads tid = some th ∧ P th.pc := by
  apply thread_keeps_of_advance hrun hdead _ hinit
  intro x hx p pc inp haction hth
  exact hmove x hx p pc inp _ (SystemTransition.runs?_eq_some.mpr ⟨inp, p, haction, hth⟩)

/-- What the step `τ` of a thread establishes and its later steps keep holds
when the thread makes the step `τ'`. -/
theorem carried_of_advance {before between after : List SystemTransition} {τ' : SystemTransition}
    {pc pc' : Pc} (hrun : Run (step env) s₀ (before ++ τ :: (between ++ τ' :: after)) s)
    (haction : τ.action = .run tid inp) (hth : τ.pre.threads tid = some ⟨p, pc⟩)
    (hτ' : τ'.runs? = some (tid, pc')) (hdead : P .dead)
    (hfirst : P (Thread.advance env inp τ.pre.stores ⟨p, pc⟩).pc)
    (hmove : ∀ x ∈ between, ∀ p pc inp, x.action = .run tid inp →
      x.pre.threads tid = some ⟨p, pc⟩ → P pc →
      P (Thread.advance env inp x.pre.stores ⟨p, pc⟩).pc) : P pc' := by
  obtain ⟨-, hstep, hlater⟩ := hrun.split
  rw [haction] at hstep
  have hpost : ∃ th, τ.post.threads tid = some th ∧ P th.pc :=
    ⟨_, thread_of_run hstep hth, hfirst⟩
  obtain ⟨th', hth', hP⟩ := thread_keeps_of_advance hlater.split.1 hdead hmove hpost
  obtain ⟨inp', p', -, hbefore⟩ := SystemTransition.runs?_eq_some.mp hτ'
  rw [hbefore, Option.some.injEq] at hth'
  subst hth'
  exact hP

/-- The same for what a step keeps whatever the reply of its call is. -/
theorem carried {before between after : List SystemTransition} {τ' : SystemTransition} {pc pc' : Pc}
    (hrun : Run (step env) s₀ (before ++ τ :: (between ++ τ' :: after)) s)
    (hτ : τ.runs? = some (tid, pc)) (hτ' : τ'.runs? = some (tid, pc')) (hdead : P .dead)
    (hfirst : ∀ p inp, τ.action = .run tid inp → τ.pre.threads tid = some ⟨p, pc⟩ →
      P (Thread.advance env inp τ.pre.stores ⟨p, pc⟩).pc)
    (hmove : ∀ x ∈ between, ∀ p pc inp reply, x.runs? = some (tid, pc) → P pc →
      P (pc.next env.platform (env.node p) inp reply)) : P pc' := by
  obtain ⟨inp, p, haction, hth⟩ := SystemTransition.runs?_eq_some.mp hτ
  apply carried_of_advance hrun haction hth hτ' hdead (hfirst p inp haction hth)
  intro x hx p pc inp haction hth
  exact hmove x hx p pc inp _ (SystemTransition.runs?_eq_some.mpr ⟨inp, p, haction, hth⟩)

end Corpcron
