import Mathlib.Init

/-!
# Programs that use an interface

A `Program` either is done or performs one operation of an interface and goes
on with its reply.  What the operations do is left open: a `World` answers them
from a state that they may change, and `run` and `trace` are the result of a
program and the operations it has performed in a given world.

`Only P` says that a program performs no operation outside `P`, whatever the
replies are.  It is proved along the text of a program (`only_bind`) and carries
over to every run (`Only.trace`).  A program that learns nothing from its
operations has one result (`Only.result_eq`): this is how the independence of a
result from the state of the world is shown.
-/

namespace Corpcron
namespace Lib

universe u v x

/-- A program over operations `op`, each answered by a `Reply op`. -/
inductive Program {Op : Type u} (Reply : Op → Type v) (α : Type v) : Type (max u v) where
  | done (result : α)
  | call (op : Op) (next : Reply op → Program Reply α)

namespace Program

variable {Op : Type u} {Reply : Op → Type v} {α β : Type v} {σ : Type x}

/-- Run the second program on the result of the first. -/
protected def bind : Program Reply α → (α → Program Reply β) → Program Reply β
  | done a, f => f a
  | call op next, f => call op fun reply => (next reply).bind f

instance : Monad (Program Reply) where
  pure := done
  bind := Program.bind

/-- Perform one operation. -/
def perform (op : Op) : Program Reply (Reply op) := call op done

@[simp] theorem pure_eq (a : α) : (pure a : Program Reply α) = done a := rfl

@[simp] theorem done_bind (a : α) (f : α → Program Reply β) : (done a >>= f) = f a := rfl

@[simp] theorem call_bind (op : Op) (next : Reply op → Program Reply α)
    (f : α → Program Reply β) : (call op next >>= f) = call op fun reply => next reply >>= f := rfl

@[simp] theorem perform_bind (op : Op) (f : Reply op → Program Reply β) :
    (perform op >>= f) = call op f := rfl

/-! ## Runs -/

/-- Answers to the operations, from a state that they may change. -/
abbrev World (Reply : Op → Type v) (σ : Type x) := (op : Op) → σ → Reply op × σ

/-- The result of a program and the state it leaves. -/
def run (world : World Reply σ) : Program Reply α → σ → α × σ
  | done a, s => (a, s)
  | call op next, s => (next (world op s).1).run world (world op s).2

/-- The operations a program performs, with their replies. -/
def trace (world : World Reply σ) : Program Reply α → σ → List ((op : Op) × Reply op)
  | done _, _ => []
  | call op next, s => ⟨op, (world op s).1⟩ :: (next (world op s).1).trace world (world op s).2

@[simp] theorem run_done (world : World Reply σ) (a : α) (s : σ) :
    (done a : Program Reply α).run world s = (a, s) := rfl

@[simp] theorem run_call (world : World Reply σ) (op : Op) (next : Reply op → Program Reply α)
    (s : σ) : (call op next).run world s = (next (world op s).1).run world (world op s).2 := rfl

theorem run_bind (world : World Reply σ) (p : Program Reply α) (f : α → Program Reply β) (s : σ) :
    (p >>= f).run world s = (f (p.run world s).1).run world (p.run world s).2 := by
  induction p generalizing s with
  | done a => rfl
  | call op next ih => exact ih _ _

theorem trace_bind (world : World Reply σ) (p : Program Reply α) (f : α → Program Reply β)
    (s : σ) : (p >>= f).trace world s =
      p.trace world s ++ (f (p.run world s).1).trace world (p.run world s).2 := by
  induction p generalizing s with
  | done a => rfl
  | call op next ih => exact congrArg (_ :: ·) (ih _ _)

/-! ## Results -/

/-- The program can end with `b`: some replies lead there. -/
def Returns : Program Reply α → α → Prop
  | done a, b => a = b
  | call _ next, b => ∃ reply, (next reply).Returns b

@[simp] theorem returns_done {a b : α} : (done a : Program Reply α).Returns b ↔ a = b := Iff.rfl

@[simp] theorem returns_call {op : Op} {next : Reply op → Program Reply α} {b : α} :
    (call op next).Returns b ↔ ∃ reply, (next reply).Returns b := Iff.rfl

theorem returns_run (world : World Reply σ) (p : Program Reply α) (s : σ) :
    p.Returns (p.run world s).1 := by
  induction p generalizing s with
  | done a => rfl
  | call op next ih => exact ⟨_, ih _ _⟩

/-! ## Behaviours -/

/-- The program can perform these operations, with these replies, and end with
`b`. -/
def Performs : Program Reply α → List ((op : Op) × Reply op) → α → Prop
  | done a, events, b => events = [] ∧ a = b
  | call op next, events, b =>
      ∃ reply later, events = ⟨op, reply⟩ :: later ∧ (next reply).Performs later b

@[simp] theorem performs_done {a b : α} {events : List ((op : Op) × Reply op)} :
    (done a : Program Reply α).Performs events b ↔ events = [] ∧ a = b := Iff.rfl

theorem performs_bind {p : Program Reply α} {f : α → Program Reply β} {b : β}
    {events : List ((op : Op) × Reply op)} (h : (p >>= f).Performs events b) :
    ∃ first later a, events = first ++ later ∧ p.Performs first a ∧ (f a).Performs later b := by
  induction p generalizing events with
  | done a => exact ⟨[], events, a, rfl, ⟨rfl, rfl⟩, h⟩
  | call op next ih =>
      obtain ⟨reply, rest, rfl, hrest⟩ := h
      obtain ⟨first, later, a, rfl, hp, hf⟩ := ih reply hrest
      exact ⟨⟨op, reply⟩ :: first, later, a, rfl, ⟨reply, first, rfl, hp⟩, hf⟩

/-- What a program can end with it ends with after some operations. -/
theorem exists_performs_of_returns {p : Program Reply α} {a : α} (h : p.Returns a) :
    ∃ events, p.Performs events a := by
  induction p with
  | done b => exact ⟨[], rfl, h⟩
  | call op next ih =>
      obtain ⟨reply, hreply⟩ := h
      obtain ⟨events, hevents⟩ := ih reply hreply
      exact ⟨⟨op, reply⟩ :: events, reply, events, rfl, hevents⟩

/-- A run is one of the behaviours. -/
theorem performs_run (world : World Reply σ) (p : Program Reply α) (s : σ) :
    p.Performs (p.trace world s) (p.run world s).1 := by
  induction p generalizing s with
  | done a => exact ⟨rfl, rfl⟩
  | call op next ih => exact ⟨_, _, rfl, ih _ _⟩

/-! ## What a program may perform -/

/-- No operation outside `P` is performed, whatever the replies. -/
def Only (P : Op → Prop) : Program Reply α → Prop
  | done _ => True
  | call op next => P op ∧ ∀ reply, (next reply).Only P

variable {P : Op → Prop}

@[simp] theorem only_done (a : α) : (done a : Program Reply α).Only P := trivial

@[simp] theorem only_call {op : Op} {next : Reply op → Program Reply α} :
    (call op next).Only P ↔ P op ∧ ∀ reply, (next reply).Only P := Iff.rfl

@[simp] theorem only_perform {op : Op} : (perform op : Program Reply _).Only P ↔ P op :=
  ⟨fun h => h.1, fun h => ⟨h, fun _ => trivial⟩⟩

theorem only_bind {p : Program Reply α} {f : α → Program Reply β} (hp : p.Only P)
    (hf : ∀ a, (f a).Only P) : (p >>= f).Only P := by
  induction p with
  | done a => exact hf a
  | call op next ih => exact ⟨hp.1, fun reply => ih reply (hp.2 reply)⟩

@[simp] theorem only_ite {c : Prop} [Decidable c] {p q : Program Reply α} :
    (if c then p else q).Only P ↔ (c → p.Only P) ∧ (¬c → q.Only P) := by
  by_cases hc : c <;> simp [hc]

/-- A program performs nothing that it may not perform. -/
theorem Only.performs {p : Program Reply α} {a : α} {events : List ((op : Op) × Reply op)}
    (hp : p.Only P) (h : p.Performs events a) : ∀ step ∈ events, P step.1 := by
  induction p generalizing events with
  | done b => simp [h.1]
  | call op next ih =>
      obtain ⟨reply, later, rfl, hnext⟩ := h
      intro step hstep
      rcases List.mem_cons.mp hstep with rfl | hlater
      · exact hp.1
      · exact ih reply (hp.2 reply) hnext step hlater

theorem Only.trace {p : Program Reply α} (hp : p.Only P) (world : World Reply σ) (s : σ) :
    ∀ step ∈ p.trace world s, P step.1 :=
  hp.performs (performs_run world p s)

/-- A program whose operations have only one possible reply has only one
result, in whatever world and state. -/
theorem Only.result_eq {σ' : Type x} {p : Program Reply α} (hp : p.Only P)
    (hblind : ∀ op, P op → Subsingleton (Reply op)) (world : World Reply σ)
    (world' : World Reply σ') (s : σ) (s' : σ') : (p.run world s).1 = (p.run world' s').1 := by
  induction p generalizing s s' with
  | done a => rfl
  | call op next ih =>
      have hone := hblind op hp.1
      rw [run_call, run_call, Subsingleton.elim (world' op s').1 (world op s).1]
      exact ih _ (hp.2 _) _ _

end Program
end Lib
end Corpcron
