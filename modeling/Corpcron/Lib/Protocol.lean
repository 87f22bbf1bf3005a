import Corpcron.Lib.Program

/-!
# Programs that keep to an automaton

`p.Obeys δ phase post` says that the operations of `p`, started in `phase`, are
transitions of the automaton `δ`, and that `p` ends with a result and in a phase
that `post` allows, whatever the replies are.  Like `Only` it is proved along the
text of a program (`obeys_bind`); a part whose operations do not move the
automaton needs no more than `Only` (`Only.obeys`).
-/

namespace Corpcron
namespace Lib
namespace Program

universe u v x

variable {Op : Type u} {Reply : Op → Type v} {α β : Type v} {Phase : Type x}

/-- The operations are transitions of `δ`, from `phase` to an end in `post`. -/
def Obeys (δ : Phase → Op → Option Phase) :
    Program Reply α → Phase → (α → Phase → Prop) → Prop
  | done a, phase, post => post a phase
  | call op next, phase, post =>
      ∃ phase', δ phase op = some phase' ∧ ∀ reply, (next reply).Obeys δ phase' post

variable {δ : Phase → Op → Option Phase} {phase : Phase}

theorem obeys_bind {p : Program Reply α} {f : α → Program Reply β} {mid : α → Phase → Prop}
    {post : β → Phase → Prop} (hp : p.Obeys δ phase mid)
    (hf : ∀ a phase', mid a phase' → (f a).Obeys δ phase' post) :
    (p >>= f).Obeys δ phase post := by
  induction p generalizing phase with
  | done a => exact hf a phase hp
  | call op next ih =>
      obtain ⟨phase', hstep, hnext⟩ := hp
      exact ⟨phase', hstep, fun reply => ih reply (hnext reply)⟩

theorem Only.obeys {P : Op → Prop} {p : Program Reply α} (hp : p.Only P)
    (hstay : ∀ op, P op → δ phase op = some phase) :
    p.Obeys δ phase fun _ phase' => phase' = phase := by
  induction p with
  | done a => rfl
  | call op next ih => exact ⟨phase, hstay op hp.1, fun reply => ih reply (hp.2 reply)⟩

end Program
end Lib
end Corpcron
