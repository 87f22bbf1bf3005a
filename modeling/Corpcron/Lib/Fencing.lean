import Corpcron.Lib.Trace

/-!
# Fenced ownership

The abstract purpose of an execution id stored beside a resource: at most one
token owns the resource, only the owning token can release it, and whoever has
lost ownership can never act on it again.  A register holds the current owner.
It is taken when free (`acquired`), given back by its owner (`released`) or
taken away from its owner by a third party (`revoked`); every other operation
leaves it alone (`silent`).

A system refines the register when an observation `owner` of its states and an
`event` for each of its transitions make every transition a step of the
register.  Two facts about whole histories of such a system follow.

* `last_acquired`: while `t` owns the register, the last event that was not
  silent is the acquisition by `t`.
* `acquired_balance`: each acquisition by `t` is matched by exactly one step
  that ends the ownership of `t`, except a last one that is still open.
-/

namespace Corpcron
namespace Lib
namespace Fencing

/-- What happened to the ownership register in one step. -/
inductive FenceEvent (τ : Type*) where
  | silent
  | acquired (token : τ)
  | released (token : τ)
  | revoked (token : τ)
deriving DecidableEq

variable {τ : Type*} [DecidableEq τ]

/-- The register.  A release or a revocation is possible for the current owner
only, an acquisition only while there is none. -/
def fenceStep : Option τ → FenceEvent τ → Option (Option τ)
  | owner, .silent => some owner
  | none, .acquired token => some (some token)
  | some _, .acquired _ => none
  | none, .released _ => none
  | some owner, .released token => if owner = token then some none else none
  | none, .revoked _ => none
  | some owner, .revoked token => if owner = token then some none else none

/-- What a step of the register can be.  A release and a revocation both clear an
owner, which has to be the token they name. -/
theorem fenceStep_cases {owner next : Option τ} {event : FenceEvent τ}
    (h : fenceStep owner event = some next) :
    (event = .silent ∧ next = owner) ∨
    (∃ token, event = .acquired token ∧ owner = none ∧ next = some token) ∨
    ∃ token, (event = .released token ∨ event = .revoked token) ∧ owner = some token ∧
      next = none := by
  cases event with
  | silent =>
      left
      cases owner <;> exact ⟨rfl, (Option.some.inj h).symm⟩
  | acquired token =>
      right; left
      cases owner with
      | none => exact ⟨token, rfl, rfl, (Option.some.inj h).symm⟩
      | some current => cases h
  | _ token =>
      right; right
      cases owner with
      | none => cases h
      | some current =>
          obtain ⟨rfl, hnext⟩ := Option.ite_none_right_eq_some.mp h
          exact ⟨current, by simp, rfl, (Option.some.inj hnext).symm⟩

/-- Whoever is cleared was the owner. -/
theorem fenceStep_cleared {owner next : Option τ} {event : FenceEvent τ} {token : τ}
    (h : fenceStep owner event = some next)
    (hevent : event = .released token ∨ event = .revoked token) :
    owner = some token ∧ next = none := by
  rcases fenceStep_cases h with ⟨rfl, -⟩ | ⟨_, rfl, -⟩ | ⟨other, hother, howner, hnext⟩
  · simp at hevent
  · simp at hevent
  · obtain rfl : other = token := by
      rcases hother with rfl | rfl <;> simpa using hevent
    exact ⟨howner, hnext⟩

/-! ## Histories of a system that refines the register -/

section Refinement

variable {σ α : Type*} {step : σ → α → Option σ}
variable (owner : σ → Option τ) (event : Transition σ α → FenceEvent τ)

/-- Every transition of the trace is one step of the register. -/
def Refines (trace : List (Transition σ α)) : Prop :=
  ∀ x ∈ trace, fenceStep (owner x.pre) (event x) = some (owner x.post)

variable {owner event}

theorem Refines.left {first second : List (Transition σ α)}
    (h : Refines owner event (first ++ second)) : Refines owner event first :=
  fun x hx => h x (List.mem_append_left _ hx)

/-- The last event that touched an owned register is its owner's acquisition,
and the owner has not changed since. -/
theorem last_acquired {s s' : σ} {trace : List (Transition σ α)} {token : τ}
    (hrun : Run step s trace s') (hrefines : Refines owner event trace)
    (hfree : owner s = none) (howner : owner s' = some token) :
    ∃ before x after, trace = before ++ x :: after ∧ event x = .acquired token ∧
      ∀ y ∈ after, event y = .silent ∧ owner y.pre = some token := by
  induction hrun with
  | nil =>
      rw [hfree] at howner
      simp at howner
  | @snoc m s' trace a hrun hstep ih =>
      have hlast := hrefines ⟨m, a, s'⟩ (by simp)
      simp only [howner] at hlast
      rcases fenceStep_cases hlast with ⟨hevent, hm⟩ | ⟨other, hevent, -, hother⟩ | ⟨_, -, -, hnone⟩
      · -- The acquisition is the one found for the run so far.
        obtain ⟨before, x, after, htrace, hx, hsilent⟩ := ih hrefines.left hm.symm
        refine ⟨before, x, after ++ [⟨m, a, s'⟩], by simp [htrace], hx, ?_⟩
        intro y hy
        rcases List.mem_append.mp hy with hy | hy
        · exact hsilent y hy
        · simp only [List.mem_singleton] at hy
          subst hy
          exact ⟨hevent, hm.symm⟩
      · rw [Option.some.inj hother]
        exact ⟨trace, ⟨m, a, s'⟩, [], by simp, hevent, by simp⟩
      · cases hnone

/-- The register changes hands from `token` only by a release or a revocation
of `token`. -/
theorem ends_iff {x : Transition σ α} {token : τ}
    (h : fenceStep (owner x.pre) (event x) = some (owner x.post)) :
    (owner x.pre = some token ∧ owner x.post ≠ some token) ↔
      event x = .released token ∨ event x = .revoked token := by
  constructor
  · rintro ⟨hpre, hpost⟩
    rcases fenceStep_cases h with ⟨-, hsame⟩ | ⟨_, -, hnone, -⟩ | ⟨other, hevent, howner, -⟩
    · exact absurd (hsame.trans hpre) hpost
    · simp [hpre] at hnone
    · obtain rfl : token = other := Option.some.inj (hpre.symm.trans howner)
      exact hevent
  · intro hevent
    obtain ⟨hpre, hpost⟩ := fenceStep_cleared h hevent
    exact ⟨hpre, by simp [hpost]⟩

/-- Bookkeeping of one token: its acquisitions on one side, the steps that end
its ownership and the open acquisition on the other. -/
theorem acquired_balance {s s' : σ} {trace : List (Transition σ α)} (token : τ)
    (hrun : Run step s trace s') (hrefines : Refines owner event trace)
    (hfree : owner s = none) :
    trace.countP (fun x => decide (event x = .acquired token)) =
      trace.countP (fun x => decide (owner x.pre = some token ∧ owner x.post ≠ some token)) +
        (if owner s' = some token then 1 else 0) := by
  induction hrun with
  | nil => simp [hfree]
  | @snoc m s' trace a hrun hstep ih =>
      have hbalance := ih hrefines.left
      have hlast := hrefines ⟨m, a, s'⟩ (by simp)
      simp only [List.countP_append, List.countP_singleton, decide_eq_true_eq]
      simp only at hlast
      by_cases hacquired : event ⟨m, a, s'⟩ = .acquired token
      · -- The register was free and is now owned: one acquisition more, still open.
        obtain ⟨hm, hs'⟩ : owner m = none ∧ owner s' = some token := by
          rw [hacquired] at hlast
          simpa using fenceStep_cases hlast
        simp only [hm, hs', hacquired, if_true] at hbalance ⊢
        simp only [reduceCtorEq, false_and, if_false] at hbalance ⊢
        omega
      · by_cases hend : owner m = some token ∧ owner s' ≠ some token
        · simp only [hacquired, hend, if_true, if_false] at hbalance ⊢
          simp [hend.2] at hbalance ⊢
          omega
        · -- Neither acquired nor ended: the token owns the register after iff it did before.
          have hsame : owner s' = some token ↔ owner m = some token := by
            constructor
            · intro hs'
              by_contra hm
              apply hacquired
              rcases fenceStep_cases hlast with
                ⟨-, hsame⟩ | ⟨other, hevent, -, hother⟩ | ⟨_, -, -, hnone⟩
              · exact absurd (hsame.symm.trans hs') hm
              · obtain rfl : token = other := Option.some.inj (hs'.symm.trans hother)
                exact hevent
              · simp [hs'] at hnone
            · intro hm
              by_contra hs'
              exact hend ⟨hm, hs'⟩
          simp only [hacquired, hend, if_false, hsame] at hbalance ⊢
          omega

end Refinement

end Fencing
end Lib
end Corpcron
