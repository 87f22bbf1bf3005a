import Corpcron.Scheduler.Dispatch

/-!
# The re-check of `LockRenewer::loop`

After the renewals the loop takes the mutex again and goes through its snapshot:
a lease of the snapshot that is still the registered one is dropped and its
source canceled if its renewal failed, and put off otherwise.
`Process.judgeLeases` is this part of the loop.  `Lease.verdict` says what it
does to one registered lease, whatever the order of the snapshot.
-/

namespace Corpcron

open Lib

namespace Lease

/-- The comparison of the re-check: `d` stands for the same execution as `l`. -/
def sameOwner (l d : Lease) : Bool := d.key == l.key && d.value == l.value

theorem sameOwner_iff {l d : Lease} :
    l.sameOwner d = true ↔ d.key = l.key ∧ d.value = l.value := by
  simp [sameOwner]

/-- What becomes of the registered lease `l` when the snapshot `due` with the
failed renewals `lost` is re-checked. -/
def verdict (steadyMs : Nat) (due lost : List Lease) (l : Lease) : Option Lease :=
  match due.find? l.sameOwner with
  | none => some l
  | some d =>
      if lost.any l.sameOwner then none
      else some { l with nextRenewAt := Process.nextRenewTime steadyMs d.ttlSec }

variable {steadyMs : Nat} {due lost : List Lease} {d l l' : Lease}

theorem verdict_cons_of_owner (hd : l.sameOwner d = true) :
    verdict steadyMs (d :: due) lost l =
      if lost.any l.sameOwner then none
      else some { l with nextRenewAt := Process.nextRenewTime steadyMs d.ttlSec } := by
  rw [verdict, List.find?_cons_of_pos hd]

theorem verdict_cons_of_not_owner (hd : ¬ l.sameOwner d = true) :
    verdict steadyMs (d :: due) lost l = verdict steadyMs due lost l := by
  rw [verdict, List.find?_cons_of_neg hd, verdict]

/-- A lease that is not in the snapshot is left alone. -/
theorem verdict_of_not_due (h : ∀ d ∈ due, ¬ l.sameOwner d = true) :
    verdict steadyMs due lost l = some l := by
  rw [verdict, List.find?_eq_none.mpr h]

/-- A lease of the snapshot whose renewal failed is dropped. -/
theorem verdict_of_lost (hdue : d ∈ due) (hd : l.sameOwner d = true)
    (hlost : lost.any l.sameOwner = true) : verdict steadyMs due lost l = none := by
  obtain ⟨d', hd'⟩ := Option.isSome_iff_exists.mp (List.find?_isSome.mpr ⟨d, hdue, hd⟩)
  rw [verdict, hd']
  exact if_pos hlost

/-- Any other lease stays, with the time of its next renewal. -/
theorem verdict_of_not_lost (hlost : ¬ lost.any l.sameOwner = true) :
    ∃ t, verdict steadyMs due lost l = some { l with nextRenewAt := t } := by
  unfold verdict
  cases due.find? l.sameOwner with
  | none => exact ⟨l.nextRenewAt, rfl⟩
  | some d => exact ⟨_, if_neg hlost⟩

/-- A lease keeps everything but its renewal time. -/
theorem verdict_some (h : verdict steadyMs due lost l = some l') :
    ∃ t, l' = { l with nextRenewAt := t } := by
  unfold verdict at h
  split at h
  · exact ⟨l.nextRenewAt, (Option.some.inj h).symm⟩
  · split at h
    · cases h
    · exact ⟨_, (Option.some.inj h).symm⟩

theorem key_of_verdict (h : verdict steadyMs due lost l = some l') : l'.key = l.key := by
  obtain ⟨t, rfl⟩ := verdict_some h
  rfl

/-- The snapshot is gone through one lease at a time. -/
theorem verdict_bind (hkeys : ∀ d' ∈ due, d'.key ≠ d.key) :
    (verdict steadyMs [d] lost l).bind (verdict steadyMs due lost) =
      verdict steadyMs (d :: due) lost l := by
  by_cases hd : l.sameOwner d = true
  · rw [verdict_cons_of_owner hd, verdict_cons_of_owner hd]
    split
    · rfl
    · -- The lease that was put off has the key of `d`, which is not in `due` again.
      apply verdict_of_not_due
      intro d' hd' hsame
      rw [sameOwner_iff] at hd hsame
      exact hkeys d' hd' (hsame.1.trans hd.1.symm)
  · rw [verdict_cons_of_not_owner hd, verdict_cons_of_not_owner hd]
    rfl

end Lease

/-- Dropping and changing rows under their keys keeps the keys distinct. -/
theorem nodup_keys_filterMap {leases : List Lease} {f : Lease → Option Lease}
    (hf : ∀ l l', f l = some l' → l'.key = l.key) (h : (leases.map Lease.key).Nodup) :
    ((leases.filterMap f).map Lease.key).Nodup := by
  refine h.sublist ?_
  clear h
  induction leases with
  | nil => exact List.Sublist.slnil
  | cons l rest ih =>
      cases hl : f l with
      | none =>
          rw [List.filterMap_cons_none hl]
          exact ih.cons _
      | some l' =>
          rw [List.filterMap_cons_some hl, List.map_cons, List.map_cons, hf l l' hl]
          exact ih.cons_cons _

namespace Process

variable {p : Process} {steadyMs : Nat} {lost due : List Lease} {d : Lease} {x : Nat}

/-- The re-check of the snapshot `due`, of which the renewals in `lost` failed. -/
def judgeLeases (p : Process) (steadyMs : Nat) (due lost : List Lease) : Process :=
  due.foldl (fun p lease => p.judgeLease steadyMs lost lease) p

/-- What the re-check of one lease of the snapshot finds: no registered lease of
its execution, or exactly one, which is dropped or put off. -/
theorem judgeLease_cases (hkeys : (p.leases.map Lease.key).Nodup) (steadyMs : Nat)
    (lost : List Lease) (d : Lease) :
    (p.judgeLease steadyMs lost d = p ∧ ∀ l ∈ p.leases, ¬ l.sameOwner d = true) ∨
    ∃ found ∈ p.leases, found.sameOwner d = true ∧ (∀ l ∈ p.leases, l.key = d.key → l = found) ∧
      (lost.any found.sameOwner = true ∧
          p.judgeLease steadyMs lost d =
            { p.cancel found.source with leases := p.leases.filter fun l => l.key != d.key } ∨
        lost.any found.sameOwner = false ∧
          p.judgeLease steadyMs lost d =
            { p with
              leases := p.leases.map fun l =>
                if l.key = d.key then { l with nextRenewAt := nextRenewTime steadyMs d.ttlSec }
                else l }) := by
  unfold judgeLease
  cases hfound : p.leases.find? (fun l => l.key == d.key) with
  | none =>
      refine .inl ⟨rfl, fun l hl howner => ?_⟩
      have hkey : l.key ≠ d.key := by simpa using List.find?_eq_none.mp hfound l hl
      exact hkey (Lease.sameOwner_iff.mp howner).1.symm
  | some found =>
      have hfoundKey : found.key = d.key := by simpa using List.find?_some hfound
      have hunique : ∀ l ∈ p.leases, l.key = d.key → l = found := fun l hl hkey =>
        List.inj_on_of_nodup_map hkeys hl (List.mem_of_find?_eq_some hfound)
          (hkey.trans hfoundKey.symm)
      dsimp only
      by_cases hvalue : found.value = d.value
      · rw [if_pos hvalue]
        have hany : lost.any (fun l => l.key == d.key && l.value == d.value) =
            lost.any found.sameOwner := by
          unfold Lease.sameOwner
          rw [hfoundKey, hvalue]
        rw [hany]
        refine .inr ⟨found, List.mem_of_find?_eq_some hfound,
          Lease.sameOwner_iff.mpr ⟨hfoundKey.symm, hvalue.symm⟩, hunique, ?_⟩
        cases hlost : lost.any found.sameOwner with
        | true => exact .inl ⟨rfl, rfl⟩
        | false => exact .inr ⟨rfl, rfl⟩
      · rw [if_neg hvalue]
        refine .inl ⟨rfl, fun l hl howner => ?_⟩
        obtain ⟨hkey, hsame⟩ := Lease.sameOwner_iff.mp howner
        rw [hunique l hl hkey.symm] at hsame
        exact hvalue hsame.symm

theorem judgeLease_leases (hkeys : (p.leases.map Lease.key).Nodup) :
    (p.judgeLease steadyMs lost d).leases =
      p.leases.filterMap (Lease.verdict steadyMs [d] lost) := by
  have hother : ∀ l : Lease, ¬ l.key = d.key → Lease.verdict steadyMs [d] lost l = some l := by
    intro l hkey
    rw [Lease.verdict_cons_of_not_owner fun h => hkey (Lease.sameOwner_iff.mp h).1.symm]
    rfl
  rcases judgeLease_cases hkeys steadyMs lost d with
    ⟨heq, hnone⟩ | ⟨found, hmem, howner, hunique, ⟨hlost, heq⟩ | ⟨hlost, heq⟩⟩
  · rw [heq]
    symm
    refine (List.filterMap_congr fun l hl => ?_).trans List.filterMap_some
    rw [Lease.verdict_cons_of_not_owner (hnone l hl)]
    rfl
  · rw [heq]
    dsimp only
    rw [← List.filterMap_eq_filter]
    refine List.filterMap_congr fun l hl => ?_
    by_cases hkey : l.key = d.key
    · rw [hunique l hl hkey, Lease.verdict_cons_of_owner howner, if_pos hlost]
      simp [(Lease.sameOwner_iff.mp howner).1]
    · rw [hother l hkey]
      simp [hkey]
  · rw [heq]
    dsimp only
    rw [← List.filterMap_eq_map]
    refine List.filterMap_congr fun l hl => ?_
    by_cases hkey : l.key = d.key
    · rw [hunique l hl hkey, Lease.verdict_cons_of_owner howner, hlost]
      simp [(Lease.sameOwner_iff.mp howner).1]
    · rw [hother l hkey]
      simp [hkey]

theorem judgeLease_canceled (hkeys : (p.leases.map Lease.key).Nodup) :
    (p.judgeLease steadyMs lost d).canceled x = true ↔
      p.canceled x = true ∨ ∃ l ∈ p.leases, l.source = x ∧ l.sameOwner d = true ∧
        lost.any l.sameOwner = true := by
  rcases judgeLease_cases hkeys steadyMs lost d with
    ⟨heq, hnone⟩ | ⟨found, hmem, howner, hunique, ⟨hlost, heq⟩ | ⟨hlost, heq⟩⟩
  · rw [heq, or_iff_left]
    rintro ⟨l, hl, -, howner, -⟩
    exact hnone l hl howner
  · have hcanceled : (p.judgeLease steadyMs lost d).canceled x =
        (x == found.source || p.canceled x) := by rw [heq]; rfl
    rw [hcanceled, Bool.or_eq_true, beq_iff_eq]
    constructor
    · rintro (rfl | hbefore)
      · exact .inr ⟨found, hmem, rfl, howner, hlost⟩
      · exact .inl hbefore
    · rintro (hbefore | ⟨l, hl, rfl, hl', -⟩)
      · exact .inr hbefore
      · left
        rw [hunique l hl (Lease.sameOwner_iff.mp hl').1.symm]
  · rw [heq, or_iff_left]
    rintro ⟨l, hl, -, hl', hlost'⟩
    rw [hunique l hl (Lease.sameOwner_iff.mp hl').1.symm, hlost] at hlost'
    cases hlost'

theorem judgeLease_keys (hkeys : (p.leases.map Lease.key).Nodup) :
    ((p.judgeLease steadyMs lost d).leases.map Lease.key).Nodup := by
  rw [judgeLease_leases hkeys]
  exact nodup_keys_filterMap (fun _ _ => Lease.key_of_verdict) hkeys

theorem judgeLeases_leases (hkeys : (p.leases.map Lease.key).Nodup)
    (hdue : (due.map Lease.key).Nodup) :
    (p.judgeLeases steadyMs due lost).leases =
      p.leases.filterMap (Lease.verdict steadyMs due lost) := by
  induction due generalizing p with
  | nil => exact List.filterMap_some.symm
  | cons d due ih =>
      rw [List.map_cons, List.nodup_cons] at hdue
      have hrest : ((p.judgeLease steadyMs lost d).judgeLeases steadyMs due lost).leases =
          (p.judgeLease steadyMs lost d).leases.filterMap (Lease.verdict steadyMs due lost) :=
        ih (judgeLease_keys hkeys) hdue.2
      refine hrest.trans ?_
      rw [judgeLease_leases hkeys, List.filterMap_filterMap]
      refine List.filterMap_congr fun l _ => Lease.verdict_bind fun d' hd' hkey => ?_
      exact hdue.1 (hkey ▸ List.mem_map_of_mem hd')

theorem judgeLeases_canceled (hkeys : (p.leases.map Lease.key).Nodup) :
    (p.judgeLeases steadyMs due lost).canceled x = true ↔
      p.canceled x = true ∨ ∃ l ∈ p.leases, l.source = x ∧ (∃ d ∈ due, l.sameOwner d = true) ∧
        lost.any l.sameOwner = true := by
  induction due generalizing p with
  | nil => simp [judgeLeases]
  | cons d due ih =>
      have hrest : ((p.judgeLease steadyMs lost d).judgeLeases steadyMs due lost).canceled x =
          true ↔ _ := ih (judgeLease_keys hkeys)
      refine hrest.trans ?_
      rw [judgeLease_canceled hkeys, judgeLease_leases hkeys]
      constructor
      · rintro ((hbefore | ⟨l, hl, hsource, howner, hlost⟩) | ⟨l', hl', hsource, hdue, hlost⟩)
        · exact .inl hbefore
        · exact .inr ⟨l, hl, hsource, ⟨d, List.mem_cons_self, howner⟩, hlost⟩
        · obtain ⟨l, hl, hverdict⟩ := List.mem_filterMap.mp hl'
          obtain ⟨t, rfl⟩ := Lease.verdict_some hverdict
          obtain ⟨d', hd', howner⟩ := hdue
          exact .inr ⟨l, hl, hsource, ⟨d', List.mem_cons_of_mem _ hd', howner⟩, hlost⟩
      · rintro (hbefore | ⟨l, hl, hsource, ⟨d', hd', howner⟩, hlost⟩)
        · exact .inl (.inl hbefore)
        · by_cases hd : l.sameOwner d = true
          · exact .inl (.inr ⟨l, hl, hsource, hd, hlost⟩)
          · -- Not the lease of `d`: it is still there when its turn comes.
            have hd'' : d' ∈ due := by
              rcases List.mem_cons.mp hd' with rfl | hmem
              · exact absurd howner hd
              · exact hmem
            refine .inr ⟨l, List.mem_filterMap.mpr ⟨l, hl, ?_⟩, hsource, ⟨d', hd'', howner⟩, hlost⟩
            rw [Lease.verdict_cons_of_not_owner hd]
            rfl

end Process

end Corpcron
