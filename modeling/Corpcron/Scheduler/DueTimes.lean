import Corpcron.Scheduler.Dispatch

/-!
# Due times through their text

`next_run_at` is written by `to_datetime_string` as local time and read back by
`parse_datetime`.  The text does not say whether daylight saving is in force:
`localtime_r` has applied it, while `mktime` is given `tm_isdst = 0` and takes
every text for standard time.  What is read back is therefore the instant moved
by what daylight saving adds to it, and a due time survives exactly when that is
nothing (`due_time_read_back_iff`).

Two more instants do not survive.  `mktime` reports errors as `-1`, so the last
second before 1970 is taken for an error; and a `system_clock::time_point`
counts nanoseconds in 64 bits, which is too little for a timestamp after 2262.
-/

namespace Corpcron

/-! ## Zones -/

/-- A time zone, in seconds: its standard offset, and what daylight saving adds
to it at an instant, zero outside the daylight saving periods. -/
structure Zone where
  standard : Int
  saving : Int → Int

namespace Zone

/-- `localtime_r`. -/
def localtime (z : Zone) (sec : Int) : DateTime := sec + (z.standard + z.saving sec)

/-- `mktime` with `tm_isdst = 0`; `none` for `-1`. -/
def mktime (z : Zone) (civil : DateTime) : Option Int :=
  if civil - z.standard = -1 then none else some (civil - z.standard)

/-- No other instant has the same local time. -/
def Unambiguous (z : Zone) (sec : Int) : Prop :=
  ∀ sec', z.localtime sec' = z.localtime sec → sec' = sec

end Zone

/-- The C library works in zone `z`. -/
structure Platform.InZone (pf : Platform) (z : Zone) : Prop where
  localtime : ∀ sec : Nat, pf.localtime sec = z.localtime sec
  mktime : ∀ civil, pf.mktime civil = z.mktime civil

/-! ## Instants -/

/-- Nanoseconds in a second. -/
def nanos : Int := 1000000000

/-- `std::chrono::system_clock::time_point`: nanoseconds in 64 bits. -/
structure TimePoint where
  ns : Int
  range : -2 ^ 63 ≤ ns ∧ ns < 2 ^ 63

/-- The arguments of the two overloads of `to_datetime_string`. -/
inductive Instant where
  | timePoint (tp : TimePoint)
  | timestampMs (ms : UInt64)

namespace Instant

/-- The `time_t` of an instant: `to_time_t` truncates towards zero. -/
def seconds : Instant → Int
  | .timePoint tp => tp.ns.tdiv nanos
  | .timestampMs ms => (ms.toNat / 1000 : Nat)

/-- `to_datetime_string`. -/
def toDatetimeString (pf : Platform) (z : Zone) : Instant → Option DateTime
  | .timePoint tp =>
      let civil := z.localtime (tp.ns.tdiv nanos)
      if civil < yearTenThousand then some civil else none
  | .timestampMs ms => Corpcron.toDatetimeString pf ms.toNat

/-- The instant, in whole seconds, is a time point of the system clock. -/
def Representable (due : Instant) : Prop :=
  -2 ^ 63 ≤ due.seconds * nanos ∧ due.seconds * nanos < 2 ^ 63

end Instant

/-- First civil second of the year 0. -/
def yearZero : DateTime := -62167219200

/-- The years that `%Y` writes and reads with four digits. -/
def HasText (civil : DateTime) : Prop := yearZero ≤ civil ∧ civil < yearTenThousand

/-! ## Reading a due time -/

/-- What `parse_datetime` makes of a text. -/
inductive Parsed where
  | rejected
  /-- The multiplication in `from_time_t` overflows, which is undefined. -/
  | overflow
  | at (tp : TimePoint)

/-- `from_time_t`. -/
def fromTimeT (sec : Int) : Parsed :=
  if h : -2 ^ 63 ≤ sec * nanos ∧ sec * nanos < 2 ^ 63 then .at ⟨sec * nanos, h⟩ else .overflow

/-- `parse_datetime` with its out parameter. -/
def readBack (pf : Platform) (value : Option DateTime) : Parsed :=
  match parseDatetime pf value with
  | none => .rejected
  | some sec => fromTimeT sec

/-- The due time is read back as the instant it was written for, in whole
seconds. -/
def Instant.ReadsBack (pf : Platform) (z : Zone) (due : Instant) : Prop :=
  ∃ tp, readBack pf (due.toDatetimeString pf z) = .at tp ∧ tp.ns = due.seconds * nanos

/-- `overdue` of `scanAndDispatch`. -/
def overdueSeconds (dueNs nowNs : Int) : Int := (nowNs - dueNs).tdiv nanos

/-- The argument of `observeScheduleDelay` when the due time is known. -/
def scheduleDelayMs (dueNs nowNs : Int) : Nat := ((nowNs - dueNs).tdiv 1000000).toNat

/-- What `scanAndDispatch` tells `observeScheduleDelay`; `none` if that is
undefined. -/
def observedDelay (pf : Platform) (task : TaskMeta) (nowNs : Int) : Option Nat :=
  match readBack pf task.nextRunAt with
  | .rejected => some 0
  | .overflow => none
  | .at tp => some (scheduleDelayMs tp.ns nowNs)

section ReadBack

variable {pf : Platform} {z : Zone}

/-- Both overloads write the local time of the second. -/
theorem Instant.toDatetimeString_eq (hzone : pf.InZone z) {due : Instant}
    (htext : HasText (z.localtime due.seconds)) :
    due.toDatetimeString pf z = some (z.localtime due.seconds) := by
  cases due with
  | timePoint tp => exact if_pos htext.2
  | timestampMs ms =>
      have hlocal : pf.localtime (ms.toNat / 1000) =
          z.localtime (Instant.timestampMs ms).seconds := hzone.localtime _
      change (if pf.localtime (ms.toNat / 1000) < yearTenThousand then
        some (pf.localtime (ms.toNat / 1000)) else none) = _
      rw [hlocal]
      exact if_pos htext.2

theorem parseDatetime_text (hzone : pf.InZone z) {due : Instant}
    (htext : HasText (z.localtime due.seconds)) :
    parseDatetime pf (due.toDatetimeString pf z) =
      if due.seconds + z.saving due.seconds = -1 then none
      else some (due.seconds + z.saving due.seconds) := by
  have hstandard : z.localtime due.seconds - z.standard =
      due.seconds + z.saving due.seconds := by
    change (due.seconds + (z.standard + z.saving due.seconds) : Int) - z.standard = _
    omega
  rw [Instant.toDatetimeString_eq hzone htext, parseDatetime, Option.bind_some, hzone.mktime,
    Zone.mktime, hstandard]

/-- Every text is taken for standard time. -/
theorem readBack_text (hzone : pf.InZone z) {due : Instant}
    (htext : HasText (z.localtime due.seconds)) :
    readBack pf (due.toDatetimeString pf z) =
      if due.seconds + z.saving due.seconds = -1 then .rejected
      else fromTimeT (due.seconds + z.saving due.seconds) := by
  rw [readBack, parseDatetime_text hzone htext]
  by_cases hminus : due.seconds + z.saving due.seconds = -1
  · rw [if_pos hminus, if_pos hminus]
  · rw [if_neg hminus, if_neg hminus]

theorem fromTimeT_eq_at {sec : Int} {tp : TimePoint} (h : fromTimeT sec = .at tp) :
    tp.ns = sec * nanos := by
  unfold fromTimeT at h
  split at h
  · cases h
    rfl
  · cases h

theorem readsBack_iff (hzone : pf.InZone z) {due : Instant}
    (htext : HasText (z.localtime due.seconds)) :
    due.ReadsBack pf z ↔
      z.saving due.seconds = 0 ∧ due.seconds ≠ -1 ∧ due.Representable := by
  unfold Instant.ReadsBack
  rw [readBack_text hzone htext]
  constructor
  · rintro ⟨tp, hread, hns⟩
    split at hread
    · cases hread
    · rename_i hvalid
      have hshifted := fromTimeT_eq_at hread
      have hrange := tp.range
      rw [hns] at hshifted hrange
      have hsaving : z.saving due.seconds = 0 := by
        unfold nanos at hshifted
        omega
      refine ⟨hsaving, ?_, hrange⟩
      rw [hsaving, Int.add_zero] at hvalid
      exact hvalid
  · rintro ⟨hsaving, hvalid, hrange⟩
    rw [hsaving, Int.add_zero, if_neg hvalid]
    exact ⟨⟨_, hrange⟩, dif_pos hrange, rfl⟩

/-- `duration_cast` of a negative duration. -/
theorem tdiv_of_nonpos {x k : Int} (hx : x ≤ 0) : x.tdiv k = -(-x / k) := by
  rw [← Int.tdiv_eq_ediv_of_nonneg (by omega), Int.neg_tdiv, Int.neg_neg]

/-- Truncated to seconds a time point is still one. -/
theorem representable_timePoint (tp : TimePoint) : (Instant.timePoint tp).Representable := by
  obtain ⟨hlow, hhigh⟩ := tp.range
  change -2 ^ 63 ≤ tp.ns.tdiv nanos * nanos ∧ tp.ns.tdiv nanos * nanos < 2 ^ 63
  unfold nanos
  rcases Int.le_total 0 tp.ns with hns | hns
  · rw [Int.tdiv_eq_ediv_of_nonneg hns]
    omega
  · rw [tdiv_of_nonpos hns]
    omega

/-! ## What the scheduler makes of it -/

/-- Above zero, truncation is rounding down. -/
theorem lt_tdiv_iff {g x k : Int} (hg : 0 ≤ g) (hk : 0 < k) : g < x.tdiv k ↔ g < x / k := by
  rcases Int.le_total 0 x with hx | hx
  · rw [Int.tdiv_eq_ediv_of_nonneg hx]
  · have hquotient : x / k ≤ 0 := Int.ediv_nonpos_of_nonpos_of_neg hx hk
    have htruncated : 0 ≤ -x / k := Int.ediv_nonneg (by omega) hk.le
    rw [tdiv_of_nonpos hx]
    omega

/-- The clock reading goes through milliseconds in `misfireSkip`; this makes no
difference to the decision. -/
theorem overdue_ms_iff {nowNs dueSec grace : Int} (hnow : 0 ≤ nowNs) :
    max 0 grace < (((nowNs / 1000000).toNat : Int) - dueSec * 1000).tdiv 1000 ↔
      max 0 grace < overdueSeconds (dueSec * nanos) nowNs := by
  have hgrace : 0 ≤ max 0 grace := Int.le_max_left 0 grace
  unfold overdueSeconds
  rw [lt_tdiv_iff hgrace (by decide), lt_tdiv_iff hgrace (by decide),
    Int.toNat_of_nonneg (by omega)]
  unfold nanos
  omega

theorem misfireSkip_isSome_iff {cfg : NodeConfig} {task : TaskMeta} {nowMs : Nat} {dueSec : Int}
    (hdue : parseDatetime pf task.nextRunAt = some dueSec) :
    (misfireSkip pf cfg task nowMs).isSome = true ↔
      cfg.misfirePolicy = "skip" ∧
        max 0 cfg.misfireGraceSeconds < ((nowMs : Int) - dueSec * 1000).tdiv 1000 := by
  unfold misfireSkip
  rw [hdue]
  by_cases hpolicy : cfg.misfirePolicy = "skip"
  · by_cases hlate : max 0 cfg.misfireGraceSeconds < ((nowMs : Int) - dueSec * 1000).tdiv 1000
    · simp only [hpolicy, if_true, Option.bind_some, gt_iff_lt, hlate, and_self, iff_true]
      split <;> rfl
    · simp only [hpolicy, if_true, Option.bind_some, gt_iff_lt, hlate, if_false, and_false,
        Option.isSome_none, Bool.false_eq_true]
  · simp [hpolicy]

end ReadBack

/-- In whatever zone, a due time whose local time has a text is read back as
itself, in whole seconds, if and only if daylight saving adds nothing at that
instant, `mktime` does not take it for an error, and the system clock can
represent it, which it can for every time point.  In general it is read back
moved by what daylight saving adds.  If it is read back, the misfire decision and
the schedule delay are those of the true due time. -/
theorem due_time_read_back_iff {pf : Platform} {z : Zone} (hzone : pf.InZone z) (due : Instant)
    (htext : HasText (z.localtime due.seconds)) :
    (due.ReadsBack pf z ↔
      z.saving due.seconds = 0 ∧ due.seconds ≠ -1 ∧ due.Representable) ∧
    (∀ tp, due = .timePoint tp → due.Representable) ∧
    (due.seconds + z.saving due.seconds ≠ -1 →
      readBack pf (due.toDatetimeString pf z) =
        fromTimeT (due.seconds + z.saving due.seconds)) ∧
    (due.ReadsBack pf z → ∀ (cfg : NodeConfig) (task : TaskMeta) (nowNs : Int),
      task.nextRunAt = due.toDatetimeString pf z → 0 ≤ nowNs →
      ((misfireSkip pf cfg task (nowNs / 1000000).toNat).isSome = true ↔
        cfg.misfirePolicy = "skip" ∧
          max 0 cfg.misfireGraceSeconds < overdueSeconds (due.seconds * nanos) nowNs) ∧
      observedDelay pf task nowNs = some (scheduleDelayMs (due.seconds * nanos) nowNs)) := by
  refine ⟨readsBack_iff hzone htext, ?_, ?_, ?_⟩
  · rintro tp rfl
    exact representable_timePoint tp
  · intro hvalid
    rw [readBack_text hzone htext, if_neg hvalid]
  · intro hback cfg task nowNs hnext hnow
    obtain ⟨hsaving, hvalid, -⟩ := (readsBack_iff hzone htext).mp hback
    obtain ⟨tp, hread, hns⟩ := hback
    have hparsed : parseDatetime pf task.nextRunAt = some due.seconds := by
      rw [hnext, parseDatetime_text hzone htext, hsaving, Int.add_zero, if_neg hvalid]
    constructor
    · rw [misfireSkip_isSome_iff hparsed, overdue_ms_iff hnow]
    · rw [← hnext] at hread
      rw [observedDelay, hread]
      exact congrArg (fun ns => some (scheduleDelayMs ns nowNs)) hns

/-- The C library in zone `z`, with a cron library that finds nothing. -/
def Zone.platform (z : Zone) : Platform where
  localtime sec := z.localtime sec
  mktime := z.mktime
  cronNext _ _ := none
  cronNext_range := fun _ _ _ h => by cases h

theorem Zone.platform_inZone (z : Zone) : z.platform.InZone z := ⟨fun _ => rfl, fun _ => rfl⟩

/-- Central Europe in 2024: one hour is added from 31 March to 27 October, at
1:00 UTC. -/
def centralEurope : Zone where
  standard := 3600
  saving sec := if 1711846800 ≤ sec ∧ sec < 1729990800 then 3600 else 0

/-- Noon UTC on 15 January 2024. -/
theorem due_time_read_back_iff_winter :
    (Instant.timestampMs 1705320000000).ReadsBack centralEurope.platform centralEurope ∧
    observedDelay centralEurope.platform
      { id := "task-1"
        nextRunAt := (Instant.timestampMs 1705320000000).toDatetimeString
          centralEurope.platform centralEurope }
      (1705321800 * nanos) = some 1800000 := by
  have hguarantee := due_time_read_back_iff centralEurope.platform_inZone
    (.timestampMs 1705320000000) (by unfold HasText; decide)
  have hback := hguarantee.1.mpr ⟨by decide, by decide, by unfold Instant.Representable; decide⟩
  have hdelay := (hguarantee.2.2.2 hback { nodeId := "node-1" } { id := "task-1", nextRunAt := _ }
    (1705321800 * nanos) rfl (by decide)).2
  exact ⟨hback, hdelay.trans (by decide +kernel)⟩

/-- A task due at noon UTC on 15 July 2024, a time that no other instant has on
the clocks of the zone, and scanned half an hour later.  Its due time is read
back an hour late, so a grace of five minutes does not make it a misfire, and the
delay is reported as zero. -/
theorem summer_due_time_read_late :
    centralEurope.Unambiguous (Instant.timestampMs 1721044800000).seconds ∧
    HasText (centralEurope.localtime (Instant.timestampMs 1721044800000).seconds) ∧
    ¬(Instant.timestampMs 1721044800000).ReadsBack centralEurope.platform centralEurope ∧
    ∃ task : TaskMeta,
      task.nextRunAt = (Instant.timestampMs 1721044800000).toDatetimeString
        centralEurope.platform centralEurope ∧
      overdueSeconds (1721044800 * nanos) (1721046600 * nanos) = 1800 ∧
      misfireSkip centralEurope.platform
        { nodeId := "node-1", misfirePolicy := "skip", misfireGraceSeconds := 300 }
        task 1721046600000 = none ∧
      scheduleDelayMs (1721044800 * nanos) (1721046600 * nanos) = 1800000 ∧
      observedDelay centralEurope.platform task (1721046600 * nanos) = some 0 := by
  have hseconds : (Instant.timestampMs 1721044800000).seconds = 1721044800 := by decide
  have htext : HasText (centralEurope.localtime (Instant.timestampMs 1721044800000).seconds) := by
    unfold HasText
    decide
  have hparsed := parseDatetime_text centralEurope.platform_inZone htext
  refine ⟨?_, htext, ?_, { id := "task-1", nextRunAt := _ }, rfl, by decide, ?_, by decide, ?_⟩
  · rw [hseconds]
    intro sec' hsame
    change (sec' + (3600 + if 1711846800 ≤ sec' ∧ sec' < 1729990800 then 3600 else 0) : Int) =
      1721044800 + (3600 + 3600) at hsame
    split at hsame <;> omega
  · rw [readsBack_iff centralEurope.platform_inZone htext]
    rintro ⟨hsaving, -⟩
    exact absurd hsaving (by decide)
  · rw [← Option.not_isSome_iff_eq_none, misfireSkip_isSome_iff (hparsed.trans (if_neg (by decide)))]
    decide +kernel
  · decide +kernel

end Corpcron
