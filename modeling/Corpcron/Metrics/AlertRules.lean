import Corpcron.Lib.Rounding
import Corpcron.Rpc.Messages

/-!
# Alert rules

`AlertRules::evaluate` derives alerts from one `MetricsSnapshot`: three of them
compare a percentage with a threshold, two a percentile.  A percentage is
computed in `long double`, whose mantissa has 64 bits, and truncated; product
and quotient are both rounded.  The rounding does not carry a percentage over
100 as long as the part is not larger than the whole (`percent_le_hundred`).
-/

namespace Corpcron
namespace AlertRules

open Lib

/-! ## Percentages -/

/-- Significant bits of a `long double`. -/
def longDoublePrecision : Nat := 64

/-- `percent`: a `uint64_t` is converted without rounding, the quotient is in
units of `2 ^ -128`. -/
def percent (part total : Nat) : Nat :=
  if total = 0 then 0
  else
    let product := roundNearest longDoublePrecision (part * 100)
    roundRatio longDoublePrecision (product * 2 ^ 128) total / 2 ^ 128

theorem percent_le_hundred {part total : Nat} (h : part ≤ total) : percent part total ≤ 100 := by
  unfold percent
  split
  · exact Nat.zero_le 100
  · rename_i hne
    have hpos : 0 < total := Nat.pos_of_ne_zero hne
    -- The product may be rounded up, but not beyond the next representable
    -- number, and 100.5 is representable.
    obtain ⟨v, hv, hle, hclose⟩ := exists_representable (p := longDoublePrecision) (by decide)
      (part * 100)
    have hproduct : roundNearest longDoublePrecision (part * 100) ≤ v := roundNearest_le hv hle
    have hhalf : Representable longDoublePrecision (201 * 2 ^ 127) :=
      (representable_of_lt (by decide)).mul_two_pow 127
    have hdouble : 2 * roundNearest longDoublePrecision (part * 100) ≤ 201 * total := by
      simp only [longDoublePrecision, Nat.add_one_sub_one, Nat.reducePow] at hclose hproduct ⊢
      omega
    have hquotient : roundNearest longDoublePrecision (part * 100) * 2 ^ 128 ≤
        201 * 2 ^ 127 * total := by
      calc
        roundNearest longDoublePrecision (part * 100) * 2 ^ 128
            = 2 * roundNearest longDoublePrecision (part * 100) * 2 ^ 127 := by
          rw [Nat.pow_succ 2 127, Nat.mul_comm 2, Nat.mul_assoc, Nat.mul_comm 2]
        _ ≤ 201 * total * 2 ^ 127 := Nat.mul_le_mul_right _ hdouble
        _ = 201 * 2 ^ 127 * total := Nat.mul_right_comm _ _ _
    have hround := roundRatio_le hpos hhalf hquotient
    exact Nat.lt_succ_iff.mp ((Nat.div_lt_iff_lt_mul (Nat.two_pow_pos 128)).mpr
      (Nat.lt_of_le_of_lt hround (by decide)))

/-! ## Alerts -/

/-- `AlertRuleConfig`. -/
structure AlertRuleConfig where
  minRpcRequests : Nat := 100
  rpcErrorRatePercent : Nat := 5
  minTaskExecutions : Nat := 10
  taskFailureRatePercent : Nat := 20
  minLockAttempts : Nat := 10
  lockFailureRatePercent : Nat := 50
  scheduleDelayP99Ms : Nat := 5000
  taskDurationP99Ms : Nat := 10000

/-- `Alert`. -/
structure Alert where
  name : String
  severity : String
  message : String
  observed : Nat
  threshold : Nat
deriving DecidableEq

/-- `addRatioAlert`. -/
def addRatioAlert (alerts : List Alert) (name message : String)
    (total part minTotal thresholdPercent : Nat) : List Alert :=
  if total < minTotal then alerts
  else if percent part total ≥ thresholdPercent then
    alerts ++ [⟨name, "warning", message, percent part total, thresholdPercent⟩]
  else alerts

/-- `addLatencyAlert`. -/
def addLatencyAlert (alerts : List Alert) (name message : String)
    (samples observedMs thresholdMs : Nat) : List Alert :=
  if samples = 0 ∨ thresholdMs = 0 then alerts
  else if observedMs ≥ thresholdMs then
    alerts ++ [⟨name, "warning", message, observedMs, thresholdMs⟩]
  else alerts

/-- `AlertRules::evaluate`. -/
def evaluate (snapshot : MetricsSnapshot) (config : AlertRuleConfig) : List Alert :=
  let alerts := addRatioAlert [] "rpc_error_rate_high" "RPC error rate is above threshold"
    snapshot.rpcRequestsTotal snapshot.rpcErrorTotal
    config.minRpcRequests config.rpcErrorRatePercent
  let taskExecutions := snapshot.taskSuccessTotal + snapshot.taskFailureTotal
  let alerts := addRatioAlert alerts "task_failure_rate_high"
    "Task failure rate is above threshold"
    taskExecutions snapshot.taskFailureTotal
    config.minTaskExecutions config.taskFailureRatePercent
  let lockAttempts := snapshot.lockAcquireSuccessTotal + snapshot.lockAcquireFailureTotal
  let alerts := addRatioAlert alerts "lock_failure_rate_high"
    "Redis lock acquire failure rate is high"
    lockAttempts snapshot.lockAcquireFailureTotal
    config.minLockAttempts config.lockFailureRatePercent
  let alerts := addLatencyAlert alerts "schedule_delay_p99_high"
    "Schedule delay p99 is above threshold"
    snapshot.scheduleDelaySamplesTotal snapshot.scheduleDelayP99Ms config.scheduleDelayP99Ms
  addLatencyAlert alerts "task_duration_p99_high" "Task duration p99 is above threshold"
    snapshot.taskDurationSamplesTotal snapshot.taskDurationP99Ms config.taskDurationP99Ms

section Members

variable {alerts : List Alert} {name message : String} {alert : Alert}

theorem mem_addRatioAlert {total part minTotal thresholdPercent : Nat} :
    alert ∈ addRatioAlert alerts name message total part minTotal thresholdPercent ↔
      alert ∈ alerts ∨ minTotal ≤ total ∧ thresholdPercent ≤ percent part total ∧
        alert = ⟨name, "warning", message, percent part total, thresholdPercent⟩ := by
  unfold addRatioAlert
  split
  · rename_i hfew
    simp [Nat.not_le.mpr hfew]
  · rename_i hmany
    rw [Nat.not_lt] at hmany
    split
    · rename_i hhigh
      simp [hmany, hhigh]
    · rename_i hlow
      simp [hlow]

theorem mem_addLatencyAlert {samples observedMs thresholdMs : Nat} :
    alert ∈ addLatencyAlert alerts name message samples observedMs thresholdMs ↔
      alert ∈ alerts ∨ (samples ≠ 0 ∧ thresholdMs ≠ 0) ∧ thresholdMs ≤ observedMs ∧
        alert = ⟨name, "warning", message, observedMs, thresholdMs⟩ := by
  unfold addLatencyAlert
  split
  · rename_i hoff
    simp only [← not_or, hoff, not_true, false_and, or_false]
  · rename_i hon
    rw [← not_or]
    split
    · rename_i hhigh
      simp [hon, hhigh]
    · rename_i hlow
      simp [hlow]

end Members

/-- The alert on the error rate carries the percentage of errors. -/
theorem mem_evaluate_rpcErrorRate {snapshot : MetricsSnapshot} {config : AlertRuleConfig}
    {alert : Alert} (hname : alert.name = "rpc_error_rate_high") :
    alert ∈ evaluate snapshot config ↔
      config.minRpcRequests ≤ snapshot.rpcRequestsTotal ∧
      config.rpcErrorRatePercent ≤ percent snapshot.rpcErrorTotal snapshot.rpcRequestsTotal ∧
      alert = ⟨"rpc_error_rate_high", "warning", "RPC error rate is above threshold",
        percent snapshot.rpcErrorTotal snapshot.rpcRequestsTotal, config.rpcErrorRatePercent⟩ := by
  have hother : ∀ name, name ≠ "rpc_error_rate_high" → ∀ severity message observed threshold,
      (alert = ⟨name, severity, message, observed, threshold⟩) = False := by
    intro name hne severity message observed threshold
    refine eq_false ?_
    rintro rfl
    exact hne hname
  simp only [evaluate, mem_addLatencyAlert, mem_addRatioAlert, List.not_mem_nil, false_or,
    hother "task_failure_rate_high" (by decide), hother "lock_failure_rate_high" (by decide),
    hother "schedule_delay_p99_high" (by decide), hother "task_duration_p99_high" (by decide),
    and_false, or_false]

end AlertRules
end Corpcron
