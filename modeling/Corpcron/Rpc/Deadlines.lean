import Corpcron.Rpc.ExecuteTask

/-!
# Two readings of a deadline

A deadline is a `uint64_t`, and 0 stands for none.  `handleExecuteTask` compares
it with the clock as unsigned words before it calls a handler.  The handler
`Sleep` compares the two as signed words before each of its slices.

`expired_eq_iff` says when the two comparisons agree, and
`executeTask_sleep_deadline` what this means for a call of `Sleep`.  A deadline
below 2^63 has one meaning, whatever the clock does after 1970.  A deadline from
2^63 on, such as the largest word, is in the far future for the first comparison
and in the past for the second.
-/

namespace Corpcron

open Lib RpcDispatcher

/-! ## The two comparisons -/

/-- The check of `handleExecuteTask`, with both sides as `uint64_t`. -/
def admissionExpired (nowMs deadlineUnixMs : BitVec 64) : Bool :=
  decide (deadlineUnixMs > 0) && decide (nowMs ≥ deadlineUnixMs)

/-- The check of `deadlineExceeded`, with both sides as `int64_t`. -/
def handlerExpired (nowMs deadlineUnixMs : BitVec 64) : Bool :=
  if deadlineUnixMs = 0 then false else deadlineUnixMs.sle nowMs

/-- On different halves of the words the two orders are opposite. -/
theorem sle_eq_iff_msb_eq (x y : BitVec 64) : x.sle y = decide (x ≤ y) ↔ y.msb = x.msb := by
  have hle : decide (x ≤ y) = !(y.ult x) := by
    rw [← BitVec.ule_eq_not_ult]
    rfl
  rw [hle, BitVec.sle_eq_not_slt, BitVec.slt_eq_ult]
  cases y.ult x <;> cases hy : y.msb <;> cases hx : x.msb <;> simp

/-- The comparisons agree if there is no deadline, and otherwise exactly if the
deadline and the clock have the same sign as `int64_t`. -/
theorem expired_eq_iff (nowMs deadlineUnixMs : BitVec 64) :
    admissionExpired nowMs deadlineUnixMs = handlerExpired nowMs deadlineUnixMs ↔
      deadlineUnixMs = 0 ∨ nowMs.msb = deadlineUnixMs.msb := by
  by_cases hzero : deadlineUnixMs = 0
  · subst hzero
    simp [admissionExpired, handlerExpired]
  · have hpos : deadlineUnixMs > 0 := by
      have hne : deadlineUnixMs.toNat ≠ 0 := fun h => hzero (BitVec.eq_of_toNat_eq h)
      exact Nat.pos_of_ne_zero hne
    simp only [admissionExpired, handlerExpired, hzero, hpos, decide_true, Bool.true_and,
      if_false, false_or]
    rw [eq_comm]
    exact sle_eq_iff_msb_eq deadlineUnixMs nowMs

/-! ## The comparisons in the programs -/

theorem toNat_word {n : Nat} (h : n < 2 ^ 64) : (BitVec.ofNat 64 n).toNat = n := by
  rw [BitVec.toNat_ofNat]
  exact Nat.mod_eq_of_lt h

theorem admissionExpired_ofNat {nowMs deadline : Nat} (hnow : nowMs < 2 ^ 64)
    (hdeadline : deadline < 2 ^ 64) :
    admissionExpired (BitVec.ofNat 64 nowMs) (BitVec.ofNat 64 deadline) = true ↔
      deadline > 0 ∧ nowMs ≥ deadline := by
  have hzero : (0 : BitVec 64).toNat = 0 := rfl
  simp only [admissionExpired, Bool.and_eq_true, decide_eq_true_eq, gt_iff_lt, ge_iff_le,
    BitVec.lt_def, BitVec.le_def, toNat_word hnow, toNat_word hdeadline, hzero]

/-- A deadline as `deadlineExceeded` reads it has been reached at `nowMs`. -/
def TaskExecutionContext.reachedAt (context : TaskExecutionContext) (nowMs : Int) : Prop :=
  context.deadlineUnixMs ≠ 0 ∧ (BitVec.ofNat 64 context.deadlineUnixMs).toInt ≤ nowMs

/-- `reachedAt` is the comparison of words. -/
theorem handlerExpired_iff_reachedAt {context : TaskExecutionContext} {nowMs : BitVec 64}
    (hdeadline : context.deadlineUnixMs < 2 ^ 64) :
    handlerExpired nowMs (BitVec.ofNat 64 context.deadlineUnixMs) = true ↔
      context.reachedAt nowMs.toInt := by
  have hzero : BitVec.ofNat 64 context.deadlineUnixMs = 0 ↔ context.deadlineUnixMs = 0 := by
    rw [← BitVec.toNat_inj, toNat_word hdeadline]
    rfl
  unfold handlerExpired TaskExecutionContext.reachedAt
  by_cases hnone : context.deadlineUnixMs = 0
  · simp [hnone]
  · rw [if_neg (mt hzero.mp hnone), BitVec.sle_iff_toInt_le]
    simp [hnone]

theorem toInt_deadline_of_lt {deadline : Nat} (h : deadline < 2 ^ 63) :
    (BitVec.ofNat 64 deadline).toInt = deadline := by
  rw [BitVec.toInt_eq_toNat_cond, toNat_word (Nat.lt_trans h (by decide))]
  split <;> omega

theorem toInt_deadline_neg {deadline : Nat} (hlow : 2 ^ 63 ≤ deadline)
    (hhigh : deadline < 2 ^ 64) : (BitVec.ofNat 64 deadline).toInt < 0 := by
  rw [BitVec.toInt_eq_toNat_cond, toNat_word hhigh]
  split <;> omega

/-- `deadlineExceeded` reads the clock once if there is a deadline. -/
theorem deadlineExceeded_performs {context : TaskExecutionContext}
    {events : List ((op : HandlerOp) × op.Reply)} {exceeded : Bool}
    (h : (deadlineExceeded context).Performs events exceeded) :
    context.deadlineUnixMs = 0 ∧ events = [] ∧ exceeded = false ∨
      context.deadlineUnixMs ≠ 0 ∧ ∃ nowMs : Int, events = [⟨.clock, nowMs⟩] ∧
        (exceeded = true ↔ context.reachedAt nowMs) := by
  unfold deadlineExceeded at h
  by_cases hnone : context.deadlineUnixMs = 0
  · rw [if_pos hnone] at h
    obtain ⟨rfl, rfl⟩ := h
    exact .inl ⟨hnone, rfl, rfl⟩
  · rw [if_neg hnone] at h
    obtain ⟨nowMs, later, rfl, rfl, rfl⟩ := h
    refine .inr ⟨hnone, nowMs, rfl, ?_⟩
    simp [TaskExecutionContext.reachedAt, hnone]

/-- The verdict of `deadlineExceeded` is that of the words. -/
theorem deadlineExceeded_verdict {context : TaskExecutionContext} {nowMs : BitVec 64}
    {exceeded : Bool} (hdeadline : context.deadlineUnixMs < 2 ^ 64)
    (h : (deadlineExceeded context).Performs [⟨.clock, nowMs.toInt⟩] exceeded) :
    exceeded = handlerExpired nowMs (BitVec.ofNat 64 context.deadlineUnixMs) := by
  rcases deadlineExceeded_performs h with ⟨-, hnone, -⟩ | ⟨-, m, hm, hiff⟩
  · cases hnone
  · cases hm
    rw [Bool.eq_iff_iff, handlerExpired_iff_reachedAt hdeadline]
    exact hiff

/-! ## `Sleep` -/

/-- The readings of the clock. -/
def readings (events : List ((op : HandlerOp) × op.Reply)) : List Int :=
  events.filterMap fun
    | ⟨.clock, nowMs⟩ => some nowMs
    | ⟨.sleepFor _, _⟩ => none

/-- The slices slept. -/
def slices (events : List ((op : HandlerOp) × op.Reply)) : List Nat :=
  events.filterMap fun
    | ⟨.clock, _⟩ => none
    | ⟨.sleepFor ms, _⟩ => some ms

theorem readings_append (xs ys : List ((op : HandlerOp) × op.Reply)) :
    readings (xs ++ ys) = readings xs ++ readings ys := List.filterMap_append

theorem slices_append (xs ys : List ((op : HandlerOp) × op.Reply)) :
    slices (xs ++ ys) = slices xs ++ slices ys := List.filterMap_append

/-- A check alone: it sleeps not at all, and its reading decides. -/
theorem deadlineExceeded_readings {context : TaskExecutionContext}
    {events : List ((op : HandlerOp) × op.Reply)} {exceeded : Bool}
    (h : (deadlineExceeded context).Performs events exceeded) :
    slices events = [] ∧
      (exceeded = true → ∃ nowMs ∈ readings events, context.reachedAt nowMs) ∧
      (exceeded = false → ∀ nowMs ∈ readings events, ¬context.reachedAt nowMs) := by
  rcases deadlineExceeded_performs h with ⟨-, rfl, rfl⟩ | ⟨-, nowMs, rfl, hiff⟩
  · exact ⟨rfl, by simp, by simp [readings]⟩
  · refine ⟨rfl, fun hexceeded => ⟨nowMs, .head _, hiff.mp hexceeded⟩, ?_⟩
    intro hexceeded m hm
    have hm' : m = nowMs := List.mem_singleton.mp hm
    rw [hm', ← hiff, hexceeded]
    exact Bool.false_ne_true

/-- What a behaviour of `Sleep` is, with `remainingMs` to go: all of it is slept
and no check has found the deadline reached, or some check has. -/
inductive SleepBehaviour (context : TaskExecutionContext) (params : String) (remainingMs : Nat)
    (events : List ((op : HandlerOp) × op.Reply)) (ended : HandlerEnd) : Prop where
  | slept (hslices : (slices events).sum = remainingMs)
      (hbefore : ∀ nowMs ∈ readings events, ¬context.reachedAt nowMs)
      (hended : ended = .ok ("Slept " ++ params ++ " ms"))
  | exceeded (hreached : ∃ nowMs ∈ readings events, context.reachedAt nowMs)
      (hended : ended = throwWhat "Task deadline exceeded")

theorem sleepLoop_performs {context : TaskExecutionContext} {params : String} {remainingMs : Nat}
    {events : List ((op : HandlerOp) × op.Reply)} {ended : HandlerEnd}
    (h : (sleepLoop context params remainingMs).Performs events ended) :
    SleepBehaviour context params remainingMs events ended := by
  -- On what is left to sleep; every slice makes it smaller.
  induction remainingMs using Nat.strongRecOn generalizing events with
  | ind remainingMs ih =>
      rw [sleepLoop] at h
      obtain ⟨check, later, exceeded, rfl, hcheck, hlater⟩ := Program.performs_bind h
      obtain ⟨hslices, hreached, hbefore⟩ := deadlineExceeded_readings hcheck
      cases exceeded with
      | true =>
          obtain ⟨nowMs, hmem, hnow⟩ := hreached rfl
          obtain ⟨rfl, rfl⟩ := hlater
          refine .exceeded ⟨nowMs, ?_, hnow⟩ rfl
          simpa using hmem
      | false =>
          rw [if_neg Bool.false_ne_true] at hlater
          split at hlater
          · rename_i hpos
            obtain ⟨reply, rest, rfl, hrest⟩ := hlater
            have hslice : slices (check ++ ⟨.sleepFor (min remainingMs 25), reply⟩ :: rest) =
                min remainingMs 25 :: slices rest := by
              rw [slices_append, hslices]
              rfl
            have hreadings : readings (check ++ ⟨.sleepFor (min remainingMs 25), reply⟩ :: rest) =
                readings check ++ readings rest := by
              rw [readings_append]
              rfl
            cases ih _ (by omega) hrest with
            | slept hsum hrestBefore hended =>
                refine .slept ?_ ?_ hended
                · rw [hslice, List.sum_cons, hsum]
                  omega
                · rw [hreadings]
                  intro nowMs hmem
                  rcases List.mem_append.mp hmem with hmem | hmem
                  · exact hbefore rfl nowMs hmem
                  · exact hrestBefore nowMs hmem
            | exceeded hrestReached hended =>
                obtain ⟨nowMs, hmem, hnow⟩ := hrestReached
                refine .exceeded ⟨nowMs, ?_, hnow⟩ hended
                rw [hreadings]
                exact List.mem_append_right _ hmem
          · rename_i hdone
            obtain ⟨rfl, rfl⟩ := hlater
            rw [List.append_nil]
            refine .slept ?_ (hbefore rfl) rfl
            rw [hslices, List.sum_nil]
            omega

/-- With a deadline that reads as negative, `Sleep` fails at its first check
unless the clock is before 1970. -/
theorem sleepLoop_performs_negative {context : TaskExecutionContext} {params : String}
    {remainingMs : Nat} {events : List ((op : HandlerOp) × op.Reply)} {ended : HandlerEnd}
    (hdeadline : context.deadlineUnixMs ≠ 0)
    (hnegative : (BitVec.ofNat 64 context.deadlineUnixMs).toInt < 0)
    (h : (sleepLoop context params remainingMs).Performs events ended)
    (hclock : ∀ nowMs ∈ readings events, 0 ≤ nowMs) :
    slices events = [] ∧ ended = throwWhat "Task deadline exceeded" := by
  rw [sleepLoop] at h
  obtain ⟨check, later, exceeded, rfl, hcheck, hlater⟩ := Program.performs_bind h
  rcases deadlineExceeded_performs hcheck with ⟨hnone, -, -⟩ | ⟨-, nowMs, rfl, hiff⟩
  · exact absurd hnone hdeadline
  · have hnow : 0 ≤ nowMs := hclock nowMs (by simp [readings])
    have hexceeded : exceeded = true :=
      hiff.mpr ⟨hdeadline, Int.le_trans (Int.le_of_lt hnegative) hnow⟩
    subst hexceeded
    obtain ⟨rfl, rfl⟩ := hlater
    exact ⟨rfl, rfl⟩

/-! ## `ExecuteTask` for `Sleep` -/

/-- `Sleep` as `registerBuiltinTaskHandlers` leaves it. -/
theorem find?_sleep {registry registry' : HandlerRegistry}
    (h : registerBuiltinTaskHandlers registry = .ok registry') :
    registry'.find? "Sleep" = some sleepHandler := by
  simp [registerBuiltinTaskHandlers, HandlerRegistry.registerHandler,
    HandlerRegistry.registerContextHandler, bind, Except.bind] at h
  rw [← h]
  simp

section Run

variable {σ : Type} {world : Program.World DispatchOp.Reply σ} {s : σ} {d : RpcDispatcher}
  {codec : Codec} {payload : List UInt8} {req : Rpc.ExecuteTaskRequest}

/-- The clock as `handleExecuteTask` reads it. -/
def clockAtAdmission (world : Program.World DispatchOp.Reply σ) (s : σ) (handler : String) : Nat :=
  (world .clock (world (.hasHandler handler) s).2).1

/-- A request for `Sleep` that comes to the check of its deadline. -/
structure SleepRequested (world : Program.World DispatchOp.Reply σ) (s : σ) (d : RpcDispatcher)
    (codec : Codec) (payload : List UInt8) (req : Rpc.ExecuteTaskRequest) (durationMs : Nat) :
    Prop where
  parsed : codec.parse .executeTask payload = some req
  authorized : d.authorized req.authToken = true
  handler : req.handler = "Sleep"
  duration : parseSleepDuration req.params = some durationMs
  deadline : req.deadlineUnixMs < 2 ^ 64
  clock : clockAtAdmission world s req.handler < 2 ^ 63

/-- The verdict of the admission check is that of the words. -/
theorem handleExecuteTask_admission {durationMs : Nat}
    (h : SleepRequested world s d codec payload req durationMs)
    (hregistered : (world (.hasHandler req.handler) s).1 = true) :
    ((handleExecuteTask d codec payload).run world s).1 =
      if admissionExpired (BitVec.ofNat 64 (clockAtAdmission world s req.handler))
          (BitVec.ofNat 64 req.deadlineUnixMs) then
        .error .deadlineExceeded "Task deadline exceeded before execution"
      else codec.makeResponse (executeTaskMessage (endOfCall world s req)) := by
  have hnamed : req.handler ≠ "" := by
    rw [h.handler]
    decide
  have hregistered' : ¬(world (.hasHandler req.handler) s).1 = false := by simp [hregistered]
  have hverdict := admissionExpired_ofNat (Nat.lt_trans h.clock (by decide)) h.deadline
  rw [handleExecuteTask_of_parsed h.parsed h.authorized hnamed]
  simp only [Program.run_call, if_neg hregistered']
  by_cases hexpired : admissionExpired (BitVec.ofNat 64 (clockAtAdmission world s req.handler))
      (BitVec.ofNat 64 req.deadlineUnixMs) = true
  · have hlate := hverdict.mp hexpired
    unfold clockAtAdmission at hlate
    rw [if_pos hexpired, if_pos hlate]
    rfl
  · have hearly := mt hverdict.mpr hexpired
    unfold clockAtAdmission at hearly
    rw [if_neg hexpired, if_neg hearly]
    rfl

end Run

/-- What a worker makes of the deadline of a request for `Sleep`.  The two
comparisons, which are those of `handleExecuteTask` and of `deadlineExceeded`,
agree exactly as `expired_eq_iff` says.  A request that is not refused is
answered by a behaviour of `Sleep`.  If the deadline is below 2^63, the slices
add up to the duration and the answer is a success, unless the clock has been
read at or after the deadline.  If it is not, the answer is a failure at the
first check. -/
theorem executeTask_sleep_deadline {σ : Type} (registry₀ registry : HandlerRegistry)
    (hbuiltin : registerBuiltinTaskHandlers registry₀ = .ok registry)
    {world : Program.World DispatchOp.Reply σ} (hserves : registry.Serves world) {s : σ}
    {d : RpcDispatcher} {codec : Codec} {payload : List UInt8} {req : Rpc.ExecuteTaskRequest}
    {durationMs : Nat} (h : SleepRequested world s d codec payload req durationMs) :
    let deadline := BitVec.ofNat 64 req.deadlineUnixMs
    let refused :=
      admissionExpired (BitVec.ofNat 64 (clockAtAdmission world s req.handler)) deadline
    let response := ((handleExecuteTask d codec payload).run world s).1
    (∀ nowMs : BitVec 64, admissionExpired nowMs deadline = handlerExpired nowMs deadline ↔
      deadline = 0 ∨ nowMs.msb = deadline.msb) ∧
    (∀ (nowMs : BitVec 64) (exceeded : Bool),
      (deadlineExceeded req.context).Performs [⟨.clock, nowMs.toInt⟩] exceeded →
      exceeded = handlerExpired nowMs deadline) ∧
    (refused = true →
      response = .error .deadlineExceeded "Task deadline exceeded before execution") ∧
    (refused = false → ∃ events ended,
      (sleepHandler req.context req.params).Performs events ended ∧
      response = codec.makeResponse (executeTaskMessage ended) ∧
      (req.deadlineUnixMs < 2 ^ 63 →
        ((slices events).sum = durationMs ∧
          (∀ nowMs ∈ readings events,
            ¬(req.deadlineUnixMs ≠ 0 ∧ (req.deadlineUnixMs : Int) ≤ nowMs)) ∧
          ended = .ok ("Slept " ++ req.params ++ " ms")) ∨
        ((∃ nowMs ∈ readings events,
            req.deadlineUnixMs ≠ 0 ∧ (req.deadlineUnixMs : Int) ≤ nowMs) ∧
          ended = throwWhat "Task deadline exceeded")) ∧
      (2 ^ 63 ≤ req.deadlineUnixMs → (∀ nowMs ∈ readings events, 0 ≤ nowMs) →
        slices events = [] ∧ ended = throwWhat "Task deadline exceeded")) := by
  intro deadline refused response
  have hfind : registry.find? req.handler = some sleepHandler := by
    rw [h.handler]
    exact find?_sleep hbuiltin
  have hregistered : (world (.hasHandler req.handler) s).1 = true := by
    rw [hserves.hasHandler, HandlerRegistry.hasHandler, hfind]
    rfl
  have hresponse : response = if refused then
      .error .deadlineExceeded "Task deadline exceeded before execution"
      else codec.makeResponse (executeTaskMessage (endOfCall world s req)) :=
    handleExecuteTask_admission h hregistered
  refine ⟨fun nowMs => expired_eq_iff nowMs deadline, ?_, ?_, ?_⟩
  · intro nowMs exceeded hexceeded
    exact deadlineExceeded_verdict h.deadline hexceeded
  · intro hrefused
    rw [hresponse, if_pos hrefused]
  · intro hadmitted
    have hreturns : (sleepHandler req.context req.params).Returns (endOfCall world s req) := by
      have hexecute := hserves.execute req.handler req.context req.params
        (stateAtCall world s req.handler)
      rwa [HandlerRegistry.execute, hfind] at hexecute
    obtain ⟨events, hevents⟩ := Program.exists_performs_of_returns hreturns
    have hloop : (sleepLoop req.context req.params durationMs).Performs events
        (endOfCall world s req) := by
      rwa [sleepHandler, h.duration] at hevents
    refine ⟨events, endOfCall world s req, hevents, ?_, ?_, ?_⟩
    · rw [hresponse, hadmitted]
      rfl
    · intro hsmall
      have hreached : ∀ nowMs, req.context.reachedAt nowMs ↔
          req.deadlineUnixMs ≠ 0 ∧ (req.deadlineUnixMs : Int) ≤ nowMs := by
        intro nowMs
        rw [TaskExecutionContext.reachedAt, Rpc.ExecuteTaskRequest.context,
          toInt_deadline_of_lt hsmall]
      simp only [← hreached]
      cases sleepLoop_performs hloop with
      | slept hslices hbefore hended => exact .inl ⟨hslices, hbefore, hended⟩
      | exceeded hlate hended => exact .inr ⟨hlate, hended⟩
    · intro hlarge hclock
      refine sleepLoop_performs_negative ?_ (toInt_deadline_neg hlarge h.deadline) hloop hclock
      exact Nat.pos_iff_ne_zero.mp (Nat.lt_of_lt_of_le (by decide) hlarge)

/-- `ExecuteTask` for the handler `Sleep` with the given deadline. -/
def sleepRequest (deadlineUnixMs : Nat) : Rpc.ExecuteTaskRequest where
  taskId := "task-1"
  params := "30"
  handler := "Sleep"
  authToken := ""
  executionId := "task-1:0:0"
  deadlineUnixMs := deadlineUnixMs

theorem sleepRequest_duration (deadlineUnixMs : Nat) :
    parseSleepDuration (sleepRequest deadlineUnixMs).params = some 30 := by
  change parseSleepDuration "30" = some 30
  decide

theorem sleepRequest_requested (deadlineUnixMs : Nat) (h : deadlineUnixMs < 2 ^ 64) :
    SleepRequested (registryWorld builtinRegistry) () builtinWorker
      (executeTaskCodec (sleepRequest deadlineUnixMs)) [] (sleepRequest deadlineUnixMs) 30 where
  parsed := rfl
  authorized := by
    rw [authorized_eq]
    rfl
  handler := rfl
  duration := sleepRequest_duration deadlineUnixMs
  deadline := h
  clock := Nat.two_pow_pos 63

/-- A deadline one second after the clock. -/
theorem executeTask_sleep_deadline_second :
    ∃ events ended,
      (sleepHandler (sleepRequest 1000).context "30").Performs events ended ∧
      ((handleExecuteTask builtinWorker (executeTaskCodec (sleepRequest 1000)) []).run
        (registryWorld builtinRegistry) ()).1 =
          (executeTaskCodec (sleepRequest 1000)).makeResponse (executeTaskMessage ended) ∧
      ((slices events).sum = 30 ∧ ended = .ok "Slept 30 ms" ∨
        ∃ nowMs ∈ readings events, 1000 ≤ nowMs) := by
  obtain ⟨-, -, -, hadmitted⟩ := executeTask_sleep_deadline .empty builtinRegistry rfl
    (registryWorld_serves builtinRegistry) (sleepRequest_requested 1000 (by decide))
  obtain ⟨events, ended, hperforms, hresponse, hsmall, -⟩ := hadmitted (by decide)
  refine ⟨events, ended, hperforms, hresponse, ?_⟩
  rcases hsmall (by decide) with ⟨hsum, -, hended⟩ | ⟨⟨nowMs, hmem, -, hlate⟩, -⟩
  · exact .inl ⟨hsum, hended⟩
  · exact .inr ⟨nowMs, hmem, hlate⟩

/-- The largest deadline: the request is admitted, and `Sleep` takes it for one
that has passed. -/
theorem sleep_fails_before_deadline :
    admissionExpired 0 (BitVec.ofNat 64 (2 ^ 64 - 1)) = false ∧
    handlerExpired 0 (BitVec.ofNat 64 (2 ^ 64 - 1)) = true ∧
    ((handleExecuteTask builtinWorker (executeTaskCodec (sleepRequest (2 ^ 64 - 1))) []).run
      (registryWorld builtinRegistry) ()).1 =
        (executeTaskCodec (sleepRequest (2 ^ 64 - 1))).makeResponse
          (.executeTask false "Exception: Task deadline exceeded" "Task deadline exceeded") := by
  refine ⟨by decide, by decide, ?_⟩
  rw [handleExecuteTask_admission (sleepRequest_requested _ (by decide)) rfl, if_neg (by decide)]
  have hend : endOfCall (registryWorld builtinRegistry) () (sleepRequest (2 ^ 64 - 1)) =
      throwWhat "Task deadline exceeded" := by
    change (Program.run _ (sleepHandler (sleepRequest (2 ^ 64 - 1)).context
      (sleepRequest (2 ^ 64 - 1)).params) ()).1 = _
    rw [sleepHandler, sleepRequest_duration]
    dsimp only
    rw [sleepLoop]
    rfl
  rw [hend]
  rfl

end Corpcron
