import Corpcron.Lib.CString
import Corpcron.Rpc.RpcDispatcher

/-!
# `HandlerRegistry` and the built-in handlers

A registered handler is a program too: it may read the clock and sleep, and it
ends in one of the three ways of `HandlerEnd`.  The text of a `std::exception`
is what `what()` points at, a C string.
-/

namespace Corpcron

open Lib

/-! ## Handlers -/

/-- The operations the built-in handlers use. -/
inductive HandlerOp where
  /-- `system_clock::now()`, in milliseconds; negative before 1970. -/
  | clock
  | sleepFor (ms : Nat)

abbrev HandlerOp.Reply : HandlerOp → Type
  | .clock => Int
  | .sleepFor _ => Unit

/-- Programs of a handler. -/
abbrev Handling (α : Type) := Program HandlerOp.Reply α

/-- `ContextTaskHandler`. -/
abbrev ContextTaskHandler := TaskExecutionContext → String → Handling HandlerEnd

/-- `throw std::runtime_error(message)` or `throw std::invalid_argument(message)`. -/
def throwWhat (message : String) : HandlerEnd := .error (some (cStr message))

/-- The handler has returned. -/
def HandlerEnd.returned (ended : HandlerEnd) : Bool := ended.isOk

/-! ## The registry -/

/-- `handlers_`. -/
structure HandlerRegistry where
  find? : String → Option ContextTaskHandler

namespace HandlerRegistry

def empty : HandlerRegistry := ⟨fun _ => none⟩

/-- `registerContextHandler`; `none` for a callback that is null. -/
def registerContextHandler (registry : HandlerRegistry) (name : String)
    (handler : Option ContextTaskHandler) : Except String HandlerRegistry :=
  match handler with
  | some handler =>
      if name = "" then .error "Handler name and callback are required"
      else .ok ⟨fun key => if key = name then some handler else registry.find? key⟩
  | none => .error "Handler name and callback are required"

/-- `registerHandler`. -/
def registerHandler (registry : HandlerRegistry) (name : String)
    (handler : Option (String → Handling HandlerEnd)) : Except String HandlerRegistry :=
  registry.registerContextHandler name (handler.map fun handler _ params => handler params)

/-- `hasHandler`. -/
def hasHandler (registry : HandlerRegistry) (name : String) : Bool := (registry.find? name).isSome

/-- `execute`. -/
def execute (registry : HandlerRegistry) (name : String) (context : TaskExecutionContext)
    (params : String) : Handling HandlerEnd :=
  match registry.find? name with
  | none => return throwWhat ("Handler not found: " ++ name)
  | some handler => handler context params

end HandlerRegistry

/-! ## Built-in handlers -/

/-- `Echo`. -/
def echoHandler (params : String) : Handling HandlerEnd := return .ok ("Echo: " ++ params)

/-- `Fail`. -/
def failHandler (params : String) : Handling HandlerEnd :=
  return throwWhat (if params = "" then "Task failed intentionally" else params)

/-- `Uppercase`; `toupper` of the C locale. -/
def uppercaseHandler (params : String) : Handling HandlerEnd :=
  return .ok (params.map Char.toUpper)

/-- `std::from_chars` into an `int` when it has to read the whole text. -/
def fromChars? (text : List Char) : Option Int :=
  let value : Option Int := match text with
    | '-' :: digits => (digitsValue? digits).map fun n => -(n : Int)
    | digits => (digitsValue? digits).map fun n => (n : Int)
  value.filter fun n => -2 ^ 31 ≤ n ∧ n < 2 ^ 31

/-- `parseSleepDuration`. -/
def parseSleepDuration (params : String) : Option Nat :=
  match fromChars? params.toList with
  | none => none
  | some duration => if duration < 0 ∨ duration > 30000 then none else some duration.toNat

/-- `deadlineExceeded`; the clock is read only if there is a deadline, and the
deadline is compared as an `int64_t`. -/
def deadlineExceeded (context : TaskExecutionContext) : Handling Bool := do
  if context.deadlineUnixMs = 0 then return false
  let nowMs : Int ← Program.perform HandlerOp.clock
  return nowMs ≥ (BitVec.ofNat 64 context.deadlineUnixMs).toInt

/-- The loop of `Sleep`, in slices of at most 25 ms. -/
def sleepLoop (context : TaskExecutionContext) (params : String) (remainingMs : Nat) :
    Handling HandlerEnd := do
  if ← deadlineExceeded context then return throwWhat "Task deadline exceeded"
  if _h : remainingMs > 0 then
    let sliceMs := min remainingMs 25
    let _ : Unit ← Program.perform (HandlerOp.sleepFor sliceMs)
    sleepLoop context params (remainingMs - sliceMs)
  else return .ok ("Slept " ++ params ++ " ms")
termination_by remainingMs
decreasing_by omega

/-- `Sleep`. -/
def sleepHandler (context : TaskExecutionContext) (params : String) : Handling HandlerEnd :=
  match parseSleepDuration params with
  | none => return throwWhat "Sleep expects milliseconds in range 0..30000"
  | some durationMs => sleepLoop context params durationMs

/-- `registerBuiltinTaskHandlers`. -/
def registerBuiltinTaskHandlers (registry : HandlerRegistry) : Except String HandlerRegistry := do
  let registry ← registry.registerHandler "Echo" (some echoHandler)
  let registry ← registry.registerHandler "Fail" (some failHandler)
  let registry ← registry.registerHandler "Uppercase" (some uppercaseHandler)
  registry.registerContextHandler "Sleep" (some sleepHandler)

end Corpcron
