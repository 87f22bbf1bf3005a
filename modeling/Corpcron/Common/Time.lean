import Mathlib.Data.Int.Order.Basic
import Mathlib.Tactic.Ring

/-!
# Times as the program handles them

The program keeps two kinds of times apart.  Instants are counts of
milliseconds (`uint64_t`) or whole seconds (`time_t`) of the system clock.
What MySQL stores and compares are `DATETIME` values, which the program writes
as local-time text `%Y-%m-%d %H:%M:%S`.  Such a text and the number of civil
seconds it names determine each other, so `DateTime` is that number; the empty
text, which the MySQL client turns into `NULL`, is `none`.

The step from instants to texts is `localtime_r`.  It need not be monotone: a
zone that sets its clock back maps a later instant to an earlier text.  The
three library functions the program relies on are the fields of `Platform`.
-/

namespace Corpcron

/-- Civil seconds of a `DATETIME` value. -/
abbrev DateTime := Int

/-- The C library's zone conversions and the vendored cron library, as the
program calls them. -/
structure Platform where
  /-- `localtime_r`: the civil time of an instant given in seconds. -/
  localtime : Nat → DateTime
  /-- `mktime` on a broken-down time with `tm_isdst = 0`; `none` for `-1`. -/
  mktime : DateTime → Option Int
  /-- `make_cron`, `cron_next` and `mktime` for an expression and an instant;
  `none` when one of them throws or fails. -/
  cronNext : String → Nat → Option Int
  /-- `cron_next` gives up a few years after its argument, so its instants stay
  far inside the 64-bit millisecond range. -/
  cronNext_range : ∀ expr nowSec nextSec,
    cronNext expr nowSec = some nextSec → nextSec * 1000 < 2 ^ 64

/-- First civil second of the year 10000: from there on `%Y` needs five
characters and the twenty-byte buffer of `strftime` is too small. -/
def yearTenThousand : DateTime := 253402300800

/-- `to_datetime_string(uint64_t)`. -/
def toDatetimeString (pf : Platform) (timestampMs : Nat) : Option DateTime :=
  let civil := pf.localtime (timestampMs / 1000)
  if civil < yearTenThousand then some civil else none

/-- `parse_datetime`: the instant, in seconds, that a stored text is taken
for. -/
def parseDatetime (pf : Platform) (value : Option DateTime) : Option Int :=
  value.bind pf.mktime

/-- `CronParser::nextExecution`.  The result `0` stands for "no future
execution"; `systemNowMs` is the clock reading used when `now_ms` is `0`. -/
def nextExecution (pf : Platform) (cronExpr : String) (nowMs systemNowMs : Nat) : Nat :=
  let nowSec := (if nowMs = 0 then systemNowMs else nowMs) / 1000
  match pf.cronNext cronExpr nowSec with
  | none => 0
  | some nextSec =>
      if nextSec ≤ (nowSec : Int) then 0 else nextSec.toNat * 1000 % 2 ^ 64

/-- `retry_delay_seconds`: five seconds, doubled for every earlier failure,
at most five minutes. -/
def retryDelaySeconds (retryCount : Int) : Nat :=
  let exponent := (min (max (retryCount - 1) 0) 6).toNat
  min 300 (5 * 2 ^ exponent)

end Corpcron
