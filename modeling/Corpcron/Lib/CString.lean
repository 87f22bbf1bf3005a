import Mathlib.Data.List.TakeWhile

/-!
# C strings

A text that is handed over as a `const char*` ends at its first NUL.  `strtol`
reads a number from such a text.
-/

namespace Corpcron
namespace Lib

/-- The text read back from `s.c_str()`. -/
def cStr (s : String) : String := String.ofList (s.toList.takeWhile (· != '\x00'))

theorem cStr_eq_self {s : String} (h : '\x00' ∉ s.toList) : cStr s = s := by
  have hall : s.toList.takeWhile (· != '\x00') = s.toList := by
    rw [List.takeWhile_eq_self_iff]
    intro c hc
    simpa using fun hnul : c = '\x00' => h (hnul ▸ hc)
  rw [cStr, hall, String.ofList_toList]

theorem cStr_eq_empty_iff {s : String} :
    cStr s = "" ↔ s = "" ∨ s.toList.head? = some '\x00' := by
  have hlist : cStr s = "" ↔ s.toList.takeWhile (· != '\x00') = [] := by
    rw [← String.toList_inj, cStr, String.toList_ofList]
    rfl
  have hempty : s = "" ↔ s.toList = [] := by
    rw [← String.toList_inj]
    rfl
  rw [hlist, hempty]
  cases s.toList with
  | nil => simp
  | cons c rest => by_cases hc : c = '\x00' <;> simp [hc]

theorem noNul_cStr (s : String) : '\x00' ∉ (cStr s).toList := by
  intro hmem
  rw [cStr, String.toList_ofList] at hmem
  simpa using List.mem_takeWhile_imp hmem

/-- A cut comes only after a part without NUL. -/
theorem cStr_append_of_noNul {a : String} (b : String) (h : '\x00' ∉ a.toList) :
    cStr (a ++ b) = a ++ cStr b := by
  have hall : ∀ c ∈ a.toList, (c != '\x00') = true := by
    intro c hc
    simpa using fun hnul : c = '\x00' => h (hnul ▸ hc)
  rw [← String.toList_inj, String.toList_append, cStr, cStr, String.toList_ofList,
    String.toList_ofList, String.toList_append, List.takeWhile_append_of_pos hall]

/-- What follows a NUL is lost. -/
theorem cStr_append_of_nul {a : String} (b : String) (h : '\x00' ∈ a.toList) :
    cStr (a ++ b) = cStr a := by
  have hcut : (a.toList.takeWhile (· != '\x00')).length ≠ a.toList.length := by
    intro hlength
    have hall := (List.takeWhile_prefix _).eq_of_length hlength
    rw [← hall] at h
    simpa using List.mem_takeWhile_imp h
  rw [cStr, String.toList_append, List.takeWhile_append, if_neg hcut, cStr]

/-! ## Numbers -/

/-- The value of a text of digits. -/
def digitsValue? (digits : List Char) : Option Nat :=
  if digits ≠ [] ∧ digits.all Char.isDigit then
    some (digits.foldl (fun value c => 10 * value + (c.toNat - '0'.toNat)) 0)
  else none

/-- `isspace` of the C locale. -/
def isSpace (c : Char) : Bool := c == ' ' || (9 ≤ c.toNat && c.toNat ≤ 13)

/-- `std::strtol` with base 10 when it has to read the whole text; the value is
not cut to the range of a `long`. -/
def strtol? (text : List Char) : Option Int :=
  match text.dropWhile isSpace with
  | '-' :: digits => (digitsValue? digits).map fun n => -(n : Int)
  | '+' :: digits => (digitsValue? digits).map fun n => (n : Int)
  | digits => (digitsValue? digits).map fun n => (n : Int)

end Lib
end Corpcron
