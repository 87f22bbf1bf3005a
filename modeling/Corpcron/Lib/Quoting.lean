import Mathlib.Logic.Function.Defs

/-!
# Quoted strings with escapes

A quoted string stands between two delimiters.  A symbol inside it that could
be mistaken for something else is written as a mark and a letter.  `Escaping`
says what makes this readable: the mark and the delimiter are different symbols,
both are escaped themselves, and a letter stands for one symbol only.

`unquote_quote_append` is the law everything else follows from.  A quoted string
ends at its own closing delimiter, whatever it holds and whatever follows it, so
quoted strings can be put next to each other and next to other text.
-/

namespace Corpcron
namespace Lib

/-- How the symbols of a string are written between delimiters. -/
structure Escaping (β : Type*) where
  mark : β
  delimiter : β
  /-- The letter for an escaped symbol. -/
  letter : β → Option β
  /-- The symbol a letter stands for. -/
  meaning : β → Option β
  meaning_of_letter : ∀ {b l}, letter b = some l → meaning l = some b
  mark_ne_delimiter : mark ≠ delimiter
  letter_mark : letter mark ≠ none
  letter_delimiter : letter delimiter ≠ none

namespace Escaping

variable {β : Type*} (E : Escaping β)

/-- One symbol as it is written. -/
def escape (b : β) : List β :=
  match E.letter b with
  | some l => [E.mark, l]
  | none => [b]

/-- A string between delimiters. -/
def quote (value : List β) : List β :=
  E.delimiter :: value.flatMap E.escape ++ [E.delimiter]

variable [DecidableEq β]

/-- Read up to the closing delimiter: the string and what follows it. -/
def unescape : List β → Option (List β × List β)
  | [] => none
  | [b] => if b = E.delimiter then some ([], []) else none
  | b :: l :: rest =>
      if b = E.delimiter then some ([], l :: rest)
      else if b = E.mark then
        match E.meaning l, unescape rest with
        | some c, some (value, rest) => some (c :: value, rest)
        | _, _ => none
      else
        match unescape (l :: rest) with
        | some (value, rest) => some (b :: value, rest)
        | none => none

/-- Read a quoted string: the string and what follows it. -/
def unquote : List β → Option (List β × List β)
  | [] => none
  | b :: rest => if b = E.delimiter then E.unescape rest else none

variable {E}

theorem unescape_delimiter (rest : List β) :
    E.unescape (E.delimiter :: rest) = some ([], rest) := by
  cases rest with
  | nil => simp [unescape]
  | cons l rest => simp [unescape]

/-- Reading a symbol that is written as itself. -/
theorem unescape_plain {b : β} (hplain : E.letter b = none) {text value rest : List β}
    (htext : E.unescape text = some (value, rest)) :
    E.unescape (b :: text) = some (b :: value, rest) := by
  have hmark : b ≠ E.mark := by
    rintro rfl
    exact E.letter_mark hplain
  have hdelimiter : b ≠ E.delimiter := by
    rintro rfl
    exact E.letter_delimiter hplain
  cases text with
  | nil => cases htext
  | cons l text => simp [unescape, hmark, hdelimiter, htext]

/-- Reading a symbol that is written as a mark and a letter. -/
theorem unescape_escaped {b l : β} (hletter : E.letter b = some l) {text value rest : List β}
    (htext : E.unescape text = some (value, rest)) :
    E.unescape (E.mark :: l :: text) = some (b :: value, rest) := by
  simp [unescape, E.mark_ne_delimiter, E.meaning_of_letter hletter, htext]

/-- The closing delimiter is the first thing in a string that reads as one. -/
theorem unescape_escape_append (value rest : List β) :
    E.unescape (value.flatMap E.escape ++ E.delimiter :: rest) = some (value, rest) := by
  induction value with
  | nil => exact unescape_delimiter rest
  | cons b value ih =>
      rw [List.flatMap_cons, List.append_assoc]
      cases hletter : E.letter b with
      | none =>
          have hescape : E.escape b = [b] := by simp [escape, hletter]
          rw [hescape]
          exact unescape_plain hletter ih
      | some l =>
          have hescape : E.escape b = [E.mark, l] := by simp [escape, hletter]
          rw [hescape]
          exact unescape_escaped hletter ih

/-- A quoted string is read back, and reading stops at its end. -/
theorem unquote_quote_append (value rest : List β) :
    E.unquote (E.quote value ++ rest) = some (value, rest) := by
  have hshape : E.quote value ++ rest =
      E.delimiter :: (value.flatMap E.escape ++ E.delimiter :: rest) := by
    simp [quote]
  rw [hshape, unquote, if_pos rfl]
  exact unescape_escape_append value rest

variable (E) in
theorem quote_injective : Function.Injective E.quote := by
  intro v w h
  have hread := congrArg (fun text => E.unquote (text ++ [])) h
  simp only [unquote_quote_append, Option.some.injEq, Prod.mk.injEq, and_true] at hread
  exact hread

omit [DecidableEq β] in
/-- A symbol that is escaped, is no letter and is neither the mark nor the
delimiter does not occur in a quoted string. -/
theorem not_mem_quote {c : β} (hescaped : E.letter c ≠ none)
    (hletter : ∀ b, E.letter b ≠ some c) (hmark : c ≠ E.mark) (hdelimiter : c ≠ E.delimiter)
    (value : List β) : c ∉ E.quote value := by
  have hbody : c ∉ value.flatMap E.escape := by
    intro hmem
    obtain ⟨b, -, hc⟩ := List.mem_flatMap.mp hmem
    cases h : E.letter b with
    | none =>
        rw [escape, h, List.mem_singleton] at hc
        rw [hc] at hescaped
        exact hescaped h
    | some l =>
        rw [escape, h] at hc
        simp only [List.mem_cons, List.not_mem_nil, or_false] at hc
        rcases hc with hc | hc
        · exact hmark hc
        · exact hletter b (hc ▸ h)
  simp [quote, hdelimiter, hbody]

end Escaping

end Lib
end Corpcron
