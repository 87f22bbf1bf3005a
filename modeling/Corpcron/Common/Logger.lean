import Corpcron.Lib.Quoting

/-!
# Structured log lines

`logger.cpp`: a log message is an event name and a list of fields, each value
between quotes with its special bytes escaped.  Keys are written as they are.
Texts are lists of bytes, as in `std::string`.

`log_message_decodes` says that such a message can be read back, for every event
name and all values, and exactly when it stays on one line: line breaks and tabs
can come in through a key only.  `count_newline_output` carries this to what a
sequence of calls prints.
-/

namespace Corpcron

open Lib

/-! ## The logger -/

/-- `quoteValue` on one byte. -/
def quoteByte (ch : UInt8) : List UInt8 :=
  match ch with
  -- Backslash, quote, newline, carriage return and tab.
  | 0x5C => [0x5C, 0x5C]
  | 0x22 => [0x5C, 0x22]
  | 0x0A => [0x5C, 0x6E]
  | 0x0D => [0x5C, 0x72]
  | 0x09 => [0x5C, 0x74]
  | ch => [ch]

/-- `Logger::quoteValue`. -/
def quoteValue (value : List UInt8) : List UInt8 :=
  0x22 :: value.flatMap quoteByte ++ [0x22]

/-- The bytes of a text of the source. -/
def bytesOf (text : List Char) : List UInt8 :=
  text.map Char.toUInt8

/-- A pair of `LogFields`. -/
abbrev LogField := List UInt8 × List UInt8

/-- What the loop over the fields writes for one of them. -/
def fieldText (field : LogField) : List UInt8 :=
  0x20 :: (field.1 ++ 0x3D :: quoteValue field.2)

/-- The message of `Logger::log(level, event, fields)`. -/
def logMessage (event : List UInt8) (fields : List LogField) : List UInt8 :=
  bytesOf ['e', 'v', 'e', 'n', 't', '='] ++ quoteValue event ++ fields.flatMap fieldText

inductive LogLevel where
  | debug
  | info
  | warn
  | error
deriving DecidableEq

/-- The value of the enumerator. -/
def LogLevel.value : LogLevel → Nat
  | .debug => 0
  | .info => 1
  | .warn => 2
  | .error => 3

/-- `levelToString`. -/
def levelToString : LogLevel → List UInt8
  | .debug => bytesOf ['D', 'E', 'B', 'U', 'G']
  | .info => bytesOf ['I', 'N', 'F', 'O']
  | .warn => bytesOf ['W', 'A', 'R', 'N']
  | .error => bytesOf ['E', 'R', 'R', 'O', 'R']

/-- A time as `put_time` prints it: the format has no line break. -/
abbrev Stamp := { text : List UInt8 // 0x0A ∉ text }

/-- The text printed when `localtime_r` fails. -/
def unknownStamp : Stamp :=
  ⟨bytesOf ['0', '0', '0', '0', '-', '0', '0', '-', '0', '0', ' ',
    '0', '0', ':', '0', '0', ':', '0', '0'], by decide⟩

/-- `Logger::log(level, msg)`: what is printed. -/
def logText (currentLevel : LogLevel) (stamp : Option Stamp) (level : LogLevel)
    (msg : List UInt8) : List UInt8 :=
  if level.value < currentLevel.value then []
  else
    (stamp.getD unknownStamp).val ++ bytesOf [' ', '['] ++ levelToString level ++
      bytesOf [']', ' '] ++ msg ++ [0x0A]

/-- A call of `Logger::log(level, event, fields)`. -/
structure LogCall where
  level : LogLevel
  event : List UInt8
  fields : List LogField
  /-- `current_level_`, as the call reads it and as the inner call does. -/
  currentLevel : LogLevel
  innerLevel : LogLevel
  /-- The time of the call, if `localtime_r` gives one. -/
  stamp : Option Stamp

/-- `Logger::log(level, event, fields)`: what is printed. -/
def LogCall.printed (c : LogCall) : List UInt8 :=
  if c.level.value < c.currentLevel.value then []
  else logText c.innerLevel c.stamp c.level (logMessage c.event c.fields)

/-! ## Reading a message -/

/-- The escapes of `quoteValue`. -/
def logEscaping : Escaping UInt8 where
  mark := 0x5C
  delimiter := 0x22
  letter
    | 0x5C => some 0x5C
    | 0x22 => some 0x22
    | 0x0A => some 0x6E
    | 0x0D => some 0x72
    | 0x09 => some 0x74
    | _ => none
  meaning
    | 0x5C => some 0x5C
    | 0x22 => some 0x22
    | 0x6E => some 0x0A
    | 0x72 => some 0x0D
    | 0x74 => some 0x09
    | _ => none
  meaning_of_letter := by
    intro b l h
    split at h <;> cases h <;> rfl
  mark_ne_delimiter := by decide
  letter_mark := by decide
  letter_delimiter := by decide

/-- A key and what follows its `=`. -/
def readKey : List UInt8 → Option (List UInt8 × List UInt8)
  | [] => none
  | b :: rest =>
      if b = 0x3D then some ([], rest)
      else
        match readKey rest with
        | some (key, rest) => some (b :: key, rest)
        | none => none

/-- A key with its value, and what follows. -/
def readField (text : List UInt8) : Option (LogField × List UInt8) :=
  match readKey text with
  | none => none
  | some (key, rest) =>
      match logEscaping.unquote rest with
      | none => none
      | some (value, rest) => some ((key, value), rest)

/-- The fields up to the end of the text; there are at most `fuel` of them. -/
def readFields : Nat → List UInt8 → Option (List LogField)
  | _, [] => some []
  | 0, _ :: _ => none
  | fuel + 1, b :: text =>
      if b = 0x20 then
        match readField text with
        | none => none
        | some (field, rest) =>
            match readFields fuel rest with
            | none => none
            | some fields => some (field :: fields)
      else none

/-- The event and the fields of a message. -/
def decodeMessage (msg : List UInt8) : Option (List UInt8 × List LogField) :=
  match readField msg with
  | none => none
  | some ((key, event), rest) =>
      if key = bytesOf ['e', 'v', 'e', 'n', 't'] then
        match readFields rest.length rest with
        | none => none
        | some fields => some (event, fields)
      else none

/-! ## Round trips -/

theorem escape_eq_quoteByte (b : UInt8) : logEscaping.escape b = quoteByte b := by
  unfold Escaping.escape quoteByte logEscaping
  dsimp only
  split <;> split <;> simp_all

theorem quoteValue_eq_quote : quoteValue = logEscaping.quote := by
  funext value
  have hescape : logEscaping.escape = quoteByte := funext escape_eq_quoteByte
  rw [Escaping.quote, hescape]
  rfl

/-- A value ends at its own closing quote. -/
theorem unquote_quoteValue (value rest : List UInt8) :
    logEscaping.unquote (quoteValue value ++ rest) = some (value, rest) := by
  rw [quoteValue_eq_quote]
  exact Escaping.unquote_quote_append value rest

theorem quoteValue_injective : Function.Injective quoteValue := by
  rw [quoteValue_eq_quote]
  exact logEscaping.quote_injective

theorem readKey_append {key : List UInt8} (hkey : 0x3D ∉ key) (rest : List UInt8) :
    readKey (key ++ 0x3D :: rest) = some (key, rest) := by
  induction key with
  | nil => rfl
  | cons b key ih =>
      rw [List.mem_cons, not_or] at hkey
      have hb : b ≠ 0x3D := fun h => hkey.1 h.symm
      rw [List.cons_append, readKey, if_neg hb, ih hkey.2]

theorem readField_append {key : List UInt8} (hkey : 0x3D ∉ key) (value rest : List UInt8) :
    readField (key ++ 0x3D :: (quoteValue value ++ rest)) = some ((key, value), rest) := by
  rw [readField, readKey_append hkey]
  dsimp only
  rw [unquote_quoteValue]

/-- The fields of a message are read one after the other: after each of them the
text that is left is that of the fields to come. -/
theorem readFields_fieldText {fields : List LogField} (hkeys : ∀ f ∈ fields, 0x3D ∉ f.1)
    {fuel : Nat} (hfuel : fields.length ≤ fuel) :
    readFields fuel (fields.flatMap fieldText) = some fields := by
  induction fields generalizing fuel with
  | nil => cases fuel <;> rfl
  | cons field fields ih =>
      obtain ⟨fuel, rfl⟩ : ∃ n, fuel = n + 1 := ⟨fuel - 1, by simp at hfuel; omega⟩
      have hlater := ih (fun f hf => hkeys f (.tail _ hf)) (Nat.le_of_succ_le_succ hfuel)
      have hshape : (field :: fields).flatMap fieldText =
          0x20 :: (field.1 ++ 0x3D :: (quoteValue field.2 ++ fields.flatMap fieldText)) := by
        simp [fieldText]
      rw [hshape, readFields, if_pos rfl, readField_append (hkeys field (.head _))]
      dsimp only
      rw [hlater]

theorem length_le_fieldTexts (fields : List LogField) :
    fields.length ≤ (fields.flatMap fieldText).length := by
  induction fields with
  | nil => exact Nat.le_refl 0
  | cons field fields ih =>
      rw [List.flatMap_cons, List.length_append, List.length_cons, fieldText, List.length_cons]
      omega

/-- A message is read back; of the keys only that they have no `=` is needed. -/
theorem decodeMessage_logMessage (event : List UInt8) {fields : List LogField}
    (hkeys : ∀ f ∈ fields, 0x3D ∉ f.1) :
    decodeMessage (logMessage event fields) = some (event, fields) := by
  have hshape : logMessage event fields = bytesOf ['e', 'v', 'e', 'n', 't'] ++
      0x3D :: (quoteValue event ++ fields.flatMap fieldText) := by
    simp [logMessage, bytesOf]
    decide
  have hevent : (0x3D : UInt8) ∉ bytesOf ['e', 'v', 'e', 'n', 't'] := by decide
  rw [decodeMessage, hshape, readField_append hevent]
  dsimp only
  rw [if_pos rfl, readFields_fieldText hkeys (length_le_fieldTexts fields)]

/-! ## One line -/

/-- Newline, carriage return and tab. -/
def breaksLine (b : UInt8) : Prop := b = 0x0A ∨ b = 0x0D ∨ b = 0x09

instance : DecidablePred breaksLine := fun b =>
  inferInstanceAs (Decidable (b = 0x0A ∨ b = 0x0D ∨ b = 0x09))

theorem not_breaksLine_of_letter {b l : UInt8} (h : logEscaping.letter b = some l) :
    ¬breaksLine l := by
  unfold logEscaping at h
  dsimp only at h
  split at h <;> cases h <;> decide

theorem letter_of_breaksLine {b : UInt8} (hb : breaksLine b) :
    logEscaping.letter b ≠ none ∧ b ≠ logEscaping.mark ∧ b ≠ logEscaping.delimiter := by
  rcases hb with rfl | rfl | rfl <;> decide

/-- The three bytes are escaped, and no letter is one of them. -/
theorem not_mem_quoteValue_of_breaksLine {b : UInt8} (hb : breaksLine b)
    (value : List UInt8) : b ∉ quoteValue value := by
  obtain ⟨hescaped, hmark, hdelimiter⟩ := letter_of_breaksLine hb
  rw [quoteValue_eq_quote]
  refine Escaping.not_mem_quote hescaped ?_ hmark hdelimiter value
  intro c hc
  exact not_breaksLine_of_letter hc hb

/-- A break in a field is a break in its key. -/
theorem breaksLine_mem_fieldText {b : UInt8} (hb : breaksLine b) (field : LogField) :
    b ∈ fieldText field ↔ b ∈ field.1 := by
  have hspace : b ≠ 0x20 := by
    rintro rfl
    revert hb
    decide
  have hequals : b ≠ 0x3D := by
    rintro rfl
    revert hb
    decide
  have hvalue : b ∉ quoteValue field.2 := not_mem_quoteValue_of_breaksLine hb field.2
  simp [fieldText, hspace, hequals, hvalue]

/-- A break in a message is a break in a key. -/
theorem breaksLine_mem_logMessage {b : UInt8} (hb : breaksLine b) (event : List UInt8)
    (fields : List LogField) : b ∈ logMessage event fields ↔ ∃ f ∈ fields, b ∈ f.1 := by
  have hlabel : b ∉ bytesOf ['e', 'v', 'e', 'n', 't', '='] := by
    intro h
    have hall : (bytesOf ['e', 'v', 'e', 'n', 't', '=']).all
        (fun c => decide (¬breaksLine c)) = true := by decide
    exact of_decide_eq_true (List.all_eq_true.mp hall b h) hb
  have hevent : b ∉ quoteValue event := not_mem_quoteValue_of_breaksLine hb event
  simp only [logMessage, List.mem_append, hlabel, hevent, false_or, List.mem_flatMap,
    breaksLine_mem_fieldText hb]

/-- A message can be read back, and it is on one line unless a key is not. -/
theorem log_message_decodes (event : List UInt8) (fields : List LogField)
    (hkeys : ∀ f ∈ fields, ∀ b ∈ f.1, b ≠ 0x20 ∧ b ≠ 0x22 ∧ b ≠ 0x3D) :
    decodeMessage (logMessage event fields) = some (event, fields) ∧
      ((∀ b ∈ logMessage event fields, ¬breaksLine b) ↔
        ∀ f ∈ fields, ∀ b ∈ f.1, ¬breaksLine b) ∧
      Function.Injective quoteValue ∧
      ∀ value rest, logEscaping.unquote (quoteValue value ++ rest) = some (value, rest) := by
  refine ⟨?_, ?_, quoteValue_injective, unquote_quoteValue⟩
  · exact decodeMessage_logMessage event fun f hf hmem => (hkeys f hf _ hmem).2.2 rfl
  · constructor
    · intro hline f hf b hb hbreak
      exact hline b ((breaksLine_mem_logMessage hbreak event fields).mpr ⟨f, hf, hb⟩) hbreak
    · intro hplain b hb hbreak
      obtain ⟨f, hf, hmem⟩ := (breaksLine_mem_logMessage hbreak event fields).mp hb
      exact hplain f hf b hmem hbreak

theorem plainKeys_of_all {fields : List LogField}
    (h : (fields.all fun f => f.1.all fun b => b != 0x20 && b != 0x22 && b != 0x3D) = true) :
    ∀ f ∈ fields, ∀ b ∈ f.1, b ≠ 0x20 ∧ b ≠ 0x22 ∧ b ≠ 0x3D := by
  intro f hf b hb
  have hbyte := List.all_eq_true.mp (List.all_eq_true.mp h f hf) b hb
  simpa [and_assoc] using hbyte

/-- `event="a\"" k="\\"`: a value that ends in a quote and one that is a
backslash. -/
theorem log_message_decodes_quote :
    logMessage [0x61, 0x22] [([0x6B], [0x5C])] =
        bytesOf ['e', 'v', 'e', 'n', 't', '=', '"', 'a', '\\', '"', '"', ' ', 'k', '=', '"',
          '\\', '\\', '"'] ∧
      decodeMessage (logMessage [0x61, 0x22] [([0x6B], [0x5C])]) =
        some ([0x61, 0x22], [([0x6B], [0x5C])]) :=
  ⟨by decide, (log_message_decodes _ _ (plainKeys_of_all (by decide))).1⟩

/-- A key may hold a line break without a space, a quote or an equals sign. -/
theorem log_message_broken_by_key :
    ∃ fields : List LogField, (∀ f ∈ fields, ∀ b ∈ f.1, b ≠ 0x20 ∧ b ≠ 0x22 ∧ b ≠ 0x3D) ∧
      0x0A ∈ logMessage [0x61] fields :=
  ⟨[([0x6B, 0x0A], [])], plainKeys_of_all (by decide), by decide⟩

/-! ## What is printed -/

/-- The call passes both checks of the level. -/
def LogCall.enabled (c : LogCall) : Bool :=
  c.currentLevel.value ≤ c.level.value && c.innerLevel.value ≤ c.level.value

theorem newline_not_mem_levelToString (level : LogLevel) : 0x0A ∉ levelToString level := by
  cases level <;> decide

theorem LogCall.count_newline_printed (c : LogCall) (hkeys : ∀ f ∈ c.fields, 0x0A ∉ f.1) :
    c.printed.count 0x0A = if c.enabled then 1 else 0 := by
  have hmessage : 0x0A ∉ logMessage c.event c.fields := by
    rw [breaksLine_mem_logMessage (.inl rfl)]
    rintro ⟨f, hf, hmem⟩
    exact hkeys f hf hmem
  have hstamp := (c.stamp.getD unknownStamp).property
  have hopen : (0x0A : UInt8) ∉ bytesOf [' ', '['] := by decide
  have hclose : (0x0A : UInt8) ∉ bytesOf [']', ' '] := by decide
  unfold LogCall.printed logText LogCall.enabled
  split
  · rename_i hlow
    simp only [Nat.not_le_of_lt hlow, decide_false, Bool.false_and, Bool.false_eq_true,
      if_false, List.count_nil]
  · rename_i hhigh
    split
    · rename_i hlow
      simp only [Nat.not_le_of_lt hlow, decide_false, Bool.and_false, Bool.false_eq_true,
        if_false, List.count_nil]
    · rename_i hinner
      simp only [Nat.le_of_not_lt hhigh, Nat.le_of_not_lt hinner, decide_true, Bool.and_self,
        if_true, List.count_append, List.count_eq_zero_of_not_mem hstamp,
        List.count_eq_zero_of_not_mem hopen, List.count_eq_zero_of_not_mem hclose,
        List.count_eq_zero_of_not_mem (newline_not_mem_levelToString c.level),
        List.count_eq_zero_of_not_mem hmessage, List.count_singleton_self]

/-- What a sequence of calls prints has one line for each call that is not
suppressed, whatever the values are. -/
theorem count_newline_output (calls : List LogCall)
    (hkeys : ∀ c ∈ calls, ∀ f ∈ c.fields, 0x0A ∉ f.1) :
    (calls.flatMap LogCall.printed).count 0x0A = calls.countP LogCall.enabled := by
  induction calls with
  | nil => rfl
  | cons c calls ih =>
      rw [List.flatMap_cons, List.count_append, c.count_newline_printed (hkeys c (.head _)),
        ih fun d hd => hkeys d (.tail _ hd), List.countP_cons]
      omega

end Corpcron
