import Mathlib.Data.List.Forall2
import Mathlib.Data.List.Infix

/-!
# Patterns with wildcards

A pattern is a list of symbols of which three are special: one stands for any
text, one for any symbol, and one takes its meaning from the symbol behind it.
`tokens` reads a pattern and `like` matches a text with it, with the symbols
compared up to a relation `same`.

To search a text for a word, the word is put between two wildcards.  This is a
search for the word itself if there is no special symbol in it (`like_plain`),
and `like_eq_contains_iff` says that there is no other case: for any other word
there is a text on which the two differ.
-/

namespace Corpcron
namespace Lib

/-- The special symbols of a pattern. -/
structure Wildcards (α : Type*) where
  /-- Stands for any text. -/
  any : α
  /-- Stands for any symbol. -/
  one : α
  escape : α
  any_ne_escape : any ≠ escape

/-- What a pattern is made of. -/
inductive Token (α : Type*) where
  | any
  | one
  | symbol (a : α)

/-! ## Words in a text -/

section Contains

variable {α : Type*} (same : α → α → Bool)

/-- The text begins with the word. -/
def startsWith : List α → List α → Bool
  | [], _ => true
  | _ :: _, [] => false
  | a :: word, b :: text => same a b && startsWith word text

/-- The word stands somewhere in the text. -/
def containsWord (word text : List α) : Bool := text.tails.any (startsWith same word)

variable {same}

theorem startsWith_iff {word text : List α} :
    startsWith same word text = true ↔
      ∃ part rest, text = part ++ rest ∧ List.Forall₂ (fun a b => same a b = true) word part := by
  induction word generalizing text with
  | nil => exact ⟨fun _ => ⟨[], text, rfl, .nil⟩, fun _ => rfl⟩
  | cons a word ih =>
      cases text with
      | nil =>
          simp only [startsWith, Bool.false_eq_true, false_iff]
          rintro ⟨part, rest, hsplit, hsame⟩
          cases hsame
          cases hsplit
      | cons b text =>
          rw [startsWith, Bool.and_eq_true, ih]
          constructor
          · rintro ⟨hab, part, rest, rfl, hsame⟩
            exact ⟨b :: part, rest, rfl, .cons hab hsame⟩
          · rintro ⟨part, rest, hsplit, hsame⟩
            cases hsame with
            | cons hab hsame =>
                cases hsplit
                exact ⟨hab, _, rest, rfl, hsame⟩

/-- A word in a text is a part of the text that is the same up to `same`. -/
theorem containsWord_iff {word text : List α} :
    containsWord same word text = true ↔
      ∃ before part after, text = before ++ part ++ after ∧
        List.Forall₂ (fun a b => same a b = true) word part := by
  rw [containsWord, List.any_eq_true]
  constructor
  · rintro ⟨tail, htail, hstarts⟩
    obtain ⟨before, rfl⟩ := (List.mem_tails _ _).mp htail
    obtain ⟨part, after, rfl, hsame⟩ := startsWith_iff.mp hstarts
    exact ⟨before, part, after, (List.append_assoc _ _ _).symm, hsame⟩
  · rintro ⟨before, part, after, rfl, hsame⟩
    refine ⟨part ++ after, ?_, startsWith_iff.mpr ⟨part, after, rfl, hsame⟩⟩
    rw [List.mem_tails, List.append_assoc]
    exact List.suffix_append _ _

theorem length_le_of_startsWith {word text : List α} (h : startsWith same word text = true) :
    word.length ≤ text.length := by
  obtain ⟨part, rest, rfl, hsame⟩ := startsWith_iff.mp h
  rw [List.length_append, hsame.length_eq]
  exact Nat.le_add_right _ _

theorem startsWith_self (hrefl : ∀ a, same a a = true) (word : List α) :
    startsWith same word word = true := by
  induction word with
  | nil => rfl
  | cons a word ih => simp [startsWith, hrefl, ih]

/-- A text that is not longer than the word contains it only at the front. -/
theorem startsWith_of_containsWord {word text : List α} (hlength : text.length ≤ word.length)
    (h : containsWord same word text = true) : startsWith same word text = true := by
  obtain ⟨tail, htail, hstarts⟩ := List.any_eq_true.mp h
  obtain ⟨before, rfl⟩ := (List.mem_tails _ _).mp htail
  have hle := length_le_of_startsWith hstarts
  rw [List.length_append] at hlength
  have hnil : before = [] := List.eq_nil_of_length_eq_zero (by omega)
  rw [hnil]
  exact hstarts

end Contains

namespace Wildcards

variable {α : Type*} [DecidableEq α] (W : Wildcards α) (same : α → α → Bool)

/-! ## Matching -/

/-- A symbol on its own. -/
def token (a : α) : Token α :=
  if a = W.any then .any else if a = W.one then .one else .symbol a

/-- Read a pattern.  An escape at the end stands for itself. -/
def tokens : List α → List (Token α)
  | [] => []
  | [a] => [W.token a]
  | a :: b :: rest =>
      if a = W.escape then .symbol b :: tokens rest else W.token a :: tokens (b :: rest)

omit [DecidableEq α] in
/-- Match a text with what a pattern is made of. -/
def matchTokens (same : α → α → Bool) : List (Token α) → List α → Bool
  | [], text => text.isEmpty
  | .any :: rest, text => text.tails.any fun tail => matchTokens same rest tail
  | .one :: _, [] => false
  | .one :: rest, _ :: text => matchTokens same rest text
  | .symbol _ :: _, [] => false
  | .symbol a :: rest, b :: text => same a b && matchTokens same rest text

/-- `text LIKE pattern`. -/
def like (pattern text : List α) : Bool := matchTokens same (W.tokens pattern) text

/-- The word between two wildcards. -/
def around (word : List α) : List α := W.any :: word ++ [W.any]

/-- A symbol that does not stand for itself. -/
def Special (a : α) : Prop := a = W.any ∨ a = W.one ∨ a = W.escape

variable {W same}

theorem tokens_cons {a : α} (ha : a ≠ W.escape) (rest : List α) :
    W.tokens (a :: rest) = W.token a :: W.tokens rest := by
  cases rest with
  | nil => rfl
  | cons b rest => simp [tokens, ha]

theorem tokens_escape (b : α) (rest : List α) :
    W.tokens (W.escape :: b :: rest) = .symbol b :: W.tokens rest := by
  simp [tokens]

/-- Searching with a pattern is matching what is behind the first wildcard
somewhere. -/
theorem like_around (word text : List α) :
    W.like same (W.around word) text =
      text.tails.any fun tail => matchTokens same (W.tokens (word ++ [W.any])) tail := by
  have htoken : W.token W.any = .any := by simp [token]
  rw [like, around, List.cons_append, tokens_cons W.any_ne_escape, htoken]
  rfl

theorem matchTokens_plain {word : List α} (hplain : ∀ a ∈ word, ¬W.Special a) (text : List α) :
    matchTokens same (W.tokens (word ++ [W.any])) text = startsWith same word text := by
  induction word generalizing text with
  | nil =>
      have htoken : W.token W.any = .any := by simp [token]
      rw [List.nil_append, tokens, htoken, startsWith, matchTokens, List.any_eq_true]
      exact ⟨[], by simp, rfl⟩
  | cons a word ih =>
      have ha := hplain a (.head _)
      simp only [Special, not_or] at ha
      have htoken : W.token a = .symbol a := by simp [token, ha]
      rw [List.cons_append, tokens_cons ha.2.2, htoken]
      cases text with
      | nil => rfl
      | cons b text => rw [matchTokens, startsWith, ih fun c hc => hplain c (.tail _ hc)]

/-- A word without special symbols is searched for as it is. -/
theorem like_plain {word : List α} (hplain : ∀ a ∈ word, ¬W.Special a) (text : List α) :
    W.like same (W.around word) text = containsWord same word text := by
  rw [like_around, containsWord]
  simp only [matchTokens_plain hplain]

/-! ## Words with special symbols -/

variable (W) in
/-- The word ends in an escape that has nothing to escape. -/
def dangling : List α → Bool
  | [] => false
  | [a] => a = W.escape
  | a :: b :: rest => if a = W.escape then dangling rest else dangling (b :: rest)

variable (W) in
/-- The shortest text for a symbol on its own, with `x` for any symbol. -/
def sampleOf (x a : α) : List α :=
  match W.token a with
  | .any => []
  | .one => [x]
  | .symbol b => [b]

variable (W) in
/-- A short text that matches the word as a pattern. -/
def sample (x : α) : List α → List α
  | [] => []
  | [a] => W.sampleOf x a
  | a :: b :: rest =>
      if a = W.escape then b :: sample x rest else W.sampleOf x a ++ sample x (b :: rest)

theorem dangling_cons {a : α} (ha : a ≠ W.escape) (rest : List α) :
    W.dangling (a :: rest) = W.dangling rest := by
  cases rest with
  | nil => simp [dangling, ha]
  | cons b rest => simp [dangling, ha]

theorem dangling_escape (b : α) (rest : List α) :
    W.dangling (W.escape :: b :: rest) = W.dangling rest := by
  simp [dangling]

theorem sample_cons {a : α} (ha : a ≠ W.escape) (x : α) (rest : List α) :
    W.sample x (a :: rest) = W.sampleOf x a ++ W.sample x rest := by
  cases rest with
  | nil => simp [sample]
  | cons b rest => simp [sample, ha]

theorem sample_escape (x b : α) (rest : List α) :
    W.sample x (W.escape :: b :: rest) = b :: W.sample x rest := by
  simp [sample]

variable (W) in
/-- Induction along the reading of a word. -/
theorem read_induction {motive : List α → Prop} (nil : motive [])
    (last : motive [W.escape])
    (escaped : ∀ b rest, motive rest → motive (W.escape :: b :: rest))
    (single : ∀ a rest, a ≠ W.escape → motive rest → motive (a :: rest)) :
    ∀ word, motive word
  | [] => nil
  | a :: rest => by
      by_cases ha : a = W.escape
      · subst ha
        cases rest with
        | nil => exact last
        | cons b rest => exact escaped b rest (read_induction nil last escaped single rest)
      · exact single a rest ha (read_induction nil last escaped single rest)

theorem length_sampleOf_le (x a : α) : (W.sampleOf x a).length ≤ 1 := by
  unfold sampleOf
  split
  · exact Nat.zero_le _
  · exact Nat.le_refl _
  · exact Nat.le_refl _

theorem length_sample_le (x : α) (word : List α) :
    (W.sample x word).length ≤ word.length := by
  induction word using W.read_induction with
  | nil => exact Nat.le_refl _
  | last => exact length_sampleOf_le x W.escape
  | escaped b rest ih =>
      rw [sample_escape, List.length_cons, List.length_cons, List.length_cons]
      omega
  | single a rest ha ih =>
      have hone := W.length_sampleOf_le x a
      rw [sample_cons ha, List.length_append, List.length_cons]
      omega

/-- The sample matches, with anything behind it. -/
theorem matchTokens_sample (hrefl : ∀ a, same a a = true) (x : α) {word : List α}
    (hclosed : W.dangling word = false) :
    matchTokens same (W.tokens (word ++ [W.any])) (W.sample x word) = true := by
  induction word using W.read_induction with
  | nil => simp [tokens, token, sample, matchTokens]
  | last => simp [dangling] at hclosed
  | escaped b rest ih =>
      rw [dangling_escape] at hclosed
      rw [List.cons_append, List.cons_append, tokens_escape, sample_escape, matchTokens, hrefl,
        ih hclosed]
      rfl
  | single a rest ha ih =>
      rw [dangling_cons ha] at hclosed
      rw [List.cons_append, tokens_cons ha, sample_cons ha, sampleOf]
      cases htoken : W.token a with
      | any =>
          rw [matchTokens, List.any_eq_true]
          exact ⟨_, (List.mem_tails _ _).mpr List.suffix_rfl, ih hclosed⟩
      | one => exact ih hclosed
      | symbol b =>
          rw [List.singleton_append, matchTokens, hrefl, ih hclosed]
          rfl

/-- If the sample begins with the word itself, nothing in the word was
special. -/
theorem plain_of_startsWith_sample {x : α} (hx : same W.one x = false) {word : List α}
    (hclosed : W.dangling word = false)
    (hstarts : startsWith same word (W.sample x word) = true) : ∀ a ∈ word, ¬W.Special a := by
  induction word using W.read_induction with
  | nil => exact fun a ha => by cases ha
  | last => simp [dangling] at hclosed
  | escaped b rest ih =>
      -- Two symbols of the word for one of the sample.
      have hle := length_le_of_startsWith hstarts
      have hsample := W.length_sample_le x rest
      rw [sample_escape, List.length_cons, List.length_cons, List.length_cons] at hle
      omega
  | single a rest ha ih =>
      rw [dangling_cons ha] at hclosed
      rw [sample_cons ha, sampleOf] at hstarts
      cases htoken : W.token a with
      | any =>
          have hle := length_le_of_startsWith hstarts
          have hsample := W.length_sample_le x rest
          rw [htoken, List.nil_append, List.length_cons] at hle
          omega
      | one =>
          have haone : a = W.one := by
            unfold token at htoken
            split at htoken
            · cases htoken
            · split at htoken
              · assumption
              · cases htoken
          rw [htoken, haone, List.singleton_append, startsWith, hx] at hstarts
          cases hstarts
      | symbol b =>
          have hplain : a ≠ W.any ∧ a ≠ W.one ∧ b = a := by
            unfold token at htoken
            split at htoken
            · cases htoken
            · rename_i hany
              split at htoken
              · cases htoken
              · rename_i hone
                cases htoken
                exact ⟨hany, hone, rfl⟩
          rw [htoken, List.singleton_append, startsWith, Bool.and_eq_true] at hstarts
          intro c hc
          rcases List.mem_cons.mp hc with rfl | hc
          · simp [Special, hplain, ha]
          · exact ih hclosed hstarts.2 c hc

/-- An escape at the end takes its meaning from the wildcard behind the word. -/
theorem last_of_matchTokens_dangling {word text : List α} (hdangling : W.dangling word = true)
    (h : matchTokens same (W.tokens (word ++ [W.any])) text = true) :
    ∃ init c, text = init ++ [c] ∧ same W.any c = true := by
  induction word using W.read_induction generalizing text with
  | nil => cases hdangling
  | last =>
      rw [List.singleton_append, tokens_escape] at h
      cases text with
      | nil => cases h
      | cons c text =>
          rw [matchTokens, Bool.and_eq_true, tokens, matchTokens, List.isEmpty_iff] at h
          exact ⟨[], c, by rw [h.2]; rfl, h.1⟩
  | escaped b rest ih =>
      rw [dangling_escape] at hdangling
      rw [List.cons_append, List.cons_append, tokens_escape] at h
      cases text with
      | nil => cases h
      | cons d text =>
          rw [matchTokens, Bool.and_eq_true] at h
          obtain ⟨init, c, rfl, hc⟩ := ih hdangling h.2
          exact ⟨d :: init, c, rfl, hc⟩
  | single a rest ha ih =>
      rw [dangling_cons ha] at hdangling
      rw [List.cons_append, tokens_cons ha] at h
      cases htoken : W.token a with
      | any =>
          rw [htoken, matchTokens, List.any_eq_true] at h
          obtain ⟨tail, htail, htailMatch⟩ := h
          obtain ⟨before, rfl⟩ := (List.mem_tails _ _).mp htail
          obtain ⟨init, c, rfl, hc⟩ := ih hdangling htailMatch
          exact ⟨before ++ init, c, (List.append_assoc _ _ _).symm, hc⟩
      | one =>
          rw [htoken] at h
          cases text with
          | nil => cases h
          | cons d text =>
              obtain ⟨init, c, rfl, hc⟩ := ih hdangling h
              exact ⟨d :: init, c, rfl, hc⟩
      | symbol b =>
          rw [htoken] at h
          cases text with
          | nil => cases h
          | cons d text =>
              rw [matchTokens, Bool.and_eq_true] at h
              obtain ⟨init, c, rfl, hc⟩ := ih hdangling h.2
              exact ⟨d :: init, c, rfl, hc⟩

theorem last_of_dangling {word : List α} (hdangling : W.dangling word = true) :
    ∃ init, word = init ++ [W.escape] := by
  induction word using W.read_induction with
  | nil => cases hdangling
  | last => exact ⟨[], rfl⟩
  | escaped b rest ih =>
      rw [dangling_escape] at hdangling
      obtain ⟨init, rfl⟩ := ih hdangling
      exact ⟨W.escape :: b :: init, rfl⟩
  | single a rest ha ih =>
      rw [dangling_cons ha] at hdangling
      obtain ⟨init, rfl⟩ := ih hdangling
      exact ⟨a :: init, rfl⟩

/-- Putting a word between wildcards searches for the word exactly if there is
no special symbol in it, provided that `same` tells an escape from a wildcard and
something from the wildcard for one symbol. -/
theorem like_eq_contains_iff (hrefl : ∀ a, same a a = true) {x : α}
    (hx : same W.one x = false) (hescape : same W.any W.escape = false) (word : List α) :
    (∀ text, W.like same (W.around word) text = containsWord same word text) ↔
      ∀ a ∈ word, ¬W.Special a := by
  constructor
  · intro h
    cases hdangling : W.dangling word with
    | false =>
        -- The sample of the word matches, so it has to contain the word.
        have hmatch : W.like same (W.around word) (W.sample x word) = true := by
          rw [like_around, List.any_eq_true]
          exact ⟨_, (List.mem_tails _ _).mpr List.suffix_rfl,
            matchTokens_sample hrefl x hdangling⟩
        rw [h] at hmatch
        exact plain_of_startsWith_sample hx hdangling
          (startsWith_of_containsWord (W.length_sample_le x word) hmatch)
    | true =>
        -- The word contains itself, but it does not end in the wildcard.
        have hcontains : containsWord same word word = true :=
          List.any_eq_true.mpr ⟨word, (List.mem_tails _ _).mpr List.suffix_rfl,
            startsWith_self hrefl word⟩
        rw [← h, like_around, List.any_eq_true] at hcontains
        obtain ⟨tail, htail, hmatch⟩ := hcontains
        obtain ⟨before, hword⟩ := (List.mem_tails _ _).mp htail
        obtain ⟨init, c, rfl, hc⟩ := last_of_matchTokens_dangling hdangling hmatch
        obtain ⟨init', hlast⟩ := last_of_dangling hdangling
        rw [hlast, ← List.append_assoc] at hword
        have hceq : [c] = [W.escape] := (List.append_inj' hword rfl).2
        cases hceq
        rw [hescape] at hc
        cases hc
  · intro hplain text
    exact like_plain hplain text

end Wildcards

end Lib
end Corpcron
