import Mathlib.Data.List.Basic

set_option relaxedAutoImplicit false
set_option autoImplicit false

/-!
# Files of lines

A file of one value a line, as bytes: what is written for a value, how such a file is read, and
what a write that was cut leaves at its end.

## Main definitions

* `Lines.Format` — a value as a line of text and back, and what holds of the parts of such lines.
* `Lines.utf8`, `Lines.readToString` — the bytes of a text and the text of bytes.
* `Lines.lines` — the lines of a text.
* `Lines.values` — the values of a file.
* `Lines.Torn` — what cut writes leave: parts of lines, none of them whole.

## Main results

* `Lines.values_whole` — **whole lines come back**: a file of whole lines and what cut writes left
  has exactly the values of the whole lines.
-/

namespace Lines

/-- A value as a line of text and back. A line is not empty and has no line break in it, and no
text put together of parts of lines, each less than the whole, is the text of a value. -/
structure Format (α : Type*) where
  encode : α → List Char
  decode : List Char → Option α
  decode_encode : ∀ v, decode (encode v) = some v
  not_newline : ∀ v, ∀ c ∈ encode v, c ≠ '\n' ∧ c ≠ '\r'
  decode_torn : ∀ parts : List (List Char), parts ≠ [] →
    (∀ p ∈ parts, p ≠ [] ∧ ∃ v, p <+: encode v ∧ p ≠ encode v) → decode parts.flatten = none

/-- The bytes of a text. -/
def utf8 (text : List Char) : List UInt8 := text.flatMap String.utf8EncodeChar

/-- The text of bytes, or none where they are not UTF-8. -/
def readToString (bytes : List UInt8) : Option (List Char) :=
  bytes.toByteArray.utf8Decode?.map Array.toList

/-- The lines of a text, without the line feed and one carriage return before it. -/
def lines : List Char → List (List Char)
  | [] => []
  | '\r' :: '\n' :: text => [] :: lines text
  | '\n' :: text => [] :: lines text
  | c :: text =>
    match lines text with
    | [] => [[c]]
    | line :: rest => (c :: line) :: rest

/-- The values of a file: those of the lines that are the text of one. A file that is not UTF-8
has none. -/
def values {α : Type*} (fmt : Format α) (bytes : List UInt8) : List α :=
  match readToString bytes with
  | none => []
  | some text => (lines text).filterMap fmt.decode

@[simp] lemma utf8_append (a b : List Char) : utf8 (a ++ b) = utf8 a ++ utf8 b :=
  List.flatMap_append

lemma readToString_utf8 (text : List Char) : readToString (utf8 text) = some text := by
  have h : (utf8 text).toByteArray = text.utf8Encode := rfl
  rw [readToString, h, List.utf8Decode?_utf8Encode]
  simp

/-- A text without a line break in it. -/
def Unbroken (line : List Char) : Prop := ∀ c ∈ line, c ≠ '\n' ∧ c ≠ '\r'

lemma lines_cons {c : Char} (hc : c ≠ '\n' ∧ c ≠ '\r') (text : List Char) :
    lines (c :: text) = match lines text with
      | [] => [[c]]
      | line :: rest => (c :: line) :: rest := by
  rw [lines]
  · intro _ h
    exact absurd h hc.2
  · intro h
    exact absurd h hc.1

/-- The first line of a text is what stands before its first line feed. -/
lemma lines_line {line : List Char} (hline : Unbroken line) (text : List Char) :
    lines (line ++ '\n' :: text) = line :: lines text := by
  induction line with
  | nil => rfl
  | cons c line ih =>
    have hc := hline c List.mem_cons_self
    have hrest : Unbroken line := fun d hd => hline d (List.mem_cons_of_mem c hd)
    rw [List.cons_append, lines_cons hc, ih hrest]

/-- A text without a line feed is one line, if it is not empty. -/
lemma lines_unbroken {line : List Char} (hline : Unbroken line) :
    lines line = if line = [] then [] else [line] := by
  induction line with
  | nil => rfl
  | cons c line ih =>
    have hc := hline c List.mem_cons_self
    have hrest : Unbroken line := fun d hd => hline d (List.mem_cons_of_mem c hd)
    rw [lines_cons hc, ih hrest]
    by_cases hnil : line = []
    · simp [hnil]
    · simp [hnil]

variable {α : Type*} {fmt : Format α}

/-- The text of a list of values, one a line. -/
def Format.text (fmt : Format α) (vs : List α) : List Char :=
  vs.flatMap fun v => fmt.encode v ++ ['\n']

/-- What cut writes leave: parts of lines, none of them whole. -/
def Torn (fmt : Format α) (text : List Char) : Prop :=
  ∃ parts : List (List Char), text = parts.flatten ∧
    ∀ p ∈ parts, p ≠ [] ∧ ∃ v, p <+: fmt.encode v ∧ p ≠ fmt.encode v

lemma torn_nil : Torn fmt [] := ⟨[], rfl, by simp⟩

lemma Torn.append {text : List Char} (h : Torn fmt text) {p : List Char} {v : α}
    (hp : p <+: fmt.encode v) (hne : p ≠ fmt.encode v) : Torn fmt (text ++ p) := by
  obtain ⟨parts, rfl, hparts⟩ := h
  by_cases hnil : p = []
  · rw [hnil, List.append_nil]
    exact ⟨parts, rfl, hparts⟩
  · refine ⟨parts ++ [p], by simp, ?_⟩
    intro q hq
    rcases List.mem_append.mp hq with hq | hq
    · exact hparts q hq
    · rw [List.mem_singleton] at hq
      rw [hq]
      exact ⟨hnil, v, hp, hne⟩

lemma Torn.unbroken {text : List Char} (h : Torn fmt text) : Unbroken text := by
  obtain ⟨parts, rfl, hparts⟩ := h
  intro c hc
  obtain ⟨p, hp, hcp⟩ := List.mem_flatten.mp hc
  obtain ⟨-, v, hpre, -⟩ := hparts p hp
  exact fmt.not_newline v c (hpre.subset hcp)

/-- What cut writes leave is not a value. -/
lemma Torn.values {text : List Char} (h : Torn fmt text) :
    (lines text).filterMap fmt.decode = [] := by
  rw [lines_unbroken h.unbroken]
  by_cases hnil : text = []
  · simp [hnil]
  · obtain ⟨parts, htext, hparts⟩ := h
    have hne : parts ≠ [] := by
      intro hempty
      rw [hempty] at htext
      exact hnil htext
    have hdecode : fmt.decode text = none := by
      rw [htext]
      exact fmt.decode_torn parts hne hparts
    simp [hnil, hdecode]

/-- **Whole lines come back.** A file of whole lines and what cut writes left has the values of the
whole lines, in their order. -/
theorem values_whole {vs : List α} {torn : List Char} (h : Torn fmt torn) :
    values fmt (utf8 (fmt.text vs ++ torn)) = vs := by
  rw [values, readToString_utf8]
  show (lines (fmt.text vs ++ torn)).filterMap fmt.decode = vs
  induction vs with
  | nil => exact h.values
  | cons v vs ih =>
    have htext : fmt.text (v :: vs) ++ torn =
        fmt.encode v ++ '\n' :: (fmt.text vs ++ torn) := by
      simp [Format.text]
    rw [htext, lines_line (fmt.not_newline v), List.filterMap_cons_some (fmt.decode_encode v), ih]

end Lines
