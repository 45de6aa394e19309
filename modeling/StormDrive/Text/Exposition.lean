import Mathlib.Data.List.Basic

set_option relaxedAutoImplicit false
set_option autoImplicit false

/-!
# Pages of samples

A text format for measured values: a line for each sample, with its name, its labels in braces and
its value, and before the samples of a name a line with what it means and one with its kind. In the
value of a label a backslash, a quote and the end of a line are escaped.

## Main definitions

* `Exposition.Line` — what a line says.
* `Exposition.write` — the text of some lines.
* `Exposition.read` — the lines of a text, if it is one of this format.
* `Exposition.Introduced` — each name is given its kind once, and before its samples.
* `Exposition.Line.Plain` — nothing in a line but the values of labels needs to be escaped.

## Main results

* `Exposition.read_write` — **what was written is read**.
-/

namespace Exposition

/-- A label with its value. -/
abbrev Label := List Char × List Char

/-- What a line says. -/
inductive Line
  | help (name text : List Char)
  | type (name kind : List Char)
  | sample (name : List Char) (labels : List Label) (value : List Char)
  deriving DecidableEq

/-- Each name is given its kind once, and before its samples. -/
def Introduced (known : List (List Char)) : List Line → Prop
  | [] => True
  | .help .. :: ls => Introduced known ls
  | .type name _ :: ls => name ∉ known ∧ Introduced (known ++ [name]) ls
  | .sample name .. :: ls => name ∈ known ∧ Introduced known ls

/-- A line with a sample. -/
def Line.isSample : Line → Bool
  | sample .. => true
  | _ => false

/-! ## Writing -/

/-- A character in the value of a label. -/
def escapeChar (c : Char) : List Char :=
  if c = '\\' then ['\\', '\\'] else if c = '"' then ['\\', '"']
  else if c = '\n' then ['\\', 'n'] else [c]

/-- The value of a label. -/
def escape (v : List Char) : List Char := v.flatMap escapeChar

/-- One label. -/
def writeLabel (l : Label) : List Char := l.1 ++ '=' :: '"' :: escape l.2 ++ ['"']

/-- The labels after the first, each with a comma before it. -/
def writeMore (ls : List Label) : List Char := ls.flatMap fun l => ',' :: writeLabel l

/-- The labels in braces, if there are any. -/
def writeLabels : List Label → List Char
  | [] => []
  | l :: ls => '\x7b' :: (writeLabel l ++ writeMore ls ++ ['\x7d'])

/-- How a line begins that says what a name means. -/
def helpMark : List Char := ['#', ' ', 'H', 'E', 'L', 'P', ' ']

/-- How a line begins that says what kind a name is. -/
def typeMark : List Char := ['#', ' ', 'T', 'Y', 'P', 'E', ' ']

/-- A line without its end. -/
def Line.text : Line → List Char
  | help name text => helpMark ++ (name ++ ' ' :: text)
  | type name kind => typeMark ++ (name ++ ' ' :: kind)
  | sample name labels value => name ++ writeLabels labels ++ ' ' :: value

/-- The text of some lines. -/
def write (ls : List Line) : List Char := ls.flatMap fun l => l.text ++ ['\n']

/-! ## Reading -/

/-- What an escaped character stands for. -/
def unescape : Char → Option Char
  | '\\' => some '\\'
  | '"' => some '"'
  | 'n' => some '\n'
  | _ => none

/-- Where a reader of labels is: in a name, before the quote, in a value, behind a backslash in it,
or behind the value. -/
inductive At
  | name (k : List Char)
  | quote (k : List Char)
  | value (k v : List Char)
  | escaped (k v : List Char)
  | behind

/-- The labels up to the closing brace, and the rest. -/
def readLabels : At → List Label → List Char → Option (List Label × List Char)
  | _, _, [] => none
  | .name k, done, c :: cs =>
    if c = '=' then readLabels (.quote k) done cs else readLabels (.name (k ++ [c])) done cs
  | .quote k, done, c :: cs => if c = '"' then readLabels (.value k []) done cs else none
  | .value k v, done, c :: cs =>
    if c = '\\' then readLabels (.escaped k v) done cs
    else if c = '"' then readLabels .behind (done ++ [(k, v)]) cs
    else readLabels (.value k (v ++ [c])) done cs
  | .escaped k v, done, c :: cs =>
    match unescape c with
    | some d => readLabels (.value k (v ++ [d])) done cs
    | none => none
  | .behind, done, c :: cs =>
    if c = ',' then readLabels (.name []) done cs
    else if c = '\x7d' then some (done, cs) else none

/-- The text up to the first of some characters, and from there. -/
def cut (stop : Char → Bool) (cs : List Char) : List Char × List Char :=
  (cs.takeWhile fun c => !stop c, cs.dropWhile fun c => !stop c)

/-- A name, and what stands behind the blank after it. -/
def readName (cs : List Char) : Option (List Char × List Char) :=
  match (cut (· = ' ') cs).2 with
  | ' ' :: text => some ((cut (· = ' ') cs).1, text)
  | _ => none

/-- The value of a sample, behind its name and labels. -/
def readValue (name : List Char) (labels : List Label) : List Char → Option Line
  | ' ' :: value => some (.sample name labels value)
  | _ => none

/-- What is behind the name of a sample: its labels, if there are any, and its value. -/
def readBehind (name : List Char) : List Char → Option Line
  | '\x7b' :: more => (readLabels (.name []) [] more).bind fun r => readValue name r.1 r.2
  | rest => readValue name [] rest

/-- A sample. -/
def readSample (cs : List Char) : Option Line :=
  readBehind (cut (fun c => c = ' ' || c = '\x7b') cs).1 (cut (fun c => c = ' ' || c = '\x7b') cs).2

/-- One line. -/
def readLine (cs : List Char) : Option Line :=
  if helpMark.isPrefixOf cs then
    (readName (cs.drop helpMark.length)).map fun r => .help r.1 r.2
  else if typeMark.isPrefixOf cs then
    (readName (cs.drop typeMark.length)).map fun r => .type r.1 r.2
  else readSample cs

/-- The lines of a text, each of which has its end. -/
def read (cs : List Char) : Option (List Line) :=
  match (cs.splitOn '\n').reverse with
  | [] :: ls => ls.reverse.mapM readLine
  | _ => none

/-! ## Labels are read -/

lemma readLabels_name (a k : List Char) (done : List Label) (rest : List Char) (plain : '=' ∉ k) :
    readLabels (.name a) done (k ++ '=' :: rest) = readLabels (.quote (a ++ k)) done rest := by
  induction k generalizing a with
  | nil => simp [readLabels]
  | cons c k ih =>
    rw [List.mem_cons, not_or] at plain
    have other : ¬ c = '=' := fun same => plain.1 same.symm
    rw [List.cons_append, readLabels, if_neg other, ih (a ++ [c]) plain.2, List.append_assoc]
    rfl

/-- An escaped character is read as itself. -/
lemma readLabels_escapeChar (k v : List Char) (done : List Label) (c : Char) (rest : List Char) :
    readLabels (.value k v) done (escapeChar c ++ rest) =
      readLabels (.value k (v ++ [c])) done rest := by
  unfold escapeChar
  by_cases backslash : c = '\\'
  · subst backslash
    simp [readLabels, unescape]
  · by_cases quote : c = '"'
    · subst quote
      simp [readLabels, unescape]
    · by_cases newline : c = '\n'
      · subst newline
        simp [readLabels, unescape]
      · simp [readLabels, backslash, quote, newline]

lemma readLabels_escape (k v u : List Char) (done : List Label) (rest : List Char) :
    readLabels (.value k v) done (escape u ++ rest) =
      readLabels (.value k (v ++ u)) done rest := by
  induction u generalizing v with
  | nil => simp [escape]
  | cons c u ih =>
    have ih' := ih (v ++ [c])
    unfold escape at ih' ⊢
    rw [List.flatMap_cons, List.append_assoc, readLabels_escapeChar, ih', List.append_assoc]
    rfl

lemma readLabels_writeLabel (l : Label) (done : List Label) (rest : List Char)
    (plain : '=' ∉ l.1) : readLabels (.name []) done (writeLabel l ++ rest) =
      readLabels .behind (done ++ [l]) rest := by
  have text : writeLabel l ++ rest = l.1 ++ '=' :: '"' :: (escape l.2 ++ '"' :: rest) := by
    simp [writeLabel]
  rw [text, readLabels_name [] l.1 done _ plain, readLabels, if_pos rfl, readLabels_escape,
    readLabels, if_neg (by decide), if_pos rfl]
  rfl

lemma readLabels_writeMore (ls done : List Label) (rest : List Char)
    (plain : ∀ l ∈ ls, '=' ∉ l.1) :
    readLabels .behind done (writeMore ls ++ '\x7d' :: rest) = some (done ++ ls, rest) := by
  induction ls generalizing done with
  | nil => simp [writeMore, readLabels]
  | cons l ls ih =>
    have text : writeMore (l :: ls) ++ '\x7d' :: rest =
        ',' :: (writeLabel l ++ (writeMore ls ++ '\x7d' :: rest)) := by
      simp [writeMore]
    rw [text, readLabels, if_pos rfl, readLabels_writeLabel _ _ _ (plain l (List.mem_cons_self ..)),
      ih _ fun l' mem => plain l' (List.mem_cons_of_mem _ mem), List.append_assoc]
    rfl

/-! ## Lines are read -/

/-- Nothing in a line but the values of its labels needs to be escaped. -/
def Line.Plain : Line → Prop
  | help name text => ' ' ∉ name ∧ '\n' ∉ name ∧ '\n' ∉ text
  | type name kind => ' ' ∉ name ∧ '\n' ∉ name ∧ '\n' ∉ kind
  | sample name labels value => name.head? ≠ some '#' ∧ ' ' ∉ name ∧ '\x7b' ∉ name ∧ '\n' ∉ name ∧
      (∀ l ∈ labels, '=' ∉ l.1 ∧ '\n' ∉ l.1) ∧ '\n' ∉ value

lemma cut_append {stop : Char → Bool} {l : List Char} (no : ∀ c ∈ l, stop c = false) {c : Char}
    (here : stop c = true) (rest : List Char) : cut stop (l ++ c :: rest) = (l, c :: rest) := by
  have go : ∀ x ∈ l, (!stop x) = true := fun x mem => by rw [no x mem]; rfl
  unfold cut
  rw [List.takeWhile_append_of_pos go, List.dropWhile_append_of_pos go, List.takeWhile_cons,
    List.dropWhile_cons, here]
  simp

lemma readName_append {name : List Char} (plain : ' ' ∉ name) (text : List Char) :
    readName (name ++ ' ' :: text) = some (name, text) := by
  have no : ∀ c ∈ name, decide (c = ' ') = false := by
    rintro c mem
    exact decide_eq_false fun same => plain (same ▸ mem)
  unfold readName
  rw [cut_append no rfl]
  rfl

lemma readSample_sample {name : List Char} {labels : List Label} {value : List Char}
    (blank : ' ' ∉ name) (brace : '\x7b' ∉ name) (plain : ∀ l ∈ labels, '=' ∉ l.1) :
    readSample (name ++ writeLabels labels ++ ' ' :: value) = some (.sample name labels value) := by
  have no : ∀ c ∈ name, (decide (c = ' ') || decide (c = '\x7b')) = false := by
    intro c mem
    have one : ¬ c = ' ' := fun same => blank (same ▸ mem)
    have other : ¬ c = '\x7b' := fun same => brace (same ▸ mem)
    simp [one, other]
  unfold readSample
  cases labels with
  | nil =>
    rw [writeLabels, List.append_nil, cut_append no (by decide)]
    rfl
  | cons l ls =>
    have text : name ++ writeLabels (l :: ls) ++ ' ' :: value = name ++ '\x7b' ::
        (writeLabel l ++ (writeMore ls ++ '\x7d' :: ' ' :: value)) := by
      simp [writeLabels]
    rw [text, cut_append no (by decide), readBehind,
      readLabels_writeLabel l [] _ (plain l (List.mem_cons_self ..)),
      readLabels_writeMore ls _ _ fun l' mem => plain l' (List.mem_cons_of_mem _ mem)]
    rfl

/-- A text that begins otherwise has not this beginning. -/
lemma not_isPrefixOf {c : Char} {mark cs : List Char} (first : cs.head? ≠ some c) :
    ¬ (c :: mark).isPrefixOf cs := by
  rw [List.isPrefixOf_iff_prefix]
  rintro ⟨rest, rfl⟩
  exact first rfl

lemma readLine_text {l : Line} (plain : l.Plain) : readLine l.text = some l := by
  cases l with
  | help name text =>
    obtain ⟨blank, -, -⟩ := plain
    have here : helpMark.isPrefixOf (helpMark ++ (name ++ ' ' :: text)) :=
      List.isPrefixOf_iff_prefix.mpr (List.prefix_append ..)
    rw [Line.text, readLine, if_pos here, List.drop_left, readName_append blank]
    rfl
  | type name kind =>
    obtain ⟨blank, -, -⟩ := plain
    have other : ¬ helpMark.isPrefixOf (typeMark ++ (name ++ ' ' :: kind)) := by
      simp [helpMark, typeMark]
    have here : typeMark.isPrefixOf (typeMark ++ (name ++ ' ' :: kind)) :=
      List.isPrefixOf_iff_prefix.mpr (List.prefix_append ..)
    rw [Line.text, readLine, if_neg other, if_pos here, List.drop_left, readName_append blank]
    rfl
  | sample name labels value =>
    obtain ⟨first, blank, brace, -, names, -⟩ := plain
    have start : (name ++ writeLabels labels ++ ' ' :: value).head? ≠ some '#' := by
      cases name with
      | nil =>
        cases labels with
        | nil => simp [writeLabels]
        | cons l ls => simp [writeLabels]
      | cons c name => simpa using first
    rw [Line.text, readLine, helpMark, typeMark, if_neg (not_isPrefixOf start),
      if_neg (not_isPrefixOf start)]
    exact readSample_sample blank brace fun l mem => (names l mem).1

/-! ## Texts are read -/

lemma not_mem_escape (v : List Char) : '\n' ∉ escape v := by
  intro mem
  obtain ⟨c, -, inside⟩ := List.mem_flatMap.mp mem
  unfold escapeChar at inside
  split_ifs at inside with h₁ h₂ h₃
  · simp at inside
  · simp at inside
  · simp at inside
  · exact h₃ (List.mem_singleton.mp inside).symm

/-- A line has no end in it. -/
lemma not_mem_text {l : Line} (plain : l.Plain) : '\n' ∉ l.text := by
  cases l with
  | help name text =>
    obtain ⟨-, one, other⟩ := plain
    simp [Line.text, helpMark, one, other]
  | type name kind =>
    obtain ⟨-, one, other⟩ := plain
    simp [Line.text, typeMark, one, other]
  | sample name labels value =>
    obtain ⟨-, -, -, one, names, other⟩ := plain
    have label : ∀ l ∈ labels, '\n' ∉ writeLabel l := by
      intro l mem
      simp [writeLabel, (names l mem).2, not_mem_escape]
    have all : '\n' ∉ writeLabels labels := by
      cases labels with
      | nil => simp [writeLabels]
      | cons l ls =>
        have more : '\n' ∉ writeMore ls := by
          intro mem
          obtain ⟨l', here, inside⟩ := List.mem_flatMap.mp mem
          obtain comma | inside := List.mem_cons.mp inside
          · simp at comma
          · exact label l' (List.mem_cons_of_mem _ here) inside
        simp [writeLabels, more, label l (List.mem_cons_self ..)]
    simp [Line.text, one, other, all]

/-- **What was written is read.** -/
theorem read_write {ls : List Line} (plain : ∀ l ∈ ls, l.Plain) : read (write ls) = some ls := by
  have lines : (write ls).splitOn '\n' = ls.map Line.text ++ [[]] := by
    induction ls with
    | nil => rfl
    | cons l ls ih =>
      have text : write (l :: ls) = l.text ++ '\n' :: write ls := by simp [write]
      rw [text, List.splitOn_append_cons_self_of_not_mem (not_mem_text
        (plain l (List.mem_cons_self ..))), ih fun l' mem => plain l' (List.mem_cons_of_mem _ mem)]
      rfl
  have each : (ls.map Line.text).mapM readLine = some ls := by
    clear lines
    induction ls with
    | nil => rfl
    | cons l ls ih =>
      rw [List.map_cons, List.mapM_cons, readLine_text (plain l (List.mem_cons_self ..)),
        ih fun l' mem => plain l' (List.mem_cons_of_mem _ mem)]
      rfl
  unfold read
  rw [lines, List.reverse_append, List.reverse_singleton, List.singleton_append]
  simpa using each

end Exposition
