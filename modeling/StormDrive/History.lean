import Mathlib.Algebra.Ring.Nat
import Mathlib.Data.List.Basic
import Mathlib.Data.List.Sort
import Mathlib.Data.String.Basic
import StormDrive.Interleave.Lines
import StormDrive.Interleave.Runs

set_option relaxedAutoImplicit false
set_option autoImplicit false

/-!
# The kept history on disk

`history.rs` keeps a drive's records and log entries, one JSON line each, in one file a month. A
value is appended with one write, and old months are removed when a new one begins.

## Main definitions

* `month`, `cutoff` — the name of a month file, and the oldest name that is kept.
* `appendJsonl`, `prune` — one append, and what it removes.
* `readLines`, `readLast` — the newest values, and the newest one.
* `KeptLines`, `KeptLines.step` — a directory with the values whose append returned Ok.
* `NoneLost` — every such value is read back, and the newest is the last one.
* `cutInLine` — an append returns Ok on a file that ends with a line feed, and one that is cut
  leaves less than the text of its line, and whole characters.

## Main results

* `none_lost_of_cutInLine` — **no acknowledged line is lost in a run whose appends are all of that
  kind**.
* `acknowledged_line_lost` — a torn line, and the next line is written to its end.

## Implementation notes

`serde_json` is `Lines.Format`. A directory is its month files in the order of their names, as
`months` sorts them. What a crash or a failed write leaves of a line is any number of its first
bytes.
-/

namespace StormDrive

open Lines

/-- `{:0width}` of an integer. -/
def padded (width : ℕ) (n : ℤ) : String :=
  let digits := toString n.natAbs
  if n < 0 then "-" ++ "".pushn '0' (width - 1 - digits.length) ++ digits
  else "".pushn '0' (width - digits.length) ++ digits

/-- The number that decimal digits write. -/
def parseDigits : List Char → Option ℕ
  | [] => none
  | cs => cs.foldl (fun n c => n.bind fun n =>
      if c.isDigit then some (n * 10 + (c.toNat - '0'.toNat)) else none) (some 0)

/-- `parse::<i64>` of a short text. -/
def parseInt : List Char → Option ℤ
  | '-' :: cs => (parseDigits cs).map fun n => -(n : ℤ)
  | '+' :: cs => (parseDigits cs).map fun n => (n : ℤ)
  | cs => (parseDigits cs).map fun n => (n : ℤ)

/-- A time in seconds since 1970, as text. -/
def rfc3339 (secs : ℕ) : String :=
  let days : ℤ := (secs / 86400 : ℕ)
  let rem := secs % 86400
  let z := days + 719468
  let era := z / 146097
  let doe := z - era * 146097
  let yoe := (doe - doe / 1460 + doe / 36524 - doe / 146096) / 365
  let y := yoe + era * 400
  let doy := doe - (365 * yoe + yoe / 4 - yoe / 100)
  let mp := (5 * doy + 2) / 153
  let d := doy - (153 * mp + 2) / 5 + 1
  let m := if mp < 10 then mp + 3 else mp - 9
  let y := if m ≤ 2 then y + 1 else y
  padded 4 y ++ "-" ++ padded 2 m ++ "-" ++ padded 2 d ++ "T" ++ padded 2 (rem / 3600 : ℕ) ++
    ":" ++ padded 2 (rem % 3600 / 60 : ℕ) ++ ":" ++ padded 2 (rem % 60 : ℕ) ++ "Z"

/-- `YYYY-MM` of a time. -/
def month (unix : ℕ) : String := String.ofList ((rfc3339 unix).toList.take 7)

/-- The month `keep` months before `m`: files older are pruned. -/
def cutoff (m : String) (keep : ℕ) : String :=
  let y := (parseInt (m.toList.take 4)).getD 0
  let mo := (parseInt ((m.toList.drop 5).take 2)).getD 1
  let total := y * 12 + (mo - 1) - (keep - 1 : ℕ)
  padded 4 (total / 12) ++ "-" ++ padded 2 (total % 12 + 1)

/-- A directory: the names of its month files and their bytes, oldest first. -/
abbrev MonthFiles : Type := List (String × List UInt8)

/-- Add bytes to the end of a file, which is made when it is not there. -/
def MonthFiles.append (name : String) (bytes : List UInt8) : MonthFiles → MonthFiles
  | [] => [(name, bytes)]
  | (n, b) :: files =>
    if name < n then (name, bytes) :: (n, b) :: files
    else if name = n then (n, b ++ bytes) :: files
    else (n, b) :: MonthFiles.append name bytes files

/-- Remove the month files before the cutoff, those left out that cannot be removed. -/
def prune (files : MonthFiles) (cutoff : String) (stuck : List String) : MonthFiles :=
  files.filter fun f => !(f.1 < cutoff) || stuck.contains f.1

/-- How an append ends. -/
inductive AppendEnd where
  /-- It returns Ok. The files named could not be removed. -/
  | ok (stuck : List String)
  /-- It is cut, or fails, before its line is synced: with nothing done, or with some of the first
  bytes of the line in the file. -/
  | cut (landed : Option ℕ)
  /-- It is cut while it removes old files. Those named are still there. -/
  | pruning (stuck : List String)
  deriving DecidableEq, Repr

variable {α : Type}

/-- Append a value as a line to the file of its month, and remove old months when that file is
new: the files after it, and whether it returns Ok. `append_line` is it for a log entry and
`History::append`, with the same body, for a record. -/
def appendJsonl (fmt : Format α) (files : MonthFiles) (unix : ℕ) (value : α) (keepMonths : ℕ)
    (ending : AppendEnd) : MonthFiles × Bool :=
  let m := month unix
  let newMonth := !files.any fun f => f.1 = m
  let line := utf8 (fmt.encode value ++ ['\n'])
  let pruned := fun stuck =>
    let files := files.append m line
    if newMonth then prune files (cutoff m keepMonths) stuck else files
  match ending with
  | .ok stuck => (pruned stuck, true)
  | .cut none => (files, false)
  | .cut (some n) => (files.append m (line.take n), false)
  | .pruning stuck => (pruned stuck, false)

/-- The values of lines that are read backwards, after those already found, up to the limit. -/
def takeLines (fmt : Format α) (limit : ℕ) (out : List α) : List (List Char) → List α
  | [] => out
  | l :: ls =>
    if limit ≤ out.length then out
    else match fmt.decode l with
      | some r => takeLines fmt limit (out ++ [r]) ls
      | none => takeLines fmt limit out ls

/-- The values of files that are read newest first, after those already found. -/
def takeFiles (fmt : Format α) (limit : ℕ) (out : List α) : MonthFiles → List α
  | [] => out
  | f :: files =>
    match readToString f.2 with
    | none => takeFiles fmt limit out files
    | some text =>
      let out := takeLines fmt limit out (lines text).reverse
      if limit ≤ out.length then out else takeFiles fmt limit out files

/-- The values of a directory, oldest first, at most `limit` of them. `read_records` is it for
records. -/
def readLines (fmt : Format α) (files : MonthFiles) (limit : ℕ) : List α :=
  (takeFiles fmt limit [] files.reverse).reverse

/-- The newest value of files that are read newest first. -/
def lastValue (fmt : Format α) : MonthFiles → Option α
  | [] => none
  | f :: files =>
    match readToString f.2 with
    | none => none
    | some text =>
      match (lines text).reverse.findSome? fmt.decode with
      | some r => some r
      | none => lastValue fmt files

/-- The newest value of a directory. -/
def readLast (fmt : Format α) (files : MonthFiles) : Option α := lastValue fmt files.reverse

/-- One append, by `append_jsonl` or `History::append`. -/
structure AppendCall (α : Type) where
  unix : ℕ
  value : α
  ending : AppendEnd

/-- A directory, and the values whose append returned Ok with the names of their files, those in
files that are gone left out. -/
structure KeptLines (α : Type) where
  files : MonthFiles
  acked : List (String × α)
  deriving DecidableEq

namespace KeptLines

/-- An empty directory. -/
def empty (α : Type) : KeptLines α := ⟨[], []⟩

def step (fmt : Format α) (keepMonths : ℕ) (s : KeptLines α) (call : AppendCall α) :
    KeptLines α :=
  let (files, ok) := appendJsonl fmt s.files call.unix call.value keepMonths call.ending
  let acked := if ok then s.acked ++ [(month call.unix, call.value)] else s.acked
  { files := files, acked := acked.filter fun a => files.any fun f => f.1 = a.1 }

/-- The acknowledged values of a month. -/
def ackedIn (s : KeptLines α) (name : String) : List α :=
  (s.acked.filter fun a => a.1 = name).map Prod.snd

/-- The acknowledged values by month, oldest month first, and within a month as appended. -/
def oldestFirst (s : KeptLines α) : List α := s.files.flatMap fun f => s.ackedIn f.1

end KeptLines

/-- **No acknowledged line is lost.** With a large enough limit the values whose append returned
Ok are read back in order, oldest first, and the newest read is the last of them. Where the clock
never went back to an earlier month, that is the order of the appends. -/
structure NoneLost (fmt : Format α) (s : KeptLines α) : Prop where
  returned : ∃ enough, ∀ limit, enough ≤ limit →
    s.oldestFirst.Sublist (readLines fmt s.files limit)
  last : ∀ v, s.oldestFirst.getLast? = some v → readLast fmt s.files = some v
  inOrder : (s.acked.Pairwise fun a b => a.1 ≤ b.1) → s.oldestFirst = s.acked.map Prod.snd

/-- The file is empty or ends with a line feed. -/
def EndsWithLine (bytes : List UInt8) : Prop :=
  ∃ text, readToString bytes = some text ∧ ∀ c, text.getLast? = some c → c = '\n'

/-- An append that returns Ok finds the file of its month ending with a line feed, if it is there.
One that is cut leaves less than the text of its line, and whole characters. -/
def cutInLine (fmt : Format α) (s : KeptLines α) (call : AppendCall α) : Prop :=
  match call.ending with
  | .ok _ => ∀ f ∈ s.files, f.1 = month call.unix → EndsWithLine f.2
  | .cut none => True
  | .cut (some n) => ∃ p, p <+: fmt.encode call.value ∧ p ≠ fmt.encode call.value ∧
      (utf8 (fmt.encode call.value ++ ['\n'])).take n = utf8 p
  | .pruning _ => False

section Files

variable {fmt : Format α} {files : MonthFiles} {name : String} {bytes : List UInt8}

/-- The names rise. -/
def MonthFiles.Sorted (files : MonthFiles) : Prop := files.Pairwise fun f g => f.1 < g.1

/-- The bytes of a file, none where it is not there. -/
def MonthFiles.content : MonthFiles → String → List UInt8
  | [], _ => []
  | (n, b) :: files, name => if name = n then b else content files name

lemma MonthFiles.content_of_notMem (h : ∀ f ∈ files, f.1 ≠ name) : files.content name = [] := by
  induction files with
  | nil => rfl
  | cons g files ih =>
    have hg : ¬ name = g.1 := fun heq => h g List.mem_cons_self heq.symm
    rw [content, if_neg hg]
    exact ih fun f hf => h f (List.mem_cons_of_mem g hf)

lemma MonthFiles.content_of_mem (h : files.Sorted) (hf : (name, bytes) ∈ files) :
    files.content name = bytes := by
  induction files with
  | nil => exact absurd hf List.not_mem_nil
  | cons g files ih =>
    obtain ⟨hg, hrest⟩ := List.pairwise_cons.mp h
    rcases List.mem_cons.mp hf with heq | hf
    · rw [← heq, content, if_pos rfl]
    · have hne : ¬ name = g.1 := ne_of_gt (hg _ hf)
      rw [content, if_neg hne]
      exact ih hrest hf

/-- What is in a directory after an append: the other files, and the one that was added to. -/
lemma MonthFiles.mem_append (h : files.Sorted) (name : String) (bytes : List UInt8)
    (f : String × List UInt8) :
    f ∈ files.append name bytes ↔
      (f ∈ files ∧ f.1 ≠ name) ∨ f = (name, files.content name ++ bytes) := by
  induction files with
  | nil => simp [MonthFiles.append, content]
  | cons g files ih =>
    obtain ⟨n, b⟩ := g
    obtain ⟨hn, hrest⟩ := List.pairwise_cons.mp h
    by_cases hlt : name < n
    · have hout : ∀ f ∈ (n, b) :: files, f.1 ≠ name := by
        intro f hf
        rcases List.mem_cons.mp hf with rfl | hf
        · exact ne_of_gt hlt
        · exact ne_of_gt (lt_trans hlt (hn f hf))
      rw [MonthFiles.append, if_pos hlt, content_of_notMem hout, List.nil_append, List.mem_cons]
      constructor
      · rintro (hf | hf)
        · exact Or.inr hf
        · exact Or.inl ⟨hf, hout f hf⟩
      · rintro (hf | hf)
        · exact Or.inr hf.1
        · exact Or.inl hf
    · by_cases heq : name = n
      · have hout : ∀ f ∈ files, f.1 ≠ name := fun f hf => by
          rw [heq]
          exact ne_of_gt (hn f hf)
        rw [MonthFiles.append, if_neg hlt, if_pos heq, content, if_pos heq, List.mem_cons,
          List.mem_cons]
        constructor
        · rintro (hf | hf)
          · rw [heq]
            exact Or.inr hf
          · exact Or.inl ⟨Or.inr hf, hout f hf⟩
        · rintro (⟨hf | hf, hne⟩ | hf)
          · rw [hf] at hne
            exact absurd heq.symm hne
          · exact Or.inr hf
          · rw [← heq]
            exact Or.inl hf
      · rw [MonthFiles.append, if_neg hlt, if_neg heq, content, if_neg heq, List.mem_cons,
          List.mem_cons, ih hrest]
        constructor
        · rintro (hf | ⟨hf, hne⟩ | hf)
          · refine Or.inl ⟨Or.inl hf, ?_⟩
            rw [hf]
            exact Ne.symm heq
          · exact Or.inl ⟨Or.inr hf, hne⟩
          · exact Or.inr hf
        · rintro (⟨hf | hf, hne⟩ | hf)
          · exact Or.inl hf
          · exact Or.inr (Or.inl ⟨hf, hne⟩)
          · exact Or.inr (Or.inr hf)

lemma MonthFiles.sorted_append (h : files.Sorted) : (files.append name bytes).Sorted := by
  induction files with
  | nil => exact List.pairwise_singleton _ _
  | cons g files ih =>
    obtain ⟨n, b⟩ := g
    obtain ⟨hn, hrest⟩ := List.pairwise_cons.mp h
    rw [MonthFiles.append]
    by_cases hlt : name < n
    · rw [if_pos hlt]
      refine List.pairwise_cons.mpr ⟨?_, h⟩
      intro f hf
      rcases List.mem_cons.mp hf with rfl | hf
      · exact hlt
      · exact lt_trans hlt (hn f hf)
    · rw [if_neg hlt]
      by_cases heq : name = n
      · rw [if_pos heq]
        exact List.pairwise_cons.mpr ⟨hn, hrest⟩
      · rw [if_neg heq]
        refine List.pairwise_cons.mpr ⟨?_, ih hrest⟩
        intro f hf
        rcases (mem_append hrest name bytes f).mp hf with ⟨hf, -⟩ | hf
        · exact hn f hf
        · rw [hf]
          exact lt_of_le_of_ne (not_lt.mp hlt) (Ne.symm heq)

lemma MonthFiles.Sorted.prune (h : files.Sorted) (cutoff : String) (stuck : List String) :
    (prune files cutoff stuck).Sorted := h.filter _

/-- Every file of the directory is text. -/
def MonthFiles.Readable (files : MonthFiles) : Prop := ∀ f ∈ files, readToString f.2 ≠ none

/-- Lines read backwards give their values backwards, up to the limit. -/
lemma takeLines_eq (fmt : Format α) (limit : ℕ) (out : List α) (ls : List (List Char))
    (h : out.length + ls.length ≤ limit) :
    takeLines fmt limit out ls = out ++ ls.filterMap fmt.decode := by
  induction ls generalizing out with
  | nil => simp [takeLines]
  | cons l ls ih =>
    rw [List.length_cons] at h
    have hlt : ¬ limit ≤ out.length := by omega
    rw [takeLines, if_neg hlt]
    cases hdecode : fmt.decode l with
    | none =>
      rw [List.filterMap_cons_none hdecode]
      exact ih out (by omega)
    | some r =>
      have hlen : (out ++ [r]).length + ls.length ≤ limit := by
        rw [List.length_append, List.length_singleton]
        omega
      rw [List.filterMap_cons_some hdecode]
      simpa using ih (out ++ [r]) hlen

/-- How many lines the files have. -/
def MonthFiles.lineCount (files : MonthFiles) : ℕ :=
  (files.map fun f => ((readToString f.2).map fun text => (lines text).length).getD 0).sum

/-- With a large enough limit, files read newest first give their values backwards. -/
lemma takeFiles_eq (limit : ℕ) (out : List α) (files : MonthFiles)
    (h : out.length + files.lineCount < limit) :
    takeFiles fmt limit out files =
      out ++ files.flatMap fun f => (values fmt f.2).reverse := by
  induction files generalizing out with
  | nil => simp [takeFiles]
  | cons f files ih =>
    have hcount : MonthFiles.lineCount (f :: files) =
        ((readToString f.2).map fun text => (lines text).length).getD 0 +
          MonthFiles.lineCount files := by
      simp [MonthFiles.lineCount]
    rw [hcount] at h
    rw [takeFiles, List.flatMap_cons]
    cases hread : readToString f.2 with
    | none =>
      rw [hread] at h
      simp only [Option.map_none, Option.getD_none] at h
      have hnone : values fmt f.2 = [] := by rw [values, hread]
      rw [hnone, List.reverse_nil, List.nil_append]
      exact ih out (by omega)
    | some text =>
      rw [hread] at h
      simp only [Option.map_some, Option.getD_some] at h
      have hvalues : values fmt f.2 = (lines text).filterMap fmt.decode := by rw [values, hread]
      have hlines := takeLines_eq fmt limit out (lines text).reverse (by
        rw [List.length_reverse]
        omega)
      have hfound : ((lines text).filterMap fmt.decode).length ≤ (lines text).length :=
        List.length_filterMap_le _ _
      have hlen : (out ++ (lines text).reverse.filterMap fmt.decode).length =
          out.length + ((lines text).filterMap fmt.decode).length := by
        rw [List.filterMap_reverse, List.length_append, List.length_reverse]
      simp only [hlines]
      rw [if_neg (by omega), ih _ (by omega), List.append_assoc, hvalues, List.filterMap_reverse]

/-- With a large enough limit a directory is read whole. -/
lemma readLines_eq (files : MonthFiles) {limit : ℕ} (h : files.lineCount < limit) :
    readLines fmt files limit = files.flatMap fun f => values fmt f.2 := by
  have hcount : MonthFiles.lineCount files.reverse = files.lineCount := by
    rw [MonthFiles.lineCount, List.map_reverse, List.sum_reverse]
    rfl
  rw [readLines, takeFiles_eq limit [] files.reverse (by simpa [hcount] using h), List.nil_append,
    List.reverse_flatMap]
  simp [Function.comp_def]

lemma lastValue_eq (h : files.Readable) :
    lastValue fmt files = (files.flatMap fun f => (values fmt f.2).reverse).head? := by
  induction files with
  | nil => rfl
  | cons f files ih =>
    have hrest : MonthFiles.Readable files := fun g hg => h g (List.mem_cons_of_mem f hg)
    rw [lastValue, List.flatMap_cons, List.head?_append]
    cases hread : readToString f.2 with
    | none => exact absurd hread (h f List.mem_cons_self)
    | some text =>
      have hvalues : values fmt f.2 = (lines text).filterMap fmt.decode := by rw [values, hread]
      rw [hvalues, ← List.filterMap_reverse, List.head?_filterMap]
      simp only
      cases (lines text).reverse.findSome? fmt.decode with
      | none => exact ih hrest
      | some r => rfl

/-- In files that are all text, the newest value is the last one. -/
lemma readLast_eq (h : files.Readable) :
    readLast fmt files = (files.flatMap fun f => values fmt f.2).getLast? := by
  have hrev : MonthFiles.Readable files.reverse := fun f hf => h f (List.mem_reverse.mp hf)
  rw [readLast, lastValue_eq hrev, List.getLast?_eq_head?_reverse, List.reverse_flatMap]
  rfl

end Files

namespace KeptLines

variable {fmt : Format α} {s : KeptLines α} {keepMonths : ℕ}

/-- What holds of a directory as long as no line is torn but at the end of its file: each file has
the acknowledged lines of its month and what cut appends left after them. -/
structure Whole (fmt : Format α) (s : KeptLines α) : Prop where
  sorted : s.files.Sorted
  each : ∀ f ∈ s.files, ∃ torn, Torn fmt torn ∧ f.2 = utf8 (fmt.text (s.ackedIn f.1) ++ torn)
  listed : ∀ a ∈ s.acked, ∃ f ∈ s.files, f.1 = a.1

lemma Whole.values (h : Whole fmt s) {f : String × List UInt8} (hf : f ∈ s.files) :
    values fmt f.2 = s.ackedIn f.1 := by
  obtain ⟨torn, htorn, hbytes⟩ := h.each f hf
  rw [hbytes, values_whole htorn]

lemma Whole.readable (h : Whole fmt s) : s.files.Readable := by
  intro f hf
  obtain ⟨torn, -, hbytes⟩ := h.each f hf
  rw [hbytes, readToString_utf8]
  exact Option.some_ne_none _

lemma Whole.flatMap_values (h : Whole fmt s) :
    (s.files.flatMap fun f => Lines.values fmt f.2) = s.oldestFirst :=
  List.flatMap_congr fun _ hf => h.values hf

/-- What a file of a month has, also where it is not there. -/
lemma Whole.content (h : Whole fmt s) (name : String) :
    ∃ torn, Torn fmt torn ∧ s.files.content name = utf8 (fmt.text (s.ackedIn name) ++ torn) := by
  by_cases hex : ∃ f ∈ s.files, f.1 = name
  · obtain ⟨⟨n, b⟩, hf, rfl⟩ := hex
    rw [MonthFiles.content_of_mem h.sorted hf]
    exact h.each _ hf
  · have hout : ∀ f ∈ s.files, f.1 ≠ name := fun f hf heq => hex ⟨f, hf, heq⟩
    have hnone : s.ackedIn name = [] := by
      rw [ackedIn, List.map_eq_nil_iff, List.filter_eq_nil_iff]
      intro a ha heq
      obtain ⟨f, hf, hfa⟩ := h.listed a ha
      exact hout f hf (hfa.trans (of_decide_eq_true heq))
    refine ⟨[], torn_nil, ?_⟩
    rw [MonthFiles.content_of_notMem hout, hnone]
    rfl

/-- In order of months, those of the first month come first. -/
lemma filter_append_filter {acked : List (String × α)} {name : String}
    (h : acked.Pairwise fun a b => a.1 ≤ b.1) (hmin : ∀ a ∈ acked, name ≤ a.1) :
    (acked.filter fun a => a.1 = name) ++ (acked.filter fun a => a.1 ≠ name) = acked := by
  induction acked with
  | nil => rfl
  | cons a acked ih =>
    obtain ⟨ha, hrest⟩ := List.pairwise_cons.mp h
    by_cases heq : a.1 = name
    · have hih := ih hrest fun b hb => hmin b (List.mem_cons_of_mem a hb)
      have hfirst : ((a :: acked).filter fun a => a.1 = name) =
          a :: acked.filter fun a => a.1 = name := List.filter_cons_of_pos (by simpa using heq)
      have hlater : ((a :: acked).filter fun a => a.1 ≠ name) =
          acked.filter fun a => a.1 ≠ name := List.filter_cons_of_neg (by simpa using heq)
      rw [hfirst, hlater, List.cons_append, hih]
    · have hlt : name < a.1 := lt_of_le_of_ne (hmin a List.mem_cons_self) (Ne.symm heq)
      have hall : ∀ b ∈ a :: acked, b.1 ≠ name := by
        intro b hb
        rcases List.mem_cons.mp hb with rfl | hb
        · exact heq
        · exact ne_of_gt (lt_of_lt_of_le hlt (ha b hb))
      rw [List.filter_eq_nil_iff.mpr fun b hb => by simpa using hall b hb,
        List.filter_eq_self.mpr fun b hb => by simpa using hall b hb, List.nil_append]

/-- Values appended in order of months are in that order by month. -/
lemma flatMap_acked {files : MonthFiles} {acked : List (String × α)} (hfiles : files.Sorted)
    (h : acked.Pairwise fun a b => a.1 ≤ b.1) (hlisted : ∀ a ∈ acked, ∃ f ∈ files, f.1 = a.1) :
    (files.flatMap fun f => (acked.filter fun a => a.1 = f.1).map Prod.snd) =
      acked.map Prod.snd := by
  induction files generalizing acked with
  | nil =>
    have hnil : acked = [] := by
      refine List.eq_nil_iff_forall_not_mem.mpr fun a ha => ?_
      obtain ⟨f, hf, -⟩ := hlisted a ha
      exact absurd hf List.not_mem_nil
    rw [hnil]
    rfl
  | cons f files ih =>
    obtain ⟨hf, hrest⟩ := List.pairwise_cons.mp hfiles
    have hmin : ∀ a ∈ acked, f.1 ≤ a.1 := by
      intro a ha
      obtain ⟨g, hg, heq⟩ := hlisted a ha
      rcases List.mem_cons.mp hg with rfl | hg
      · exact le_of_eq heq
      · rw [← heq]
        exact le_of_lt (hf g hg)
    have hlater := @ih (acked.filter fun a => a.1 ≠ f.1) hrest (h.filter _) (by
      intro a ha
      obtain ⟨ha, hne⟩ := List.mem_filter.mp ha
      obtain ⟨g, hg, heq⟩ := hlisted a ha
      rcases List.mem_cons.mp hg with rfl | hg
      · exact absurd heq.symm (by simpa using hne)
      · exact ⟨g, hg, heq⟩)
    have hsame : (files.flatMap fun g => (acked.filter fun a => a.1 = g.1).map Prod.snd) =
        files.flatMap fun g =>
          ((acked.filter fun a => a.1 ≠ f.1).filter fun a => a.1 = g.1).map Prod.snd := by
      refine List.flatMap_congr fun g hg => ?_
      rw [List.filter_filter]
      refine congrArg _ (List.filter_congr fun a _ => ?_)
      have hlt := hf g hg
      by_cases heq : a.1 = g.1
      · have hne : a.1 ≠ f.1 := by
          rw [heq]
          exact ne_of_gt hlt
        simp [heq, ne_of_gt hlt]
      · simp [heq]
    rw [List.flatMap_cons, hsame, hlater, ← List.map_append, filter_append_filter h hmin]

/-- **Nothing that was acknowledged is lost.** -/
lemma Whole.noneLost (h : Whole fmt s) : NoneLost fmt s := by
  refine ⟨⟨s.files.lineCount + 1, ?_⟩, ?_, ?_⟩
  · intro limit hlimit
    rw [readLines_eq s.files (by omega), h.flatMap_values]
  · intro v hv
    rw [readLast_eq h.readable, h.flatMap_values, hv]
  · intro hpairs
    show (s.files.flatMap fun f => s.ackedIn f.1) = _
    exact flatMap_acked h.sorted hpairs h.listed

/-- Files can go, with what is in them. -/
lemma Whole.keep (h : Whole fmt s) {files : MonthFiles} (hsub : files.Sublist s.files) :
    Whole fmt { files := files
                acked := s.acked.filter fun a => files.any fun f => f.1 = a.1 } := by
  refine ⟨h.sorted.sublist hsub, ?_, ?_⟩
  · intro f hf
    have hacked : ackedIn { files := files
                            acked := s.acked.filter fun a => files.any fun f => f.1 = a.1 } f.1 =
        s.ackedIn f.1 := by
      simp only [ackedIn, List.filter_filter]
      refine congrArg _ (List.filter_congr fun a _ => ?_)
      by_cases heq : a.1 = f.1
      · have hany : (files.any fun g => g.1 = a.1) = true :=
          List.any_eq_true.mpr ⟨f, hf, decide_eq_true heq.symm⟩
        rw [hany, Bool.and_true]
      · simp [heq]
    rw [hacked]
    exact h.each f (hsub.subset hf)
  · intro a ha
    obtain ⟨f, hf, heq⟩ := List.any_eq_true.mp (List.mem_filter.mp ha).2
    exact ⟨f, hf, of_decide_eq_true heq⟩

/-- Bytes are added to one file, and a value is acknowledged or not. -/
lemma Whole.append (h : Whole fmt s) {name : String} {bytes : List UInt8} {more : List α}
    {torn : List Char} (htorn : Torn fmt torn)
    (hbytes : s.files.content name ++ bytes =
      utf8 (fmt.text (s.ackedIn name ++ more) ++ torn)) :
    Whole fmt { files := s.files.append name bytes
                acked := s.acked ++ more.map fun v => (name, v) } := by
  have hmem := MonthFiles.mem_append h.sorted name bytes
  have hother : ∀ n, n ≠ name → ackedIn { files := s.files.append name bytes
                                          acked := s.acked ++ more.map fun v => (name, v) } n =
      s.ackedIn n := by
    intro n hn
    have hnone : ((more.map fun v => (name, v)).filter fun a => a.1 = n) = [] := by
      refine List.filter_eq_nil_iff.mpr fun a ha => ?_
      obtain ⟨v, -, rfl⟩ := List.mem_map.mp ha
      simpa using Ne.symm hn
    rw [ackedIn, List.filter_append, hnone, List.append_nil, ackedIn]
  have hthis : ackedIn { files := s.files.append name bytes
                         acked := s.acked ++ more.map fun v => (name, v) } name =
      s.ackedIn name ++ more := by
    have hall : ((more.map fun v => (name, v)).filter fun a => a.1 = name) =
        more.map fun v => (name, v) := by
      refine List.filter_eq_self.mpr fun a ha => ?_
      obtain ⟨v, -, rfl⟩ := List.mem_map.mp ha
      simp
    rw [ackedIn, List.filter_append, hall, List.map_append, List.map_map, ackedIn]
    simp [Function.comp_def]
  refine ⟨MonthFiles.sorted_append h.sorted, ?_, ?_⟩
  · intro f hf
    rcases (hmem f).mp hf with ⟨hf, hne⟩ | rfl
    · rw [hother f.1 hne]
      exact h.each f hf
    · rw [hthis]
      exact ⟨torn, htorn, hbytes⟩
  · intro a ha
    have hname : ∃ f ∈ s.files.append name bytes, f.1 = name :=
      ⟨_, (hmem _).mpr (Or.inr rfl), rfl⟩
    rcases List.mem_append.mp ha with ha | ha
    · obtain ⟨f, hf, heq⟩ := h.listed a ha
      by_cases hfn : f.1 = name
      · rw [← heq, hfn]
        exact hname
      · exact ⟨f, (hmem f).mpr (Or.inl ⟨hf, hfn⟩), heq⟩
    · obtain ⟨v, -, rfl⟩ := List.mem_map.mp ha
      exact hname

/-- A file that ends with a line has nothing torn after its lines. -/
lemma torn_eq_nil {vs : List α} {torn : List Char} (htorn : Torn fmt torn)
    (h : EndsWithLine (utf8 (fmt.text vs ++ torn))) : torn = [] := by
  obtain ⟨text, hread, hlast⟩ := h
  rw [readToString_utf8] at hread
  have htext : fmt.text vs ++ torn = text := Option.some.inj hread
  by_contra hne
  have hmem := List.getLast_mem hne
  have hlf : torn.getLast hne = '\n' := by
    refine hlast _ ?_
    rw [← htext, List.getLast?_append_of_ne_nil _ hne, List.getLast?_eq_getLast_of_ne_nil hne]
  exact (htorn.unbroken _ hmem).1 hlf

/-- The file of a month ends with a line where it is not there. -/
lemma endsWithLine_content {files : MonthFiles} (hsorted : files.Sorted) {name : String}
    (h : ∀ f ∈ files, f.1 = name → EndsWithLine f.2) : EndsWithLine (files.content name) := by
  by_cases hex : ∃ f ∈ files, f.1 = name
  · obtain ⟨⟨n, b⟩, hf, rfl⟩ := hex
    rw [MonthFiles.content_of_mem hsorted hf]
    exact h _ hf rfl
  · rw [MonthFiles.content_of_notMem fun f hf heq => hex ⟨f, hf, heq⟩]
    refine ⟨[], readToString_utf8 [], ?_⟩
    intro c hc
    exact absurd hc (Option.some_ne_none c).symm

/-- **What one append keeps.** -/
lemma Whole.step (h : Whole fmt s) {call : AppendCall α} (hok : cutInLine fmt s call) :
    Whole fmt (s.step fmt keepMonths call) := by
  obtain ⟨unix, value, ending⟩ := call
  obtain ⟨torn, htorn, hcontent⟩ := h.content (month unix)
  cases ending with
  | ok stuck =>
    have hends := endsWithLine_content h.sorted hok
    rw [hcontent] at hends
    have hnil := torn_eq_nil htorn hends
    have happend : s.files.content (month unix) ++ utf8 (fmt.encode value ++ ['\n']) =
        utf8 (fmt.text (s.ackedIn (month unix) ++ [value]) ++ []) := by
      rw [hcontent, hnil, ← utf8_append]
      simp [Format.text]
    refine (h.append torn_nil happend).keep ?_
    show List.Sublist (if _ then prune (s.files.append (month unix) _) _ _
      else s.files.append (month unix) _) _
    split
    · exact List.filter_sublist
    · exact List.Sublist.refl _
  | cut landed =>
    cases landed with
    | none => exact h.keep (List.Sublist.refl _)
    | some n =>
      obtain ⟨p, hp, hne, hbytes⟩ := hok
      have happend : s.files.content (month unix) ++
          (utf8 (fmt.encode value ++ ['\n'])).take n =
            utf8 (fmt.text (s.ackedIn (month unix) ++ []) ++ (torn ++ p)) := by
        rw [hbytes, hcontent, List.append_nil, ← utf8_append, List.append_assoc]
      have hwhole := (h.append (htorn.append hp hne) happend).keep (List.Sublist.refl _)
      rw [List.map_nil, List.append_nil] at hwhole
      exact hwhole
  | pruning stuck => exact absurd hok id

lemma whole_empty (fmt : Format α) : Whole fmt (KeptLines.empty α) := by
  refine ⟨List.Pairwise.nil, ?_, ?_⟩
  · intro f hf
    exact absurd hf List.not_mem_nil
  · intro a ha
    exact absurd ha List.not_mem_nil

end KeptLines

/-- In every run of appends on an empty directory whose appends meet the condition, no
acknowledged line is ever lost. -/
def KeepsAcknowledged (α : Type)
    (ok : Format α → KeptLines α → AppendCall α → Prop) : Prop :=
  ∀ (fmt : Format α) (keepMonths : ℕ) (run : List (AppendCall α)),
    Runs.Each (KeptLines.step fmt keepMonths) (ok fmt) (KeptLines.empty α) run →
      Runs.Throughout (KeptLines.step fmt keepMonths) (NoneLost fmt) (KeptLines.empty α) run

/-- **No acknowledged line is lost in a run whose appends end in their lines**: for every format
of lines and number of months kept, every append returns Ok on a file that ends with a line feed,
or is cut within the text of its line and between characters.

**Proof sketch.** The invariant rule with `KeptLines.Whole`, which `KeptLines.Whole.step` keeps and
which gives the property by `KeptLines.Whole.noneLost`. -/
theorem none_lost_of_cutInLine (α : Type) : KeepsAcknowledged α cutInLine := by
  intro fmt keepMonths run h
  have hwhole : Runs.Throughout (KeptLines.step fmt keepMonths) (KeptLines.Whole fmt)
      (KeptLines.empty α) run :=
    Runs.throughout_of_each (fun _ _ hs hok => KeptLines.Whole.step hs hok)
      (KeptLines.whole_empty fmt) h
  exact hwhole.mono fun _ hs => hs.noneLost

/-- `{"ok":true}` and `{"ok":false}` without the closing brace. -/
def okStem (v : Bool) : List Char :=
  if v then "\x7b\"ok\":true".toList else "\x7b\"ok\":false".toList

/-- What starts such a line and is not all of it has no closing brace. -/
lemma notMem_of_prefix_okStem {p : List Char} {v : Bool} (hp : p <+: okStem v ++ ['\x7d'])
    (hne : p ≠ okStem v ++ ['\x7d']) : '\x7d' ∉ p := by
  have hstem : p <+: okStem v := by
    rcases List.prefix_concat_iff.mp hp with heq | hstem
    · exact absurd heq hne
    · exact hstem
  have hnot : ∀ v, '\x7d' ∉ okStem v := by decide
  exact fun hmem => hnot v (hstem.subset hmem)

/-- The lines `{"ok":true}` and `{"ok":false}`. -/
def okFormat : Format Bool where
  encode v := okStem v ++ ['\x7d']
  decode line :=
    if line = okStem true ++ ['\x7d'] then some true
    else if line = okStem false ++ ['\x7d'] then some false
    else none
  decode_encode := by decide
  not_newline := by
    have each : ∀ v, (okStem v ++ ['\x7d']).all fun c => c ≠ '\n' ∧ c ≠ '\r' := by decide
    exact fun v c mem => of_decide_eq_true (List.all_eq_true.mp (each v) c mem)
  decode_torn := by
    intro parts _ hparts
    have hopen : '\x7d' ∉ parts.flatten := by
      intro hmem
      obtain ⟨p, hp, hclose⟩ := List.mem_flatten.mp hmem
      obtain ⟨-, v, hpre, hne⟩ := hparts p hp
      exact notMem_of_prefix_okStem hpre hne hclose
    have hne : ∀ v, parts.flatten ≠ okStem v ++ ['\x7d'] := by
      intro v heq
      rw [heq] at hopen
      exact hopen (List.mem_append_right _ List.mem_cons_self)
    rw [if_neg (hne true), if_neg (hne false)]

/-- What the file has after a whole line, four characters of the next and a whole line. -/
def tornText : List Char := "\x7b\"ok\":true\x7d\n\x7b\"ok\x7b\"ok\":false\x7d\n".toList

/-- A line is acknowledged, an append is cut after four characters, and the next one is
acknowledged: its line stands at the end of the torn one, and no reader finds it. -/
theorem acknowledged_line_lost : ¬ KeepsAcknowledged Bool fun _ _ _ => True := by
  intro h
  have hrun := h okFormat 24 [⟨1791640000, true, .ok []⟩, ⟨1791640060, false, .cut (some 4)⟩,
    ⟨1791640120, false, .ok []⟩] (by decide)
  have hstate : Runs.after (KeptLines.step okFormat 24) (KeptLines.empty Bool)
      [⟨1791640000, true, .ok []⟩, ⟨1791640060, false, .cut (some 4)⟩,
        ⟨1791640120, false, .ok []⟩] =
      ⟨[("2026-10", utf8 tornText)], [("2026-10", true), ("2026-10", false)]⟩ := by
    decide +kernel
  have hvalues : values okFormat (utf8 tornText) = [true] := by
    rw [values, readToString_utf8]
    decide
  obtain ⟨enough, henough⟩ := hrun.last.returned
  rw [hstate] at henough
  have hread := henough (enough + MonthFiles.lineCount [("2026-10", utf8 tornText)] + 1) (by omega)
  rw [readLines_eq _ (by simp only; omega)] at hread
  have hlen := hread.length_le
  rw [List.flatMap_cons, hvalues] at hlen
  revert hlen
  decide

end StormDrive
