import Mathlib.Data.List.Nodup
import Mathlib.Logic.Function.Basic
import StormDrive.Events
import StormDrive.History
import StormDrive.Identity
import StormDrive.Interleave.Runs
import StormDrive.Interleave.Tally
import StormDrive.JobRequest
import StormDrive.MetricsPage

set_option relaxedAutoImplicit false
set_option autoImplicit false

/-!
# What happened to a drive

`history.rs` keeps a log for each drive in its directory of the system-data volume, one line for
every event about the drive and every finished operation, and beside it `summary.json`, which counts
the lines. The daemon holds the summaries it has used in memory.

## Main definitions

* `DriveLog.Entry`, `DriveLog.Summary`, `DriveLog.Summary.add` — a line, the summary, and counting
  one line.
* `DriveLog.log` — `History::log`: append, count, replace the summary.
* `DriveLog.itemOf`, `DriveLog.Writer.step` — the writer task, with scans, mounts and restarts.
* `DriveLog.Summary.Tells` — what a summary says of the lines it counts.

## Main results

* `DriveLog.tells_foldl` — counting lines one by one gives what they say together.
* `DriveLog.Counted.step` — what happens keeps the summaries right.
* `DriveLog.summary_counts` — **a drive's summary counts every line that was acknowledged once, and
  no line twice**, over failing writes and restarts at any point.

## Implementation notes

`summary.json` is replaced by a rename, so it is one whole summary, and a power cut that takes the
rename back is left out. An append that does not return Ok, and one that is cut while it removes old
files, count as not written; what they leave in the log is in `appendJsonl`.
-/

namespace StormDrive

namespace DriveLog

/-! ## Lines and summaries -/

/-- Who the drive is and where it was. -/
structure Identity where
  id : String
  wwn : Option String
  serial : String
  model : String
  firmware : String
  kind : String
  path : String
  bay : Option String
  capacityBytes : ℕ

/-- What was done to a drive, and how it ended. -/
structure Action where
  op : String
  params : Json := .null
  result : String
  error : Option String := none
  requester : Option String := none
  job : Option String := none
  before : Json := .null
  after : Json := .null

/-- One line of a drive's log. -/
structure Entry where
  moment : String
  unix : ℕ
  bootId : String
  node : String
  stormdrive : String
  drive : Identity
  kind : String
  severity : String
  message : String
  action : Option Action

/-- An operation at a glance. -/
structure LastAction where
  op : String
  result : String
  moment : String
  params : Json

/-- A drive's history at a glance. -/
structure Summary where
  key : String := ""
  firstAt : String := ""
  lastAt : String := ""
  entries : ℕ := 0
  actions : ℕ := 0
  warnings : ℕ := 0
  lastAction : Option LastAction := none
  lastFormat : Option LastAction := none
  nodes : List String := []
  bays : List String := []

/-- An operation at a glance, of a line that has one. -/
def Entry.lastAction (e : Entry) : Option LastAction :=
  e.action.map fun a => { op := a.op, result := a.result, moment := e.moment, params := a.params }

/-- Add a name that is not there yet. -/
def noted (names : List String) (name : String) : List String :=
  if names.contains name then names else names ++ [name]

/-- `Summary::add`: count one line in. -/
def Summary.add (key : String) (s : Summary) (e : Entry) : Summary :=
  { key := if s.key = "" then key else s.key
    firstAt := if s.key = "" then e.moment else s.firstAt
    lastAt := e.moment
    entries := s.entries + 1
    warnings := if e.severity ≠ "info" then s.warnings + 1 else s.warnings
    nodes := if e.node ≠ "" then noted s.nodes e.node else s.nodes
    bays := match e.drive.bay with
      | some b => noted s.bays b
      | none => s.bays
    actions := if e.action.isSome then s.actions + 1 else s.actions
    lastFormat := match e.lastAction with
      | some last => if last.op = "format" then some last else s.lastFormat
      | none => s.lastFormat
    lastAction := e.lastAction.or s.lastAction }

/-- A drive, with the version of its firmware. -/
structure Drive extends StormDrive.Drive where
  firmware : String

/-- `history::identity`. -/
def identity (d : Drive) : Identity where
  id := d.id.uuid.text
  wwn := d.wwid
  serial := d.serial
  model := d.model
  firmware := d.firmware
  kind := Metrics.kindWord d.kind
  path := d.path
  bay := d.location.bayKey
  capacityBytes := d.capacityBytes

/-! ## Writing a line -/

/-- What every line of a boot has. -/
structure Boot where
  bootId : String
  node : String
  stormdrive : String

/-- What a line is about. -/
structure Logged where
  kind : String
  severity : String
  message : String
  action : Option Action := none
  unix : ℕ

/-- The line. -/
def entry (boot : Boot) (d : Drive) (l : Logged) : Entry where
  moment := rfc3339 l.unix
  unix := l.unix
  bootId := boot.bootId
  node := boot.node
  stormdrive := boot.stormdrive
  drive := identity d
  kind := l.kind
  severity := l.severity
  message := l.message
  action := l.action

/-- How the replacement of `summary.json` ends. -/
inductive SaveEnd
  | saved
  | failed
  /-- The daemon is killed before the rename, or after it. -/
  | killedBefore
  | killedAfter
  deriving DecidableEq

/-- How a call goes. -/
structure Ending where
  append : AppendEnd := .ok []
  /-- A `summary.json` that is there cannot be read, or is no summary. -/
  unread : Bool := false
  save : SaveEnd := .saved

/-- A drive's directory. -/
structure Dir where
  log : MonthFiles := []
  summary : Option Summary := none

/-- The writer: is the volume there, the directories by key, and the summaries in memory. -/
structure History where
  available : Bool := false
  dirs : String → Dir := fun _ => {}
  summaries : String → Option Summary := fun _ => none

/-- `read_summary`. -/
def Dir.readSummary (dir : Dir) (unread : Bool) : Option Summary :=
  if unread then none else dir.summary

/-- The daemon ends, and with it the summaries in memory. -/
def History.restart (h : History) : History := { h with summaries := fun _ => none }

/-- A directory with another summary. -/
def History.replace (h : History) (k : String) (sum : Summary) : History :=
  { h with dirs := Function.update h.dirs k { h.dirs k with summary := some sum } }

/-- The files of the log after an append, and whether it returned Ok. -/
def History.append (fmt : Lines.Format Entry) (keepMonths : ℕ) (h : History) (k : String)
    (e : Entry) (ending : AppendEnd) : MonthFiles × Bool :=
  appendJsonl fmt (h.dirs k).log e.unix e keepMonths ending

/-- The summary that a line is counted into. -/
def History.current (h : History) (k : String) (unread : Bool) : Summary :=
  (h.summaries k).getD (((h.dirs k).readSummary unread).getD {})

/-- `History::log`: append the line, count it, and replace the summary. -/
def log (fmt : Lines.Format Entry) (keepMonths : ℕ) (boot : Boot) (h : History) (d : Drive)
    (l : Logged) (ending : Ending) : Option Summary × History :=
  if !h.available then (none, h)
  else
    let k := historyKey d.toDrive
    let e := entry boot d l
    let out := h.append fmt keepMonths k e ending.append
    let h := { h with dirs := Function.update h.dirs k { h.dirs k with log := out.1 } }
    if !out.2 then (none, h)
    else
      let sum := (h.current k ending.unread).add k e
      let h := { h with summaries := Function.update h.summaries k (some sum) }
      match ending.save with
      | .saved => (some sum, h.replace k sum)
      | .failed => (none, h)
      | .killedBefore => (none, h.restart)
      | .killedAfter => (none, (h.replace k sum).restart)

/-! ## The writer task -/

/-- What the writer is handed. -/
inductive Item
  | event (e : Event)
  | action (id : String) (a : Action)

/-- A severity on the wire. -/
def severityWord : Severity → String
  | .info => "info"
  | .warning => "warning"
  | .error => "error"

/-- What `follow` makes of an item: the drive it is about, and the line. -/
def itemOf (now : ℕ) : Item → Option (String × Logged)
  | .event e => e.driveId.map fun id =>
    (id, { kind := e.kind, severity := severityWord e.severity, message := e.message
           unix := e.time })
  | .action id a =>
    some (id,
      { kind := "action"
        severity := if a.result = "done" then "info" else "warning"
        message := match a.error with
          | some e => a.op ++ " " ++ a.result ++ ": " ++ e
          | none => a.op ++ " " ++ a.result
        action := some a
        unix := now })

/-- The writer with the drives of the inventory and the summaries shown on them, and by key the
lines that were appended, those for which a summary came back, and these summaries. -/
structure Writer where
  history : History := {}
  drives : List Drive := []
  shown : String → Option Summary := fun _ => none
  appended : String → List Entry := fun _ => []
  acked : String → List Entry := fun _ => []
  returned : String → List Summary := fun _ => []

/-- Add to the list of a key. -/
def more {α : Type} (lists : String → List α) (k : String) (xs : List α) : String → List α :=
  Function.update lists k (lists k ++ xs)

/-- What can happen. -/
inductive Step
  /-- An item is taken, at this time. -/
  | item (i : Item) (now : ℕ) (ending : Ending)
  /-- The inventory changes. -/
  | scan (drives : List Drive)
  /-- The volume is mounted, or goes. -/
  | mount (there : Bool)
  | restart

variable (fmt : Lines.Format Entry) (keepMonths : ℕ) (boot : Boot)

/-- `follow` with a line for a drive that the inventory has. -/
def Writer.write (w : Writer) (d : Drive) (l : Logged) (ending : Ending) : Writer :=
  let k := historyKey d.toDrive
  let e := entry boot d l
  let out := log fmt keepMonths boot w.history d l ending
  let written := w.history.available &&
    (w.history.append fmt keepMonths k e ending.append).2
  { w with
    history := out.2
    shown := match out.1 with
      | some sum => Function.update w.shown d.id.uuid.text (some sum)
      | none => w.shown
    appended := more w.appended k (if written then [e] else [])
    acked := more w.acked k (if out.1.isSome then [e] else [])
    returned := more w.returned k out.1.toList }

def Writer.step (w : Writer) : Step → Writer
  | .item i now ending =>
    match itemOf now i with
    | some (id, l) =>
      match w.drives.find? fun d => d.id.uuid.text = id with
      | some d => w.write fmt keepMonths boot d l ending
      | none => w
    | none => w
  | .scan drives => { w with drives := drives }
  | .mount there => { w with history := { w.history with available := there } }
  | .restart => { w with history := w.history.restart }

/-- A summary that is there is read. -/
def Step.Reads : Step → Prop
  | .item _ _ ending => ending.unread = false
  | _ => True

/-! ## What a summary says -/

/-- The names of lines, each once. -/
structure Names (names : List String) (given : List String) : Prop where
  once : names.Nodup
  mem : ∀ n, n ∈ names ↔ n ∈ given

/-- **What a summary says of the lines it counts.** -/
structure Summary.Tells (key : String) (es : List Entry) (s : Summary) : Prop where
  key : s.key = if es = [] then "" else key
  firstAt : s.firstAt = (es.head?.map Entry.moment).getD ""
  lastAt : s.lastAt = (es.getLast?.map Entry.moment).getD ""
  entries : s.entries = es.length
  warnings : s.warnings = es.countP fun e => e.severity ≠ "info"
  actions : s.actions = es.countP fun e => e.action.isSome
  lastAction : s.lastAction = (es.filterMap Entry.lastAction).getLast?
  lastFormat : s.lastFormat =
    ((es.filterMap Entry.lastAction).filter fun a => a.op = "format").getLast?
  nodes : Names s.nodes ((es.map Entry.node).filter fun n => n ≠ "")
  bays : Names s.bays (es.filterMap fun e => e.drive.bay)

variable {fmt keepMonths boot}

lemma Names.noted {names given : List String} (h : Names names given) (name : String) :
    Names (noted names name) (given ++ [name]) := by
  unfold DriveLog.noted
  split
  · next there =>
    have mem : name ∈ names := List.contains_iff_mem.mp there
    refine ⟨h.once, fun n => ?_⟩
    rw [List.mem_append, List.mem_singleton, ← h.mem]
    exact ⟨Or.inl, fun either => either.elim id fun same => same ▸ mem⟩
  · next absent =>
    have fresh : name ∉ names := fun mem => absent (List.contains_iff_mem.mpr mem)
    refine ⟨List.nodup_append.mpr ⟨h.once, List.nodup_singleton name, ?_⟩, fun n => ?_⟩
    · intro n mem m last same
      exact fresh (List.mem_singleton.mp last ▸ same ▸ mem)
    · rw [List.mem_append, List.mem_append, h.mem]

/-- Counting one line in adds what it says. -/
lemma Summary.Tells.add {key : String} {es : List Entry} {s : Summary} (h : s.Tells key es)
    (hk : key ≠ "") (e : Entry) : (s.add key e).Tells key (es ++ [e]) := by
  have fresh : s.key = "" ↔ es = [] := by
    rw [h.key]
    split
    · next none => simp [none]
    · next some => simp [some, hk]
  refine ⟨?_, ?_, ?_, ?_, ?_, ?_, ?_, ?_, ?_, ?_⟩
  · by_cases none : es = []
    · simp [Summary.add, fresh.mpr none]
    · simp [Summary.add, h.key, none]
  · by_cases none : es = []
    · simp [Summary.add, fresh.mpr none, none]
    · obtain ⟨x, xs, rfl⟩ := List.exists_cons_of_ne_nil none
      simp [Summary.add, fresh, h.firstAt]
  · simp [Summary.add]
  · simp [Summary.add, h.entries]
  · simp only [Summary.add, h.warnings, List.countP_append, List.countP_singleton]
    split <;> simp_all
  · simp only [Summary.add, h.actions, List.countP_append, List.countP_singleton]
    split <;> simp_all
  · simp only [Summary.add, List.filterMap_append, List.getLast?_append, h.lastAction]
    cases last : e.lastAction <;> simp [last]
  · simp only [Summary.add, List.filterMap_append, List.filter_append, List.getLast?_append,
      h.lastFormat]
    cases last : e.lastAction with
    | none => simp [last]
    | some a => by_cases format : a.op = "format" <;> simp [last, format]
  · simp only [Summary.add, List.map_append, List.filter_append]
    by_cases unnamed : e.node = ""
    · simpa [unnamed] using h.nodes
    · simpa [unnamed] using h.nodes.noted e.node
  · simp only [Summary.add, List.filterMap_append]
    cases bay : e.drive.bay with
    | none => simpa [bay] using h.bays
    | some b => simpa [bay] using h.bays.noted b

/-- **Counting lines one by one gives what they say together.** -/
theorem tells_foldl {key : String} (hk : key ≠ "") (es : List Entry) :
    (es.foldl (Summary.add key) {}).Tells key es := by
  induction es using List.reverseRecOn with
  | nil =>
    exact ⟨rfl, rfl, rfl, rfl, rfl, rfl, rfl, rfl, ⟨List.nodup_nil, fun n => Iff.rfl⟩,
      ⟨List.nodup_nil, fun n => Iff.rfl⟩⟩
  | append_singleton es e ih =>
    rw [List.foldl_append]
    exact ih.add hk e

/-! ## Every run -/

/-- The summaries of a key, as a total beside a log. -/
def Writer.tally (w : Writer) (k : String) : Tally Entry Summary where
  memory := w.history.summaries k
  filed := (w.history.dirs k).summary
  appended := w.appended k
  acked := w.acked k
  returned := w.returned k

/-- What holds of a key in runs in which a summary that is there is read. -/
def Counted (w : Writer) (k : String) : Prop :=
  ∃ counted, Tally.Counts (Summary.add k) {} (w.tally k) counted

lemma more_self {α : Type} (lists : String → List α) (k : String) (xs : List α) :
    more lists k xs k = lists k ++ xs := Function.update_self ..

lemma more_of_ne {α : Type} {lists : String → List α} {k k' : String} (h : k' ≠ k)
    (xs : List α) : more lists k xs k' = lists k' := Function.update_of_ne h ..

@[simp] lemma more_nil {α : Type} (lists : String → List α) (k : String) :
    more lists k [] = lists := by
  funext k'
  by_cases h : k' = k
  · rw [h, more_self, List.append_nil]
  · exact more_of_ne h []

/-- What is written for a drive leaves the other keys, but for what was in memory. -/
lemma Writer.write_other {k : String} (w : Writer) (d : Drive) (l : Logged) (ending : Ending)
    (other : k ≠ historyKey d.toDrive) :
    (w.write fmt keepMonths boot d l ending).tally k = w.tally k ∨
      (w.write fmt keepMonths boot d l ending).tally k = (w.tally k).forget := by
  unfold Writer.write log
  dsimp only
  split
  · exact Or.inl (by simp [Writer.tally, more_of_ne other])
  · split
    · exact Or.inl (by simp [Writer.tally, more_of_ne other, other])
    · cases ending.save
      · exact Or.inl (by simp [Writer.tally, more_of_ne other, other, History.replace])
      · exact Or.inl (by simp [Writer.tally, more_of_ne other, other])
      · exact Or.inr (by
          simp [Writer.tally, more_of_ne other, other, History.restart, Tally.forget])
      · exact Or.inr (by
          simp [Writer.tally, more_of_ne other, other, History.restart, History.replace,
            Tally.forget])

/-- How far a line comes that is in the log. -/
def SaveEnd.how : SaveEnd → Tally.How
  | .saved => .acknowledged
  | .failed => .unsaved
  | .killedBefore => .cutBefore
  | .killedAfter => .cutAfter

/-- What is written for a drive is one item for its key, or nothing. -/
lemma Writer.write_self (w : Writer) (d : Drive) (l : Logged) (ending : Ending) :
    (w.write fmt keepMonths boot d l ending).tally (historyKey d.toDrive) =
        w.tally (historyKey d.toDrive) ∨
      (w.write fmt keepMonths boot d l ending).tally (historyKey d.toDrive) =
        (w.tally (historyKey d.toDrive)).add (Summary.add (historyKey d.toDrive)) {}
          (entry boot d l) ending.unread ending.save.how := by
  unfold Writer.write log
  dsimp only
  split
  · next away =>
    rw [Bool.not_eq_true'] at away
    exact Or.inl (by simp [Writer.tally, away])
  · next there =>
    have there : w.history.available = true := by simpa using there
    split
    · next cut =>
      have cut : (w.history.append fmt keepMonths (historyKey d.toDrive) (entry boot d l)
        ending.append).2 = false := by simpa using cut
      exact Or.inl (by simp [Writer.tally, cut])
    · next written =>
      have written : (w.history.append fmt keepMonths (historyKey d.toDrive) (entry boot d l)
        ending.append).2 = true := by simpa using written
      refine Or.inr ?_
      cases ending.save <;>
        simp [Writer.tally, Tally.add, Tally.current, SaveEnd.how, there, written, more_self,
          History.current, Dir.readSummary, History.replace, History.restart]

/-- What happens is one item for a key, a restart for it, or nothing. -/
lemma step_cases (w : Writer) (e : Step) (k : String) :
    (w.step fmt keepMonths boot e).tally k = w.tally k ∨
      (w.step fmt keepMonths boot e).tally k = (w.tally k).forget ∨
      ∃ i now ending x, e = .item i now ending ∧ (w.step fmt keepMonths boot e).tally k =
        (w.tally k).add (Summary.add k) {} x ending.unread ending.save.how := by
  cases e with
  | scan drives => exact Or.inl rfl
  | mount there => exact Or.inl rfl
  | restart => exact Or.inr (Or.inl rfl)
  | item i now ending =>
    unfold Writer.step
    dsimp only
    split
    · split
      · next d _ =>
        by_cases same : k = historyKey d.toDrive
        · subst same
          obtain unchanged | added := w.write_self d _ ending
          · exact Or.inl unchanged
          · exact Or.inr (Or.inr ⟨i, now, ending, _, rfl, added⟩)
        · exact (w.write_other d _ ending same).imp_right Or.inl
      · exact Or.inl rfl
    · exact Or.inl rfl

/-- **What happens keeps the summaries sound.** -/
theorem Tallied.step {w : Writer} {k : String} (h : Tally.Sound (Summary.add k) {} (w.tally k))
    (e : Step) : Tally.Sound (Summary.add k) {} ((w.step fmt keepMonths boot e).tally k) := by
  obtain same | forgot | ⟨_, _, ending, x, -, added⟩ := step_cases w e k
  · exact same ▸ h
  · exact forgot ▸ h.forget
  · exact added ▸ h.add x ending.unread ending.save.how

/-- **What happens keeps the summaries right**, where a summary that is there is read. -/
theorem Counted.step {w : Writer} {k : String} (h : Counted w k) {e : Step} (reads : e.Reads) :
    Counted (w.step fmt keepMonths boot e) k := by
  obtain ⟨counted, counts⟩ := h
  obtain same | forgot | ⟨_, _, ending, x, rfl, added⟩ := step_cases w e k
  · exact ⟨counted, same ▸ counts⟩
  · exact ⟨counted, forgot ▸ counts.forget⟩
  · have reads : ending.unread = false := reads
    obtain ⟨more, counts⟩ := counts.add x ending.save.how
    exact ⟨counted ++ more, added ▸ reads ▸ counts⟩

/-- Before anything is written, the summaries are right. -/
lemma counted_start (k : String) : Counted {} k := ⟨[], Tally.counts_start⟩

lemma historyKey_ne_empty (d : StormDrive.Drive) : historyKey d ≠ "" := by
  intro none
  have chars := congrArg String.toList none
  unfold historyKey at chars
  split at chars <;> simp at chars

/-- A summary in a file that counts lines says what they say. -/
lemma tells_of_filed {k : String} (hk : k ≠ "") {filed : Option Summary} {counted : List Entry}
    (same : filed = Tally.totalOf (Summary.add k) {} counted) :
    (filed = none ∧ counted = []) ∨ ∃ sum, filed = some sum ∧ sum.Tells k counted := by
  unfold Tally.totalOf at same
  split at same
  · next none => exact Or.inl ⟨same, none⟩
  · exact Or.inr ⟨_, same, tells_foldl hk counted⟩

/-- **A drive's summary counts every acknowledged line once.** After any items, scans, mounts and
restarts, with appends, reads and saves that fail or are cut anywhere: the summary in a drive's
directory says exactly what some lines of its log say, in their order and none twice, and so does
every summary that came back for it. Where a summary that is there was always read, the lines of
the first are at least those for which a summary came back, and each that came back says what the
first of them say, more lines than the one before it. -/
theorem summary_counts (fmt : Lines.Format Entry) (keepMonths : ℕ) (boot : Boot) (es : List Step)
    (d : Drive) :
    let w := Runs.after (Writer.step fmt keepMonths boot) ({} : Writer) es
    let k := historyKey d.toDrive
    let filed := (w.history.dirs k).summary
    (∃ counted : List Entry, counted.Sublist (w.appended k) ∧
      ((filed = none ∧ counted = []) ∨ ∃ sum, filed = some sum ∧ sum.Tells k counted)) ∧
    (∀ sum ∈ w.returned k, ∃ counted : List Entry, counted.Sublist (w.appended k) ∧
      sum.Tells k counted) ∧
    ((∀ e ∈ es, e.Reads) → ∃ counted : List Entry, (w.acked k).Sublist counted ∧
      counted.Sublist (w.appended k) ∧
      ((filed = none ∧ counted = []) ∨ ∃ sum, filed = some sum ∧ sum.Tells k counted) ∧
      ∃ lengths : List ℕ, lengths.Pairwise (· < ·) ∧ (∀ n ∈ lengths, n ≤ counted.length) ∧
        List.Forall₂ (fun sum n => sum.Tells k (counted.take n)) (w.returned k) lengths) := by
  intro w k filed
  have hk : k ≠ "" := historyKey_ne_empty d.toDrive
  have sound : Tally.Sound (Summary.add k) {} (w.tally k) :=
    Runs.keeps (P := fun w : Writer => Tally.Sound (Summary.add k) {} (w.tally k))
      (fun _ e h => Tallied.step h e) Tally.sound_start es
  refine ⟨?_, ?_, fun reads => ?_⟩
  · obtain ⟨counted, same, sub⟩ := sound.filed
    exact ⟨counted, sub, tells_of_filed hk same⟩
  · intro sum mem
    obtain ⟨counted, rfl, sub⟩ := sound.returned sum mem
    exact ⟨counted, sub, tells_foldl hk counted⟩
  · have kept : ∀ (w : Writer) (e : Step), Counted w k → e.Reads →
        Counted (w.step fmt keepMonths boot e) k := fun w e h ok => h.step ok
    obtain ⟨counted, counts⟩ : Counted w k := Runs.keeps_of_forall kept (counted_start k) reads
    obtain ⟨lengths, returned, rising, le⟩ := counts.returned
    refine ⟨counted, counts.acked, counts.appended, tells_of_filed hk counts.filed, lengths,
      rising, le, ?_⟩
    change List.Forall₂ _ (w.tally k).returned lengths
    rw [returned, List.forall₂_map_left_iff]
    exact List.forall₂_same.mpr fun n _ => tells_foldl hk _

end DriveLog

end StormDrive
