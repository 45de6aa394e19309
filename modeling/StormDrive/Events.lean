import Mathlib.Data.List.Basic
import Mathlib.Data.List.Pairwise
import StormDrive.Interleave.Feed
import StormDrive.Interleave.Runs

set_option relaxedAutoImplicit false
set_option autoImplicit false

/-!
# The event log and its sequence numbers

`events.rs` keeps the newest events in a ring and numbers them. `persist_events` writes the newest
of the ring and the next number to `events.json`, and a start reads them back. Pollers ask for the
events above the largest number they have seen.

## Main definitions

* `EventLog` with `new`, `fromSaved`, `snapshot`, `push`, `since`, `latestSeq`.
* `EventsHost`, `EventsHost.step` — the log, `events.json` and the write in progress, through
  pushes, persists, crashes and starts.
* `PolledEvents` — a host with a poller, and every event pushed before and since the last start.
* `NumberedOnce` — what a poller relies on.
* `savedAtCrash` — a crash comes when `events.json` has everything that was pushed.

## Main results

* `events_numbered_once_iff_saved` — **a poller gets every event once and in order exactly in
  the runs in which each crash comes with everything saved**.
* `event_number_given_again` — an event pushed after the last write, a crash, and the number is
  given to another event.

## Implementation notes

Numbers are natural numbers, times are seconds since 1970. The kept history, to which a push also
sends an event about a drive, is not part of the state. `load` is the reading of a file that
`persist_events` wrote: a write replaces the file by a rename, so what a crash leaves is the file
before or after it.
-/

namespace StormDrive

inductive Severity where
  | info
  | warning
  | error
  deriving DecidableEq, Repr

structure Event where
  seq : ℕ
  time : ℕ
  driveId : Option String
  severity : Severity
  kind : String
  message : String
  deriving DecidableEq, Repr

/-- What a push is given, and the time it reads. -/
structure NewEvent where
  time : ℕ
  driveId : Option String
  severity : Severity
  kind : String
  message : String
  deriving DecidableEq, Repr

/-- How many of the newest events survive a restart. -/
def persistTail : ℕ := 512

/-- `events.json`. -/
structure Saved where
  nextSeq : ℕ
  events : List Event
  deriving DecidableEq, Repr

structure EventLog where
  nextSeq : ℕ
  ring : List Event
  cap : ℕ
  /-- When this process started its log. -/
  started : ℕ
  deriving DecidableEq, Repr

namespace EventLog

/-- A log without events. -/
def new (cap now : ℕ) : EventLog := { nextSeq := 1, ring := [], cap := cap, started := now }

/-- The log a previous run saved: its newest events, and the sequence after them. -/
def fromSaved (cap now : ℕ) : Option Saved → EventLog
  | none => new cap now
  | some s =>
    let ring := s.events.drop (s.events.length - cap)
    let afterLast := (ring.getLast?.map fun e => e.seq + 1).getD 1
    { new cap now with ring := ring, nextSeq := max s.nextSeq afterLast }

/-- What `events.json` holds: the newest `tail` events and the next number. -/
def snapshot (log : EventLog) (tail : ℕ) : Saved :=
  { nextSeq := log.nextSeq, events := log.ring.drop (log.ring.length - tail) }

/-- The event that a push makes. -/
def event (log : EventLog) (e : NewEvent) : Event :=
  ⟨log.nextSeq, e.time, e.driveId, e.severity, e.kind, e.message⟩

/-- Add an event. A full ring drops its oldest. -/
def push (log : EventLog) (e : NewEvent) : EventLog :=
  let ring := if log.ring.length = log.cap then log.ring.tail else log.ring
  { log with nextSeq := log.nextSeq + 1, ring := ring ++ [log.event e] }

/-- Events with a number strictly greater than `since`. -/
def since (log : EventLog) (since : ℕ) : List Event := Feed.above Event.seq since log.ring

def latestSeq (log : EventLog) : ℕ := log.nextSeq - 1

/-- The log after a list of pushes. -/
def pushAll (log : EventLog) (es : List NewEvent) : EventLog := es.foldl push log

/-- The events that a list of pushes makes. -/
def events : EventLog → List NewEvent → List Event
  | _, [] => []
  | log, e :: es => log.event e :: (log.push e).events es

end EventLog

/-- What the service is started with: its version, the size of the ring, and whether there is a
data directory. -/
structure EventsConfig where
  version : String
  cap : ℕ
  hasPath : Bool
  deriving DecidableEq, Repr

/-- The log in a process, `events.json`, and the write that `persist_events` is waiting for: the
number it has when it is done, and the content. -/
structure EventsHost where
  log : EventLog
  persisted : ℕ
  file : Option Saved
  writing : Option (ℕ × Saved)
  deriving DecidableEq, Repr

namespace EventsHost

/-- `events.json` as the next start finds it, when the process dies now. The rename of a write in
progress may be done. -/
def found (cfg : EventsConfig) (h : EventsHost) (renamed : Bool) : Option Saved :=
  if cfg.hasPath then
    match renamed, h.writing with
    | true, some (_, saved) => some saved
    | _, _ => h.file
  else none

/-- The message of the event that a start pushes. -/
def startMessage (version : String) (log : EventLog) : String :=
  "stormdrive " ++ version ++ " started" ++
    if 0 < log.ring.length then
      ": " ++ toString log.ring.length ++ " event(s) kept from before the restart, " ++
        "seq continues after " ++ toString log.latestSeq
    else ""

/-- What a start pushes: that it started, and the notes on the state files. -/
def startEvents (cfg : EventsConfig) (now : ℕ) (notes : List String) (log : EventLog) :
    List NewEvent :=
  ⟨now, none, .info, "restart", startMessage cfg.version log⟩ ::
    notes.map fun note => ⟨now, none, .warning, "state_file", note⟩

/-- A start, on the `events.json` it finds. -/
def start (cfg : EventsConfig) (now : ℕ) (notes : List String) (file : Option Saved) :
    EventsHost :=
  let log := EventLog.fromSaved cfg.cap now file
  { log := log.pushAll (startEvents cfg now notes log)
    persisted := if cfg.hasPath then log.latestSeq else 0
    file := file
    writing := none }

end EventsHost

/-- What happens to the log. -/
inductive EventsStep where
  | push (e : NewEvent)
  /-- `persist_events` up to its write. -/
  | persist
  /-- The write of `persist_events` ends. -/
  | written (ok : Bool)
  /-- The process dies, with the rename of a write in progress done or not, and starts again. The
  state files may give notes. -/
  | crash (renamed : Bool) (now : ℕ) (notes : List String)
  /-- A poller asks. -/
  | poll
  deriving DecidableEq, Repr

/-- One step of the log and its file. -/
def EventsHost.step (cfg : EventsConfig) (h : EventsHost) : EventsStep → EventsHost
  | .push e => { h with log := h.log.push e }
  | .persist =>
    -- one write at a time: a second `persist_events` waits for the first
    if h.writing.isSome || !cfg.hasPath || h.log.latestSeq = h.persisted then h
    else { h with writing := some (h.log.latestSeq, h.log.snapshot persistTail) }
  | .written ok =>
    match h.writing with
    | none => h
    | some (seq, saved) =>
      if ok then { h with persisted := seq, file := some saved, writing := none }
      else { h with writing := none }
  | .crash renamed now notes => start cfg now notes (h.found cfg renamed)
  | .poll => h

@[simp] lemma EventsHost.persist_log (h : EventsHost) (cfg : EventsConfig) :
    (h.step cfg .persist).log = h.log := by
  simp only [EventsHost.step]
  split <;> rfl

@[simp] lemma EventsHost.written_log (h : EventsHost) (cfg : EventsConfig) (ok : Bool) :
    (h.step cfg (.written ok)).log = h.log := by
  cases hw : h.writing with
  | none => simp [EventsHost.step, hw]
  | some writing => cases ok <;> simp [EventsHost.step, hw]

/-- A log, a poller of it, and every event pushed before and since the last start. -/
structure PolledEvents where
  host : EventsHost
  poller : Feed.Reader Event
  earlier : List Event
  pushed : List Event
  deriving DecidableEq

namespace PolledEvents

/-- The first start, with no `events.json`. -/
def first (cfg : EventsConfig) (now : ℕ) (notes : List String) : PolledEvents :=
  let log := EventLog.new cfg.cap now
  { host := EventsHost.start cfg now notes none
    poller := ⟨0, []⟩
    earlier := []
    pushed := log.events (EventsHost.startEvents cfg now notes log) }

/-- The events that a step pushes. -/
def newEvents (cfg : EventsConfig) (h : EventsHost) : EventsStep → List Event
  | .push e => [h.log.event e]
  | .crash renamed now notes =>
    let log := EventLog.fromSaved cfg.cap now (h.found cfg renamed)
    log.events (EventsHost.startEvents cfg now notes log)
  | _ => []

def step (cfg : EventsConfig) (w : PolledEvents) (e : EventsStep) : PolledEvents :=
  { host := w.host.step cfg e
    poller := match e with
      | .poll => w.poller.read Event.seq w.host.log.ring
      | _ => w.poller
    earlier := match e with
      | .crash .. => w.earlier ++ w.pushed
      | _ => w.earlier
    pushed := match e with
      | .crash .. => newEvents cfg w.host e
      | _ => w.pushed ++ newEvents cfg w.host e }

end PolledEvents

/-- **What a poller relies on.** An event has a number that no event of an earlier run had, the
latest number is not below what the poller has seen, and with its next request the poller has
every event of the ring, each once and in order. -/
structure NumberedOnce (w : PolledEvents) : Prop where
  fresh : ∀ e ∈ w.pushed, ∀ e' ∈ w.earlier, e.seq ≠ e'.seq
  notBelow : w.poller.seen ≤ w.host.log.latestSeq
  inOrder : Feed.Rising Event.seq (w.poller.got ++ w.host.log.since w.poller.seen)
  complete : ∀ e ∈ w.host.log.ring, e ∈ w.poller.got ++ w.host.log.since w.poller.seen

/-- A crash comes when the `events.json` that it leaves has the next number of the log. -/
def savedAtCrash (cfg : EventsConfig) (w : PolledEvents) : EventsStep → Prop
  | .crash renamed _ _ => ∃ saved, w.host.found cfg renamed = some saved ∧
      saved.nextSeq = w.host.log.nextSeq
  | _ => True

section Numbers

variable {log : EventLog} {saved : Saved} {e : NewEvent} {es : List NewEvent}

@[simp] lemma EventLog.push_nextSeq : (log.push e).nextSeq = log.nextSeq + 1 := rfl

@[simp] lemma EventLog.event_seq : (log.event e).seq = log.nextSeq := rfl

/-- A ring after a push: part of the ring before, and the new event. -/
lemma EventLog.push_ring (log : EventLog) (e : NewEvent) :
    ∃ kept, kept.Sublist log.ring ∧ (log.push e).ring = kept ++ [log.event e] := by
  by_cases hfull : log.ring.length = log.cap
  · exact ⟨log.ring.tail, List.tail_sublist _, by simp [EventLog.push, hfull]⟩
  · exact ⟨log.ring, List.Sublist.refl _, by simp [EventLog.push, hfull]⟩

/-- The ring of a log holds rising numbers below the next one. -/
structure EventLog.Ordered (log : EventLog) : Prop where
  rising : Feed.Rising Event.seq log.ring
  below : ∀ e ∈ log.ring, e.seq < log.nextSeq

lemma EventLog.Ordered.push (h : log.Ordered) (e : NewEvent) : (log.push e).Ordered := by
  obtain ⟨kept, hkept, hring⟩ := log.push_ring e
  have hlt : ∀ a ∈ kept, a.seq < log.nextSeq := fun a ha => h.below a (hkept.subset ha)
  constructor
  · rw [hring]
    exact (h.rising.sublist hkept).concat hlt
  · intro a ha
    rw [hring] at ha
    rw [EventLog.push_nextSeq]
    rcases List.mem_append.mp ha with ha | ha
    · have := hlt a ha
      omega
    · rw [List.mem_singleton] at ha
      rw [ha, EventLog.event_seq]
      omega

/-- A file that a write of the log left, now or earlier. -/
structure Saved.Of (saved : Saved) (log : EventLog) : Prop where
  pos : 1 ≤ saved.nextSeq
  le : saved.nextSeq ≤ log.nextSeq
  rising : Feed.Rising Event.seq saved.events
  below : ∀ e ∈ saved.events, e.seq < saved.nextSeq
  same : saved.nextSeq = log.nextSeq →
    (saved.events.drop (saved.events.length - log.cap)).Sublist log.ring

/-- A snapshot has what the log has. -/
lemma EventLog.Ordered.snapshot (h : log.Ordered) (hpos : 1 ≤ log.nextSeq) (tail : ℕ) :
    (log.snapshot tail).Of log := by
  have hsub : (log.snapshot tail).events.Sublist log.ring := List.drop_sublist _ _
  exact ⟨hpos, Nat.le_refl _, h.rising.sublist hsub, fun a ha => h.below a (hsub.subset ha),
    fun _ => (List.drop_sublist _ _).trans hsub⟩

/-- A push leaves a file older than the log. -/
lemma Saved.Of.push (h : saved.Of log) (e : NewEvent) : saved.Of (log.push e) := by
  have hle := h.le
  refine ⟨h.pos, by simp only [EventLog.push_nextSeq]; omega, h.rising, h.below, ?_⟩
  intro heq
  rw [EventLog.push_nextSeq] at heq
  omega

/-- A log that is read back has the next number of the file, and the newest of its events. -/
lemma Saved.Of.fromSaved (h : saved.Of log) (cap now : ℕ) :
    (EventLog.fromSaved cap now (some saved)).nextSeq = saved.nextSeq := by
  have hpos := h.pos
  show max saved.nextSeq _ = saved.nextSeq
  cases hlast : (saved.events.drop (saved.events.length - cap)).getLast? with
  | none =>
    simp only [Option.map_none, Option.getD_none]
    omega
  | some a =>
    have ha : a ∈ saved.events := List.mem_of_mem_drop (List.mem_of_getLast? hlast)
    have hlt := h.below a ha
    simp only [Option.map_some, Option.getD_some]
    omega

end Numbers

/-- What holds of a log, its file and a poller as long as each crash comes with everything saved.
The numbers below the next one are those of the events pushed, those of this run are above those
of the runs before it, and the file and the write in progress are snapshots. -/
structure Numbered (cfg : EventsConfig) (w : PolledEvents) : Prop where
  cap : w.host.log.cap = cfg.cap
  ordered : w.host.log.Ordered
  pos : 1 ≤ w.host.log.nextSeq
  below : ∀ e ∈ w.earlier ++ w.pushed, e.seq < w.host.log.nextSeq
  given : ∀ n, 1 ≤ n → n < w.host.log.nextSeq → ∃ e ∈ w.earlier ++ w.pushed, e.seq = n
  rises : ∀ e ∈ w.pushed, ∀ e' ∈ w.earlier, e'.seq < e.seq
  current : w.poller.Current Event.seq w.host.log.ring
  seen : w.poller.seen < w.host.log.nextSeq
  file : ∀ saved, w.host.file = some saved → saved.Of w.host.log
  writing : ∀ seq saved, w.host.writing = some (seq, saved) → saved.Of w.host.log

/-- A log after a list of pushes, with the events they made. -/
def PolledEvents.withEvents (w : PolledEvents) (es : List NewEvent) : PolledEvents :=
  { w with
    host := { w.host with log := w.host.log.pushAll es }
    pushed := w.pushed ++ w.host.log.events es }

lemma PolledEvents.withEvents_cons (w : PolledEvents) (e : NewEvent) (es : List NewEvent) :
    w.withEvents (e :: es) = (w.withEvents [e]).withEvents es := by
  simp [withEvents, EventLog.pushAll, EventLog.events]

namespace Numbered

variable {cfg : EventsConfig} {w : PolledEvents}

/-- **A poller relies on no more than that.** -/
lemma numberedOnce (h : Numbered cfg w) : NumberedOnce w := by
  refine ⟨?_, ?_, h.current.rising h.ordered.rising, fun e he => h.current.complete he⟩
  · intro e he e' he' heq
    have hlt := h.rises e he e' he'
    omega
  · have hseen := h.seen
    show w.poller.seen ≤ w.host.log.nextSeq - 1
    omega

/-- A push gives the next number. -/
lemma push (h : Numbered cfg w) (e : NewEvent) : Numbered cfg (w.withEvents [e]) := by
  obtain ⟨kept, hkept, hring⟩ := w.host.log.push_ring e
  have hring' : (w.withEvents [e]).host.log.ring = kept ++ [w.host.log.event e] := hring
  have hnext : (w.withEvents [e]).host.log.nextSeq = w.host.log.nextSeq + 1 := rfl
  have hseen := h.seen
  have hall : ∀ a ∈ (w.withEvents [e]).earlier ++ (w.withEvents [e]).pushed,
      a ∈ w.earlier ++ w.pushed ∨ a = w.host.log.event e := by
    intro a ha
    simpa [PolledEvents.withEvents, EventLog.events, or_assoc] using ha
  have hmem : ∀ a, a ∈ w.earlier ++ w.pushed ∨ a = w.host.log.event e →
      a ∈ (w.withEvents [e]).earlier ++ (w.withEvents [e]).pushed := by
    intro a ha
    simpa [PolledEvents.withEvents, EventLog.events, or_assoc] using ha
  refine ⟨h.cap, h.ordered.push e, by omega, ?_, ?_, ?_, ?_, ?_, ?_, ?_⟩
  · intro a ha
    rw [hnext]
    rcases hall a ha with ha | rfl
    · have := h.below a ha
      omega
    · rw [EventLog.event_seq]
      omega
  · intro n hn hlt
    by_cases hn' : n = w.host.log.nextSeq
    · exact ⟨w.host.log.event e, hmem _ (Or.inr rfl), hn'.symm⟩
    · obtain ⟨a, ha, hseq⟩ := h.given n hn (by omega)
      exact ⟨a, hmem a (Or.inl ha), hseq⟩
  · intro a ha b hb
    have ha' : a ∈ w.pushed ∨ a = w.host.log.event e := by
      simpa [PolledEvents.withEvents, EventLog.events] using ha
    rcases ha' with ha' | rfl
    · exact h.rises a ha' b hb
    · exact h.below b (List.mem_append_left _ hb)
  · rw [hring']
    exact (h.current.subset fun a ha => hkept.subset ha).concat h.seen
  · show w.poller.seen < w.host.log.nextSeq + 1
    omega
  · intro saved hsaved
    exact (h.file saved hsaved).push e
  · intro seq saved hsaved
    exact (h.writing seq saved hsaved).push e

lemma withEvents (h : Numbered cfg w) (es : List NewEvent) : Numbered cfg (w.withEvents es) := by
  induction es generalizing w with
  | nil => simpa [PolledEvents.withEvents, EventLog.pushAll, EventLog.events] using h
  | cons e es ih =>
    rw [PolledEvents.withEvents_cons]
    exact ih (h.push e)

/-- A request of the poller. -/
lemma poll (h : Numbered cfg w) : Numbered cfg (w.step cfg .poll) := by
  have hpushed : (w.step cfg .poll).pushed = w.pushed := List.append_nil _
  have hlt : Feed.largest Event.seq w.poller.seen
      (Feed.above Event.seq w.poller.seen w.host.log.ring) < w.host.log.nextSeq :=
    Feed.largest_lt h.seen fun a ha => h.ordered.below a (Feed.mem_above.mp ha).1
  refine ⟨h.cap, h.ordered, h.pos, ?_, ?_, ?_, h.current.read h.ordered.rising, hlt, h.file,
    h.writing⟩
  · rw [hpushed]
    exact h.below
  · rw [hpushed]
    exact h.given
  · rw [hpushed]
    exact h.rises

/-- Only the file and the write in progress change. -/
lemma files (h : Numbered cfg w) {w' : PolledEvents} (hlog : w'.host.log = w.host.log)
    (hpoller : w'.poller = w.poller) (hearlier : w'.earlier = w.earlier)
    (hpushed : w'.pushed = w.pushed)
    (hfile : ∀ saved, w'.host.file = some saved → saved.Of w.host.log)
    (hwriting : ∀ seq saved, w'.host.writing = some (seq, saved) → saved.Of w.host.log) :
    Numbered cfg w' := by
  refine ⟨?_, ?_, ?_, ?_, ?_, ?_, ?_, ?_, ?_, ?_⟩
  · rw [hlog]
    exact h.cap
  · rw [hlog]
    exact h.ordered
  · rw [hlog]
    exact h.pos
  · rw [hlog, hearlier, hpushed]
    exact h.below
  · rw [hlog, hearlier, hpushed]
    exact h.given
  · rw [hearlier, hpushed]
    exact h.rises
  · rw [hlog, hpoller]
    exact h.current
  · rw [hlog, hpoller]
    exact h.seen
  · rw [hlog]
    exact hfile
  · rw [hlog]
    exact hwriting

lemma persist (h : Numbered cfg w) : Numbered cfg (w.step cfg .persist) := by
  have hpushed : (w.step cfg .persist).pushed = w.pushed := List.append_nil _
  have hlog : (w.step cfg .persist).host.log = w.host.log := w.host.persist_log cfg
  by_cases hskip : w.host.writing.isSome || !cfg.hasPath || w.host.log.latestSeq = w.host.persisted
  · have hstep : w.host.step cfg .persist = w.host := if_pos hskip
    exact h.files hlog rfl rfl hpushed
      (fun saved hs => h.file saved ((congrArg EventsHost.file hstep).symm.trans hs))
      fun seq saved hs => h.writing seq saved ((congrArg EventsHost.writing hstep).symm.trans hs)
  · have hstep : w.host.step cfg .persist = { w.host with
        writing := some (w.host.log.latestSeq, w.host.log.snapshot persistTail) } := if_neg hskip
    have hfile : (w.step cfg .persist).host.file = w.host.file := by
      show (w.host.step cfg .persist).file = _
      rw [hstep]
    refine h.files hlog rfl rfl hpushed (fun saved hs => h.file saved (hfile.symm.trans hs)) ?_
    intro seq saved hs
    have hw := (congrArg EventsHost.writing hstep).symm.trans hs
    have hsaved : w.host.log.snapshot persistTail = saved := congrArg Prod.snd (Option.some.inj hw)
    rw [← hsaved]
    exact h.ordered.snapshot h.pos persistTail

/-- A write that ends leaves the file before or the one written. -/
lemma written (h : Numbered cfg w) (ok : Bool) : Numbered cfg (w.step cfg (.written ok)) := by
  have hpushed : (w.step cfg (.written ok)).pushed = w.pushed := List.append_nil _
  have hlog : (w.step cfg (.written ok)).host.log = w.host.log := w.host.written_log cfg ok
  cases hw : w.host.writing with
  | none =>
    have hstep : w.host.step cfg (.written ok) = w.host := by simp [EventsHost.step, hw]
    exact h.files hlog rfl rfl hpushed
      (fun saved hs => h.file saved ((congrArg EventsHost.file hstep).symm.trans hs))
      fun seq saved hs => h.writing seq saved ((congrArg EventsHost.writing hstep).symm.trans hs)
  | some writing =>
    obtain ⟨seq, saved⟩ := writing
    have hfile : (w.step cfg (.written ok)).host.file = if ok then some saved else w.host.file := by
      cases ok <;> simp [PolledEvents.step, EventsHost.step, hw]
    have hnone : (w.step cfg (.written ok)).host.writing = none := by
      cases ok <;> simp [PolledEvents.step, EventsHost.step, hw]
    refine h.files hlog rfl rfl hpushed ?_ ?_
    · intro saved' hs
      rw [hfile] at hs
      by_cases hok : ok = true
      · rw [if_pos hok] at hs
        rw [← Option.some.inj hs]
        exact h.writing seq saved hw
      · rw [if_neg hok] at hs
        exact h.file saved' hs
    · intro seq' saved' hs
      rw [hnone] at hs
      exact absurd hs (Option.some_ne_none _).symm

/-- What a crash leaves to the next start is the file or the write in progress. -/
lemma found (h : Numbered cfg w) {renamed : Bool} {saved : Saved}
    (hf : w.host.found cfg renamed = some saved) : saved.Of w.host.log := by
  by_cases hpath : cfg.hasPath = true
  · cases renamed with
    | false =>
      simp only [EventsHost.found, if_pos hpath] at hf
      exact h.file saved hf
    | true =>
      cases hw : w.host.writing with
      | none =>
        simp only [EventsHost.found, if_pos hpath, hw] at hf
        exact h.file saved hf
      | some writing =>
        obtain ⟨seq, saved'⟩ := writing
        simp only [EventsHost.found, if_pos hpath, hw, Option.some.injEq] at hf
        rw [← hf]
        exact h.writing seq saved' hw
  · simp only [EventsHost.found, if_neg hpath] at hf
    exact absurd hf (Option.some_ne_none _).symm

end Numbered

/-- A start, before it pushes anything. -/
def PolledEvents.restored (cfg : EventsConfig) (w : PolledEvents) (renamed : Bool) (now : ℕ) :
    PolledEvents :=
  let file := w.host.found cfg renamed
  let log := EventLog.fromSaved cfg.cap now file
  { host :=
      { log := log
        persisted := if cfg.hasPath then log.latestSeq else 0
        file := file
        writing := none }
    poller := w.poller
    earlier := w.earlier ++ w.pushed
    pushed := [] }

/-- A crash is a start and the events that it pushes. -/
lemma PolledEvents.step_crash (cfg : EventsConfig) (w : PolledEvents) (renamed : Bool) (now : ℕ)
    (notes : List String) :
    w.step cfg (.crash renamed now notes) = (w.restored cfg renamed now).withEvents
      (EventsHost.startEvents cfg now notes (w.restored cfg renamed now).host.log) := rfl

lemma EventLog.pushAll_nextSeq (log : EventLog) (es : List NewEvent) :
    (log.pushAll es).nextSeq = log.nextSeq + es.length := by
  induction es generalizing log with
  | nil => rfl
  | cons e es ih =>
    show ((log.push e).pushAll es).nextSeq = _
    rw [ih, push_nextSeq, List.length_cons]
    omega

namespace Numbered

variable {cfg : EventsConfig} {w : PolledEvents}

/-- With everything saved, the next number and the events of the ring come back. -/
lemma restored (h : Numbered cfg w) {renamed : Bool} {now : ℕ} {notes : List String}
    (hok : savedAtCrash cfg w (.crash renamed now notes)) :
    Numbered cfg (w.restored cfg renamed now) := by
  obtain ⟨saved, hfound, hseq⟩ := hok
  have hof : saved.Of w.host.log := h.found hfound
  have hback := hof.fromSaved cfg.cap now
  have hlog : (w.restored cfg renamed now).host.log =
      EventLog.fromSaved cfg.cap now (some saved) := by
    simp only [PolledEvents.restored, hfound]
  have hnext : (w.restored cfg renamed now).host.log.nextSeq = w.host.log.nextSeq := by
    rw [hlog, hback, hseq]
  have hring : (w.restored cfg renamed now).host.log.ring =
      saved.events.drop (saved.events.length - cfg.cap) := by
    rw [hlog]
    rfl
  have hsub : (w.restored cfg renamed now).host.log.ring.Sublist w.host.log.ring := by
    rw [hring, ← h.cap]
    exact hof.same hseq
  have hpushed : ∀ e, e ∈ (w.restored cfg renamed now).earlier ++
      (w.restored cfg renamed now).pushed ↔ e ∈ w.earlier ++ w.pushed := by
    intro e
    simp [PolledEvents.restored]
  refine ⟨by rw [hlog]; rfl, ⟨h.ordered.rising.sublist hsub, ?_⟩, ?_, ?_, ?_, ?_, ?_, ?_, ?_, ?_⟩
  · intro e he
    rw [hnext]
    exact h.ordered.below e (hsub.subset he)
  · rw [hnext]
    exact h.pos
  · intro e he
    rw [hnext]
    exact h.below e ((hpushed e).mp he)
  · intro n hn hlt
    rw [hnext] at hlt
    obtain ⟨e, he, hen⟩ := h.given n hn hlt
    exact ⟨e, (hpushed e).mpr he, hen⟩
  · intro e he
    exact absurd he List.not_mem_nil
  · exact h.current.subset fun e he => hsub.subset he
  · rw [hnext]
    exact h.seen
  · intro saved' hs
    have heq : saved' = saved := Option.some.inj (hs.symm.trans hfound)
    rw [heq]
    refine ⟨hof.pos, by omega, hof.rising, hof.below, ?_⟩
    intro _
    rw [hring, hlog]
    exact List.Sublist.refl _
  · intro seq saved' hs
    exact absurd hs (Option.some_ne_none _).symm

/-- A start pushes at least one event. -/
lemma startEvents_pos (cfg : EventsConfig) (now : ℕ) (notes : List String) (log : EventLog) :
    1 ≤ (EventsHost.startEvents cfg now notes log).length := by
  rw [EventsHost.startEvents, List.length_cons]
  omega

/-- **What one step keeps.** A crash with everything saved is among them. -/
lemma step (h : Numbered cfg w ∧ 2 ≤ w.host.log.nextSeq) {e : EventsStep}
    (hok : savedAtCrash cfg w e) :
    Numbered cfg (w.step cfg e) ∧ 2 ≤ (w.step cfg e).host.log.nextSeq := by
  obtain ⟨h, htwo⟩ := h
  cases e with
  | push e =>
    refine ⟨h.push e, ?_⟩
    show 2 ≤ w.host.log.nextSeq + 1
    omega
  | persist =>
    refine ⟨h.persist, ?_⟩
    show 2 ≤ (w.host.step cfg .persist).log.nextSeq
    rwa [EventsHost.persist_log]
  | written ok =>
    refine ⟨h.written ok, ?_⟩
    show 2 ≤ (w.host.step cfg (.written ok)).log.nextSeq
    rwa [EventsHost.written_log]
  | poll => exact ⟨h.poll, htwo⟩
  | crash renamed now notes =>
    have hback := h.restored hok
    rw [PolledEvents.step_crash]
    refine ⟨hback.withEvents _, ?_⟩
    have hpos := hback.pos
    have hlen := startEvents_pos cfg now notes (w.restored cfg renamed now).host.log
    show 2 ≤ ((w.restored cfg renamed now).host.log.pushAll _).nextSeq
    rw [EventLog.pushAll_nextSeq]
    omega

/-- The first start. -/
lemma first (cfg : EventsConfig) (now : ℕ) (notes : List String) :
    Numbered cfg (PolledEvents.first cfg now notes) ∧
      2 ≤ (PolledEvents.first cfg now notes).host.log.nextSeq := by
  have hblank : Numbered cfg
      { host := ⟨EventLog.new cfg.cap now, if cfg.hasPath then 0 else 0, none, none⟩
        poller := ⟨0, []⟩
        earlier := []
        pushed := [] } := by
    refine ⟨rfl, ⟨List.Pairwise.nil, ?_⟩, Nat.le_refl 1, ?_, ?_, ?_, ⟨List.Pairwise.nil, ?_, ?_⟩,
      Nat.one_pos, ?_, ?_⟩
    case refine_3 =>
      intro n hn hlt
      exact absurd hlt (Nat.not_lt.mpr hn)
    all_goals simp [EventLog.new]
  have hlen := startEvents_pos cfg now notes (EventLog.new cfg.cap now)
  refine ⟨hblank.withEvents (EventsHost.startEvents cfg now notes (EventLog.new cfg.cap now)), ?_⟩
  show 2 ≤ ((EventLog.new cfg.cap now).pushAll
    (EventsHost.startEvents cfg now notes (EventLog.new cfg.cap now))).nextSeq
  have hone : (EventLog.new cfg.cap now).nextSeq = 1 := rfl
  rw [EventLog.pushAll_nextSeq, hone]
  omega

/-- **A crash with something unsaved gives a number again**: the first event that the next start
pushes has the number of an event before it. -/
lemma lost (h : Numbered cfg w ∧ 2 ≤ w.host.log.nextSeq) {e : EventsStep}
    (hno : ¬ savedAtCrash cfg w e) : ¬ NumberedOnce (w.step cfg e) := by
  obtain ⟨h, htwo⟩ := h
  cases e with
  | crash renamed now notes =>
    set log := (w.restored cfg renamed now).host.log with hlog
    have hback : 1 ≤ log.nextSeq ∧ log.nextSeq < w.host.log.nextSeq := by
      cases hf : w.host.found cfg renamed with
      | none =>
        have hone : log.nextSeq = 1 := by
          simp only [hlog, PolledEvents.restored, hf]
          rfl
        omega
      | some saved =>
        have hof := h.found hf
        have hseq : log.nextSeq = saved.nextSeq := by
          simp only [hlog, PolledEvents.restored, hf]
          exact hof.fromSaved cfg.cap now
        have hne : saved.nextSeq ≠ w.host.log.nextSeq := fun heq => hno ⟨saved, hf, heq⟩
        have hpos := hof.pos
        have hle := hof.le
        omega
    obtain ⟨e, he, heq⟩ := h.given log.nextSeq hback.1 hback.2
    intro hP
    let started : NewEvent :=
      ⟨now, none, .info, "restart", EventsHost.startMessage cfg.version log⟩
    have hfirst : log.event started ∈ (w.step cfg (.crash renamed now notes)).pushed :=
      List.mem_cons_self
    exact hP.fresh _ hfirst e he heq.symm
  | _ => exact absurd trivial hno

end Numbered

/-- **A poller gets every event once and in order exactly when every crash comes with everything
saved.** For every ring size, first start and run of pushes, persists, crashes and requests: in
every state of the run no event has a number of an earlier run, the latest number is not below
what the poller has seen and its next request completes the ring in order, if and only if each
crash leaves an `events.json` with the next number of the log.

**Proof sketch.** The exactness rule. `Numbered.step` is the step that keeps the invariant, and
`Numbered.lost` the crash that gives a number again. -/
theorem events_numbered_once_iff_saved (cfg : EventsConfig) (now : ℕ) (notes : List String)
    (run : List EventsStep) :
    Runs.Throughout (PolledEvents.step cfg) NumberedOnce (PolledEvents.first cfg now notes) run ↔
      Runs.Each (PolledEvents.step cfg) (savedAtCrash cfg) (PolledEvents.first cfg now notes)
        run :=
  Runs.throughout_iff_each
    (fun _ _ h hok => Numbered.step h hok)
    (fun _ h => h.1.numberedOnce)
    (fun _ _ h hno => Numbered.lost h hno)
    (Numbered.first cfg now notes)

/-- An event is pushed after the last write and a poller reads it. The process dies and starts
again, and the event that it pushes has the same number: the poller never gets it. -/
theorem event_number_given_again :
    ¬ ∀ (cfg : EventsConfig) (now : ℕ) (notes : List String) (run : List EventsStep),
      Runs.Throughout (PolledEvents.step cfg) NumberedOnce
        (PolledEvents.first cfg now notes) run := by
  intro h
  have hrun := h ⟨"1.0", 4096, true⟩ 100 []
    [.persist, .written true, .push ⟨200, some "d1", .info, "fleet", "sda: safe to pull"⟩, .poll,
      .crash false 300 []]
  have hfresh := hrun.last.fresh
  revert hfresh
  decide +kernel

end StormDrive
