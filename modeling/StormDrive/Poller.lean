import Mathlib.Algebra.Ring.Nat
import Mathlib.Data.List.Nodup
import StormDrive.Drive
import StormDrive.Interleave.Runs

set_option relaxedAutoImplicit false
set_option autoImplicit false

/-!
# Health polling

Each drive is asked for its health once in an interval, at its own phase. An ask waits for one of
a number of permits, and then for at most a timeout; the read itself cannot be stopped
(`poller.rs`, `health_loop` of `monitor.rs`).

## Main definitions

* `Poller.Schedule.takeDue` — which drives are due.
* `Poller.Outcome.sample` — what the threshold engine sees of an ask.
* `Poller.World.step`, `Poller.World.reported` — the asks on their way, through what happens, and
  what `Sampler::sample` returns.
* `Poller.Truthful` — what is promised of a step: only a drive that was really asked fails.
* `Poller.InTurn` — no drive is asked again before its last ask had its permit and its time.

## Main results

* `Poller.truthful_iff_inTurn` — **only asked drives fail in exactly the runs whose polls all come
  in turn**.
* `Poller.waiting_drive_fails` — a drive that waits for a permit is reported as hung.
* `Poller.Damper.failed_of_unanswered` — the drive is then on its way to `Failed`.

## Implementation notes

Times are in nanoseconds, and every step is taken at one instant. The semaphore is never closed.
An ask of a drive goes through the stages of `Poller.Stage`; a read that was given up goes on
without its permit. The cost figures are left out, and so are the readings of a sample past those
that say whether the drive answered.
-/

namespace StormDrive

namespace Poller

/-! ## When a drive is due -/

/-- When each drive is next due. -/
structure Schedule where
  interval : ℕ
  nextDue : DriveId → Option ℕ

/-- Nanoseconds in a millisecond. -/
def milli : ℕ := 10 ^ 6

/-- Nanoseconds in a second. -/
def sec : ℕ := 10 ^ 9

/-- The drive's offset into the interval: whole milliseconds, as many as 64 bits hold. -/
def phase (id : DriveId) (interval : ℕ) : ℕ :=
  id.uuid.bits.toNat % max (interval / milli) 1 % 2 ^ 64 * milli

namespace Schedule

def new (interval : ℕ) : Schedule := ⟨max interval sec, fun _ => none⟩

/-- One drive that is present, beside those found due before it. -/
def takeOne (now : ℕ) (s : Schedule × List DriveId) (id : DriveId) : Schedule × List DriveId :=
  let due := (s.1.nextDue id).getD (now + phase id s.1.interval)
  if due ≤ now then
    let next := if due + s.1.interval ≤ now then now + s.1.interval else due + s.1.interval
    ({ s.1 with nextDue := Function.update s.1.nextDue id (some next) }, s.2 ++ [id])
  else ({ s.1 with nextDue := Function.update s.1.nextDue id (some due) }, s.2)

/-- The drives due at `now`, out of those present. One seen for the first time is due at its
phase; one that was due is next due an interval later, or an interval from now. -/
def takeDue (s : Schedule) (now : ℕ) (present : List DriveId) : Schedule × List DriveId :=
  present.foldl (takeOne now)
    ({ s with nextDue := fun id => if id ∈ present then s.nextDue id else none }, [])

@[simp] lemma takeOne_interval (now : ℕ) (s : Schedule × List DriveId) (id : DriveId) :
    (takeOne now s id).1.interval = s.1.interval := by
  simp only [takeOne]
  split_ifs <;> rfl

@[simp] lemma foldl_takeOne_interval (now : ℕ) (s : Schedule × List DriveId)
    (present : List DriveId) : (present.foldl (takeOne now) s).1.interval = s.1.interval := by
  induction present generalizing s with
  | nil => rfl
  | cons id present ih => rw [List.foldl_cons, ih, takeOne_interval]

lemma takeOne_nextDue_of_ne (now : ℕ) (s : Schedule × List DriveId) {id d : DriveId}
    (h : d ≠ id) : (takeOne now s id).1.nextDue d = s.1.nextDue d := by
  simp only [takeOne]
  split_ifs <;> simp [h]

lemma takeOne_nextDue_self (now : ℕ) (s : Schedule × List DriveId) (id : DriveId)
    (h : 0 < s.1.interval) : ∃ t, (takeOne now s id).1.nextDue id = some t ∧ now < t := by
  simp only [takeOne]
  split_ifs with due later
  · exact ⟨_, Function.update_self .., by omega⟩
  · exact ⟨_, Function.update_self .., by omega⟩
  · exact ⟨_, Function.update_self .., by omega⟩

/-- Once the drives due are taken, every drive that is present is next due later: a poller that
fell behind does not catch up in a burst. -/
theorem takeDue_nextDue (s : Schedule) (now : ℕ) (present : List DriveId) (h : 0 < s.interval) :
    ∀ d ∈ present, ∃ t, (s.takeDue now present).1.nextDue d = some t ∧ now < t := by
  intro d hd
  unfold takeDue
  generalize hs : ({ s with nextDue := _ }, []) = st
  have pos : 0 < st.1.interval := by rw [← hs]; exact h
  clear hs
  induction present using List.reverseRecOn with
  | nil => exact absurd hd (by simp)
  | append_singleton present id ih =>
    rw [List.foldl_append, List.foldl_cons, List.foldl_nil]
    by_cases e : d = id
    · rw [e]
      exact takeOne_nextDue_self now _ id (by rwa [foldl_takeOne_interval])
    · rw [takeOne_nextDue_of_ne now _ e]
      exact ih (by simpa [e] using hd)

end Schedule

/-! ## What comes of an ask -/

/-- One health observation: whether the device is usable, and what was met. -/
structure Sample where
  kernelOk : Bool
  messages : List String
  deriving DecidableEq

/-- What came of asking a drive. -/
inductive Outcome
  | sampled (s : Sample)
  | timedOut
  | stillStuck
  deriving DecidableEq

namespace Outcome

/-- The sample the threshold engine sees. -/
def sample (timeout : ℕ) : Outcome → Sample
  | sampled s => s
  | timedOut =>
    ⟨false, ["health read did not answer within " ++ toString (timeout / sec) ++ " s"]⟩
  | stillStuck => ⟨false, ["health read still hung from an earlier poll"]⟩

def answered : Outcome → Bool
  | sampled _ => true
  | _ => false

/-- A drive that did not answer is an unusable device. -/
lemma sample_kernelOk {timeout : ℕ} {o : Outcome} (h : o.answered = false) :
    (o.sample timeout).kernelOk = false := by
  cases o with
  | sampled s => exact absurd h (by simp [answered])
  | timedOut => rfl
  | stillStuck => rfl

end Outcome

/-! ## The sampler -/

structure Config where
  interval : ℕ
  maxConcurrent : ℕ
  timeout : ℕ

/-- How many permits there are. -/
def Config.permits (c : Config) : ℕ := max c.maxConcurrent 1

/-- How far an ask is: it waits for a permit; its read was spawned at some time, and may have begun
on a thread of its own; the read is over. `awaited` says that the ask still waits for its read and
has the permit. -/
inductive Stage
  | waiting
  | reading (since : ℕ) (begun awaited : Bool)
  | returned (s : Sample)
  | panicked
  deriving DecidableEq

/-- One ask of a drive. -/
structure Ask where
  drive : DriveId
  stage : Stage
  deriving DecidableEq

namespace Ask

/-- The read has not returned. -/
def unreturned (a : Ask) : Bool :=
  match a.stage with
  | .returned _ => false
  | _ => true

/-- The ask has a permit. -/
def holds (a : Ask) : Bool :=
  match a.stage with
  | .waiting => false
  | .reading _ _ awaited => awaited
  | .returned _ => true
  | .panicked => true

/-- The read runs. -/
def runs (a : Ask) : Bool :=
  match a.stage with
  | .reading _ begun _ => begun
  | _ => false

/-- The read runs, and its time is not up. -/
def inTime (timeout now : ℕ) (a : Ask) : Bool :=
  match a.stage with
  | .reading since begun _ => begun && now < since + timeout
  | _ => false

/-- The read began and did not return in its time, or it panicked. -/
def failing (timeout now : ℕ) (a : Ask) : Bool :=
  match a.stage with
  | .reading since begun _ => begun && since + timeout ≤ now
  | .panicked => true
  | _ => false

/-- The ask waits for its permit or for its thread, or its read is in its time. -/
def early (timeout now : ℕ) (a : Ask) : Bool :=
  match a.stage with
  | .waiting => true
  | .reading since begun _ => !begun || now < since + timeout
  | _ => false

/-- The ask waits for a read that has not begun, and its time is up. -/
def unbegun (timeout now : ℕ) (a : Ask) : Bool :=
  match a.stage with
  | .reading since begun awaited => !begun && awaited && since + timeout ≤ now
  | _ => false

end Ask

/-- The poller: the time, when each drive is due, the asks that are to be made, the drives marked
as running, the free permits, and the asks on their way. Beside it, the drives with a read that
panicked when no ask waited for it any more. -/
structure World where
  now : ℕ
  schedule : Schedule
  pending : List DriveId
  running : List DriveId
  permits : ℕ
  asks : List Ask
  dead : List DriveId

/-- What happens. An ask is given by its place. -/
inductive Event
  | wait (ns : ℕ)
  /-- The health loop turns. -/
  | turn (present : List DriveId)
  /-- An ask that is to be made is made. -/
  | poll (d : DriveId)
  | grant (i : ℕ)
  /-- A thread takes up the read. -/
  | start (i : ℕ)
  | answer (i : ℕ) (s : Sample)
  | panic (i : ℕ)
  /-- The ask goes on after its read, or after its time. -/
  | finish (i : ℕ)

namespace World

/-- A poller that has asked nothing yet. -/
def first (c : Config) (now : ℕ) : World :=
  ⟨now, Schedule.new c.interval, [], [], c.permits, [], []⟩

/-- Put others in the place of an ask. -/
def replace (w : World) (i : ℕ) (new : List Ask) : World :=
  { w with asks := w.asks.take i ++ new ++ w.asks.drop (i + 1) }

/-- Clear a drive's mark. -/
def clear (w : World) (d : DriveId) : World := { w with running := w.running.filter (· ≠ d) }

/-- Give a permit back. -/
def giveBack (w : World) : World := { w with permits := w.permits + 1 }

/-- Ask one drive, unless it is marked. -/
def poll (w : World) (d : DriveId) : World :=
  if d ∈ w.running then w
  else { w with running := d :: w.running, asks := w.asks ++ [⟨d, .waiting⟩] }

/-- An ask gets a permit, and its read is spawned. -/
def grant (w : World) (i : ℕ) : World :=
  match w.asks[i]? with
  | some ⟨d, .waiting⟩ =>
    if 0 < w.permits then
      { w.replace i [⟨d, .reading w.now false true⟩] with permits := w.permits - 1 }
    else w
  | _ => w

def start (w : World) (i : ℕ) : World :=
  match w.asks[i]? with
  | some ⟨d, .reading since _ awaited⟩ => w.replace i [⟨d, .reading since true awaited⟩]
  | _ => w

/-- The read returns, and clears the mark. -/
def answer (w : World) (i : ℕ) (s : Sample) : World :=
  match w.asks[i]? with
  | some ⟨d, .reading _ true true⟩ => (w.replace i [⟨d, .returned s⟩]).clear d
  | some ⟨d, .reading _ true false⟩ => (w.replace i []).clear d
  | _ => w

/-- The read panics, and clears nothing. -/
def panic (w : World) (i : ℕ) : World :=
  match w.asks[i]? with
  | some ⟨d, .reading _ true true⟩ => w.replace i [⟨d, .panicked⟩]
  | some ⟨d, .reading _ true false⟩ => { w.replace i [] with dead := d :: w.dead }
  | _ => w

/-- The ask is over: it has its sample, its read panicked, or its time is up. -/
def finish (w : World) (timeout i : ℕ) : World :=
  match w.asks[i]? with
  | some ⟨_, .returned _⟩ => (w.replace i []).giveBack
  | some ⟨d, .panicked⟩ => ((w.replace i []).giveBack).clear d
  | some ⟨d, .reading since begun true⟩ =>
    if since + timeout ≤ w.now then (w.replace i [⟨d, .reading since begun false⟩]).giveBack else w
  | _ => w

def step (c : Config) (w : World) : Event → World
  | .wait ns => { w with now := w.now + ns }
  | .turn present =>
    let (schedule, due) := w.schedule.takeDue w.now present
    { w with schedule := schedule, pending := w.pending ++ due }
  | .poll d => if d ∈ w.pending then poll { w with pending := w.pending.erase d } d else w
  | .grant i => w.grant i
  | .start i => w.start i
  | .answer i s => w.answer i s
  | .panic i => w.panic i
  | .finish i => w.finish c.timeout i

/-- What an ask that ends here returns. -/
def outcome (timeout now : ℕ) : Ask → Option (DriveId × Outcome)
  | ⟨d, .returned s⟩ => some (d, .sampled s)
  | ⟨d, .panicked⟩ => some (d, .timedOut)
  | ⟨d, .reading since _ true⟩ => if since + timeout ≤ now then some (d, .timedOut) else none
  | _ => none

/-- What `Sampler::sample` returns in a step. -/
def reported (c : Config) (w : World) : Event → Option (DriveId × Outcome)
  | .poll d => if d ∈ w.pending ∧ d ∈ w.running then some (d, .stillStuck) else none
  | .finish i => w.asks[i]?.bind (outcome c.timeout w.now)
  | _ => none

end World

/-! ## What is promised, and when it holds -/

/-- A read of the drive was started and had not returned within the timeout, or it panicked. -/
def Asked (c : Config) (w : World) (d : DriveId) : Prop :=
  d ∈ w.dead ∨ ∃ a ∈ w.asks, a.drive = d ∧ a.failing c.timeout w.now = true
deriving Decidable

/-- What is promised of a step. -/
structure Truthful (c : Config) (w : World) (e : Event) : Prop where
  asked : ∀ d o, w.reported c e = some (d, o) → o.answered = false → Asked c w d
  notWaiting : ∀ d o, w.reported c e = some (d, o) → o.answered = false →
    ⟨d, .waiting⟩ ∉ w.asks
  single : (((w.step c e).asks.filter Ask.runs).map Ask.drive).Nodup
  bounded : (w.step c e).asks.countP (Ask.inTime c.timeout (w.step c e).now) ≤ c.permits

/-- Asks come in turn: a drive is asked again only when its last ask no longer waits for a permit
or a thread and its read is past its time, and a read is given up only when it has begun. -/
def InTurn (c : Config) (w : World) : Event → Prop
  | .poll d => d ∈ w.pending → ∀ a ∈ w.asks, a.drive = d → a.early c.timeout w.now = false
  | .finish i => ∀ a, w.asks[i]? = some a → a.unbegun c.timeout w.now = false
  | _ => True

/-! ## The invariant -/

/-- What holds of the poller: no drive has two reads that have not returned; the marked drives are
those with such a read and the dead ones; every permit is free or had by an ask; and a read that
was given up had begun and is past its time. -/
structure Sound (c : Config) (w : World) : Prop where
  nodup : ((w.asks.filter Ask.unreturned).map Ask.drive).Nodup
  marked : ∀ d, d ∈ w.running ↔
    d ∈ w.dead ∨ ∃ a ∈ w.asks, a.unreturned = true ∧ a.drive = d
  dead : ∀ a ∈ w.asks, a.unreturned = true → a.drive ∉ w.dead
  permits : w.permits + w.asks.countP Ask.holds = c.permits
  givenUp : ∀ d since begun, ⟨d, .reading since begun false⟩ ∈ w.asks →
    begun = true ∧ since + c.timeout ≤ w.now

lemma sound_first (c : Config) (now : ℕ) : Sound c (World.first c now) where
  nodup := List.nodup_nil
  marked := by simp [World.first]
  dead := by simp [World.first]
  permits := rfl
  givenUp := by simp [World.first]

namespace Ask

lemma unreturned_of_runs {a : Ask} (h : a.runs = true) : a.unreturned = true := by
  obtain ⟨d, _ | _ | _ | _⟩ := a <;> simp_all [runs, unreturned]

lemma unreturned_of_failing {a : Ask} {timeout now : ℕ} (h : a.failing timeout now = true) :
    a.unreturned = true := by
  obtain ⟨d, _ | _ | _ | _⟩ := a <;> simp_all [failing, unreturned]

lemma unreturned_of_early {a : Ask} {timeout now : ℕ} (h : a.early timeout now = true) :
    a.unreturned = true := by
  obtain ⟨d, _ | _ | _ | _⟩ := a <;> simp_all [early, unreturned]

/-- A read that has not returned is early or has failed. -/
lemma failing_of_not_early {a : Ask} {timeout now : ℕ} (h : a.unreturned = true)
    (late : a.early timeout now = false) : a.failing timeout now = true := by
  obtain ⟨d, _ | _ | _ | _⟩ := a <;> simp_all [early, failing, unreturned]

lemma early_of_failing {a : Ask} {timeout now : ℕ} (h : a.failing timeout now = true) :
    a.early timeout now = false := by
  obtain ⟨d, _ | _ | _ | _⟩ := a <;> simp_all [early, failing]

end Ask

namespace Sound

variable {c : Config} {w : World}

/-- A drive has one read that has not returned. -/
lemma unique (inv : Sound c w) {a b : Ask} (ha : a ∈ w.asks) (hb : b ∈ w.asks)
    (ua : a.unreturned = true) (ub : b.unreturned = true) (h : a.drive = b.drive) : a = b :=
  List.inj_on_of_nodup_map inv.nodup (List.mem_filter.mpr ⟨ha, ua⟩) (List.mem_filter.mpr ⟨hb, ub⟩) h

/-- At most one read per drive is running. -/
lemma single (inv : Sound c w) : ((w.asks.filter Ask.runs).map Ask.drive).Nodup :=
  inv.nodup.sublist <| List.Sublist.map _ <|
    List.monotone_filter_right _ fun _ h => Ask.unreturned_of_runs h

/-- A read in its time has a permit. -/
lemma holds_of_inTime (inv : Sound c w) {a : Ask} (ha : a ∈ w.asks)
    (h : a.inTime c.timeout w.now = true) : a.holds = true := by
  obtain ⟨d, _ | ⟨since, begun, awaited⟩ | _ | _⟩ := a
  · exact absurd h (by simp [Ask.inTime])
  · cases awaited with
    | true => rfl
    | false =>
      have past := (inv.givenUp d since begun ha).2
      simp only [Ask.inTime, Bool.and_eq_true, decide_eq_true_eq] at h
      omega
  · exact absurd h (by simp [Ask.inTime])
  · exact absurd h (by simp [Ask.inTime])

/-- Reads in their time are no more than the permits. -/
lemma bounded (inv : Sound c w) : w.asks.countP (Ask.inTime c.timeout w.now) ≤ c.permits := by
  have h : w.asks.countP (Ask.inTime c.timeout w.now) ≤ w.asks.countP Ask.holds :=
    List.countP_mono_left fun a ha h => inv.holds_of_inTime ha h
  have := inv.permits
  omega

/-- A marked drive was asked for, unless its last ask is early. -/
lemma asked_of_marked (inv : Sound c w) {d : DriveId} (h : d ∈ w.running)
    (turn : ∀ a ∈ w.asks, a.drive = d → a.early c.timeout w.now = false) : Asked c w d := by
  obtain h | ⟨a, ha, un, rfl⟩ := (inv.marked d).mp h
  · exact .inl h
  · exact .inr ⟨a, ha, rfl, Ask.failing_of_not_early un (turn a ha rfl)⟩

/-- A drive with an early ask was not asked. -/
lemma not_asked_of_early (inv : Sound c w) {a : Ask} (ha : a ∈ w.asks)
    (h : a.early c.timeout w.now = true) : ¬ Asked c w a.drive := by
  have un := Ask.unreturned_of_early h
  rintro (hd | ⟨b, hb, same, fails⟩)
  · exact inv.dead a ha un hd
  · have : b = a := inv.unique hb ha (Ask.unreturned_of_failing fails) un same
    rw [this] at fails
    rw [Ask.early_of_failing fails] at h
    exact absurd h (by simp)

/-- A drive that was asked does not wait for a permit. -/
lemma not_waiting_of_asked (inv : Sound c w) {d : DriveId} (h : Asked c w d) :
    ⟨d, .waiting⟩ ∉ w.asks :=
  fun hw => inv.not_asked_of_early hw rfl h

end Sound

/-! ## What a step keeps -/

section Replaced

variable {c : Config} {w w' : World} {a : Ask} {before after new : List Ask}

/-- Where an ask is, the list is what is before it, the ask, and what is after it. -/
lemma exists_split {i : ℕ} (h : w.asks[i]? = some a) :
    ∃ before after, w.asks = before ++ a :: after ∧
      ∀ new, (w.replace i new).asks = before ++ new ++ after := by
  obtain ⟨hi, rfl⟩ := List.getElem?_eq_some_iff.mp h
  exact ⟨w.asks.take i, w.asks.drop (i + 1), by simp, fun _ => rfl⟩

/-- Replacing an ask keeps the invariant, when no read of another drive comes in its place, the
permits add up, and a read that is given up may be. -/
lemma Sound.replaced (inv : Sound c w) (split : w.asks = before ++ a :: after)
    (asks : w'.asks = before ++ new ++ after) (now : w'.now = w.now)
    (fewer : ((new.filter Ask.unreturned).map Ask.drive).Sublist
      (([a].filter Ask.unreturned).map Ask.drive))
    (permits : w'.permits + new.countP Ask.holds = w.permits + [a].countP Ask.holds)
    (givenUp : ∀ d since begun, ⟨d, .reading since begun false⟩ ∈ new →
      begun = true ∧ since + c.timeout ≤ w.now)
    (marked : ∀ d, d ∈ w'.running ↔
      d ∈ w'.dead ∨ ∃ b ∈ w'.asks, b.unreturned = true ∧ b.drive = d)
    (dead : ∀ b ∈ w'.asks, b.unreturned = true → b.drive ∉ w'.dead) : Sound c w' where
  nodup := by
    refine inv.nodup.sublist ?_
    have cons : a :: after = [a] ++ after := rfl
    rw [asks, split, List.append_assoc, cons]
    simp only [List.filter_append, List.map_append]
    exact (List.Sublist.refl _).append (fewer.append (List.Sublist.refl _))
  marked := marked
  dead := dead
  permits := by
    have := inv.permits
    have cons : a :: after = [a] ++ after := rfl
    rw [split, cons] at this
    rw [asks]
    simp only [List.countP_append] at this ⊢
    omega
  givenUp := by
    intro d since begun h
    rw [now]
    rw [asks, List.mem_append, List.mem_append] at h
    obtain (h | h) | h := h
    · exact inv.givenUp d since begun (by rw [split]; simp [h])
    · exact givenUp d since begun h
    · exact inv.givenUp d since begun (by rw [split]; simp [h])

end Replaced

namespace Sound

variable {c : Config} {w : World}

section Changes

variable {w' : World} {d : DriveId} {st : Stage} {before after : List Ask}

/-- An ask goes on to another stage, its read still not returned. -/
lemma moved (inv : Sound c w) {a : Ask} (split : w.asks = before ++ a :: after)
    (un : a.unreturned = true) {st : Stage} (un' : (Ask.mk a.drive st).unreturned = true)
    (asks : w'.asks = before ++ [⟨a.drive, st⟩] ++ after) (now : w'.now = w.now)
    (running : w'.running = w.running) (dead : w'.dead = w.dead)
    (permits : w'.permits + [Ask.mk a.drive st].countP Ask.holds =
      w.permits + [a].countP Ask.holds)
    (givenUp : ∀ since begun, st = .reading since begun false →
      begun = true ∧ since + c.timeout ≤ w.now) : Sound c w' := by
  have same : ∀ d, (∃ b ∈ w'.asks, b.unreturned = true ∧ b.drive = d) ↔
      ∃ b ∈ w.asks, b.unreturned = true ∧ b.drive = d := by
    intro d
    rw [asks, split]
    simp [or_and_right, exists_or, un, un']
  refine inv.replaced split asks now ?_ permits ?_ ?_ ?_
  · simp [un, un']
  · intro e since begun h
    simp only [List.mem_singleton, Ask.mk.injEq] at h
    exact givenUp since begun h.2.symm
  · intro e
    rw [running, dead, same]
    exact inv.marked e
  · intro b hb ub hd
    rw [dead] at hd
    obtain ⟨b', hb', ub', e⟩ := (same b.drive).mp ⟨b, hb, ub, rfl⟩
    rw [← e] at hd
    exact inv.dead b' hb' ub' hd

/-- Beside an ask whose read has not returned, all such asks are of other drives. -/
lemma apart (inv : Sound c w) {a : Ask} (split : w.asks = before ++ a :: after)
    (un : a.unreturned = true) :
    ∀ b ∈ before ++ after, b.unreturned = true → b.drive ≠ a.drive := by
  intro b hb ub e
  have nodup := inv.nodup
  rw [split] at nodup
  simp only [List.filter_append, List.filter_cons, un, if_true, List.map_append, List.map_cons,
    List.nodup_middle, List.nodup_cons, List.mem_append, List.mem_map, List.mem_filter] at nodup
  refine nodup.1 ?_
  obtain hb | hb := List.mem_append.mp hb
  · exact .inl ⟨b, ⟨hb, ub⟩, e⟩
  · exact .inr ⟨b, ⟨hb, ub⟩, e⟩

/-- The reads that have not returned, where one is over. -/
lemma unreturned_iff_of_over {a : Ask} (split : w.asks = before ++ a :: after)
    {new : List Ask} (un' : ∀ b ∈ new, b.unreturned = false)
    (asks : w'.asks = before ++ new ++ after) (b : Ask) (ub : b.unreturned = true) :
    (b ∈ w'.asks ↔ b ∈ before ++ after) ∧ (b ∈ w.asks ↔ b = a ∨ b ∈ before ++ after) := by
  have : b ∉ new := fun h => absurd ub (by simp [un' b h])
  rw [asks, split]
  simp only [List.mem_append, List.mem_cons, this, or_false]
  tauto

/-- A read is over, and its drive is no longer marked, or is dead. -/
lemma answered (inv : Sound c w) {a : Ask} (split : w.asks = before ++ a :: after)
    (un : a.unreturned = true) {new : List Ask} (un' : ∀ b ∈ new, b.unreturned = false)
    (asks : w'.asks = before ++ new ++ after) (now : w'.now = w.now)
    (permits : w'.permits + new.countP Ask.holds = w.permits + [a].countP Ask.holds)
    (dead : ∀ d ≠ a.drive, d ∈ w'.dead ↔ d ∈ w.dead)
    (running : ∀ d ≠ a.drive, d ∈ w'.running ↔ d ∈ w.running)
    (own : a.drive ∈ w'.running ↔ a.drive ∈ w'.dead) : Sound c w' := by
  have none : new.filter Ask.unreturned = [] := by
    rw [List.filter_eq_nil_iff]
    intro b hb
    simp [un' b hb]
  have others := inv.apart split un
  have mem := unreturned_iff_of_over split un' asks
  refine inv.replaced split asks now (by simp [none]) permits ?_ ?_ ?_
  · intro e since begun h
    exact absurd (un' _ h) (by simp [Ask.unreturned])
  · intro e
    by_cases he : e = a.drive
    · rw [he, own]
      refine ⟨.inl, ?_⟩
      rintro (hd | ⟨b, hb, ub, hd⟩)
      · exact hd
      · exact absurd hd (others b ((mem b ub).1.mp hb) ub)
    · rw [running e he, dead e he, inv.marked e]
      refine or_congr_right ⟨?_, ?_⟩
      · rintro ⟨b, hb, ub, rfl⟩
        obtain rfl | hb' := (mem b ub).2.mp hb
        · exact absurd rfl he
        · exact ⟨b, (mem b ub).1.mpr hb', ub, rfl⟩
      · rintro ⟨b, hb, ub, rfl⟩
        exact ⟨b, (mem b ub).2.mpr (.inr ((mem b ub).1.mp hb)), ub, rfl⟩
  · intro b hb ub
    have hb' := (mem b ub).1.mp hb
    rw [dead b.drive (others b hb' ub)]
    exact inv.dead b ((mem b ub).2.mpr (.inr hb')) ub

/-- An ask whose read has returned ends. -/
lemma dropped (inv : Sound c w) {a : Ask} (split : w.asks = before ++ a :: after)
    (un : a.unreturned = false) (asks : w'.asks = before ++ [] ++ after) (now : w'.now = w.now)
    (permits : w'.permits = w.permits + [a].countP Ask.holds)
    (dead : w'.dead = w.dead) (running : w'.running = w.running) : Sound c w' := by
  have mem : ∀ b : Ask, b.unreturned = true → (b ∈ w'.asks ↔ b ∈ w.asks) := by
    intro b ub
    have : b ≠ a := by
      rintro rfl
      exact absurd ub (by simp [un])
    rw [asks, split]
    simp [this]
  refine inv.replaced split asks now (List.nil_sublist _) permits (by simp) ?_ ?_
  · intro e
    rw [running, dead, inv.marked e]
    exact or_congr_right <| exists_congr fun b =>
      ⟨fun ⟨hb, ub, h⟩ => ⟨(mem b ub).mpr hb, ub, h⟩, fun ⟨hb, ub, h⟩ => ⟨(mem b ub).mp hb, ub, h⟩⟩
  · intro b hb ub
    rw [dead]
    exact inv.dead b ((mem b ub).mp hb) ub

end Changes

/-! ### The events -/

lemma wait (inv : Sound c w) (ns : ℕ) : Sound c { w with now := w.now + ns } :=
  { inv with
    givenUp := by
      intro d since begun h
      have ⟨begun, past⟩ := inv.givenUp d since begun h
      exact ⟨begun, past.trans (Nat.le_add_right _ _)⟩ }

/-- Nothing of the schedule is in the invariant. -/
lemma scheduled (inv : Sound c w) (s : Schedule) (p : List DriveId) :
    Sound c { w with schedule := s, pending := p } :=
  { inv with }

lemma poll (inv : Sound c w) (d : DriveId) : Sound c (w.poll d) := by
  unfold World.poll
  split_ifs with hd
  · exact inv
  · have fresh := mt (inv.marked d).mpr hd
    rw [not_or] at fresh
    exact
      { nodup := by
          simp only [List.filter_append, List.map_append]
          refine List.nodup_append.mpr ⟨inv.nodup, List.nodup_singleton _, ?_⟩
          intro x hx y hy e
          obtain ⟨b, hb, rfl⟩ := List.mem_map.mp hx
          rw [List.mem_filter] at hb
          simp only [List.filter_cons, Ask.unreturned, if_true, List.filter_nil, List.map_cons,
            List.map_nil, List.mem_singleton] at hy
          exact fresh.2 ⟨b, hb.1, hb.2, e.trans hy⟩
        marked := by
          intro e
          simp only [List.mem_cons, inv.marked e, List.mem_append, List.not_mem_nil, or_false]
          constructor
          · rintro (rfl | h | ⟨b, hb, ub, h⟩)
            · exact .inr ⟨⟨e, .waiting⟩, .inr rfl, rfl, rfl⟩
            · exact .inl h
            · exact .inr ⟨b, .inl hb, ub, h⟩
          · rintro (h | ⟨b, hb | rfl, ub, h⟩)
            · exact .inr (.inl h)
            · exact .inr (.inr ⟨b, hb, ub, h⟩)
            · exact .inl h.symm
        dead := by
          intro b hb ub
          obtain hb | hb := List.mem_append.mp hb
          · exact inv.dead b hb ub
          · rw [List.mem_singleton.mp hb]
            exact fresh.1
        permits := by simpa [List.countP_append, Ask.holds] using inv.permits
        givenUp := by
          intro e since begun h
          obtain h | h := List.mem_append.mp h
          · exact inv.givenUp e since begun h
          · exact absurd h (by simp) }

lemma grant (inv : Sound c w) (i : ℕ) : Sound c (w.grant i) := by
  unfold World.grant
  split
  · next d h =>
    obtain ⟨before, after, split, asks⟩ := exists_split h
    split_ifs with free
    · refine inv.moved split rfl rfl (asks _) rfl rfl rfl ?_ (by simp)
      simp only [List.countP_singleton, Ask.holds]
      exact Nat.sub_add_cancel free
    · exact inv
  · exact inv

lemma start (inv : Sound c w) (i : ℕ) : Sound c (w.start i) := by
  unfold World.start
  split
  · next d since begun awaited h =>
    obtain ⟨before, after, split, asks⟩ := exists_split h
    refine inv.moved split rfl rfl (asks _) rfl rfl rfl rfl ?_
    rintro _ _ ⟨⟩
    exact ⟨rfl, (inv.givenUp d since begun (by rw [split]; simp)).2⟩
  · exact inv

lemma mem_clear {d e : DriveId} : e ∈ (w.clear d).running ↔ e ∈ w.running ∧ e ≠ d := by
  simp [World.clear]

lemma answer (inv : Sound c w) (i : ℕ) (s : Sample) : Sound c (w.answer i s) := by
  unfold World.answer
  split
  · next d since h =>
    obtain ⟨before, after, split, asks⟩ := exists_split h
    have alive := inv.dead ⟨d, .reading since true true⟩ (by rw [split]; simp) rfl
    refine inv.answered split rfl ?_ (asks _) rfl rfl (fun _ _ => Iff.rfl) (fun e he => ?_) ?_
    · rintro b hb
      rw [List.mem_singleton.mp hb]
      rfl
    · exact mem_clear.trans (and_iff_left he)
    · exact iff_of_false (fun h => (mem_clear.mp h).2 rfl) alive
  · next d since h =>
    obtain ⟨before, after, split, asks⟩ := exists_split h
    have alive := inv.dead ⟨d, .reading since true false⟩ (by rw [split]; simp) rfl
    refine inv.answered split rfl (by simp) (asks []) rfl rfl (fun _ _ => Iff.rfl) (fun e he => ?_) ?_
    · exact mem_clear.trans (and_iff_left he)
    · exact iff_of_false (fun h => (mem_clear.mp h).2 rfl) alive
  · exact inv

lemma panic (inv : Sound c w) (i : ℕ) : Sound c (w.panic i) := by
  unfold World.panic
  split
  · next d since h =>
    obtain ⟨before, after, split, asks⟩ := exists_split h
    exact inv.moved split rfl rfl (asks _) rfl rfl rfl rfl (by simp)
  · next d since h =>
    obtain ⟨before, after, split, asks⟩ := exists_split h
    have marked : d ∈ w.running :=
      (inv.marked d).mpr (.inr ⟨⟨d, .reading since true false⟩, by rw [split]; simp, rfl, rfl⟩)
    refine inv.answered split rfl (by simp) (asks []) rfl rfl (fun e he => ?_) (fun _ _ => Iff.rfl) ?_
    · simp [he]
    · exact iff_of_true marked (List.mem_cons_self ..)
  · exact inv

/-- An ask that ends keeps the invariant, unless it gives up a read that has not begun. -/
lemma finish (inv : Sound c w) (i : ℕ)
    (turn : ∀ a, w.asks[i]? = some a → a.unbegun c.timeout w.now = false) :
    Sound c (w.finish c.timeout i) := by
  unfold World.finish
  split
  · next d s h =>
    obtain ⟨before, after, split, asks⟩ := exists_split h
    exact inv.dropped split rfl (asks []) rfl rfl rfl rfl
  · next d h =>
    obtain ⟨before, after, split, asks⟩ := exists_split h
    have alive := inv.dead ⟨d, .panicked⟩ (by rw [split]; simp) rfl
    refine inv.answered split rfl (by simp) (asks []) rfl rfl (fun _ _ => Iff.rfl) (fun e he => ?_) ?_
    · exact mem_clear.trans (and_iff_left he)
    · exact iff_of_false (fun h => (mem_clear.mp h).2 rfl) alive
  · next d since begun h =>
    obtain ⟨before, after, split, asks⟩ := exists_split h
    split_ifs with past
    · refine inv.moved split rfl rfl (asks _) rfl rfl rfl rfl ?_
      rintro _ _ ⟨⟩
      have begun := turn _ h
      simp only [Ask.unbegun, Bool.and_true, past, decide_true, Bool.not_eq_false'] at begun
      exact ⟨begun, past⟩
    · exact inv
  · exact inv

/-- **What one step keeps**, when it comes in turn. -/
lemma step (inv : Sound c w) (e : Event) (turn : InTurn c w e) : Sound c (w.step c e) := by
  cases e with
  | wait ns => exact inv.wait ns
  | turn present => exact inv.scheduled _ _
  | poll d =>
    show Sound c (if d ∈ w.pending then _ else w)
    split_ifs
    · exact (inv.scheduled w.schedule (w.pending.erase d)).poll d
    · exact inv
  | grant i => exact inv.grant i
  | start i => exact inv.start i
  | answer i s => exact inv.answer i s
  | panic i => exact inv.panic i
  | finish i => exact inv.finish i turn

end Sound

/-! ## Runs -/

/-- What a step reports of a drive that did not answer. -/
lemma reported_unanswered {c : Config} {w : World} {e : Event} {d : DriveId} {o : Outcome}
    (h : w.reported c e = some (d, o)) (un : o.answered = false) :
    (e = .poll d ∧ d ∈ w.pending ∧ d ∈ w.running) ∨
    ∃ i a, e = .finish i ∧ w.asks[i]? = some a ∧ a.drive = d ∧
      (a.stage = .panicked ∨
        ∃ since begun, a.stage = .reading since begun true ∧ since + c.timeout ≤ w.now) := by
  cases e with
  | poll d' =>
    simp only [World.reported] at h
    split_ifs at h with hd
    obtain ⟨rfl, -⟩ := Prod.mk.inj (Option.some.inj h)
    exact .inl ⟨rfl, hd⟩
  | finish i =>
    change (w.asks[i]?.bind _) = _ at h
    obtain ⟨a, ha, hout⟩ := Option.bind_eq_some_iff.mp h
    refine .inr ⟨i, a, rfl, ha, ?_⟩
    unfold World.outcome at hout
    split at hout
    · obtain ⟨-, rfl⟩ := Prod.mk.inj (Option.some.inj hout)
      exact absurd un (by simp [Outcome.answered])
    · obtain ⟨rfl, -⟩ := Prod.mk.inj (Option.some.inj hout)
      exact ⟨rfl, .inl rfl⟩
    · next d' since begun =>
      split_ifs at hout with past
      obtain ⟨rfl, -⟩ := Prod.mk.inj (Option.some.inj hout)
      exact ⟨rfl, .inr ⟨since, begun, rfl, past⟩⟩
    · exact absurd hout (by simp)
  | wait | turn | grant | start | answer | panic => exact absurd h (by simp [World.reported])

/-- In turn, a drive that does not answer was asked. -/
lemma asked_of_reported {c : Config} {w : World} (inv : Sound c w) {e : Event}
    (turn : InTurn c w e) {d : DriveId} {o : Outcome} (h : w.reported c e = some (d, o))
    (un : o.answered = false) : Asked c w d := by
  obtain ⟨rfl, pending, running⟩ | ⟨i, ⟨d', st⟩, rfl, ha, rfl, hst⟩ := reported_unanswered h un
  · exact inv.asked_of_marked running (turn pending)
  · refine .inr ⟨⟨d', st⟩, List.mem_of_getElem? ha, rfl, ?_⟩
    obtain rfl | ⟨since, begun, rfl, past⟩ := hst
    · rfl
    · have begun := turn _ ha
      simp only [Ask.unbegun, Bool.and_true, past, decide_true, Bool.not_eq_false'] at begun
      simp [Ask.failing, begun, past]

/-- A step that keeps its promise comes in turn.

**Proof sketch.** A poll out of turn is of a drive with an early ask, which is marked, so that it is
reported as hung; and a read that is given up before it has begun is reported as timed out. An early
ask is the only one of its drive, so the drive was not asked. -/
lemma inTurn_of_truthful {c : Config} {w : World} (inv : Sound c w) {e : Event}
    (h : Truthful c w e) : InTurn c w e := by
  cases e with
  | poll d =>
    intro pending a ha hd
    subst hd
    by_contra early
    rw [Bool.not_eq_false] at early
    have running : a.drive ∈ w.running :=
      (inv.marked a.drive).mpr (.inr ⟨a, ha, Ask.unreturned_of_early early, rfl⟩)
    have reported : w.reported c (.poll a.drive) = some (a.drive, .stillStuck) :=
      if_pos ⟨pending, running⟩
    exact inv.not_asked_of_early ha early (h.asked _ _ reported rfl)
  | finish i =>
    intro a ha
    by_contra unbegun
    rw [Bool.not_eq_false] at unbegun
    obtain ⟨d, _ | ⟨since, begun, awaited⟩ | _ | _⟩ := a
    · exact absurd unbegun (by simp [Ask.unbegun])
    · simp only [Ask.unbegun, Bool.and_eq_true, Bool.not_eq_true', decide_eq_true_eq] at unbegun
      obtain ⟨⟨rfl, rfl⟩, past⟩ := unbegun
      have reported : w.reported c (.finish i) = some (d, .timedOut) := by
        simp [World.reported, ha, World.outcome, past]
      have early : (Ask.mk d (.reading since false true)).early c.timeout w.now = true := rfl
      exact inv.not_asked_of_early (List.mem_of_getElem? ha) early (h.asked _ _ reported rfl)
    · exact absurd unbegun (by simp [Ask.unbegun])
    · exact absurd unbegun (by simp [Ask.unbegun])
  | wait | turn | grant | start | answer | panic => trivial

/-- A step keeps its promise exactly when it comes in turn. -/
lemma truthful_step_iff {c : Config} {w : World} (e : Event) (inv : Sound c w) :
    Truthful c w e ↔ InTurn c w e := by
  refine ⟨inTurn_of_truthful inv, fun turn => ?_⟩
  have inv' := inv.step e turn
  exact
    { asked := fun d o h un => asked_of_reported inv turn h un
      notWaiting := fun d o h un => inv.not_waiting_of_asked (asked_of_reported inv turn h un)
      single := inv'.single
      bounded := inv'.bounded }

/-- **Only a drive that was really asked fails its poll**, and reads are alone on their drive and
bounded, in exactly the runs whose polls come in turn. -/
theorem truthful_iff_inTurn (c : Config) (now : ℕ) (es : List Event) :
    Runs.Each (World.step c) (Truthful c) (World.first c now) es ↔
      Runs.Each (World.step c) (InTurn c) (World.first c now) es :=
  have kept : ∀ w e, Sound c w → InTurn c w e → Sound c (w.step c e) :=
    fun _ e inv turn => inv.step e turn
  Runs.each_iff_each kept (fun _ e inv => truthful_step_iff e inv) (sound_first c now)

/-- Two drives are due at once, one read is allowed at a time, and the first drive hangs: the second
still waits for its permit when it is due again, and is reported as hung. -/
theorem waiting_drive_fails :
    ¬ ∀ (c : Config) (now : ℕ) (es : List Event),
      Runs.Each (World.step c) (Truthful c) (World.first c now) es := by
  intro h
  let a : DriveId := ⟨⟨0⟩⟩
  let b : DriveId := ⟨⟨10000⟩⟩
  have run := h ⟨10 * sec, 1, 10 * sec⟩ 0 [.turn [a, b], .poll a, .poll b, .grant 0, .start 0,
    .wait (10 * sec), .turn [a, b], .poll b]
  have asked := run.2.2.2.2.2.2.2.1.asked b .stillStuck (by decide +kernel) rfl
  exact absurd asked (by decide +kernel)

/-! ## The verdict -/

/-- The verdict a sample asks for: `Failed` for an unusable device, else what its readings say. -/
def candidate (readings : Sample → HealthStatus) (s : Sample) : HealthStatus :=
  if s.kernelOk then readings s else .failed

/-- For each drive a worse verdict that is not believed yet, and how often it was met. -/
abbrev Damper := DriveId → Option (HealthStatus × ℕ)

namespace Damper

/-- A worse verdict has to repeat before it sticks; a better one sticks at once. -/
def apply (hysteresis : ℕ) (p : Damper) (id : DriveId) (current candidate : HealthStatus) :
    Damper × HealthStatus :=
  if candidate.severity ≤ current.severity then (Function.update p id none, candidate)
  else
    let met := ((p id).elim 0 fun e => if e.1 = candidate then e.2 else 0) + 1
    if hysteresis ≤ met then (Function.update p id none, candidate)
    else (Function.update p id (some (candidate, met)), current)

/-- What one ask of a drive does to its verdict. -/
def observe (hysteresis timeout : ℕ) (readings : Sample → HealthStatus) (id : DriveId)
    (s : Damper × HealthStatus) (o : Outcome) : Damper × HealthStatus :=
  s.1.apply hysteresis id s.2 (candidate readings (o.sample timeout))

/-- How often `Failed` was met for a drive. -/
def strikes (p : Damper) (id : DriveId) : ℕ :=
  (p id).elim 0 fun e => if e.1 = .failed then e.2 else 0

variable (hysteresis timeout : ℕ) (readings : Sample → HealthStatus) (id : DriveId)

/-- An ask that is not answered makes the drive `Failed`, or counts towards it. -/
lemma observe_unanswered (s : Damper × HealthStatus) {o : Outcome} (h : o.answered = false) :
    (observe hysteresis timeout readings id s o).2 = .failed ∨
      s.2 ≠ .failed ∧ strikes s.1 id + 1 < hysteresis ∧
        strikes (observe hysteresis timeout readings id s o).1 id = strikes s.1 id + 1 := by
  have failed : candidate readings (o.sample timeout) = .failed := by
    unfold candidate
    rw [Outcome.sample_kernelOk h]
    rfl
  simp only [observe, apply, failed]
  split_ifs with worse met
  · exact .inl rfl
  · exact .inl rfl
  · refine .inr ⟨?_, Nat.lt_of_not_le met, ?_⟩
    · intro e
      exact worse (by rw [e])
    · simp [strikes]

/-- **A drive that is reported as not answering often enough in a row is `Failed`**, whatever its
verdict was.

**Proof sketch.** By induction on the asks: the verdict is `Failed`, or each of them was counted and
the count is under the hysteresis. -/
theorem failed_of_unanswered (s : Damper × HealthStatus) (os : List Outcome)
    (unanswered : ∀ o ∈ os, o.answered = false) (ne : os ≠ [])
    (often : hysteresis ≤ os.length) :
    (os.foldl (observe hysteresis timeout readings id) s).2 = .failed := by
  have counted : (os.foldl (observe hysteresis timeout readings id) s).2 = .failed ∨
      os = [] ∨ os.length < hysteresis ∧
        os.length ≤ strikes (os.foldl (observe hysteresis timeout readings id) s).1 id ∧
        strikes (os.foldl (observe hysteresis timeout readings id) s).1 id < hysteresis := by
    clear often ne
    induction os using List.reverseRecOn with
    | nil => exact .inr (.inl rfl)
    | append_singleton os o ih =>
      rw [List.foldl_append, List.foldl_cons, List.foldl_nil]
      obtain failed | ⟨good, lt, strikes⟩ :=
        observe_unanswered hysteresis timeout readings id
          (os.foldl (observe hysteresis timeout readings id) s) (unanswered o (by simp))
      · exact .inl failed
      · right; right
        rw [strikes, List.length_append, List.length_singleton]
        obtain failed | rfl | ih := ih fun o ho => unanswered o (by simp [ho])
        · exact absurd failed good
        · simp only [List.length_nil, List.foldl_nil] at lt ⊢
          omega
        · omega
  obtain h | h | h := counted
  · exact h
  · exact absurd h ne
  · omega

end Damper

end Poller

end StormDrive
