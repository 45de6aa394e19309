import StormDrive.Daemon.Operations
import StormDrive.FormatStart
import StormDrive.DriveTest
import StormDrive.Partition

set_option relaxedAutoImplicit false
set_option autoImplicit false

/-!
# The end of a format

A format is watched to its end, by the task that started it or, after a restart, by one that found
it running; the drive says its new geometry, and the record is changed (`format.rs`).

## Main definitions

* `FormatEnd.runBlocking`, `FormatEnd.reattachBlocking` — the two ways in which a format ends, for
  every answer of the drive.
* `FormatEnd.capacityAfter` — the new capacity of the record, in checked arithmetic.
* `FormatEnd.Faithful` — the record has the drive's block length, and no more than its capacity.

## Main results

* `FormatEnd.faithful_iff` — **the record is the drive's exactly when it had no more blocks before
  than the drive has now**.
* `FormatEnd.record_outgrows_drive` — a drive formatted from 512 to 4096 bytes is recorded eight
  times as large as it is.

## Implementation notes

A loop that polls has a number of rounds: the clock passes its limit after so many. The progress and
the phases of a run, and its log lines, are left out, as are the node that a drive is opened by and
the decoding of sense data.
-/

namespace StormDrive

namespace FormatEnd

open Bytes Interleave Interleave.Prog Scsi

/-! ## The commands -/

/-- What the end of a format needs of a drive and its host. -/
inductive Command
  | resetHold
  /-- The disks with the drive's WWID, in the end. -/
  | namesByWwid
  | iocResets
  | openDevice
  | testUnitReady
  | requestSense
  | readCapacity16
  /-- A command of the start of a format. -/
  | start (c : FormatStart.Command)
  /-- Have 48 hours passed? -/
  | elapsed
  | rescanBlock (name : String)
  | sysfsSectors (name : String)
  | readdBlock (name : String)

/-- What a command is answered with. -/
@[reducible] def Answer : Command → Type
  | .resetHold => Option String
  | .namesByWwid => List String
  | .iocResets => Option ℕ
  | .openDevice => Except String Unit
  | .testUnitReady => Except ScsiError Unit
  | .requestSense => Option Sense
  | .readCapacity16 => Except ScsiError (List UInt8)
  | .start c => FormatStart.Answer c
  | .elapsed => Bool
  | .sysfsSectors _ => ℕ
  | .rescanBlock _ | .readdBlock _ => Unit

/-- Commands, with their answers. -/
abbrev Script := List (Σ c, Answer c)

/-- A program that sends commands. -/
abbrev Talk (α : Type) := Prog Command Answer α

def readCapacity16 : Talk (Except ScsiError Capacity) := do
  let raw ← op Command.readCapacity16
  pure (Except.bind raw parseReadCapacity16)

/-! ## Watching -/

/-- What TEST UNIT READY says of a format: done, going on with this progress, or failed. -/
def rawProgress : Except ScsiError Unit → Except String (Option (Option ℕ))
  | .ok () => .ok none
  | .error (.sense s) =>
    if s.isFormatInProgress then .ok (some s.progress)
    else if s.key = 2 ∧ s.asc = 4 ∧ (s.ascq = 1 ∨ s.ascq = 0) then .ok (some none)
    else if s.isUnitAttention then .ok (some none)
    else if s.asc = 0x31 then .error ("format failed: " ++ s.text)
    else .error s.text
  | .error e => .error e.text

/-- REQUEST SENSE says so itself. -/
def saysItself (s : Sense) : Bool :=
  (s.isFormatInProgress && s.progress.isSome) || s.asc = 0x31

/-- One poll of a running format. -/
def pollFormat : Talk (Except String (Option (Option ℕ))) := do
  match ← op Command.requestSense with
  | some s =>
    if saysItself s then pure (rawProgress (.error (.sense s)))
    else do
      let r ← op Command.testUnitReady
      pure (rawProgress r)
  | none => do
    let r ← op Command.testUnitReady
    pure (rawProgress r)

def tooLong : String := "format did not finish within 48 h"

/-- The polls of the task that started the format: it looks for controller resets too. -/
def watch : ℕ → Talk (Except String Unit)
  | 0 => pure (.error tooLong)
  | rounds + 1 => do
    let _ ← op Command.iocResets
    okThen pollFormat fun
      | none => pure (.ok ())
      | some _ => do
        let late ← op Command.elapsed
        if late then pure (.error tooLong) else watch rounds

/-- The polls after a restart. -/
def rewatch : ℕ → Talk (Except String Unit)
  | 0 => pure (.error tooLong)
  | rounds + 1 =>
    okThen pollFormat fun
      | none => pure (.ok ())
      | some _ => do
        let late ← op Command.elapsed
        if late then pure (.error tooLong) else rewatch rounds

/-- A path without its `/dev/`, as often as it begins with one. -/
def trimDev : List Char → List Char
  | '/' :: 'd' :: 'e' :: 'v' :: '/' :: rest => trimDev rest
  | path => path

/-- What is done to the disk of each path. -/
def each (f : String → Talk Unit) : List String → Talk Unit
  | [] => pure ()
  | path :: rest => do
    f (String.ofList (trimDev path.toList))
    each f rest

/-- Delete the device and scan for it again, when the kernel sees no blocks. -/
def readdIfEmpty (name : String) : Talk Unit := do
  let sectors ← op (Command.sysfsSectors name)
  if sectors = 0 then op (Command.readdBlock name) else pure ()

/-- Have the kernel read a drive's geometry again. -/
def rescan (name : String) : Talk Unit := do
  op (Command.rescanBlock name)
  readdIfEmpty name

/-- What the drive says after the format is what it was formatted to. -/
def verify (target : ℕ) (prot : Protection) (wrong : ℕ → String) : Talk (Except String ℕ) := do
  match ← readCapacity16 with
  | .error e => pure (.error ("read capacity after format: " ++ e.text))
  | .ok after =>
    pure (verifyFormat (after.blockLen, after.protType) target prot (wrong after.blockLen))

/-! ## The two ends -/

/-- A format from its start to its end. -/
def runBlocking (d : Drive) (target : ℕ × Protection) (alternatives : List Choice) (rounds : ℕ) :
    Talk (Except String ℕ) := do
  match ← op Command.resetHold with
  | some why =>
    pure (.error ("not started: " ++ why ++ "; no new format starts until stormdrive restarts"))
  | none => do
    let _ ← op Command.iocResets
    match ← op Command.openDevice with
    | .error e => pure (.error ("open: " ++ e))
    | .ok () => do
      let _ ← op Command.testUnitReady
      match ← readCapacity16 with
      | .error e => pure (.error ("read capacity: " ++ e.text))
      | .ok cap => do
        match ← (FormatStart.startExact cap.blockLen target).lift Command.start (fun _ x => x) with
        | .error (.refused line) => pure (.error (refusedError line alternatives))
        | .error (.failed e) => pure (.error e)
        -- a format that started is never an error
        | .error (.started _) => pure (.error "unreachable")
        | .ok immediate =>
          okThen (if immediate then watch rounds else pure (.ok ())) fun _ => do
          each (fun name => op (Command.rescanBlock name)) d.paths
          okThen (verify target.1 target.2 fun len =>
            "drive reports " ++ toString len ++ "-byte blocks after formatting to " ++
              toString target.1) fun after => do
          each readdIfEmpty d.paths
          pure (.ok after)

/-- The drive as it is named now: its paths. -/
def asNamedNow (d : Drive) (otherBoot : Bool) : Talk (Except String (List String)) := do
  let names ← if d.wwid.isSome then op Command.namesByWwid else pure []
  if names = [] then
    if otherBoot && d.wwid.isSome then
      pure (.error ("the node restarted and no disk has WWID " ++ d.wwid.getD "" ++
        " after 10 min"))
    else pure (.ok d.paths)
  else pure (.ok (names.map ("/dev/" ++ ·)))

/-- A format that went on over a restart, to its end. -/
def reattachBlocking (d : Drive) (target : ℕ) (prot : Protection) (otherBoot : Bool) (rounds : ℕ) :
    Talk (Except String ℕ) :=
  okThen (asNamedNow d otherBoot) fun paths => do
  match ← op Command.openDevice with
  | .error e => pure (.error ("open: " ++ e))
  | .ok () =>
    okThen (rewatch rounds) fun _ => do
    each rescan paths
    verify target prot fun len =>
      "drive reports " ++ toString len ++ "-byte blocks, not the " ++ toString target ++
        " it was being formatted to: the format did not complete"

/-- The ways in which a format ends. -/
inductive Ending
  /-- By the task that started it. -/
  | finish (target : ℕ × Protection) (alternatives : List Choice)
  /-- By the one that found it after a restart. -/
  | reattach (target : ℕ) (prot : Protection) (otherBoot : Bool)

def Ending.program (d : Drive) (rounds : ℕ) : Ending → Talk (Except String ℕ)
  | .finish target alternatives => runBlocking d target alternatives rounds
  | .reattach target prot otherBoot => do
    let r ← reattachBlocking d target prot otherBoot rounds
    pure (r.mapError (· ++ " (after a restart)"))

/-! ## The record -/

/-- The blocks of the record: its capacity in blocks of the length before the format. -/
def recordedBlocks (d : Drive) : ℕ :=
  d.capacityBytes / ((d.format.map fun f : FormatRecord => max f.fromBlockSize 1).getD 1)

/-- The capacity of the record after a format, as it is computed. -/
def capacityAfter (d : Drive) (bs : ℕ) : Checked String ℕ := do
  let blocks ← Checked.div d.capacityBytes
    ((d.format.map fun f : FormatRecord => max f.fromBlockSize 1).getD 1)
  Checked.mul blocks bs

/-- The record after a format. -/
def finished (d : Drive) (bs : ℕ) : Drive := d.apply (.formatFinished (.ok bs))

/-- The last geometry that the drive reported. -/
def lastCapacity (t : Script) : Option Capacity :=
  (t.filterMap fun
    | ⟨.readCapacity16, raw⟩ => (Except.bind raw parseReadCapacity16).toOption
    | _ => none).getLast?

/-- The record is the drive's: its block length, and no more than its capacity, so that no region of
a test and no copy of a table is past the end; and the arithmetic has a value. -/
structure Faithful (d : Drive) (bs : ℕ) (after : Capacity) : Prop where
  blockSize : (finished d bs).blockSize = after.blockLen
  capacity : (finished d bs).capacityBytes ≤ after.blocks * after.blockLen
  computed : capacityAfter d bs = .ok (finished d bs).capacityBytes
  reported : after.bytes = .ok (after.blocks * after.blockLen)
  samples : ∀ regions, ∃ offsets, DriveTest.sampleOffsets (finished d bs).capacityBytes regions =
    .ok offsets ∧ ∀ o ∈ offsets, o + DriveTest.mib ≤ after.blocks * after.blockLen
  tables : ∀ typeGuid name diskGuid partGuid,
    Gpt.layout (finished d bs).capacityBytes (finished d bs).blockSize typeGuid name diskGuid
      partGuid ≠ .error .overflow ∧
    ∀ l, Gpt.layout (finished d bs).capacityBytes (finished d bs).blockSize typeGuid name diskGuid
        partGuid = .ok l →
      l.primary.length ≤ after.blocks * after.blockLen ∧
        l.backupOffset + l.backup.length ≤ after.blocks * after.blockLen

/-- The record had no more blocks before the format than the drive has now, and the drive's bytes
are a `u64`. -/
def NoMoreBlocks (d : Drive) (after : Capacity) : Prop :=
  (recordedBlocks d ≤ after.blocks ∨ after.blockLen = 0) ∧
    after.blocks * after.blockLen < 2 ^ 64

/-! ## What a format that ends well has read -/

/-- A program that returns a block length has read it from the drive, as the last of its reads. -/
def EndsWithCapacity (p : Talk (Except String ℕ)) : Prop :=
  ∀ t bs, Trace p t (.ok bs) → ∃ after, lastCapacity t = some after ∧ after.blockLen = bs

lemma lastCapacity_append (t₁ t₂ : Script) :
    lastCapacity (t₁ ++ t₂) = (lastCapacity t₂).or (lastCapacity t₁) := by
  rw [lastCapacity, List.filterMap_append, List.getLast?_append]
  rfl

lemma EndsWithCapacity.error (why : String) : EndsWithCapacity (pure (.error why)) := by
  intro t bs h
  exact absurd ((trace_ret_iff _ _ _).mp h).2 nofun

/-- What comes before does not matter. -/
lemma EndsWithCapacity.bind {α : Type} {p : Talk α} {f : α → Talk (Except String ℕ)}
    (rest : ∀ a, EndsWithCapacity (f a)) : EndsWithCapacity (p >>= f) := by
  intro t bs h
  obtain ⟨a, t₁, t₂, rfl, -, second⟩ := (trace_bind_iff _ _ _ _).mp h
  obtain ⟨after, last, same⟩ := rest a t₂ bs second
  exact ⟨after, by rw [lastCapacity_append, last, Option.some_or], same⟩

lemma EndsWithCapacity.okThen {α : Type} {p : Talk (Except String α)}
    {f : α → Talk (Except String ℕ)} (rest : ∀ a, EndsWithCapacity (f a)) :
    EndsWithCapacity (okThen p f) := by
  refine .bind fun r => ?_
  cases r with
  | ok a => exact rest a
  | error why => exact .error why

lemma eq_of_else {c : Prop} [Decidable c] {e : String} {a b : ℕ}
    (h : (if c then (.error e : Except String ℕ) else .ok a) = .ok b) : a = b := by
  split_ifs at h
  exact Except.ok.inj h

/-- A verified length is the one that was read. -/
lemma verifyFormat_ok {after : ℕ × ℕ} {target bs : ℕ} {prot : Protection} {wrong : String}
    (h : verifyFormat after target prot wrong = .ok bs) : after.1 = bs := by
  unfold verifyFormat at h
  dsimp only at h
  by_cases wrongLength : after.1 ≠ target
  · rw [if_pos wrongLength] at h
    exact absurd h nofun
  · rw [if_neg wrongLength] at h
    exact eq_of_else h

/-- A verification that succeeds has read the capacity. -/
lemma EndsWithCapacity.verify (target : ℕ) (prot : Protection) (wrong : ℕ → String) :
    EndsWithCapacity (verify target prot wrong) := by
  intro t bs h
  obtain ⟨r, t₁, t₂, rfl, first, second⟩ := (trace_bind_iff _ _ _ _).mp h
  obtain ⟨raw, t', rfl, back⟩ := (trace_op_bind_iff _ _ _ _).mp first
  obtain ⟨rfl, rfl⟩ := (trace_ret_iff _ _ _).mp back
  cases parsed : Except.bind raw parseReadCapacity16 with
  | error e =>
    rw [parsed] at second
    exact absurd ((trace_ret_iff _ _ _).mp second).2 nofun
  | ok after =>
    rw [parsed] at second
    obtain ⟨rfl, verified⟩ := (trace_ret_iff _ _ _).mp second
    refine ⟨after, ?_, verifyFormat_ok verified.symm⟩
    simp only [lastCapacity, List.append_nil, List.filterMap_cons, parsed, Except.toOption,
      List.filterMap_nil, List.getLast?_singleton]

/-- What comes behind reads no capacity. -/
lemma EndsWithCapacity.before {p : Talk (Except String ℕ)} (first : EndsWithCapacity p)
    {q : Talk Unit} (quiet : ∀ t u, Trace q t u → lastCapacity t = none) :
    EndsWithCapacity (Prog.okThen p fun a => do q; pure (.ok a)) := by
  intro t bs h
  obtain ⟨r, t₁, t₂, rfl, ran, second⟩ := (trace_bind_iff _ _ _ _).mp h
  cases r with
  | error why => exact absurd ((trace_ret_iff _ _ _).mp second).2 nofun
  | ok a =>
    obtain ⟨u, t₃, t₄, rfl, behind, last⟩ := (trace_bind_iff _ _ _ _).mp second
    obtain ⟨rfl, same⟩ := (trace_ret_iff _ _ _).mp last
    obtain rfl := Except.ok.inj same
    obtain ⟨after, read, length⟩ := first _ _ ran
    exact ⟨after, by
      rw [List.append_nil, lastCapacity_append, quiet _ _ behind, Option.none_or, read], length⟩

lemma lastCapacity_each {f : String → Talk Unit}
    (quiet : ∀ name t u, Trace (f name) t u → lastCapacity t = none) (paths : List String) :
    ∀ t u, Trace (each f paths) t u → lastCapacity t = none := by
  induction paths with
  | nil =>
    intro t u h
    obtain ⟨rfl, -⟩ := (trace_ret_iff _ _ _).mp h
    rfl
  | cons path rest ih =>
    intro t u h
    obtain ⟨u', t₁, t₂, rfl, first, second⟩ := (trace_bind_iff _ _ _ _).mp h
    rw [lastCapacity_append, quiet _ _ _ first, ih _ _ second]
    rfl

lemma lastCapacity_readdIfEmpty (name : String) :
    ∀ t u, Trace (readdIfEmpty name) t u → lastCapacity t = none := by
  intro t u h
  obtain ⟨sectors, t', rfl, rest⟩ := (trace_op_bind_iff _ _ _ _).mp h
  by_cases empty : sectors = 0
  · rw [if_pos empty] at rest
    rw [(trace_op_iff _ _ _).mp rest]
    rfl
  · rw [if_neg empty] at rest
    obtain ⟨rfl, -⟩ := (trace_ret_iff _ _ _).mp rest
    rfl

lemma runBlocking_ends (d : Drive) (target : ℕ × Protection) (alternatives : List Choice)
    (rounds : ℕ) : EndsWithCapacity (runBlocking d target alternatives rounds) := by
  refine .bind fun hold => ?_
  cases hold with
  | some why => exact .error _
  | none =>
    refine .bind fun _ => .bind fun opened => ?_
    cases opened with
    | error e => exact .error _
    | ok u =>
      refine .bind fun _ => .bind fun read => ?_
      cases read with
      | error e => exact .error _
      | ok cap =>
        refine .bind fun started => ?_
        cases started with
        | ok immediate =>
          exact .okThen fun _ => .bind fun _ => (EndsWithCapacity.verify _ _ _).before
            (lastCapacity_each lastCapacity_readdIfEmpty d.paths)
        | error a =>
          cases a with
          | started immediate => exact .error _
          | refused line => exact .error _
          | failed e => exact .error _

lemma reattachBlocking_ends (d : Drive) (target : ℕ) (prot : Protection) (otherBoot : Bool)
    (rounds : ℕ) : EndsWithCapacity (reattachBlocking d target prot otherBoot rounds) := by
  refine .okThen fun paths => .bind fun opened => ?_
  cases opened with
  | error e => exact .error _
  | ok u => exact .okThen fun _ => .bind fun _ => .verify _ _ _

/-- **Either end has read the geometry of the drive as the last it did with its size**. -/
lemma Ending.program_ends (e : Ending) (d : Drive) (rounds : ℕ) :
    EndsWithCapacity (e.program d rounds) := by
  cases e with
  | finish target alternatives => exact runBlocking_ends d target alternatives rounds
  | reattach target prot otherBoot =>
    intro t bs h
    obtain ⟨r, t₁, t₂, rfl, first, second⟩ := (trace_bind_iff _ _ _ _).mp h
    obtain ⟨rfl, same⟩ := (trace_ret_iff _ _ _).mp second
    cases r with
    | error why => exact absurd same nofun
    | ok a =>
      obtain rfl := Except.ok.inj same
      rw [List.append_nil]
      exact reattachBlocking_ends d target prot otherBoot rounds _ _ first

/-! ## When the record is the drive's -/

lemma capacityBytes_finished (d : Drive) (bs : ℕ) :
    (finished d bs).capacityBytes = recordedBlocks d * bs := by
  unfold finished Drive.apply recordedBlocks
  dsimp only
  split_ifs
  · rfl
  · rfl

lemma blockSize_finished (d : Drive) (bs : ℕ) : (finished d bs).blockSize = bs := by
  unfold finished Drive.apply
  dsimp only

lemma divisor_ne_zero (d : Drive) :
    (d.format.map fun f : FormatRecord => max f.fromBlockSize 1).getD 1 ≠ 0 := by
  cases d.format with
  | none => decide
  | some f =>
    rw [Option.map_some, Option.getD_some]
    omega

/-- Both copies of a table are on the drive that it was laid out for. -/
lemma layout_within {capacity blockSize : ℕ} (fits : capacity < 2 ^ 64) (typeGuid : Gpt.Guid)
    (name : String) (diskGuid partGuid : Gpt.Guid) :
    Gpt.layout capacity blockSize typeGuid name diskGuid partGuid ≠ .error .overflow ∧
    ∀ l, Gpt.layout capacity blockSize typeGuid name diskGuid partGuid = .ok l →
      l.primary.length ≤ capacity ∧ l.backupOffset + l.backup.length ≤ capacity := by
  by_cases known : blockSize = 512 ∨ blockSize = 4096
  · constructor
    · rw [Gpt.layout_eq fits known]
      split_ifs
      · exact nofun
      · exact nofun
      · exact nofun
    · intro l laid
      obtain ⟨numbers, rfl⟩ := numbers_of_layout fits known laid
      have placed : Placed (Gpt.tables (capacity / blockSize) blockSize typeGuid name diskGuid
        partGuid) capacity := placed_tables known numbers
      obtain ⟨primary, backup, ends, -⟩ := placed
      exact ⟨by omega, ends⟩
  · have refused : Gpt.layout capacity blockSize typeGuid name diskGuid partGuid =
        Checked.fail ("block size " ++ toString blockSize ++ ": a GPT here needs 512 or 4096") :=
      if_pos (not_or.mp known)
    rw [refused]
    exact ⟨nofun, nofun⟩

/-- **The record is the drive's exactly when it had no more blocks before than the drive has now**.

**Proof sketch.** The new capacity is the old number of blocks times the new length, and what the
drive reports is its own number of blocks times that length. -/
theorem faithful_iff (e : Ending) (d₀ d : Drive) {rounds bs : ℕ} {t : Script}
    (run : Trace (e.program d₀ rounds) t (.ok bs)) :
    ∃ after, lastCapacity t = some after ∧ (Faithful d bs after ↔ NoMoreBlocks d after) := by
  obtain ⟨after, last, rfl⟩ := e.program_ends d₀ rounds t bs run
  refine ⟨after, last, ?_⟩
  have capacity := capacityBytes_finished d after.blockLen
  constructor
  · intro faithful
    have within := faithful.capacity
    rw [capacity] at within
    constructor
    · by_cases zero : after.blockLen = 0
      · exact .inr zero
      · exact .inl (Nat.le_of_mul_le_mul_right within (Nat.pos_of_ne_zero zero))
    · by_contra large
      have overflow : after.bytes = .error .overflow := if_neg large
      exact absurd (overflow.symm.trans faithful.reported) nofun
  · rintro ⟨blocks, small⟩
    have within : recordedBlocks d * after.blockLen ≤ after.blocks * after.blockLen := by
      obtain fewer | zero := blocks
      · exact Nat.mul_le_mul_right _ fewer
      · rw [zero, Nat.mul_zero]
        exact Nat.zero_le _
    have fits : (finished d after.blockLen).capacityBytes < 2 ^ 64 := by
      rw [capacity]
      omega
    refine ⟨blockSize_finished d _, capacity ▸ within, ?_, if_pos small, fun regions => ?_,
      fun typeGuid name diskGuid partGuid => ?_⟩
    · rw [capacityAfter, Checked.div_eq (divisor_ne_zero d), Checked.ok_bind, capacity]
      exact Checked.mul_eq (lt_of_le_of_lt within small)
    · refine ⟨_, DriveTest.sampleOffsets_eq fits regions, fun o h => ?_⟩
      have inside := (DriveTest.sampled _ _).within o h
      omega
    · obtain ⟨total, placed⟩ := layout_within fits typeGuid name diskGuid partGuid
      refine ⟨total, fun l laid => ?_⟩
      obtain ⟨first, second⟩ := placed l laid
      omega

/-- A drive of 2344225968 blocks that a format to 4096 bytes runs on. -/
def formatting (fromBlockSize : ℕ) : Drive :=
  { Drive.testFixture ⟨⟨1⟩⟩ "sdb" with
    paths := []
    capacityBytes := 2344225968 * fromBlockSize
    blockSize := fromBlockSize
    format := some { fromBlockSize := fromBlockSize, toBlockSize := 4096, state := "running" } }

/-- A READ CAPACITY that names its last block, and blocks of 4096 bytes. -/
def answer (lastLba : ℕ) : List UInt8 := be 8 lastLba ++ be 4 4096 ++ List.replicate 20 0

/-- A format that is found done after a restart. -/
def doneAfterRestart (raw : List UInt8) : Script :=
  [⟨.openDevice, .ok ()⟩, ⟨.requestSense, none⟩, ⟨.testUnitReady, .ok ()⟩,
    ⟨.readCapacity16, .ok raw⟩]

/-- The run of the task that finds it. -/
lemma trace_doneAfterRestart (lastLba fromBlockSize : ℕ) :
    Trace ((Ending.reattach 4096 .none false).program (formatting fromBlockSize) 1)
      (doneAfterRestart (answer lastLba)) (.ok 4096) := by
  refine .act _ _ _ (.act _ _ _ (.act _ _ _ (.act _ _ _ ?_)))
  exact .ret _

/-- A format from 512 to 4096 bytes: the drive has an eighth of its blocks then, and the record is
eight times as large as the drive. -/
theorem record_outgrows_drive :
    ¬ ∀ (e : Ending) (d₀ d : Drive) (rounds bs : ℕ) (t : Script),
      Trace (e.program d₀ rounds) t (.ok bs) →
        ∃ after, lastCapacity t = some after ∧ Faithful d bs after := by
  intro always
  obtain ⟨after, last, faithful⟩ := always _ _ (formatting 512) _ _ _
    (trace_doneAfterRestart 293028245 512)
  have said : lastCapacity (doneAfterRestart (answer 293028245)) = some ⟨293028245, 4096, 0⟩ := by
    decide +kernel
  obtain rfl : (⟨293028245, 4096, 0⟩ : Capacity) = after := Option.some.inj (said.symm.trans last)
  have within := faithful.capacity
  rw [capacityBytes_finished] at within
  exact absurd within (by decide +kernel)

/-- From 520 bytes, with as many blocks as before. -/
theorem faithful_iff_of_520 :
    ∃ after, lastCapacity (doneAfterRestart (answer 2344225967)) = some after ∧
      (Faithful (formatting 520) 4096 after ↔ NoMoreBlocks (formatting 520) after) :=
  faithful_iff _ _ _ (trace_doneAfterRestart 2344225967 520)

end FormatEnd

end StormDrive
