import Mathlib.Data.List.GetD
import StormDrive.Contents
import StormDrive.Samples
import StormDrive.Bytes.Layout
import StormDrive.Steps

set_option relaxedAutoImplicit false
set_option autoImplicit false

/-!
# The destructive test

A test that writes a pattern to sampled regions of a drive and reads it back (`drivetest.rs`), on
disks that may lose what is written or store it elsewhere.

## Main definitions

* `DriveTest.Behaviour` — which operations fail, and where the disk stores each piece of a write.
* `DriveTest.runBlocking` — the test, on such a disk.
* `DriveTest.Proves` — when it passes, every sampled region was written in its place and read back,
  and there was one.

## Main results

* `DriveTest.proves_iff` — **a passed test proves its writes exactly when the drive has a MiB and no
  piece of a sampled region holds its pattern already**.
* `DriveTest.retest_passes` — a drive that was tested before passes without a write.

## Implementation notes

A write is stored or lost in pieces, a piece in one place: a piece may be a whole write or a sector.
The pattern of a region is on record by the addresses of its bytes, eight at a time.
-/

namespace StormDrive

namespace DriveTest

open Bytes

/-! ## The test -/

inductive TestState
  | running | passed | failed | cancelled
  deriving DecidableEq

/-- DESTRUCTIVE_REGIONS. -/
def destructiveRegions : ℕ := 8

/-- What is added to an offset to make the pattern. -/
def salt : ℕ := 0x504452564D525453

/-- The write pattern for a region: a function of the byte offset. -/
def fillPattern (len baseOffset : ℕ) : List UInt8 :=
  ((List.range ((len + 7) / 8)).flatMap fun i => le 8 ((baseOffset + i * 8) ^^^ salt)).take len

/-- How the disk stores data: in sectors, and in pieces that are stored or lost as a whole. -/
structure Media where
  sector : ℕ
  piece : ℕ
  eight : 8 ∣ sector
  sectors : sector ∣ piece
  pieces : piece ∣ mib

/-- What happens in a run: which operations fail, when it is cancelled, and for each piece of each
write the sector in which it is stored, or none. -/
structure Behaviour where
  openWrite : Except String Unit
  openRead : Except String Unit
  seekWrite : ℕ → Except String Unit
  write : ℕ → Except String Unit
  sync : ℕ → Except String Unit
  seekRead : ℕ → Except String Unit
  read : ℕ → Except String Unit
  cancel : ℕ → Bool
  cancel_stays : ∀ i, cancel i = true → cancel (i + 1) = true
  place : ℕ → ℕ → Option ℕ

/-- A run of the test: the disk, and what is on record. -/
structure TestRun where
  disk : Disk
  errors : List String := []
  bytesDone : ℕ := 0

/-- An operation that ends the test when it fails. -/
def io {α : Type} : Except String α → Checked String α
  | .ok a => .ok a
  | .error e => Checked.fail e

variable (m : Media) (b : Behaviour)

/-- One piece of a write. -/
def storePiece (i : ℕ) (data : List UInt8) (d : Disk) (k : ℕ) : Disk :=
  match b.place i k with
  | some lba => d.over (slice data (k * m.piece) m.piece) (lba * m.sector)
  | none => d

/-- What a write leaves on the disk. -/
def storeWrite (i : ℕ) (data : List UInt8) (d : Disk) : Disk :=
  (List.range (mib / m.piece)).foldl (storePiece m b i data) d

/-- What is read of a region. -/
def readBack (d : Disk) (off len : ℕ) : List UInt8 := (List.range len).map fun i => d.byte (off + i)

/-- Write the pattern to a region, and compare what is read back. -/
def testRegion (i region : ℕ) (run : TestRun) : Checked String TestRun := do
  let data := fillPattern mib region
  io (b.seekWrite i)
  let disk := storeWrite m b i data run.disk
  io (b.write i)
  io (b.sync i)
  io (b.seekRead i)
  let errors := match b.read i with
    | .error e => run.errors ++ ["verify read at " ++ toString region ++ ": " ++ e]
    | .ok () =>
      if readBack disk region mib ≠ data then
        run.errors ++ ["verify mismatch at " ++ toString region]
      else run.errors
  pure ⟨disk, errors, run.bytesDone + 2 * mib⟩

/-- One region after the other, until the test is cancelled. -/
def testRegions : ℕ → List ℕ → TestRun → Checked String TestRun
  | _, [], run => pure run
  | i, region :: rest, run =>
    if b.cancel i then pure run
    else do
      let run ← testRegion m b i region run
      testRegions (i + 1) rest run

def runDestructive (d : Disk) (capacity : ℕ) : Checked String TestRun := do
  io b.openWrite
  io b.openRead
  let regions ← sampleOffsets capacity destructiveRegions
  testRegions m b 0 regions ⟨d, [], 0⟩

/-- The verdict. A run that panics has none. -/
def runBlocking (d : Disk) (capacity : ℕ) : TestState :=
  match runDestructive m b d capacity with
  | .error .overflow => .running
  | result =>
    if b.cancel (samples capacity destructiveRegions).length then .cancelled
    else match result with
      | .ok run => if run.errors = [] then .passed else .failed
      | .error _ => .failed

/-! ## What a pass is to prove -/

/-- The region was written in its place, all of it, and read back. -/
def Tested (i region : ℕ) : Prop :=
  (∀ k < mib / m.piece, ∃ lba, b.place i k = some lba ∧ lba * m.sector = region + k * m.piece) ∧
    b.read i = .ok ()

/-- A pass proves this run's writes: there was a region, and each was tested. -/
def Proves (d : Disk) (capacity : ℕ) : Prop :=
  ∀ b : Behaviour, runBlocking m b d capacity = .passed →
    samples capacity destructiveRegions ≠ [] ∧
    ∀ i region, (samples capacity destructiveRegions)[i]? = some region → Tested m b i region

/-- A piece of a region holds its pattern. -/
def Stale (d : Disk) (region k : ℕ) : Prop :=
  readBack d (region + k * m.piece) m.piece =
    slice (fillPattern mib region) (k * m.piece) m.piece

/-! ## Eight bytes at a time -/

/-- The pattern of the eight bytes from `a` on. -/
def word (a : ℕ) : List UInt8 := le 8 (a ^^^ salt)

lemma length_word (a : ℕ) : (word a).length = 8 := length_le 8 _

lemma word_injective {a c : ℕ} (ha : a < 2 ^ 64) (hc : c < 2 ^ 64) (h : word a = word c) : a = c := by
  have number := congrArg ofLe h
  rw [word, word, ofLe_le_of_lt (Nat.xor_lt_two_pow ha (by decide)),
    ofLe_le_of_lt (Nat.xor_lt_two_pow hc (by decide))] at number
  have back := congrArg (· ^^^ salt) number
  simpa only [Nat.xor_assoc, Nat.xor_self, Nat.xor_zero] using back

lemma length_fillPattern (region : ℕ) : (fillPattern mib region).length = 8 * (mib / 8) := by
  have size : mib = 2 ^ 20 := rfl
  rw [fillPattern, List.length_take, length_pieces (fun i => length_le 8 _), List.length_range]
  omega

lemma slice_fillPattern {region c : ℕ} (h : c < mib / 8) :
    slice (fillPattern mib region) (8 * c) 8 = word (region + 8 * c) := by
  have size : mib = 2 ^ 20 := rfl
  have whole : fillPattern mib region =
      (List.range (mib / 8)).flatMap fun i => word (region + i * 8) := by
    have count : (mib + 7) / 8 = mib / 8 := by omega
    rw [fillPattern, count, List.take_of_length_le]
    · rfl
    · rw [length_pieces (fun i => length_le 8 _), List.length_range]
      omega
  rw [whole, slice_pieces (fun i => length_word _) (by rw [List.length_range]; exact h),
    List.getElem_range, Nat.mul_comm c]

@[simp] lemma length_readBack (d : Disk) (off len : ℕ) : (readBack d off len).length = len := by
  rw [readBack, List.length_map, List.length_range]

lemma slice_readBack {d : Disk} {off len pos n : ℕ} (fits : pos + n ≤ len) :
    slice (readBack d off len) pos n = readBack d (off + pos) n := by
  apply List.ext_getElem?
  intro i
  rw [getElem?_slice, readBack, readBack, List.getElem?_map, List.getElem?_map]
  by_cases h : i < n
  · rw [if_pos h, List.getElem?_range (by omega), List.getElem?_range h, Option.map_some,
      Option.map_some, Nat.add_assoc]
  · rw [if_neg h, List.getElem?_eq_none (by rw [List.length_range]; omega), Option.map_none]

/-- What is read of a disk that has the data. -/
lemma readBack_getD {l : List UInt8} (size : ℕ) {n : ℕ} (length : l.length = n) :
    readBack ⟨size, fun i => l.getD i 0⟩ 0 n = l := by
  apply List.ext_getElem?
  intro i
  rw [readBack, List.getElem?_map]
  by_cases h : i < n
  · rw [List.getElem?_range h, Option.map_some, Nat.zero_add, List.getElem?_eq_getElem (by omega)]
    exact congrArg some (List.getD_eq_getElem _ _ (by omega))
  · rw [List.getElem?_eq_none (by rw [List.length_range]; omega), Option.map_none,
      List.getElem?_eq_none (by omega)]

/-- A region has its pattern when it has it word by word. -/
lemma readBack_eq_iff (d : Disk) (region : ℕ) :
    readBack d region mib = fillPattern mib region ↔
      ∀ c < mib / 8, readBack d (region + 8 * c) 8 = word (region + 8 * c) := by
  have size : mib = 2 ^ 20 := rfl
  constructor
  · intro same c h
    rw [← slice_fillPattern h, ← same, slice_readBack (by omega)]
  · intro words
    refine eq_of_slices (by decide) ?_ (length_fillPattern region) fun c h => ?_
    · rw [length_readBack]
      omega
    · rw [slice_readBack (by omega), words c h, slice_fillPattern h]

/-- The pieces of a write are parts of its pattern. -/
lemma piece_fits {k : ℕ} (h : k < mib / m.piece) : k * m.piece + m.piece ≤ mib := by
  rw [← Nat.succ_mul]
  exact (Nat.mul_le_mul_right _ h).trans (Nat.div_mul_le_self _ _)

lemma eight_dvd_piece : 8 ∣ m.piece := m.eight.trans m.sectors

lemma length_piece {region k : ℕ} (h : k < mib / m.piece) :
    (slice (fillPattern mib region) (k * m.piece) m.piece).length = m.piece := by
  have size : mib = 2 ^ 20 := rfl
  have fits := piece_fits m h
  exact length_slice (by rw [length_fillPattern]; omega)

/-- A word of a piece. -/
lemma slice_piece {region k t : ℕ} (h : k < mib / m.piece) (eight : 8 ∣ t)
    (fits : t < m.piece) :
    slice (slice (fillPattern mib region) (k * m.piece) m.piece) t 8 =
      word (region + k * m.piece + t) := by
  have size : mib = 2 ^ 20 := rfl
  have inside := piece_fits m h
  obtain ⟨words, piece⟩ := eight_dvd_piece m
  obtain ⟨c, rfl⟩ := eight
  have start : k * m.piece + 8 * c = 8 * (k * words + c) := by
    rw [piece]
    ring
  rw [slice_slice (by omega), start, slice_fillPattern (by omega), Nat.add_assoc, ← start]

/-- A piece of a region holds its pattern when it does word by word. -/
lemma stale_iff (d : Disk) {region k : ℕ} (h : k < mib / m.piece) :
    Stale m d region k ↔ ∀ t, 8 ∣ t → t < m.piece →
      readBack d (region + k * m.piece + t) 8 = word (region + k * m.piece + t) := by
  obtain ⟨words, piece⟩ := eight_dvd_piece m
  constructor
  · intro same t eight ht
    rw [← slice_piece m h eight ht, ← same, slice_readBack (by omega)]
  · intro all
    refine eq_of_slices (w := 8) (n := words) (by decide) ?_ ?_ fun c hc => ?_
    · rw [length_readBack, piece]
    · rw [length_piece m h, piece]
    · rw [slice_readBack (by omega), all _ (Nat.dvd_mul_right 8 c) (by omega),
        slice_piece m h (Nat.dvd_mul_right 8 c) (by omega)]

/-! ## What a write leaves -/

/-- Words are covered whole or not at all. -/
lemma readBack_over {d : Disk} {data : List UInt8} {off a : ℕ} (eight : 8 ∣ off)
    (words : 8 ∣ data.length) (ha : 8 ∣ a) :
    readBack (d.over data off) a 8 =
      if off ≤ a ∧ a < off + data.length then slice data (a - off) 8 else readBack d a 8 := by
  apply List.ext_getElem?
  intro i
  rw [readBack, List.getElem?_map]
  by_cases h : i < 8
  · rw [List.getElem?_range h, Option.map_some]
    by_cases covered : off ≤ a ∧ a < off + data.length
    · rw [if_pos covered, getElem?_slice, if_pos h, Disk.byte_over_of_mem (by omega) (by omega),
        List.getD_eq_getElem _ _ (by omega), List.getElem?_eq_getElem (by omega)]
      congr 2
      omega
    · rw [if_neg covered, Disk.byte_over_of_not_mem (by omega), readBack, List.getElem?_map,
        List.getElem?_range h, Option.map_some]
  · rw [List.getElem?_eq_none (by rw [List.length_range]; omega), Option.map_none]
    split_ifs
    · rw [getElem?_slice, if_neg h]
    · rw [readBack, List.getElem?_map, List.getElem?_eq_none (by rw [List.length_range]; omega),
        Option.map_none]

/-- A word is that of a piece which covers it, or what was there. -/
lemma readBack_storePiece {i region k a : ℕ} {d : Disk} (hk : k < mib / m.piece)
    (ha : 8 ∣ a) :
    readBack (storePiece m b i (fillPattern mib region) d k) a 8 =
      match b.place i k with
      | some lba =>
        if lba * m.sector ≤ a ∧ a < lba * m.sector + m.piece then
          word (region + k * m.piece + (a - lba * m.sector))
        else readBack d a 8
      | none => readBack d a 8 := by
  have length : (slice (fillPattern mib region) (k * m.piece) m.piece).length = m.piece :=
    length_piece m hk
  unfold storePiece
  cases b.place i k with
  | none => rfl
  | some lba =>
    have eight : 8 ∣ lba * m.sector := m.eight.mul_left lba
    dsimp only
    rw [readBack_over eight (by rw [length]; exact eight_dvd_piece m) ha, length]
    by_cases covered : lba * m.sector ≤ a ∧ a < lba * m.sector + m.piece
    · rw [if_pos covered, if_pos covered, slice_piece m hk (by omega) (by omega)]
    · rw [if_neg covered, if_neg covered]

/-! ## What a pass shows -/

section Pass

variable {m b}

/-- Two blocks of one length that have an address in common are the same. -/
lemma block_unique {w a k k' : ℕ} (low : k * w ≤ a) (high : a < k * w + w) (low' : k' * w ≤ a)
    (high' : a < k' * w + w) : k = k' := by
  rw [← Nat.succ_mul] at high high'
  have first : k < k' + 1 := Nat.lt_of_mul_lt_mul_right (lt_of_le_of_lt low high')
  have second : k' < k + 1 := Nat.lt_of_mul_lt_mul_right (lt_of_le_of_lt low' high)
  omega

/-- The disk has what was there before the run, but for the pieces that this run stored. -/
def StoredOver (m : Media) (b : Behaviour) (offs : List ℕ) (d₀ d : Disk) : Prop :=
  ∀ a, 8 ∣ a → readBack d a 8 = readBack d₀ a 8 ∨
    ∃ i region k lba, offs[i]? = some region ∧ k < mib / m.piece ∧ b.place i k = some lba ∧
      lba * m.sector ≤ a ∧ a < lba * m.sector + m.piece ∧
      readBack d a 8 = word (region + k * m.piece + (a - lba * m.sector))

lemma StoredOver.storePiece {offs : List ℕ} {d₀ d : Disk} (stored : StoredOver m b offs d₀ d)
    {i region k : ℕ} (h : offs[i]? = some region) (hk : k < mib / m.piece) :
    StoredOver m b offs d₀ (storePiece m b i (fillPattern mib region) d k) := by
  intro a ha
  rw [readBack_storePiece m b hk ha]
  cases place : b.place i k with
  | none => exact stored a ha
  | some lba =>
    dsimp only
    by_cases covered : lba * m.sector ≤ a ∧ a < lba * m.sector + m.piece
    · rw [if_pos covered]
      exact .inr ⟨i, region, k, lba, h, hk, place, covered.1, covered.2, rfl⟩
    · rw [if_neg covered]
      exact stored a ha

lemma StoredOver.storeWrite {offs : List ℕ} {d₀ d : Disk} (stored : StoredOver m b offs d₀ d)
    {i region : ℕ} (h : offs[i]? = some region) :
    StoredOver m b offs d₀ (storeWrite m b i (fillPattern mib region) d) := by
  have prefixes : ∀ n ≤ mib / m.piece, StoredOver m b offs d₀
      ((List.range n).foldl (DriveTest.storePiece m b i (fillPattern mib region)) d) := by
    intro n
    induction n with
    | zero => exact fun _ => stored
    | succ n ih =>
      intro hn
      rw [List.range_succ, List.foldl_append]
      exact (ih (by omega)).storePiece h (by omega)
  exact prefixes _ le_rfl

/-- A region leaves what the disk stored of its write, and ends without an error only when it was
read back as it was to be written. -/
lemma testRegion_ok {i region : ℕ} {run run' : TestRun}
    (h : testRegion m b i region run = .ok run') :
    run'.disk = storeWrite m b i (fillPattern mib region) run.disk ∧
      (run'.errors = [] → run.errors = [] ∧ b.read i = .ok () ∧
        readBack run'.disk region mib = fillPattern mib region) := by
  unfold testRegion at h
  cases seekWrite : b.seekWrite i with
  | error e => rw [seekWrite] at h; exact absurd h nofun
  | ok u =>
  cases write : b.write i with
  | error e => rw [seekWrite, write] at h; exact absurd h nofun
  | ok u =>
  cases sync : b.sync i with
  | error e => rw [seekWrite, write, sync] at h; exact absurd h nofun
  | ok u =>
  cases seekRead : b.seekRead i with
  | error e => rw [seekWrite, write, sync, seekRead] at h; exact absurd h nofun
  | ok u =>
  rw [seekWrite, write, sync, seekRead] at h
  obtain rfl := Except.ok.inj h
  refine ⟨rfl, fun clean => ?_⟩
  cases read : b.read i with
  | error e =>
    dsimp only at clean
    rw [read] at clean
    exact absurd clean (List.append_ne_nil_of_right_ne_nil _ (List.cons_ne_nil _ _))
  | ok u =>
    dsimp only at clean ⊢
    rw [read] at clean
    dsimp only at clean
    by_cases same : readBack (storeWrite m b i (fillPattern mib region) run.disk) region mib ≠
        fillPattern mib region
    · rw [if_pos same] at clean
      exact absurd clean (List.append_ne_nil_of_right_ne_nil _ (List.cons_ne_nil _ _))
    · rw [if_neg same] at clean
      exact ⟨clean, rfl, not_not.mp same⟩

/-- A region whose operations all succeed, and that is read back as it was to be written. -/
lemma testRegion_eq {i region : ℕ} {run : TestRun} (seekWrite : b.seekWrite i = .ok ())
    (write : b.write i = .ok ()) (sync : b.sync i = .ok ()) (seekRead : b.seekRead i = .ok ())
    (read : b.read i = .ok ())
    (back : readBack (storeWrite m b i (fillPattern mib region) run.disk) region mib =
      fillPattern mib region) :
    testRegion m b i region run = .ok ⟨storeWrite m b i (fillPattern mib region) run.disk,
      run.errors, run.bytesDone + 2 * mib⟩ := by
  unfold testRegion
  rw [seekWrite, write, sync, seekRead, read]
  simp only [io, Checked.ok_bind]
  rw [if_neg (not_not.mpr back)]
  rfl

lemma cancel_stays {i : ℕ} (h : b.cancel i = true) (n : ℕ) : b.cancel (i + n) = true := by
  induction n with
  | zero => exact h
  | succ n ih => exact b.cancel_stays _ ih

/-- **A run that ends without an error read every region back as it was to be written**, from a disk
that has what was there before and what this run stored. -/
lemma testRegions_ok {offs : List ℕ} {d₀ : Disk} {regions : List ℕ} {i : ℕ} {run run' : TestRun}
    (part : ∀ j, offs[i + j]? = regions[j]?) (stored : StoredOver m b offs d₀ run.disk)
    (h : testRegions m b i regions run = .ok run') (clean : run'.errors = [])
    (on : b.cancel (i + regions.length) = false) :
    run.errors = [] ∧ ∀ j region, regions[j]? = some region → b.read (i + j) = .ok () ∧
      ∃ d, StoredOver m b offs d₀ d ∧ readBack d region mib = fillPattern mib region := by
  induction regions generalizing i run with
  | nil =>
    obtain rfl := Except.ok.inj h
    exact ⟨clean, nofun⟩
  | cons region rest ih =>
    have here : offs[i]? = some region := part 0
    have go : b.cancel i ≠ true := fun cancelled => by
      rw [cancel_stays cancelled] at on
      exact absurd on nofun
    rw [testRegions, if_neg go] at h
    cases first : testRegion m b i region run with
    | error e => rw [first] at h; exact absurd h nofun
    | ok next =>
      rw [first, Checked.ok_bind] at h
      have later : ∀ j, offs[i + 1 + j]? = rest[j]? := fun j => by
        have := part (j + 1)
        rwa [List.getElem?_cons_succ, Nat.add_comm j 1, ← Nat.add_assoc] at this
      have length : i + 1 + rest.length = i + (region :: rest).length := by
        rw [List.length_cons]
        omega
      obtain ⟨left, shows⟩ := testRegion_ok first
      have disk : StoredOver m b offs d₀ next.disk := by
        rw [left]
        exact stored.storeWrite here
      obtain ⟨cleanNext, tested⟩ := ih later disk h (by rw [length]; exact on)
      obtain ⟨cleanRun, read, back⟩ := shows cleanNext
      refine ⟨cleanRun, fun j r hj => ?_⟩
      cases j with
      | zero =>
        obtain rfl := Option.some.inj hj
        exact ⟨read, next.disk, disk, back⟩
      | succ j =>
        have := tested j r hj
        rwa [Nat.add_assoc, Nat.add_comm 1 j] at this

/-- A word of the pattern that was not there before is that of the piece in its place.

**Proof sketch.** What covers the word now is either as it was before the run, or a piece of some
write; the pattern tells the address it was made for, so the piece was made for this one, and the
regions are apart. -/
lemma placed_of_readBack {capacity : ℕ} (fits : capacity < 2 ^ 64) {offs : List ℕ}
    (sampled : Sampled capacity offs) {d₀ d : Disk} (stored : StoredOver m b offs d₀ d) {i region k : ℕ}
    (h : offs[i]? = some region) (back : readBack d region mib = fillPattern mib region)
    (hk : k < mib / m.piece) (fresh : ¬ Stale m d₀ region k) :
    ∃ lba, b.place i k = some lba ∧ lba * m.sector = region + k * m.piece := by
  have size : mib = 2 ^ 20 := rfl
  by_contra none
  refine fresh ((stale_iff m d₀ hk).mpr fun t eight ht => ?_)
  have inside := piece_fits m hk
  have limit := sampled.within region (List.mem_of_getElem? h)
  obtain ⟨q, hq⟩ := sampled.whole region (List.mem_of_getElem? h)
  obtain ⟨words, piece⟩ := eight_dvd_piece m
  have words : readBack d (region + k * m.piece + t) 8 = word (region + k * m.piece + t) := by
    obtain ⟨c, rfl⟩ := eight
    have start : k * m.piece + 8 * c = 8 * (k * words + c) := by
      rw [piece]
      ring
    rw [Nat.add_assoc, start]
    exact (readBack_eq_iff d region).mp back _ (by omega)
  have product : k * m.piece = 8 * (k * (m.piece / 8)) := by
    rw [Nat.mul_left_comm, Nat.mul_div_cancel' (eight_dvd_piece m)]
  rw [size] at hq
  obtain same | ⟨i', region', k', lba, h', hk', place, low, high, other⟩ :=
    stored (region + k * m.piece + t) (by omega)
  · rw [← same]
    exact words
  · have inside' := piece_fits m hk'
    have limit' := sampled.within region' (List.mem_of_getElem? h')
    obtain ⟨q', hq'⟩ := sampled.whole region' (List.mem_of_getElem? h')
    rw [size] at hq'
    have address := word_injective (by omega) (by omega) (words.symm.trans other)
    -- the piece was stored where it was to be, so it is of this region
    obtain rfl : q = q' := block_unique (w := 2 ^ 20) (a := region + k * m.piece + t)
      (by omega) (by omega) (by omega) (by omega)
    obtain rfl : region = region' := by omega
    obtain rfl : k = k' := block_unique (w := m.piece) (a := k * m.piece + t)
      (by omega) (by omega) (by omega) (by omega)
    have nodup : offs.Nodup := sampled.increases.imp fun less => less.ne
    have length := (List.getElem?_eq_some_iff.mp h).1
    obtain rfl : i = i' := (List.getElem?_inj length nodup).mp (h.trans h'.symm)
    exact absurd ⟨lba, place, by omega⟩ none

end Pass

/-! ## A disk that loses one piece -/

/-- Every operation succeeds, and every piece of a write is stored in its place but for one, which is
lost. -/
def losing (m : Media) (offs : List ℕ) (lost : ℕ × ℕ) : Behaviour where
  openWrite := .ok ()
  openRead := .ok ()
  seekWrite _ := .ok ()
  write _ := .ok ()
  sync _ := .ok ()
  seekRead _ := .ok ()
  read _ := .ok ()
  cancel _ := false
  cancel_stays _ h := h
  place i k :=
    if (i, k) = lost then none
    else offs[i]?.map fun region => (region + k * m.piece) / m.sector

section Losing

variable {m} {capacity : ℕ} {offs : List ℕ} (sampled : Sampled capacity offs) {lost : ℕ × ℕ}

include sampled

lemma place_losing {i region k : ℕ} (h : offs[i]? = some region) (kept : (i, k) ≠ lost) :
    ∃ lba, (losing m offs lost).place i k = some lba ∧ lba * m.sector = region + k * m.piece := by
  refine ⟨(region + k * m.piece) / m.sector, ?_, Nat.div_mul_cancel ?_⟩
  · simp only [losing, if_neg kept, h, Option.map_some]
  · refine Nat.dvd_add ?_ (m.sectors.mul_left k)
    exact (m.sectors.trans m.pieces).trans (sampled.whole region (List.mem_of_getElem? h))

/-- A write changes its own region, all but the piece that is lost. -/
lemma readBack_storeWrite_losing {i region a : ℕ} {d : Disk} (h : offs[i]? = some region)
    (ha : 8 ∣ a) :
    readBack (storeWrite m (losing m offs lost) i (fillPattern mib region) d) a 8 =
      if region ≤ a ∧ a < region + mib ∧ (i, (a - region) / m.piece) ≠ lost then word a
      else readBack d a 8 := by
  have whole : mib / m.piece * m.piece = mib := Nat.div_mul_cancel m.pieces
  have pos : 0 < m.piece := Nat.pos_of_dvd_of_pos m.pieces (by decide)
  have prefixes : ∀ n ≤ mib / m.piece, readBack ((List.range n).foldl
      (storePiece m (losing m offs lost) i (fillPattern mib region)) d) a 8 =
      if region ≤ a ∧ a < region + n * m.piece ∧ (i, (a - region) / m.piece) ≠ lost then word a
      else readBack d a 8 := by
    intro n
    induction n with
    | zero =>
      intro _
      rw [if_neg (by omega)]
      rfl
    | succ n ih =>
      intro hn
      have before := ih (by omega)
      rw [List.range_succ, List.foldl_append, List.foldl_cons, List.foldl_nil,
        readBack_storePiece m _ (by omega) ha, before, Nat.succ_mul]
      by_cases gone : (i, n) = lost
      · have place : (losing m offs lost).place i n = none := if_pos gone
        rw [place]
        dsimp only
        refine if_congr ⟨fun c => ⟨c.1, by omega, c.2.2⟩, fun c => ⟨c.1, ?_, c.2.2⟩⟩ rfl rfl
        by_contra past
        refine c.2.2 (gone ▸ congrArg (Prod.mk i) ?_)
        exact Nat.div_eq_of_lt_le (by omega) (by rw [Nat.succ_mul]; omega)
      · obtain ⟨lba, place, own⟩ := place_losing sampled h gone
        rw [place]
        dsimp only
        rw [own]
        by_cases covered : region + n * m.piece ≤ a ∧ a < region + n * m.piece + m.piece
        · have index : (a - region) / m.piece = n :=
            Nat.div_eq_of_lt_le (by omega) (by rw [Nat.succ_mul]; omega)
          rw [if_pos covered, if_pos ⟨by omega, by omega, by rw [index]; exact gone⟩]
          congr 1
          omega
        · rw [if_neg covered]
          exact if_congr ⟨fun c => ⟨c.1, by omega, c.2.2⟩, fun c => ⟨c.1, by omega, c.2.2⟩⟩ rfl rfl
  have all := prefixes _ le_rfl
  rwa [whole] at all

/-- **The loss does not show** where the piece held its pattern already. -/
lemma testRegions_losing {d₀ : Disk} {i₀ k₀ : ℕ}
    (stale : ∀ region, offs[i₀]? = some region → k₀ < mib / m.piece ∧ Stale m d₀ region k₀)
    {regions : List ℕ} {i : ℕ} {run : TestRun} (part : ∀ j, offs[i + j]? = regions[j]?)
    (clean : run.errors = [])
    (fresh : ∀ region ∈ regions, ∀ a, 8 ∣ a → region ≤ a → a < region + mib →
      readBack run.disk a 8 = readBack d₀ a 8) :
    ∃ run', testRegions m (losing m offs (i₀, k₀)) i regions run = .ok run' ∧ run'.errors = [] := by
  have size : mib = 2 ^ 20 := rfl
  have pos : 0 < m.piece := Nat.pos_of_dvd_of_pos m.pieces (by decide)
  induction regions generalizing i run with
  | nil => exact ⟨run, rfl, clean⟩
  | cons region rest ih =>
    have here : offs[i]? = some region := part 0
    have later : ∀ j, offs[i + 1 + j]? = rest[j]? := fun j => by
      have := part (j + 1)
      rwa [List.getElem?_cons_succ, Nat.add_comm j 1, ← Nat.add_assoc] at this
    have written : ∀ a, 8 ∣ a → readBack (storeWrite m (losing m offs (i₀, k₀)) i
        (fillPattern mib region) run.disk) a 8 =
        if region ≤ a ∧ a < region + mib ∧ (i, (a - region) / m.piece) ≠ (i₀, k₀) then word a
        else readBack run.disk a 8 := fun a ha => readBack_storeWrite_losing sampled here ha
    have back : readBack (storeWrite m (losing m offs (i₀, k₀)) i (fillPattern mib region)
        run.disk) region mib = fillPattern mib region := by
      rw [readBack_eq_iff]
      intro c hc
      obtain ⟨q, hq⟩ := sampled.whole region (List.mem_of_getElem? here)
      rw [size] at hq
      rw [written _ (by omega)]
      by_cases lost : (i, (region + 8 * c - region) / m.piece) = (i₀, k₀)
      · obtain ⟨rfl, index⟩ := Prod.mk.inj lost
        obtain ⟨hk, old⟩ := stale region here
        have words := (stale_iff m d₀ hk).mp old
        rw [if_neg (fun c => c.2.2 lost), fresh region List.mem_cons_self _ (by omega) (by omega)
          (by omega)]
        have low : k₀ * m.piece ≤ 8 * c := by
          rw [← index, Nat.add_sub_cancel_left]
          exact Nat.div_mul_le_self _ _
        have high : 8 * c < k₀ * m.piece + m.piece := by
          rw [← index, Nat.add_sub_cancel_left]
          exact Nat.lt_div_mul_add pos
        have product : k₀ * m.piece = 8 * (k₀ * (m.piece / 8)) := by
          rw [Nat.mul_left_comm, Nat.mul_div_cancel' (eight_dvd_piece m)]
        have same := words (8 * c - k₀ * m.piece) (by omega) (by omega)
        have address : region + k₀ * m.piece + (8 * c - k₀ * m.piece) = region + 8 * c := by omega
        rwa [address] at same
      · rw [if_pos ⟨by omega, by omega, lost⟩]
    have first : testRegion m (losing m offs (i₀, k₀)) i region run =
        .ok ⟨storeWrite m (losing m offs (i₀, k₀)) i (fillPattern mib region) run.disk,
          run.errors, run.bytesDone + 2 * mib⟩ := testRegion_eq rfl rfl rfl rfl rfl back
    rw [testRegions, if_neg (by exact Bool.false_ne_true), first, Checked.ok_bind]
    refine ih later clean fun region' mem a ha low high => ?_
    -- a later region is behind this one
    obtain ⟨j, hj⟩ := List.mem_iff_getElem?.mp mem
    have there : offs[i + 1 + j]? = some region' := (later j).trans hj
    obtain ⟨hi, first⟩ := List.getElem?_eq_some_iff.mp here
    obtain ⟨hj, second⟩ := List.getElem?_eq_some_iff.mp there
    have less : region < region' := by
      rw [← first, ← second]
      exact List.pairwise_iff_getElem.mp sampled.increases _ _ hi hj (by omega)
    obtain ⟨q, hq⟩ := sampled.whole region (List.mem_of_getElem? here)
    obtain ⟨q', hq'⟩ := sampled.whole region' (List.mem_of_getElem? there)
    rw [size] at hq hq'
    have unchanged := written a ha
    rw [if_neg (by omega)] at unchanged
    rw [unchanged]
    exact fresh region' (List.mem_cons_of_mem _ mem) a ha low high

end Losing

/-! ## When a pass proves its writes -/

/-- A test that passes is a run that ends without an error, and is not cancelled. -/
lemma passed_iff {d : Disk} {capacity : ℕ} (fits : capacity < 2 ^ 64) :
    runBlocking m b d capacity = .passed ↔
      b.openWrite = .ok () ∧ b.openRead = .ok () ∧
      b.cancel (samples capacity destructiveRegions).length = false ∧
      ∃ run, testRegions m b 0 (samples capacity destructiveRegions) ⟨d, [], 0⟩ = .ok run ∧
        run.errors = [] := by
  have failed : ∀ c : Bool, (if c then TestState.cancelled else .failed) ≠ .passed := by decide
  unfold runBlocking runDestructive
  rw [sampleOffsets_eq fits, Checked.ok_bind]
  cases openWrite : b.openWrite with
  | error e => exact iff_of_false (failed _) (fun h => absurd h.1 nofun)
  | ok u =>
  cases openRead : b.openRead with
  | error e => exact iff_of_false (failed _) (fun h => absurd h.2.1 nofun)
  | ok u =>
  simp only [io, Checked.ok_bind]
  cases ran : testRegions m b 0 (samples capacity destructiveRegions) ⟨d, [], 0⟩ with
  | error e =>
    refine iff_of_false ?_ (fun h => ?_)
    · cases e with
      | overflow => exact nofun
      | error e => exact failed _
    · obtain ⟨-, -, -, run, same, -⟩ := h
      exact absurd same nofun
  | ok run =>
    dsimp only
    by_cases cancelled : b.cancel (samples capacity destructiveRegions).length = true
    · rw [if_pos cancelled]
      exact iff_of_false nofun fun h => by rw [cancelled] at h; exact absurd h.2.2.1 nofun
    · rw [if_neg cancelled]
      by_cases clean : run.errors = []
      · rw [if_pos clean]
        exact iff_of_true rfl ⟨trivial, trivial, Bool.not_eq_true _ ▸ cancelled, run, rfl, clean⟩
      · rw [if_neg clean]
        refine iff_of_false nofun fun h => ?_
        obtain ⟨-, -, -, run', same, clean'⟩ := h
        obtain rfl := Except.ok.inj same
        exact clean clean'

variable {m}

/-- A drive that holds a piece of the pattern passes, whether that piece is written or not. -/
lemma stale_passes {d : Disk} {capacity i region k : ℕ} (fits : capacity < 2 ^ 64)
    (h : (samples capacity destructiveRegions)[i]? = some region) (hk : k < mib / m.piece)
    (stale : Stale m d region k) :
    runBlocking m (losing m (samples capacity destructiveRegions) (i, k)) d capacity = .passed ∧
      ¬ Tested m (losing m (samples capacity destructiveRegions) (i, k)) i region := by
  constructor
  · rw [passed_iff _ _ fits]
    refine ⟨rfl, rfl, rfl, testRegions_losing (sampled capacity destructiveRegions) ?_
      (fun j => by rw [Nat.zero_add]) rfl (fun _ _ _ _ _ _ => rfl)⟩
    intro region' h'
    obtain rfl := Option.some.inj (h.symm.trans h')
    exact ⟨hk, stale⟩
  · intro tested
    obtain ⟨lba, place, -⟩ := tested.1 k hk
    have none : (losing m (samples capacity destructiveRegions) (i, k)).place i k = none :=
      if_pos rfl
    rw [none] at place
    exact absurd place nofun

/-- **A passed test proves its writes exactly when the drive has a MiB and no piece of a sampled
region holds its pattern already**.

**Proof sketch.** A word of the pattern tells its address: one that is read back and was not there
before comes from the piece that was to be stored there (`placed_of_readBack`). A piece that was
there before can be lost, and the test passes all the same (`stale_passes`). -/
theorem proves_iff (m : Media) (d : Disk) {capacity : ℕ} (fits : capacity < 2 ^ 64) :
    Proves m d capacity ↔ mib ≤ capacity ∧
      ∀ region ∈ samples capacity destructiveRegions, ∀ k < mib / m.piece, ¬ Stale m d region k := by
  have sampled := sampled capacity destructiveRegions
  constructor
  · intro proves
    constructor
    · by_contra small
      have none : samples capacity destructiveRegions = [] :=
        not_not.mp fun some => small (sampled.some.mp some)
      refine (proves (losing m [] (0, 0)) ((passed_iff _ _ fits).mpr ⟨rfl, rfl, rfl, ?_⟩)).1 none
      rw [none]
      exact ⟨_, rfl, rfl⟩
    · intro region mem k hk stale
      obtain ⟨i, h⟩ := List.mem_iff_getElem?.mp mem
      obtain ⟨passed, untested⟩ := stale_passes fits h hk stale
      exact untested ((proves _ passed).2 i region h)
  · rintro ⟨large, fresh⟩ b passed
    obtain ⟨-, -, on, run, ran, clean⟩ := (passed_iff _ _ fits).mp passed
    refine ⟨sampled.some.mpr large, fun i region h => ?_⟩
    have start : StoredOver m b (samples capacity destructiveRegions) d d := fun a _ => .inl rfl
    have tested := (testRegions_ok (fun j => by rw [Nat.zero_add]) start ran clean
      (by rw [Nat.zero_add]; exact on)).2 i region h
    rw [Nat.zero_add] at tested
    obtain ⟨read, last, stored, back⟩ := tested
    refine ⟨fun k hk => ?_, read⟩
    exact placed_of_readBack fits sampled stored h back hk
      (fresh region (List.mem_of_getElem? h) k hk)

/-- Whole writes are stored or lost. -/
def wholeWrites : Media := ⟨512, mib, by decide, by decide, by decide⟩

/-- On a blank drive a passed test proves its writes. -/
theorem proves_iff_blank : Proves wholeWrites ⟨2 ^ 30, fun _ => 0⟩ (2 ^ 30) := by
  have size : mib = 2 ^ 20 := rfl
  refine (proves_iff wholeWrites ⟨2 ^ 30, fun _ => 0⟩ (by decide)).mpr ⟨by decide, ?_⟩
  intro region mem k hk stale
  have within := (sampled _ _).within region mem
  have inside := piece_fits wholeWrites hk
  have first := (stale_iff wholeWrites _ hk).mp stale 0 (by decide) (by decide)
  have number := congrArg ofLe first
  have near : region + k * wholeWrites.piece + 0 < 2 ^ 64 := by omega
  rw [word, ofLe_le_of_lt (Nat.xor_lt_two_pow near (by decide))] at number
  have zero : 0 = (region + k * wholeWrites.piece + 0) ^^^ salt := by
    refine Eq.trans ?_ number
    rfl
  have same : salt = region + k * wholeWrites.piece + 0 := by
    have back := congrArg (· ^^^ salt) zero
    simpa only [Nat.zero_xor, Nat.xor_assoc, Nat.xor_self, Nat.xor_zero] using back
  have large : salt = 0x504452564D525453 := rfl
  omega

/-- A drive of 1 MiB after a destructive test. -/
def testedDrive : Disk := ⟨2 ^ 20, fun i => (fillPattern mib 0).getD i 0⟩

/-- **A drive that was tested before passes without a write**: the pattern is that of the earlier
test, so a write that is lost leaves what the test wants to read. -/
theorem retest_passes :
    ∃ b i, (samples (2 ^ 20) destructiveRegions)[i]? = some 0 ∧ b.place i 0 = none ∧
      runBlocking wholeWrites b testedDrive (2 ^ 20) = .passed ∧
      ¬ Proves wholeWrites testedDrive (2 ^ 20) := by
  have mem : 0 ∈ samples (2 ^ 20) destructiveRegions := (mem_samples (by decide)).mpr (.inl rfl)
  obtain ⟨i, h⟩ := List.mem_iff_getElem?.mp mem
  have stale : Stale wholeWrites testedDrive 0 0 := by
    have piece : wholeWrites.piece = mib := rfl
    have length : (fillPattern mib 0).length = mib := length_fillPattern 0
    rw [Stale, piece, Nat.zero_mul, slice_all length]
    exact readBack_getD _ length
  obtain ⟨passed, untested⟩ := stale_passes (by decide) h (by decide) stale
  exact ⟨_, i, h, if_pos rfl, passed, fun proves => untested ((proves _ passed).2 i 0 h)⟩

end DriveTest

end StormDrive
