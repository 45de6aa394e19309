import StormDrive.DriveTest

set_option relaxedAutoImplicit false
set_option autoImplicit false

/-!
# Sampled tests

The sampled offsets lie close enough, and a sampled test that looks at all of them has read as much
as was planned (`drivetest.rs`).

## Main definitions

* `DriveTest.runSampledRead`, `DriveTest.plannedBytes` — the smoke test, and what a test is to read.
* `DriveTest.SpreadOver` — **the offsets are spread over the drive**.
* `DriveTest.SampledWell` — and the tests that look at them count their bytes.

## Main results

* `DriveTest.sampledWell` — so it is for every capacity and every number of regions.

## Implementation notes

A test that is cancelled, or ends with an error, has not looked at all regions.
-/

namespace StormDrive

namespace DriveTest

/-! ## The smoke test -/

/-- SAMPLE_REGIONS. -/
def sampleRegions : ℕ := 16

inductive TestKind
  | smoke | readScan | destructiveSample
  deriving DecidableEq

/-- The bytes a test reads (and, destructive, writes and reads back). -/
def plannedBytes (kind : TestKind) (capacity : ℕ) : Checked String ℕ :=
  match kind with
  | .smoke => do
    let offsets ← sampleOffsets capacity sampleRegions
    Checked.mul offsets.length mib
  | .readScan => pure capacity
  | .destructiveSample => do
    let offsets ← sampleOffsets capacity destructiveRegions
    let once ← Checked.mul offsets.length 2
    Checked.mul once mib

/-- What is on record of a read: its errors, and how much was read. -/
structure ReadRun where
  errors : List String := []
  bytesDone : ℕ := 0

/-- Read one region after the other, until the test is cancelled. -/
def readRegions (b : Behaviour) : ℕ → List ℕ → ReadRun → Checked String ReadRun
  | _, [], run => pure run
  | i, region :: rest, run =>
    if b.cancel i then pure run
    else do
      io (b.seekRead i)
      let errors := match b.read i with
        | .error e => run.errors ++ ["read at " ++ toString region ++ ": " ++ e]
        | .ok () => run.errors
      readRegions b (i + 1) rest ⟨errors, run.bytesDone + mib⟩

def runSampledRead (b : Behaviour) (capacity : ℕ) : Checked String ReadRun := do
  io b.openRead
  let regions ← sampleOffsets capacity sampleRegions
  readRegions b 0 regions {}

/-! ## What is promised -/

/-- **The offsets are spread over the drive.** -/
structure SpreadOver (capacity regions : ℕ) (l : List ℕ) : Prop where
  increases : l.Pairwise (· < ·)
  whole : ∀ o ∈ l, mib ∣ o
  within : ∀ o ∈ l, o + mib ≤ capacity
  few : l.length ≤ regions
  /-- The first MiB is among them, and the last full one. -/
  first : mib ≤ capacity → 0 ∈ l
  last : mib ≤ capacity → ∃ o ∈ l, capacity < o + 2 * mib
  /-- Two neighbours are no further apart than the regions are to be, but for the rounding. -/
  near : ∀ pre a b post, l = pre ++ a :: b :: post →
    b ≤ a + (lastSample capacity / (regions - 1) + mib + regions)

/-- **Sampled tests look at a drive as they are to.** -/
structure SampledWell (capacity : ℕ) : Prop where
  spread : ∀ regions, 2 ≤ regions →
    ∃ l, sampleOffsets capacity regions = .ok l ∧ SpreadOver capacity regions l
  /-- A smoke test that looks at all regions has read what was planned. -/
  smoke : ∀ (b : Behaviour) (run : ReadRun),
    (∀ i < (samples capacity sampleRegions).length, b.cancel i = false) →
      runSampledRead b capacity = .ok run → plannedBytes .smoke capacity = .ok run.bytesDone
  /-- And so has a destructive one, on any disk. -/
  destructive : ∀ (m : Media) (b : Behaviour) (d : Disk) (run : TestRun),
    (∀ i < (samples capacity destructiveRegions).length, b.cancel i = false) →
      runDestructive m b d capacity = .ok run →
        plannedBytes .destructiveSample capacity = .ok run.bytesDone

/-! ## How close the offsets are -/

/-- Where a region is to be. -/
def spot (capacity regions i : ℕ) : ℕ := i * (lastSample capacity / (regions - 1)) / mib * mib

section Close

variable {capacity regions : ℕ}

lemma length_dedup_le (l : List ℕ) : (dedup l).length ≤ l.length := by
  induction l using dedup.induct with
  | case1 => exact le_rfl
  | case2 a => exact le_rfl
  | case3 a l ih =>
    rw [dedup, if_pos rfl, List.length_cons]
    exact ih.trans (Nat.le_succ _)
  | case4 a b l ne ih =>
    rw [dedup, if_neg ne, List.length_cons, List.length_cons]
    exact Nat.succ_le_succ ih

lemma length_between_le (capacity regions : ℕ) :
    (between capacity regions).length ≤ regions - 2 := by
  rw [between]
  split
  · rw [List.length_map, List.length_map, List.length_range]
    omega
  · exact Nat.zero_le _

/-- There are no more offsets than regions. -/
lemma length_samples_le (two : 2 ≤ regions) : (samples capacity regions).length ≤ regions := by
  rw [samples]
  split
  · exact Nat.zero_le _
  · refine (length_dedup_le _).trans ?_
    have few := length_between_le capacity regions
    rw [List.length_mergeSort, List.length_cons, List.length_cons]
    omega

/-- Each spot is an offset. -/
lemma spot_mem (large : ¬ capacity < mib) {i : ℕ} (hi : i ≤ regions - 2) :
    spot capacity regions i ∈ samples capacity regions := by
  rw [mem_samples large]
  cases i with
  | zero =>
    refine Or.inl ?_
    rw [spot, Nat.zero_mul, Nat.zero_div, Nat.zero_mul]
  | succ i =>
    by_cases spread : 0 < lastSample capacity
    · refine Or.inr (Or.inr ?_)
      rw [between, if_pos ⟨by omega, spread⟩]
      refine List.mem_map.mpr ⟨i + 1, List.mem_map.mpr ⟨i, ?_, rfl⟩, rfl⟩
      rw [List.mem_range]
      omega
    · refine Or.inl ?_
      rw [spot, Nat.eq_zero_of_not_pos spread, Nat.zero_div, Nat.mul_zero, Nat.zero_div,
        Nat.zero_mul]

/-- One spot is not further from the next than a step and the rounding. -/
lemma spot_succ (capacity regions i : ℕ) :
    spot capacity regions i ≤ spot capacity regions (i + 1) ∧
      spot capacity regions (i + 1) ≤
        spot capacity regions i + (lastSample capacity / (regions - 1) + mib) := by
  rw [spot, spot, Nat.succ_mul]
  generalize i * (lastSample capacity / (regions - 1)) = at'
  generalize lastSample capacity / (regions - 1) = step
  unfold mib
  omega

/-- The last offset is not further from the last spot. -/
lemma spot_last (capacity : ℕ) {regions : ℕ} (two : 2 ≤ regions) :
    spot capacity regions (regions - 2) ≤ lastSample capacity ∧
      lastSample capacity ≤ spot capacity regions (regions - 2) +
        (lastSample capacity / (regions - 1) + mib + regions) := by
  have parts := Nat.div_add_mod (lastSample capacity) (regions - 1)
  have rest := Nat.mod_lt (lastSample capacity) (by omega : 0 < regions - 1)
  have steps : (regions - 1) * (lastSample capacity / (regions - 1)) =
      (regions - 2) * (lastSample capacity / (regions - 1)) +
        lastSample capacity / (regions - 1) := by
    rw [← Nat.succ_mul]
    congr 1
    omega
  rw [spot]
  rw [steps] at parts
  generalize (regions - 2) * (lastSample capacity / (regions - 1)) = at' at parts ⊢
  generalize lastSample capacity / (regions - 1) = step at parts ⊢
  unfold mib
  omega

/-- Below a spot that is not 0 there is an offset close to it. -/
lemma below_spot (large : ¬ capacity < mib) {i : ℕ} (hi : i ≤ regions - 2)
    (pos : 0 < spot capacity regions i) :
    ∃ c ∈ samples capacity regions, c < spot capacity regions i ∧
      spot capacity regions i ≤ c + (lastSample capacity / (regions - 1) + mib + regions) := by
  induction i with
  | zero =>
    rw [spot, Nat.zero_mul, Nat.zero_div, Nat.zero_mul] at pos
    exact absurd pos (lt_irrefl 0)
  | succ i ih =>
    obtain ⟨up, close⟩ := spot_succ capacity regions i
    obtain less | same := up.lt_or_eq
    · exact ⟨_, spot_mem large (by omega : i ≤ regions - 2), less, by omega⟩
    · rw [← same] at pos ⊢
      exact ih (by omega) pos

/-- **Below an offset that is not the first there is one close to it.** -/
lemma below_offset (large : ¬ capacity < mib) (two : 2 ≤ regions) {o : ℕ}
    (ho : o ∈ samples capacity regions) (pos : 0 < o) :
    ∃ c ∈ samples capacity regions, c < o ∧
      o ≤ c + (lastSample capacity / (regions - 1) + mib + regions) := by
  obtain rfl | rfl | mem := (mem_samples large).mp ho
  · exact absurd pos (lt_irrefl 0)
  · obtain ⟨below, close⟩ := spot_last capacity two
    obtain less | same := below.lt_or_eq
    · exact ⟨_, spot_mem large le_rfl, less, close⟩
    · rw [← same] at pos ⊢
      have found := below_spot large (le_refl (regions - 2)) pos
      rwa [← same] at found
  · rw [between] at mem
    split at mem
    · obtain ⟨i, hi, rfl⟩ := List.mem_map.mp mem
      obtain ⟨j, hj, rfl⟩ := List.mem_map.mp hi
      rw [List.mem_range] at hj
      exact below_spot large (by omega : j + 1 ≤ regions - 2) pos
    · exact absurd mem List.not_mem_nil

/-- The last offset is the last full MiB. -/
lemma lt_lastSample (capacity : ℕ) : capacity < lastSample capacity + 2 * mib := by
  unfold lastSample mib
  omega

/-- **The offsets are spread over the drive.**

**Proof sketch.** Of two neighbours the higher one is close to some offset below it
(`below_offset`), and that one is not above the lower neighbour. -/
theorem spreadOver (capacity : ℕ) {regions : ℕ} (two : 2 ≤ regions) :
    SpreadOver capacity regions (samples capacity regions) := by
  have all := sampled capacity regions
  refine ⟨all.increases, all.whole, all.within, length_samples_le two, ?_, ?_, ?_⟩
  · exact fun large => (mem_samples (by omega)).mpr (Or.inl rfl)
  · exact fun large => ⟨lastSample capacity, (mem_samples (by omega)).mpr (Or.inr (Or.inl rfl)),
      lt_lastSample capacity⟩
  · intro pre a b post split
    have increases := all.increases
    have mem : b ∈ samples capacity regions := by
      rw [split]
      exact List.mem_append_right _ (List.mem_cons_of_mem _ List.mem_cons_self)
    have large : ¬ capacity < mib := by
      have := all.within b mem
      omega
    rw [split] at increases
    obtain ⟨-, tail, across⟩ := List.pairwise_append.mp increases
    obtain ⟨above, rest⟩ := List.pairwise_cons.mp tail
    have less : a < b := above b List.mem_cons_self
    obtain ⟨c, hc, below, close⟩ := below_offset large two mem (by omega)
    have notAbove : c ≤ a := by
      rw [split] at hc
      obtain hc | hc := List.mem_append.mp hc
      · exact (across c hc a List.mem_cons_self).le
      · obtain rfl | hc := List.mem_cons.mp hc
        · exact le_rfl
        · obtain rfl | hc := List.mem_cons.mp hc
          · exact absurd below (lt_irrefl _)
          · exact absurd ((List.pairwise_cons.mp rest).1 c hc) below.not_gt
    omega

end Close

/-! ## What the tests count -/

/-- A read that is not cancelled counts a MiB for each region. -/
lemma bytesDone_readRegions {b : Behaviour} {l : List ℕ} {i : ℕ} {run run' : ReadRun}
    (on : ∀ j < i + l.length, b.cancel j = false) (h : readRegions b i l run = .ok run') :
    run'.bytesDone = run.bytesDone + l.length * mib := by
  induction l generalizing i run with
  | nil =>
    obtain rfl := Except.ok.inj h
    rw [List.length_nil, Nat.zero_mul, Nat.add_zero]
  | cons region rest ih =>
    rw [List.length_cons] at on
    rw [readRegions, on i (by omega), if_neg Bool.false_ne_true] at h
    obtain ⟨-, -, h⟩ := Checked.bind_eq_ok_iff.mp h
    rw [ih (fun j hj => on j (by omega)) h, List.length_cons, Nat.succ_mul]
    dsimp only
    omega

variable {m : Media} {b : Behaviour}

/-- A region that was tested counts twice. -/
lemma bytesDone_testRegion {i region : ℕ} {run run' : TestRun}
    (h : testRegion m b i region run = .ok run') : run'.bytesDone = run.bytesDone + 2 * mib := by
  unfold testRegion at h
  obtain ⟨-, -, h⟩ := Checked.bind_eq_ok_iff.mp h
  obtain ⟨-, -, h⟩ := Checked.bind_eq_ok_iff.mp h
  obtain ⟨-, -, h⟩ := Checked.bind_eq_ok_iff.mp h
  obtain ⟨-, -, h⟩ := Checked.bind_eq_ok_iff.mp h
  obtain rfl := Except.ok.inj h
  rfl

/-- A test that is not cancelled counts two MiB for each region. -/
lemma bytesDone_testRegions {l : List ℕ} {i : ℕ} {run run' : TestRun}
    (on : ∀ j < i + l.length, b.cancel j = false) (h : testRegions m b i l run = .ok run') :
    run'.bytesDone = run.bytesDone + l.length * 2 * mib := by
  induction l generalizing i run with
  | nil =>
    obtain rfl := Except.ok.inj h
    rw [List.length_nil, Nat.zero_mul, Nat.add_zero]
  | cons region rest ih =>
    rw [List.length_cons] at on
    rw [testRegions, on i (by omega), if_neg Bool.false_ne_true] at h
    obtain ⟨run₁, first, h⟩ := Checked.bind_eq_ok_iff.mp h
    rw [ih (fun j hj => on j (by omega)) h, bytesDone_testRegion first, List.length_cons,
      Nat.add_mul, Nat.one_mul, Nat.add_mul, Nat.add_assoc, Nat.add_comm (2 * mib)]

/-- **Sampled tests look at a drive as they are to**, whatever its capacity.

**Proof sketch.** The offsets are `spreadOver`, and without a number out of range
(`sampleOffsets_eq`). Each region counts once or twice, and there are at most 16. -/
theorem sampledWell (capacity : UInt64) : SampledWell capacity.toNat where
  spread regions two :=
    ⟨_, sampleOffsets_eq capacity.toNat_lt regions, spreadOver capacity.toNat two⟩
  smoke b run on h := by
    have few : (samples capacity.toNat sampleRegions).length ≤ 16 := length_samples_le (by decide)
    obtain ⟨-, -, h⟩ := Checked.bind_eq_ok_iff.mp h
    rw [sampleOffsets_eq capacity.toNat_lt, Checked.ok_bind] at h
    have counted := bytesDone_readRegions (by rwa [Nat.zero_add]) h
    rw [Nat.zero_add] at counted
    rw [plannedBytes, sampleOffsets_eq capacity.toNat_lt, Checked.ok_bind, Checked.mul_eq, counted]
    exact (Nat.mul_le_mul_right mib few).trans_lt (by decide)
  destructive m b d run on h := by
    have few : (samples capacity.toNat destructiveRegions).length ≤ 8 :=
      length_samples_le (by decide)
    obtain ⟨-, -, h⟩ := Checked.bind_eq_ok_iff.mp h
    obtain ⟨-, -, h⟩ := Checked.bind_eq_ok_iff.mp h
    rw [sampleOffsets_eq capacity.toNat_lt, Checked.ok_bind] at h
    have counted := bytesDone_testRegions (by rwa [Nat.zero_add]) h
    rw [Nat.zero_add] at counted
    have twice := Nat.mul_le_mul_right 2 few
    rw [plannedBytes, sampleOffsets_eq capacity.toNat_lt, Checked.ok_bind,
      Checked.mul_eq (twice.trans_lt (by decide)), Checked.ok_bind, Checked.mul_eq, counted]
    exact (Nat.mul_le_mul_right mib twice).trans_lt (by decide)

end DriveTest

end StormDrive
