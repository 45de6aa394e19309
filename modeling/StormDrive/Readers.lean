import StormDrive.Contents

set_option relaxedAutoImplicit false
set_option autoImplicit false

/-!
# Two readers of one disk

`probe` says whose slabs are on a disk, `holds` what a destructive step would destroy. Both walk the
same table; `probe` reads a block of each region, `holds` the 68 KiB in which it looks for
signatures, and a region that ends before is passed over.

## Main definitions

* `Named` — `holds` finds it, says so in its text, and the guard refuses the drive.
* `ReadersAgree` — what `probe` finds is named by `holds`.
* `InReach` — the disk goes on for 68 KiB behind the start of what `probe` finds.

## Main results

* `readersAgree_iff` — **the readers agree exactly when what `probe` finds is in reach**.
* `slab_out_of_reach` — a slab in the last partition of a small disk is not seen by `holds`.
-/

namespace StormDrive

/-! ## Reads -/

/-- What a read gives. -/
lemma Disk.read_eq_some_iff {d : Disk} {off len : Nat} {b : Buf} :
    d.read off len = some b ↔ off + len ≤ d.size ∧ b = ⟨len, fun i => d.byte (off + i)⟩ := by
  unfold Disk.read
  split_ifs with h
  · exact ⟨fun e => ⟨h, (Option.some.inj e).symm⟩, fun e => congrArg some e.2.symm⟩
  · exact ⟨nofun, fun e => absurd e.1 h⟩

/-- A magic number in the first block is there in a longer read, and the other way round. -/
lemma Disk.hasAt_read {d : Disk} {off n m pos : Nat} {b c : Buf} {magic : List UInt8}
    (hb : d.read off n = some b) (hc : d.read off m = some c) (hn : pos + magic.length ≤ n)
    (hm : pos + magic.length ≤ m) : b.hasAt pos magic = c.hasAt pos magic := by
  obtain ⟨-, rfl⟩ := Disk.read_eq_some_iff.mp hb
  obtain ⟨-, rfl⟩ := Disk.read_eq_some_iff.mp hc
  simp [Buf.hasAt, hn, hm]

/-- A slab is what a region holds exactly when it begins with the magic of one. -/
lemma fsSignature_eq_slab_iff (b : Buf) :
    fsSignature b = some "stormblock slab" ↔ b.hasAt 0 slabMagic = true := by
  unfold fsSignature
  by_cases slab : b.hasAt 0 slabMagic = true
  · simp [slab]
  · rw [if_neg slab]
    constructor
    · intro h
      split_ifs at h
      all_goals exact absurd (Option.some.inj h) (by decide)
    · exact fun h => absurd h slab

/-- A RAID member is what a region holds exactly when it begins with the magic of one. -/
lemma fsSignature_eq_raid_iff (b : Buf) :
    fsSignature b = some "stormraid member" ↔
      b.hasAt 0 slabMagic = false ∧ b.hasAt 0 stormraidMagic = true := by
  unfold fsSignature
  by_cases slab : b.hasAt 0 slabMagic = true
  · rw [if_pos slab, slab]
    exact ⟨fun h => absurd (Option.some.inj h) (by decide), fun h => absurd h.1 nofun⟩
  · rw [if_neg slab]
    rw [Bool.not_eq_true] at slab
    by_cases raid : b.hasAt 0 stormraidMagic = true
    · simp [slab, raid]
    · rw [if_neg raid]
      constructor
      · intro h
        split_ifs at h
        all_goals exact absurd (Option.some.inj h) (by decide)
      · exact fun h => absurd h.2 raid

/-! ## What is found, and what is in reach -/

/-- `holds` finds it, says so in its text, and a drive with that text is in use. -/
def Named (d : Disk) (what : String) : Prop :=
  ∃ part, (part, what) ∈ findings d ∧
    (∃ text, holds d = some text ∧ Text.contains text what = true) ∧
    ∀ name, (freshReason name (holds d)).isSome = true

/-- What `probe` finds is named by `holds`: a slab on the whole drive or in a partition, a
superblock of stormraid. -/
def ReadersAgree (d : Disk) : Prop :=
  ((probeSlabs d).2 ≠ [] → Named d "stormblock slab") ∧
  ((probeSlabs d).1 = some stormraidHolder → Named d "stormraid member")

/-- The disk begins with the magic. -/
def Disk.beginsWith (d : Disk) (magic : List UInt8) : Bool :=
  (d.read 0 512).any fun head => head.hasAt 0 magic

/-- The partitions of the table that begin with a slab. -/
def slabsInTable (d : Disk) : List (Nat × GptPartition) :=
  match gptTable d with
  | none => []
  | some (lbs, ps) => (slabPartitions d lbs ps).map fun p => (lbs, p)

/-- The disk goes on for `signatureBytes` behind the start of what is found: of the disk, where it
begins with a slab or a superblock; else of one of the slabs in its table. -/
def InReach (d : Disk) : Prop :=
  if d.beginsWith slabMagic || d.beginsWith stormraidMagic then signatureBytes ≤ d.size
  else slabsInTable d ≠ [] → (d.read 0 512).isSome = true →
    ∃ p ∈ slabsInTable d, mul64 p.2.firstLba p.1 + signatureBytes ≤ d.size

/-- What `holds` finds it names, and the drive is in use. -/
lemma named_of_mem_findings {d : Disk} {part : Option String} {what : String}
    (found : (part, what) ∈ findings d)
    (engine : what = "stormblock slab" ∨ what = "stormraid member") : Named d what := by
  refine ⟨part, found, ?_, fun name => ?_⟩
  · have ne : findings d ≠ [] := List.ne_nil_of_mem found
    refine ⟨Text.join ", " ((findings d).map describeHolding), ?_, ?_⟩
    · simp [holds, describeHoldings, ne]
    · exact Text.contains_join _ (List.mem_map_of_mem found) (contains_describeHolding part what)
  · have shows := holds_shows_region found engine
    rw [Option.isSome_iff_ne_none]
    exact fun none => (freshReason_eq_none_iff name (holds d)).mp none shows

/-- What `holds` finds, in the whole drive or in a partition of the table. -/
lemma mem_findings_iff {d : Disk} {what : String} :
    (∃ part, (part, what) ∈ findings d) ↔
      (d.read 0 signatureBytes).bind fsSignature = some what ∨
      ∃ lbs ps, gptTable d = some (lbs, ps) ∧ ∃ p ∈ ps, partitionSignature d lbs p = some what := by
  unfold findings
  constructor
  · rintro ⟨part, h⟩
    obtain h | h := List.mem_append.mp h
    · obtain ⟨w, hw, same⟩ := List.mem_map.mp h
      obtain ⟨-, rfl⟩ := Prod.mk.inj same
      exact .inl (Option.mem_toList.mp hw)
    · split at h
      · exact absurd h nofun
      · next lbs ps table =>
        obtain ⟨p, hp, found⟩ := List.mem_filterMap.mp h
        obtain ⟨w, hw, same⟩ := Option.map_eq_some_iff.mp found
        obtain ⟨-, rfl⟩ := Prod.mk.inj same
        exact .inr ⟨lbs, ps, table, p, hp, hw⟩
  · rintro (h | ⟨lbs, ps, table, p, hp, h⟩)
    · refine ⟨none, List.mem_append_left _ ?_⟩
      rw [h]
      exact List.mem_singleton.mpr rfl
    · refine ⟨some p.label, List.mem_append_right _ ?_⟩
      rw [table]
      exact List.mem_filterMap.mpr ⟨p, hp, by rw [h]; rfl⟩

/-- A region of which `signatureBytes` can be read holds a slab exactly when its first block begins
with one. -/
lemma signature_slab_iff (d : Disk) (off : Nat) :
    (d.read off signatureBytes).bind fsSignature = some "stormblock slab" ↔
      off + signatureBytes ≤ d.size ∧ (d.read off 512).any isSlabHeader = true := by
  rw [Option.bind_eq_some_iff]
  constructor
  · rintro ⟨b, hb, slab⟩
    have fits := (Disk.read_eq_some_iff.mp hb).1
    obtain ⟨c, hc⟩ : ∃ c, d.read off 512 = some c :=
      ⟨_, Disk.read_eq_some_iff.mpr ⟨by unfold signatureBytes at fits; omega, rfl⟩⟩
    refine ⟨fits, ?_⟩
    rw [hc, Option.any_some, isSlabHeader, Disk.hasAt_read hc hb (by decide) (by decide)]
    exact (fsSignature_eq_slab_iff b).mp slab
  · rintro ⟨fits, slab⟩
    obtain ⟨c, hc, slab⟩ := (Option.any_eq_true _ _).mp slab
    have hb : d.read off signatureBytes = some ⟨signatureBytes, fun i => d.byte (off + i)⟩ :=
      Disk.read_eq_some_iff.mpr ⟨fits, rfl⟩
    refine ⟨_, hb, (fsSignature_eq_slab_iff _).mpr ?_⟩
    rw [← Disk.hasAt_read hc hb (by decide) (by decide)]
    exact slab

/-- A slab is named exactly when one is in reach, on the whole drive or in a partition. -/
lemma named_slab_iff (d : Disk) :
    Named d "stormblock slab" ↔ (signatureBytes ≤ d.size ∧ d.beginsWith slabMagic = true) ∨
      ∃ p ∈ slabsInTable d, mul64 p.2.firstLba p.1 + signatureBytes ≤ d.size := by
  have named : Named d "stormblock slab" ↔ ∃ part, (part, "stormblock slab") ∈ findings d :=
    ⟨fun ⟨part, found, _⟩ => ⟨part, found⟩,
      fun ⟨_, found⟩ => named_of_mem_findings found (.inl rfl)⟩
  rw [named, mem_findings_iff, signature_slab_iff, Nat.zero_add]
  refine or_congr Iff.rfl ?_
  unfold slabsInTable
  constructor
  · rintro ⟨lbs, ps, table, p, hp, h⟩
    obtain ⟨fits, slab⟩ := (signature_slab_iff d _).mp h
    rw [table]
    exact ⟨(lbs, p), List.mem_map_of_mem (List.mem_filter.mpr ⟨hp, slab⟩), fits⟩
  · rintro ⟨q, hq, fits⟩
    split at hq
    · exact absurd hq nofun
    · next lbs ps table =>
      obtain ⟨p, hp, rfl⟩ := List.mem_map.mp hq
      obtain ⟨hp, slab⟩ := List.mem_filter.mp hp
      exact ⟨lbs, ps, table, p, hp, (signature_slab_iff d _).mpr ⟨fits, slab⟩⟩

/-- What is named was read with all of its 68 KiB. -/
lemma signatureBytes_le_of_named {d : Disk} {what : String} (h : Named d what) :
    signatureBytes ≤ d.size := by
  obtain ⟨part, found, -⟩ := h
  obtain h | ⟨lbs, ps, -, p, -, h⟩ := mem_findings_iff.mp ⟨part, found⟩
  · obtain ⟨b, hb, -⟩ := Option.bind_eq_some_iff.mp h
    have := (Disk.read_eq_some_iff.mp hb).1
    omega
  · obtain ⟨b, hb, -⟩ := Option.bind_eq_some_iff.mp h
    have := (Disk.read_eq_some_iff.mp hb).1
    omega

/-- A superblock on a disk that is long enough is named. -/
lemma named_raid {d : Disk} (slab : d.beginsWith slabMagic = false)
    (raid : d.beginsWith stormraidMagic = true) (fits : signatureBytes ≤ d.size) :
    Named d "stormraid member" := by
  obtain ⟨c, hc, raid⟩ := (Option.any_eq_true _ _).mp raid
  have hb : d.read 0 signatureBytes = some ⟨signatureBytes, fun i => d.byte (0 + i)⟩ :=
    Disk.read_eq_some_iff.mpr ⟨by omega, rfl⟩
  rw [Disk.beginsWith, hc, Option.any_some, Disk.hasAt_read hc hb (by decide) (by decide)] at slab
  rw [Disk.hasAt_read hc hb (by decide) (by decide)] at raid
  have found : (d.read 0 signatureBytes).bind fsSignature = some "stormraid member" := by
    rw [hb]
    exact (fsSignature_eq_raid_iff _).mpr ⟨slab, raid⟩
  obtain ⟨part, mem⟩ := mem_findings_iff.mpr (.inl found)
  exact named_of_mem_findings mem (.inr rfl)

/-! ## What `probe` says -/

/-- The sentence about slabs is never the one about stormraid. -/
lemma describeSlabs_ne_holder (whole : Bool) (parts : List String) :
    describeSlabs whole parts ≠ some stormraidHolder := by
  unfold describeSlabs
  split_ifs
  · decide
  · exact nofun
  · intro h
    have first := congrArg (fun s : String => s.toList.take 6) (Option.some.inj h)
    simp only [String.append_assoc, String.toList_append] at first
    exact absurd first (by simp [stormraidHolder])

/-- On a drive that begins with a slab, `probe` reports that one. -/
lemma probeSlabs_of_slab {d : Disk} (slab : d.beginsWith slabMagic = true) :
    (probeSlabs d).2 ≠ [] ∧ (probeSlabs d).1 ≠ some stormraidHolder := by
  obtain ⟨b, hb, slab⟩ := (Option.any_eq_true _ _).mp slab
  have slab : isSlabHeader b = true := slab
  simp only [probeSlabs, hb, slab, if_true]
  exact ⟨nofun, describeSlabs_ne_holder _ _⟩

/-- On a drive that begins with a superblock, `probe` reports that. -/
lemma probeSlabs_of_raid {d : Disk} (slab : d.beginsWith slabMagic = false)
    (raid : d.beginsWith stormraidMagic = true) : probeSlabs d = (some stormraidHolder, []) := by
  obtain ⟨b, hb, raid⟩ := (Option.any_eq_true _ _).mp raid
  rw [Disk.beginsWith, hb, Option.any_some] at slab
  simp [probeSlabs, hb, isSlabHeader, slab, raid]

/-- On a drive that begins with neither, `probe` reports the slabs of the table. -/
lemma probeSlabs_of_table {d : Disk} (slab : d.beginsWith slabMagic = false)
    (raid : d.beginsWith stormraidMagic = false) :
    ((probeSlabs d).2 ≠ [] ↔ slabsInTable d ≠ [] ∧ (d.read 0 512).isSome = true) ∧
      (probeSlabs d).1 ≠ some stormraidHolder := by
  unfold probeSlabs slabsInTable
  cases head : d.read 0 512 with
  | none => simp
  | some b =>
    rw [Disk.beginsWith, head, Option.any_some] at slab raid
    cases gptTable d with
    | none => simp [isSlabHeader, slab, raid]
    | some table =>
      simp only [isSlabHeader, slab, raid, Bool.false_eq_true, if_false]
      exact ⟨by simp, describeSlabs_ne_holder _ _⟩

/-- **The readers agree exactly when what `probe` finds is in reach**: `holds` reads 68 KiB from
where a slab or a superblock begins, and passes over a region that ends before. -/
theorem readersAgree_iff (d : Disk) : ReadersAgree d ↔ InReach d := by
  unfold ReadersAgree InReach
  by_cases slab : d.beginsWith slabMagic = true
  · obtain ⟨some, holder⟩ := probeSlabs_of_slab slab
    rw [if_pos (by simp [slab])]
    constructor
    · exact fun agree => signatureBytes_le_of_named (agree.1 some)
    · intro fits
      exact ⟨fun _ => (named_slab_iff d).mpr (.inl ⟨fits, slab⟩), fun h => absurd h holder⟩
  · rw [Bool.not_eq_true] at slab
    by_cases raid : d.beginsWith stormraidMagic = true
    · rw [if_pos (by simp [raid]), probeSlabs_of_raid slab raid]
      constructor
      · exact fun agree => signatureBytes_le_of_named (agree.2 rfl)
      · exact fun fits => ⟨fun h => absurd rfl h, fun _ => named_raid slab raid fits⟩
    · rw [Bool.not_eq_true] at raid
      obtain ⟨slabs, holder⟩ := probeSlabs_of_table slab raid
      rw [if_neg (by simp [slab, raid]), slabs, named_slab_iff, slab]
      constructor
      · intro agree found readable
        obtain whole | reach := agree.1 ⟨found, readable⟩
        · exact absurd whole.2 nofun
        · exact reach
      · exact fun reach => ⟨fun found => .inr (reach found.1 found.2), fun h => absurd h holder⟩

/-- A disk of 2 KiB: a table with one partition, at LBA 3, which begins with a slab. -/
def smallDisk : Disk where
  size := 2048
  byte i :=
    if i < 512 then 0
    else if i < 520 then (ascii "EFI PART").getD (i - 512) 0
    else if i = 584 then 2
    else if i = 592 then 1
    else if i = 596 then 128
    else if i = 1024 then 1
    else if i = 1056 then 3
    else if i = 1064 then 3
    else if i < 1536 then 0
    else (ascii "STRMSLAB").getD (i - 1536) 0

/-- **A slab at the end of a disk is not seen by `holds`**: `probe` reports it, `holds` finds the
disk empty, and the guard has no reason to refuse it. -/
theorem slab_out_of_reach :
    (probeSlabs smallDisk).2 = [⟨some 1, "", "unknown", 1536⟩] ∧ holds smallDisk = none ∧
      ¬ ReadersAgree smallDisk := by
  have found : (probeSlabs smallDisk).2 = [⟨some 1, "", "unknown", 1536⟩] := by decide +kernel
  have empty : holds smallDisk = none := by decide +kernel
  refine ⟨found, empty, fun agree => ?_⟩
  obtain ⟨-, -, ⟨text, some, -⟩, -⟩ := agree.1 (by simp [found])
  rw [empty] at some
  exact absurd some nofun

end StormDrive
