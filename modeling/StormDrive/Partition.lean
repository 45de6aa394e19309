import StormDrive.GptRoundTrip
import StormDrive.Steps

set_option relaxedAutoImplicit false
set_option autoImplicit false

/-!
# Partitioning leaves a clean disk

What `write_layout` of `worker.rs` writes, and how the readers of `contents.rs` find the disk
afterwards, whatever was on it before.

## Main definitions

* `writeLayout` — both ends are cleared, then both copies of the table are written.
* `gptTableIn`, `holdsIn`, `probeSlabsIn` — the readers, with the sizes of an LBA in any order.

## Main results

* `writeLayout_clean` — **a partitioned disk reads as holding nothing**, and nothing between the
  two ends has changed.

## Implementation notes

A write of which a part is past the end of the disk fails. Syncing does not change the image.
-/

namespace StormDrive

open Bytes Gpt

/-! ## Writes -/

/-- The most that is cleared at each end of the disk (CLEAR_BYTES). -/
def clearBytes : ℕ := 4 * 2 ^ 20

/-- Clear both ends, then write both copies of the table. -/
def writeLayout (d : Disk) (capacity : ℕ) (layout : Gpt.Layout) : Except String Disk := do
  let zero := List.replicate (min clearBytes (capacity / 2)) 0
  let tail := capacity - zero.length
  let d ← (d.put zero 0).mapError ("clear head: " ++ ·)
  let d ← (d.put zero tail).mapError ("clear tail: " ++ ·)
  let d ← (d.put layout.primary 0).mapError ("write GPT: " ++ ·)
  (d.put layout.backup layout.backupOffset).mapError ("write backup GPT: " ++ ·)

/-- The partition type of a role. -/
def Role.typeGuid : Role → Guid
  | .data => ⟨typeSlabData, rfl⟩
  | .system => ⟨typeSlab, rfl⟩

/-- The partition name of a role. -/
def Role.partitionName : Role → String
  | .data => "stormblock-data"
  | .system => "stormblock-system"

/-! ## Readers that try the sizes in any order -/

/-- The table of a disk whose LBA is of this size. -/
def tableAt (d : Disk) (lbs : ℕ) : Option (ℕ × List GptPartition) :=
  match (d.read lbs 512).bind parseGptHeader with
  | none => none
  | some h =>
    (d.read (mul64 h.entriesLba lbs) (h.entries * h.entrySize)).map fun table =>
      (lbs, parseGptEntries table h)

/-- The first table found, the sizes of an LBA tried in this order. -/
def gptTableIn (sizes : List ℕ) (d : Disk) : Option (ℕ × List GptPartition) :=
  sizes.findSome? (tableAt d)

/-- `holds`, the sizes tried in this order. -/
def holdsIn (sizes : List ℕ) (d : Disk) : Option String :=
  let whole := (d.read 0 signatureBytes).bind fsSignature
  let parts := match gptTableIn sizes d with
    | none => []
    | some (lbs, ps) => ps.filterMap fun p =>
        (partitionSignature d lbs p).map fun w => (some p.label, w)
  describeHoldings (whole.toList.map (fun w => (none, w)) ++ parts)

/-- `probe_slabs`, the sizes tried in this order. -/
def probeSlabsIn (sizes : List ℕ) (d : Disk) : Option String × List SlabPart :=
  match d.read 0 512 with
  | none => (none, [])
  | some head =>
    if isSlabHeader head then (describeSlabs true [], [⟨none, "", "unknown", 0⟩])
    else if head.hasAt 0 stormraidMagic then (some stormraidHolder, [])
    else
      match gptTableIn sizes d with
      | none => (none, [])
      | some (lbs, ps) =>
        let parts := slabPartitions d lbs ps
        (describeSlabs false (parts.map GptPartition.probeLabel),
          parts.map fun p =>
            ⟨some p.index, p.name, slabRole p.typeGuid, mul64 p.firstLba lbs⟩)

lemma holdsIn_order (d : Disk) : holdsIn [512, 4096] d = holds d := rfl

lemma probeSlabsIn_order (d : Disk) : probeSlabsIn [512, 4096] d = probeSlabs d := rfl

/-! ## What the readers look at -/

namespace Buf

/-- A magic number whose first byte is not there is not there. -/
lemma hasAt_eq_false {b : Buf} {off : ℕ} {m : UInt8} {magic : List UInt8} (h : b.byte off ≠ m) :
    b.hasAt off (m :: magic) = false := by
  rw [hasAt, List.zipIdx_cons, List.all_cons, Nat.add_zero, beq_eq_false_iff_ne.mpr h,
    Bool.false_and, Bool.and_false]

end Buf

/-- No signature begins with the bytes that are there. -/
lemma fsSignature_eq_none {b : Buf} (start : b.byte 0 = 0) (ntfs : b.byte 3 = 0)
    (lvm : b.byte 24 = 0) (fat : b.byte 54 = 0) (fat32 : b.byte 82 = 0)
    (lvmNext : b.byte 0x218 ≠ 0x4C) (ext : b.byte 0x438 ≠ 0x53) (swap : b.byte 4086 = 0)
    (raid : b.byte 4096 ≠ 0xFC) (btrfs : b.byte 0x10040 = 0) : fsSignature b = none := by
  have no : ∀ {off : ℕ} {m : UInt8} {magic : List UInt8}, b.byte off = 0 → m ≠ 0 →
      b.hasAt off (m :: magic) = false := fun zero some =>
    Buf.hasAt_eq_false (by rw [zero]; exact some.symm)
  have slab : b.hasAt 0 slabMagic = false := no start (by decide)
  have member : b.hasAt 0 stormraidMagic = false := no start (by decide)
  have luks : b.hasAt 0 (ascii "LUKS" ++ [0xBA, 0xBE]) = false := no start (by decide)
  have xfs : b.hasAt 0 (ascii "XFSB") = false := no start (by decide)
  have ntfs : b.hasAt 3 (ascii "NTFS    ") = false := no ntfs (by decide)
  have ext : b.hasAt 0x438 [0x53, 0xEF] = false := Buf.hasAt_eq_false ext
  have btrfs : b.hasAt 0x10040 (ascii "_BHRfS_M") = false := no btrfs (by decide)
  have lvmNext : b.hasAt 0x218 (ascii "LVM2 001") = false := Buf.hasAt_eq_false lvmNext
  have lvm : b.hasAt 0x018 (ascii "LVM2 001") = false := no lvm (by decide)
  have swap2 : b.hasAt 4086 (ascii "SWAPSPACE2") = false := no swap (by decide)
  have swap : b.hasAt 4086 (ascii "SWAP-SPACE") = false := no swap (by decide)
  have md12 : b.hasAt 4096 [0xFC, 0x4E, 0x2B, 0xA9] = false := Buf.hasAt_eq_false raid
  have md11 : b.hasAt 0 [0xFC, 0x4E, 0x2B, 0xA9] = false := no start (by decide)
  have fat32 : b.hasAt 82 (ascii "FAT32   ") = false := no fat32 (by decide)
  have fat16 : b.hasAt 54 (ascii "FAT16   ") = false := no fat (by decide)
  have fat12 : b.hasAt 54 (ascii "FAT12   ") = false := no fat (by decide)
  simp only [fsSignature, slab, member, luks, xfs, ntfs, ext, btrfs, lvmNext, lvm, swap2, swap,
    md12, md11, fat32, fat16, fat12, Bool.false_eq_true, if_false, Bool.or_self, Bool.and_false]

/-- Zeros hold nothing. -/
lemma fsSignature_zeros {b : Buf} (zeros : ∀ i < signatureBytes, b.byte i = 0) :
    fsSignature b = none := by
  have zero : ∀ {i : ℕ} {m : UInt8}, i < signatureBytes → m ≠ 0 → b.byte i ≠ m :=
    fun h some => by rw [zeros _ h]; exact some.symm
  exact fsSignature_eq_none (zeros _ (by decide)) (zeros _ (by decide)) (zeros _ (by decide))
    (zeros _ (by decide)) (zeros _ (by decide)) (zero (by decide) (by decide))
    (zero (by decide) (by decide)) (zeros _ (by decide)) (zero (by decide) (by decide))
    (zeros _ (by decide))

/-! ## The first copy -/

section Front

variable {n blockSize : ℕ} {typeGuid diskGuid partGuid : Guid} {name : String}

/-- The header of the first copy. -/
def firstHeader (n blockSize : ℕ) (typeGuid : Guid) (name : String) (diskGuid partGuid : Guid) :
    List UInt8 :=
  header 1 (n - 1) (2 + entryLbas blockSize) (n - (2 + entryLbas blockSize)) diskGuid 2
    (crc32 (entryArray typeGuid partGuid (align blockSize) (partitionEnd n blockSize - 1) name))
    blockSize

lemma length_primary (numbers : Numbers n blockSize) :
    (tables n blockSize typeGuid name diskGuid partGuid).primary.length =
      2 * blockSize + 16384 := by
  simp only [tables, List.length_append, length_protectiveMbr n numbers.size,
    length_header _ _ _ _ _ _ _ numbers.size, length_entryArray]
  omega

/-- The first block: the MBR. -/
lemma slice_primary_mbr (numbers : Numbers n blockSize) {off len : ℕ} (fits : off + len ≤ blockSize) :
    slice (tables n blockSize typeGuid name diskGuid partGuid).primary off len =
      slice (protectiveMbr n blockSize) off len := by
  have mbr := length_protectiveMbr n numbers.size
  rw [tables, List.append_assoc, slice_append_left (by omega)]

/-- The second block: the header. -/
lemma slice_primary_header (numbers : Numbers n blockSize) {off len : ℕ}
    (fits : off + len ≤ blockSize) :
    slice (tables n blockSize typeGuid name diskGuid partGuid).primary (blockSize + off) len =
      slice (firstHeader n blockSize typeGuid name diskGuid partGuid) off len := by
  have mbr := length_protectiveMbr n numbers.size
  have hdr := length_header 1 (n - 1) (2 + entryLbas blockSize) (n - (2 + entryLbas blockSize))
    diskGuid 2
    (crc32 (entryArray typeGuid partGuid (align blockSize) (partitionEnd n blockSize - 1) name))
    numbers.size
  have start : blockSize + off - blockSize = off := by omega
  rw [tables, slice_append_left (by rw [List.length_append]; omega),
    slice_append_right (by omega), mbr, start]
  rfl

/-- Then the array. -/
lemma slice_primary_array (numbers : Numbers n blockSize) (off len : ℕ) :
    slice (tables n blockSize typeGuid name diskGuid partGuid).primary (2 * blockSize + off) len =
      slice (entryArray typeGuid partGuid (align blockSize) (partitionEnd n blockSize - 1) name)
        off len := by
  have mbr := length_protectiveMbr n numbers.size
  have hdr := length_header 1 (n - 1) (2 + entryLbas blockSize) (n - (2 + entryLbas blockSize))
    diskGuid 2
    (crc32 (entryArray typeGuid partGuid (align blockSize) (partitionEnd n blockSize - 1) name))
    numbers.size
  have start : 2 * blockSize + off - (blockSize + blockSize) = off := by omega
  rw [tables, slice_append_right (by rw [List.length_append]; omega), List.length_append, mbr, hdr,
    start]

/-- The MBR is empty before its one partition, and behind the first 512 bytes. -/
lemma slice_protectiveMbr_zeros (room : 512 ≤ blockSize) {off len : ℕ}
    (outside : off + len ≤ 447 ∨ 512 ≤ off) (fits : off + len ≤ blockSize) :
    slice (protectiveMbr n blockSize) off len = List.replicate len 0 := by
  have all : ∀ s ∈ [(447, 3), (450, 1), (451, 3), (454, 4), (458, 4), (510, 2)],
      447 ≤ s.1 ∧ s.1 + s.2 ≤ 512 := by decide
  rw [protectiveMbr_eq, slice_putAll_of_apart, slice_replicate fits]
  · rw [List.length_replicate]
    exact fun s h => (all s h).2.trans room
  · intro s h
    have bounds := all s h
    exact outside.symm.imp (fun past => bounds.2.trans past) fun before => before.trans bounds.1

section Bytes

variable (numbers : Numbers n blockSize)

include numbers

lemma primary_start {i : ℕ} (h : i < 447) :
    (tables n blockSize typeGuid name diskGuid partGuid).primary.getD i 0 = 0 := by
  have room := numbers.size
  have part : slice (tables n blockSize typeGuid name diskGuid partGuid).primary 0 447 =
      List.replicate 447 0 := (slice_primary_mbr numbers (by omega)).trans
    (slice_protectiveMbr_zeros room (.inl (by omega)) (by omega))
  have zero := getD_of_slice part h
  rwa [Nat.zero_add] at zero

lemma primary_block {i : ℕ} (past : 512 ≤ i) (h : i < blockSize) :
    (tables n blockSize typeGuid name diskGuid partGuid).primary.getD i 0 = 0 := by
  have part : slice (tables n blockSize typeGuid name diskGuid partGuid).primary 512
      (blockSize - 512) = List.replicate (blockSize - 512) 0 :=
    (slice_primary_mbr numbers (by omega)).trans
      (slice_protectiveMbr_zeros numbers.size (.inr (by omega)) (by omega))
  have zero := getD_of_slice part (i := i - 512) (by omega)
  rwa [Nat.add_sub_cancel' past] at zero

lemma primary_array {i : ℕ} (past : 128 ≤ i) (h : i < 16384) :
    (tables n blockSize typeGuid name diskGuid partGuid).primary.getD (2 * blockSize + i) 0 = 0 := by
  have part : slice (tables n blockSize typeGuid name diskGuid partGuid).primary
      (2 * blockSize + 128) (16384 - 128) = List.replicate (16384 - 128) 0 :=
    (slice_primary_array numbers 128 _).trans
      (slice_entryArray_past _ _ _ _ _ (by omega) (by omega))
  have zero := getD_of_slice part (i := i - 128) (by omega)
  rwa [Nat.add_assoc, Nat.add_sub_cancel' past] at zero

/-- The first byte of a field of the header. -/
lemma primary_header {f : ℕ × List UInt8} (some : 0 < f.2.length) (fits : f.1 + f.2.length ≤ 512)
    (field : f ∈ headerFields 1 (n - 1) (2 + entryLbas blockSize) (n - (2 + entryLbas blockSize))
      diskGuid 2 (crc32 (entryArray typeGuid partGuid (align blockSize)
        (partitionEnd n blockSize - 1) name))) :
    (tables n blockSize typeGuid name diskGuid partGuid).primary.getD (blockSize + f.1) 0 =
      f.2.getD 0 0 := by
  have room := numbers.size
  have part := slice_header _ _ _ _ _ _ _ room field
  rw [← Nat.add_zero (blockSize + f.1), ← getD_slice some, slice_primary_header numbers (by omega),
    firstHeader, part]

/-- The first letter of the name. -/
lemma primary_name (some : 0 < (nameBytes name).length) :
    (tables n blockSize typeGuid name diskGuid partGuid).primary.getD (2 * blockSize + 56) 0 =
      (nameBytes name).getD 0 0 := by
  have part := slice_entryArray typeGuid partGuid (align blockSize) (partitionEnd n blockSize - 1)
    name (f := (56, nameBytes name)) (by simp [entryFields])
  rw [← Nat.add_zero (2 * blockSize + 56), ← getD_slice some, slice_primary_array numbers, part]

lemma primary_past {i : ℕ} (h : 2 * blockSize + 16384 ≤ i) :
    (tables n blockSize typeGuid name diskGuid partGuid).primary.getD i 0 = 0 :=
  List.getD_eq_default _ _ (le_of_eq_of_le (length_primary numbers) h)

end Bytes

/-- **The first copy looks like no signature**, as long as the name does not begin like an ext
superblock.

**Proof sketch.** Every offset at which a magic number is looked for is in the zeros of the MBR, in
the zeros of the array, or past both, but for three: the number of the header's own block and the
first letter of the name (with blocks of 512 bytes), and the magic of the header (with 4096). -/
lemma fsSignature_primary (size : blockSize = 512 ∨ blockSize = 4096) (numbers : Numbers n blockSize)
    (some : 0 < (nameBytes name).length) (letter : (nameBytes name).getD 0 0 ≠ 0x53) {b : Buf}
    (bytes : ∀ i < signatureBytes, b.byte i =
      (tables n blockSize typeGuid name diskGuid partGuid).primary.getD i 0) :
    fsSignature b = none := by
  have start : ∀ i < 447, b.byte i = 0 := fun i h =>
    (bytes i (by unfold signatureBytes; omega)).trans (primary_start numbers h)
  have btrfs : b.byte 0x10040 = 0 :=
    (bytes _ (by decide)).trans (primary_past numbers (by omega))
  obtain rfl | rfl := size
  · have lvm : b.byte 0x218 = 1 := (bytes _ (by decide)).trans
      (primary_header numbers (f := (24, le 8 1)) (by decide) (by decide) (by simp [headerFields]))
    have ext : b.byte 0x438 = (nameBytes name).getD 0 0 := (bytes _ (by decide)).trans
      (primary_name numbers some)
    have swap : b.byte 4086 = 0 := (bytes _ (by decide)).trans
      (primary_array numbers (i := 3062) (by decide) (by decide))
    have raid : b.byte 4096 = 0 := (bytes _ (by decide)).trans
      (primary_array numbers (i := 3072) (by decide) (by decide))
    exact fsSignature_eq_none (start _ (by decide)) (start _ (by decide)) (start _ (by decide))
      (start _ (by decide)) (start _ (by decide)) (by rw [lvm]; decide) (by rw [ext]; exact letter)
      swap (by rw [raid]; decide) btrfs
  · have block : ∀ i, 512 ≤ i → i < 4096 → b.byte i = 0 := fun i past h =>
      (bytes i (by unfold signatureBytes; omega)).trans (primary_block numbers past h)
    have raid : b.byte 4096 = 0x45 := (bytes _ (by decide)).trans
      (primary_header numbers (f := (0, ascii "EFI PART")) (by decide) (by decide)
        (by simp [headerFields]))
    exact fsSignature_eq_none (start _ (by decide)) (start _ (by decide)) (start _ (by decide))
      (start _ (by decide)) (start _ (by decide))
      (by rw [block _ (by decide) (by decide)]; decide)
      (by rw [block _ (by decide) (by decide)]; decide) (block _ (by decide) (by decide))
      (by rw [raid]; decide) btrfs

end Front

/-! ## The disk that is written -/

/-- Where the images of a layout lie on a disk of `size` bytes. -/
structure Placed (l : Gpt.Layout) (size : ℕ) : Prop where
  primary : l.primary.length ≤ 2 ^ 20
  backup : 3 * 2 ^ 20 ≤ l.backupOffset
  ends : l.backupOffset + l.backup.length ≤ size
  close : size ≤ l.backupOffset + 2 ^ 20

lemma placed_tables {size blockSize : ℕ} {typeGuid diskGuid partGuid : Guid} {name : String}
    (known : blockSize = 512 ∨ blockSize = 4096) (numbers : Numbers (size / blockSize) blockSize) :
    Placed (tables (size / blockSize) blockSize typeGuid name diskGuid partGuid) size := by
  have backupLength : (tables (size / blockSize) blockSize typeGuid name diskGuid
      partGuid).backup.length = 16384 + blockSize := by
    simp only [tables, List.length_append, length_header _ _ _ _ _ _ _ numbers.size,
      length_entryArray]
  have primaryLength : (tables (size / blockSize) blockSize typeGuid name diskGuid
      partGuid).primary.length = 2 * blockSize + 16384 := length_primary numbers
  have offset : (tables (size / blockSize) blockSize typeGuid name diskGuid partGuid).backupOffset =
    (size / blockSize - 1 - entryLbas blockSize) * blockSize := rfl
  obtain ⟨-, room, array, mebi, more, fits, q, whole⟩ := numbers
  have small : entryLbas 512 = 32 ∧ align 512 = 2048 := by decide
  have large : entryLbas 4096 = 4 ∧ align 4096 = 256 := by decide
  refine ⟨?_, ?_, ?_, ?_⟩
  all_goals
    obtain rfl | rfl := known
    · rw [small.1, small.2] at *
      omega
    · rw [large.1, large.2] at *
      omega

/-- The disk when both ends are cleared and both copies written. -/
def written (d : Disk) (l : Gpt.Layout) : Disk :=
  let zero := List.replicate (min clearBytes (d.size / 2)) 0
  (((d.over zero 0).over zero (d.size - zero.length)).over l.primary 0).over l.backup
    l.backupOffset

section Written

variable {d : Disk} {l : Gpt.Layout} (placed : Placed l d.size)

include placed

/-- No write is refused. -/
lemma writeLayout_eq : writeLayout d d.size l = .ok (written d l) := by
  obtain ⟨primary, backup, ends, -⟩ := placed
  have window : (List.replicate (min clearBytes (d.size / 2)) (0 : UInt8)).length ≤ d.size := by
    rw [List.length_replicate]
    omega
  unfold writeLayout written
  generalize List.replicate (min clearBytes (d.size / 2)) (0 : UInt8) = zero at window ⊢
  have put : ∀ (c : Disk) {buf : List UInt8} {off : ℕ}, c.size = d.size →
      off + buf.length ≤ d.size → c.put buf off = .ok (c.over buf off) :=
    fun c _ _ same fits => Disk.put_eq (same ▸ fits)
  have head := put d rfl ((Nat.zero_add zero.length).trans_le window)
  have tail := put (d.over zero 0) rfl (by omega : d.size - zero.length + zero.length ≤ d.size)
  have table := put ((d.over zero 0).over zero (d.size - zero.length)) rfl
    (by omega : 0 + l.primary.length ≤ d.size)
  have copy := put (((d.over zero 0).over zero (d.size - zero.length)).over l.primary 0) rfl ends
  simp only [bind, Except.bind, head, tail, table, copy, Except.mapError]

/-- The first part of the disk is the first copy, and zeros. -/
lemma byte_front {i : ℕ} (h : i < 3 * 2 ^ 19) : (written d l).byte i = l.primary.getD i 0 := by
  obtain ⟨primary, backup, ends, -⟩ := placed
  unfold written clearBytes
  rw [Disk.byte_over_of_not_mem (by omega)]
  by_cases inside : i < l.primary.length
  · rw [Disk.byte_over_of_mem (Nat.zero_le i) (by omega), Nat.sub_zero]
  · rw [Disk.byte_over_of_not_mem (by omega), List.getD_eq_default _ _ (Nat.not_lt.mp inside)]
    have length : (List.replicate (min clearBytes (d.size / 2)) (0 : UInt8)).length =
      min clearBytes (d.size / 2) := List.length_replicate
    unfold clearBytes at length
    by_cases late : d.size - (List.replicate (min clearBytes (d.size / 2)) (0 : UInt8)).length ≤ i
    · unfold clearBytes at late
      rw [Disk.byte_over_of_mem late (by omega), List.getD_replicate]
      omega
    · unfold clearBytes at late
      rw [Disk.byte_over_of_not_mem (by omega), Disk.byte_over_of_mem (Nat.zero_le i) (by omega),
        List.getD_replicate]
      omega

/-- Between the two ends nothing changes. -/
lemma byte_middle {i : ℕ} (past : min clearBytes (d.size / 2) ≤ i)
    (before : i < d.size - min clearBytes (d.size / 2)) : (written d l).byte i = d.byte i := by
  obtain ⟨primary, backup, ends, close⟩ := placed
  have length : (List.replicate (min clearBytes (d.size / 2)) (0 : UInt8)).length =
    min clearBytes (d.size / 2) := List.length_replicate
  have window : 2 ^ 20 ≤ min clearBytes (d.size / 2) := by
    unfold clearBytes
    omega
  unfold written
  rw [Disk.byte_over_of_not_mem (by omega), Disk.byte_over_of_not_mem (by omega),
    Disk.byte_over_of_not_mem (by omega), Disk.byte_over_of_not_mem (by omega)]

/-- What the writes leave. -/
lemma writeLayout_run : ∃ c, writeLayout d d.size l = .ok c ∧ c.size = d.size ∧
    (∀ i < 3 * 2 ^ 19, c.byte i = l.primary.getD i 0) ∧
    ∀ i, min clearBytes (d.size / 2) ≤ i → i < d.size - min clearBytes (d.size / 2) →
      c.byte i = d.byte i :=
  ⟨written d l, writeLayout_eq placed, rfl, fun _ h => byte_front placed h,
    fun _ past before => byte_middle placed past before⟩

end Written

/-! ## What is read back -/

section Clean

variable {d : Disk} {blockSize : ℕ} {typeGuid diskGuid partGuid : Guid} {name : String}

/-- A part of the first copy that is read. -/
lemma bytes_read {c : Disk} {primary : List UInt8} {off len : ℕ}
    (front : ∀ i < 3 * 2 ^ 19, c.byte i = primary.getD i 0) (within : off + len ≤ primary.length)
    (near : off + len ≤ 3 * 2 ^ 19) :
    (⟨len, fun i => c.byte (off + i)⟩ : Buf).bytes = slice primary off len := by
  apply List.ext_getElem?
  intro i
  rw [Buf.getElem?_bytes, getElem?_slice]
  by_cases h : i < len
  · rw [if_pos h, if_pos h, List.getElem?_eq_getElem (by omega)]
    exact congrArg some ((front _ (by omega)).trans (List.getD_eq_getElem _ _ (by omega)))
  · rw [if_neg h, if_neg h]

/-- A block that does not begin like a header is none. -/
lemma parseGptHeader_eq_none {b : Buf} (h : b.byte 0 ≠ 0x45) : parseGptHeader b = none := by
  have magic : b.hasAt 0 (ascii "EFI PART") = false := Buf.hasAt_eq_false h
  rw [parseGptHeader, magic]
  simp only [Bool.not_false, Bool.or_true, if_true]

lemma read_eq {c : Disk} {off len : ℕ} (fits : off + len ≤ c.size) :
    c.read off len = some ⟨len, fun i => c.byte (off + i)⟩ := if_pos fits

variable {n : ℕ} {c : Disk} (known : blockSize = 512 ∨ blockSize = 4096)
  (numbers : Numbers n blockSize) (room : 3 * 2 ^ 19 ≤ c.size)
  (front : ∀ i < 3 * 2 ^ 19, c.byte i =
    (tables n blockSize typeGuid name diskGuid partGuid).primary.getD i 0)

include known numbers room front

/-- The table is found with the size of an LBA that it was written for. -/
lemma tableAt_self (range : n < 2 ^ 64) (typed : ¬ typeGuid.bytes.all (· == 0))
    (short : (encodeUtf16 name.toList).length ≤ 36) (noNul : ∀ a ∈ name.toList, a.toNat ≠ 0) :
    tableAt c blockSize = some (blockSize, [⟨1, align blockSize, name, typeGuid.bytes⟩]) := by
  have length : (tables n blockSize typeGuid name diskGuid partGuid).primary.length =
      2 * blockSize + 16384 := length_primary numbers
  have size : blockSize ≤ 4096 := by omega
  have least := numbers.size
  have field := @slice_header 1 (n - 1) (2 + entryLbas blockSize) (n - (2 + entryLbas blockSize))
    diskGuid 2 (crc32 (entryArray typeGuid partGuid (align blockSize)
      (partitionEnd n blockSize - 1) name)) blockSize least
  simp only [headerFields, List.forall_mem_cons, length_le] at field
  obtain ⟨magic, -, -, -, -, -, -, -, entriesField, countField, sizeField, -⟩ := field
  have hdr : (⟨512, fun i => c.byte (blockSize + i)⟩ : Buf).bytes =
      slice (firstHeader n blockSize typeGuid name diskGuid partGuid) 0 512 := by
    rw [bytes_read front (by omega) (by omega), ← slice_primary_header numbers (by omega)]
    rfl
  have header : parseGptHeader ⟨512, fun i => c.byte (blockSize + i)⟩ =
      some ⟨2, entryCount, entrySize⟩ := by
    apply parseGptHeader_eq (by decide : 92 ≤ 512) _ _ _ _ (by decide) (by decide)
    · rw [hdr, slice_slice (by omega)]
      exact magic
    · rw [hdr, slice_slice (by omega)]
      exact entriesField
    · rw [hdr, slice_slice (by omega)]
      exact countField
    · rw [hdr, slice_slice (by omega)]
      exact sizeField
  have product : entryCount * entrySize = 16384 := rfl
  have lba : mul64 2 blockSize = 2 * blockSize := Nat.mod_eq_of_lt (by omega)
  have array : (⟨16384, fun i => c.byte (2 * blockSize + i)⟩ : Buf).bytes =
      entryArray typeGuid partGuid (align blockSize) (partitionEnd n blockSize - 1) name := by
    rw [bytes_read front (by omega) (by omega), ← Nat.add_zero (2 * blockSize),
      slice_primary_array numbers, slice_all (length_entryArray ..)]
  obtain ⟨-, -, -, mebi, more, below, -⟩ := numbers
  have start : 0 < align blockSize := Nat.pos_of_ne_zero fun none => by
    rw [none, Nat.zero_mul] at mebi
    omega
  have entries : parseGptEntries ⟨16384, fun i => c.byte (2 * blockSize + i)⟩
      ⟨2, entryCount, entrySize⟩ = [⟨1, align blockSize, name, typeGuid.bytes⟩] :=
    parseGptEntries_entryArray array typed start (by omega) (by omega) short noNul
  rw [tableAt, read_eq (by omega), Option.bind_some, header]
  dsimp only
  rw [lba, product, read_eq (by omega), Option.map_some, entries]

/-- With the other size there is none. -/
lemma tableAt_other {lbs : ℕ} (size : lbs = 512 ∨ lbs = 4096) (other : lbs ≠ blockSize) :
    tableAt c lbs = none := by
  have zero : c.byte (lbs + 0) = 0 := by
    rw [Nat.add_zero, front _ (by omega)]
    obtain rfl | rfl := known
    · obtain rfl : lbs = 4096 := by omega
      exact primary_array (i := 3072) numbers (by decide) (by decide)
    · obtain rfl : lbs = 512 := by omega
      exact primary_block numbers (by decide) (by decide)
  have none : parseGptHeader ⟨512, fun i => c.byte (lbs + i)⟩ = none :=
    parseGptHeader_eq_none (by dsimp only; rw [zero]; decide)
  rw [tableAt, read_eq (by omega), Option.bind_some, none]

/-- The table is found, whichever size is tried first. -/
lemma gptTableIn_eq {sizes : List ℕ} (order : sizes = [512, 4096] ∨ sizes = [4096, 512])
    (range : n < 2 ^ 64) (typed : ¬ typeGuid.bytes.all (· == 0))
    (short : (encodeUtf16 name.toList).length ≤ 36) (noNul : ∀ a ∈ name.toList, a.toNat ≠ 0) :
    gptTableIn sizes c = some (blockSize, [⟨1, align blockSize, name, typeGuid.bytes⟩]) := by
  have self := tableAt_self known numbers room front range typed short noNul
  have other : ∀ lbs, lbs = 512 ∨ lbs = 4096 → lbs ≠ blockSize → tableAt c lbs = none :=
    fun lbs size => tableAt_other known numbers room front size
  rw [gptTableIn]
  obtain rfl | rfl := known
  · have absent := other 4096 (.inr rfl) (by decide)
    obtain rfl | rfl := order
    · rw [List.findSome?_cons, self]
    · rw [List.findSome?_cons, absent, List.findSome?_cons, self]
  · have absent := other 512 (.inl rfl) (by decide)
    obtain rfl | rfl := order
    · rw [List.findSome?_cons, absent, List.findSome?_cons, self]
    · rw [List.findSome?_cons, self]

/-- The one partition begins with zeros. -/
lemma partition_read {len : ℕ} (h : len ≤ signatureBytes) :
    ∃ b : Buf, c.read (mul64 (align blockSize) blockSize) len = some b ∧
      ∀ i < signatureBytes, b.byte i = 0 := by
  have wide : signatureBytes = 69632 := rfl
  have start : mul64 (align blockSize) blockSize = 2 ^ 20 := by
    rw [mul64, numbers.mebi]
    rfl
  refine ⟨_, read_eq (by omega), fun i h => ?_⟩
  dsimp only
  rw [start, front _ (by omega)]
  exact primary_past numbers (by omega)

/-- **Both readers find nothing**, whichever size they try first. -/
lemma clean {sizes : List ℕ} (order : sizes = [512, 4096] ∨ sizes = [4096, 512])
    (range : n < 2 ^ 64) (typed : ¬ typeGuid.bytes.all (· == 0))
    (short : (encodeUtf16 name.toList).length ≤ 36) (noNul : ∀ a ∈ name.toList, a.toNat ≠ 0)
    (some : 0 < (nameBytes name).length) (letter : (nameBytes name).getD 0 0 ≠ 0x53) :
    holdsIn sizes c = none ∧ probeSlabsIn sizes c = (none, []) := by
  have wide : signatureBytes = 69632 := rfl
  have table := gptTableIn_eq known numbers room front order range typed short noNul
  have whole : (c.read 0 signatureBytes).bind fsSignature = none := by
    rw [read_eq (by omega), Option.bind_some]
    exact fsSignature_primary known numbers some letter fun i h =>
      (congrArg c.byte (Nat.zero_add i)).trans (front i (by omega))
  have part : partitionSignature c blockSize ⟨1, align blockSize, name, typeGuid.bytes⟩ = none := by
    obtain ⟨b, read, zeros⟩ := partition_read known numbers room front (le_refl _)
    rw [partitionSignature, read, Option.bind_some]
    exact fsSignature_zeros zeros
  have first : c.byte (0 + 0) = 0 := by
    rw [front _ (by omega)]
    exact primary_start numbers (by decide)
  constructor
  · have unsigned : List.filterMap (fun p => (partitionSignature c blockSize p).map fun w =>
        (Option.some p.label, w)) [⟨1, align blockSize, name, typeGuid.bytes⟩] = [] := by
      apply List.filterMap_eq_nil_iff.mpr
      intro p mem
      rw [List.mem_singleton.mp mem, part, Option.map_none]
    rw [holdsIn, whole, table]
    dsimp only
    rw [unsigned]
    rfl
  · have slab : isSlabHeader ⟨512, fun i => c.byte (0 + i)⟩ = false :=
      Buf.hasAt_eq_false (by dsimp only; rw [first]; decide)
    have raid : Buf.hasAt ⟨512, fun i => c.byte (0 + i)⟩ 0 stormraidMagic = false :=
      Buf.hasAt_eq_false (by dsimp only; rw [first]; decide)
    have none : slabPartitions c blockSize [⟨1, align blockSize, name, typeGuid.bytes⟩] = [] := by
      obtain ⟨b, read, zeros⟩ := partition_read known numbers room front
        (by decide : 512 ≤ signatureBytes)
      have other : isSlabHeader b = false :=
        Buf.hasAt_eq_false (by rw [zeros _ (by decide)]; decide)
      rw [slabPartitions, List.filter_singleton]
      dsimp only
      rw [read, Option.any_some, other]
      rfl
    rw [probeSlabsIn, read_eq (by omega)]
    simp only [slab, raid, Bool.false_eq_true, if_false, table, none]
    rfl

end Clean

/-! ## The partition step -/

/-- What is laid out are the tables of the drive. -/
lemma numbers_of_layout {capacity blockSize : ℕ} {typeGuid diskGuid partGuid : Guid} {name : String}
    {l : Gpt.Layout} (fits : capacity < 2 ^ 64) (known : blockSize = 512 ∨ blockSize = 4096)
    (laid : layout capacity blockSize typeGuid name diskGuid partGuid = .ok l) :
    Numbers (capacity / blockSize) blockSize ∧
      l = tables (capacity / blockSize) blockSize typeGuid name diskGuid partGuid := by
  rw [layout_eq fits known] at laid
  by_cases small : capacity / blockSize < 2 + entryLbas blockSize
  · rw [if_pos small] at laid
    exact absurd laid nofun
  · rw [if_neg small] at laid
    by_cases tight : partitionEnd (capacity / blockSize) blockSize ≤ 2 * align blockSize
    · rw [if_pos tight] at laid
      exact absurd laid nofun
    · rw [if_neg tight] at laid
      exact ⟨numbers known small tight, (Except.ok.inj laid).symm⟩

/-- What the readers need of the type and the name of a role. -/
lemma Role.named (role : Role) : ¬ role.typeGuid.bytes.all (· == 0) ∧
    (encodeUtf16 role.partitionName.toList).length ≤ 36 ∧
    (∀ a ∈ role.partitionName.toList, a.toNat ≠ 0) ∧
    0 < (nameBytes role.partitionName).length ∧
    (nameBytes role.partitionName).getD 0 0 ≠ 0x53 := by
  have named : role.partitionName.toList.all fun a => a.toNat ≠ 0 := by
    cases role with
    | data => decide
    | system => decide
  have each := fun a mem => of_decide_eq_true (List.all_eq_true.mp named a mem)
  cases role with
  | data => exact ⟨by decide, by decide, each, by decide, by decide⟩
  | system => exact ⟨by decide, by decide, each, by decide, by decide⟩

/-- **A partitioned disk reads as holding nothing**: whatever was on it, when there is a layout for
its size no write is refused, both readers find nothing afterwards, whichever size of an LBA they
try first, and only the two ends of the disk have changed.

**Proof sketch.** In front the disk is the first copy of the table and zeros (`byte_front`), in which
no reader finds a signature (`fsSignature_primary`) and every reader finds the one table, with a
partition that begins with zeros (`clean`). -/
theorem writeLayout_clean (role : Role) (d : Disk) {blockSize : ℕ} {diskGuid partGuid : Guid}
    {l : Gpt.Layout} (fits : d.size < 2 ^ 64) (known : blockSize = 512 ∨ blockSize = 4096)
    (laid : layout d.size blockSize role.typeGuid role.partitionName diskGuid partGuid = .ok l) :
    ∃ c, writeLayout d d.size l = .ok c ∧ c.size = d.size ∧
      holds c = none ∧ probeSlabs c = (none, []) ∧
      (∀ sizes, sizes = [512, 4096] ∨ sizes = [4096, 512] →
        holdsIn sizes c = none ∧ probeSlabsIn sizes c = (none, [])) ∧
      ∀ i, min clearBytes (d.size / 2) ≤ i → i < d.size - min clearBytes (d.size / 2) →
        c.byte i = d.byte i := by
  obtain ⟨typed, short, noNul, some, letter⟩ := role.named
  have range : d.size / blockSize < 2 ^ 64 := lt_of_le_of_lt (Nat.div_le_self _ _) fits
  obtain ⟨numbers, rfl⟩ := numbers_of_layout fits known laid
  have placed : Placed (tables (d.size / blockSize) blockSize role.typeGuid role.partitionName
    diskGuid partGuid) d.size := placed_tables known numbers
  obtain ⟨c, run, size, front, middle⟩ := writeLayout_run placed
  have room : 3 * 2 ^ 19 ≤ c.size := by
    have := placed.backup
    have := placed.ends
    omega
  have both : ∀ sizes, sizes = [512, 4096] ∨ sizes = [4096, 512] →
      holdsIn sizes c = none ∧ probeSlabsIn sizes c = (none, []) := fun sizes order =>
    clean known numbers room front order range typed short noNul some letter
  have normal := both _ (.inl rfl)
  rw [holdsIn_order, probeSlabsIn_order] at normal
  exact ⟨c, run, size, normal.1, normal.2, both, middle⟩

/-- A drive of 64 MiB with something in every byte. -/
theorem writeLayout_clean_used :
    ∃ l c, writeLayout ⟨2 ^ 26, fun _ => 0xEF⟩ (2 ^ 26) l = .ok c ∧ holds c = none ∧
      c.byte (2 ^ 25) = 0xEF := by
  have laid : layout (2 ^ 26) 512 Role.data.typeGuid Role.data.partitionName
      ⟨List.replicate 16 1, rfl⟩ ⟨List.replicate 16 2, rfl⟩ = .ok (tables ..) :=
    (layout_eq (by decide) (.inl rfl) ..).trans
      ((if_neg (by decide)).trans (if_neg (by decide)))
  obtain ⟨c, run, -, none, -, -, kept⟩ :=
    writeLayout_clean .data ⟨2 ^ 26, fun _ => 0xEF⟩ (by decide) (.inl rfl) laid
  exact ⟨_, c, run, none, kept _ (by decide) (by decide)⟩

end StormDrive
