import StormDrive.Contents
import StormDrive.Bytes.Layout
import StormDrive.Bytes.Checked

set_option relaxedAutoImplicit false
set_option autoImplicit false

/-!
# Partition tables

A GPT with one partition over the whole drive, as the bytes of its two copies (`gpt.rs`).

## Main definitions

* `Gpt.layout` — what is written, and where the partition landed.
* `Gpt.tables` — the same without the checks, for a drive of so many blocks.

## Main results

* `Gpt.slice_header`, `Gpt.slice_entryArray` — every field is in its place.
* `Gpt.sealed_header` — the CRC of a header verifies.
* `Gpt.layout_eq` — **when a table is laid out, and which**: no number goes out of range.

## Implementation notes

The arithmetic is checked: a `u64` that goes out of range is an outcome of its own.
-/

namespace StormDrive

namespace Gpt

open Bytes

/-! ## The bytes -/

/-- A GUID, as GPT stores it. -/
structure Guid where
  bytes : List UInt8
  sixteen : bytes.length = 16

/-- ENTRIES. -/
def entryCount : ℕ := 128

/-- ENTRY_SIZE. -/
def entrySize : ℕ := 128

/-- ALIGN_BYTES. -/
def alignBytes : ℕ := 2 ^ 20

/-- One bit of the CRC. -/
def crcBit (crc : UInt32) : UInt32 :=
  if crc &&& 1 ≠ 0 then (crc >>> 1) ^^^ 0xEDB88320 else crc >>> 1

/-- CRC-32 (IEEE 802.3), as GPT uses it. -/
def crc32 (data : List UInt8) : UInt32 :=
  ~~~ data.foldl (fun crc b => crcBit^[8] (crc ^^^ b.toUInt32)) 0xFFFFFFFF

example : crc32 (ascii "123456789") = 0xCBF43926 := by decide +kernel

/-- What to write, and where the partition landed. -/
structure Layout where
  primary : List UInt8
  backup : List UInt8
  backupOffset : ℕ
  firstLba : ℕ
  lastLba : ℕ
  blockSize : ℕ
  deriving DecidableEq

def Layout.partitionBytes (l : Layout) : ℕ := (l.lastLba - l.firstLba + 1) * l.blockSize

/-- A header before its own CRC is set. -/
def unsealedHeader (myLba altLba firstUsable lastUsable : ℕ) (diskGuid : Guid) (entriesLba : ℕ)
    (entriesCrc : UInt32) (blockSize : ℕ) : List UInt8 :=
  let h := List.replicate blockSize 0
  let h := put h 0 (ascii "EFI PART")
  let h := put h 8 (le 4 0x00010000)
  let h := put h 12 (le 4 92)
  let h := put h 24 (le 8 myLba)
  let h := put h 32 (le 8 altLba)
  let h := put h 40 (le 8 firstUsable)
  let h := put h 48 (le 8 lastUsable)
  let h := put h 56 diskGuid.bytes
  let h := put h 72 (le 8 entriesLba)
  let h := put h 80 (le 4 entryCount)
  let h := put h 84 (le 4 entrySize)
  put h 88 (le 4 entriesCrc.toNat)

def header (myLba altLba firstUsable lastUsable : ℕ) (diskGuid : Guid) (entriesLba : ℕ)
    (entriesCrc : UInt32) (blockSize : ℕ) : List UInt8 :=
  let h := unsealedHeader myLba altLba firstUsable lastUsable diskGuid entriesLba entriesCrc
    blockSize
  put h 16 (le 4 (crc32 (h.take 92)).toNat)

/-- The UTF-16 units of a text. -/
def encodeUtf16 (cs : List Char) : List ℕ :=
  cs.flatMap fun c =>
    if c.toNat < 0x10000 then [c.toNat]
    else [0xD800 + (c.toNat - 0x10000) / 0x400, 0xDC00 + (c.toNat - 0x10000) % 0x400]

/-- The entry array, with one entry. -/
def entryArray (typeGuid partGuid : Guid) (first last : ℕ) (name : String) : List UInt8 :=
  let e := List.replicate (entryCount * entrySize) 0
  let e := put e 0 typeGuid.bytes
  let e := put e 16 partGuid.bytes
  let e := put e 32 (le 8 first)
  let e := put e 40 (le 8 last)
  put e 56 (((encodeUtf16 name.toList).take 36).flatMap (le 2))

/-- Protective MBR: one partition over the disk, capped at `2 ^ 32 - 1`. -/
def protectiveMbr (total blockSize : ℕ) : List UInt8 :=
  let m := List.replicate blockSize 0
  let m := put m 447 [0x00, 0x02, 0x00]
  let m := put m 450 [0xEE]
  let m := put m 451 [0xFF, 0xFF, 0xFF]
  let m := put m 454 (le 4 1)
  let m := put m 458 (le 4 (min (total - 1) (2 ^ 32 - 1)))
  put m 510 [0x55, 0xAA]

/-- One partition, from the first 1 MiB boundary to the last one before the backup table. -/
def layout (capacityBytes blockSize : ℕ) (typeGuid : Guid) (name : String)
    (diskGuid partGuid : Guid) : Checked String Layout := do
  if blockSize ≠ 512 ∧ blockSize ≠ 4096 then
    Checked.fail ("block size " ++ toString blockSize ++ ": a GPT here needs 512 or 4096")
  else do
    let total ← Checked.div capacityBytes blockSize
    let entryLbas ← Checked.divCeil (entryCount * entrySize) blockSize
    let firstUsable ← Checked.add 2 entryLbas
    let lastUsable ←
      if firstUsable ≤ total then pure (total - firstUsable)
      else Checked.fail "drive too small for a GPT"
    let align ← Checked.div alignBytes blockSize
    let first ← Checked.divCeil firstUsable align
    let first ← Checked.mul first align
    let last ← Checked.add lastUsable 1
    let last ← Checked.div last align
    let last ← Checked.mul last align
    let least ← Checked.add first align
    if last ≤ least then
      Checked.fail ("drive too small: " ++ toString capacityBytes ++
        " bytes leaves no aligned partition")
    else do
      let last ← Checked.sub last 1
      let entries := entryArray typeGuid partGuid first last name
      let padded := entries ++ List.replicate (entryLbas * blockSize - entries.length) 0
      let backupHeaderLba ← Checked.sub total 1
      let backupEntriesLba ← Checked.sub backupHeaderLba entryLbas
      let backupOffset ← Checked.mul backupEntriesLba blockSize
      let primary := protectiveMbr total blockSize ++
        header 1 backupHeaderLba firstUsable lastUsable diskGuid 2 (crc32 entries) blockSize ++
        padded
      let backup := padded ++
        header backupHeaderLba 1 firstUsable lastUsable diskGuid backupEntriesLba (crc32 entries)
          blockSize
      pure ⟨primary, backup, backupOffset, first, last, blockSize⟩


/-! ## The records -/

section Records

variable (myLba altLba firstUsable lastUsable : ℕ) (diskGuid : Guid) (entriesLba : ℕ)
  (entriesCrc : UInt32) (blockSize : ℕ)

/-- The fields of a header. -/
def headerFields : List (ℕ × List UInt8) :=
  [(0, ascii "EFI PART"), (8, le 4 0x00010000), (12, le 4 92), (24, le 8 myLba), (32, le 8 altLba),
    (40, le 8 firstUsable), (48, le 8 lastUsable), (56, diskGuid.bytes), (72, le 8 entriesLba),
    (80, le 4 entryCount), (84, le 4 entrySize), (88, le 4 entriesCrc.toNat)]

lemma spans_headerFields :
    spans (headerFields myLba altLba firstUsable lastUsable diskGuid entriesLba entriesCrc) =
      [(0, 8), (8, 4), (12, 4), (24, 8), (32, 8), (40, 8), (48, 8), (56, 16), (72, 8), (80, 4),
        (84, 4), (88, 4)] := by
  simp only [spans, headerFields, List.map_cons, List.map_nil, length_le, diskGuid.sixteen]
  rfl

lemma unsealedHeader_eq :
    unsealedHeader myLba altLba firstUsable lastUsable diskGuid entriesLba entriesCrc blockSize =
      putAll (List.replicate blockSize 0)
        (headerFields myLba altLba firstUsable lastUsable diskGuid entriesLba entriesCrc) := rfl

variable {blockSize}

lemma fits_headerFields (room : 512 ≤ blockSize) :
    ∀ s ∈ spans (headerFields myLba altLba firstUsable lastUsable diskGuid entriesLba entriesCrc),
      s.1 + s.2 ≤ (List.replicate blockSize (0 : UInt8)).length := by
  rw [spans_headerFields, List.length_replicate]
  have all : ∀ s ∈ [(0, 8), (8, 4), (12, 4), (24, 8), (32, 8), (40, 8), (48, 8), (56, 16), (72, 8),
      (80, 4), (84, 4), (88, 4)], s.1 + s.2 ≤ 512 := by decide
  exact fun s h => (all s h).trans room

lemma length_unsealedHeader (room : 512 ≤ blockSize) :
    (unsealedHeader myLba altLba firstUsable lastUsable diskGuid entriesLba entriesCrc
      blockSize).length = blockSize := by
  rw [unsealedHeader_eq, length_putAll (fits_headerFields _ _ _ _ _ _ _ room),
    List.length_replicate]

lemma length_header (room : 512 ≤ blockSize) :
    (header myLba altLba firstUsable lastUsable diskGuid entriesLba entriesCrc blockSize).length =
      blockSize := by
  have length := length_unsealedHeader myLba altLba firstUsable lastUsable diskGuid entriesLba
    entriesCrc room
  rw [header, length_put (by rw [length, length_le]; omega), length]

/-- A field of a header. -/
lemma slice_header (room : 512 ≤ blockSize) {f : ℕ × List UInt8}
    (field : f ∈ headerFields myLba altLba firstUsable lastUsable diskGuid entriesLba entriesCrc) :
    slice (header myLba altLba firstUsable lastUsable diskGuid entriesLba entriesCrc blockSize)
      f.1 f.2.length = f.2 := by
  have length := length_unsealedHeader myLba altLba firstUsable lastUsable diskGuid entriesLba
    entriesCrc room
  have apart : ∀ s ∈ spans (headerFields myLba altLba firstUsable lastUsable diskGuid entriesLba
      entriesCrc), s.1 + s.2 ≤ 16 ∨ 16 + 4 ≤ s.1 := by
    rw [spans_headerFields]
    decide
  rw [header, slice_put_of_disjoint (by rw [length, length_le]; omega)
    (by rw [length_le]; exact apart _ (List.mem_map_of_mem field)), unsealedHeader_eq]
  refine slice_putAll (fits_headerFields _ _ _ _ _ _ _ room) ?_ field
  rw [spans_headerFields]
  decide

/-- The CRC of a header is that of the header without it. -/
def Sealed (hdr : List UInt8) : Prop :=
  (crc32 (put (hdr.take 92) 16 [0, 0, 0, 0])).toNat = ofLe (slice hdr 16 4)

lemma sealed_header (room : 512 ≤ blockSize) :
    Sealed (header myLba altLba firstUsable lastUsable diskGuid entriesLba entriesCrc
      blockSize) := by
  have length := length_unsealedHeader myLba altLba firstUsable lastUsable diskGuid entriesLba
    entriesCrc room
  have blank : slice ((unsealedHeader myLba altLba firstUsable lastUsable diskGuid entriesLba
      entriesCrc blockSize).take 92) 16 4 = [0, 0, 0, 0] := by
    have part : (unsealedHeader myLba altLba firstUsable lastUsable diskGuid entriesLba
      entriesCrc blockSize).take 92 = slice (unsealedHeader myLba altLba firstUsable lastUsable
        diskGuid entriesLba entriesCrc blockSize) 0 92 := by rw [slice, List.drop_zero]
    rw [part, slice_slice (by omega), unsealedHeader_eq,
      slice_putAll_of_apart (fits_headerFields _ _ _ _ _ _ _ room), slice_replicate (by omega)]
    · rfl
    · rw [spans_headerFields]
      decide
  unfold Sealed header
  generalize unsealedHeader myLba altLba firstUsable lastUsable diskGuid entriesLba
    entriesCrc blockSize = h at length blank
  have front : (h.take 92).length = 92 := by
    rw [List.length_take]
    omega
  have zeroed : put ((put h 16 (le 4 (crc32 (h.take 92)).toNat)).take 92) 16 [0, 0, 0, 0] =
      h.take 92 := by
    rw [take_put (by rw [length_le]; omega) (by rw [length_le]; omega), ← blank]
    exact put_put_slice (by omega) (length_le _ _)
  have crc := @slice_put _ h (le 4 (crc32 (h.take 92)).toNat) 16
    (by rw [length_le]; omega)
  rw [length_le] at crc
  dsimp only
  rw [zeroed, crc, ofLe_le_of_lt]
  exact UInt32.toNat_lt _

end Records

section Array

variable (typeGuid partGuid : Guid) (first last : ℕ) (name : String)

/-- The name of an entry, as bytes. -/
def nameBytes : List UInt8 := ((encodeUtf16 name.toList).take 36).flatMap (le 2)

lemma length_nameBytes : (nameBytes name).length = 2 * min 36 (encodeUtf16 name.toList).length := by
  rw [nameBytes, length_pieces (length_le 2), List.length_take]

/-- The fields of the entry array. -/
def entryFields : List (ℕ × List UInt8) :=
  [(0, typeGuid.bytes), (16, partGuid.bytes), (32, le 8 first), (40, le 8 last),
    (56, nameBytes name)]

lemma spans_entryFields : spans (entryFields typeGuid partGuid first last name) =
    [(0, 16), (16, 16), (32, 8), (40, 8), (56, 2 * min 36 (encodeUtf16 name.toList).length)] := by
  simp only [spans, entryFields, List.map_cons, List.map_nil, length_le, typeGuid.sixteen,
    partGuid.sixteen, length_nameBytes]

lemma entryArray_eq : entryArray typeGuid partGuid first last name =
    putAll (List.replicate 16384 0) (entryFields typeGuid partGuid first last name) := rfl

lemma fits_entryFields : ∀ s ∈ spans (entryFields typeGuid partGuid first last name),
    s.1 + s.2 ≤ (List.replicate 16384 (0 : UInt8)).length := by
  rw [spans_entryFields, List.length_replicate]
  simp only [List.forall_mem_cons]
  refine ⟨by omega, by omega, by omega, by omega, by omega, ?_⟩
  exact fun s h => absurd h List.not_mem_nil

@[simp] lemma length_entryArray :
    (entryArray typeGuid partGuid first last name).length = 16384 := by
  rw [entryArray_eq, length_putAll (fits_entryFields _ _ _ _ _), List.length_replicate]

/-- A field of the entry. -/
lemma slice_entryArray {f : ℕ × List UInt8}
    (field : f ∈ entryFields typeGuid partGuid first last name) :
    slice (entryArray typeGuid partGuid first last name) f.1 f.2.length = f.2 := by
  rw [entryArray_eq]
  refine slice_putAll (fits_entryFields _ _ _ _ _) ?_ field
  rw [spans_entryFields]
  simp only [List.pairwise_cons, List.forall_mem_cons, Apart]
  refine ⟨⟨by omega, by omega, by omega, by omega, ?_⟩, ⟨by omega, by omega, by omega, ?_⟩,
    ⟨by omega, by omega, ?_⟩, ⟨by omega, ?_⟩, ?_, .nil⟩
  all_goals exact fun s h => absurd h List.not_mem_nil

/-- Past the name there are zeros. -/
lemma slice_entryArray_past {pos len : ℕ}
    (past : 56 + 2 * min 36 (encodeUtf16 name.toList).length ≤ pos) (fits : pos + len ≤ 16384) :
    slice (entryArray typeGuid partGuid first last name) pos len = List.replicate len 0 := by
  rw [entryArray_eq, slice_putAll_of_apart (fits_entryFields _ _ _ _ _), slice_replicate fits]
  rw [spans_entryFields]
  simp only [List.forall_mem_cons, Apart]
  refine ⟨by omega, by omega, by omega, by omega, by omega, ?_⟩
  exact fun s h => absurd h List.not_mem_nil

end Array

lemma protectiveMbr_eq (total blockSize : ℕ) :
    protectiveMbr total blockSize = putAll (List.replicate blockSize 0)
      [(447, [0x00, 0x02, 0x00]), (450, [0xEE]), (451, [0xFF, 0xFF, 0xFF]), (454, le 4 1),
        (458, le 4 (min (total - 1) (2 ^ 32 - 1))), (510, [0x55, 0xAA])] := rfl

lemma length_protectiveMbr (total : ℕ) {blockSize : ℕ} (room : 512 ≤ blockSize) :
    (protectiveMbr total blockSize).length = blockSize := by
  rw [protectiveMbr_eq, length_putAll, List.length_replicate]
  have all : ∀ s ∈ [(447, 3), (450, 1), (451, 3), (454, 4), (458, 4), (510, 2)],
      s.1 + s.2 ≤ 512 := by decide
  rw [List.length_replicate]
  exact fun s h => (all s h).trans room

/-! ## The numbers -/

/-- How many blocks the entry array takes. -/
def entryLbas (blockSize : ℕ) : ℕ := entryCount * entrySize / blockSize

/-- How many blocks are 1 MiB. -/
def align (blockSize : ℕ) : ℕ := alignBytes / blockSize

/-- Where the last aligned partition ends. -/
def partitionEnd (total blockSize : ℕ) : ℕ :=
  (total - (2 + entryLbas blockSize) + 1) / align blockSize * align blockSize

/-- The tables of a drive of so many blocks. -/
def tables (total blockSize : ℕ) (typeGuid : Guid) (name : String) (diskGuid partGuid : Guid) :
    Layout :=
  let reserved := 2 + entryLbas blockSize
  let last := partitionEnd total blockSize - 1
  let entries := entryArray typeGuid partGuid (align blockSize) last name
  let backupEntriesLba := total - 1 - entryLbas blockSize
  { primary := protectiveMbr total blockSize ++
      header 1 (total - 1) reserved (total - reserved) diskGuid 2 (crc32 entries) blockSize ++
      entries
    backup := entries ++
      header (total - 1) 1 reserved (total - reserved) diskGuid backupEntriesLba (crc32 entries)
        blockSize
    backupOffset := backupEntriesLba * blockSize
    firstLba := align blockSize
    lastLba := last
    blockSize := blockSize }

/-- What the block size decides. -/
structure Sizes (blockSize : ℕ) : Prop where
  pos : blockSize ≠ 0
  array : entryLbas blockSize * blockSize = 16384
  whole : (Checked.divCeil (entryCount * entrySize) blockSize : Checked String ℕ) =
    .ok (entryLbas blockSize)
  mebi : align blockSize * blockSize = 2 ^ 20
  first : (Checked.divCeil (2 + entryLbas blockSize) (align blockSize) : Checked String ℕ) = .ok 1
  least : 2 + entryLbas blockSize ≤ align blockSize

lemma sizes {blockSize : ℕ} (size : blockSize = 512 ∨ blockSize = 4096) : Sizes blockSize := by
  obtain rfl | rfl := size
  · exact ⟨by decide, by decide, by decide, by decide, by decide, by decide⟩
  · exact ⟨by decide, by decide, by decide, by decide, by decide, by decide⟩

/-- **When a table is laid out**: exactly when the partition is larger than 1 MiB, and no number
goes out of range.

**Proof sketch.** The operations are taken in the order of the source, each with the bound that
keeps it in range: the sums by the size of the drive, the products since rounding to 1 MiB and
back, or to blocks and back, makes a number no larger. -/
lemma layout_eq {capacity blockSize : ℕ} (fits : capacity < 2 ^ 64)
    (size : blockSize = 512 ∨ blockSize = 4096) (typeGuid : Guid) (name : String)
    (diskGuid partGuid : Guid) :
    layout capacity blockSize typeGuid name diskGuid partGuid =
      if capacity / blockSize < 2 + entryLbas blockSize then
        Checked.fail "drive too small for a GPT"
      else if partitionEnd (capacity / blockSize) blockSize ≤ 2 * align blockSize then
        Checked.fail ("drive too small: " ++ toString capacity ++
          " bytes leaves no aligned partition")
      else .ok (tables (capacity / blockSize) blockSize typeGuid name diskGuid partGuid) := by
  have known : ¬ (blockSize ≠ 512 ∧ blockSize ≠ 4096) := by omega
  obtain ⟨pos, array, whole, mebi, first, room⟩ := sizes size
  have padding : entryLbas blockSize * blockSize - 16384 = 0 := by omega
  have alignPos : align blockSize ≠ 0 := by omega
  have total := Checked.div_eq (E := String) (a := capacity) pos
  have le : capacity / blockSize ≤ capacity := Nat.div_le_self _ _
  have some : align blockSize ≤ 2 ^ 20 := by
    rw [← mebi]
    exact Nat.le_mul_of_pos_right _ (Nat.pos_of_ne_zero pos)
  have usable := Checked.add_eq (E := String) (a := 2) (b := entryLbas blockSize) (by omega)
  have aligned : (Checked.div alignBytes blockSize : Checked String ℕ) = .ok (align blockSize) :=
    Checked.div_eq pos
  have start := Checked.mul_eq (E := String) (a := 1) (b := align blockSize) (by omega)
  have least := Checked.add_eq (E := String) (a := 1 * align blockSize) (b := align blockSize)
    (by omega)
  unfold layout
  rw [if_neg known]
  simp only [total, whole, usable, bind, Except.bind, aligned]
  generalize ht : capacity / blockSize = n
  by_cases small : n < 2 + entryLbas blockSize
  · rw [if_pos small, if_neg (Nat.not_le.mpr small)]
    rfl
  · rw [if_neg small, if_pos (Nat.not_lt.mp small)]
    have next := Checked.add_eq (E := String) (a := n - (2 + entryLbas blockSize)) (b := 1)
      (by omega)
    have blocks := Checked.div_eq (E := String)
      (a := n - (2 + entryLbas blockSize) + 1) alignPos
    have below : partitionEnd n blockSize ≤ n - (2 + entryLbas blockSize) + 1 :=
      Nat.div_mul_le_self _ _
    have ends : (Checked.mul ((n - (2 + entryLbas blockSize) + 1) / align blockSize)
        (align blockSize) : Checked String ℕ) = .ok (partitionEnd n blockSize) :=
      Checked.mul_eq (lt_of_le_of_lt below (by omega))
    have twice : 1 * align blockSize + align blockSize = 2 * align blockSize := by omega
    have header := Checked.sub_eq (E := String) (a := n) (b := 1) (by omega)
    have array := Checked.sub_eq (E := String) (a := n - 1) (b := entryLbas blockSize) (by omega)
    have offset := Checked.mul_eq (E := String) (a := n - 1 - entryLbas blockSize) (b := blockSize)
      (by
        have whole : n * blockSize ≤ capacity := ht ▸ Nat.div_mul_le_self capacity blockSize
        have part : (n - 1 - entryLbas blockSize) * blockSize ≤ n * blockSize :=
          Nat.mul_le_mul_right _ (by omega)
        omega)
    simp only [pure, Except.pure, first, start, next, blocks, ends, least, twice]
    by_cases tight : partitionEnd n blockSize ≤ 2 * align blockSize
    · rw [if_pos tight, if_pos tight]
    · have last := Checked.sub_eq (E := String) (a := partitionEnd n blockSize) (b := 1) (by omega)
      rw [if_neg tight, if_neg tight]
      simp only [last, header, array, offset, tables, length_entryArray, padding, Nat.one_mul,
        List.replicate_zero, List.append_nil]

end Gpt

end StormDrive
