import Mathlib.Data.List.GetD
import StormDrive.Gpt

set_option relaxedAutoImplicit false
set_option autoImplicit false

/-!
# The table that is read back

The two copies of a partition table, as `gpt.rs` lays them out, against the reader of
`contents.rs`, which was written on its own.

## Main definitions

* `Gpt.Table` — the reader finds a table in an image, both CRCs verify, and it has one partition.
* `Gpt.RoundTrips` — both copies are such tables and point at each other, and the partition lies
  between them.
* `Gpt.Fits` — a partition of more than 1 MiB fits between the tables.

## Main results

* `Gpt.layout_round_trip` — **what is laid out is what is read**, for every capacity, and a table is
  laid out exactly when a partition fits.

## Implementation notes

The reader takes a buffer as a function to bytes. `Buf.bytes` is its list, in which the fields of a
record are found by the lemmas on layouts.
-/

namespace StormDrive

/-! ## Buffers as lists -/

namespace Buf

/-- The bytes of a buffer. -/
def bytes (b : Buf) : List UInt8 := (List.range b.len).map b.byte

/-- The buffer of a list of bytes. -/
def ofList (l : List UInt8) : Buf := ⟨l.length, fun i => l.getD i 0⟩

@[simp] lemma length_bytes (b : Buf) : b.bytes.length = b.len := by
  rw [bytes, List.length_map, List.length_range]

lemma getElem?_bytes (b : Buf) (i : ℕ) :
    b.bytes[i]? = if i < b.len then some (b.byte i) else none := by
  rw [bytes, List.getElem?_map]
  by_cases h : i < b.len
  · rw [if_pos h, List.getElem?_range h, Option.map_some]
  · rw [if_neg h, List.getElem?_eq_none (by rw [List.length_range]; omega), Option.map_none]

@[simp] lemma bytes_ofList (l : List UInt8) : (ofList l).bytes = l := by
  apply List.ext_getElem?
  intro i
  rw [getElem?_bytes]
  by_cases h : i < l.length
  · rw [List.getElem?_eq_getElem h]
    exact (if_pos h).trans (congrArg some (List.getD_eq_getElem _ _ h))
  · rw [List.getElem?_eq_none (Nat.not_lt.mp h)]
    exact if_neg h

/-- A part of a buffer, byte by byte. -/
lemma slice_bytes {b : Buf} {off n : ℕ} (fits : off + n ≤ b.len) :
    Bytes.slice b.bytes off n = (List.range n).map fun i => b.byte (off + i) := by
  apply List.ext_getElem?
  intro i
  rw [Bytes.getElem?_slice, getElem?_bytes, List.getElem?_map]
  by_cases h : i < n
  · rw [if_pos h, if_pos (by omega), List.getElem?_range h, Option.map_some]
  · rw [if_neg h, List.getElem?_eq_none (by rw [List.length_range]; omega), Option.map_none]

lemma bytes_slice {b : Buf} {off n : ℕ} (fits : off + n ≤ b.len) :
    (b.slice off n).bytes = Bytes.slice b.bytes off n := (slice_bytes fits).symm

/-- A number in a buffer is that of its bytes. -/
lemma leAt_eq {b : Buf} {off n : ℕ} (fits : off + n ≤ b.len) :
    b.leAt off n = Bytes.ofLe (Bytes.slice b.bytes off n) := by
  have fold : ∀ l : List UInt8, Bytes.ofLe l = l.foldr (fun b acc => b.toNat + 256 * acc) 0 := by
    intro l
    induction l with
    | nil => rfl
    | cons b l ih => rw [Bytes.ofLe, ih, List.foldr_cons]
  rw [slice_bytes fits, fold, List.foldr_map]
  rfl

/-- A magic number is there when the bytes are. -/
lemma hasAt_iff {b : Buf} {off : ℕ} {magic : List UInt8} (fits : off + magic.length ≤ b.len) :
    b.hasAt off magic = true ↔ Bytes.slice b.bytes off magic.length = magic := by
  rw [slice_bytes fits, hasAt, Bool.and_eq_true, decide_eq_true_eq, List.all_eq_true]
  constructor
  · rintro ⟨-, same⟩
    apply List.ext_getElem
    · rw [List.length_map, List.length_range]
    · intro i _ h
      have byte := same (magic[i], i) (List.mk_mem_zipIdx_iff_getElem?.mpr
        (List.getElem?_eq_getElem h))
      rw [List.getElem_map, List.getElem_range]
      exact beq_iff_eq.mp byte
  · intro same
    refine ⟨fits, ?_⟩
    rintro ⟨a, i⟩ mem
    have there := List.mk_mem_zipIdx_iff_getElem?.mp mem
    have h : i < magic.length := (List.getElem?_eq_some_iff.mp there).1
    rw [← same, List.getElem?_map, List.getElem?_range h, Option.map_some,
      Option.some.injEq] at there
    exact beq_iff_eq.mpr there

end Buf

namespace Gpt

open Bytes

/-! ## The header -/

/-- A header with its fields in place is read. -/
lemma parseGptHeader_eq {b : Buf} {entriesLba : ℕ} (long : 92 ≤ b.len)
    (magic : slice b.bytes 0 8 = ascii "EFI PART") (lba : slice b.bytes 72 8 = le 8 entriesLba)
    (count : slice b.bytes 80 4 = le 4 entryCount) (size : slice b.bytes 84 4 = le 4 entrySize)
    (past : 2 ≤ entriesLba) (range : entriesLba < 2 ^ 64) :
    parseGptHeader b = some ⟨entriesLba, entryCount, entrySize⟩ := by
  have signed : b.hasAt 0 (ascii "EFI PART") = true :=
    (Buf.hasAt_iff (by exact (by decide : 0 + (ascii "EFI PART").length ≤ 92).trans long)).mpr magic
  have first : b.leAt 72 8 = entriesLba := by
    rw [Buf.leAt_eq (by omega), lba, ofLe_le_of_lt (by omega)]
  have second : b.leAt 80 4 = entryCount := by
    rw [Buf.leAt_eq (by omega), count]
    rfl
  have third : b.leAt 84 4 = entrySize := by
    rw [Buf.leAt_eq (by omega), size]
    rfl
  have inside : ¬ b.len < 92 := by omega
  have low : ¬ entriesLba < 2 := by omega
  simp [parseGptHeader, signed, first, second, third, inside, low, entryCount, entrySize]

/-! ## Names -/

/-- A unit that is not half of a pair is a character of its own. -/
lemma fromUtf16Lossy_single {u : ℕ} (plain : ¬ (0xD800 ≤ u ∧ u ≤ 0xDFFF)) (rest : List ℕ) :
    fromUtf16Lossy (u :: rest) = Char.ofNat u :: fromUtf16Lossy rest := by
  cases rest with
  | nil => simp only [fromUtf16Lossy, if_neg plain]
  | cons v rest => rw [fromUtf16Lossy, if_neg (by omega), if_neg plain]

lemma fromUtf16Lossy_pair {c : ℕ} (high : 0x10000 ≤ c) (valid : c < 0x110000) (rest : List ℕ) :
    fromUtf16Lossy
        ((0xD800 + (c - 0x10000) / 0x400) :: (0xDC00 + (c - 0x10000) % 0x400) :: rest) =
      Char.ofNat c :: fromUtf16Lossy rest := by
  have whole : 0x10000 + (0xD800 + (c - 0x10000) / 0x400 - 0xD800) * 0x400 +
      (0xDC00 + (c - 0x10000) % 0x400 - 0xDC00) = c := by omega
  rw [fromUtf16Lossy, if_pos (by omega), whole]

/-- **A text comes back from its units**. -/
lemma fromUtf16Lossy_encodeUtf16 (cs : List Char) : fromUtf16Lossy (encodeUtf16 cs) = cs := by
  induction cs with
  | nil => rfl
  | cons c cs ih =>
    have split : encodeUtf16 (c :: cs) = (if c.toNat < 0x10000 then [c.toNat]
        else [0xD800 + (c.toNat - 0x10000) / 0x400, 0xDC00 + (c.toNat - 0x10000) % 0x400]) ++
        encodeUtf16 cs := List.flatMap_cons
    have valid : c.toNat < 0xD800 ∨ 0xDFFF < c.toNat ∧ c.toNat < 0x110000 := c.valid
    rw [split]
    by_cases low : c.toNat < 0x10000
    · rw [if_pos low, List.singleton_append, fromUtf16Lossy_single (by omega), ih,
        Char.ofNat_toNat]
    · rw [if_neg low, List.cons_append, List.cons_append, List.nil_append,
        fromUtf16Lossy_pair (by omega) (by omega), ih, Char.ofNat_toNat]

/-- The units are numbers of 16 bits, and none is zero unless a character is. -/
lemma mem_encodeUtf16 {cs : List Char} (noNul : ∀ c ∈ cs, c.toNat ≠ 0) {u : ℕ}
    (h : u ∈ encodeUtf16 cs) : u ≠ 0 ∧ u < 2 ^ 16 := by
  obtain ⟨c, mem, h⟩ := List.mem_flatMap.mp h
  have valid : c.toNat < 0xD800 ∨ 0xDFFF < c.toNat ∧ c.toNat < 0x110000 := c.valid
  have some := noNul c mem
  split_ifs at h with low
  · obtain rfl := List.mem_singleton.mp h
    exact ⟨some, low⟩
  · simp only [List.mem_cons, List.not_mem_nil, or_false] at h
    omega

/-! ## The entries -/

section Entries

variable {typeGuid partGuid : Guid} {first last : ℕ} {name : String}

/-- A unit of the name: what was written, and then zeros. -/
lemma unit_entryArray (short : (encodeUtf16 name.toList).length ≤ 36)
    (noNul : ∀ c ∈ name.toList, c.toNat ≠ 0) {i : ℕ} (h : i < 36) :
    ofLe (slice (entryArray typeGuid partGuid first last name) (56 + 2 * i) 2) =
      (encodeUtf16 name.toList).getD i 0 := by
  by_cases inside : i < (encodeUtf16 name.toList).length
  · have field := slice_entryArray typeGuid partGuid first last name
      (f := (56, nameBytes name)) (by simp [entryFields])
    dsimp only at field
    have length : (nameBytes name).length = 2 * (encodeUtf16 name.toList).length := by
      rw [length_nameBytes, Nat.min_eq_right short]
    have part := @slice_slice _ (entryArray typeGuid partGuid first last name) 56
      (nameBytes name).length (2 * i) 2 (by omega)
    have units : slice (nameBytes name) (2 * i) 2 = le 2 (encodeUtf16 name.toList)[i] := by
      rw [nameBytes, List.take_of_length_le short]
      exact slice_pieces (length_le 2) inside
    rw [← part, field, units, List.getD_eq_getElem _ _ inside,
      ofLe_le_of_lt (mem_encodeUtf16 noNul (List.getElem_mem inside)).2]
  · rw [slice_entryArray_past _ _ _ _ _ (by omega) (by omega),
      List.getD_eq_default _ _ (Nat.not_lt.mp inside)]
    rfl

/-- The name of the entry is read back. -/
lemma entryName_eq {e : Buf} (len : e.len = entrySize)
    (bytes : e.bytes = slice (entryArray typeGuid partGuid first last name) 0 entrySize)
    (short : (encodeUtf16 name.toList).length ≤ 36) (noNul : ∀ c ∈ name.toList, c.toNat ≠ 0) :
    entryName e = name := by
  have size : entrySize = 128 := rfl
  have units : ((List.range 36).map fun i => e.leAt (56 + 2 * i) 2) =
      encodeUtf16 name.toList ++ List.replicate (36 - (encodeUtf16 name.toList).length) 0 := by
    apply List.ext_getElem
    · rw [List.length_map, List.length_range, List.length_append, List.length_replicate]
      omega
    · intro i h _
      rw [List.length_map, List.length_range] at h
      rw [List.getElem_map, List.getElem_range, Buf.leAt_eq (by omega), bytes,
        slice_slice (by omega), Nat.zero_add, unit_entryArray short noNul h,
        List.getElem_append]
      by_cases inside : i < (encodeUtf16 name.toList).length
      · rw [dif_pos inside, List.getD_eq_getElem _ _ inside]
      · rw [dif_neg inside, List.getElem_replicate, List.getD_eq_default _ _ (by omega)]
  have kept : (encodeUtf16 name.toList ++
      List.replicate (36 - (encodeUtf16 name.toList).length) 0).takeWhile (· ≠ 0) =
      encodeUtf16 name.toList := by
    rw [List.takeWhile_append_of_pos
      (fun u h => decide_eq_true (mem_encodeUtf16 noNul h).1)]
    cases 36 - (encodeUtf16 name.toList).length with
    | zero => rw [List.replicate_zero, List.takeWhile_nil, List.append_nil]
    | succ n => rw [List.replicate_succ, List.takeWhile_cons_of_neg (by decide), List.append_nil]
  rw [entryName, units, kept, fromUtf16Lossy_encodeUtf16, String.ofList_toList]

/-- The type of an entry, as its first bytes. -/
lemma typeGuid_eq {e : Buf} (len : e.len = entrySize) :
    (List.range 16).map e.byte = slice e.bytes 0 16 := by
  have size : entrySize = 128 := rfl
  rw [Buf.slice_bytes (by omega)]
  simp only [Nat.zero_add]

/-- **The array has one partition, the one that was laid out**. -/
lemma parseGptEntries_entryArray {entriesLba : ℕ} {table : Buf}
    (bytes : table.bytes = entryArray typeGuid partGuid first last name)
    (typed : ¬ typeGuid.bytes.all (· == 0)) (start : 0 < first) (ordered : first ≤ last)
    (range : last < 2 ^ 64) (short : (encodeUtf16 name.toList).length ≤ 36)
    (noNul : ∀ c ∈ name.toList, c.toNat ≠ 0) :
    parseGptEntries table ⟨entriesLba, entryCount, entrySize⟩ =
      [⟨1, first, name, typeGuid.bytes⟩] := by
  have length : table.len = 16384 := by
    rw [← Buf.length_bytes, bytes, length_entryArray]
  have many : min (table.len / entrySize) entryCount = 127 + 1 := by rw [length]; rfl
  have entry : ∀ i < 128, (table.slice (i * entrySize) entrySize).bytes =
      slice (entryArray typeGuid partGuid first last name) (i * 128) 128 := by
    intro i h
    have inside : i * entrySize + entrySize ≤ table.len := by
      have size : entrySize = 128 := rfl
      rw [length, size]
      omega
    rw [Buf.bytes_slice inside, bytes]
    rfl
  have used : parseGptEntry (table.slice (0 * entrySize) entrySize) 0 =
      some ⟨1, first, name, typeGuid.bytes⟩ := by
    have here := entry 0 (by omega)
    have len : (table.slice (0 * entrySize) entrySize).len = entrySize := rfl
    generalize table.slice (0 * entrySize) entrySize = e at here len
    have size : e.len = 128 := len
    have field := @slice_entryArray typeGuid partGuid first last name
    have type : (List.range 16).map e.byte = typeGuid.bytes := by
      have f := field (f := (0, typeGuid.bytes)) (by simp [entryFields])
      rw [typeGuid.sixteen] at f
      rw [typeGuid_eq len, here, slice_slice (by omega), f]
    have low : e.leAt 32 8 = first := by
      have f := field (f := (32, le 8 first)) (by simp [entryFields])
      rw [length_le] at f
      rw [Buf.leAt_eq (by omega), here, slice_slice (by omega), f, ofLe_le_of_lt (by omega)]
    have high : e.leAt 40 8 = last := by
      have f := field (f := (40, le 8 last)) (by simp [entryFields])
      rw [length_le] at f
      rw [Buf.leAt_eq (by omega), here, slice_slice (by omega), f, ofLe_le_of_lt (by omega)]
    have range : (decide (first = 0) || decide (last < first)) = false := by
      rw [Bool.or_eq_false_iff, decide_eq_false_iff_not, decide_eq_false_iff_not]
      omega
    rw [parseGptEntry, type, low, high, if_neg typed, range, entryName_eq len here short noNul]
    rfl
  have free : ∀ i < 127, parseGptEntry (table.slice ((i + 1) * entrySize) entrySize) (i + 1) =
      none := by
    intro i h
    have here := entry (i + 1) (by omega)
    have len : (table.slice ((i + 1) * entrySize) entrySize).len = entrySize := rfl
    rw [slice_entryArray_past _ _ _ _ _ (by omega) (by omega)] at here
    rw [parseGptEntry, typeGuid_eq len, here, slice_replicate (by omega)]
    rfl
  rw [parseGptEntries, many, List.range_succ_eq_map, List.filterMap_cons, used,
    List.filterMap_map]
  refine congrArg _ (List.filterMap_eq_nil_iff.mpr fun i h => ?_)
  exact free i (List.mem_range.mp h)

end Entries

/-! ## A table in an image -/

/-- A header and an array describe one partition: the reader finds it, both CRCs verify, the header
says where it is itself, where its copy and its array are, and the partition is in the usable
range. -/
structure Describes (hdr array : List UInt8) (myLba altLba entriesLba : ℕ) (part : GptPartition)
    (last : ℕ) : Prop where
  header : parseGptHeader (Buf.ofList hdr) = some ⟨entriesLba, entryCount, entrySize⟩
  entries : parseGptEntries (Buf.ofList array) ⟨entriesLba, entryCount, entrySize⟩ = [part]
  ending : ofLe (slice array 40 8) = last
  sealed : Sealed hdr
  arraySealed : (crc32 array).toNat = ofLe (slice hdr 88 4)
  my : ofLe (slice hdr 24 8) = myLba
  alternate : ofLe (slice hdr 32 8) = altLba
  usable : ofLe (slice hdr 40 8) ≤ part.firstLba ∧ last ≤ ofLe (slice hdr 48 8)

/-- The part of an image, written at byte `offset` of a disk, that a block of the disk is. -/
def inImage (image : List UInt8) (offset blockSize lba len : ℕ) : List UInt8 :=
  slice image (lba * blockSize - offset) len

/-- An image written at byte `offset` of a disk has a table: a header in block `myLba` and an array
from block `entriesLba` on. -/
structure Table (image : List UInt8) (offset blockSize myLba altLba entriesLba : ℕ)
    (part : GptPartition) (last : ℕ) : Prop where
  before : offset ≤ myLba * blockSize ∧ offset ≤ entriesLba * blockSize
  within : myLba * blockSize + blockSize ≤ offset + image.length ∧
    entriesLba * blockSize + entryCount * entrySize ≤ offset + image.length
  describes : Describes (inImage image offset blockSize myLba blockSize)
    (inImage image offset blockSize entriesLba (entryCount * entrySize)) myLba altLba entriesLba
    part last

/-- Both copies are tables that point at each other, with the partition between them. -/
structure RoundTrips (total blockSize : ℕ) (typeGuid : Guid) (name : String) (l : Layout) :
    Prop where
  primary : Table l.primary 0 blockSize 1 (total - 1) 2
    ⟨1, l.firstLba, name, typeGuid.bytes⟩ l.lastLba
  backup : ∃ entriesLba, entriesLba * blockSize = l.backupOffset ∧
    Table l.backup l.backupOffset blockSize (total - 1) 1 entriesLba
      ⟨1, l.firstLba, name, typeGuid.bytes⟩ l.lastLba
  ends : l.backupOffset + l.backup.length = total * blockSize
  aligned : 2 ^ 20 ∣ l.firstLba * blockSize ∧ 2 ^ 20 ∣ (l.lastLba + 1) * blockSize
  apart : l.primary.length ≤ l.firstLba * blockSize ∧
    (l.lastLba + 1) * blockSize ≤ l.backupOffset
  large : 2 ^ 20 < l.partitionBytes

/-- A partition of more than 1 MiB that starts and ends on 1 MiB fits between the tables. -/
def Fits (capacity blockSize : ℕ) : Prop :=
  ∃ start stop, 2 ^ 20 ∣ start ∧ 2 ^ 20 ∣ stop ∧ 2 * blockSize + entryCount * entrySize ≤ start ∧
    stop + entryCount * entrySize + blockSize ≤ capacity / blockSize * blockSize ∧
    start + 2 ^ 20 < stop

/-- A partition fits exactly when the one that takes the most does. -/
lemma fits_iff {capacity blockSize : ℕ} (size : blockSize = 512 ∨ blockSize = 4096) :
    Fits capacity blockSize ↔ ¬ capacity / blockSize < 2 + entryLbas blockSize ∧
      ¬ partitionEnd (capacity / blockSize) blockSize ≤ 2 * align blockSize := by
  have small : entryLbas 512 = 32 ∧ align 512 = 2048 := by decide
  have large : entryLbas 4096 = 4 ∧ align 4096 = 256 := by decide
  have array : entryCount * entrySize = 16384 := rfl
  rw [Fits, array, partitionEnd]
  generalize capacity / blockSize = n
  constructor
  · rintro ⟨start, stop, ⟨a, rfl⟩, ⟨b, rfl⟩, low, high, more⟩
    obtain rfl | rfl := size
    · rw [small.1, small.2]
      omega
    · rw [large.1, large.2]
      omega
  · rintro ⟨room, more⟩
    obtain rfl | rfl := size
    · rw [small.1, small.2] at *
      refine ⟨2 ^ 20, (n - (2 + 32) + 1) / 2048 * 2 ^ 20, dvd_refl _, Dvd.intro_left _ rfl, ?_⟩
      omega
    · rw [large.1, large.2] at *
      refine ⟨2 ^ 20, (n - (2 + 4) + 1) / 256 * 2 ^ 20, dvd_refl _, Dvd.intro_left _ rfl, ?_⟩
      omega

/-! ## The round trip -/

section RoundTrip

variable {blockSize : ℕ} {typeGuid diskGuid partGuid : Guid} {name : String}

/-- The records that are laid out describe the partition. -/
lemma describes {myLba altLba entriesLba first last firstUsable lastUsable : ℕ}
    (room : 512 ≤ blockSize) (typed : ¬ typeGuid.bytes.all (· == 0))
    (short : (encodeUtf16 name.toList).length ≤ 36) (noNul : ∀ c ∈ name.toList, c.toNat ≠ 0)
    (past : 2 ≤ entriesLba) (start : 0 < first) (ordered : first ≤ last)
    (low : firstUsable ≤ first) (high : last ≤ lastUsable) (my : myLba < 2 ^ 64)
    (alternate : altLba < 2 ^ 64) (entries : entriesLba < 2 ^ 64) (usable : lastUsable < 2 ^ 64) :
    Describes (header myLba altLba firstUsable lastUsable diskGuid entriesLba
        (crc32 (entryArray typeGuid partGuid first last name)) blockSize)
      (entryArray typeGuid partGuid first last name) myLba altLba entriesLba
      ⟨1, first, name, typeGuid.bytes⟩ last := by
  have field := @slice_header myLba altLba firstUsable lastUsable diskGuid entriesLba
    (crc32 (entryArray typeGuid partGuid first last name)) blockSize room
  have long := length_header myLba altLba firstUsable lastUsable diskGuid entriesLba
    (crc32 (entryArray typeGuid partGuid first last name)) room
  have sealed := sealed_header myLba altLba firstUsable lastUsable diskGuid entriesLba
    (crc32 (entryArray typeGuid partGuid first last name)) room
  have crc := UInt32.toNat_lt (crc32 (entryArray typeGuid partGuid first last name))
  simp only [headerFields, List.forall_mem_cons, length_le] at field
  generalize header myLba altLba firstUsable lastUsable diskGuid entriesLba
    (crc32 (entryArray typeGuid partGuid first last name)) blockSize = hdr at *
  obtain ⟨magic, -, -, myField, altField, firstField, lastField, -, entriesField, countField,
    sizeField, crcField, -⟩ := field
  have ending := slice_entryArray typeGuid partGuid first last name (f := (40, le 8 last))
    (by simp [entryFields])
  rw [length_le] at ending
  have array := Buf.bytes_ofList (entryArray typeGuid partGuid first last name)
  have bytes := Buf.bytes_ofList hdr
  refine ⟨?_, ?_, ?_, sealed, ?_, ?_, ?_, ?_, ?_⟩
  · rw [← bytes] at magic entriesField countField sizeField
    refine parseGptHeader_eq ?_ magic entriesField countField sizeField past entries
    rw [← Buf.length_bytes, bytes]
    omega
  · exact parseGptEntries_entryArray array typed start ordered (by omega) short noNul
  · rw [ending, ofLe_le_of_lt (by omega)]
  · rw [crcField, ofLe_le_of_lt (by omega)]
  · rw [myField, ofLe_le_of_lt (by omega)]
  · rw [altField, ofLe_le_of_lt (by omega)]
  · rw [firstField, ofLe_le_of_lt (by omega)]
    exact low
  · rw [lastField, ofLe_le_of_lt (by omega)]
    exact high

/-- What the numbers of a table are, when one is laid out. -/
structure Numbers (n blockSize : ℕ) : Prop where
  size : 512 ≤ blockSize
  room : 2 + entryLbas blockSize ≤ align blockSize
  array : entryLbas blockSize * blockSize = 16384
  mebi : align blockSize * blockSize = 2 ^ 20
  more : 2 * align blockSize < partitionEnd n blockSize
  fits : partitionEnd n blockSize + entryLbas blockSize + 1 ≤ n
  whole : align blockSize ∣ partitionEnd n blockSize

lemma numbers {n : ℕ} (size : blockSize = 512 ∨ blockSize = 4096)
    (room : ¬ n < 2 + entryLbas blockSize)
    (more : ¬ partitionEnd n blockSize ≤ 2 * align blockSize) : Numbers n blockSize := by
  obtain ⟨-, array, -, mebi, -, least⟩ := sizes size
  have below : partitionEnd n blockSize ≤ n - (2 + entryLbas blockSize) + 1 :=
    Nat.div_mul_le_self _ _
  exact ⟨by omega, least, array, mebi, by omega, by omega, Dvd.intro_left _ rfl⟩

section Images

variable {mbr hdr array : List UInt8} {altLba last : ℕ} {part : GptPartition}

/-- The first copy: a block for the MBR, the header and the array. -/
lemma table_primary (mbrLength : mbr.length = blockSize) (hdrLength : hdr.length = blockSize)
    (arrayLength : array.length = 16384) (parts : Describes hdr array 1 altLba 2 part last) :
    Table (mbr ++ hdr ++ array) 0 blockSize 1 altLba 2 part last := by
  have product : entryCount * entrySize = 16384 := rfl
  have header : inImage (mbr ++ hdr ++ array) 0 blockSize 1 blockSize = hdr := by
    have start : 1 * blockSize - 0 - blockSize = 0 := by omega
    rw [inImage, slice_append_left (by rw [List.length_append]; omega),
      slice_append_right (by omega), mbrLength, start, slice_all hdrLength]
  have entries : inImage (mbr ++ hdr ++ array) 0 blockSize 2 (entryCount * entrySize) = array := by
    have start : 2 * blockSize - 0 - (blockSize + blockSize) = 0 := by omega
    rw [inImage, slice_append_right (by rw [List.length_append]; omega), List.length_append,
      mbrLength, hdrLength, start, slice_all (by omega)]
  refine ⟨⟨Nat.zero_le _, Nat.zero_le _⟩, ?_, ?_⟩
  · rw [List.length_append, List.length_append, mbrLength, hdrLength, arrayLength, product]
    omega
  · rw [header, entries]
    exact parts

/-- The second copy: the array, and the header in the block behind it. -/
lemma table_backup {myLba entriesLba : ℕ} (hdrLength : hdr.length = blockSize)
    (arrayLength : array.length = 16384)
    (behind : entriesLba * blockSize + 16384 = myLba * blockSize)
    (parts : Describes hdr array myLba altLba entriesLba part last) :
    Table (array ++ hdr) (entriesLba * blockSize) blockSize myLba altLba entriesLba part last := by
  have product : entryCount * entrySize = 16384 := rfl
  have header : inImage (array ++ hdr) (entriesLba * blockSize) blockSize myLba blockSize =
      hdr := by
    have start : myLba * blockSize - entriesLba * blockSize - 16384 = 0 := by omega
    rw [inImage, slice_append_right (by omega), arrayLength, start, slice_all hdrLength]
  have entries : inImage (array ++ hdr) (entriesLba * blockSize) blockSize entriesLba
      (entryCount * entrySize) = array := by
    rw [inImage, Nat.sub_self, slice_append_left (by omega), slice_all (by omega)]
  refine ⟨⟨by omega, le_refl _⟩, ?_, ?_⟩
  · rw [List.length_append, hdrLength, arrayLength, product]
    omega
  · rw [header, entries]
    exact parts

end Images

/-- **The tables that are laid out describe the partition**, both of them, and lie around it.

**Proof sketch.** The header and the array are parts of either image (`table_primary`,
`table_backup`), and `describes` says what they hold. The rest is arithmetic on the blocks, in which
the array takes `entryLbas` of them and 1 MiB takes `align`. -/
lemma roundTrips_tables {n : ℕ} (numbers : Numbers n blockSize) (range : n < 2 ^ 64)
    (typed : ¬ typeGuid.bytes.all (· == 0)) (short : (encodeUtf16 name.toList).length ≤ 36)
    (noNul : ∀ c ∈ name.toList, c.toNat ≠ 0) :
    RoundTrips n blockSize typeGuid name (tables n blockSize typeGuid name diskGuid partGuid) := by
  obtain ⟨size, room, array, mebi, more, fits, ⟨q, whole⟩⟩ := numbers
  have reserved : (2 + entryLbas blockSize) * blockSize = 2 * blockSize + 16384 := by
    rw [Nat.add_mul, array]
  have copy : (n - 1 - entryLbas blockSize) * blockSize + 16384 = (n - 1) * blockSize := by
    have parts : n - 1 - entryLbas blockSize + entryLbas blockSize = n - 1 := by omega
    rw [← array, ← Nat.add_mul, parts]
  have final : (n - 1) * blockSize + blockSize = n * blockSize := by
    have parts : n - 1 + 1 = n := by omega
    rw [← Nat.succ_mul, Nat.succ_eq_add_one, parts]
  have ending : partitionEnd n blockSize - 1 + 1 = partitionEnd n blockSize := by omega
  have mbr := length_protectiveMbr n size
  have hdr := fun my alt first last lba crc =>
    length_header my alt first last diskGuid lba crc size
  have entries := length_entryArray typeGuid partGuid (align blockSize)
    (partitionEnd n blockSize - 1) name
  exact
    { primary := table_primary mbr (hdr ..) entries
        (describes size typed short noNul (by omega) (by omega) (by omega) (by omega) (by omega)
          (by omega) (by omega) (by omega) (by omega))
      backup := ⟨n - 1 - entryLbas blockSize, rfl, table_backup (hdr ..) entries copy
        (describes size typed short noNul (by omega) (by omega) (by omega) (by omega) (by omega)
          (by omega) (by omega) (by omega) (by omega))⟩
      ends := by
        simp only [tables, List.length_append, hdr, entries]
        omega
      aligned := by
        refine ⟨dvd_of_eq mebi.symm, Dvd.intro_left q ?_⟩
        rw [← mebi, tables, ending, whole]
        ring
      apart := by
        simp only [tables, List.length_append, mbr, hdr, entries, ending]
        have first := Nat.mul_le_mul_right blockSize room
        refine ⟨by omega, Nat.mul_le_mul_right _ (by omega)⟩
      large := by
        simp only [tables, Layout.partitionBytes, ← mebi]
        exact Nat.mul_lt_mul_of_pos_right (by omega) (by omega) }

/-- **What is laid out is what is read**: for every capacity and either block size no number goes
out of range, there is a layout exactly when a partition of more than 1 MiB fits between the tables,
and the reader finds that partition, and only that, through both copies. -/
theorem layout_round_trip {capacity : ℕ} (fits : capacity < 2 ^ 64)
    (size : blockSize = 512 ∨ blockSize = 4096) (typed : ¬ typeGuid.bytes.all (· == 0))
    (short : (encodeUtf16 name.toList).length ≤ 36) (noNul : ∀ c ∈ name.toList, c.toNat ≠ 0) :
    layout capacity blockSize typeGuid name diskGuid partGuid ≠ .error .overflow ∧
      ((∃ e, layout capacity blockSize typeGuid name diskGuid partGuid = .error (.error e)) ↔
        ¬ Fits capacity blockSize) ∧
      ∀ l, layout capacity blockSize typeGuid name diskGuid partGuid = .ok l →
        RoundTrips (capacity / blockSize) blockSize typeGuid name l := by
  have range : capacity / blockSize < 2 ^ 64 := lt_of_le_of_lt (Nat.div_le_self _ _) fits
  rw [fits_iff size, layout_eq fits size]
  by_cases small : capacity / blockSize < 2 + entryLbas blockSize
  · rw [if_pos small]
    refine ⟨nofun, iff_of_true ⟨_, rfl⟩ fun h => h.1 small, nofun⟩
  · rw [if_neg small]
    by_cases tight : partitionEnd (capacity / blockSize) blockSize ≤ 2 * align blockSize
    · rw [if_pos tight]
      exact ⟨nofun, iff_of_true ⟨_, rfl⟩ fun h => h.2 tight, nofun⟩
    · rw [if_neg tight]
      refine ⟨nofun, iff_of_false nofun fun h => h ⟨small, tight⟩, ?_⟩
      intro l h
      obtain rfl := Except.ok.inj h
      exact roundTrips_tables (numbers size small tight) range typed short noNul

end RoundTrip

/-- A data slab on a drive of 64 MiB. -/
theorem layout_round_trip_data :
    ∃ l, layout (2 ^ 26) 512 ⟨typeSlabData, rfl⟩ "stormblock-data" ⟨List.replicate 16 1, rfl⟩
        ⟨List.replicate 16 2, rfl⟩ = .ok l ∧
      RoundTrips (2 ^ 26 / 512) 512 ⟨typeSlabData, rfl⟩ "stormblock-data" l := by
  have noNul : "stormblock-data".toList.all fun c => c.toNat ≠ 0 := by decide
  obtain ⟨total, refused, round⟩ := @layout_round_trip 512 ⟨typeSlabData, rfl⟩
    ⟨List.replicate 16 1, rfl⟩ ⟨List.replicate 16 2, rfl⟩ "stormblock-data" (2 ^ 26) (by decide)
    (.inl rfl) (by decide) (by decide)
    fun c mem => of_decide_eq_true (List.all_eq_true.mp noNul c mem)
  have fits : Fits (2 ^ 26) 512 := ⟨2 ^ 20, 2 ^ 25, by decide, by decide, by decide, by decide,
    by decide⟩
  generalize layout (2 ^ 26) 512 ⟨typeSlabData, rfl⟩ "stormblock-data"
    ⟨List.replicate 16 1, rfl⟩ ⟨List.replicate 16 2, rfl⟩ = r at *
  cases r with
  | ok l => exact ⟨l, rfl, round l rfl⟩
  | error e =>
    cases e with
    | overflow => exact absurd rfl total
    | error e => exact absurd fits (refused.mp ⟨e, rfl⟩)

end Gpt

end StormDrive
