import StormDrive.Contents
import StormDrive.Bytes.Scan

set_option relaxedAutoImplicit false
set_option autoImplicit false

/-!
# The walk of a foreign partition table

The two readers of a disk (`contents.rs`) take where to read from a partition table that anybody may
have written. Here each sum and product may overflow, and each byte is looked up in what was read.

## Main definitions

* `TableWalk.parseGptHeader`, `TableWalk.parseGptEntries`, `TableWalk.fsSignature` — the parsers of
  what was read.
* `TableWalk.holds`, `TableWalk.probe` — the readers, with the reads that they make.
* `ReadsSafely` — what both promise.
* `LbasFit` — the places in the table, in bytes, are 64-bit numbers.

## Main results

* `readsSafely_iff` — **both readers are safe exactly when the places in the table fit**.
* `ends_holds` — where they do, this reader gives what the one that wraps gives.
* `far_table_overflows` — a table that says it is at 32 EiB.

## Implementation notes

A build that does not check for overflow goes on with the product modulo `2 ^ 64`.
-/

namespace StormDrive

open Bytes

namespace TableWalk

/-! ## What was read -/

/-- The bytes from `start` to `stop`. -/
def range (b : Buf) (start stop : ℕ) : Checked OutOfBounds Buf :=
  if start ≤ stop ∧ stop ≤ b.len then .ok (b.slice start (stop - start))
  else Checked.fail ⟨stop, b.len⟩

/-- The little-endian number of `n` bytes at `off`. -/
def leAt (b : Buf) (off n : ℕ) : Checked OutOfBounds ℕ := do
  return (← range b off (off + n)).leAt 0 n

/-- The buffer has `magic` at `off`. -/
def hasAt (b : Buf) (off : ℕ) (magic : List UInt8) : Checked OutOfBounds Bool :=
  if off + magic.length ≤ b.len then do return (← range b off (off + magic.length)).hasAt 0 magic
  else .ok false

def isSlabHeader (b : Buf) : Checked OutOfBounds Bool := hasAt b 0 slabMagic

/-- The header, when the signature is there and its bounds are sane. -/
def parseGptHeader (b : Buf) : Checked OutOfBounds (Option GptHeader) :=
  if b.len < 92 then .ok none
  else do
    if (← range b 0 8).hasAt 0 (ascii "EFI PART") then
      let entriesLba ← leAt b 72 8
      let entries ← leAt b 80 4
      let entrySize ← leAt b 84 4
      if entriesLba < 2 || entries = 0 || 1024 < entries then return none
      else if entrySize < 128 || 4096 < entrySize || entrySize % 8 ≠ 0 then return none
      else return some ⟨entriesLba, entries, entrySize⟩
    else return none

/-- The name in the units of an entry, ended by a zero. -/
def nameOf (units : Buf) : String :=
  String.ofList <| fromUtf16Lossy <|
    ((List.range 36).map fun i => units.leAt (2 * i) 2).takeWhile (· ≠ 0)

/-- One entry: in use when its type is not zero and its range is not empty. -/
def parseGptEntry (e : Buf) (i : ℕ) : Checked OutOfBounds (Option GptPartition) := do
  let type ← range e 0 16
  let typeGuid := (List.range 16).map type.byte
  if typeGuid.all (· == 0) then return none
  else
    let first ← leAt e 32 8
    let last ← leAt e 40 8
    if first = 0 || last < first then return none
    else
      let units ← range e 56 128
      return some ⟨i + 1, first, nameOf units, typeGuid⟩

/-- The entries in use, from chunks of the size of an entry. -/
def parseGptEntries (table : Buf) (h : GptHeader) : Checked OutOfBounds (List GptPartition) := do
  let entries ← (List.range (min (table.len / h.entrySize) h.entries)).mapM fun i => do
    parseGptEntry (← range table (i * h.entrySize) (i * h.entrySize + h.entrySize)) i
  return entries.filterMap id

/-- What a region holds, by the first signature found. -/
def fsSignature (b : Buf) : Checked OutOfBounds (Option String) := do
  if ← hasAt b 0 slabMagic then return some "stormblock slab"
  else if ← hasAt b 0 stormraidMagic then return some "stormraid member"
  else if ← hasAt b 0 (ascii "LUKS" ++ [0xBA, 0xBE]) then return some "LUKS"
  else if ← hasAt b 0 (ascii "XFSB") then return some "xfs"
  else if ← hasAt b 3 (ascii "NTFS    ") then return some "ntfs"
  else if ← hasAt b 0x438 [0x53, 0xEF] then return some "ext2/3/4"
  else if ← hasAt b 0x10040 (ascii "_BHRfS_M") then return some "btrfs"
  else if (← hasAt b 0x218 (ascii "LVM2 001")) || (← hasAt b 0x018 (ascii "LVM2 001")) then
    return some "LVM2"
  else if (← hasAt b 4086 (ascii "SWAPSPACE2")) || (← hasAt b 4086 (ascii "SWAP-SPACE")) then
    return some "swap"
  else if (← hasAt b 4096 [0xFC, 0x4E, 0x2B, 0xA9]) || (← hasAt b 0 [0xFC, 0x4E, 0x2B, 0xA9]) then
    return some "linux_raid"
  else if (← hasAt b 510 [0x55, 0xAA]) && ((← hasAt b 82 (ascii "FAT32   ")) ||
      (← hasAt b 54 (ascii "FAT16   ")) || (← hasAt b 54 (ascii "FAT12   "))) then
    return some "vfat"
  else return none

/-! ## The readers -/

/-- A read of the disk: all of it, or nothing. -/
def read (d : Disk) (off len : ℕ) : Scan (Option Buf) := Scan.reading (d.read off len) off len

/-- The first table that can be read, at LBA 1 of 512 or of 4096 bytes, and what is done with the
partitions in it. -/
def firstTable {β : Type} (d : Disk) (body : ℕ → List GptPartition → Scan β) :
    List ℕ → Scan (Option β)
  | [] => pure none
  | lbs :: more => do
    match ← read d lbs 512 with
    | none => firstTable d body more
    | some block =>
      match ← Scan.lift (parseGptHeader block) with
      | none => firstTable d body more
      | some h =>
        let len ← Scan.lift (Checked.mul h.entries h.entrySize)
        let off ← Scan.lift (Checked.mul h.entriesLba lbs)
        match ← read d off len with
        | none => firstTable d body more
        | some table =>
          let ps ← Scan.lift (parseGptEntries table h)
          return some (← body lbs ps)

/-- What the region from `off` on holds. -/
def signatureAt (d : Disk) (off : ℕ) : Scan (Option String) := do
  match ← read d off signatureBytes with
  | none => return none
  | some b => Scan.lift (fsSignature b)

/-- What a partition holds, with its label. -/
def partitionHolds (d : Disk) (lbs : ℕ) (p : GptPartition) :
    Scan (Option (Option String × String)) := do
  let off ← Scan.lift (Checked.mul p.firstLba lbs)
  return (← signatureAt d off).map fun w => (some p.label, w)

/-- Everything on the drive a destructive step would destroy. -/
def holds (d : Disk) : Scan (Option String) := do
  let whole ← signatureAt d 0
  let parts ← firstTable d (fun lbs ps => Scan.forEach (partitionHolds d lbs) ps) [512, 4096]
  return describeHoldings (whole.toList.map (fun w => (none, w)) ++ parts.getD [])

/-- The partition, when it begins with a slab header. -/
def slabPartition (d : Disk) (lbs : ℕ) (p : GptPartition) : Scan (Option GptPartition) := do
  let off ← Scan.lift (Checked.mul p.firstLba lbs)
  match ← read d off 512 with
  | none => return none
  | some b => return if ← Scan.lift (isSlabHeader b) then some p else none

/-- A partition as the place of a slab. -/
def slabPart (lbs : ℕ) (p : GptPartition) : Scan (Option SlabPart) := do
  let off ← Scan.lift (Checked.mul p.firstLba lbs)
  return some ⟨some p.index, p.name, slabRole p.typeGuid, off⟩

/-- Who holds the drive by its partitions, and each slab found. -/
def tableSlabs (d : Disk) (lbs : ℕ) (ps : List GptPartition) :
    Scan (Option String × List SlabPart) := do
  let parts ← Scan.forEach (slabPartition d lbs) ps
  let slabs ← Scan.forEach (slabPart lbs) parts
  return (describeSlabs false (parts.map GptPartition.probeLabel), slabs)

/-- Who holds the drive, and each slab found on it. -/
def probe (d : Disk) : Scan (Option String × List SlabPart) := do
  match ← read d 0 512 with
  | none => return (none, [])
  | some head =>
    if ← Scan.lift (isSlabHeader head) then
      return (describeSlabs true [], [⟨none, "", "unknown", 0⟩])
    else if ← Scan.lift (hasAt head 0 stormraidMagic) then return (some stormraidHolder, [])
    else return (← firstTable d (tableSlabs d) [512, 4096]).getD (none, [])

/-! ## What is promised -/

/-- The header of a table at LBA 1, for blocks of this size. -/
def headerAt (d : Disk) (lbs : ℕ) : Option GptHeader :=
  (d.read lbs 512).bind StormDrive.parseGptHeader

/-- The table, where its header says it is. -/
def tableAt (d : Disk) (lbs : ℕ) : Option (List GptPartition) :=
  (headerAt d lbs).bind fun h =>
    (d.read (h.entriesLba * lbs) (h.entries * h.entrySize)).map fun table =>
      StormDrive.parseGptEntries table h

/-- The entries that a header announces. -/
def announced (d : Disk) (lbs : ℕ) : ℕ := ((headerAt d lbs).map (·.entries)).getD 0

/-- What may be read: so much anyway, and so much for each entry that a header announces. -/
def readBound (d : Disk) : ℕ :=
  signatureBytes + 1024 + (announced d 512 + announced d 4096) * (4096 + signatureBytes)

/-- **What both readers promise**: they come to an answer, with no overflow and without looking
outside what they read, and read no more than their bound, by headers that announce no more than
1024 entries. -/
structure ReadsSafely (d : Disk) : Prop where
  holds : Scan.Ends (holds d) fun _ reads => bytesRead reads ≤ readBound d
  probe : Scan.Ends (probe d) fun _ reads => bytesRead reads ≤ readBound d
  few : announced d 512 ≤ 1024 ∧ announced d 4096 ≤ 1024

/-- A table for blocks of this size says where it is, and where its partitions begin, by numbers
that in bytes are below `2 ^ 64`. -/
structure TableFits (d : Disk) (lbs : ℕ) : Prop where
  table : ∀ h, headerAt d lbs = some h → h.entriesLba * lbs < 2 ^ 64
  partitions : ∀ ps, tableAt d lbs = some ps → ∀ p ∈ ps, p.firstLba * lbs < 2 ^ 64

/-- **The places in the table fit**: in the one for blocks of 512 bytes and, where that cannot be
read, in the one for blocks of 4096. -/
def LbasFit (d : Disk) : Prop :=
  TableFits d 512 ∧ (tableAt d 512 = none → TableFits d 4096)

/-! ## The parsers stay inside -/

section Parsers

variable {b : Buf} {off n : ℕ}

lemma range_eq {start stop : ℕ} (h : start ≤ stop) (h' : stop ≤ b.len) :
    range b start stop = .ok (b.slice start (stop - start)) := if_pos ⟨h, h'⟩

lemma leAt_slice (b : Buf) (off len pos n : ℕ) :
    (b.slice off len).leAt pos n = b.leAt (off + pos) n := by
  simp only [Buf.leAt, Buf.slice, Nat.add_assoc]

lemma leAt_eq (h : off + n ≤ b.len) : leAt b off n = .ok (b.leAt off n) := by
  rw [leAt, range_eq (Nat.le_add_right off n) h, Checked.ok_bind, leAt_slice, Nat.add_zero]
  rfl

lemma hasAt_eq (b : Buf) (off : ℕ) (magic : List UInt8) :
    hasAt b off magic = .ok (b.hasAt off magic) := by
  unfold hasAt
  split_ifs with inside
  · rw [range_eq (Nat.le_add_right off _) inside, Checked.ok_bind, Nat.add_sub_cancel_left]
    simp only [Buf.hasAt, Buf.slice, Nat.zero_add, Nat.le_refl, inside, decide_true, Bool.true_and]
    rfl
  · rw [Buf.hasAt, decide_eq_false inside, Bool.false_and]

lemma isSlabHeader_eq (b : Buf) : isSlabHeader b = .ok (StormDrive.isSlabHeader b) := hasAt_eq b 0 _

lemma parseGptHeader_eq (b : Buf) : parseGptHeader b = .ok (StormDrive.parseGptHeader b) := by
  have inside : ∀ magic : List UInt8, magic.length = 8 → 92 ≤ b.len →
      (b.slice 0 8).hasAt 0 magic = b.hasAt 0 magic := by
    intro magic eight long
    have room : 8 ≤ b.len := by omega
    simp [Buf.hasAt, Buf.slice, eight, room]
  rw [parseGptHeader, StormDrive.parseGptHeader]
  by_cases short : b.len < 92
  · rw [if_pos short, decide_eq_true short, Bool.true_or, if_pos rfl]
  · rw [if_neg short, range_eq (Nat.zero_le 8) (by omega), Checked.ok_bind, Nat.sub_zero,
      inside _ (by decide) (by omega), leAt_eq (by omega), leAt_eq (by omega), leAt_eq (by omega),
      decide_eq_false short, Bool.false_or, Checked.ok_bind, Checked.ok_bind, Checked.ok_bind]
    cases b.hasAt 0 (ascii "EFI PART") with
    | false => rfl
    | true =>
      simp only [if_true, Bool.not_true, Bool.false_eq_true, if_false]
      split_ifs <;> rfl

lemma nameOf_slice (e : Buf) : nameOf (e.slice 56 72) = entryName e := by
  simp only [nameOf, entryName, leAt_slice]

lemma parseGptEntry_eq {e : Buf} (long : 128 ≤ e.len) (i : ℕ) :
    parseGptEntry e i = .ok (StormDrive.parseGptEntry e i) := by
  have type : (List.range 16).map (e.slice 0 16).byte = (List.range 16).map e.byte := by
    simp [Buf.slice]
  rw [parseGptEntry, range_eq (Nat.zero_le 16) (by omega), Checked.ok_bind, Nat.sub_zero]
  dsimp only
  rw [type, leAt_eq (by omega), Checked.ok_bind, leAt_eq (by omega), Checked.ok_bind,
    range_eq (by omega) (by omega), Checked.ok_bind, nameOf_slice, StormDrive.parseGptEntry]
  split_ifs <;> rfl

/-- A loop that succeeds at each step. -/
lemma mapM_eq_ok {α β : Type} {f : α → Checked OutOfBounds β} {g : α → β} {l : List α}
    (step : ∀ a ∈ l, f a = .ok (g a)) : l.mapM f = .ok (l.map g) := by
  induction l with
  | nil => rfl
  | cons a l ih =>
    rw [List.mapM_cons, step a (List.mem_cons_self ..), Checked.ok_bind,
      ih fun a h => step a (List.mem_cons_of_mem _ h)]
    rfl

/-- The chunks of a table are inside it, and the fields of an entry inside its chunk. -/
lemma parseGptEntries_eq {table : Buf} {h : GptHeader} (size : 128 ≤ h.entrySize) :
    parseGptEntries table h = .ok (StormDrive.parseGptEntries table h) := by
  have chunk : ∀ i ∈ List.range (min (table.len / h.entrySize) h.entries),
      (range table (i * h.entrySize) (i * h.entrySize + h.entrySize) >>= fun e =>
        parseGptEntry e i) =
      .ok (StormDrive.parseGptEntry (table.slice (i * h.entrySize) h.entrySize) i) := by
    intro i mem
    have before : i + 1 ≤ table.len / h.entrySize := by
      rw [List.mem_range] at mem
      omega
    have inside := (Nat.le_div_iff_mul_le (by omega)).mp before
    rw [Nat.succ_mul] at inside
    rw [range_eq (Nat.le_add_right ..) inside, Checked.ok_bind, Nat.add_sub_cancel_left,
      parseGptEntry_eq size]
  rw [parseGptEntries, mapM_eq_ok chunk, Checked.ok_bind, StormDrive.parseGptEntries,
    List.filterMap_map]
  rfl

lemma ite_ok {α : Type} {c : Prop} [Decidable c] {a o : α} {w : Checked OutOfBounds α}
    (h : w = .ok o) : (if c then pure a else w) = .ok (if c then a else o) := by
  split_ifs
  · rfl
  · exact h

lemma fsSignature_eq (b : Buf) : fsSignature b = .ok (StormDrive.fsSignature b) := by
  simp only [fsSignature, hasAt_eq, Checked.ok_bind]
  repeat refine ite_ok ?_
  rfl

end Parsers

/-! ## The walk -/

section Walk

variable {d : Disk} {lbs : ℕ}

/-- The bounds that a header keeps. -/
lemma bounds_of_parseGptHeader {b : Buf} {h : GptHeader}
    (parsed : StormDrive.parseGptHeader b = some h) :
    h.entries ≤ 1024 ∧ 128 ≤ h.entrySize ∧ h.entrySize ≤ 4096 := by
  unfold StormDrive.parseGptHeader at parsed
  dsimp only at parsed
  split_ifs at parsed with unsigned entries size
  simp only [Bool.or_eq_true, decide_eq_true_eq, not_or] at entries size
  obtain rfl := Option.some.inj parsed
  dsimp only at entries size ⊢
  omega

lemma bounds_of_headerAt {h : GptHeader} (found : headerAt d lbs = some h) :
    h.entries ≤ 1024 ∧ 128 ≤ h.entrySize ∧ h.entrySize ≤ 4096 := by
  obtain ⟨b, -, parsed⟩ := Option.bind_eq_some_iff.mp found
  exact bounds_of_parseGptHeader parsed

lemma announced_le (d : Disk) (lbs : ℕ) : announced d lbs ≤ 1024 := by
  rw [announced]
  cases found : headerAt d lbs with
  | none => exact Nat.zero_le _
  | some h => exact (bounds_of_headerAt found).1

/-- A table has no more partitions than its header announces. -/
lemma length_tableAt_le {ps : List GptPartition} (found : tableAt d lbs = some ps) :
    ps.length ≤ announced d lbs := by
  obtain ⟨h, header, read⟩ := Option.bind_eq_some_iff.mp found
  obtain ⟨table, -, rfl⟩ := Option.map_eq_some_iff.mp read
  rw [announced, header, StormDrive.parseGptEntries]
  refine le_trans (List.length_filterMap_le ..) ?_
  rw [List.length_range]
  exact Nat.min_le_right ..

variable {β : Type} {body : ℕ → List GptPartition → Scan β} {more : List ℕ}
  {P : Option β → List (ℕ × ℕ) → Prop}

/-- **One table of the walk**: it is passed over, or it says where it is by a number that fits, and
is passed over or worked on. -/
lemma ends_firstTable_iff : Scan.Ends (firstTable d body (lbs :: more)) P ↔
    match headerAt d lbs with
    | none => Scan.Ends (firstTable d body more) fun b reads => P b ((lbs, 512) :: reads)
    | some h => h.entriesLba * lbs < 2 ^ 64 ∧
      match tableAt d lbs with
      | none => Scan.Ends (firstTable d body more) fun b reads =>
          P b ((lbs, 512) :: (h.entriesLba * lbs, h.entries * h.entrySize) :: reads)
      | some ps => Scan.Ends (body lbs ps) fun b reads =>
          P (some b) ((lbs, 512) :: (h.entriesLba * lbs, h.entries * h.entrySize) :: reads) := by
  rw [firstTable, Scan.ends_bind_iff, read, Scan.ends_reading_iff, tableAt]
  cases block : d.read lbs 512 with
  | none =>
    have none : headerAt d lbs = none := by rw [headerAt, block, Option.bind_none]
    rw [none]
    rfl
  | some b =>
    have header : headerAt d lbs = StormDrive.parseGptHeader b := by
      rw [headerAt, block, Option.bind_some]
    dsimp only
    rw [header, Scan.ends_bind_iff, parseGptHeader_eq, Scan.ends_lift_ok_iff]
    cases parsed : StormDrive.parseGptHeader b with
    | none => rfl
    | some h =>
      obtain ⟨few, size, size'⟩ := bounds_of_parseGptHeader parsed
      have small : h.entries * h.entrySize < 2 ^ 64 :=
        lt_of_le_of_lt (Nat.mul_le_mul few size') (by decide)
      dsimp only
      rw [Scan.ends_bind_iff, Scan.ends_mul_iff, Scan.ends_bind_iff, Scan.ends_mul_iff,
        Scan.ends_bind_iff, read, Scan.ends_reading_iff, Option.bind_some]
      refine (and_iff_right small).trans (and_congr_right fun _ => ?_)
      cases d.read (h.entriesLba * lbs) (h.entries * h.entrySize) with
      | none => rfl
      | some table =>
        rw [Option.map_some]
        dsimp only
        rw [Scan.ends_bind_iff, parseGptEntries_eq size, Scan.ends_lift_ok_iff, Scan.ends_bind_iff]
        simp only [Scan.ends_pure_iff, List.append_nil]
        rfl

lemma ends_firstTable_nil_iff : Scan.Ends (firstTable d body []) P ↔ P none [] := by
  rw [firstTable, Scan.ends_pure_iff]

/-- A walk that ends has found that a table fits, if what is done with its partitions needs that,
and has gone on where there is none. -/
lemma fits_of_ends
    (needs : ∀ ps Q, Scan.Ends (body lbs ps) Q → ∀ p ∈ ps, p.firstLba * lbs < 2 ^ 64)
    (ends : Scan.Ends (firstTable d body (lbs :: more)) P) :
    TableFits d lbs ∧
      (tableAt d lbs = none → ∃ Q, Scan.Ends (firstTable d body more) Q) := by
  rw [ends_firstTable_iff] at ends
  cases header : headerAt d lbs with
  | none =>
    have none : tableAt d lbs = none := by rw [tableAt, header, Option.bind_none]
    rw [header] at ends
    refine ⟨⟨fun h e => absurd (header.symm.trans e) nofun, fun ps e => ?_⟩, fun _ => ⟨_, ends⟩⟩
    exact absurd (none.symm.trans e) nofun
  | some h =>
    rw [header] at ends
    obtain ⟨fits, ends⟩ := ends
    have table : ∀ h', headerAt d lbs = some h' → h'.entriesLba * lbs < 2 ^ 64 := by
      intro h' e
      obtain rfl := Option.some.inj (header.symm.trans e)
      exact fits
    cases found : tableAt d lbs with
    | none =>
      rw [found] at ends
      exact ⟨⟨table, fun ps e => absurd (found.symm.trans e) nofun⟩, fun _ => ⟨_, ends⟩⟩
    | some ps =>
      rw [found] at ends
      refine ⟨⟨table, fun ps' e => ?_⟩, fun e => absurd e nofun⟩
      obtain rfl := Option.some.inj (found.symm.trans e)
      exact needs ps _ ends

/-- The partitions of the table that is worked on, with its block size. -/
def tableOf (d : Disk) : Option (ℕ × List GptPartition) :=
  match tableAt d 512 with
  | some ps => some (512, ps)
  | none => (tableAt d 4096).map fun ps => (4096, ps)

/-- Of a table that fits one is read at most, of no more than what its header announces. -/
lemma ends_firstTable_of_fits {n : ℕ} {g : ℕ → List GptPartition → β}
    (fits : TableFits d lbs)
    (works : ∀ ps, (∀ p ∈ ps, p.firstLba * lbs < 2 ^ 64) → Scan.Ends (body lbs ps) fun b reads =>
      b = g lbs ps ∧ bytesRead reads ≤ ps.length * n)
    {m : ℕ} {o : Option β}
    (rest : tableAt d lbs = none → Scan.Ends (firstTable d body more) fun b reads =>
      b = o ∧ bytesRead reads ≤ m) :
    Scan.Ends (firstTable d body (lbs :: more)) fun b reads =>
      b = ((tableAt d lbs).map (g lbs)).or o ∧
        bytesRead reads ≤ 512 + announced d lbs * (4096 + n) + m := by
  rw [ends_firstTable_iff]
  cases header : headerAt d lbs with
  | none =>
    have none : tableAt d lbs = none := by rw [tableAt, header, Option.bind_none]
    refine (rest none).imp fun b reads h => ?_
    obtain ⟨rfl, few⟩ := h
    rw [none, bytesRead_cons]
    exact ⟨rfl, by dsimp only; omega⟩
  | some h =>
    obtain ⟨-, -, size⟩ := bounds_of_headerAt header
    have entries : announced d lbs = h.entries := by rw [announced, header]; rfl
    have bytes : h.entries * h.entrySize ≤ h.entries * 4096 := Nat.mul_le_mul_left _ size
    refine ⟨fits.table h header, ?_⟩
    cases found : tableAt d lbs with
    | none =>
      refine (rest found).imp fun b reads h => ?_
      obtain ⟨rfl, few⟩ := h
      rw [bytesRead_cons, bytesRead_cons, entries, Nat.mul_add]
      exact ⟨rfl, by dsimp only; omega⟩
    | some ps =>
      have length := length_tableAt_le found
      have each : ps.length * n ≤ h.entries * n := Nat.mul_le_mul_right _ (entries ▸ length)
      refine (works ps (fits.partitions ps found)).imp fun b reads h => ?_
      obtain ⟨rfl, few⟩ := h
      rw [bytesRead_cons, bytesRead_cons, entries, Nat.mul_add]
      exact ⟨rfl, by dsimp only; omega⟩

/-- The walk over both block sizes. -/
lemma ends_firstTable {n : ℕ} {g : ℕ → List GptPartition → β} (fits : LbasFit d)
    (works : ∀ lbs ps, (∀ p ∈ ps, p.firstLba * lbs < 2 ^ 64) → Scan.Ends (body lbs ps)
      fun b reads => b = g lbs ps ∧ bytesRead reads ≤ ps.length * n) :
    Scan.Ends (firstTable d body [512, 4096]) fun b reads =>
      b = (tableOf d).map (fun t => g t.1 t.2) ∧
        bytesRead reads ≤ 1024 + (announced d 512 + announced d 4096) * (4096 + n) := by
  have last : Scan.Ends (firstTable d body []) fun b reads => b = none ∧ bytesRead reads ≤ 0 :=
    ends_firstTable_nil_iff.mpr ⟨rfl, Nat.le_refl _⟩
  refine (ends_firstTable_of_fits fits.1 (works 512) fun none =>
    ends_firstTable_of_fits (fits.2 none) (works 4096) fun _ => last).imp fun b reads h => ?_
  obtain ⟨rfl, few⟩ := h
  constructor
  · rw [tableOf, Option.or_none]
    cases tableAt d 512 with
    | none => rw [Option.map_none, Option.none_or, Option.map_map]; rfl
    | some ps => rfl
  · rw [Nat.add_mul]
    omega

end Walk

/-! ## The readers -/

section Readers

variable {d : Disk} {lbs off : ℕ}

lemma mul64_eq {a b : ℕ} (fits : a * b < 2 ^ 64) : mul64 a b = a * b := Nat.mod_eq_of_lt fits

/-- One table, as the reader that wraps finds it. -/
def oneTable (d : Disk) (lbs : ℕ) : Option (ℕ × List GptPartition) :=
  (headerAt d lbs).bind fun h =>
    (d.read (mul64 h.entriesLba lbs) (h.entries * h.entrySize)).map fun table =>
      (lbs, StormDrive.parseGptEntries table h)

lemma gptTable_eq_findSome? (d : Disk) : gptTable d = [512, 4096].findSome? (oneTable d) := by
  unfold gptTable
  congr 1
  funext lbs
  rw [oneTable, headerAt]
  cases (d.read lbs 512).bind StormDrive.parseGptHeader <;> rfl

lemma oneTable_eq (fits : TableFits d lbs) :
    oneTable d lbs = (tableAt d lbs).map fun ps => (lbs, ps) := by
  rw [oneTable, tableAt]
  cases header : headerAt d lbs with
  | none => rfl
  | some h =>
    rw [Option.bind_some, Option.bind_some, mul64_eq (fits.table h header), Option.map_map]
    rfl

/-- Where the places fit, the table is the one that the reader that wraps finds. -/
lemma gptTable_eq (fits : LbasFit d) : gptTable d = tableOf d := by
  rw [gptTable_eq_findSome?, List.findSome?_cons, oneTable_eq fits.1, tableOf]
  cases first : tableAt d 512 with
  | some ps => rfl
  | none =>
    rw [Option.map_none, List.findSome?_cons, oneTable_eq (fits.2 first)]
    cases tableAt d 4096 <;> rfl

lemma ends_signatureAt_iff {P : Option String → List (ℕ × ℕ) → Prop} :
    Scan.Ends (signatureAt d off) P ↔
      P ((d.read off signatureBytes).bind StormDrive.fsSignature) [(off, signatureBytes)] := by
  rw [signatureAt, Scan.ends_bind_iff, read, Scan.ends_reading_iff]
  cases d.read off signatureBytes with
  | none => exact Scan.ends_pure_iff _
  | some b =>
    dsimp only
    rw [fsSignature_eq, Scan.ends_lift_ok_iff]
    rfl

lemma ends_partitionHolds_iff {p : GptPartition}
    {P : Option (Option String × String) → List (ℕ × ℕ) → Prop} :
    Scan.Ends (partitionHolds d lbs p) P ↔ p.firstLba * lbs < 2 ^ 64 ∧
      P (((d.read (p.firstLba * lbs) signatureBytes).bind StormDrive.fsSignature).map
        fun w => (some p.label, w)) [(p.firstLba * lbs, signatureBytes)] := by
  rw [partitionHolds, Scan.ends_bind_iff, Scan.ends_mul_iff, Scan.ends_bind_iff,
    ends_signatureAt_iff, Scan.ends_pure_iff]
  rfl

lemma ends_slabPartition_iff {p : GptPartition}
    {P : Option GptPartition → List (ℕ × ℕ) → Prop} :
    Scan.Ends (slabPartition d lbs p) P ↔ p.firstLba * lbs < 2 ^ 64 ∧
      P (if (d.read (p.firstLba * lbs) 512).any StormDrive.isSlabHeader then some p else none)
        [(p.firstLba * lbs, 512)] := by
  rw [slabPartition, Scan.ends_bind_iff, Scan.ends_mul_iff, Scan.ends_bind_iff, read,
    Scan.ends_reading_iff]
  cases d.read (p.firstLba * lbs) 512 with
  | none =>
    rw [Scan.ends_pure_iff]
    rfl
  | some b =>
    dsimp only
    rw [Scan.ends_bind_iff, isSlabHeader_eq, Scan.ends_lift_ok_iff, Scan.ends_pure_iff]
    rfl

lemma ends_slabPart_iff {p : GptPartition} {P : Option SlabPart → List (ℕ × ℕ) → Prop} :
    Scan.Ends (slabPart lbs p) P ↔ p.firstLba * lbs < 2 ^ 64 ∧
      P (some ⟨some p.index, p.name, slabRole p.typeGuid, p.firstLba * lbs⟩) [] := by
  rw [slabPart, Scan.ends_bind_iff, Scan.ends_mul_iff, Scan.ends_pure_iff]
  rfl

/-- The partitions of a table that fits, as the reader that wraps names what they hold. -/
lemma ends_forEach_partitionHolds {ps : List GptPartition}
    (fits : ∀ p ∈ ps, p.firstLba * lbs < 2 ^ 64) :
    Scan.Ends (Scan.forEach (partitionHolds d lbs) ps) fun found reads =>
      found = ps.filterMap (fun p => (partitionSignature d lbs p).map fun w => (some p.label, w)) ∧
        bytesRead reads ≤ ps.length * signatureBytes := by
  refine Scan.ends_forEach fun p mem => ends_partitionHolds_iff.mpr ⟨fits p mem, ?_, ?_⟩
  · rw [partitionSignature, mul64_eq (fits p mem)]
  · rw [bytesRead_cons, bytesRead_nil]
    exact Nat.le_refl _

/-- The slabs in the partitions of a table that fits. -/
lemma ends_tableSlabs {ps : List GptPartition} (fits : ∀ p ∈ ps, p.firstLba * lbs < 2 ^ 64) :
    Scan.Ends (tableSlabs d lbs ps) fun found reads =>
      found = (let parts := slabPartitions d lbs ps
        (describeSlabs false (parts.map GptPartition.probeLabel), parts.map fun p =>
          ⟨some p.index, p.name, slabRole p.typeGuid, mul64 p.firstLba lbs⟩)) ∧
        bytesRead reads ≤ ps.length * 512 := by
  have first : Scan.Ends (Scan.forEach (slabPartition d lbs) ps) fun parts reads =>
      parts = ps.filterMap (fun p =>
        if (d.read (mul64 p.firstLba lbs) 512).any StormDrive.isSlabHeader then some p else none) ∧
        bytesRead reads ≤ ps.length * 512 := by
    refine Scan.ends_forEach fun p mem => ends_slabPartition_iff.mpr ⟨fits p mem, ?_, ?_⟩
    · rw [mul64_eq (fits p mem)]
    · rw [bytesRead_cons, bytesRead_nil]
  rw [tableSlabs, Scan.ends_bind_iff]
  refine first.imp fun parts reads h => ?_
  obtain ⟨same, few⟩ := h
  have slabs : parts = slabPartitions d lbs ps := by
    rw [same, slabPartitions, ← List.filterMap_eq_filter]
    rfl
  have inside : ∀ p ∈ parts, p.firstLba * lbs < 2 ^ 64 := by
    intro p mem
    rw [slabs, slabPartitions] at mem
    exact fits p (List.mem_of_mem_filter mem)
  have second : Scan.Ends (Scan.forEach (slabPart lbs) parts) fun slabs reads =>
      slabs = parts.filterMap (fun p =>
        some ⟨some p.index, p.name, slabRole p.typeGuid, mul64 p.firstLba lbs⟩) ∧
        bytesRead reads ≤ parts.length * 0 := by
    refine Scan.ends_forEach fun p mem => ends_slabPart_iff.mpr ⟨inside p mem, ?_, ?_⟩
    · rw [mul64_eq (inside p mem)]
    · exact Nat.le_refl _
  rw [Scan.ends_bind_iff]
  refine second.imp fun found more h => ?_
  obtain ⟨rfl, none⟩ := h
  rw [Scan.ends_pure_iff, List.filterMap_eq_map', slabs, List.append_nil, bytesRead_append]
  exact ⟨rfl, by omega⟩

/-- **Where the places fit, `holds` gives what the reader that wraps gives**, and reads no more than
its bound. -/
lemma ends_holds (fits : LbasFit d) : Scan.Ends (holds d) fun text reads =>
    text = StormDrive.holds d ∧ bytesRead reads ≤ readBound d := by
  rw [holds, Scan.ends_bind_iff, ends_signatureAt_iff, Scan.ends_bind_iff]
  refine (ends_firstTable fits fun lbs ps fits => ends_forEach_partitionHolds fits).imp
    fun parts reads h => ?_
  obtain ⟨rfl, few⟩ := h
  rw [Scan.ends_pure_iff, bytesRead_append, bytesRead_cons, bytesRead_nil, List.append_nil,
    StormDrive.holds, findings, gptTable_eq fits, readBound]
  refine ⟨?_, by dsimp only; omega⟩
  cases tableOf d with
  | none => rfl
  | some t =>
    rw [Option.map_some, Option.getD_some]

/-- **Where the places fit, `probe` gives what the reader that wraps gives**, and reads no more than
its bound. -/
lemma ends_probe (fits : LbasFit d) : Scan.Ends (probe d) fun found reads =>
    found = probeSlabs d ∧ bytesRead reads ≤ readBound d := by
  have small : 512 ≤ readBound d := by
    rw [readBound]
    omega
  rw [probe, Scan.ends_bind_iff, read, Scan.ends_reading_iff, probeSlabs]
  cases d.read 0 512 with
  | none =>
    rw [Scan.ends_pure_iff]
    exact ⟨rfl, small⟩
  | some head =>
    dsimp only
    rw [Scan.ends_bind_iff, isSlabHeader_eq, Scan.ends_lift_ok_iff]
    by_cases slab : StormDrive.isSlabHeader head = true
    · rw [if_pos slab, if_pos slab, Scan.ends_pure_iff]
      exact ⟨rfl, small⟩
    · rw [if_neg slab, if_neg slab, Scan.ends_bind_iff, hasAt_eq, Scan.ends_lift_ok_iff]
      by_cases raid : head.hasAt 0 stormraidMagic = true
      · rw [if_pos raid, if_pos raid, Scan.ends_pure_iff]
        exact ⟨rfl, small⟩
      · rw [if_neg raid, if_neg raid, Scan.ends_bind_iff]
        refine (ends_firstTable fits fun lbs ps fits => ends_tableSlabs fits).imp
          fun found reads h => ?_
        obtain ⟨rfl, few⟩ := h
        have less : (announced d 512 + announced d 4096) * (4096 + 512) ≤
            (announced d 512 + announced d 4096) * (4096 + signatureBytes) :=
          Nat.mul_le_mul_left _ (by decide)
        rw [Scan.ends_pure_iff, gptTable_eq fits, readBound]
        constructor
        · cases tableOf d with
          | none => rfl
          | some t => rfl
        · simp only [bytesRead_append, bytesRead_cons, bytesRead_nil]
          have signature : 512 ≤ signatureBytes := by decide
          omega

end Readers

/-- **Both readers are safe exactly when the places in the table fit**: what they compute does not
overflow, they look only at what they read, and they read a bounded amount for each entry.

**Proof sketch.** Each step of the walk ends exactly when its products fit, so that a walk that ends
has multiplied each place that is in the condition. The other way round no step fails: the parsers
ask for fixed places of buffers whose length they know, and the chunks of a table are inside it. -/
theorem readsSafely_iff (d : Disk) : ReadsSafely d ↔ LbasFit d := by
  constructor
  · intro safe
    have ends := safe.holds
    rw [holds, Scan.ends_bind_iff, ends_signatureAt_iff, Scan.ends_bind_iff] at ends
    have needs : ∀ lbs (ps : List GptPartition) (Q : List (Option String × String) →
        List (ℕ × ℕ) → Prop), Scan.Ends (Scan.forEach (partitionHolds d lbs) ps) Q →
        ∀ p ∈ ps, p.firstLba * lbs < 2 ^ 64 :=
      fun lbs ps Q h p mem => (ends_partitionHolds_iff.mp (h.of_forEach p mem)).1
    obtain ⟨first, next⟩ := fits_of_ends (needs 512) ends
    refine ⟨first, fun none => ?_⟩
    obtain ⟨Q, ends⟩ := next none
    exact (fits_of_ends (needs 4096) ends).1
  · exact fun fits => ⟨(ends_holds fits).imp fun _ _ h => h.2,
      (ends_probe fits).imp fun _ _ h => h.2, announced_le d 512, announced_le d 4096⟩

/-- A disk with one table, of one entry of 128 bytes, that says it is at LBA `2 ^ 55`. -/
def farTable : Disk where
  size := 2 ^ 20
  byte i := (ascii "EFI PART" ++ List.replicate 64 0 ++ [0, 0, 0, 0, 0, 0, 0x80, 0] ++
    [1, 0, 0, 0] ++ [0x80, 0, 0, 0]).getD (i - 512) 0

/-- **A table that says it is at 32 EiB** makes the product of the place and the block size
overflow. -/
theorem far_table_overflows : ¬ ReadsSafely farTable := by
  have header : headerAt farTable 512 = some ⟨2 ^ 55, 1, 128⟩ := by decide +kernel
  intro safe
  have ends := safe.holds
  rw [holds, Scan.ends_bind_iff, ends_signatureAt_iff, Scan.ends_bind_iff, ends_firstTable_iff,
    header] at ends
  exact absurd ends.1 (by decide)

end TableWalk

end StormDrive
