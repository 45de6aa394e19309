import Mathlib.Algebra.Ring.Nat
import StormDrive.InUse

set_option relaxedAutoImplicit false
set_option autoImplicit false

/-!
# What is on a disk

The model of `contents.rs`: the two readers of a disk image, `holds` (what a destructive step would
destroy) and `probe` (does stormblock or stormraid hold it), with the GPT and the signatures they
look for.

## Main definitions

* `Disk`, `Disk.read`, `Disk.put` — a disk image; reads and writes of it, which fail past its end.
* `fsSignature` — what a region holds, by its magic numbers.
* `gptTable` — the partitions of the first table found.
* `holds`, `probe`, `holdsDrive` — the readers.

## Main results

* `holds_shows_region` — a region in which `holds` finds a slab or a RAID member makes its text
  show data of the engine.

## Implementation notes

A buffer is its length with a function to bytes, so that a read of many bytes costs nothing until
a byte is looked at. A product of two 64-bit values wraps, as it does in a release build. A node
that cannot be opened is the empty disk.
-/

namespace StormDrive

/-! ## Buffers and disks -/

/-- A buffer of bytes. -/
structure Buf where
  len : Nat
  byte : Nat → UInt8

/-- A disk image. -/
structure Disk where
  size : Nat
  byte : Nat → UInt8

/-- A disk that cannot be opened, or has no blocks the kernel can read. -/
def Disk.unreadable : Disk := ⟨0, fun _ => 0⟩

/-- Read `len` bytes at `off`: all of them, or nothing. -/
def Disk.read (d : Disk) (off len : Nat) : Option Buf :=
  if off + len ≤ d.size then some ⟨len, fun i => d.byte (off + i)⟩ else none

/-- The disk with `buf` over what is at `off`. -/
def Disk.over (d : Disk) (buf : List UInt8) (off : Nat) : Disk where
  size := d.size
  byte i := if off ≤ i ∧ i < off + buf.length then buf.getD (i - off) 0 else d.byte i

/-- Write all of `buf` at `off`. -/
def Disk.put (d : Disk) (buf : List UInt8) (off : Nat) : Except String Disk :=
  if off + buf.length ≤ d.size then .ok (d.over buf off)
  else .error "No space left on device (os error 28)"

lemma Disk.put_eq {d : Disk} {buf : List UInt8} {off : Nat} (fits : off + buf.length ≤ d.size) :
    d.put buf off = .ok (d.over buf off) := if_pos fits

@[simp] lemma Disk.size_over (d : Disk) (buf : List UInt8) (off : Nat) :
    (d.over buf off).size = d.size := rfl

lemma Disk.byte_over_of_mem {d : Disk} {buf : List UInt8} {off i : Nat} (past : off ≤ i)
    (before : i < off + buf.length) : (d.over buf off).byte i = buf.getD (i - off) 0 :=
  if_pos ⟨past, before⟩

lemma Disk.byte_over_of_not_mem {d : Disk} {buf : List UInt8} {off i : Nat}
    (outside : i < off ∨ off + buf.length ≤ i) : (d.over buf off).byte i = d.byte i :=
  if_neg (by omega)

/-- A 64-bit product. -/
def mul64 (a b : Nat) : Nat :=
  a * b % 2 ^ 64

namespace Buf

/-- The buffer has `magic` at `off`. -/
def hasAt (b : Buf) (off : Nat) (magic : List UInt8) : Bool :=
  off + magic.length ≤ b.len && magic.zipIdx.all fun m => b.byte (off + m.2) == m.1

/-- The little-endian number of `n` bytes at `off`. -/
def leAt (b : Buf) (off n : Nat) : Nat :=
  (List.range n).foldr (fun i acc => (b.byte (off + i)).toNat + 256 * acc) 0

/-- `n` bytes from `off`. -/
def slice (b : Buf) (off n : Nat) : Buf :=
  ⟨n, fun i => b.byte (off + i)⟩

end Buf

/-- The bytes of an ASCII text. -/
def ascii (s : String) : List UInt8 :=
  s.toList.map fun c => UInt8.ofNat c.toNat

/-! ## The partition table -/

/-- The fields of a GPT header that a walk of its entries needs. -/
structure GptHeader where
  entriesLba : Nat
  entries : Nat
  entrySize : Nat
  deriving DecidableEq

/-- The header, when the signature is there and its bounds are sane. -/
def parseGptHeader (b : Buf) : Option GptHeader :=
  if b.len < 92 || !b.hasAt 0 (ascii "EFI PART") then none
  else
    let h : GptHeader := ⟨b.leAt 72 8, b.leAt 80 4, b.leAt 84 4⟩
    if h.entriesLba < 2 || h.entries = 0 || 1024 < h.entries then none
    else if h.entrySize < 128 || 4096 < h.entrySize || h.entrySize % 8 ≠ 0 then none
    else some h

/-- One GPT entry that is in use. -/
structure GptPartition where
  index : Nat
  firstLba : Nat
  name : String
  typeGuid : List UInt8
  deriving DecidableEq

/-- UTF-16 units as text, a lone surrogate as U+FFFD. -/
def fromUtf16Lossy : List Nat → List Char
  | [] => []
  | [u] => [if 0xD800 ≤ u ∧ u ≤ 0xDFFF then Char.ofNat 0xFFFD else Char.ofNat u]
  | u :: v :: rest =>
    if 0xD800 ≤ u ∧ u ≤ 0xDBFF ∧ 0xDC00 ≤ v ∧ v ≤ 0xDFFF then
      Char.ofNat (0x10000 + (u - 0xD800) * 0x400 + (v - 0xDC00)) :: fromUtf16Lossy rest
    else if 0xD800 ≤ u ∧ u ≤ 0xDFFF then Char.ofNat 0xFFFD :: fromUtf16Lossy (v :: rest)
    else Char.ofNat u :: fromUtf16Lossy (v :: rest)

/-- The name of an entry: up to 36 units, ended by a zero. -/
def entryName (e : Buf) : String :=
  String.ofList <| fromUtf16Lossy <|
    ((List.range 36).map fun i => e.leAt (56 + 2 * i) 2).takeWhile (· ≠ 0)

/-- One entry: in use when its type is not zero and its range is not empty. -/
def parseGptEntry (e : Buf) (i : Nat) : Option GptPartition :=
  let typeGuid := (List.range 16).map e.byte
  let first := e.leAt 32 8
  let last := e.leAt 40 8
  if typeGuid.all (· == 0) then none
  else if first = 0 || last < first then none
  else some ⟨i + 1, first, entryName e, typeGuid⟩

/-- The entries in use. -/
def parseGptEntries (table : Buf) (h : GptHeader) : List GptPartition :=
  (List.range (min (table.len / h.entrySize) h.entries)).filterMap fun i =>
    parseGptEntry (table.slice (i * h.entrySize) h.entrySize) i

/-- The first table found at LBA 1 of 512 or of 4096 bytes: the LBA size and the partitions. -/
def gptTable (d : Disk) : Option (Nat × List GptPartition) :=
  [512, 4096].findSome? fun lbs =>
    match (d.read lbs 512).bind parseGptHeader with
    | none => none
    | some h =>
      (d.read (mul64 h.entriesLba lbs) (h.entries * h.entrySize)).map fun table =>
        (lbs, parseGptEntries table h)

/-! ## Signatures -/

/-- How much of a region `fsSignature` needs. -/
def signatureBytes : Nat := 64 * 1024 + 4096

/-- stormblock's slab header magic. -/
def slabMagic : List UInt8 := ascii "STRMSLAB"

/-- stormraid's superblock magic. -/
def stormraidMagic : List UInt8 := ascii "STORMRD1"

/-- The buffer begins with a slab header. -/
def isSlabHeader (b : Buf) : Bool :=
  b.hasAt 0 slabMagic

/-- What a region holds, by the first signature found. -/
def fsSignature (b : Buf) : Option String :=
  if b.hasAt 0 slabMagic then some "stormblock slab"
  else if b.hasAt 0 stormraidMagic then some "stormraid member"
  else if b.hasAt 0 (ascii "LUKS" ++ [0xBA, 0xBE]) then some "LUKS"
  else if b.hasAt 0 (ascii "XFSB") then some "xfs"
  else if b.hasAt 3 (ascii "NTFS    ") then some "ntfs"
  else if b.hasAt 0x438 [0x53, 0xEF] then some "ext2/3/4"
  else if b.hasAt 0x10040 (ascii "_BHRfS_M") then some "btrfs"
  else if b.hasAt 0x218 (ascii "LVM2 001") || b.hasAt 0x018 (ascii "LVM2 001") then some "LVM2"
  else if b.hasAt 4086 (ascii "SWAPSPACE2") || b.hasAt 4086 (ascii "SWAP-SPACE") then some "swap"
  else if b.hasAt 4096 [0xFC, 0x4E, 0x2B, 0xA9] || b.hasAt 0 [0xFC, 0x4E, 0x2B, 0xA9] then
    some "linux_raid"
  else if b.hasAt 510 [0x55, 0xAA] && (b.hasAt 82 (ascii "FAT32   ") ||
      b.hasAt 54 (ascii "FAT16   ") || b.hasAt 54 (ascii "FAT12   ")) then
    some "vfat"
  else none

/-! ## Everything a destructive step would destroy -/

/-- One finding in words. -/
def describeHolding (f : Option String × String) : String :=
  match f.1 with
  | none => f.2 ++ " (whole drive)"
  | some p => f.2 ++ " in partition " ++ p

/-- The sentence for `holds`. -/
def describeHoldings (found : List (Option String × String)) : Option String :=
  if found = [] then none else some (Text.join ", " (found.map describeHolding))

/-- A partition's number and name. -/
def GptPartition.label (p : GptPartition) : String :=
  if p.name.isEmpty then toString p.index
  else toString p.index ++ " '" ++ p.name ++ "'"

/-- What the region of a partition holds. -/
def partitionSignature (d : Disk) (lbs : Nat) (p : GptPartition) : Option String :=
  (d.read (mul64 p.firstLba lbs) signatureBytes).bind fsSignature

/-- The findings: the whole disk, then each partition of the table. -/
def findings (d : Disk) : List (Option String × String) :=
  let whole := (d.read 0 signatureBytes).bind fsSignature
  let parts := match gptTable d with
    | none => []
    | some (lbs, ps) => ps.filterMap fun p =>
        (partitionSignature d lbs p).map fun w => (some p.label, w)
  whole.toList.map (fun w => (none, w)) ++ parts

/-- Everything on the drive a destructive step would destroy, read through the kernel. -/
def holds (d : Disk) : Option String :=
  describeHoldings (findings d)

/-- The printable runs of six characters or more, three at most, without repeats. -/
def printableRuns : List UInt8 → List Char → List String → List String
  | [], run, found => keepRun run found
  | b :: rest, run, found =>
    let c := Char.ofNat b.toNat
    if c.isAlphanum || c = '_' || c = '-' || c = '.' || c = ':' || c = '/' then
      printableRuns rest (run ++ [c]) found
    else printableRuns rest [] (keepRun run found)
where
  /-- A run that ends is kept when it is long enough, new, and one of the first three. -/
  keepRun (run : List Char) (found : List String) : List String :=
    if 6 ≤ run.length && !found.contains (String.ofList run) && found.length < 3 then
      found ++ [String.ofList run]
    else found

/-- What the first blocks of a drive hold that the kernel cannot read. -/
def describeRaw (buf : List UInt8) (blockLen : Nat) : Option String :=
  if buf.all (· == 0) then none
  else
    let strings := printableRuns buf [] []
    let blocks := buf.length / max blockLen 1
    let s := "foreign data (" ++ toString blockLen ++ "-byte sectors): first " ++
      toString blocks ++ " blocks not blank"
    if strings = [] then some s
    else some (s ++ "; strings: " ++ Text.join ", " (strings.map fun x => "\"" ++ x ++ "\""))

/-- What a fresh read can see of a drive: the image behind its block node, and the first blocks
through SG, when they could be read. -/
structure FreshDisk where
  kernel : Disk
  raw : Option (List UInt8) := none

/-- What a drive holds, whichever way it can be read. -/
def holdsDrive (d : Drive) (disk : FreshDisk) : Option String :=
  if d.usable then holds disk.kernel else disk.raw.bind fun buf => describeRaw buf d.blockSize

/-! ## Who holds the drive -/

/-- The sentence for a stormraid member. -/
def stormraidHolder : String := "stormraid (a RAID set member)"

/-- Whose data is on the drive, by its slabs. -/
def describeSlabs (wholeDrive : Bool) (partitions : List String) : Option String :=
  if wholeDrive then some "stormblock (a slab on the whole drive)"
  else if partitions = [] then none
  else some ("stormblock (slabs in partitions " ++ Text.join ", " partitions ++ ")")

/-- The partition type of a system slab. -/
def typeSlab : List UInt8 :=
  [0x2E, 0x7B, 0x9A, 0x4C, 0x63, 0x1D, 0x8A, 0x4F, 0x9E, 0x51, 0x0B, 0x7C, 0x2A, 0x6D, 0x3F, 0x14]

/-- The partition type of a data slab. -/
def typeSlabData : List UInt8 :=
  [0x91, 0x5A, 0x3E, 0x7D, 0x24, 0x6C, 0x8F, 0x4B, 0xA0, 0x5D, 0x2E, 0x91, 0x47, 0xBC, 0x6F, 0x38]

/-- The half a slab partition belongs to, by its type. -/
def slabRole (typeGuid : List UInt8) : String :=
  if typeGuid = typeSlabData then "data"
  else if typeGuid = typeSlab then "system"
  else "unknown"

/-- A partition in the words of `probe`. -/
def GptPartition.probeLabel (p : GptPartition) : String :=
  if p.name.isEmpty then "#" ++ toString p.index
  else toString p.index ++ " '" ++ p.name ++ "'"

/-- The partitions of the table that begin with a slab header. -/
def slabPartitions (d : Disk) (lbs : Nat) (ps : List GptPartition) : List GptPartition :=
  ps.filter fun p => (d.read (mul64 p.firstLba lbs) 512).any isSlabHeader

/-- Who holds the drive, and each slab found on it. -/
def probeSlabs (d : Disk) : Option String × List SlabPart :=
  match d.read 0 512 with
  | none => (none, [])
  | some head =>
    if isSlabHeader head then (describeSlabs true [], [⟨none, "", "unknown", 0⟩])
    else if head.hasAt 0 stormraidMagic then (some stormraidHolder, [])
    else
      match gptTable d with
      | none => (none, [])
      | some (lbs, ps) =>
        let parts := slabPartitions d lbs ps
        (describeSlabs false (parts.map GptPartition.probeLabel),
          parts.map fun p =>
            ⟨some p.index, p.name, slabRole p.typeGuid, mul64 p.firstLba lbs⟩)

/-- Who holds the drive, or none when it carries no slab. -/
def probe (d : Disk) : Option String :=
  (probeSlabs d).1

/-! ## What the text of a read shows -/

/-- A finding in words contains what was found. -/
lemma contains_describeHolding (part : Option String) (what : String) :
    Text.contains (describeHolding (part, what)) what = true := by
  rcases part with _ | p
  · exact Text.contains_append_left _ (Text.contains_self what)
  · exact Text.contains_append_left _ (Text.contains_append_left _ (Text.contains_self what))

/-- **A slab or a RAID member that `holds` finds in a region shows in its text**, so that the
guard takes the drive to be in use. -/
theorem holds_shows_region {d : Disk} {part : Option String} {what : String}
    (hf : (part, what) ∈ findings d) (hw : what = "stormblock slab" ∨ what = "stormraid member") :
    ShowsEngineData (holds d) := by
  have hne : findings d ≠ [] := List.ne_nil_of_mem hf
  have htext : Text.contains (Text.join ", " ((findings d).map describeHolding)) what = true :=
    Text.contains_join _ (List.mem_map_of_mem hf) (contains_describeHolding part what)
  refine ⟨Text.join ", " ((findings d).map describeHolding), ?_, ?_⟩
  · simp [holds, describeHoldings, hne]
  · rcases hw with rfl | rfl
    · exact .inl htext
    · exact .inr htext

end StormDrive
