import Mathlib.Data.Prod.Lex
import Mathlib.Data.String.Basic
import Mathlib.Order.OrderDual
import StormDrive.Bytes.Checked
import StormDrive.DriveFirmware
import StormDrive.Interleave.StableSort

set_option relaxedAutoImplicit false
set_option autoImplicit false

/-!
# What a drive holds

How much of a drive is used, and by which volumes (`usage.rs`): the engine lists its slabs and its
volumes, and each entry names a drive by WWN, serial or path.

## Main definitions

* `DriveUsage.slabOn`, `DriveUsage.placedOn` — an entry of a listing is on the drive.
* `DriveUsage.compute` — the usage of a drive, from the slabs.
* `DriveUsage.volumesOn` — the volumes on a drive, from their placement.
* `DriveUsage.refresh` — both.

## Implementation notes

A text that is missing from the listing is empty, a number that is missing is zero, except where the
source tells them apart. The sums are of `u64`: one out of range is an overflow. What a slab space
may promise is computed with floating point in the source and is a parameter here.
-/

namespace StormDrive

namespace DriveUsage

open DriveFirmware (Ref worst)

/-! ## Whose an entry is -/

/-- `slab_on`: an entry that names a WWN is matched on it alone. -/
def slabOn (r : Option Ref) (d : Drive) : Bool :=
  match r with
  | none => false
  | some r =>
    if r.wwn ≠ "" then d.wwid.any fun w => Text.eqIgnoreAsciiCase w r.wwn
    else if r.serial ≠ "" then r.serial = d.serial
    else r.path ≠ "" && (r.path = d.path || d.paths.contains r.path)

/-- The path of an entry is a fabric one. -/
def onFabric (r : Option Ref) : Bool :=
  r.any fun r => Text.contains r.path "://"

/-- `placed_on`: a fabric drive is another node's. -/
def placedOn (r : Option Ref) (d : Drive) : Bool :=
  !onFabric r && slabOn r d

/-! ## Slabs -/

/-- An item of the engine's list of slabs. -/
structure Slab where
  id : String
  role : String := ""
  tier : String := ""
  drive : Option Ref
  slotSize : ℕ
  totalBytes : ℕ
  freeBytes : ℕ
  allocatedSlots : Option ℕ := none
  committedBytes : Option ℕ := none
  deriving DecidableEq

/-- A slab on a drive. -/
structure SlabUsage where
  id : String
  role : String
  tier : String
  slotSize : ℕ
  totalBytes : ℕ
  allocatedBytes : ℕ
  freeBytes : ℕ
  committedBytes : Option ℕ
  deriving DecidableEq

/-- The bytes that are allocated in a slab. -/
def allocated (s : Slab) : Checked Empty ℕ :=
  match s.allocatedSlots with
  | some n => if 0 < s.slotSize then Checked.mul n s.slotSize else .ok (s.totalBytes - s.freeBytes)
  | none => .ok (s.totalBytes - s.freeBytes)

/-- `slab_usage`. -/
def slabUsage (s : Slab) : Checked Empty SlabUsage := do
  let allocatedBytes ← allocated s
  .ok
    { id := s.id, role := s.role, tier := s.tier, slotSize := s.slotSize
      totalBytes := s.totalBytes, allocatedBytes := allocatedBytes, freeBytes := s.freeBytes
      committedBytes := s.committedBytes }

/-- One after the other, to the first that fails. -/
def each {α β : Type} (f : α → Checked Empty β) : List α → Checked Empty (List β)
  | [] => .ok []
  | a :: l => do
    let b ← f a
    let bs ← each f l
    .ok (b :: bs)

/-! ## Volumes -/

/-- A drive or a slab in the placement of a volume. A drive has no `id`. -/
structure Entry where
  id : String := ""
  drive : Option Ref
  bytes : ℕ := 0
  legs : ℕ := 0
  sharedLegs : ℕ := 0
  state : String := ""
  deriving DecidableEq

/-- Where a volume is. -/
structure Placement where
  drives : List Entry
  slabs : List Entry
  rebuild : String := ""
  policy : String := ""
  health : String := ""
  deriving DecidableEq

/-- Who uses a volume. -/
structure Consumer where
  kind : String
  space : String
  name : String
  deriving DecidableEq

/-- An item of the engine's list of volumes. -/
structure Volume where
  id : String
  name : String := ""
  kind : String := ""
  consumer : Option Consumer := none
  placement : Option Placement
  deriving DecidableEq

/-- One volume with legs on a drive. -/
structure DriveVolume where
  id : String
  name : String
  kind : String
  consumer : Option Consumer
  bytes : ℕ
  legs : ℕ
  sharedLegs : ℕ
  state : String
  rebuild : String
  policy : Option String
  health : Option String
  deriving DecidableEq

/-- A text, unless it is empty. -/
def word (s : String) : Option String :=
  if s = "" then none else some s

/-- A volume, if one of its drives is this one. -/
def volumeOn (d : Drive) (v : Volume) (p : Placement) : Checked Empty (Option DriveVolume) :=
  let here := p.drives.filter fun e => placedOn e.drive d
  let slabs := p.slabs.filter fun e => placedOn e.drive d
  if here = [] then .ok none
  else do
    let bytes ← Checked.sum (here.map Entry.bytes)
    let legs ← Checked.sum (here.map Entry.legs)
    let sharedLegs ← Checked.sum (slabs.map Entry.sharedLegs)
    .ok (some
      { id := v.id
        name := (word v.name).getD v.id
        kind := (word v.kind).getD "volume"
        consumer := v.consumer.filter fun c => c.kind ≠ "" ∧ c.name ≠ ""
        bytes := bytes
        legs := legs
        sharedLegs := sharedLegs
        state := (worst.find? fun w => slabs.any fun s => s.state = w).getD "ok"
        rebuild := (word p.rebuild).getD "none"
        policy := word p.policy
        health := word p.health })

/-- The volumes that say where they are. -/
def placed (volumes : List Volume) : List (Volume × Placement) :=
  volumes.filterMap fun v => v.placement.map fun p => (v, p)

/-- The order of the volumes of a drive: the largest first. -/
def largestFirst (v : DriveVolume) : ℕᵒᵈ ×ₗ String :=
  toLex (OrderDual.toDual v.bytes, v.id)

/-- **The volumes with legs on the drive**; none when no volume says where it is. -/
def volumesOn (d : Drive) (volumes : List Volume) : Checked Empty (Option (List DriveVolume)) :=
  if placed volumes = [] ∧ volumes ≠ [] then .ok none
  else do
    let out ← each (fun x => volumeOn d x.1 x.2) (placed volumes)
    .ok (some (StableSort.byKey largestFirst out.reduceOption))

/-! ## The usage of a drive -/

/-- How much of a drive is used. -/
structure Usage where
  capacityBytes : ℕ
  slabs : List SlabUsage
  inSlabsBytes : ℕ
  usedBytes : ℕ
  freeInSlabsBytes : ℕ
  outsideSlabsBytes : ℕ
  freeBytes : ℕ
  promisableBytes : ℕ
  committedBytes : Option ℕ
  headroomBytes : Option ℕ
  collectedAt : ℕ
  volumes : Option (List DriveVolume) := none
  volumesCollectedAt : Option ℕ := none
  deriving DecidableEq

/-- The order of the slabs of a drive. -/
def byRole (s : SlabUsage) : String ×ₗ String :=
  toLex (s.role, s.id)

/-- The slabs of the list that are on the drive. -/
def mine (d : Drive) (slabs : List Slab) : List Slab :=
  slabs.filter fun s => slabOn s.drive d

section Compute

variable (promise : Overcommit → ℕ → ℕ)

/-- `Usage::priced`: what the slabs may promise under an overcommit setting. -/
def Usage.priced (u : Usage) (oc : Overcommit) : Usage :=
  { u with
    promisableBytes := promise oc u.inSlabsBytes
    headroomBytes := u.committedBytes.map fun c => promise oc u.inSlabsBytes - c }

/-- **The usage of a drive**, from the engine's whole list of slabs. -/
def compute (d : Drive) (slabs : List Slab) (now : ℕ) : Checked Empty Usage := do
  let usages ← each slabUsage (mine d slabs)
  let usages := StableSort.byKey byRole usages
  let inSlabs ← Checked.sum (usages.map SlabUsage.totalBytes)
  let used ← Checked.sum (usages.map SlabUsage.allocatedBytes)
  let freeInSlabs ← Checked.sum (usages.map SlabUsage.freeBytes)
  let committed ← Checked.sumSome (usages.map SlabUsage.committedBytes)
  let usage : Usage :=
    { capacityBytes := d.capacityBytes, slabs := usages, inSlabsBytes := inSlabs
      usedBytes := used, freeInSlabsBytes := freeInSlabs
      outsideSlabsBytes := d.capacityBytes - inSlabs, freeBytes := d.capacityBytes - used
      promisableBytes := 0, committedBytes := committed, headroomBytes := none
      collectedAt := now }
  .ok (usage.priced promise d.overcommit)

/-- One tick's usage: the volumes stay the last ones when their listing did not answer. -/
def refresh (d : Drive) (slabs : List Slab) (volumes : Option (List Volume)) (last : Option Usage)
    (now : ℕ) : Checked Empty Usage := do
  let u ← compute promise d slabs now
  match volumes with
  | some vs => do
    let found ← volumesOn d vs
    .ok { u with volumes := found, volumesCollectedAt := found.map fun _ => now }
  | none =>
    match last with
    | some last =>
      .ok { u with volumes := last.volumes, volumesCollectedAt := last.volumesCollectedAt }
    | none => .ok u

end Compute

end DriveUsage

end StormDrive
