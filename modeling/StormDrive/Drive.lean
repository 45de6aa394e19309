import Mathlib.Data.Option.Basic
import StormDrive.Text

set_option relaxedAutoImplicit false
set_option autoImplicit false

/-!
# The drive record

The drive model of `drive.rs`: identity, kind, place, state and health of a drive, and the
functions of the record that decide what may be done with it. Records keep the fields that the
modelled functions read or write. A time stamp and the fields that only a console shows are left
out.

## Main definitions

* `Drive` — one physical drive as the inventory keeps it.
* `Supports.offers`, `Supports.plan` — the formats a SCSI drive offers (`pi.rs`).
* `Drive.needsReformat`, `Drive.servesData` — predicates of the record.

## Implementation notes

An identifier of the source's `uuid` crate is a 128-bit vector, written in the crate's hyphenated
form. A temperature is a text, as its only use is in a message.
-/

namespace StormDrive

/-! ## Identity -/

/-- A UUID. -/
structure Uuid where
  bits : BitVec 128
  deriving DecidableEq

namespace Uuid

/-- One lower-case hexadecimal digit. -/
def hexDigit (n : Nat) : Char :=
  if n < 10 then Char.ofNat (48 + n) else Char.ofNat (87 + n)

lemma hexDigit_injective : ∀ n < 16, ∀ m < 16, hexDigit n = hexDigit m → n = m := by
  decide

/-- The hyphenated lower-case form, 8-4-4-4-12. -/
def text (u : Uuid) : String :=
  String.ofList <| (List.range 32).flatMap fun i =>
    let digit := hexDigit ((u.bits >>> (4 * (31 - i))).toNat % 16)
    if i = 8 ∨ i = 12 ∨ i = 16 ∨ i = 20 then ['-', digit] else [digit]

end Uuid

/-- The stable identity of a drive. -/
structure DriveId where
  uuid : Uuid
  deriving DecidableEq

/-- The key an identity is derived from: the WWID when there is one that is not blank, else model
and serial. -/
def DriveId.deriveKey (wwid : Option String) (model serial : String) : String :=
  let fallback := Text.trim model ++ ":" ++ Text.trim serial
  match wwid with
  | some w => if Text.trim w ≠ "" then Text.trim w else fallback
  | none => fallback

/-- The identity of a device. The name-based UUID of the `uuid` crate is the parameter `newV5`. -/
def DriveId.derive (newV5 : String → Uuid) (wwid : Option String) (model serial : String) :
    DriveId :=
  ⟨newV5 (deriveKey wwid model serial)⟩

/-- What kind of drive it is. -/
inductive DriveKind
  | nvmeSsd | sasSsd | sasHdd | sataSsd | sataHdd | unknown
  deriving DecidableEq

/-- A SATA drive, with or without platters. -/
def DriveKind.isSata : DriveKind → Bool
  | .sataHdd | .sataSsd => true
  | _ => false

/-! ## Place -/

/-- The HBA a drive hangs off. -/
structure Controller where
  scsiHost : Option String := none
  pcieAddr : Option String := none
  driver : Option String := none
  deriving DecidableEq

/-- Where a shelf is. -/
inductive Position
  | internal | front | rear | external
  deriving DecidableEq

/-- A SAS shelf. -/
structure Shelf where
  id : Option String := none
  vendor : Option String := none
  model : Option String := none
  serial : Option String := none
  sasAddress : Option String := none
  logicalId : Option String := none
  position : Option Position := none
  deriving DecidableEq

/-- The stable key for grouping: the enclosure logical id, else the serial, else the sysfs id. -/
def Shelf.key (s : Shelf) : Option String :=
  s.logicalId <|> s.serial <|> s.id

/-- Where the drive physically is. -/
structure Location where
  controller : Option Controller := none
  shelf : Option Shelf := none
  bay : Option Nat := none
  sasAddress : Option String := none
  sasPhy : Option Nat := none
  expander : Option String := none
  pcieAddr : Option String := none
  pcieSlot : Option String := none
  position : Option Position := none
  deriving DecidableEq

/-- This rescan's location, merged with what was known. On another shelf the rescan is taken
whole; on the same one a field it could not read keeps its value. -/
def Location.refreshed (old fresh : Location) : Location :=
  if old.shelf.bind Shelf.key ≠ fresh.shelf.bind Shelf.key then fresh
  else
    let shelf := match old.shelf, fresh.shelf with
      | some o, some n => some
          { id := n.id <|> o.id, vendor := n.vendor <|> o.vendor, model := n.model <|> o.model,
            serial := n.serial <|> o.serial, sasAddress := n.sasAddress <|> o.sasAddress,
            logicalId := n.logicalId <|> o.logicalId, position := n.position <|> o.position }
      | _, n => n
    { controller := fresh.controller <|> old.controller, shelf := shelf,
      bay := fresh.bay <|> old.bay, sasAddress := fresh.sasAddress <|> old.sasAddress,
      sasPhy := fresh.sasPhy <|> old.sasPhy, expander := fresh.expander <|> old.expander,
      pcieAddr := fresh.pcieAddr <|> old.pcieAddr, pcieSlot := fresh.pcieSlot <|> old.pcieSlot,
      position := fresh.position <|> old.position }

/-- The labels that the engine knows the place by. -/
def Location.labels (l : Location) : List (String × String) :=
  (l.shelf.bind Shelf.key).toList.map (fun k => ("shelf", k)) ++
  l.bay.toList.map (fun b => ("bay", toString b)) ++
  (l.controller.bind Controller.scsiHost).toList.map (fun h => ("hba", h)) ++
  l.pcieSlot.toList.map (fun s => ("pcie_slot", s))

/-! ## State -/

/-- Is the drive handed to stormblock? -/
inductive Membership
  | out | fleet
  deriving DecidableEq

/-- The operator's label. -/
inductive Designation
  | none | reserved | spare | failed | system
  deriving DecidableEq

/-- A designation as Rust's `Debug` writes it. -/
def Designation.debug : Designation → String
  | none => "None"
  | reserved => "Reserved"
  | spare => "Spare"
  | failed => "Failed"
  | system => "System"

/-- What the drive is doing right now. -/
inductive Activity
  | idle | testing | draining | formatting | sanitizing | updatingFirmware | missing
  deriving DecidableEq

/-- An activity on the wire (`snake_case`). -/
def Activity.word : Activity → String
  | idle => "idle"
  | testing => "testing"
  | draining => "draining"
  | formatting => "formatting"
  | sanitizing => "sanitizing"
  | updatingFirmware => "updating_firmware"
  | missing => "missing"

/-- An activity as Rust's `Debug` writes it. -/
def Activity.debug : Activity → String
  | idle => "Idle"
  | testing => "Testing"
  | draining => "Draining"
  | formatting => "Formatting"
  | sanitizing => "Sanitizing"
  | updatingFirmware => "UpdatingFirmware"
  | missing => "Missing"

/-- A health verdict, in order of severity. -/
inductive HealthStatus
  | unknown | good | warning | failing | failed
  deriving DecidableEq

/-- The verdict's place in the order the source derives. -/
def HealthStatus.severity : HealthStatus → Nat
  | unknown => 0
  | good => 1
  | warning => 2
  | failing => 3
  | failed => 4

/-- A verdict as Rust's `Debug` writes it. -/
def HealthStatus.debug : HealthStatus → String
  | unknown => "Unknown"
  | good => "Good"
  | warning => "Warning"
  | failing => "Failing"
  | failed => "Failed"

/-- `status >= HealthStatus::Failing`. -/
def HealthStatus.atLeastFailing (s : HealthStatus) : Bool :=
  HealthStatus.failing.severity ≤ s.severity

/-- The health report; only its verdict is read. -/
structure HealthReport where
  verdict : Option HealthStatus := none
  deriving DecidableEq

/-- The verdict, `Unknown` before the first sample. -/
def HealthReport.status (h : HealthReport) : HealthStatus :=
  h.verdict.getD .unknown

/-! ## What a drive can be formatted to -/

/-- Protection information to format with. -/
inductive Protection
  | none | type1
  deriving DecidableEq

/-- A protection in words. -/
def Protection.word : Protection → String
  | none => "no PI"
  | type1 => "PI type 1"

/-- One length that VPD 0xB4 lists. -/
structure BlockLength where
  length : Nat
  piTypes : List Nat
  deriving DecidableEq

/-- What the drive says it is and can be. -/
structure Supports where
  protect : Bool := false
  piTypes : List Nat := []
  blockLengths : List BlockLength := []
  currentProtType : Nat := 0
  physicalBlockSize : Nat := 0
  deriving DecidableEq

/-- One format. -/
structure Choice where
  blockSize : Nat
  protection : Protection
  deriving DecidableEq

/-- The format a drive should get. -/
structure Planned where
  blockSize : Nat
  protection : Protection
  basis : String
  reason : String
  fallback : Bool
  fallbacks : List Choice
  deriving DecidableEq

namespace Supports

/-- The physical block is 4K. -/
def physical4k (s : Supports) : Bool :=
  4096 ≤ s.physicalBlockSize

/-- Does the drive offer `length` with `prot`, and on what ground? -/
def offers (s : Supports) (length : Nat) (prot : Protection) : Option String :=
  if s.blockLengths ≠ [] then
    match s.blockLengths.find? (fun b => b.length = length) with
    | none => none
    | some e =>
      let ok := match prot with
        -- a listed length with no PI bits at all still formats without PI
        | .none => e.piTypes.isEmpty || e.piTypes.contains 0
        | .type1 => s.protect && e.piTypes.contains 1
      if ok then some "vpd_b4" else none
  else
    match prot with
    | .none =>
      if length = 512 then some "inferred"
      else if length = 4096 && s.physical4k then some "try"
      else none
    | .type1 =>
      if length = 512 && s.protect && s.piTypes.contains 1 then some "inferred"
      else if length = 4096 && s.physical4k && s.protect && s.piTypes.contains 1 then some "try"
      else none

/-- The order a drive is offered formats in when nothing is asked. -/
def preference : List (Nat × Protection) :=
  [(4096, .type1), (4096, .none), (512, .type1), (512, .none)]

/-- After a refused `try`. -/
def afterRefusal : List (Nat × Protection) :=
  [(4096, .none), (512, .type1)]

/-- What to format if the drive refuses `(length, prot)`. -/
def fallbacks (s : Supports) (length : Nat) (prot : Protection) : List Choice :=
  let isThePlan :=
    preference.find? (fun c => (s.offers c.1 c.2).isSome) == some (length, prot)
  if !isThePlan || s.offers length prot != some "try" then []
  else
    (afterRefusal.filter fun c => c != (length, prot) && (s.offers c.1 c.2).isSome).map
      fun c => ⟨c.1, c.2⟩

/-- The hint for a drive that lists no block lengths. -/
def unknownHint (s : Supports) : String :=
  if s.blockLengths.isEmpty then
    " (it lists no block lengths, VPD 0xB4; 4096 only with a 4K physical block)"
  else ""

/-- The format asked for, when the drive offers it. -/
def planAsked (s : Supports) (len : Nat) (prot : Protection) : Except String Planned :=
  match s.offers len prot with
  | some basis => .ok
      { blockSize := len, protection := prot, basis := basis, reason := "asked for (spec.format)",
        fallback := false, fallbacks := s.fallbacks len prot }
  | none => .error
      ("the drive does not offer " ++ toString len ++ " with " ++ prot.word ++ s.unknownHint)

end Supports

/-! ## Records of operations -/

/-- One stormblock slab found on the disk. -/
structure SlabPart where
  partition : Option Nat
  name : String
  role : String
  offsetBytes : Nat
  deriving DecidableEq

/-- The last format run on a drive. -/
structure FormatRecord where
  fromBlockSize : Nat := 0
  toBlockSize : Nat := 0
  protection : Protection := .none
  /-- `running`, `done`, `failed` or `interrupted`. -/
  state : String := ""
  error : Option String := none
  /-- The boot it started in. -/
  bootId : String := ""
  deriving DecidableEq

/-- The last firmware update run on a drive. -/
structure FirmwareRecord where
  image : String := ""
  /-- `running`, `done`, `failed` or `interrupted`. -/
  state : String := ""
  error : Option String := none
  deriving DecidableEq

/-- What is known about a drain of the drive. -/
structure DrainRecord where
  /-- `running`, `empty`, `stuck`, `cancelled` or `pending`. -/
  state : String := ""
  reason : String := ""
  thenLeave : Bool := false
  errors : List String := []
  deriving DecidableEq

/-- The halves of the node that the engine runs from the network. -/
structure EngineFinding where
  roles : List String
  deriving DecidableEq

/-- The engine's view of a drive: the names of the volumes on it, when it has told, and its
slabs. -/
structure Usage where
  volumes : Option (List String)
  slabs : List String := []
  deriving DecidableEq

/-- Thin clones may promise more than the slab space, up to a ratio. -/
structure Overcommit where
  enabled : Bool := false
  ratio : Rat := 1
  deriving DecidableEq

/-- How hot a component is. -/
inductive Level
  | unknown | ok | near | warning | critical
  deriving DecidableEq

/-- A level on the wire. -/
def Level.asStr : Level → String
  | unknown => "unknown"
  | ok => "ok"
  | near => "near"
  | warning => "warning"
  | critical => "critical"

/-- How hot the drive is against its limits, and what that asks of the engine. -/
structure DriveThermal where
  level : Level := .ok
  throttleBackground : Bool
  excludeNewPlacement : Bool := false
  replaceProposed : Bool := false
  /-- The reading, rounded to whole degrees. -/
  tempC : Option String
  /-- The warning limit, rounded to whole degrees. -/
  warnC : String
  deriving DecidableEq

/-- What the engine is told of it. -/
def DriveThermal.engineWord (t : DriveThermal) : String :=
  t.level.asStr ++ ":" ++ toString t.throttleBackground ++ ":" ++
    toString t.excludeNewPlacement ++ ":" ++ toString t.replaceProposed

/-! ## Refusals -/

/-- One check of a cascade: the reason to refuse when the condition holds. Checks are chained
with `<|>`, so that the first that fails gives the reason. -/
def refuse (c : Prop) [Decidable c] (why : String) : Option String :=
  if c then some why else none

@[simp] lemma refuse_eq_none_iff (c : Prop) [Decidable c] (why : String) :
    refuse c why = none ↔ ¬ c := by
  simp [refuse]

/-! ## The record -/

/-- One physical drive as the inventory keeps it. -/
structure Drive where
  id : DriveId
  path : String
  name : String
  paths : List String
  kind : DriveKind
  model : String
  serial : String
  wwid : Option String := none
  capacityBytes : Nat
  blockSize : Nat
  physicalBlockSize : Nat := 0
  usable : Bool := true
  inUseBy : Option String := none
  contents : Option String := none
  slabParts : List SlabPart := []
  mounted : Bool := false
  supports : Option Supports := none
  engineFinding : Option EngineFinding := none
  format : Option FormatRecord := none
  firmwareUpdate : Option FirmwareRecord := none
  location : Location := {}
  membership : Membership := .out
  designation : Designation := .none
  activity : Activity := .idle
  overcommit : Overcommit := {}
  health : HealthReport := {}
  /-- The labels the engine holds for the drive. -/
  pushedLabels : List (String × String) := []
  /-- The health last reported to the engine. -/
  pushedHealth : Option String := none
  /-- The overcommit setting the engine last accepted; not in the file. -/
  pushedOvercommit : Option Overcommit := none
  thermal : Option DriveThermal := none
  /-- What the engine last accepted of `thermal`; not in the file. -/
  pushedThermal : Option String := none
  drain : Option DrainRecord := none
  usage : Option Usage := none
  fleetPartition : Option Nat := none
  deriving DecidableEq

/-- Sector sizes Linux and stormblock can use. -/
def usableBlockSizes : List Nat := [512, 4096]

/-- The kernel's name for a partition of a disk: a name ending in a digit takes a `p`. -/
def partitionName (disk : String) (n : Nat) : String :=
  match disk.toList.getLast? with
  | some c => if c.isDigit then disk ++ "p" ++ toString n else disk ++ toString n
  | none => disk ++ toString n

namespace Drive

/-- The path stormblock knows this drive by: its enrolled partition, or the whole disk. -/
def stormblockPath (d : Drive) : String :=
  match d.fleetPartition with
  | some n => "/dev/" ++ partitionName d.name n
  | none => d.path

/-- The labels the engine should hold for this drive. -/
def stormblockLabels (d : Drive) : List (String × String) :=
  d.location.labels

/-- The health word that the engine understands. -/
def stormblockHealth (d : Drive) : String :=
  match d.health.status with
  | .failed => "failed"
  | .failing => "failing"
  | _ => "healthy"

/-- The record as it is read back from the file. -/
def reloaded (d : Drive) : Drive :=
  { d with pushedOvercommit := none, pushedThermal := none }

/-- The kernel refuses this sector size. -/
def needsReformat (d : Drive) : Bool :=
  !usableBlockSizes.contains d.blockSize || !d.usable

/-- Does a reset of this drive interrupt live data? -/
def servesData (d : Drive) : Bool :=
  d.membership = .fleet || d.inUseBy.isSome

end Drive

/-- A plain out-of-fleet SATA SSD at `/dev/<name>`, the source's test fixture. -/
def Drive.testFixture (id : DriveId) (name : String) : Drive where
  id := id
  path := "/dev/" ++ name
  name := name
  paths := ["/dev/" ++ name]
  kind := .sataSsd
  model := "M"
  serial := name
  capacityBytes := 1073741824
  blockSize := 512
  physicalBlockSize := 512

end StormDrive
