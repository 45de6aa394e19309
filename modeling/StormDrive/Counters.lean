import Mathlib.Algebra.Ring.Nat
import Mathlib.Data.List.Sort
import Mathlib.Data.String.Basic

set_option relaxedAutoImplicit false
set_option autoImplicit false

/-!
# A drive's counters

What a health sample reads from a drive (`smart/nvme.rs`, `smart/scsi.rs`), and the counters that
the history takes from it by name, with the rule for each (`history.rs`).

## Main definitions

* `Counter` — the counters, with `Counter.name` and the rule `spec`.
* `Readout` — what one look at a drive read: the NVMe health page, the SCSI log pages or the SMART
  table of a SATA drive, as far as they could be read.
* `sampleOf` — the sample of a readout.
* `counters` — a sample's counters.

## Main results

* `mediaErrors_scsi`, `mediaErrors_ata` — the media errors of a SAS or SATA sample are the sum of
  those of their sources that were read.

## Implementation notes

Temperatures and their limits, the fields of a SMART table that only a threshold is compared with,
and the `Informational Exceptions` code itself are left out: no counter and no rule reads them.
-/

namespace StormDrive

/-- The error counter pages of a SAS drive. -/
inductive ErrorPage where
  | write
  | read
  | verify
  deriving DecidableEq, Repr

/-- The parameters of an error counter page. -/
inductive ErrorParam where
  | corrected
  | uncorrected
  | bytes
  deriving DecidableEq, Repr

/-- The counters of the NVMe health page beyond what health decides on. -/
inductive NvmeCounter where
  | availableSpareThresholdPct
  | bytesRead
  | bytesWritten
  | hostReadCommands
  | hostWriteCommands
  | controllerBusyMinutes
  | powerCycles
  | unsafeShutdowns
  | errorLogEntries
  | warningTempMinutes
  | criticalTempMinutes
  deriving DecidableEq, Repr

/-- The sector counters of a SAS or SATA drive. -/
inductive SmartCounter where
  | reallocatedSectors
  | pendingSectors
  | offlineUncorrectable
  | reportedUncorrectable
  | crcErrors
  | grownDefects
  deriving DecidableEq, Repr

/-- A counter of the history. -/
inductive Counter where
  | mediaErrors
  | ioErrors
  | powerOnHours
  | wearPct
  | availableSparePct
  | criticalWarning
  | nvme (c : NvmeCounter)
  | smart (c : SmartCounter)
  | sas (page : ErrorPage) (param : ErrorParam)
  | ata (id : ℕ)
  deriving DecidableEq, Repr

def ErrorPage.name : ErrorPage → String
  | .write => "write"
  | .read => "read"
  | .verify => "verify"

def ErrorParam.name : ErrorParam → String
  | .corrected => "corrected"
  | .uncorrected => "uncorrected"
  | .bytes => "bytes"

def NvmeCounter.name : NvmeCounter → String
  | .availableSpareThresholdPct => "available_spare_threshold_pct"
  | .bytesRead => "bytes_read"
  | .bytesWritten => "bytes_written"
  | .hostReadCommands => "host_read_commands"
  | .hostWriteCommands => "host_write_commands"
  | .controllerBusyMinutes => "controller_busy_minutes"
  | .powerCycles => "power_cycles"
  | .unsafeShutdowns => "unsafe_shutdowns"
  | .errorLogEntries => "error_log_entries"
  | .warningTempMinutes => "warning_temp_minutes"
  | .criticalTempMinutes => "critical_temp_minutes"

def SmartCounter.name : SmartCounter → String
  | .reallocatedSectors => "reallocated_sectors"
  | .pendingSectors => "pending_sectors"
  | .offlineUncorrectable => "offline_uncorrectable"
  | .reportedUncorrectable => "reported_uncorrectable"
  | .crcErrors => "crc_errors"
  | .grownDefects => "grown_defects"

def Counter.name : Counter → String
  | .mediaErrors => "media_errors"
  | .ioErrors => "io_errors"
  | .powerOnHours => "power_on_hours"
  | .wearPct => "wear_pct"
  | .availableSparePct => "available_spare_pct"
  | .criticalWarning => "critical_warning"
  | .nvme c => "nvme." ++ c.name
  | .smart c => "smart." ++ c.name
  | .sas page param => "sas." ++ page.name ++ "." ++ param.name
  | .ata id => "ata." ++ toString id

/-- ATA attributes whose raw value is a lifetime count. -/
def lifetimeAta : List ℕ := [4, 10, 12, 188, 192, 193]

/-- Every counter, in the order of the names. -/
def Counter.all : List Counter :=
  ([Counter.mediaErrors, .ioErrors, .powerOnHours, .wearPct, .availableSparePct,
      .criticalWarning] ++
    [NvmeCounter.availableSpareThresholdPct, .bytesRead, .bytesWritten, .hostReadCommands,
      .hostWriteCommands, .controllerBusyMinutes, .powerCycles, .unsafeShutdowns,
      .errorLogEntries, .warningTempMinutes, .criticalTempMinutes].map Counter.nvme ++
    [SmartCounter.reallocatedSectors, .pendingSectors, .offlineUncorrectable,
      .reportedUncorrectable, .crcErrors, .grownDefects].map Counter.smart ++
    ([ErrorPage.write, .read, .verify].flatMap fun page =>
      [ErrorParam.corrected, .uncorrected, .bytes].map (Counter.sas page)) ++
    lifetimeAta.map Counter.ata).insertionSort fun a b => a.name ≤ b.name

/-- How a counter is judged. -/
structure Spec where
  /-- Growth is a finding. -/
  grow : Bool
  /-- Going backwards is a finding. -/
  back : Bool
  /-- A change writes a record. -/
  writes : Bool
  deriving DecidableEq, Repr

namespace Spec

def errors : Spec := ⟨true, true, true⟩

def lifetime : Spec := ⟨false, true, true⟩

def activity : Spec := ⟨false, true, false⟩

def gauge : Spec := ⟨false, false, true⟩

end Spec

/-- The rule for each counter. -/
def spec : Counter → Spec
  | .mediaErrors | .smart .reallocatedSectors | .smart .offlineUncorrectable
  | .smart .reportedUncorrectable | .smart .crcErrors | .nvme .errorLogEntries => .errors
  | .sas _ .uncorrected => .errors
  -- pending sectors fall when they are remapped, and a format may rebuild the defect list
  | .smart .pendingSectors | .smart .grownDefects => ⟨true, false, true⟩
  | .ioErrors | .availableSparePct | .criticalWarning => .gauge
  | .powerOnHours | .nvme .bytesRead | .nvme .bytesWritten | .nvme .hostReadCommands
  | .nvme .hostWriteCommands | .nvme .controllerBusyMinutes => .activity
  | .sas _ _ => .activity
  | _ => .lifetime

/-- One error counter page: each parameter that it has. -/
abbrev ErrorCounters : Type := ErrorParam → Option ℕ

/-- What a SAS or SATA drive says itself. -/
structure SmartCounters where
  predictedFailure : Option String
  ieWarning : Option String
  sectors : SmartCounter → Option ℕ
  errors : ErrorPage → Option ErrorCounters

/-- One SMART attribute of a SATA drive. -/
structure Attribute where
  id : ℕ
  prefail : Bool
  value : ℕ
  raw : ℕ
  deriving DecidableEq, Repr

/-- One raw health observation. -/
structure Sample where
  powerOnHours : Option ℕ := none
  mediaErrors : ℕ := 0
  ioErrors : Option ℕ := none
  availableSparePct : Option ℕ := none
  wearPct : Option ℕ := none
  criticalWarning : ℕ := 0
  nvme : Option (NvmeCounter → ℕ) := none
  smart : Option SmartCounters := none
  ataAttributes : List Attribute := []

/-- The NVMe health page. -/
structure SmartPage where
  criticalWarning : ℕ
  availableSparePct : ℕ
  wearPct : ℕ
  powerOnHours : ℕ
  mediaErrors : ℕ
  counters : NvmeCounter → ℕ

/-- What the log pages of a SAS drive gave. -/
structure LogPages where
  /-- The informational exceptions page: the two texts it may come to, none where it is missing. -/
  ie : Option (Option String × Option String)
  /-- The endurance of an SSD. -/
  endurance : Option ℕ
  errors : ErrorPage → ErrorCounters
  /-- The length of the grown defect list. -/
  grownDefects : Option ℕ

/-- What one look at a drive read. -/
inductive Readout where
  | nvme (page : Option SmartPage)
  /-- A SAS drive, none where it could not be opened. -/
  | sas (ssd : Bool) (ioErrors : Option ℕ) (pages : Option LogPages)
  /-- A SATA drive: its attribute table and the thresholds, none where the table was not read. -/
  | ata (ssd : Bool) (ioErrors : Option ℕ) (table : Option (List Attribute × List (ℕ × ℕ)))

/-- An error counter page that gave no parameter was not read. -/
def parseErrorCounters (e : ErrorCounters) : Option ErrorCounters :=
  if (e .corrected).isSome || (e .uncorrected).isSome || (e .bytes).isSome then some e else none

/-- Uncorrected read, write and verify errors. -/
def sasMediaErrors (c : SmartCounters) : ℕ :=
  ([c.errors .read, c.errors .write, c.errors .verify].filterMap fun e =>
    e.bind fun e => e .uncorrected).sum

/-- The sample of a SAS drive's log pages. -/
def fromLogPages (ssd : Bool) (p : LogPages) (s : Sample) : Sample :=
  let errors := fun page => parseErrorCounters (p.errors page)
  let c : SmartCounters :=
    { predictedFailure := p.ie.bind Prod.fst
      ieWarning := p.ie.bind Prod.snd
      sectors := fun
        | .grownDefects => p.grownDefects
        | _ => none
      errors := errors }
  let anyErrors := (errors .write).isSome || (errors .read).isSome || (errors .verify).isSome
  { s with
    wearPct := if ssd then p.endurance.or s.wearPct else s.wearPct
    mediaErrors := if anyErrors then sasMediaErrors c else s.mediaErrors
    smart := if p.ie.isSome || anyErrors || p.grownDefects.isSome then some c else s.smart }

/-- The raw value of an attribute. -/
def rawOf (attrs : List Attribute) (id : ℕ) : Option ℕ :=
  (attrs.find? fun a => a.id = id).map Attribute.raw

/-- The attribute that an SSD's wear is read from: the first of three that it has. -/
def wearAttribute (attrs : List Attribute) : Option Attribute :=
  [233, 231, 177].findSome? fun id => attrs.find? fun a => a.id = id

/-- Normalized values go from 100 to 1 as endurance is used. -/
def wearOf (a : Attribute) : ℕ := 100 - min a.value 100

/-- Why a SATA drive predicts its failure: the pre-fail attributes at or under their threshold. -/
def failingAttributes (attrs : List Attribute) (thresholds : List (ℕ × ℕ)) : List String :=
  (attrs.filter Attribute.prefail).filterMap fun a =>
    (thresholds.find? fun t => t.1 = a.id).bind fun t =>
      if t.2 ≠ 0 ∧ a.value ≤ t.2 then
        some ("attribute " ++ toString a.id ++ " at " ++ toString a.value ++ " ≤ threshold " ++
          toString t.2)
      else none

/-- What a SATA drive's SMART table says, into a sample. -/
def applyAtaSmart (attrs : List Attribute) (thresholds : List (ℕ × ℕ)) (ssd : Bool) (s : Sample) :
    Sample :=
  let failing := failingAttributes attrs thresholds
  { s with
    mediaErrors := (rawOf attrs 187).getD 0
    powerOnHours := s.powerOnHours.or ((rawOf attrs 9).map fun r => r % 2 ^ 32)
    wearPct := if ssd then s.wearPct.or ((wearAttribute attrs).map wearOf) else s.wearPct
    smart := some
      { predictedFailure :=
          if failing = [] then none
          else some ("the drive predicts its own failure: " ++ ", ".intercalate failing)
        ieWarning := none
        sectors := fun
          | .reallocatedSectors => rawOf attrs 5
          | .pendingSectors => rawOf attrs 197
          | .offlineUncorrectable => rawOf attrs 198
          | .reportedUncorrectable => rawOf attrs 187
          | .crcErrors => rawOf attrs 199
          | .grownDefects => none
        errors := fun _ => none }
    ataAttributes := attrs }

/-- The sample of a readout. -/
def sampleOf : Readout → Sample
  | .nvme none => {}
  | .nvme (some p) =>
    { criticalWarning := p.criticalWarning
      availableSparePct := some p.availableSparePct
      wearPct := some p.wearPct
      powerOnHours := some p.powerOnHours
      mediaErrors := p.mediaErrors
      nvme := some p.counters }
  | .sas _ ioErrors none => { ioErrors := ioErrors }
  | .sas ssd ioErrors (some p) => fromLogPages ssd p { ioErrors := ioErrors }
  | .ata _ ioErrors none => { ioErrors := ioErrors }
  | .ata ssd ioErrors (some (attrs, thresholds)) =>
    applyAtaSmart attrs thresholds ssd { ioErrors := ioErrors }

/-- Attributes of the table that have a counter of their own name. -/
def namedAta : List ℕ := [5, 9, 187, 194, 197, 198, 199]

/-- A sample's counters by name. -/
def counters (s : Sample) : Counter → Option ℕ
  | .mediaErrors => some s.mediaErrors
  | .ioErrors => s.ioErrors
  | .powerOnHours => s.powerOnHours
  | .wearPct => s.wearPct
  | .availableSparePct => s.availableSparePct
  | .criticalWarning =>
    if s.nvme.isSome || s.criticalWarning ≠ 0 then some s.criticalWarning else none
  | .nvme c => s.nvme.map fun n => n c
  | .smart c => s.smart.bind fun m => m.sectors c
  | .sas page param => s.smart.bind fun m => (m.errors page).bind fun e => e param
  | .ata id =>
    -- the last attribute of the table with the number is the one that is put
    if id ∉ namedAta ∧ id ∈ lifetimeAta then rawOf s.ataAttributes.reverse id else none

/-- The sources of a SAS drive's media errors. -/
def sasUncorrected (count : Counter → ℕ) : ℕ :=
  count (.sas .read .uncorrected) + count (.sas .write .uncorrected) +
    count (.sas .verify .uncorrected)

/-- A counter that is missing counts as 0. -/
def countedAs (s : Sample) (c : Counter) : ℕ := (counters s c).getD 0

lemma sasMediaErrors_eq (c : SmartCounters) : sasMediaErrors c =
    ((c.errors .read).bind fun e => e .uncorrected).getD 0 +
      ((c.errors .write).bind fun e => e .uncorrected).getD 0 +
        ((c.errors .verify).bind fun e => e .uncorrected).getD 0 := by
  simp only [sasMediaErrors, List.filterMap_cons, List.filterMap_nil]
  cases (c.errors .read).bind fun e => e .uncorrected <;>
    cases (c.errors .write).bind fun e => e .uncorrected <;>
      cases (c.errors .verify).bind fun e => e .uncorrected <;> simp [Nat.add_assoc]

/-- The media errors of a SAS sample are the sum of those of the pages that were read. -/
lemma mediaErrors_sas (ssd : Bool) (ioErrors : Option ℕ) (pages : Option LogPages) :
    (sampleOf (.sas ssd ioErrors pages)).mediaErrors =
      sasUncorrected (countedAs (sampleOf (.sas ssd ioErrors pages))) := by
  cases pages with
  | none => rfl
  | some p =>
    simp only [sampleOf, fromLogPages, sasUncorrected, countedAs, counters]
    generalize hw : parseErrorCounters (p.errors .write) = w
    generalize hr : parseErrorCounters (p.errors .read) = r
    generalize hv : parseErrorCounters (p.errors .verify) = v
    by_cases hany : w.isSome || r.isSome || v.isSome
    · rw [if_pos hany, sasMediaErrors_eq]
      simp only [hany, Bool.or_true, Bool.true_or, if_true, Option.bind_some, hw, hr, hv]
    · have hnone : w = none ∧ r = none ∧ v = none := by
        simpa [and_assoc] using hany
      obtain ⟨rfl, rfl, rfl⟩ := hnone
      cases p.ie <;> cases p.grownDefects <;> simp [hw, hr, hv]

/-- The media errors of a SATA sample are its reported uncorrectable errors. -/
lemma mediaErrors_ata (ssd : Bool) (ioErrors : Option ℕ)
    (table : Option (List Attribute × List (ℕ × ℕ))) :
    (sampleOf (.ata ssd ioErrors table)).mediaErrors =
      countedAs (sampleOf (.ata ssd ioErrors table)) (.smart .reportedUncorrectable) := by
  cases table with
  | none => rfl
  | some table => rfl

/-- Every counter whose growth is a finding is one of the list. -/
lemma mem_all_of_grow {c : Counter} (h : (spec c).grow = true) : c ∈ Counter.all := by
  rw [Counter.all, List.mem_insertionSort]
  cases c with
  | mediaErrors => decide
  | nvme c => cases c <;> decide
  | smart c => cases c <;> decide
  | sas page param => cases page <;> cases param <;> decide
  | _ => exact absurd h Bool.false_ne_true

end StormDrive
