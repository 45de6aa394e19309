import Mathlib.Data.List.Perm.Basic
import StormDrive.DriveObjects
import StormDrive.Metrics
import StormDrive.Ses
import StormDrive.ThermalPass

set_option relaxedAutoImplicit false
set_option autoImplicit false

/-!
# What is on the page of metrics

The samples of the drives, the shelves, the poller and the thermal tracker (`metrics.rs`), and the
page that they make.

## Main definitions

* `Metrics.Metric`, `Metrics.Key` — what is measured, and the names of labels.
* `Metrics.Device`, `Metrics.drive` — a drive, and its samples.
* `Metrics.render`, `Metrics.renderThermal` — the two parts of the page.

## Main results

* `Metrics.page_read` — **the page is read back as all its samples, each name once and with its
  kind**.

## Implementation notes

A value is of any type with a text without line ends; times are values. Of the records of drives,
shelves and the poller the fields that are measured are modelled.
-/

namespace StormDrive

namespace Metrics

open Exposition (Line)

/-! ## Names -/

/-- What is measured. -/
inductive Metric
  | buildInfo
  | device | driveInfo | lastPoll | capacity | blockSize | healthStatus | smartStatus
  | temperature | powerOn | percentageUsed | predictedFailure | ieWarning | reallocated | pending
  | grownDefects | offlineUncorrectable | wearOutDays | wearRate | availableSpare | criticalWarning
  | mediaErrors | spareThreshold | errLogEntries | powerCycles | bytesRead | bytesWritten
  | unsafeShutdowns | ioErrors | usedBytes | freeBytes | volumes | volumesDegraded
  | enclosureInfo | enclosureOk | enclosureScan | elementOk | enclosureTemperature | fanRpm | volts
  | amps
  | pollDrives | pollInFlight | pollStuck | pollSamples | pollTimeouts | pollSeconds | pollLoad
  | discovery
  | thermalTemperature | thermalWarning | thermalCritical | thermalLevel | thermalFanRpm
  | thermalFanOk | thermalCooling

/-- The name in the page. -/
def Metric.name : Metric → String
  | buildInfo => "stormdrive_build_info"
  | device => "smartctl_device"
  | driveInfo => "stormdrive_drive_info"
  | lastPoll => "stormdrive_drive_last_poll_timestamp_seconds"
  | capacity => "smartctl_device_capacity_bytes"
  | blockSize => "smartctl_device_block_size"
  | healthStatus => "stormdrive_drive_health_status"
  | smartStatus => "smartctl_device_smart_status"
  | temperature => "smartctl_device_temperature"
  | powerOn => "smartctl_device_power_on_seconds"
  | percentageUsed => "smartctl_device_percentage_used"
  | predictedFailure => "stormdrive_drive_predicted_failure"
  | ieWarning => "stormdrive_drive_ie_warning"
  | reallocated => "stormdrive_drive_reallocated_sectors"
  | pending => "stormdrive_drive_pending_sectors"
  | grownDefects => "stormdrive_drive_grown_defects"
  | offlineUncorrectable => "stormdrive_drive_offline_uncorrectable_sectors"
  | wearOutDays => "stormdrive_drive_wear_out_days"
  | wearRate => "stormdrive_drive_wear_rate_pct_per_day"
  | availableSpare => "smartctl_device_available_spare"
  | criticalWarning => "smartctl_device_critical_warning"
  | mediaErrors => "smartctl_device_media_errors"
  | spareThreshold => "smartctl_device_available_spare_threshold"
  | errLogEntries => "smartctl_device_num_err_log_entries"
  | powerCycles => "smartctl_device_power_cycle_count"
  | bytesRead => "smartctl_device_bytes_read"
  | bytesWritten => "smartctl_device_bytes_written"
  | unsafeShutdowns => "stormdrive_drive_unsafe_shutdowns_total"
  | ioErrors => "stormdrive_drive_io_errors_total"
  | usedBytes => "stormdrive_drive_used_bytes"
  | freeBytes => "stormdrive_drive_free_bytes"
  | volumes => "stormdrive_drive_volumes"
  | volumesDegraded => "stormdrive_drive_volumes_degraded"
  | enclosureInfo => "stormdrive_enclosure_info"
  | enclosureOk => "stormdrive_enclosure_ok"
  | enclosureScan => "stormdrive_enclosure_last_scan_timestamp_seconds"
  | elementOk => "stormdrive_enclosure_element_ok"
  | enclosureTemperature => "stormdrive_enclosure_temperature_celsius"
  | fanRpm => "stormdrive_enclosure_fan_rpm"
  | volts => "stormdrive_enclosure_volts"
  | amps => "stormdrive_enclosure_amps"
  | pollDrives => "stormdrive_poll_drives"
  | pollInFlight => "stormdrive_poll_in_flight"
  | pollStuck => "stormdrive_poll_stuck"
  | pollSamples => "stormdrive_poll_samples_total"
  | pollTimeouts => "stormdrive_poll_timeouts_total"
  | pollSeconds => "stormdrive_poll_sample_seconds"
  | pollLoad => "stormdrive_poll_load_ratio"
  | discovery => "stormdrive_discovery_seconds"
  | thermalTemperature => "stormdrive_thermal_temperature_celsius"
  | thermalWarning => "stormdrive_thermal_warning_celsius"
  | thermalCritical => "stormdrive_thermal_critical_celsius"
  | thermalLevel => "stormdrive_thermal_level"
  | thermalFanRpm => "stormdrive_thermal_fan_rpm"
  | thermalFanOk => "stormdrive_thermal_fan_ok"
  | thermalCooling => "stormdrive_thermal_cooling_request"

/-- A counter only grows; the others are gauges. -/
def Metric.kind : Metric → String
  | powerOn | mediaErrors | errLogEntries | powerCycles | bytesRead | bytesWritten
  | unsafeShutdowns | ioErrors | pollSamples | pollTimeouts => "counter"
  | _ => "gauge"

/-- What it means. -/
def Metric.help : Metric → String
  | buildInfo => "stormdrive's version and node; always 1."
  | device => "Device info (smartctl_exporter's name); always 1."
  | driveInfo => "What stormdrive knows about the drive; always 1."
  | lastPoll => "Unix time of the last health poll the drive answered."
  | capacity => "Capacity in bytes."
  | blockSize => "Logical block size as the drive reports it."
  | healthStatus => "Health verdict (threshold engine, with hysteresis): 1 for the current status."
  | smartStatus => "1 when health passes, 0 when failing or failed."
  | temperature => "Temperature in °C."
  | powerOn => "Power-on time in seconds."
  | percentageUsed => "Endurance used, percent (may exceed 100)."
  | predictedFailure => "1 when the drive predicts its own failure (SCSI IE / ATA SMART threshold)."
  | ieWarning =>
    "1 when the drive raises a warning short of a failure prediction (SCSI IE, ASC 0Bh and others)."
  | reallocated => "ATA SMART 5: reallocated sectors."
  | pending => "ATA SMART 197: sectors pending reallocation."
  | grownDefects => "SAS: entries in the grown defect list (READ DEFECT DATA)."
  | offlineUncorrectable => "ATA SMART 198: offline-uncorrectable sectors."
  | wearOutDays => "Days until wear reaches 100 %, by a line through the wear trend (#23)."
  | wearRate => "Wear per day by that line."
  | availableSpare => "Available spare, percent."
  | criticalWarning => "NVMe critical warning bits."
  | mediaErrors => "NVMe media and data integrity errors."
  | spareThreshold => "Available spare threshold, percent."
  | errLogEntries => "NVMe error information log entries."
  | powerCycles => "Power cycles."
  | bytesRead => "Bytes read (NVMe data units × 512000)."
  | bytesWritten => "Bytes written (NVMe data units × 512000)."
  | unsafeShutdowns => "NVMe unsafe shutdowns."
  | ioErrors => "Commands that failed on the drive since boot (sysfs ioerr_cnt)."
  | usedBytes => "Bytes allocated in stormblock slabs on the drive."
  | freeBytes => "Capacity minus used."
  | volumes => "Volumes with legs on the drive (stormblock placement)."
  | volumesDegraded =>
    "Volumes whose slabs on the drive are draining, quarantined, failed or missing."
  | enclosureInfo => "A SAS shelf the node talks to over SES; always 1."
  | enclosureOk => "1 when no shelf element reports critical, noncritical or unrecoverable."
  | enclosureScan => "Unix time of the last SES scan of the shelf."
  | elementOk => "1 when the element's SES status is OK."
  | enclosureTemperature => "Temperature sensor reading, °C."
  | fanRpm => "Cooling element speed."
  | volts => "Voltage sensor reading."
  | amps => "Current sensor reading."
  | pollDrives => "Drives the health poller samples."
  | pollInFlight => "Health reads running now."
  | pollStuck => "Drives whose last health read has not returned."
  | pollSamples => "Health reads that returned."
  | pollTimeouts => "Health reads that timed out."
  | pollSeconds => "Moving average of one health read."
  | pollLoad => "Share of the poller's capacity one cycle uses (over 1 = behind)."
  | discovery => "Wall time of the last discovery pass."
  | thermalTemperature => "A component's temperature, °C."
  | thermalWarning => "A component's warning limit, °C (its own, a setting, or the class default)."
  | thermalCritical => "A component's critical limit, °C."
  | thermalLevel => "-1 no reading, 0 ok, 1 near warning, 2 warning, 3 critical."
  | thermalFanRpm => "A fan's speed."
  | thermalFanOk => "0 when the fan is stopped, under its minimum or flagged."
  | thermalCooling => "What the node asks its BMC for: 0 auto, 1 raise, 2 max."

/-- Is it measured by the thermal tracker? -/
def Metric.thermal : Metric → Bool
  | thermalTemperature | thermalWarning | thermalCritical | thermalLevel | thermalFanRpm
  | thermalFanOk | thermalCooling => true
  | _ => false

/-- The names of labels. -/
inductive Key
  | version | node | device | serial | model | enclosure | bay | interface | firmwareVersion | id
  | wwn | kind | firmware | membership | designation | activity | owner | blocksType | status
  | temperatureType | vendor | type | index | component | cls | label | fan

/-- The name in the page. -/
def Key.text : Key → String
  | version => "version"
  | node => "node"
  | device => "device"
  | serial => "serial"
  | model => "model"
  | enclosure => "enclosure"
  | bay => "bay"
  | interface => "interface"
  | firmwareVersion => "firmware_version"
  | id => "id"
  | wwn => "wwn"
  | kind => "kind"
  | firmware => "firmware"
  | membership => "membership"
  | designation => "designation"
  | activity => "activity"
  | owner => "owner"
  | blocksType => "blocks_type"
  | status => "status"
  | temperatureType => "temperature_type"
  | vendor => "vendor"
  | type => "type"
  | index => "index"
  | component => "component"
  | cls => "class"
  | label => "label"
  | fan => "fan"

section Samples

variable {V : Type}

/-- A sample of what is measured. -/
structure Reading (V : Type) where
  metric : Metric
  labels : List (Key × String)
  value : V

/-- The sample as it is added. -/
def Reading.sample (r : Reading V) : Sample V where
  name := r.metric.name
  kind := r.metric.kind
  help := r.metric.help
  labels := r.labels.map fun l => (l.1.text, l.2)
  value := r.value

/-- One sample. -/
def sample (m : Metric) (labels : List (Key × String)) (v : V) : Reading V := ⟨m, labels, v⟩

@[simp] lemma metric_sample (m : Metric) (labels : List (Key × String)) (v : V) :
    (sample m labels v).metric = m := rfl

/-! ## Drives -/

/-- What a SAS or SATA drive says itself. -/
structure Smart where
  predictedFailure : Option String := none
  ieWarning : Option String := none
  reallocatedSectors : Option ℕ := none
  pendingSectors : Option ℕ := none
  grownDefects : Option ℕ := none
  offlineUncorrectable : Option ℕ := none

/-- What an NVMe drive counts. -/
structure Nvme where
  availableSpareThresholdPct : ℕ
  errorLogEntries : ℕ
  powerCycles : ℕ
  bytesRead : ℕ
  bytesWritten : ℕ
  unsafeShutdowns : ℕ

/-- The last readings of a drive. -/
structure Health (V : Type) where
  collectedAt : Option V := none
  temperatureC : Option ℤ := none
  powerOnHours : Option ℕ := none
  wearPct : Option ℕ := none
  smart : Option Smart := none
  availableSparePct : Option ℕ := none
  criticalWarning : ℕ := 0
  mediaErrors : ℕ := 0
  nvme : Option Nvme := none
  ioErrors : Option ℕ := none

/-- What the engine has on a drive; of a volume, its state. -/
structure Used where
  usedBytes : ℕ
  freeBytes : ℕ
  volumes : Option (List String) := none

/-- A drive with what is measured of it. -/
structure Device (V : Type) where
  drive : Drive
  firmware : String := ""
  health : Health V := {}
  /-- The days left and the wear a day. -/
  wearProjection : Option (ℕ × V) := none
  usage : Option Used := none

/-- Who holds a drive. -/
def owner (d : Drive) : String :=
  if d.membership = .fleet then "stormblock"
  else
    match d.inUseBy with
    | some w => if "stormraid".toList.isPrefixOf w.toList then "stormraid" else "stormblock"
    | none => "free"

/-- A kind on the wire (`snake_case`). -/
def kindWord : DriveKind → String
  | .nvmeSsd => "nvme_ssd"
  | .sasSsd => "sas_ssd"
  | .sasHdd => "sas_hdd"
  | .sataSsd => "sata_ssd"
  | .sataHdd => "sata_hdd"
  | .unknown => "unknown"

/-- A verdict on the wire. -/
def statusWord : HealthStatus → String
  | .unknown => "unknown"
  | .good => "good"
  | .warning => "warning"
  | .failing => "failing"
  | .failed => "failed"

def interface : DriveKind → String
  | .nvmeSsd => "nvme"
  | .sasSsd | .sasHdd => "scsi"
  | .sataSsd | .sataHdd => "sat"
  | .unknown => "unknown"

/-- The labels that every sample of a drive has. -/
def driveLabels (d : Drive) : List (Key × String) :=
  [(.device, d.name), (.serial, d.serial), (.model, d.model),
    (.enclosure, (d.location.shelf.bind Shelf.key).getD ""),
    (.bay, (d.location.bay.map toString).getD "")]

/-- Does a drive with this verdict pass? One that is not known neither passes nor fails. -/
def passes : HealthStatus → Option ℕ
  | .good | .warning => some 1
  | .failing | .failed => some 0
  | .unknown => none

def statuses : List HealthStatus := [.unknown, .good, .warning, .failing, .failed]

variable [NatCast V] [IntCast V]

/-- A yes or no. -/
def flag (b : Bool) : V := ((b.toNat : ℕ) : V)

/-- A count, if there is one. -/
def counted (m : Metric) (l : List (Key × String)) (n : Option ℕ) : List (Reading V) :=
  n.toList.map fun n => sample m l (n : V)

/-- What is measured of a drive that answered a poll. -/
def readings (d : Device V) : List (Reading V) :=
  let l := driveLabels d.drive
  let h := d.health
  (h.temperatureC.toList.map fun t =>
      sample .temperature (l ++ [(.temperatureType, "current")]) ((t : ℤ) : V)) ++
    counted .powerOn l (h.powerOnHours.map fun p => p * 3600 % 2 ^ 64) ++
    counted .percentageUsed l h.wearPct ++
    (h.smart.toList.flatMap fun sm =>
      [sample .predictedFailure l (flag sm.predictedFailure.isSome),
        sample .ieWarning l (flag sm.ieWarning.isSome)] ++
        counted .reallocated l sm.reallocatedSectors ++ counted .pending l sm.pendingSectors ++
        counted .grownDefects l sm.grownDefects ++
        counted .offlineUncorrectable l sm.offlineUncorrectable) ++
    (d.wearProjection.toList.flatMap fun p =>
      [sample .wearOutDays l ((p.1 : ℕ) : V), sample .wearRate l p.2]) ++
    counted .availableSpare l h.availableSparePct ++
    (if d.drive.kind = .nvmeSsd then
      [sample .criticalWarning l (h.criticalWarning : V),
        sample .mediaErrors l (h.mediaErrors : V)] ++
        (h.nvme.toList.flatMap fun n =>
          [sample .spareThreshold l (n.availableSpareThresholdPct : V),
            sample .errLogEntries l (n.errorLogEntries : V),
            sample .powerCycles l (n.powerCycles : V), sample .bytesRead l (n.bytesRead : V),
            sample .bytesWritten l (n.bytesWritten : V),
            sample .unsafeShutdowns l (n.unsafeShutdowns : V)])
    else counted .ioErrors l h.ioErrors) ++
    (d.usage.toList.flatMap fun u =>
      [sample .usedBytes l (u.usedBytes : V), sample .freeBytes l (u.freeBytes : V)] ++
        (u.volumes.toList.flatMap fun vs =>
          [sample .volumes l (vs.length : V),
            sample .volumesDegraded l (vs.countP fun v => v ≠ "ok" : ℕ)]))

/-- The samples of a drive. One that is missing keeps what is known of it, one that never answered
has no readings. -/
def drive (d : Device V) : List (Reading V) :=
  let l := driveLabels d.drive
  let status := d.drive.health.status
  [sample .device
      (l ++ [(.interface, interface d.drive.kind), (.firmwareVersion, d.firmware)]) ((1 : ℕ) : V),
    sample .driveInfo (l ++ [(.id, d.drive.id.uuid.text), (.wwn, d.drive.wwid.getD ""),
      (.kind, kindWord d.drive.kind), (.firmware, d.firmware),
      (.membership, DriveObjects.fleetWord d.drive.membership),
      (.designation, DriveObjects.designationWord d.drive.designation),
      (.activity, d.drive.activity.word), (.owner, owner d.drive)]) ((1 : ℕ) : V)] ++
    (d.health.collectedAt.toList.map fun t => sample .lastPoll l t) ++
    if d.drive.activity = .missing then []
    else
      [sample .capacity l (d.drive.capacityBytes : V),
        sample .blockSize (l ++ [(.blocksType, "logical")]) (d.drive.blockSize : V)] ++
        (if 0 < d.drive.physicalBlockSize then
          [sample .blockSize (l ++ [(.blocksType, "physical")]) (d.drive.physicalBlockSize : V)]
        else []) ++
        (statuses.map fun s =>
          sample .healthStatus (l ++ [(.status, statusWord s)]) (flag (s = status))) ++
        counted .smartStatus l (passes status) ++
        if d.health.collectedAt.isNone then [] else readings d

/-! ## Shelves -/

/-- An element of a shelf with what is measured of it. -/
structure Element (V : Type) where
  typeName : String
  index : ℕ
  overall : Bool := false
  status : Ses.ElementStatus
  temperatureC : Option ℤ := none
  rpm : Option ℕ := none
  volts : Option V := none
  amps : Option V := none

/-- A shelf with what is measured of it; `through` is set where a RAID controller answers for it. -/
structure ShelfReport (V : Type) where
  vendor : Option String := none
  model : Option String := none
  serial : Option String := none
  through : Bool := false
  unrecoverable : Bool := false
  critical : Bool := false
  noncritical : Bool := false
  elements : List (Element V) := []
  collectedAt : V

/-- The worse of what is known and the status of one element more. -/
def worse (w s : Ses.ElementStatus) : Ses.ElementStatus :=
  match w, s with
  | _, .unrecoverable => .unrecoverable
  | .ok, .critical | .noncritical, .critical => .critical
  | .ok, .noncritical => .noncritical
  | w, _ => w

/-- The worst that a shelf reports. -/
def ShelfReport.worst (s : ShelfReport V) : Ses.ElementStatus :=
  if s.through then .unknown
  else if s.unrecoverable then .unrecoverable
  else if s.critical then .critical
  else if s.noncritical then .noncritical
  else s.elements.foldl (fun w e => worse w e.status) .ok

/-- The samples of a shelf, without the elements that are not there. -/
def shelf (key : String) (s : ShelfReport V) : List (Reading V) :=
  let l : List (Key × String) := [(.enclosure, key)]
  [sample .enclosureInfo (l ++ [(.vendor, s.vendor.getD ""), (.model, s.model.getD ""),
      (.serial, s.serial.getD "")]) ((1 : ℕ) : V),
    sample .enclosureOk l (flag (s.worst = .ok)), sample .enclosureScan l s.collectedAt] ++
    (s.elements.filter fun e =>
      !e.overall && e.status ≠ .notInstalled && e.status ≠ .unsupported).flatMap fun e =>
      let el := l ++ [(.type, e.typeName), (.index, toString e.index)]
      [sample .elementOk el (flag (e.status = .ok))] ++
        (e.temperatureC.toList.map fun t => sample .enclosureTemperature el ((t : ℤ) : V)) ++
        counted .fanRpm el e.rpm ++ (e.volts.toList.map fun v => sample .volts el v) ++
        (e.amps.toList.map fun a => sample .amps el a)

/-! ## The poller -/

/-- What the poller says of itself: the averages are in milliseconds and in percent. -/
structure PollStats (V : Type) where
  drives : ℕ := 0
  inFlight : ℕ := 0
  stuck : List String := []
  samples : ℕ := 0
  timeouts : ℕ := 0
  avgSampleMs : Option V := none
  loadPct : Option V := none
  discoveryMs : Option ℕ := none

variable [Div V]

/-- The samples of the poller. -/
def poller (p : PollStats V) : List (Reading V) :=
  [sample .pollDrives [] (p.drives : V), sample .pollInFlight [] (p.inFlight : V),
    sample .pollStuck [] (p.stuck.length : V), sample .pollSamples [] (p.samples : V),
    sample .pollTimeouts [] (p.timeouts : V)] ++
    (p.avgSampleMs.toList.map fun a => sample .pollSeconds [] (a / ((1000 : ℕ) : V))) ++
    (p.loadPct.toList.map fun l => sample .pollLoad [] (l / ((100 : ℕ) : V))) ++
    (p.discoveryMs.toList.map fun ms => sample .discovery [] ((ms : V) / ((1000 : ℕ) : V)))

/-! ## The page -/

/-- The order of the drives: by name, and then by identity. -/
def before (a b : Device V) : Bool :=
  a.drive.name < b.drive.name ||
    (a.drive.name = b.drive.name && a.drive.id.uuid.bits ≤ b.drive.id.uuid.bits)

/-- The samples of the node, its drives, its shelves and its poller. -/
def render (version node : String) (drives : List (Device V))
    (shelves : List (String × ShelfReport V)) (poll : PollStats V) : List (Reading V) :=
  sample .buildInfo [(.version, version), (.node, node)] ((1 : ℕ) : V) ::
    ((drives.mergeSort before).flatMap drive ++ shelves.flatMap (fun s => shelf s.1 s.2) ++
      poller poll)

/-- A level as a number. -/
def levelNumber : Level → ℤ
  | .unknown => -1
  | .ok => 0
  | .near => 1
  | .warning => 2
  | .critical => 3

/-- A request as a number. -/
def requestNumber : Thermal.CoolingLevel → ℕ
  | .auto => 0
  | .raise => 1
  | .max => 2

/-- The samples of the thermal tracker: its components, its fans, and what it asks for. -/
def renderThermal (t : Thermal.WholeTracker V) : List (Reading V) :=
  (t.components.flatMap fun c =>
    let l : List (Key × String) :=
      [(.component, c.2.id), (.cls, c.2.cls.word), (.label, c.2.label)]
    (c.2.temp.toList.map fun v => sample .thermalTemperature l v) ++
      [sample .thermalWarning l c.2.limits.warn, sample .thermalCritical l c.2.limits.crit,
        sample .thermalLevel l ((levelNumber c.2.level : ℤ) : V)]) ++
    (t.fans.flatMap fun f =>
      let l : List (Key × String) := [(.fan, f.id), (.label, f.label)]
      counted .thermalFanRpm l f.rpm ++ [sample .thermalFanOk l (flag f.problem.isNone)]) ++
    (t.cooling.toList.map fun c =>
      sample .thermalCooling [] ((requestNumber c.request : ℕ) : V))

/-- The page as it is served. -/
def page (fmt : V → String) (version node : String) (drives : List (Device V))
    (shelves : List (String × ShelfReport V)) (poll : PollStats V) (t : Thermal.WholeTracker V) :
    String :=
  (((render version node drives shelves poll).map Reading.sample).foldl Out.add {}).finish fmt ++
    (((renderThermal t).map Reading.sample).foldl Out.add {}).finish fmt

/-! ## The page is read -/

variable {fmt : V → String}

/-- A letter, a digit or an underscore. -/
def nameChar (c : Char) : Bool := c.isAlphanum || c = '_'

/-- A text all of whose characters are of a kind. -/
def Only (ok : Char → Bool) (s : String) : Prop := ∀ c ∈ s.toList, ok c = true

lemma only_ofList {ok : Char → Bool} {l : List Char} (h : l.all ok = true) :
    Only ok (String.ofList l) := by
  intro c mem
  rw [String.toList_ofList] at mem
  exact List.all_eq_true.mp h c mem

lemma Only.not_mem {ok : Char → Bool} {s : String} (h : Only ok s) {c : Char}
    (no : ok c = false) : c ∉ s.toList := fun mem => by
  rw [h c mem] at no
  cases no

lemma Metric.only_name (m : Metric) : Only nameChar m.name := by
  cases m <;> exact only_ofList rfl

lemma Metric.only_help (m : Metric) : Only (· ≠ '\n') m.help := by
  cases m <;> exact only_ofList rfl

lemma Metric.only_kind (m : Metric) : Only (· ≠ '\n') m.kind := by
  cases m <;> exact only_ofList rfl

lemma Key.only_text (k : Key) : Only nameChar k.text := by
  cases k <;> exact only_ofList rfl

omit [NatCast V] [IntCast V] [Div V] in
/-- **A sample of what is measured needs no escape but in the values of its labels.** -/
lemma plain_sample (text : ∀ v, '\n' ∉ (fmt v).toList) (r : Reading V) : r.sample.Plain fmt := by
  have name := r.metric.only_name
  refine ⟨⟨?_, name.not_mem rfl, name.not_mem rfl, name.not_mem rfl, ?_, text _⟩,
    r.metric.only_help.not_mem rfl, r.metric.only_kind.not_mem rfl⟩
  · intro first
    exact name.not_mem rfl (List.mem_of_mem_head? first)
  · intro l mem
    simp only [Reading.sample, List.map_map, List.mem_map] at mem
    obtain ⟨x, -, rfl⟩ := mem
    exact ⟨x.1.only_text.not_mem rfl, x.1.only_text.not_mem rfl⟩

/-- How a name begins of what the thermal tracker measures. -/
def thermalMark : List Char :=
  ['s', 't', 'o', 'r', 'm', 'd', 'r', 'i', 'v', 'e', '_', 't', 'h', 'e', 'r', 'm', 'a', 'l', '_']

lemma take_ofList {l : List Char} {b : Bool} (h : decide (l.take 19 = thermalMark) = b) :
    decide ((String.ofList l).toList.take 19 = thermalMark) = b := by
  rw [String.toList_ofList]
  exact h

lemma Metric.thermal_eq (m : Metric) :
    decide (m.name.toList.take 19 = thermalMark) = m.thermal := by
  cases m <;> exact take_ofList rfl

/-- All of it is measured by the thermal tracker, or nothing of it. -/
def All (thermal : Bool) (rs : List (Reading V)) : Prop := ∀ r ∈ rs, r.metric.thermal = thermal

section All

variable {thermal : Bool} {α : Type}

omit [NatCast V] [IntCast V] [Div V] in
@[simp] lemma all_nil : All thermal ([] : List (Reading V)) := by simp [All]

omit [NatCast V] [IntCast V] [Div V] in
@[simp] lemma all_cons {r : Reading V} {rs : List (Reading V)} :
    All thermal (r :: rs) ↔ r.metric.thermal = thermal ∧ All thermal rs := List.forall_mem_cons

omit [NatCast V] [IntCast V] [Div V] in
@[simp] lemma all_append {rs ts : List (Reading V)} :
    All thermal (rs ++ ts) ↔ All thermal rs ∧ All thermal ts := List.forall_mem_append

omit [NatCast V] [IntCast V] [Div V] in
lemma all_flatMap {l : List α} {f : α → List (Reading V)} (h : ∀ a, All thermal (f a)) :
    All thermal (l.flatMap f) := by
  intro r mem
  obtain ⟨a, -, inside⟩ := List.mem_flatMap.mp mem
  exact h a r inside

omit [NatCast V] [IntCast V] [Div V] in
lemma all_map {m : Metric} (h : m.thermal = thermal) (l : List α)
    (labels : α → List (Key × String)) (v : α → V) :
    All thermal (l.map fun a => sample m (labels a) (v a)) := by
  intro r mem
  obtain ⟨a, -, rfl⟩ := List.mem_map.mp mem
  exact h

omit [IntCast V] [Div V] in
lemma all_counted {m : Metric} (h : m.thermal = thermal) (l : List (Key × String)) (n : Option ℕ) :
    All thermal (counted m l n : List (Reading V)) := all_map h _ _ _

omit [NatCast V] [IntCast V] [Div V] in
lemma all_ite {c : Prop} [Decidable c] {rs ts : List (Reading V)} (h : All thermal rs)
    (h' : All thermal ts) : All thermal (if c then rs else ts) := by
  split_ifs
  · exact h
  · exact h'

end All

omit [Div V] in
lemma all_readings (d : Device V) : All false (readings d) := by
  simp only [readings, all_append]
  refine ⟨⟨⟨⟨⟨⟨⟨all_map rfl _ _ _, all_counted rfl _ _⟩, all_counted rfl _ _⟩,
    all_flatMap fun sm => ?_⟩, all_flatMap fun p => ?_⟩, all_counted rfl _ _⟩,
    all_ite ?_ (all_counted rfl _ _)⟩, all_flatMap fun u => ?_⟩
  · simp only [all_append]
    exact ⟨⟨⟨⟨by simp [Metric.thermal], all_counted rfl _ _⟩, all_counted rfl _ _⟩,
      all_counted rfl _ _⟩, all_counted rfl _ _⟩
  · simp [Metric.thermal]
  · rw [all_append]
    exact ⟨by simp [Metric.thermal], all_flatMap fun n => by simp [Metric.thermal]⟩
  · rw [all_append]
    exact ⟨by simp [Metric.thermal], all_flatMap fun vs => by simp [Metric.thermal]⟩

omit [Div V] in
lemma all_drive (d : Device V) : All false (drive d) := by
  simp only [drive, all_append]
  refine ⟨⟨by simp [Metric.thermal], all_map rfl _ _ _⟩, all_ite all_nil ?_⟩
  simp only [all_append]
  exact ⟨⟨⟨⟨by simp [Metric.thermal], all_ite (by simp [Metric.thermal]) all_nil⟩,
    all_map rfl _ _ _⟩, all_counted rfl _ _⟩, all_ite all_nil (all_readings d)⟩

omit [Div V] in
lemma all_shelf (key : String) (x : ShelfReport V) : All false (shelf key x) := by
  simp only [shelf, all_append]
  refine ⟨by simp [Metric.thermal], all_flatMap fun e => ?_⟩
  simp only [all_append]
  exact ⟨⟨⟨⟨by simp [Metric.thermal], all_map rfl _ _ _⟩, all_counted rfl _ _⟩,
    all_map rfl _ _ _⟩, all_map rfl _ _ _⟩

omit [IntCast V] in
lemma all_poller (p : PollStats V) : All false (poller p) := by
  simp only [poller, all_append]
  exact ⟨⟨⟨by simp [Metric.thermal], all_map rfl _ _ _⟩, all_map rfl _ _ _⟩, all_map rfl _ _ _⟩

lemma all_render (version node : String) (drives : List (Device V))
    (shelves : List (String × ShelfReport V)) (poll : PollStats V) :
    All false (render version node drives shelves poll) := by
  simp only [render, all_cons, all_append]
  exact ⟨rfl, ⟨all_flatMap fun d => all_drive d, all_flatMap fun x => all_shelf x.1 x.2⟩,
    all_poller poll⟩

omit [Div V] in
lemma all_renderThermal (t : Thermal.WholeTracker V) : All true (renderThermal t) := by
  simp only [renderThermal, all_append]
  refine ⟨⟨all_flatMap fun c => ?_, all_flatMap fun f => ?_⟩, all_map rfl _ _ _⟩
  · rw [all_append]
    exact ⟨all_map rfl _ _ _, by simp [Metric.thermal]⟩
  · rw [all_append]
    exact ⟨all_counted rfl _ _, by simp [Metric.thermal]⟩

/-- **The page is read back as all its samples, each name once and with its kind.** Of any drives,
shelves, poller and components with any texts for their names, serial numbers and labels: the page is
a text of the format; in its lines each name is given its kind once and before its samples; and the
samples in it are those of the drives, the shelves, the poller and the thermal tracker, no more and
no less. -/
theorem page_read (f : V → String) (text : ∀ v, '\n' ∉ (f v).toList) (version node : String)
    (drives : List (Device V)) (shelves : List (String × ShelfReport V)) (poll : PollStats V)
    (t : Thermal.WholeTracker V) :
    ∃ lines, Exposition.read (page f version node drives shelves poll t).toList = some lines ∧
      Exposition.Introduced [] lines ∧
      (lines.filter Line.isSample).Perm ((render version node drives shelves poll ++
        renderThermal t).map fun r => r.sample.line f) := by
  set first := render version node drives shelves poll with hfirst
  set second := renderThermal t with hsecond
  have plain : ∀ rs : List (Reading V), ∀ s ∈ rs.map Reading.sample, s.Plain f := by
    intro rs s mem
    obtain ⟨r, -, rfl⟩ := List.mem_map.mp mem
    exact plain_sample text r
  refine ⟨linesOf f (first.map Reading.sample) ++ linesOf f (second.map Reading.sample),
    ?_, ?_, ?_⟩
  · have written : (page f version node drives shelves poll t).toList = Exposition.write
        (linesOf f (first.map Reading.sample) ++ linesOf f (second.map Reading.sample)) := by
      rw [page, String.toList_append, toList_finish, toList_finish, write_append]
    rw [written]
    refine Exposition.read_write fun l mem => ?_
    obtain mem | mem := List.mem_append.mp mem
    · exact plain_linesOf f (plain first) l mem
    · exact plain_linesOf f (plain second) l mem
  · have known : ∀ {thermal : Bool} {rs : List (Reading V)}, All thermal rs →
        ∀ n ∈ names (rs.map Reading.sample), decide (n.toList.take 19 = thermalMark) = thermal := by
      intro thermal rs all n mem
      obtain ⟨s, there, rfl⟩ := mem_names_iff.mp mem
      obtain ⟨r, here, rfl⟩ := List.mem_map.mp there
      exact r.metric.thermal_eq.trans (all r here)
    have last := introduced_linesOf f (second.map Reading.sample)
      ([] ++ (names (first.map Reading.sample)).map String.toList) [] ?_ trivial
    · rw [List.append_nil] at last
      exact introduced_linesOf f _ _ _ (by simp) last
    · intro n mem other
      rw [List.nil_append, List.mem_map] at other
      obtain ⟨m, there, same⟩ := other
      rw [String.toList_inj] at same
      subst same
      have no := known (all_render version node drives shelves poll) m there
      rw [known (all_renderThermal t) m mem] at no
      cases no
  · rw [List.filter_append, List.map_append]
    have parts : ∀ rs : List (Reading V), (rs.map fun r => r.sample.line f) =
        (rs.map Reading.sample).map (Sample.line f) := fun rs => by rw [List.map_map]; rfl
    rw [parts, parts]
    exact (samples_linesOf f _).append (samples_linesOf f _)

end Samples

lemma not_mem_toString (v : ℤ) : '\n' ∉ (toString v).toList := by
  intro mem
  cases v with
  | ofNat n =>
    have digits : '\n' ∈ (toString n).toList := mem
    rw [Nat.toString_eq_repr, Nat.toList_repr] at digits
    cases Nat.isDigit_of_mem_toDigits (by decide) (by decide) digits
  | negSucc n =>
    have digits : '\n' ∈ ("-" ++ toString (n + 1)).toList := mem
    rw [String.toList_append, List.mem_append] at digits
    obtain sign | digits := digits
    · simp at sign
    · rw [Nat.toString_eq_repr, Nat.toList_repr] at digits
      cases Nat.isDigit_of_mem_toDigits (by decide) (by decide) digits

/-- A drive whose serial number has a quote and a line end in it. -/
theorem page_read_quoted :
    let d : Device ℤ := { drive := { Drive.testFixture ⟨⟨1⟩⟩ "sda" with serial := "a\"\n" } }
    ∃ lines, Exposition.read (page toString "1" "n" [d] [] {} {}).toList = some lines ∧
      (lines.filter Line.isSample).Perm ((render "1" "n" [d] [] {} ++
        renderThermal {}).map fun r : Reading ℤ => r.sample.line toString) := by
  intro d
  obtain ⟨lines, read, -, samples⟩ := page_read toString not_mem_toString "1" "n" [d] [] {}
    {}
  exact ⟨lines, read, samples⟩

end Metrics

end StormDrive
