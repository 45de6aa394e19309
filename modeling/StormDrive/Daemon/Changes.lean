import StormDrive.Daemon.Jobs
import StormDrive.Discovery

set_option relaxedAutoImplicit false
set_option autoImplicit false

/-!
# Changes to a drive record

Every change that an operation makes to the record of a drive under the inventory's lock, other
than a discovery pass: those of the worker, of a format, of a test, of a firmware update, of a
drain and of a restart.

## Main definitions

* `DriveUpdate`, `Drive.apply` — the changes and what they make of a record.
* `orphanAction`, `Drive.idleOrphan` — what a restart does with a drive that reads busy.

## Main results

* `Drive.apply_id`, `Drive.apply_place` — no change moves a record to another drive or node.
* `Drive.apply_activity` — the activity after a change.
-/

namespace StormDrive

/-- How a format ended: the block size read back, or the error. -/
abbrev FormatResult := Except String Nat

/-- A change to a drive's record. -/
inductive DriveUpdate
  /-- `worker::set_activity`. -/
  | activity (a : Activity)
  /-- `drivetest::set_activity`: never resurrects a drive that went missing. -/
  | testActivity (a : Activity)
  /-- After a Format NVM: idle, and with a size and a geometry (capacity, logical block size). -/
  | nvmeFormatted (size : Option Nat) (geometry : Option (Nat × Nat))
  /-- `format::start`. -/
  | formatStarted (record : FormatRecord)
  /-- `format::finish`. -/
  | formatFinished (result : FormatResult)
  /-- `firmware::start`. -/
  | firmwareStarted (record : FirmwareRecord)
  /-- The end of a firmware update, with the error. -/
  | firmwareFinished (error : Option String)
  /-- The worker's enrolment, on a partition or the whole drive. -/
  | enrolled (partition : Option Nat) (labels : List (String × String))
  /-- The end of a join. -/
  | joined (labels : List (String × String))
  /-- The end of a leave by REST. -/
  | left
  | labelsPushed (labels : List (String × String))
  | overcommitPushed (oc : Overcommit)
  | thermalPushed (word : String)
  | healthPushed (word : String)
  | overcommitSet (oc : Overcommit)
  /-- An interrupted step's drive after a restart. -/
  | interrupted
  /-- `start_drain`. -/
  | drainStarted (record : DrainRecord)
  /-- `mark_pending` of `poll_drains`, with the reason that the record has. -/
  | drainPending (thenLeave : Bool) (error : String)
  /-- `mark_pending` of `request_drain`: only a drive in the fleet. -/
  | drainRefused (reason : String) (thenLeave : Bool) (error : String)
  /-- The status of a poll. -/
  | drainStatus (state : String) (errors : List String)
  /-- A drain that ended empty, without leaving. -/
  | drainEmpty
  /-- A drain that ended otherwise. -/
  | drainEnded
  /-- `cancel_drain`. -/
  | drainCancelled
  /-- `drop_pending_drain`. -/
  | drainDropped
  /-- `retire`. -/
  | retired

/-- The drain is wanted and the engine has not started it. -/
def pending : String := "pending"

/-- `mark_pending`. -/
def Drive.markPending (d : Drive) (reason : String) (thenLeave : Bool) (error : String) : Drive :=
  let was := d.drain.any fun r => r.state = pending
  let rec' := d.drain.getD {}
  let rec' := if was then rec' else { rec' with reason := reason, thenLeave := thenLeave }
  let d := { d with drain := some { rec' with state := pending, errors := [error] } }
  if d.activity = .draining then { d with activity := .idle } else d

/-- The record after a change. -/
def Drive.apply (d : Drive) : DriveUpdate → Drive
  | .activity a => { d with activity := a }
  | .testActivity a =>
    if a = .idle ∧ d.activity = .missing then d else { d with activity := a }
  | .nvmeFormatted size geometry =>
    let d := { d with activity := .idle }
    match size, geometry with
    | some size, some (cap, lbs) =>
      { d with
        blockSize := size, physicalBlockSize := max lbs size, capacityBytes := cap,
        usable := true }
    | _, _ => d
  | .formatStarted record => { d with activity := .formatting, format := some record }
  | .formatFinished result =>
    let d := if d.activity = .formatting then { d with activity := .idle } else d
    let d := match result with
      | .ok bs =>
        { d with
          blockSize := bs, physicalBlockSize := bs, usable := true,
          capacityBytes :=
            d.capacityBytes / ((d.format.map fun f : FormatRecord => max f.fromBlockSize 1).getD 1) * bs }
      | .error _ => d
    { d with
      format := d.format.map fun f : FormatRecord => match result with
        | .ok _ => { f with state := "done", error := none }
        | .error e => { f with state := "failed", error := some e } }
  | .firmwareStarted record =>
    { d with activity := .updatingFirmware, firmwareUpdate := some record }
  | .firmwareFinished error =>
    let d := if d.activity = .updatingFirmware then { d with activity := .idle } else d
    { d with
      firmwareUpdate := d.firmwareUpdate.map fun f =>
        { f with state := if error.isSome then "failed" else "done", error := error } }
  | .enrolled partition labels =>
    { d with
      membership := .fleet, fleetPartition := partition, pushedLabels := labels,
      pushedHealth := none, pushedOvercommit := none, drain := none }
  | .joined labels =>
    { d with
      membership := .fleet, fleetPartition := none, pushedLabels := labels, pushedHealth := none,
      pushedOvercommit := none, drain := none }
  | .left => { d with membership := .out, fleetPartition := none }
  | .labelsPushed labels => { d with pushedLabels := labels }
  | .overcommitPushed oc => { d with pushedOvercommit := some oc }
  | .thermalPushed word => { d with pushedThermal := some word }
  | .healthPushed word => { d with pushedHealth := some word }
  | .overcommitSet oc => { d with overcommit := oc }
  | .interrupted =>
    if d.activity = .formatting ∨ d.activity = .sanitizing then { d with activity := .idle }
    else d
  | .drainStarted record =>
    let d := { d with drain := some record }
    if record.state = "running" then { d with activity := .draining } else d
  | .drainPending thenLeave error =>
    d.markPending ((d.drain.map DrainRecord.reason).getD "resumed") thenLeave error
  | .drainRefused reason thenLeave error =>
    if d.membership = .fleet then d.markPending reason thenLeave error else d
  | .drainStatus state errors =>
    { d with drain := d.drain.map fun r => { r with state := state, errors := errors } }
  | .drainEmpty => { d with activity := .idle }
  | .drainEnded => if d.activity = .draining then { d with activity := .idle } else d
  | .drainCancelled =>
    let d := { d with drain := d.drain.map fun r => { r with state := "cancelled" } }
    if d.activity = .draining then { d with activity := .idle } else d
  | .drainDropped =>
    if d.drain.any fun r => r.state = pending ∧ r.reason = "health" then { d with drain := none }
    else d
  | .retired =>
    { d with
      membership := .out, fleetPartition := none, activity := .idle, pushedLabels := [],
      pushedHealth := none, pushedOvercommit := none }

/-! ## What no change touches -/

/-- No change makes a record another drive's. -/
@[simp] lemma Drive.apply_id (d : Drive) (u : DriveUpdate) : (d.apply u).id = d.id := by
  cases u <;> simp only [Drive.apply, Drive.markPending] <;> (repeat' split) <;> rfl

/-- No change moves a record to another node: only a discovery pass does. -/
lemma Drive.apply_place (d : Drive) (u : DriveUpdate) :
    (d.apply u).name = d.name ∧ (d.apply u).path = d.path ∧ (d.apply u).wwid = d.wwid ∧
      (d.apply u).kind = d.kind := by
  cases u <;> simp only [Drive.apply, Drive.markPending] <;> (repeat' split) <;> simp

/-- The activity after a change. -/
def DriveUpdate.activityAfter (u : DriveUpdate) (d : Drive) : Activity :=
  match u with
  | .activity a => a
  | .testActivity a => if a = .idle ∧ d.activity = .missing then d.activity else a
  | .nvmeFormatted _ _ | .drainEmpty | .retired => .idle
  | .formatStarted _ => .formatting
  | .formatFinished _ => if d.activity = .formatting then .idle else d.activity
  | .firmwareStarted _ => .updatingFirmware
  | .firmwareFinished _ => if d.activity = .updatingFirmware then .idle else d.activity
  | .interrupted =>
    if d.activity = .formatting ∨ d.activity = .sanitizing then .idle else d.activity
  | .drainStarted record => if record.state = "running" then .draining else d.activity
  | .drainPending _ _ | .drainEnded | .drainCancelled =>
    if d.activity = .draining then .idle else d.activity
  | .drainRefused _ _ _ =>
    if d.membership = .fleet ∧ d.activity = .draining then .idle else d.activity
  | .enrolled _ _ | .joined _ | .left | .labelsPushed _ | .overcommitPushed _ | .thermalPushed _
  | .healthPushed _ | .overcommitSet _ | .drainStatus _ _ | .drainDropped => d.activity

/-- **What a change makes of the activity.** -/
@[simp] theorem Drive.apply_activity (d : Drive) (u : DriveUpdate) :
    (d.apply u).activity = u.activityAfter d := by
  cases u <;> simp only [Drive.apply, Drive.markPending, DriveUpdate.activityAfter] <;>
    (repeat' split) <;> simp_all

/-! ## After a restart -/

/-- What a restart does with a drive that reads busy but that no run owns. -/
inductive Orphan
  | leave
  /-- A SCSI FORMAT UNIT that was started: the drive keeps formatting by itself. -/
  | reattachFormat
  /-- Nothing is doing it any more: back to idle. -/
  | idle (why : String)

/-- The record has a format that reads running. -/
def Drive.formatRunning (d : Drive) : Bool :=
  d.format.any fun f => f.state = "running"

/-- The restart's action. `inWorker`: a worker job had this drive's step running. -/
def orphanAction (d : Drive) (inWorker : Bool) : Orphan :=
  match d.activity with
  | .formatting =>
    if inWorker then .leave
    else if d.kind ≠ .nvmeSsd ∧ d.formatRunning = true then .reattachFormat
    else .idle ("a format was running when stormdrive stopped; " ++
      "check the drive's geometry before using it")
  | .sanitizing =>
    if inWorker then .leave
    else .idle "a sanitize was running when stormdrive stopped and no job owns it"
  | .testing =>
    .idle ("a drive test was running when stormdrive stopped; it did not finish — " ++
      "run it again")
  | .updatingFirmware =>
    .idle ("a firmware update was running when stormdrive stopped; it may be incomplete — " ++
      "check the version, then update again")
  | .idle | .draining | .missing => .leave

/-- Back to idle, with the persisted record marked interrupted. -/
def Drive.idleOrphan (d : Drive) (why : String) : Drive :=
  let d := match d.activity with
    | .formatting =>
      { d with
        format := d.format.map fun f : FormatRecord =>
          if f.state = "running" then { f with state := "interrupted", error := some why } else f }
    | .updatingFirmware =>
      { d with
        firmwareUpdate := d.firmwareUpdate.map fun f : FirmwareRecord =>
          if f.state = "running" then { f with state := "interrupted", error := some why } else f }
    | _ => d
  { d with activity := .idle }

/-- A drive after `recover_orphans`. -/
def Drive.recovered (d : Drive) (inWorker : Bool) : Drive :=
  match orphanAction d inWorker with
  | .idle why => d.idleOrphan why
  | _ => d

/-- A restart leaves a record at its node. -/
lemma Drive.recovered_place (d : Drive) (inWorker : Bool) :
    (d.recovered inWorker).id = d.id ∧ (d.recovered inWorker).name = d.name ∧
      (d.recovered inWorker).path = d.path ∧ (d.recovered inWorker).wwid = d.wwid := by
  unfold Drive.recovered
  split
  · unfold Drive.idleOrphan
    dsimp only
    split <;> exact ⟨rfl, rfl, rfl, rfl⟩
  · exact ⟨rfl, rfl, rfl, rfl⟩

end StormDrive
