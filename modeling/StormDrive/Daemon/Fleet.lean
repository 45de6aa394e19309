import StormDrive.Daemon.Operations

set_option relaxedAutoImplicit false
set_option autoImplicit false

/-!
# The fleet

The loop between what the daemon knows of a drive and what the engine does with it (`fleet.rs`),
with the routes that change a drive's part in the fleet (`api/mod.rs`, `api/kube.rs`) and the
reconciliation with the engine's list (`monitor.rs`).

## Main definitions

* `startDrain`, `requestDrain`, `cancelDrain`, `pollDrains`, `retryPendingDrains` — drains.
* `syncLabels`, `syncOvercommit`, `syncThermal`, `pushHealth` — what is pushed to the engine.
* `join`, `autoAdd`, `fleetJoin`, `fleetLeave`, `retire` — into the fleet and out of it.
* `setDesignation`, `patchDrive` — the operator's label, and the drive resource.
* `fleetTick`, `collect` — the fleet's tick, and the reconciliation.

## Implementation notes

The fault LEDs of the shelves are left out: they touch no drive. The backoff of an engine without a
route, and of an auto-add that failed, is the environment's.
-/

namespace StormDrive

open Interleave Work

variable (cfg : Settings)

/-- The answer is not used. -/
def ignore {α : Type} (p : Work α) : Work Unit := do
  let _ ← p

/-! ## Drains -/

/-- `start_drain`: a drain already running is adopted, not restarted. -/
def startDrain (id : DriveId) (reason : String) (thenLeave : Bool) :
    Work (Except String Unit) := do
  match ← readDrive .other id with
  | none => pure (.error "not in inventory")
  | some d =>
    if d.membership ≠ .fleet then
      pure (.error (d.name ++ ": not in the fleet, nothing to drain"))
    else if d.drain.any fun r => r.state = "running" then pure (.ok ())
    else
      andThen (perform (.engine (.drainStatus d.stormblockPath id)) :
        Work (Except String (Option DrainStatus))) fun found => do
      let running := found.filter DrainStatus.isRunning
      let status ← (match running with
        | some s => pure (.ok s)
        | none => perform (.engine (.startDrain d.stormblockPath id)) :
          Work (Except String DrainStatus))
      match status with
      | .error why => pure (.error why)
      | .ok s =>
        let _ ← changeDrive id (.drainStarted
          { state := s.state, reason := reason, thenLeave := thenLeave, errors := s.errors })
        persist cfg
        pure (.ok ())

/-- `request_drain`: a drain that the engine will not start now is kept pending. -/
def requestDrain (id : DriveId) (reason : String) (thenLeave : Bool) :
    Work (Except String Unit) := do
  match ← startDrain cfg id reason thenLeave with
  | .ok _ => pure (.ok ())
  | .error why =>
    match ← changeDrive id (.drainRefused reason thenLeave why) with
    | none => pure (.error why)
    | some d =>
      when (d.membership = .fleet) (persist cfg)
      pure (.error why)

/-- `cancel_drain`. -/
def cancelDrain (id : DriveId) : Work (Except String Unit) := do
  match ← readDrive .other id with
  | none => pure (.error "not in inventory")
  | some d =>
    andThen (perform (.engine (.cancelDrain d.stormblockPath id)) : Work (Except String Unit))
      fun _ => do
    let _ ← changeDrive id .drainCancelled
    persist cfg
    pure (.ok ())

/-- `retire`: an empty drive leaves the fleet. -/
def retire (id : DriveId) : Work Unit := do
  match ← readDrive .other id with
  | none => pure ()
  | some d =>
    match ← (perform (.engine (.deleteDrive d.stormblockPath false id)) : Work (Except String Unit)) with
    | .error _ => pure ()
    | .ok _ =>
      let _ ← changeDrive id .retired
      pure ()

/-- What a poll of a drain that the engine knows leads to. -/
def drainPolled (d : Drive) (thenLeave : Bool) (status : DrainStatus) : Work Unit := do
  let _ ← changeDrive d.id (.drainStatus status.state status.errors)
  if status.state = "running" then pure ()
  else if status.state = "empty" then do
    (if thenLeave then retire d.id
      else do
        let _ ← changeDrive d.id .drainEmpty
        pure () : Work Unit)
    persist cfg
  else if status.state = "stuck" then persist cfg
  else do
    let _ ← changeDrive d.id .drainEnded

/-- One turn of `poll_drains`. -/
def pollDrain (d : Drive) : Work Unit := do
  let record := d.drain.getD {}
  match ← (perform (.engine (.drainStatus d.stormblockPath d.id)) :
      Work (Except String (Option DrainStatus))) with
  | .error _ => pure ()
  | .ok none =>
    let _ ← changeDrive d.id (.drainPending record.thenLeave
      "the engine has no record of this drain (restarted?)")
  | .ok (some status) => drainPolled cfg d record.thenLeave status

/-- `poll_drains`: follow every drain of the list. -/
def pollDrains : List Drive → Work Unit
  | [] => pure ()
  | d :: rest => do
    pollDrain cfg d
    pollDrains rest

/-- `retry_pending_drains`: try every drain of the list again. -/
def retryPendingDrains : List Drive → Work Unit
  | [] => pure ()
  | d :: rest => do
    let record := d.drain.getD {}
    let _ ← requestDrain cfg d.id record.reason record.thenLeave
    retryPendingDrains rest

/-! ## What is pushed to the engine -/

/-- The labels of one drive. -/
def pushLabel (d : Drive) : Work Unit := do
  let labels := d.stormblockLabels
  match ← (perform (.engine (.setLabels d.stormblockPath labels d.id)) :
      Work (Except String Unit)) with
  | .ok _ => ignore (changeDrive d.id (.labelsPushed labels))
  | .error _ => pure ()

/-- The labels of each drive of the list. -/
def pushLabels : List Drive → Work Unit
  | [] => pure ()
  | d :: rest => do
    pushLabel d
    pushLabels rest

/-- `sync_labels`. -/
def syncLabels : Work Unit := do
  let due : List Drive ← perform (.record (.due .labels))
  pushLabels due

/-- The overcommit setting of each drive of the list, until the engine has no route for it. -/
def pushOvercommit : List Drive → Work Unit
  | [] => pure ()
  | d :: rest => do
    match ← (perform (.engine (.setOvercommit d.stormblockPath d.overcommit d.id)) :
        Work (Except String Bool)) with
    | .ok true =>
      let _ ← changeDrive d.id (.overcommitPushed d.overcommit)
      pushOvercommit rest
    | .ok false => pure ()
    | .error _ => pushOvercommit rest

/-- `sync_overcommit`. -/
def syncOvercommit : Work Unit := do
  let ready : Bool ← perform (.query (.ready "overcommit"))
  when ready (do
    let due : List Drive ← perform (.record (.due .overcommit))
    pushOvercommit due)

/-- The thermal state of each drive of the list, until the engine has no route for it. -/
def pushThermal : List Drive → Work Unit
  | [] => pure ()
  | d :: rest => do
    let word := (d.thermal.map DriveThermal.engineWord).getD ""
    match ← (perform (.engine (.setThermal d.stormblockPath word d.id)) :
        Work (Except String Bool)) with
    | .ok true =>
      let _ ← changeDrive d.id (.thermalPushed word)
      pushThermal rest
    | .ok false => pure ()
    | .error _ => pushThermal rest

/-- `sync_thermal`. -/
def syncThermal : Work Unit := do
  let ready : Bool ← perform (.query (.ready "thermal"))
  when ready (do
    let due : List Drive ← perform (.record (.due .thermal))
    pushThermal due)

/-- `drop_pending_drain`. -/
def dropPendingDrain (id : DriveId) : Work Unit := do
  let dropped : Bool ← perform (.record (.dropPending id))
  when dropped (persist cfg)

/-- The engine knows a missing drive by its identity, any other by its path. -/
def Drive.healthTarget (d : Drive) : String :=
  if d.activity = .missing then d.id.uuid.text else d.stormblockPath

/-- One report of `push_health`, with the drain that follows from it. -/
def reportHealth (d : Drive) : Work Unit := do
  let word := d.healthWord
  match ← (perform (.engine (.reportHealth d.healthTarget word d.id)) :
      Work (Except String Unit)) with
  | .error _ => pure ()
  | .ok _ =>
    let _ ← changeDrive d.id (.healthPushed word)
    if (word = "failed" ∨ word = "failing") ∧ cfg.drainOnFailing = true then
      ignore (requestDrain cfg d.id "health" true)
    else when (word = "healthy") (dropPendingDrain cfg d.id)

/-- The health of each drive of the list. -/
def reportAll : List Drive → Work Unit
  | [] => pure ()
  | d :: rest => do
    reportHealth cfg d
    reportAll rest

/-- `push_health`. -/
def pushHealth : Work Unit := do
  let due : List Drive ← perform (.record (.due .health))
  reportAll cfg due

/-! ## Into the fleet and out of it -/

/-- `fleet::join`: the tier of the slab that was formatted, if one was. `d` is the drive as the
caller read it. -/
def join (d : Drive) (formatSlab : Bool) (tier : Option String) :
    Work (Except String (Option String)) :=
  let tier := tier.getD (cfg.tierFor d.kind)
  andThen (perform (.engine .listDrives) : Work (Except String (List EngineDrive))) fun listed =>
  andThen (openInEngine d.path d.stormblockLabels d.id listed) fun _ =>
  andThen (if formatSlab then slabInEngine d.path tier none else pure (.ok false)) fun formatted => do
  let _ ← changeDrive d.id (.joined d.stormblockLabels)
  pure (.ok (if formatted then some tier else none))

/-- A join, and the save when it succeeded. -/
def joinAndPersist (d : Drive) (formatSlab : Bool) (tier : Option String) : Work Unit := do
  match ← join cfg d formatSlab tier with
  | .ok _ => persist cfg
  | .error _ => pure ()

/-- Each candidate of the list that is not held back joins. -/
def addAll : List Drive → Work Unit
  | [] => pure ()
  | d :: rest => do
    let ready : Bool ← perform (.query (.ready ("auto-add " ++ d.name)))
    when ready (joinAndPersist cfg d cfg.autoFormatSlab none)
    addAll rest

/-- `auto_add`. -/
def autoAdd : Work Unit := do
  let candidates : List Drive ← perform (.record (.due .add))
  addAll cfg candidates

/-- `fleet_action` with `join`. -/
def fleetJoin (id : DriveId) (formatSlab : Bool) (tier : Option String) : Work Unit := do
  match ← readDrive .other id with
  | none => pure ()
  | some d =>
    let disk : FreshDisk ← perform (.query (.disk d.path))
    if cfg.stormblock = false ∨ (joinRefusal d ⟨disk, ""⟩).isSome then pure ()
    else joinAndPersist cfg d formatSlab tier

/-- The end of a leave: the engine closes the drive. -/
def leaveNow (d : Drive) (force : Bool) : Work Unit := do
  match ← (perform (.engine (.deleteDrive d.stormblockPath force d.id)) :
      Work (Except String Unit)) with
  | .error _ => pure ()
  | .ok _ =>
    let _ ← changeDrive d.id .left
    persist cfg

/-- `fleet_action` with `leave`: a drive with data is drained first, or stays. -/
def fleetLeave (id : DriveId) (drain force : Bool) : Work Unit := do
  match ← readDrive .other id with
  | none => pure ()
  | some d =>
    if cfg.stormblock = false ∨ d.membership ≠ .fleet then pure ()
    else if force then leaveNow cfg d force
    else
      match ← (perform (.engine (.occupiedSlabs d.stormblockPath)) :
          Work (Except String (List String))) with
      | .error _ => pure ()
      | .ok [] => leaveNow cfg d force
      | .ok (_ :: _) => when drain (ignore (startDrain cfg id "leave" true))

/-- The drain route. -/
def drainRoute (id : DriveId) (leave : Bool) : Work Unit :=
  when cfg.stormblock (ignore (startDrain cfg id "operator" leave))

/-! ## The operator's label -/

/-- `system::sync`. -/
def systemSync : Work Unit := do
  let named : List DriveId ← perform (.query .systemLines)
  perform (.record (.restoreSystem named))

/-- A drive that the operator marked failed is reported. -/
def reportFailed (id : DriveId) : Work Unit := do
  let now : Option Drive ← readDrive .other id
  let path := (now.map Drive.stormblockPath).getD ""
  match ← (perform (.engine (.reportHealth path "failed" id)) : Work (Except String Unit)) with
  | .ok _ => ignore (changeDrive id (.healthPushed "failed"))
  | .error _ => pure ()

/-- `set_designation`: a drive of the fleet that is marked failed is reported and drained. -/
def setDesignation (id : DriveId) (des : Designation) : Work Unit := do
  match ← (perform (.record (.designate id des)) :
      Work (Except String (Designation × Drive))) with
  | .error _ => pure ()
  | .ok (was, d) =>
    when (des = .failed ∧ d.membership = .fleet ∧ cfg.stormblock = true) (do
      reportFailed id
      when cfg.drainOnFailing (ignore (requestDrain cfg id "operator" true)))
    when (was = .system ∨ des = .system) systemSync
    persist cfg

/-- The designation of a patch. `d` is the drive as it was read when the patch came. -/
def patchDesignation (d : Drive) (des : Designation) : Work (Except String Unit) :=
  andThen (perform (.record (.designate d.id des)) : Work (Except String (Designation × Drive)))
    fun out => do
  when (out.1 = .system ∨ des = .system) systemSync
  if des = .failed ∧ d.membership = .fleet ∧ cfg.stormblock = true then do
    let _ : Except String Unit ← perform (.engine (.reportHealth d.stormblockPath "failed" d.id))
    let _ ← changeDrive d.id (.healthPushed "failed")
    if cfg.drainOnFailing then requestDrain cfg d.id "operator" true else pure (.ok ())
  else pure (.ok ())

/-- The part in the fleet that a patch asks for. -/
def patchFleet (d : Drive) (fleet : FleetPatch) : Work (Except String Unit) :=
  if cfg.stormblock = false then pure (.error "stormblock integration is disabled")
  else
    match fleet with
    | .join =>
      match d.fleetJoinBlocker with
      | some why =>
        if why ≠ "already in the fleet" then pure (.error (d.name ++ ": " ++ why))
        else pure (.ok ())
      | none => andThen (join cfg d cfg.autoFormatSlab none) fun _ => pure (.ok ())
    | .leave =>
      -- through the resource a drive always drains first
      if d.membership = .fleet then startDrain cfg d.id "leave" true else pure (.ok ())

/-- The drain of a patch. -/
def patchDrain (d : Drive) (drain : Bool) : Work (Except String Unit) :=
  if drain then startDrain cfg d.id "operator" false
  else if d.activity = .draining then cancelDrain cfg d.id
  else pure (.ok ())

/-- A part of a patch that may be absent. -/
def patchPart {α : Type} (x : Option α) (f : α → Work (Except String Unit)) :
    Work (Except String Unit) :=
  match x with
  | some a => f a
  | none => pure (.ok ())

/-- `patch_drive`. -/
def patchDrive (id : DriveId) (patch : DriveSpecPatch) : Work (Except String Unit) := do
  match ← readDrive .other id with
  | none => pure (.error "not found")
  | some d =>
    andThen (patchPart patch.designation (patchDesignation cfg d)) fun _ =>
    andThen (patchPart patch.fleet (patchFleet cfg d)) fun _ =>
    andThen (patchPart patch.drain (patchDrain cfg d)) fun _ => do
    persist cfg
    pure (.ok ())

/-- `set_overcommit`. -/
def setOvercommit (id : DriveId) (oc : Overcommit) : Work Unit := do
  let changed : Bool ← perform (.record (.setOvercommit id oc))
  when changed (persist cfg)

/-- `forget`: a missing drive that is not in the fleet. -/
def forget (id : DriveId) : Work Unit := do
  let forgotten : Bool ← perform (.record (.forget id))
  when forgotten (persist cfg)

/-! ## The ticks -/

/-- The fleet's tick, and the save that ends it. -/
def fleetTick : Work Unit := do
  when cfg.stormblock (do
    syncLabels
    syncOvercommit
    syncThermal
    when cfg.pushHealth (pushHealth cfg)
    let running : List Drive ← perform (.record .runningDrains)
    pollDrains cfg running
    let due : List Drive ← perform (.record .dueDrains)
    retryPendingDrains cfg due
    when cfg.autoAdd (autoAdd cfg))
  persist cfg

/-- `reconcile_stormblock`. -/
def reconcileStormblock : Work Unit := do
  match ← (perform (.engine .listDrives) : Work (Except String (List EngineDrive))) with
  | .ok listed => perform (.record (.reconcile listed))
  | .error _ => pure ()

/-- The part of a monitor's tick that collects: the reconciliation, and the save. -/
def collect : Work Unit := do
  when cfg.stormblock reconcileStormblock
  persist cfg

end StormDrive
