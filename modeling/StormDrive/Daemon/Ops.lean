import StormDrive.Daemon.Records
import StormDrive.Interleave.Prog

set_option relaxedAutoImplicit false
set_option autoImplicit false

/-!
# The operations of the daemon

Everything a task of the daemon does that other tasks can see or that the world answers: a section
under the lock of the jobs or of the inventory, a permit, a command to a drive, a request to the
engine. Each is one atomic operation. Between two operations of a task any other may run: in the
source an `await`, a lock or a system call stands there.

## Main definitions

* `State` — the jobs and the inventory in memory and on disk, the permits, the drives.
* `Op`, `Op.Ans` — the operations and what they answer.
* `Op.exec` — what an operation does to the state, given what the environment decides.

## Implementation notes

`Env` holds what the state does not decide: the answers of the apiserver and of the engine, a fresh
read of a disk, the outcome of a command or of a write. `writing` is the snapshot a save has taken
and not yet written: the lock of the saves is held while there is one. `seen` is the drive that the
last completed discovery pass put behind a node, `behind` the drive the kernel has there. `sent`
lists the steps of jobs whose command reached a drive. Neither `seen` nor `sent` is read by the
daemon. A command is opened on the node of the block device, also where the source goes through
the SG node of that device. The engine finds the drive that the daemon means, by path or by
identity; `Engine` is not read by the daemon either. The collectors of health, temperature and slabs
are a change of the world: any values can be written at any time.
-/

namespace StormDrive

/-! ## What the world answers -/

/-- A step of a drive's part of a job. -/
structure StepRef where
  job : JobId
  idx : Nat
  step : Nat
  deriving DecidableEq

/-- What a device node is opened for. -/
inductive Access
  | read | format | sanitize | erase | partition | test | firmware
  deriving DecidableEq

/-- The node is opened to change the drive. -/
def Access.writes : Access → Bool
  | read => false
  | _ => true

/-- A command to a drive. -/
inductive Cmd
  /-- MODE SELECT with a block length. -/
  | setLength (blockSize : Nat)
  | formatUnit (protection : Protection) (immediate : Bool)
  | formatNvm (blockSize : Nat)
  | sanitize (method : SanitizeMethod)
  | setPassword (password : String)
  | erasePrepare
  | disablePassword (password : String)
  | eraseUnit (password : String) (enhanced : Bool)
  /-- Clear both ends and write a partition table. -/
  | writeLayout (role : Role)
  /-- The pattern of a destructive test. -/
  | writePattern
  /-- Download and activate an image. -/
  | writeBuffer
  deriving DecidableEq

/-- The drive goes on with it by itself until it is done. -/
def Cmd.runsOn : Cmd → Bool
  | formatUnit .. | formatNvm _ | sanitize _ | eraseUnit .. => true
  | _ => false

/-- The command that a step is there to send: all others prepare it. -/
def Cmd.carriesOut : Cmd → Bool
  | setLength _ | setPassword _ | erasePrepare | disablePassword _ => false
  | _ => true

/-- A drive's answer to a command. -/
inductive Reply
  | ok
  /-- An illegal request: the drive will not do it. -/
  | illegal (why : String)
  | error (why : String)
  deriving DecidableEq

/-- The Security feature set's state. -/
structure AtaSecurity where
  supported : Bool := true
  /-- A user password is set. -/
  enabled : Bool := false
  locked : Bool := false
  frozen : Bool := false
  countExpired : Bool := false
  enhancedSupported : Bool := false
  deriving DecidableEq

/-- The apiserver's answer about a requester. -/
inductive Recheck
  | allowed
  | denied (why : String)
  | unavailable (why : String)
  deriving DecidableEq

/-- Where a drain stands, by the engine. -/
structure DrainStatus where
  state : String
  errors : List String := []
  deriving DecidableEq

/-- The drain goes on. -/
def DrainStatus.isRunning (s : DrainStatus) : Bool :=
  s.state = "running"

/-- An entry of the engine's list of drives. -/
structure EngineDrive where
  path : Option String := none
  serial : Option String := none
  deriving DecidableEq

/-- The state of a format's or a test's run. -/
inductive RunState
  | running
  | passed
  | failed (why : String)
  | cancelled
  deriving DecidableEq

/-- What the environment decides in an operation. -/
structure Env where
  /-- The request, the write or the read goes through. -/
  ok : Bool := true
  /-- The command reaches the drive. -/
  took : Bool := true
  why : String := ""
  reply : Reply := .ok
  secs : Nat := 0
  ids : List DriveId := []
  names : List String := []
  disk : FreshDisk := ⟨.unreadable, none⟩
  mounts : String := ""
  observed : List Observed := []
  security : AtaSecurity := {}
  capacity : Nat × Nat := (512, 0)
  geometry : Option (Nat × Nat) := none
  recheck : Recheck := .allowed
  random : List Nat := []
  drain : Option DrainStatus := none
  listed : List EngineDrive := []

/-- A change outside the tasks. -/
inductive World
  /-- The drive ends what it is doing. -/
  | finish (dev : DriveId)
  /-- A node appears, goes, or reaches another drive. -/
  | plug (node : String) (dev : Option DriveId)
  /-- The health of a drive is sampled, its temperature read, its slabs are listed. -/
  | sample (id : DriveId) (health : HealthReport) (thermal : Option DriveThermal)
      (usage : Option Usage)

/-! ## The state -/

/-- The jobs in memory and in jobs.json. -/
structure JobStore where
  jobs : Jobs
  saved : Jobs
  writing : Option Jobs := none
  seq : Nat := 0

/-- Permits, locks and the handles of runs. -/
structure Sync where
  /-- Free permits of the lanes that exist. -/
  lanes : String → Option Nat := fun _ => none
  domains : String → Option Nat := fun _ => none
  runs : List RunState := []
  firmwareFree : Bool := true
  /-- The API and the monitor run. -/
  serving : Bool := false

/-- The drives. -/
structure Hardware where
  behind : String → Option DriveId
  /-- What a drive is doing by itself. -/
  running : DriveId → Option Cmd := fun _ => none
  /-- The user password of a drive, with the step that set it. -/
  password : DriveId → Option (String × Option StepRef) := fun _ => none
  sent : List StepRef := []
  /-- The part of `sent` from before the last restart. -/
  sentBefore : List StepRef := []

/-- What the engine last accepted for a drive that it has open. -/
structure Registration where
  labels : List (String × String) := []
  health : Option String := none
  overcommit : Option Overcommit := none
  thermal : Option String := none
  deriving DecidableEq

/-- The drives that the engine has open. -/
abbrev Engine := DriveId → Option Registration

/-- Everything. -/
structure State where
  store : JobStore
  records : Records
  sync : Sync := {}
  hw : Hardware
  engine : Engine := fun _ => none

/-! ## The operations -/

/-- Which of the reads of a drive's record this is. -/
inductive Site
  /-- The read right before a step, which the guard decides on. -/
  | approval
  | other
  deriving DecidableEq

/-- A section under the lock of the jobs, or a part of `Worker::save`. -/
inductive JobOp
  /-- What a task of the job needs once. -/
  | head (job : JobId) (idx : Nat)
  | poll (job : JobId) (idx : Nat)
  | requester (job : JobId)
  | change (job : JobId) (idx : Nat) (u : DjUpdate)
  | password (job : JobId) (idx : Nat)
  | stepCount (job : JobId)
  | newId
  | insert (job : Job)
  | cancel (id : JobId)
  | resume (id : JobId) (who : Option Requester)
  /-- The drives with a running step. -/
  | owned
  /-- The section of `recover`. -/
  | recover
  /-- Take the lock of the saves, prune, and serialise. -/
  | snapshot
  /-- Write the snapshot to jobs.json. -/
  | write

/-- The answers. -/
abbrev JobOp.Ans : JobOp → Type
  | head .. => Option (List Step × DriveId × Bool × Bool)
  | poll .. => Option (Nat × Bool × DjState)
  | requester _ => Option Requester
  | change .. => Option DriveJob
  | password .. => Option String
  | stepCount _ => Nat
  | newId => JobId
  | insert _ => Unit
  | cancel _ => Bool
  | resume .. => Except String (List Nat)
  | owned => List DriveId
  | recover => List (JobId × Nat × DriveId × Step) × List DriveId
  | snapshot | write => Unit

/-- What a part of the fleet's tick is due for. -/
inductive Due
  | labels | overcommit | thermal | health | add
  deriving DecidableEq

/-- A section under the lock of the inventory. -/
inductive RecordOp
  | read (site : Site) (id : DriveId)
  | select (ids : List DriveId)
  /-- The records, mounts and probes of `start_formats`, in one section. -/
  | inspect (ids : List DriveId)
  /-- Other namespaces of an NVMe drive's controller. -/
  | siblings (d : Drive)
  | change (id : DriveId) (u : DriveUpdate)
  /-- The section of `recover_orphans`: the formats to re-attach, and whether any drive was put
  back to idle. -/
  | recoverOrphans (owned : List DriveId)
  | runningDrains
  | dueDrains
  /-- The drives that a part of the fleet's tick takes. -/
  | due (w : Due)
  /-- A drive's designation, unless it is blocked. -/
  | designate (id : DriveId) (des : Designation)
  /-- The section of `system::sync`, for the drives that a kept line names. -/
  | restoreSystem (named : List DriveId)
  /-- The section of `reconcile_stormblock`. -/
  | reconcile (listed : List EngineDrive)
  /-- The section of `drop_pending_drain`. -/
  | dropPending (id : DriveId)
  /-- The section of `forget`. -/
  | forget (id : DriveId)
  /-- The section of `set_overcommit`. -/
  | setOvercommit (id : DriveId) (oc : Overcommit)
  /-- A discovery pass merges what it saw. -/
  | merge
  | snapshot
  | write

/-- The answers. -/
abbrev RecordOp.Ans : RecordOp → Type
  | read .. => Option Drive
  | select _ => List Drive
  | inspect _ => List (DriveId × Option (Drive × Fresh))
  | siblings _ => Nat
  | change .. => Option Drive
  | recoverOrphans _ => List Drive × Bool
  | runningDrains | dueDrains | due _ => List Drive
  -- the designation before and the record after
  | designate .. => Except String (Designation × Drive)
  | dropPending _ | forget _ | setOvercommit .. => Bool
  | restoreSystem _ | reconcile _ | merge | snapshot | write => Unit

/-- Permits, locks and handles. -/
inductive SyncOp
  | acquireLane (key : String) (permits : Nat)
  | releaseLane (key : String)
  | acquireDomain (key : String) (permits : Nat)
  | releaseDomain (key : String)
  | newRun
  | setRun (h : Nat) (st : RunState)
  /-- Wait until the run has ended. -/
  | awaitRun (h : Nat)
  | lockFirmware
  | unlockFirmware
  /-- Recovery is over: the API and the monitor start. -/
  | serve

/-- The answers. -/
abbrev SyncOp.Ans : SyncOp → Type
  | newRun => Nat
  | awaitRun _ => RunState
  | _ => Unit

/-- A device node or a drive behind one. -/
inductive DeviceOp
  /-- Open a node, to reach the drive `want`. -/
  | openNode (node : String) (want : DriveId) (access : Access)
  | send (dev : DriveId) (cmd : Cmd) (step : Option StepRef)
  /-- Poll until the drive is done. -/
  | await (dev : DriveId)
  | identify (dev : DriveId)
  /-- Block length and protection type. -/
  | readCapacity (dev : DriveId)
  /-- Size and logical block size, from sysfs. -/
  | geometry (name : String)
  /-- The kernel names of the disks with the drive's WWID. -/
  | namesByWwid (id : DriveId)

/-- The answers. -/
abbrev DeviceOp.Ans : DeviceOp → Type
  | openNode .. => Except String DriveId
  | send .. => Reply
  | await _ => Except String Unit
  | identify _ => Except String AtaSecurity
  | readCapacity _ => Except String (Nat × Nat)
  | geometry _ => Option (Nat × Nat)
  | namesByWwid _ => List String

/-- A question to the world that changes nothing. -/
inductive QueryOp
  /-- A fresh read of the drive. -/
  | disk (path : String)
  | mounts
  /-- The drives that the lines kept of the system-data file name. -/
  | systemLines
  | recheck (who : Requester)
  | random
  /-- A controller reset holds new formats. -/
  | resetHold
  | bootId
  /-- The backoff of a part of the fleet's tick has passed, or of an auto-add. -/
  | ready (what : String)
  /-- A check on the way fails: an identify, a layout, a partition node that does not show. -/
  | check (what : String)

/-- The answers. -/
abbrev QueryOp.Ans : QueryOp → Type
  | disk _ => FreshDisk
  | mounts => String
  | systemLines => List DriveId
  | recheck _ => Recheck
  | random => Except String (List Nat)
  | resetHold => Option String
  | bootId => String
  | ready _ => Bool
  | check _ => Except String Unit

/-- A request to the engine. -/
inductive EngineOp
  | listDrives
  | setLabels (target : String) (labels : List (String × String)) (id : DriveId)
  | addDrive (target : String) (labels : List (String × String)) (id : DriveId)
  | driveSlabs (target : String)
  /-- The slabs with anything on them. -/
  | occupiedSlabs (target : String)
  | formatSlab (target : String) (tier : String) (role : Option Role)
  | setOvercommit (target : String) (oc : Overcommit) (id : DriveId)
  | setThermal (target : String) (word : String) (id : DriveId)
  | reportHealth (target : String) (word : String) (id : DriveId)
  | drainStatus (path : String) (id : DriveId)
  | startDrain (path : String) (id : DriveId)
  | cancelDrain (path : String) (id : DriveId)
  | deleteDrive (path : String) (force : Bool) (id : DriveId)

/-- The answers. A setting is answered with false by an engine that has no route for it. -/
abbrev EngineOp.Ans : EngineOp → Type
  | listDrives => Except String (List EngineDrive)
  | driveSlabs _ | occupiedSlabs _ => Except String (List String)
  | setOvercommit .. | setThermal .. => Except String Bool
  | drainStatus .. => Except String (Option DrainStatus)
  | startDrain .. => Except String DrainStatus
  | _ => Except String Unit

/-- What `spec.fleet` of a patch asks for. -/
inductive FleetPatch
  | join | leave
  deriving DecidableEq

/-- A merge-patch of a drive resource. The locate LED is left out. -/
structure DriveSpecPatch where
  designation : Option Designation := none
  fleet : Option FleetPatch := none
  /-- Start a drain, or cancel it. -/
  drain : Option Bool := none
  deriving DecidableEq

/-- The requests that tasks serve. -/
inductive Req
  | submit (req : Request) (selected : List DriveId) (who : Option Requester)
  | cancel (id : JobId)
  | resume (id : JobId) (who : Option Requester)
  | startFormats (ids : List DriveId) (blockSize : Nat) (protection : Protection)
  | startTest (id : DriveId) (kind : TestKind)
  /-- The image comes in pieces. -/
  | startFirmware (ids : List DriveId) (image : String) (pieces : Nat) (force : Bool)
  /-- A discovery pass. -/
  | pass
  /-- The part of a monitor's tick that asks the engine for its drives. -/
  | collect
  /-- The fleet's tick. -/
  | fleetTick
  /-- The routes of a drive in the fleet. -/
  | fleetJoin (id : DriveId) (formatSlab : Bool) (tier : Option String)
  | fleetLeave (id : DriveId) (drain force : Bool)
  | startDrain (id : DriveId) (leave : Bool)
  | cancelDrain (id : DriveId)
  | setDesignation (id : DriveId) (des : Designation)
  | setOvercommit (id : DriveId) (oc : Overcommit)
  | patchDrive (id : DriveId) (patch : DriveSpecPatch)
  | forget (id : DriveId)
  | recover
  | runDrive (job : JobId) (idx : Nat)
  /-- The loop of `run_drive`, from its top. -/
  | driveLoop (job : JobId) (idx : Nat) (steps : List Step) (id : DriveId)
      (destroyNamed inUseNamed : Bool)
  | formatTask (h : Nat) (d : Drive) (target : Nat) (protection : Protection)
      (step : Option StepRef)
  | reattachTask (h : Nat) (d : Drive) (otherBoot : Bool)
  | testTask (h : Nat) (d : Drive) (kind : TestKind) (step : Option StepRef)
  | firmwareTask (d : Drive) (pieces : Nat) (force : Bool)
  | watch (job : JobId) (idx : Nat) (id : DriveId) (step : Step)

/-- An operation. -/
inductive Op
  | job (o : JobOp)
  | record (o : RecordOp)
  | sync (o : SyncOp)
  | device (o : DeviceOp)
  | query (o : QueryOp)
  | engine (o : EngineOp)
  /-- Start a task. -/
  | spawn (r : Req)

/-- What an operation answers. -/
abbrev Op.Ans : Op → Type
  | job o => o.Ans
  | record o => o.Ans
  | sync o => o.Ans
  | device o => o.Ans
  | query o => o.Ans
  | engine o => o.Ans
  | spawn _ => Unit

/-! ## What an operation does -/

/-- Lower-case hexadecimal. -/
def hex (n : Nat) : String :=
  String.ofList ((Nat.toDigits 16 n))

/-- `format!("j{secs:x}{n:02x}")`. -/
def jobId (secs n : Nat) : JobId :=
  "j" ++ hex secs ++ (if n < 16 then "0" ++ hex n else hex n)

/-- A part and its job at `recover`: what becomes of the part. -/
def DriveJob.recovered (j : Job) (d : DriveJob) : DriveJob :=
  match recoverAction d j.steps[d.step]? with
  | .interrupt why => d.apply (.interrupt why)
  | _ => d

/-- A job at `recover`. -/
def Job.recovered (j : Job) : Job :=
  { j with drives := j.drives.map (DriveJob.recovered j) }

/-- The parts of a job that `recover` re-attaches. -/
def Job.reattached (j : Job) : List (JobId × Nat × DriveId × Step) :=
  j.drives.zipIdx.filterMap fun e =>
    match recoverAction e.1 j.steps[e.1.step]? with
    | .reattach => (j.steps[e.1.step]?).map fun s => (j.id, e.2, e.1.drive, s)
    | _ => none

/-- The drives of a job whose parts `recover` interrupts. -/
def Job.interruptedDrives (j : Job) : List DriveId :=
  j.drives.filterMap fun d =>
    match recoverAction d j.steps[d.step]? with
    | .interrupt _ => some d.drive
    | _ => none

/-- `resume` under the lock: interrupted parts are queued again. -/
def Job.resumed (j : Job) (who : Option Requester) : Job :=
  { j with
    requester := who <|> j.requester
    drives := j.drives.map fun d =>
      if d.state = .interrupted then { d with state := .queued, phase := "queued", error := none }
      else d }

/-- The parts that `resume` takes up. -/
def Job.resumable (j : Job) : List Nat :=
  j.drives.zipIdx.filterMap fun e => if e.1.state = .interrupted then some e.2 else none

/-- `cancel` under the lock: what is not running does not start. -/
def Job.cancelled (j : Job) : Job :=
  { j with
    cancel := true
    drives := j.drives.map fun d =>
      if d.state = .queued ∨ d.state = .interrupted then d.apply .cancel else d }

lemma Job.recovered_id (j : Job) : j.recovered.id = j.id := rfl

lemma Job.resumed_id (who : Option Requester) (j : Job) : (j.resumed who).id = j.id := rfl

lemma Job.cancelled_id (j : Job) : j.cancelled.id = j.id := rfl

/-- A section under the lock of the jobs. -/
def JobOp.exec : (o : JobOp) → Env → JobStore → Option (o.Ans × JobStore)
  | .head job idx, _, s => some ((do
      let j ← s.jobs.get job
      let d ← j.drives[idx]?
      some (j.steps, d.drive, d.destroyNamed, d.inUseNamed) :), s)
  | .poll job idx, _, s => some ((do
      let j ← s.jobs.get job
      let d ← j.drives[idx]?
      some (d.step, j.cancel, d.state) :), s)
  | .requester job, _, s => some ((s.jobs.get job).bind Job.requester, s)
  | .change job idx u, _, s =>
    let jobs := s.jobs.updateDrive job idx u
    some (jobs.drive job idx, { s with jobs := jobs })
  | .password job idx, _, s => some ((s.jobs.drive job idx).bind DriveJob.ataPassword, s)
  | .stepCount job, _, s => some ((((s.jobs.get job).map fun j => j.steps.length).getD 0 : Nat), s)
  | .newId, e, s => some (jobId e.secs s.seq, { s with seq := s.seq + 1 })
  | .insert j, _, s => some ((), { s with jobs := s.jobs.insert j })
  | .cancel id, _, s =>
    some ((s.jobs.get id).isSome, { s with jobs := s.jobs.update id Job.cancelled Job.cancelled_id })
  | .resume id who, _, s =>
    match s.jobs.get id with
    | none => some (.error ("job " ++ id ++ ": not found"), s)
    | some j =>
      if j.cancel then some (.error ("job " ++ id ++ " was cancelled"), s)
      else
        some (.ok j.resumable, { s with jobs := s.jobs.update id (·.resumed who) (Job.resumed_id who) })
  | .owned, _, s =>
    some (s.jobs.entries.flatMap fun e =>
      (e.2.drives.filter fun d => d.state = .running).map DriveJob.drive, s)
  | .recover, _, s =>
    some ((s.jobs.entries.flatMap fun e => e.2.reattached,
      s.jobs.entries.flatMap fun e => e.2.interruptedDrives),
      { s with jobs := s.jobs.updateAll Job.recovered Job.recovered_id })
  | .snapshot, _, s =>
    match s.writing with
    | some _ => none
    | none => some ((), { s with jobs := s.jobs.prune, writing := some s.jobs.prune })
  | .write, e, s =>
    match s.writing with
    | some snap => some ((), { s with saved := if e.ok then snap else s.saved, writing := none })
    | none => some ((), s)

/-- The drain should be tried again. -/
def Drive.drainDue (d : Drive) : Bool :=
  d.membership = .fleet && d.activity ≠ .missing && d.drain.any fun r => r.state = pending

/-- A drive on which the engine has slabs, as far as is known. -/
def Drive.carriesSlabs (d : Drive) : Bool :=
  d.membership = .fleet || d.usage.any fun u => u.slabs ≠ []

/-- `thermal_push_due`: a drive never pushed is sent only once it asks something of the engine. -/
def thermalPushDue (pushed : Option String) (t : DriveThermal) : Bool :=
  match pushed with
  | some p => p ≠ t.engineWord
  | none => t.throttleBackground || t.excludeNewPlacement || t.replaceProposed

/-- The health word that is reported for a drive: a pulled one is missing, one that the operator
designated failed is failed. -/
def Drive.healthWord (d : Drive) : String :=
  if d.activity = .missing then "missing"
  else if d.designation = .failed then "failed"
  else d.stormblockHealth

/-- The drives that a part of the fleet's tick takes. -/
def Due.holds : Due → Drive → Bool
  | labels, d =>
    d.membership = .fleet && d.activity ≠ .missing && d.pushedLabels ≠ d.stormblockLabels
  | overcommit, d =>
    d.activity ≠ .missing && d.carriesSlabs && d.pushedOvercommit ≠ some d.overcommit
  | thermal, d =>
    d.activity ≠ .missing && d.carriesSlabs && d.thermal.any (thermalPushDue d.pushedThermal)
  | health, d =>
    d.membership = .fleet && (d.activity = .missing || d.health.status ≠ .unknown) &&
      d.pushedHealth ≠ some d.healthWord
  | add, d => autoAddCandidate d

/-- An entry of the engine's list is taken for this drive: by one of its paths, or by a serial that
is not empty. -/
def EngineDrive.matches (sd : EngineDrive) (d : Drive) : Bool :=
  sd.path = some d.path || sd.path = some d.stormblockPath ||
    (d.serial ≠ "" && sd.serial = some d.serial)

/-- A drive after `reconcile_stormblock`. -/
def Drive.reconciled (listed : List EngineDrive) (d : Drive) : Drive :=
  let inSb := listed.any fun sd => sd.matches d
  match inSb, d.membership with
  | true, .out => { d with membership := .fleet }
  | false, .fleet => { d with membership := .out }
  | _, _ => d

/-- A drive of the system-data file that has no designation is the system drive again. -/
def Drive.restoredSystem (d : Drive) : Drive :=
  if d.designation = .none then { d with designation := .system } else d

/-- The controller's part of a namespace's name: `nvme0` of `nvme0n1`. -/
def nvmeController (name : String) : Option String :=
  match stripPrefix "nvme" name with
  | none => none
  | some rest =>
    match splitOnce 'n' rest.reverse with
    | none => none
    | some (ns, ctrl) =>
      if allDigits ctrl && allDigits ns then some ("nvme" ++ String.ofList ctrl.reverse) else none

/-- Another present drive of the same NVMe controller. -/
def Drive.isSibling (d o : Drive) : Bool :=
  o.id ≠ d.id && o.activity ≠ .missing && (nvmeController d.name).isSome &&
    nvmeController o.name = nvmeController d.name

/-- A drive after `reconcile_stormblock` is the same drive. -/
lemma Drive.reconciled_id (listed : List EngineDrive) (d : Drive) :
    (d.reconciled listed).id = d.id := by
  unfold Drive.reconciled
  dsimp only
  split <;> rfl

/-- A drive that the system-data file names is the same drive. -/
lemma Drive.restoredSystem_id (d : Drive) : d.restoredSystem.id = d.id := by
  unfold Drive.restoredSystem
  split <;> rfl

/-- A section under the lock of the inventory. -/
def RecordOp.exec (newV5 : String → Uuid) :
    (o : RecordOp) → Env → Records → Option (o.Ans × Records)
  | .read _ id, _, s => some (s.inv id, s)
  | .select ids, _, s => some (ids.filterMap s.inv, s)
  | .inspect ids, e, s =>
    some (ids.map fun id => (id, (s.inv id).map fun d => (d, ⟨e.disk, e.mounts⟩)), s)
  | .siblings d, e, s =>
    some ((if d.kind = .nvmeSsd then (s.listed e.ids d.isSibling).length else 0 : Nat), s)
  | .change id u, _, s =>
    some ((s.inv id).map fun d => d.apply u, s.update id (·.apply u) fun d => d.apply_id u)
  | .recoverOrphans owned, e, s =>
    some ((s.listed e.ids fun d => match orphanAction d (owned.contains d.id) with
        | .reattachFormat => true
        | _ => false,
      (s.listed e.ids fun d => match orphanAction d (owned.contains d.id) with
        | .idle _ => true
        | _ => false) ≠ []),
      s.updateAll (fun d => d.recovered (owned.contains d.id)) fun d => (d.recovered_place _).1)
  | .runningDrains, e, s =>
    some (s.listed e.ids fun d => d.drain.any fun r => r.state = "running", s)
  | .dueDrains, e, s => some (s.listed e.ids Drive.drainDue, s)
  | .due w, e, s => some (s.listed e.ids w.holds, s)
  | .designate id des, _, s =>
    match s.inv id with
    | none => some (.error "not in inventory", s)
    | some d =>
      match d.designationBlocker des with
      | some why => some (.error (d.name ++ ": " ++ why), s)
      | none =>
        some (.ok (d.designation, { d with designation := des }),
          s.update id (fun d => { d with designation := des }) fun _ => rfl)
  | .restoreSystem named, _, s =>
    some ((), s.updateAll (fun d => if d.id ∈ named then d.restoredSystem else d) fun d => by
      split
      · exact d.restoredSystem_id
      · rfl)
  | .reconcile listed, _, s =>
    some ((), s.updateAll (Drive.reconciled listed) (Drive.reconciled_id listed))
  | .dropPending id, _, s =>
    some ((s.inv id).any fun d => d.drain.any fun r => r.state = pending ∧ r.reason = "health",
      s.update id (·.apply .drainDropped) fun d => d.apply_id _)
  | .forget id, _, s =>
    match s.inv id with
    | none => some (false, s)
    | some d =>
      if d.activity ≠ .missing ∨ d.membership = .fleet then some (false, s)
      else some (true, s.erase id)
  | .setOvercommit id oc, _, s =>
    some ((s.inv id).any fun d => d.overcommit ≠ oc,
      s.update id (·.apply (.overcommitSet oc)) fun d => d.apply_id _)
  | .merge, e, s => some ((), s.merged newV5 e.observed)
  | .snapshot, _, s =>
    match s.writing with
    | some _ => none
    | none => some ((), s.copied)
  | .write, e, s => some ((), s.written e.ok)

/-- A permit is taken: the lane is made with its permits when it is not there. -/
def acquirePermit (lanes : String → Option Nat) (key : String) (permits : Nat) :
    Option (String → Option Nat) :=
  match (lanes key).getD (max permits 1) with
  | 0 => none
  | n + 1 => some (Function.update lanes key (some n))

/-- A permit is given back. -/
def releasePermit (lanes : String → Option Nat) (key : String) : String → Option Nat :=
  Function.update lanes key ((lanes key).map (· + 1))

/-- Permits, locks and handles. -/
def SyncOp.exec : (o : SyncOp) → Env → Sync → Option (o.Ans × Sync)
  | .acquireLane key permits, _, s =>
    (acquirePermit s.lanes key permits).map fun l => ((), { s with lanes := l })
  | .releaseLane key, _, s => some ((), { s with lanes := releasePermit s.lanes key })
  | .acquireDomain key permits, _, s =>
    (acquirePermit s.domains key permits).map fun l => ((), { s with domains := l })
  | .releaseDomain key, _, s => some ((), { s with domains := releasePermit s.domains key })
  | .newRun, _, s => some (s.runs.length, { s with runs := s.runs ++ [.running] })
  | .setRun h st, _, s => some ((), { s with runs := s.runs.set h st })
  | .awaitRun h, _, s =>
    match s.runs[h]? with
    | some .running | none => none
    | some st => some (st, s)
  | .lockFirmware, _, s =>
    if s.firmwareFree then some ((), { s with firmwareFree := false }) else none
  | .unlockFirmware, _, s => some ((), { s with firmwareFree := true })
  | .serve, _, s => some ((), { s with serving := true })

/-- The drive refuses a command with another password than its own. -/
def Hardware.refuses (s : Hardware) (dev : DriveId) : Cmd → Bool
  | .disablePassword p | .eraseUnit p _ => (s.password dev).any fun q => q.1 ≠ p
  | _ => false

/-- What a command that reaches the drive does. -/
def Hardware.took (s : Hardware) (dev : DriveId) (cmd : Cmd) (step : Option StepRef) : Hardware :=
  let s := if cmd.carriesOut then { s with sent := s.sent ++ step.toList } else s
  let s := if cmd.runsOn then { s with running := Function.update s.running dev (some cmd) } else s
  match cmd with
  | .setPassword p => { s with password := Function.update s.password dev (some (p, step)) }
  | .disablePassword _ => { s with password := Function.update s.password dev none }
  | _ => s

/-- A device node or a drive behind one. -/
def DeviceOp.exec : (o : DeviceOp) → Env → Hardware → Option (o.Ans × Hardware)
  | .openNode node _ _, e, s =>
    match s.behind node with
    | some dev => some (if e.ok then .ok dev else .error e.why, s)
    | none => some (.error e.why, s)
  | .send dev cmd step, e, s =>
    -- a command that succeeds has reached the drive, and a refused one does nothing
    if s.refuses dev cmd then
      if e.reply = .ok then none else some (e.reply, s)
    else if e.took then some (e.reply, s.took dev cmd step)
    else if e.reply = .ok then none
    else some (e.reply, s)
  | .await dev, e, s =>
    if e.ok then
      match s.running dev with
      | none => some (.ok (), s)
      | some _ => none
    else some (.error e.why, s)
  | .identify dev, e, s =>
    some (if e.ok then .ok { e.security with enabled := (s.password dev).isSome }
      else .error e.why, s)
  | .readCapacity _, e, s => some (if e.ok then .ok e.capacity else .error e.why, s)
  | .geometry _, e, s => some (e.geometry, s)
  | .namesByWwid id, e, s => some (e.names.filter fun n => s.behind (devPath n) = some id, s)

/-- A question to the world. -/
def QueryOp.answer : (o : QueryOp) → Env → o.Ans
  | .disk _, e => e.disk
  | .mounts, e => e.mounts
  | .systemLines, e => e.ids
  | .recheck _, e => e.recheck
  | .random, e => if e.ok then .ok e.random else .error e.why
  | .resetHold, e => if e.ok then none else some e.why
  | .bootId, e => e.why
  | .ready _, e => e.ok
  | .check _, e => if e.ok then .ok () else .error e.why

/-- The engine's answer. -/
def EngineOp.answer : (o : EngineOp) → Env → o.Ans
  | .listDrives, e => if e.ok then .ok e.listed else .error e.why
  | .driveSlabs _, e => if e.ok then .ok e.names else .error e.why
  | .occupiedSlabs _, e => if e.ok then .ok e.names else .error e.why
  | .setOvercommit .., e => if e.ok then .ok e.took else .error e.why
  | .setThermal .., e => if e.ok then .ok e.took else .error e.why
  | .drainStatus .., e => if e.ok then .ok e.drain else .error e.why
  | .startDrain .., e =>
    match e.drain with
    | some st => if e.ok then .ok st else .error e.why
    | none => .error e.why
  | .setLabels .., e => if e.ok then .ok () else .error e.why
  | .addDrive .., e => if e.ok then .ok () else .error e.why
  | .formatSlab .., e => if e.ok then .ok () else .error e.why
  | .reportHealth .., e => if e.ok then .ok () else .error e.why
  | .cancelDrain .., e => if e.ok then .ok () else .error e.why
  | .deleteDrive .., e => if e.ok then .ok () else .error e.why

/-- A part of a registration is set. A request that the engine accepts is about a drive that it has
open. -/
def Engine.set (s : Engine) (id : DriveId) (f : Registration → Registration) : Engine :=
  Function.update s id (some (f ((s id).getD {})))

/-- What a request that the engine accepts does to its registrations. -/
def EngineOp.taken : EngineOp → Engine → Engine
  | .setLabels _ labels id, s => s.set id fun r => { r with labels := labels }
  | .addDrive _ labels id, s => Function.update s id (some { labels := labels })
  | .setOvercommit _ oc id, s => s.set id fun r => { r with overcommit := some oc }
  | .setThermal _ word id, s => s.set id fun r => { r with thermal := some word }
  | .reportHealth _ word id, s => s.set id fun r => { r with health := some word }
  | .deleteDrive _ _ id, s => Function.update s id none
  | _, s => s

/-- The engine accepts a request that it answers with success. -/
def EngineOp.accepted : EngineOp → Env → Bool
  | .setOvercommit .., e | .setThermal .., e => e.ok && e.took
  | _, e => e.ok

/-- **What an operation does**: its answer and the state after, or nothing while it waits. -/
def Op.exec (newV5 : String → Uuid) : (o : Op) → Env → State → Option (o.Ans × State)
  | .job o, e, s => (o.exec e s.store).map fun out => (out.1, { s with store := out.2 })
  | .record o, e, s =>
    (o.exec newV5 e s.records).map fun out => (out.1, { s with records := out.2 })
  | .sync o, e, s => (o.exec e s.sync).map fun out => (out.1, { s with sync := out.2 })
  | .device o, e, s => (o.exec e s.hw).map fun out => (out.1, { s with hw := out.2 })
  | .query o, e, s => some (o.answer e, s)
  | .engine o, e, s =>
    some (o.answer e, { s with engine := if o.accepted e then o.taken s.engine else s.engine })
  | .spawn _, _, s => some ((), s)

/-- The task that an operation starts. -/
def Op.spawned : Op → Option Req
  | .spawn r => some r
  | _ => none

/-- A change outside the tasks. An erase that ends takes the password off. -/
def World.exec : World → State → Option State
  | .finish dev, s =>
    let password := match s.hw.running dev, s.hw.password dev with
      | some (.eraseUnit p _), some (q, _) =>
        if p = q then Function.update s.hw.password dev none else s.hw.password
      | _, _ => s.hw.password
    some { s with
      hw := { s.hw with running := Function.update s.hw.running dev none, password := password } }
  | .plug node dev, s =>
    some { s with hw := { s.hw with behind := Function.update s.hw.behind node dev } }
  | .sample id health thermal usage, s =>
    let records := s.records.update id
      (fun d => { d with health := health, thermal := thermal, usage := usage }) fun _ => rfl
    some { s with records := records }

/-- A restart of the daemon: what is in memory is read back from the files. -/
def State.boot (s : State) : State where
  store := { jobs := s.store.saved, saved := s.store.saved }
  records := s.records.loaded
  hw := { s.hw with sentBefore := s.hw.sent }
  engine := s.engine

end StormDrive
