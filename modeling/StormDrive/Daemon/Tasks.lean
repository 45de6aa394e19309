import StormDrive.Daemon.Fleet
import StormDrive.Interleave.Machine

set_option relaxedAutoImplicit false
set_option autoImplicit false

/-!
# The tasks of the daemon

The tasks that serve the requests, as programs over the operations: the worker's jobs, the REST
formats, tests and firmware updates, the discovery passes, the drains, and the recovery after a
restart. Together they are the machine whose runs the results are about.

## Main definitions

* `submit`, `cancel`, `resume`, `runDrive`, `driveLoop` — the worker's jobs.
* `startFormats`, `startTest`, `startFirmware` — the REST operations.
* `recover`, `recoverOrphans`, `watch` — after a restart.
* `daemon` — the machine.
-/

namespace StormDrive

open Interleave Work

variable (cfg : Settings)

/-! ## The worker -/

/-- The HBA a drive's low-level steps are limited by. -/
def hbaKey (d : Drive) : String :=
  let own := match d.location.controller with
    | some c => "hba:" ++ ((c.pcieAddr <|> c.scsiHost).getD "")
    | none => "drive:" ++ d.id.uuid.text
  if d.kind = .nvmeSsd then
    match nvmeController d.name with
    | some ctrl => "nvme:" ++ ctrl
    | none => own
  else own

/-- The failure domain that `enroll` is sequenced by. -/
def domainKey (d : Drive) : String :=
  match d.location.shelf.bind Shelf.key with
  | some k => "shelf:" ++ k
  | none => hbaKey d

/-- `worker::context`: what the guard needs beyond the record. -/
def context (d : Drive) : Work Context := do
  let disk : FreshDisk ← perform (.query (.disk d.path))
  let siblings : Nat ← perform (.record (.siblings d))
  let mounts : String ← perform (.query .mounts)
  pure { holds := holdsDrive d disk, mounted := mountedIn mounts d.name,
         nvmeSiblings := siblings, stormblock := cfg.stormblock }

/-- `worker::fail`. -/
def fail (job : JobId) (idx : Nat) (why : String) : Work Unit := do
  let _ ← changeJob job idx (.fail why)
  save cfg

/-- A step waits in the lane of its HBA, an enrolment in its failure domain. The permit is given
back when the body is done. -/
def withPermit {α : Type} (d : Drive) (step : Step) (body : Work α) : Work α :=
  if step.lowLevel || step.isPartition then do
    perform (.sync (.acquireLane (hbaKey d) cfg.maxPerHba))
    let a ← body
    perform (.sync (.releaseLane (hbaKey d)))
    pure a
  else do
    perform (.sync (.acquireDomain (domainKey d) cfg.enrollPerDomain))
    let a ← body
    perform (.sync (.releaseDomain (domainKey d)))
    pure a

/-- The text a step waits with. -/
def waitingPhase (d : Drive) (step : Step) : String :=
  "waiting (" ++ (if step.lowLevel || step.isPartition then hbaKey d else domainKey d) ++ ")"

/-- Everything is checked again right before a step, and then it runs. Nothing when it was not
run. -/
def approveAndRun (job : JobId) (idx k : Nat) (steps : List Step) (id : DriveId)
    (destroyNamed inUseNamed : Bool) (step : Step) : Work (Option (Except String String)) := do
  match ← readDrive .approval id with
  | none =>
    fail cfg job idx "the drive is no longer in the inventory"
    pure none
  | some d =>
    let cx ← context cfg d
    match guardRefusal d (steps.drop k) destroyNamed { cx with inUseNamed := inUseNamed } with
    | some why =>
      fail cfg job idx ("before " ++ step.name ++ ": " ++ why)
      pure none
    | none =>
      match ← (perform (.job (.requester job)) : Work (Option Requester)) with
      | none =>
        fail cfg job idx
          ("before " ++ step.name ++ ": the job names no requester to re-check")
        pure none
      | some who =>
        match ← (perform (.query (.recheck who)) : Work Recheck) with
        | .denied why =>
          fail cfg job idx ("before " ++ step.name ++ ": refused — " ++ why)
          pure none
        | .unavailable why => do
          let _ ← changeJob job idx (.interrupt
            ("before " ++ step.name ++ ": could not re-check " ++ who.who ++ " (" ++ why ++
              "); resume when the apiserver answers"))
          save cfg
          pure none
        | .allowed => do
          let _ ← changeJob job idx (.start step.name)
          save cfg
          let r ← runStep cfg ⟨job, idx, k⟩ d step steps
          pure (some r)

/-- One turn of the loop for a step that is due. -/
def driveStep (job : JobId) (idx k : Nat) (steps : List Step) (id : DriveId)
    (destroyNamed inUseNamed : Bool) (step : Step) : Work (Option Req) := do
  match ← readDrive .other id with
  | none =>
    fail cfg job idx "the drive is no longer in the inventory"
    pure none
  | some d =>
    let _ ← changeJob job idx (.progress none (waitingPhase d step))
    match ← withPermit cfg d step
        (approveAndRun cfg job idx k steps id destroyNamed inUseNamed step) with
    | none => pure none
    | some (.ok note) =>
      let _ ← changeJob job idx (.stepDone (step.describe ++ ": " ++ note))
      save cfg
      pure (some (.driveLoop job idx steps id destroyNamed inUseNamed))
    | some (.error why) =>
      fail cfg job idx (step.name ++ ": " ++ why)
      pure none

/-- What `driveStep` does when the step has come back. -/
def finishStep (job : JobId) (idx : Nat) (steps : List Step) (id : DriveId)
    (destroyNamed inUseNamed : Bool) (step : Step) :
    Option (Except String String) → Work (Option Req)
  | none => pure none
  | some (.ok note) => do
    let _ ← changeJob job idx (.stepDone (step.describe ++ ": " ++ note))
    save cfg
    pure (some (.driveLoop job idx steps id destroyNamed inUseNamed))
  | some (.error why) => do
    fail cfg job idx (step.name ++ ": " ++ why)
    pure none

/-- The loop of `run_drive`, one turn. -/
def driveLoop (job : JobId) (idx : Nat) (steps : List Step) (id : DriveId)
    (destroyNamed inUseNamed : Bool) : Work (Option Req) := do
  match ← (perform (.job (.poll job idx)) : Work (Option (Nat × Bool × DjState))) with
  | none => pure none
  | some (k, cancelled, state) =>
    if state ≠ .queued ∧ state ≠ .running then pure none
    else
      match steps[k]? with
      | none =>
        let _ ← changeJob job idx .finish
        save cfg
        pure none
      | some step =>
        if cancelled then do
          let _ ← changeJob job idx .cancel
          save cfg
          pure none
        else driveStep cfg job idx k steps id destroyNamed inUseNamed step

/-- `run_drive`: take one drive through the job's steps, from where it stands. -/
def runDrive (job : JobId) (idx : Nat) : Work (Option Req) := do
  match ← (perform (.job (.head job idx)) :
      Work (Option (List Step × DriveId × Bool × Bool))) with
  | none => pure none
  | some (steps, id, destroyNamed, inUseNamed) =>
    pure (some (.driveLoop job idx steps id destroyNamed inUseNamed))

/-- Start a task for every index. -/
def spawnDrives (job : JobId) : List Nat → Work Unit
  | [] => pure ()
  | idx :: rest => do
    spawn (.runDrive job idx)
    spawnDrives job rest

/-- A drive's part of a new job: the guard's verdict on it. -/
def newDriveJob (req : Request) (d : Drive) (cx : Context) : DriveJob :=
  let named := namedForDestroy d req.destroy
  let inUseNamed := namedForDestroy d req.iKnowInUse
  let refusal := guardRefusal d req.steps named { cx with inUseNamed := inUseNamed }
  { drive := d.id, name := d.name, serial := d.serial, wwn := d.wwid, kind := d.kind,
    state := if refusal.isNone then .queued else .refused,
    phase := if refusal.isNone then "queued" else "refused", error := refusal,
    destroyNamed := named, inUseNamed := inUseNamed }

/-- The parts of a new job. -/
def newDriveJobs (req : Request) : List Drive → Work (List DriveJob)
  | [] => pure []
  | d :: rest => do
    let cx ← context cfg d
    let djs ← newDriveJobs req rest
    pure (newDriveJob req d cx :: djs)

/-- The parts of a new job that can run. -/
def runnable (djs : List DriveJob) : List Nat :=
  djs.zipIdx.filterMap fun e => if e.1.state = .queued then some e.2 else none

/-- `submit`: check, then record the job and start its drives. -/
def submit (req : Request) (selected : List DriveId) (who : Option Requester) : Work Unit := do
  match validateSteps req.steps with
  | .error _ => pure ()
  | .ok _ =>
    let drives : List Drive ← perform (.record (.select selected))
    let djs ← newDriveJobs cfg req drives
    if req.dryRun ∨ runnable djs = [] then pure ()
    else do
      let id : JobId ← perform (.job .newId)
      let job : Job :=
        { id := id, steps := req.steps, destroy := req.destroy, iKnowInUse := req.iKnowInUse,
          drives := djs, requester := who }
      perform (.job (.insert job))
      save cfg
      spawnDrives id (runnable djs)

/-- `cancel`: what is not running does not start. -/
def cancel (id : JobId) : Work Unit := do
  let found : Bool ← perform (.job (.cancel id))
  when found (save cfg)

/-- `resume`: interrupted parts go on from where they stand. -/
def resume (id : JobId) (who : Option Requester) : Work Unit := do
  match ← (perform (.job (.resume id who)) : Work (Except String (List Nat))) with
  | .error _ => pure ()
  | .ok idxs =>
    if idxs = [] then pure ()
    else do
      save cfg
      spawnDrives id idxs

/-! ## REST operations -/

/-- Why an inspected drive is not formatted. -/
def formatRefusal (blockSize : Nat) (prot : Protection)
    (e : DriveId × Option (Drive × Fresh)) : Option String :=
  match e.2 with
  | none => some "unknown drive"
  | some (d, fresh) => startFormatsRefusal d blockSize prot fresh

/-- Start a format on each drive. -/
def formatAll (blockSize : Nat) (prot : Protection) : List Drive → Work Unit
  | [] => pure ()
  | d :: rest => do
    let _ ← formatStart cfg d blockSize prot none
    formatAll blockSize prot rest

/-- `start_formats`: validate every drive first, start none if any is blocked. The routes name
each drive once. -/
def startFormats (ids : List DriveId) (blockSize : Nat) (prot : Protection) : Work Unit := do
  if validTarget blockSize = false ∨ ids = [] then pure ()
  else do
    let drives : List (DriveId × Option (Drive × Fresh)) ←
      perform (.record (.inspect ids.dedup))
    if drives.any fun e => (formatRefusal blockSize prot e).isSome then pure ()
    else
      formatAll cfg blockSize prot (drives.filterMap fun e => e.2.map Prod.fst)

/-- `start_test`. -/
def startTest (id : DriveId) (kind : TestKind) : Work Unit := do
  match ← readDrive .approval id with
  | none => pure ()
  | some d =>
    let mounts : String ← perform (.query .mounts)
    let disk : FreshDisk ← perform (.query (.disk d.path))
    match startTestRefusal d kind ⟨disk, mounts⟩ with
    | some _ => pure ()
    | none =>
      let _ ← testStart d kind none
      pure ()

/-- Start an update on each drive. -/
def firmwareAll (image : String) (pieces : Nat) (force : Bool) : List Drive → Work Unit
  | [] => pure ()
  | d :: rest => do
    firmwareStart cfg d image pieces force
    firmwareAll image pieces force rest

/-- `start_firmware`: validate every drive first, start none if any is blocked. -/
def startFirmware (ids : List DriveId) (image : String) (pieces : Nat) (force : Bool) :
    Work Unit := do
  let drives : List (DriveId × Option (Drive × Fresh)) ←
    perform (.record (.inspect ids.dedup))
  let blocked (e : DriveId × Option (Drive × Fresh)) : Bool :=
    match e.2 with
    | none => true
    | some (d, _) => (d.firmwareBlocker force).isSome
  if ids = [] ∨ drives.any blocked = true then pure ()
  else
    firmwareAll cfg image pieces force (drives.filterMap fun e => e.2.map Prod.fst)

/-! ## Discovery -/

/-- A discovery pass, and the save that ends it. -/
def pass : Work Unit := do
  perform (.record .merge)
  systemSync
  persist cfg

/-! ## After a restart -/

/-- Re-attach each format of the list. -/
def reattachAll : List Drive → Work Unit
  | [] => pure ()
  | d :: rest => do
    let _ ← reattach d
    reattachAll rest

/-- `recover_orphans`: drives left busy by an operation that was not a worker job. -/
def recoverOrphans : Work Unit := do
  let owned : List DriveId ← perform (.job .owned)
  let found : List Drive × Bool ← perform (.record (.recoverOrphans owned))
  if found.1 = [] ∧ found.2 = false then pure ()
  else do
    reattachAll found.1
    persist cfg

/-- The drives of interrupted steps. -/
def interruptAll : List DriveId → Work Unit
  | [] => pure ()
  | id :: rest => do
    let _ ← changeDrive id .interrupted
    interruptAll rest

/-- Watch each step of the list. -/
def watchAll : List (JobId × Nat × DriveId × Step) → Work Unit
  | [] => pure ()
  | (job, idx, id, step) :: rest => do
    spawn (.watch job idx id step)
    watchAll rest

/-- `recover`: watch what the drives are still doing, interrupt the rest. Then the API and the
monitor start. -/
def recover : Work Unit := do
  recoverOrphans cfg
  let found : List (JobId × Nat × DriveId × Step) × List DriveId ← perform (.job .recover)
  interruptAll found.2
  save cfg
  watchAll found.1
  perform (.sync .serve)

/-- The wait of `watch`: by the format's record when it has one running, else the bare poll. -/
def watchWait (d : Drive) (step : Step) : Work (Except String Unit) := do
  let isSanitize := match step with
    | .sanitize _ => true
    | _ => false
  if !isSanitize && d.kind ≠ .nvmeSsd && d.formatRunning then do
    let record := d.format.getD {}
    let h ← reattach d
    let r ← waitFormat h record.toBlockSize record.protection
    pure (r.map fun _ => ())
  else if d.kind = .nvmeSsd then scsiWait d.path d.id
  else scsiWait (devPath d.name) d.id

/-- The end of `watch`: the step is done, or failed. -/
def watchEnd (job : JobId) (idx : Nat) (step : Step) (r : Except String Unit) : Work Unit := do
  match r with
  | .ok _ =>
    let dj ← changeJob job idx (.watched (step.describe ++
      ": finished while stormdrive was restarting (watched to the end)"))
    let total : Nat ← perform (.job (.stepCount job))
    when (total ≤ (dj.map DriveJob.step).getD 0) (do
      let _ ← changeJob job idx .watchedLast
      pure ())
    save cfg
  | .error why => fail cfg job idx (step.name ++ " (after restart): " ++ why)

/-- `watch`: follow a low-level step that the drive kept running across the restart. -/
def watch (job : JobId) (idx : Nat) (id : DriveId) (step : Step) : Work Unit := do
  match ← readDrive .other id with
  | none => pure ()
  | some d =>
    let busy : Activity := match step with
      | .sanitize _ => .sanitizing
      | _ => .formatting
    let _ ← changeDrive id (.activity busy)
    let r ← watchWait d step
    let _ ← changeDrive id (.activity .idle)
    watchEnd cfg job idx step r
    persist cfg

/-! ## The machine -/

/-- A task that does not go on with another request. -/
def once (p : Work Unit) : Work (Option Req) := do
  p
  pure none

/-- The program of a request. -/
def Req.entry : Req → Work (Option Req)
  | .submit req selected who => once (StormDrive.submit cfg req selected who)
  | .cancel id => once (StormDrive.cancel cfg id)
  | .resume id who => once (StormDrive.resume cfg id who)
  | .startFormats ids blockSize prot => once (StormDrive.startFormats cfg ids blockSize prot)
  | .startTest id kind => once (StormDrive.startTest id kind)
  | .startFirmware ids image pieces force =>
    once (StormDrive.startFirmware cfg ids image pieces force)
  | .pass => once (StormDrive.pass cfg)
  | .collect => once (StormDrive.collect cfg)
  | .fleetTick => once (StormDrive.fleetTick cfg)
  | .fleetJoin id formatSlab tier => once (StormDrive.fleetJoin cfg id formatSlab tier)
  | .fleetLeave id drain force => once (StormDrive.fleetLeave cfg id drain force)
  | .startDrain id leave => once (StormDrive.drainRoute cfg id leave)
  | .cancelDrain id => once (ignore (StormDrive.cancelDrain cfg id))
  | .setDesignation id des => once (StormDrive.setDesignation cfg id des)
  | .setOvercommit id oc => once (StormDrive.setOvercommit cfg id oc)
  | .patchDrive id patch => once (ignore (StormDrive.patchDrive cfg id patch))
  | .forget id => once (StormDrive.forget cfg id)
  | .recover => once (StormDrive.recover cfg)
  | .runDrive job idx => StormDrive.runDrive job idx
  | .driveLoop job idx steps id destroyNamed inUseNamed =>
    StormDrive.driveLoop cfg job idx steps id destroyNamed inUseNamed
  | .formatTask h d target prot step => once (StormDrive.formatTask cfg h d target prot step)
  | .reattachTask h d otherBoot => once (StormDrive.reattachTask cfg h d otherBoot)
  | .testTask h d kind step => once (StormDrive.testTask cfg h d kind step)
  | .firmwareTask d pieces force => once (StormDrive.firmwareTask cfg d pieces force)
  | .watch job idx id step => once (StormDrive.watch cfg job idx id step)

/-- The requests that come from outside: the others are tasks of the daemon's own. -/
def Req.external : Req → Bool
  | .submit .. | .cancel _ | .resume .. | .startFormats .. | .startTest .. | .startFirmware ..
  | .pass | .collect | .fleetTick | .fleetJoin .. | .fleetLeave .. | .startDrain .. | .cancelDrain _
  | .setDesignation .. | .setOvercommit .. | .patchDrive .. | .forget _ => true
  | _ => false

/-- **The daemon**: its tasks over its state. The name-based UUID of the `uuid` crate is a
parameter. -/
def daemon (newV5 : String → Uuid) : Machine Op Op.Ans State Env World Req where
  entry := Req.entry cfg
  exec := Op.exec newV5
  spawned := Op.spawned
  admits s r := s.sync.serving && r.external
  world := World.exec
  boot := State.boot
  starts := [.recover]

/-! ## A fixture -/

/-- The part of a job for the drive of the fixture. -/
def DriveJob.testFixture (state : DjState) : DriveJob where
  drive := ⟨⟨7⟩⟩
  name := "sdb"
  serial := "sdb"
  wwn := none
  kind := .sataSsd
  state := state
  phase := ""
  destroyNamed := true
  inUseNamed := false

/-- A host with one free drive, sdb, and a job on record that one of its users asked for. -/
def State.testFixture (steps : List Step) (part : DriveJob) : State where
  store :=
    { jobs := .empty
      saved := Jobs.empty.insert
        { id := "j1", steps := steps, drives := [part], requester := some ⟨"ops"⟩ } }
  records :=
    { inv := fun _ => none
      saved := fun id => if id = ⟨⟨7⟩⟩ then some (Drive.testFixture ⟨⟨7⟩⟩ "sdb") else none
      seen := fun node => if node = "/dev/sdb" then some ⟨⟨7⟩⟩ else none
      ids := [⟨⟨7⟩⟩]
      sound := by simp [Sound]
      soundSaved := by
        intro id d hd
        dsimp only at hd
        split at hd
        · next hid =>
          rw [← Option.some.inj hd, hid]
          exact ⟨List.mem_singleton_self _, rfl⟩
        · cases hd
      soundWriting := by simp }
  hw := { behind := fun node => if node = "/dev/sdb" then some ⟨⟨7⟩⟩ else none }

/-- A host with one drive. -/
def State.sole (d : Drive) : State where
  store := { jobs := .empty, saved := .empty }
  records :=
    { inv := fun id => if id = d.id then some d else none
      saved := fun _ => none
      seen := fun _ => none
      ids := [d.id]
      sound := by
        intro id d' hd'
        dsimp only at hd'
        split at hd'
        · next hid =>
          rw [← Option.some.inj hd', hid]
          exact ⟨List.mem_singleton_self _, rfl⟩
        · cases hd'
      soundSaved := by simp [Sound]
      soundWriting := by simp }
  hw := { behind := fun _ => none }

end StormDrive
