import StormDrive.Daemon.Ops

set_option relaxedAutoImplicit false
set_option autoImplicit false

/-!
# What is done to a drive

The operations on a drive as programs: a format (`format.rs`), the erases (`erase.rs`), a test
(`drivetest.rs`), a firmware update (`firmware.rs`), and `run_step` of `worker.rs`, which does one
step of a job with them.

## Main definitions

* `formatBlocking`, `formatStart`, `formatTask`, `reattach`, `reattachTask` — a format.
* `scsiSanitize`, `nvmeSanitize`, `ataSecurityErase`, `planSecurityErase` — the erases.
* `testStart`, `testTask`, `firmwareStart`, `firmwareTask` — a test and a firmware update.
* `runStep` — one step of a job.

## Implementation notes

A loop that only polls is one operation that waits for the last poll, and a rescan of the kernel
is not modelled: what it does to the nodes is a change of the world. The phases that a run shows
are left out, those of a job's part are kept.
-/

namespace StormDrive

open Interleave

/-- What a task does, or a part of it. -/
abbrev Work (α : Type) := Prog Op Op.Ans α

/-- The settings that the tasks read. -/
structure Settings where
  /-- A data directory is configured. -/
  persists : Bool := true
  /-- The integration with stormblock is enabled. -/
  stormblock : Bool := true
  pushHealth : Bool := true
  drainOnFailing : Bool := true
  autoAdd : Bool := false
  autoFormatSlab : Bool := true
  maxPerHba : Nat := 8
  enrollPerDomain : Nat := 1
  /-- The slab tier for a kind of drive. -/
  tierFor : DriveKind → String := fun _ => "hot"

/-! ## The operations, typed -/

/-- The task of one operation. -/
abbrev perform (o : Op) : Work o.Ans :=
  Prog.op o

namespace Work

/-- A change to a drive's part of a job. -/
abbrev changeJob (job : JobId) (idx : Nat) (u : DjUpdate) : Work (Option DriveJob) :=
  perform (.job (.change job idx u))

/-- A change to a drive's record. -/
abbrev changeDrive (id : DriveId) (u : DriveUpdate) : Work (Option Drive) :=
  perform (.record (.change id u))

/-- A read of a drive's record. -/
abbrev readDrive (site : Site) (id : DriveId) : Work (Option Drive) :=
  perform (.record (.read site id))

/-- Open a device node. -/
abbrev openNode (node : String) (want : DriveId) (access : Access) :
    Work (Except String DriveId) :=
  perform (.device (.openNode node want access))

/-- Send a command. -/
abbrev send (dev : DriveId) (cmd : Cmd) (step : Option StepRef) : Work Reply :=
  perform (.device (.send dev cmd step))

/-- Wait until a drive is done. -/
abbrev await (dev : DriveId) : Work (Except String Unit) :=
  perform (.device (.await dev))

/-- READ CAPACITY(16). -/
abbrev readCapacity (dev : DriveId) : Work (Except String (Nat × Nat)) :=
  perform (.device (.readCapacity dev))

/-- The size and the logical block size of a disk, from sysfs. -/
abbrev readGeometry (name : String) : Work (Option (Nat × Nat)) :=
  perform (.device (.geometry name))

/-- A check of the world that can fail. -/
abbrev check (what : String) : Work (Except String Unit) :=
  perform (.query (.check what))

/-- The state of a run is set. -/
abbrev setRun (h : Nat) (st : RunState) : Work Unit :=
  perform (.sync (.setRun h st))

/-- Wait for the end of a run. -/
abbrev awaitRun (h : Nat) : Work RunState :=
  perform (.sync (.awaitRun h))

/-- A new run. -/
abbrev newRun : Work Nat :=
  perform (.sync .newRun)

/-- Start a task. -/
abbrev spawn (r : Req) : Work Unit :=
  perform (.spawn r)

/-- Only when the condition holds. -/
def when (c : Prop) [Decidable c] (p : Work Unit) : Work Unit :=
  if c then p else pure ()

end Work

open Work

/-- Go on when the first part succeeded. -/
def andThen {α β : Type} (p : Work (Except String α)) (f : α → Work (Except String β)) :
    Work (Except String β) := do
  match ← p with
  | .ok a => f a
  | .error why => pure (.error why)

variable (cfg : Settings)

/-- `AppState::persist`: the inventory to disk. -/
def persist : Work Unit :=
  if cfg.persists then do
    perform (.record .snapshot)
    perform (.record .write)
  else pure ()

/-- `Worker::save`: the jobs to disk. -/
def save : Work Unit :=
  if cfg.persists then do
    perform (.job .snapshot)
    perform (.job .write)
  else pure ()

/-! ## A format -/

/-- The block lengths that a format may be asked for. -/
def validTarget (blockSize : Nat) : Bool :=
  usableBlockSizes.contains blockSize

/-- How a format began. -/
inductive Attempt
  | started (immediate : Bool)
  /-- The drive answered that it will not do this format. -/
  | refused (why : String)
  | failed (why : String)

/-- The error of an illegal request is an answer about the format, any other is not. -/
def refusedOrFailed (r : Reply) (what : String) : Attempt :=
  match r with
  | .ok => .started false
  | .illegal why => .refused (what ++ why)
  | .error why => .failed (what ++ why)

/-- The block length, then FORMAT UNIT. -/
def begin_ (dev : DriveId) (target : Nat) (prot : Protection) (step : Option StepRef) :
    Work Attempt := do
  match ← send dev (.setLength target) step with
  | .illegal why => pure (.refused ("mode select rejected: " ++ why))
  | .error why => pure (.failed ("mode select rejected: " ++ why))
  | .ok =>
    match ← send dev (.formatUnit prot true) step with
    | .ok => pure (.started true)
    | .error why => pure (.failed ("format unit: " ++ why))
    | .illegal why =>
      if prot ≠ .none then
        pure (.refused ("format unit with " ++ prot.word ++ ": refused (" ++ why ++ ")"))
      else do
        -- IMMED refused: a blocking format
        let r ← send dev (.formatUnit .none false) step
        pure (refusedOrFailed r "format unit: ")

/-- The formats that the drive may take instead of a refused one. -/
def Supports.alternatives (s : Supports) (length : Nat) (prot : Protection) : List Choice :=
  (Supports.preference.filter fun c => c ≠ (length, prot) && (s.offers c.1 c.2).isSome).map
    fun c => ⟨c.1, c.2⟩

/-- The error of a refused format. -/
def refusedError (line : String) (alternatives : List Choice) : String :=
  let e := "the drive refused " ++ line ++ "; nothing was formatted"
  if alternatives = [] then e
  else
    e ++ ". It may take instead: " ++
      Text.join ", " (alternatives.map fun c => toString c.blockSize ++ " with " ++
        c.protection.word) ++ " (format again choosing one)"

/-- Exactly the format asked for. A refusal puts the old block length back. -/
def startExact (dev : DriveId) (current target : Nat) (prot : Protection)
    (alternatives : List Choice) (step : Option StepRef) : Work (Except String Bool) := do
  match ← begin_ dev target prot step with
  | .started immediate => pure (.ok immediate)
  | .failed why => pure (.error why)
  | .refused why => do
    let _ ← send dev (.setLength current) step
    pure (.error (refusedError (toString target ++ " with " ++ prot.word ++ ": " ++ why)
      alternatives))

/-- Block size and protection read back after a format are those asked for. -/
def verifyFormat (after : Nat × Nat) (target : Nat) (prot : Protection) (wrong : String) :
    FormatResult :=
  let asked := match prot with
    | .none => 0
    | .type1 => 1
  if after.1 ≠ target then .error wrong
  else if after.2 ≠ asked then
    .error ("drive reports " ++ (if after.2 = 0 then "no PI" else "PI type " ++ toString after.2) ++
      " after formatting with " ++ prot.word)
  else .ok after.1

/-- `format::run_blocking`. -/
def formatBlocking (d : Drive) (target : Nat) (prot : Protection) (step : Option StepRef) :
    Work FormatResult := do
  match ← (perform (.query .resetHold) : Work (Option String)) with
  | some why =>
    pure (.error ("not started: " ++ why ++ "; no new format starts until stormdrive restarts"))
  | none =>
    andThen (openNode (devPath d.name) d.id .format) fun dev =>
    andThen (readCapacity dev) fun cap => do
    let alternatives := (d.supports.map fun s => s.alternatives target prot).getD []
    match ← startExact dev cap.1 target prot alternatives step with
    | .error why => pure (.error why)
    | .ok _ =>
      -- a blocking FORMAT UNIT and the polling of one that runs on both end with the drive
      andThen (await dev) fun _ =>
      andThen (readCapacity dev) fun after =>
      pure (verifyFormat after target prot
        ("drive reports " ++ toString after.1 ++ "-byte blocks after formatting to " ++
          toString target))

/-- `format::start`. The caller has checked the drive. -/
def formatStart (d : Drive) (target : Nat) (prot : Protection) (step : Option StepRef) :
    Work Nat := do
  let h ← newRun
  let boot : String ← perform (.query .bootId)
  let _ ← changeDrive d.id (.formatStarted
    { fromBlockSize := d.blockSize, toBlockSize := target, protection := prot,
      state := "running", bootId := boot })
  persist cfg
  spawn (.formatTask h d target prot step)
  pure h

/-- `format::finish`: the handle, then the record. -/
def formatFinish (h : Nat) (id : DriveId) (result : FormatResult) : Work Unit := do
  setRun h (match result with
    | .ok _ => .passed
    | .error why => .failed why)
  let _ ← changeDrive id (.formatFinished result)
  persist cfg

/-- The task of a format. -/
def formatTask (h : Nat) (d : Drive) (target : Nat) (prot : Protection)
    (step : Option StepRef) : Work Unit := do
  let result ← formatBlocking d target prot step
  formatFinish cfg h d.id result

/-- `format::as_named_now`: the drive by the name that its WWID has now. -/
def asNamedNow (d : Drive) (otherBoot : Bool) : Work (Except String String) := do
  match d.wwid with
  | none => pure (.ok d.name)
  | some wwid =>
    match ← (perform (.device (.namesByWwid d.id)) : Work (List String)) with
    | name :: _ => pure (.ok name)
    | [] =>
      if otherBoot then
        pure (.error ("the node restarted and no disk has WWID " ++ wwid ++ " after 10 min"))
      else pure (.ok d.name)

/-- `format::reattach_blocking`. -/
def reattachBlocking (d : Drive) (otherBoot : Bool) : Work FormatResult :=
  let record := d.format.getD {}
  andThen (asNamedNow d otherBoot) fun name =>
  andThen (openNode (devPath name) d.id .read) fun dev =>
  andThen (await dev) fun _ =>
  andThen (readCapacity dev) fun after =>
  pure (verifyFormat after record.toBlockSize record.protection
    ("drive reports " ++ toString after.1 ++ "-byte blocks, not the " ++
      toString record.toBlockSize ++ " it was being formatted to: the format did not complete"))

/-- `format::reattach`: watch a format that went on over a restart. -/
def reattach (d : Drive) : Work Nat := do
  let record := d.format.getD {}
  let h ← newRun
  let boot : String ← perform (.query .bootId)
  spawn (.reattachTask h d (decide (record.bootId ≠ "" ∧ record.bootId ≠ boot)))
  pure h

/-- The task of a format that went on over a restart. -/
def reattachTask (h : Nat) (d : Drive) (otherBoot : Bool) : Work Unit := do
  let result ← reattachBlocking d otherBoot
  formatFinish cfg h d.id (result.mapError (· ++ " (after a restart)"))

/-- `wait_format`: follow a format's run to the end. -/
def waitFormat (h target : Nat) (prot : Protection) : Work (Except String String) := do
  match ← awaitRun h with
  | .failed why => pure (.error why)
  | .running | .passed | .cancelled =>
    pure (.ok ("FORMAT UNIT to " ++ toString target ++ "-byte sectors, " ++ prot.word))

/-- `erase::nvme_format`: the size that was set. -/
def nvmeFormat (d : Drive) (blockSize : Nat) (step : Option StepRef) :
    Work (Except String Nat) :=
  andThen (check "identify") fun _ =>
  andThen (openNode d.path d.id .format) fun dev => do
  match ← send dev (.formatNvm blockSize) step with
  | .ok => andThen (await dev) fun _ => pure (.ok blockSize)
  | .illegal why | .error why => pure (.error ("format nvm: " ++ why))

/-! ## The erases -/

/-- `erase::scsi_wait`: poll a drive until it is done. -/
def scsiWait (node : String) (id : DriveId) : Work (Except String Unit) :=
  andThen (openNode node id .read) fun dev => await dev

/-- `erase::scsi_sanitize_run`. -/
def scsiSanitize (d : Drive) (m : SanitizeMethod) (step : Option StepRef) :
    Work (Except String Unit) :=
  andThen (openNode (devPath d.name) d.id .sanitize) fun dev => do
  match ← send dev (.sanitize m) step with
  | .ok => scsiWait (devPath d.name) d.id
  | .illegal why =>
    pure (.error ("the drive (or its SAT layer) does not support SANITIZE: " ++ why))
  | .error why => pure (.error ("sanitize: " ++ why))

/-- `erase::nvme_sanitize`. -/
def nvmeSanitize (d : Drive) (m : SanitizeMethod) (step : Option StepRef) :
    Work (Except String Unit) :=
  andThen (check "identify") fun _ =>
  andThen (openNode d.path d.id .sanitize) fun dev => do
  match ← send dev (.sanitize m) step with
  | .ok => scsiWait d.path d.id
  | .illegal why | .error why => pure (.error ("sanitize: " ++ why))

/-- What a security erase will do. -/
structure AtaErasePlan where
  /-- SET PASSWORD first: not when our password from an interrupted run is already set. -/
  setPassword : Bool
  enhanced : Bool
  deriving DecidableEq

/-- `erase::plan_security_erase`: check IDENTIFY before touching the drive. `ours`: this job
already set a password on it. -/
def planSecurityErase (sec : AtaSecurity) (ours : Bool) (enhanced : Option Bool) :
    Except String AtaErasePlan :=
  if sec.supported = false then
    .error "the drive has no ATA Security feature set (no security erase; try sanitize)"
  else if sec.frozen then
    .error ("ATA security is frozen (a freeze lock, usually from the BIOS at boot): " ++
      "a hot-unplug and replug, or a suspend/resume of the host, unfreezes it. Not retried")
  else if sec.countExpired then
    .error "ATA security: the password attempt counter expired; power-cycle the drive first"
  else if sec.enabled && !ours then
    .error ("an ATA user password is already set on the drive, not by this job: " ++
      "refusing (unlock or disable it first)")
  else if enhanced = some true ∧ sec.enhancedSupported = false then
    .error "enhanced security erase is not supported by the drive"
  else .ok { setPassword := !sec.enabled, enhanced := enhanced.getD sec.enhancedSupported }

/-- What a failed erase leaves on the drive. -/
structure AtaEraseError where
  message : String
  /-- The password may still be set. -/
  passwordSet : Bool

/-- `erase::one_time_password`: printable, from 16 random bytes. -/
def oneTimePassword (random : List Nat) : String :=
  let alphabet := "ABCDEFGHJKLMNPQRSTUVWXYZabcdefghijkmnopqrstuvwxyz23456789".toList
  "sd-" ++ String.ofList (random.map fun b => alphabet.getD (b % alphabet.length) 'A')

/-- `erase::ata_security`: IDENTIFY DEVICE. -/
def ataSecurity (node : String) (id : DriveId) : Work (Except String AtaSecurity) :=
  andThen (openNode node id .read) fun dev =>
  (perform (.device (.identify dev)) : Work (Except String AtaSecurity))

/-- The reason a command did not go through. -/
def Reply.failure : Reply → Option String
  | .ok => none
  | .illegal why | .error why => some why

/-- Until ERASE UNIT is sent, a failure can take the password off again. -/
def undoPassword (dev : DriveId) (password : String) (why : String) (step : Option StepRef) :
    Work (Except AtaEraseError Unit) := do
  match (← send dev (.disablePassword password) step).failure with
  | none => pure (.error ⟨why ++ " (the password was taken off again)", false⟩)
  | some e => pure (.error ⟨why ++ "; disabling the password failed too: " ++ e, true⟩)

/-- ERASE UNIT, and IDENTIFY to see that security is off again. -/
def eraseUnit (d : Drive) (dev : DriveId) (password : String) (plan : AtaErasePlan)
    (step : Option StepRef) : Work (Except AtaEraseError Unit) := do
  match (← send dev (.eraseUnit password plan.enhanced) step).failure with
  | some why => pure (.error ⟨"security erase unit: " ++ why, true⟩)
  | none =>
    match ← await dev with
    | .error why => pure (.error ⟨"security erase unit: " ++ why, true⟩)
    | .ok _ =>
      match ← ataSecurity (devPath d.name) d.id with
      | .error why => pure (.error ⟨"after the erase: " ++ why, true⟩)
      | .ok after =>
        if after.enabled || after.locked then
          pure (.error ⟨"the erase returned but the drive still has security enabled", true⟩)
        else pure (.ok ())

/-- `erase::ata_security_erase`. The password is on record before this is called. -/
def ataSecurityErase (d : Drive) (password : String) (plan : AtaErasePlan)
    (step : Option StepRef) : Work (Except AtaEraseError Unit) := do
  match ← openNode (devPath d.name) d.id .erase with
  | .error why => pure (.error ⟨"open: " ++ why, !plan.setPassword⟩)
  | .ok dev =>
    let set ← (if plan.setPassword then send dev (.setPassword password) step
      else pure .ok : Work Reply)
    match set.failure with
    -- a failed SET PASSWORD may still have set it: keep the record
    | some why => pure (.error ⟨why, true⟩)
    | none =>
      match (← send dev .erasePrepare step).failure with
      | some why => undoPassword dev password why step
      | none => eraseUnit d dev password plan step

/-! ## A test -/

/-- The blocking part of a test: the state of its run. -/
def testBlocking (d : Drive) (kind : TestKind) (step : Option StepRef) : Work RunState := do
  match ← openNode d.path d.id (if kind.isDestructive then .test else .read) with
  | .error why => pure (.failed why)
  | .ok dev =>
    if kind.isDestructive then do
      match (← send dev .writePattern step).failure with
      | some why => pure (.failed why)
      | none => pure .passed
    else
      match ← check "read" with
      | .error why => pure (.failed why)
      | .ok _ => pure .passed

/-- `drivetest::start`. -/
def testStart (d : Drive) (kind : TestKind) (step : Option StepRef) : Work Nat := do
  let h ← newRun
  let _ ← changeDrive d.id (.testActivity .testing)
  spawn (.testTask h d kind step)
  pure h

/-- The task of a test. -/
def testTask (h : Nat) (d : Drive) (kind : TestKind) (step : Option StepRef) :
    Work Unit := do
  let st ← testBlocking d kind step
  setRun h st
  let _ ← changeDrive d.id (.testActivity .idle)
  persist cfg

/-- Wait, for a while, until the test's own task has put the drive back to idle. -/
def waitNotTesting (id : DriveId) : Nat → Work Unit
  | 0 => pure ()
  | n + 1 => do
    match ← readDrive .other id with
    | some d => if d.activity = .testing then waitNotTesting id n else pure ()
    | none => pure ()

/-! ## A firmware update -/

/-- Download and activate an image over NVMe: each piece opens the node again. -/
def nvmeDownload (d : Drive) : Nat → Work (Except String Unit)
  | 0 => pure (.ok ())
  | n + 1 =>
    andThen (openNode d.path d.id .firmware) fun dev => do
    match (← send dev .writeBuffer none).failure with
    | some why => pure (.error ("firmware image download: " ++ why))
    | none => nvmeDownload d n

/-- `firmware::run_blocking`. NVMe downloads an image in pieces and commits it. -/
def firmwareBlocking (d : Drive) (pieces : Nat) : Work (Except String Unit) :=
  if d.kind = .nvmeSsd then nvmeDownload d (pieces + 1)
  else
    andThen (openNode (devPath d.name) d.id .firmware) fun dev => do
    match (← send dev .writeBuffer none).failure with
    | some why => pure (.error ("write buffer: " ++ why))
    | none => pure (.ok ())

/-- `firmware::start`. -/
def firmwareStart (d : Drive) (image : String) (pieces : Nat) (force : Bool) : Work Unit := do
  let _ ← changeDrive d.id (.firmwareStarted { image := image, state := "running" })
  persist cfg
  spawn (.firmwareTask d pieces force)

/-- The task of a firmware update. A drive that serves data waits for the node-wide lock and for
its volumes. -/
def firmwareTask (d : Drive) (pieces : Nat) (force : Bool) : Work Unit := do
  when d.servesData (perform (.sync .lockFirmware))
  let gated := d.servesData && cfg.stormblock && !force
  let pre ← (if gated then check "redundancy" else pure (.ok ()) : Work (Except String Unit))
  let result ← (match pre with
    | .error why => pure (.error ("not started — " ++ why))
    | .ok _ => firmwareBlocking d pieces : Work (Except String Unit))
  when gated (do
    let _ ← check "redundancy"
    pure ())
  let error := match result with
    | .ok _ => none
    | .error why => some why
  let _ ← changeDrive d.id (.firmwareFinished error)
  persist cfg
  when d.servesData (perform (.sync .unlockFirmware))

/-! ## One step of a job -/

/-- `write_partition`: the partition's number. -/
def writePartition (d : Drive) (role : Role) (step : Option StepRef) :
    Work (Except String Unit) := do
  match ← readGeometry d.name with
  | none => pure (.error (d.name ++ ": no size in sysfs"))
  | some _ =>
    andThen (check "layout") fun _ =>
    andThen (openNode d.path d.id .partition) fun dev => do
    match (← send dev (.writeLayout role) step).failure with
    | some why => pure (.error why)
    | none => check "partition node"

/-- A method as its sanitize's note has it. -/
def SanitizeMethod.word : SanitizeMethod → String
  | block => "block"
  | crypto => "crypto"
  | overwrite => "overwrite"

/-- A test on the wire. -/
def TestKind.word : TestKind → String
  | smoke => "smoke"
  | readScan => "read_scan"
  | destructiveSample => "destructive_sample"

/-- `resume` of the worker for a requester: what is interrupted goes on, unless the job was
cancelled. -/
def Job.resumeFor (who : Requester) (j : Job) : Job :=
  if j.cancel then j else j.resumed (some who)

lemma Job.resumeFor_id (who : Requester) (j : Job) : (j.resumeFor who).id = j.id := by
  unfold Job.resumeFor
  split <;> rfl

/-- A step in words. -/
def Step.describe : Step → String
  | format blockSize .none => "format → " ++ toString blockSize
  | format blockSize prot => "format → " ++ toString blockSize ++ " + " ++ prot.word
  | sanitize m => "sanitize (" ++ m.word ++ ")"
  | test kind => "test (" ++ kind.word ++ ")"
  | securityErase (some true) => "security erase (enhanced)"
  | securityErase (some false) => "security erase (normal)"
  | securityErase none => "security erase"
  | partition role => "partition (" ++ role.word ++ ")"
  | enroll tier role =>
    "enroll (" ++ role.word ++ " slab" ++ ((tier.map fun t => ", tier " ++ t).getD "") ++ ")"

section RunStep

variable (ref : StepRef) (d : Drive)

/-- A format of an NVMe drive. -/
def stepFormatNvm (blockSize : Nat) : Work (Except String String) := do
  let _ ← changeDrive d.id (.activity .formatting)
  let r ← nvmeFormat d blockSize (some ref)
  let geometry ← (match r with
    | .ok _ => readGeometry d.name
    | .error _ => pure none : Work (Option (Nat × Nat)))
  let _ ← changeDrive d.id (.nvmeFormatted r.toOption geometry)
  persist cfg
  pure (r.map fun s => "Format NVM to " ++ toString s ++ "-byte blocks")

/-- A format of a SCSI drive is the existing format job; the worker waits on it. -/
def stepFormat (blockSize : Nat) (prot : Protection) : Work (Except String String) := do
  let h ← formatStart cfg d blockSize prot (some ref)
  waitFormat h blockSize prot

/-- A sanitize. -/
def stepSanitize (m : SanitizeMethod) : Work (Except String String) := do
  let _ ← changeDrive d.id (.activity .sanitizing)
  let r ← (if d.kind = .nvmeSsd then nvmeSanitize d m (some ref)
    else scsiSanitize d m (some ref) : Work (Except String Unit))
  let _ ← changeDrive d.id (.activity .idle)
  persist cfg
  pure (r.map fun _ => m.word ++ " sanitize complete")

/-- A test. -/
def stepTest (kind : TestKind) : Work (Except String String) := do
  let h ← testStart d kind (some ref)
  let st ← awaitRun h
  waitNotTesting d.id 30
  let what := (Step.test kind).describe
  match st with
  | .running | .passed => pure (.ok (what ++ " test passed"))
  | .cancelled => pure (.error (what ++ " cancelled"))
  | .failed why => pure (.error (what ++ " FAILED, " ++ why ++ " — the later steps do not run"))

/-- The one-time password of a security erase: ours from an interrupted run, or a new one, which
goes on record before the drive ever sees it. -/
def erasePassword (ours : Option String) : Work (Except String String) := do
  match ours with
  | some p => pure (.ok p)
  | none =>
    andThen (perform (.query .random) : Work (Except String (List Nat))) fun random => do
    let p := oneTimePassword random
    let _ ← changeJob ref.job ref.idx (.password (some p))
    save cfg
    pure (.ok p)

/-- The erase itself, between the marks on the drive's record. -/
def eraseWith (password : String) (plan : AtaErasePlan) : Work (Except String String) := do
  let _ ← changeDrive d.id (.activity .sanitizing)
  let r ← ataSecurityErase d password plan (some ref)
  let keep := match r with
    | .error e => e.passwordSet
    | .ok _ => false
  when (keep = false) (do
    let _ ← changeJob ref.job ref.idx (.password none)
    pure ())
  save cfg
  let _ ← changeDrive d.id (.activity .idle)
  persist cfg
  match r with
  | .ok _ =>
    pure (.ok ("ATA security erase" ++ (if plan.enhanced then " (enhanced)" else "") ++
      " complete; password removed"))
  | .error e =>
    if keep then
      pure (.error (e.message ++
        " — the drive may still be locked with the one-time password " ++ password))
    else pure (.error e.message)

/-- An ATA security erase. -/
def stepSecurityErase (enhanced : Option Bool) : Work (Except String String) := do
  let ours : Option String ← perform (.job (.password ref.job ref.idx))
  andThen (ataSecurity (devPath d.name) d.id) fun sec =>
  match planSecurityErase sec ours.isSome enhanced with
  | .error why => pure (.error why)
  | .ok plan =>
    andThen (erasePassword cfg ref ours) fun password => eraseWith cfg ref d password plan

/-- A partition. -/
def stepPartition (role : Role) : Work (Except String String) := do
  let _ ← changeDrive d.id (.activity .formatting)
  let _ ← changeJob ref.job ref.idx (.progress none "partition")
  let r ← writePartition d role (some ref)
  let _ ← changeDrive d.id (.activity .idle)
  pure (r.map fun _ => "GPT, partition 1 (" ++ role.word ++ ")")

/-- What an enrolment opens in stormblock: the partition that the job made, or the whole drive. -/
def enrollTarget (d : Drive) (steps : List Step) : String :=
  if steps.any Step.isPartition then "/dev/" ++ partitionName d.name 1 else d.path

/-- The engine opens the target, or labels it when it has it open. -/
def openInEngine (target : String) (labels : List (String × String)) (id : DriveId)
    (listed : List EngineDrive) : Work (Except String Unit) :=
  if listed.any fun sd => sd.path = some target then
    (perform (.engine (.setLabels target labels id)) : Work (Except String Unit))
  else (perform (.engine (.addDrive target labels id)) : Work (Except String Unit))

/-- The engine formats a slab on the target unless it has one there. A listing that fails counts
as none. The answer says whether it did. -/
def slabInEngine (target tier : String) (role : Option Role) : Work (Except String Bool) := do
  let slabs : Except String (List String) ← perform (.engine (.driveSlabs target))
  if slabs.toOption.getD [] = [] then
    andThen (perform (.engine (.formatSlab target tier role)) : Work (Except String Unit)) fun _ =>
      pure (.ok true)
  else pure (.ok false)

/-- An enrolment. -/
def stepEnroll (tier : Option String) (role : Role) (steps : List Step) :
    Work (Except String String) :=
  let target := enrollTarget d steps
  let tier := tier.getD (cfg.tierFor d.kind)
  let labels := d.stormblockLabels
  andThen (perform (.engine .listDrives) : Work (Except String (List EngineDrive))) fun listed =>
  andThen (openInEngine target labels d.id listed) fun _ =>
  andThen (slabInEngine target tier (some role)) fun _ => do
  let _ ← changeDrive d.id
    (.enrolled (if steps.any Step.isPartition then some 1 else none) labels)
  persist cfg
  pure (.ok (target ++ " in stormblock, " ++ role.word ++ " slab, tier " ++ tier))

/-- `run_step`: one step of a job on a drive. `steps` are all the steps of the job. -/
def runStep (step : Step) (steps : List Step) : Work (Except String String) :=
  match step with
  | .format blockSize prot =>
    if d.kind = .nvmeSsd then stepFormatNvm cfg ref d blockSize
    else stepFormat cfg ref d blockSize prot
  | .sanitize m => stepSanitize cfg ref d m
  | .test kind => stepTest ref d kind
  | .securityErase enhanced => stepSecurityErase cfg ref d enhanced
  | .partition role => stepPartition ref d role
  | .enroll tier role => stepEnroll cfg d tier role steps

end RunStep

end StormDrive
