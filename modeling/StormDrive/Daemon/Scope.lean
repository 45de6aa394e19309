import StormDrive.Daemon.Tasks

set_option relaxedAutoImplicit false
set_option autoImplicit false

/-!
# What a task can touch

Which sections under the lock of the jobs a task can take. Most tasks take none, and one step of a
job only touches its own drive's part: the phase it shows and the kept password.

## Main definitions

* `Op.jobless` — the operation has nothing to do with jobs.
* `Op.withinStep` — the operation has nothing to do with jobs but with the part of one step.
* `Op.ofFleet` — the operation is one of the fleet's tasks.
* `Op.isAbout` — the operation is one of those that they perform for one drive.

## Main results

* `ofDrive_formatTask` and its siblings — the tasks that take no section of the jobs.
* `within_runStep` — one step of a job keeps to its own part.
* `jobless_entry` — the requests that are served beside the jobs.
-/

namespace StormDrive

open Interleave Interleave.Prog Work

/-- The task has nothing to do with jobs: a format, a test or a firmware update. -/
def Req.jobless : Req → Bool
  | .formatTask .. | .reattachTask .. | .testTask .. | .firmwareTask .. => true
  | _ => false

/-- The operation has nothing to do with jobs: it is no section under their lock, it starts no task
that takes one, and it does not end the recovery. -/
def Op.jobless : Op → Bool
  | .job _ | .sync .serve => false
  | .spawn r => r.jobless
  | _ => true

/-- The change is one that work on a drive makes to its record: what the drive does right now, and how
it ended. -/
def DriveUpdate.ofDrive : DriveUpdate → Bool
  | .activity _ | .testActivity _ | .nvmeFormatted .. | .formatStarted _ | .formatFinished _
  | .firmwareStarted _ | .firmwareFinished _ | .interrupted => true
  | _ => false

/-- The operation has nothing to do with the fleet: it is no request to the engine, and no section
that only the fleet's tasks take. -/
def Op.offFleet : Op → Bool
  | .engine _ => false
  | .record (.change _ u) => u.ofDrive
  | .record (.designate ..) | .record (.reconcile _) | .record (.dropPending _) | .record (.due _)
  | .record .runningDrains | .record .dueDrains => false
  | _ => true

/-- The operation is one of those that work on a drive takes: it has nothing to do with jobs nor
with the fleet. -/
def Op.ofDrive (o : Op) : Bool :=
  o.jobless && o.offFleet

/-- The change is one that a step makes to its part while it runs. -/
def DjUpdate.withinStep : DjUpdate → Bool
  | .progress .. | .password _ => true
  | _ => false

/-- The operation has to do with jobs only as a step of one has: it reads and changes its own part,
and saves. -/
def Op.withinStep (ref : StepRef) : Op → Bool
  | .job (.password id idx) => id = ref.job ∧ idx = ref.idx
  | .job (.change id idx u) => id = ref.job ∧ idx = ref.idx ∧ u.withinStep = true
  | .job .snapshot => true
  | .job .write => true
  | o => o.jobless

/-- The operation is one of those that the fleet's tasks perform: a section under the lock of the
inventory, a question to the world or a request to the engine. -/
def Op.ofFleet : Op → Bool
  | .record _ | .query _ | .engine _ => true
  | _ => false

/-- The request to the engine is about this drive, or about none. -/
def EngineOp.isAbout (id : DriveId) : EngineOp → Prop
  | .setLabels _ _ id' | .addDrive _ _ id' | .setOvercommit _ _ id' | .setThermal _ _ id'
  | .reportHealth _ _ id' | .drainStatus _ id' | .startDrain _ id' | .cancelDrain _ id'
  | .deleteDrive _ _ id' => id' = id
  | .listDrives | .driveSlabs _ | .occupiedSlabs _ | .formatSlab .. => True

/-- The operation is one of those that the fleet's tasks perform for one drive. -/
def Op.isAbout (id : DriveId) : Op → Prop
  | .record (.read _ id') | .record (.change id' _) | .record (.dropPending id') => id' = id
  | .record .snapshot | .record .write => True
  | .query _ => True
  | .engine o => o.isAbout id
  | _ => False

/-- The change puts the drive into the fleet. -/
def DriveUpdate.enters : DriveUpdate → Bool
  | .joined _ | .enrolled .. => true
  | _ => false

/-- The request is one of those that a join or an enrolment makes for a new drive. -/
def EngineOp.enters : EngineOp → Bool
  | .listDrives | .addDrive .. | .driveSlabs _ | .formatSlab .. => true
  | _ => false

/-- The engine fails a request of a join or an enrolment, which goes no further then. -/
def EngineOp.failed : (o : EngineOp) → o.Ans → Bool
  | .listDrives, .error _ | .setLabels .., .error _ | .addDrive .., .error _
  | .formatSlab .., .error _ => true
  | _, _ => false

/-- The operation is one of those that the fleet's tasks perform for one of its drives. -/
def Op.keeps (id : DriveId) : Op → Prop
  | .record (.read .other id') | .record (.dropPending id') => id' = id
  | .record (.change id' u) => id' = id ∧ u.enters = false
  | .record .snapshot | .record .write => True
  | .engine o => o.isAbout id ∧ o.enters = false
  | _ => False

/-- The operation is one of those that the fleet's tasks perform for some of its drives. -/
def Op.ofMember (o : Op) : Prop :=
  ∃ id, o.keeps id

/-- The operation is one of those that start, keep or cancel the drain of one drive. -/
def Op.drains (id : DriveId) : Op → Prop
  | .record (.read .other id') | .record (.change id' (.drainStarted _))
  | .record (.change id' (.drainRefused ..)) | .record (.change id' .drainCancelled)
  | .engine (.drainStatus _ id') | .engine (.startDrain _ id') | .engine (.cancelDrain _ id') =>
    id' = id
  | .record .snapshot | .record .write => True
  | _ => False

/-- The program has nothing to do with jobs. -/
abbrev Jobless {α : Type} (p : Work α) : Prop :=
  Only (fun o => o.jobless = true) p

/-- The program has nothing to do with the fleet. -/
abbrev OffFleet {α : Type} (p : Work α) : Prop :=
  Only (fun o => o.offFleet = true) p

/-- The program works on a drive. -/
abbrev OfDrive {α : Type} (p : Work α) : Prop :=
  Only (fun o => o.ofDrive = true) p

/-- The program is one of the fleet's. -/
abbrev OfFleet {α : Type} (p : Work α) : Prop :=
  Only (fun o => o.ofFleet = true) p

/-- The program is the fleet's, and about one drive. -/
abbrev About {α : Type} (id : DriveId) (p : Work α) : Prop :=
  Only (Op.isAbout id) p

/-- The program is the fleet's, for one of its drives. -/
abbrev Keeping {α : Type} (id : DriveId) (p : Work α) : Prop :=
  Only (Op.keeps id) p

/-- The program is the fleet's, for some of its drives. -/
abbrev OfMember {α : Type} (p : Work α) : Prop :=
  Only Op.ofMember p

/-- The program is about the drain of one drive. -/
abbrev Drains {α : Type} (id : DriveId) (p : Work α) : Prop :=
  Only (Op.drains id) p

/-- The part keeps within a step. -/
abbrev Within {α : Type} (ref : StepRef) (p : Work α) : Prop :=
  Only (fun o => o.withinStep ref = true) p

/-- The part keeps within a step that has nothing to do with the fleet. -/
abbrev OfStep {α : Type} (ref : StepRef) (p : Work α) : Prop :=
  Only (fun o => (o.withinStep ref && o.offFleet) = true) p

section Scope

variable {cfg : Settings} {N : Op → Prop}

/-- A part that goes on when it succeeded. -/
lemma Only.andThen {α β : Type} {p : Work (Except String α)} {f : α → Work (Except String β)}
    (hp : Only N p) (hf : ∀ a, Only N (f a)) : Only N (andThen p f) := by
  refine Only.bind hp fun r => ?_
  cases r with
  | ok a => exact hf a
  | error why => exact only_ret _

/-- A part that is done only when a condition holds. -/
lemma Only.when {c : Prop} [Decidable c] {p : Work Unit} (hp : Only N p) : Only N (when c p) :=
  .ite hp (only_ret _)

/-- A task performs what it does once. -/
@[simp] lemma performs_once_iff {o : Op} {p : Work Unit} :
    Performs o (once p) ↔ Performs o p := by
  rw [once, performs_bind_iff]
  simp

/-- What has nothing to do with jobs keeps within every step. -/
lemma Jobless.within {α : Type} {p : Work α} (h : Jobless p) (ref : StepRef) : Within ref p := by
  refine h.mono fun o ho => ?_
  cases o with
  | job o => simp [Op.jobless] at ho
  | _ => exact ho

/-- Work on a drive has nothing to do with jobs. -/
lemma OfDrive.jobless {α : Type} {p : Work α} (h : OfDrive p) : Jobless p :=
  h.mono fun _ ho => (Bool.and_eq_true_iff.mp ho).1

/-- Work on a drive has nothing to do with the fleet. -/
lemma OfDrive.offFleet {α : Type} {p : Work α} (h : OfDrive p) : OffFleet p :=
  h.mono fun _ ho => (Bool.and_eq_true_iff.mp ho).2

/-- Work on a drive keeps within every step. -/
lemma OfDrive.ofStep {α : Type} {p : Work α} (h : OfDrive p) (ref : StepRef) : OfStep ref p := by
  intro o ho
  rw [Bool.and_eq_true]
  exact ⟨h.jobless.within ref o ho, h.offFleet o ho⟩

/-- What keeps within a step off the fleet keeps within the step. -/
lemma OfStep.within {α : Type} {ref : StepRef} {p : Work α} (h : OfStep ref p) : Within ref p :=
  h.mono fun _ ho => (Bool.and_eq_true_iff.mp ho).1

/-- The fleet's tasks have nothing to do with jobs. -/
lemma OfFleet.jobless {α : Type} {p : Work α} (h : OfFleet p) : Jobless p := by
  refine h.mono fun o ho => ?_
  cases o with
  | record o => rfl
  | query o => rfl
  | engine o => rfl
  | _ => simp [Op.ofFleet] at ho

/-- What is about the drain of a drive keeps to the drive. -/
lemma Drains.keeping {α : Type} {id : DriveId} {p : Work α} (h : Drains id p) : Keeping id p := by
  refine h.mono fun o ho => ?_
  cases o with
  | record r =>
    cases r with
    | read site id' => cases site <;> exact ho
    | change id' u => cases u <;> first | exact ⟨ho, rfl⟩ | exact False.elim ho
    | _ => first | exact ho | exact False.elim ho
  | engine r => cases r <;> first | exact ⟨ho, rfl⟩ | exact False.elim ho
  | _ => exact False.elim ho

/-- What is done for one of the fleet's drives is about it. -/
lemma Keeping.about {α : Type} {id : DriveId} {p : Work α} (h : Keeping id p) : About id p := by
  refine h.mono fun o ho => ?_
  cases o with
  | record r =>
    cases r with
    | read site id' => cases site <;> first | exact ho | exact False.elim ho
    | change id' u => exact ho.1
    | _ => exact ho
  | engine r => exact ho.1
  | _ => exact False.elim ho

lemma Keeping.ofMember {α : Type} {id : DriveId} {p : Work α} (h : Keeping id p) : OfMember p :=
  h.mono fun _ ho => ⟨id, ho⟩

lemma Drains.about {α : Type} {id : DriveId} {p : Work α} (h : Drains id p) : About id p :=
  h.keeping.about

/-- What the fleet's tasks do for one drive is the fleet's. -/
lemma About.ofFleet {α : Type} {id : DriveId} {p : Work α} (h : About id p) : OfFleet p := by
  refine h.mono fun o ho => ?_
  cases o with
  | record o => rfl
  | query o => rfl
  | engine o => rfl
  | _ => exact False.elim ho

lemma OfMember.ofFleet {α : Type} {p : Work α} (h : OfMember p) : OfFleet p := by
  refine h.mono fun o ho => ?_
  obtain ⟨id, ho⟩ := ho
  cases o with
  | record o => rfl
  | engine o => rfl
  | _ => exact False.elim ho

/-- The save of the inventory. -/
lemma ofDrive_persist : OfDrive (persist cfg) := by
  unfold persist
  split
  · exact .op_bind rfl fun _ => (only_op_iff _).mpr rfl
  · exact only_ret _

/-- The save of the jobs keeps within every step. -/
lemma ofStep_save (ref : StepRef) : OfStep ref (save cfg) := by
  unfold save
  split
  · exact .op_bind rfl fun _ => (only_op_iff _).mpr rfl
  · exact only_ret _

/-! ## Formats -/

lemma ofDrive_begin (dev : DriveId) (target : Nat) (prot : Protection) (step : Option StepRef) :
    OfDrive (begin_ dev target prot step) := by
  refine .op_bind rfl fun r => ?_
  cases r with
  | ok =>
    refine .op_bind rfl fun r => ?_
    cases r with
    | illegal why => exact .ite (only_ret _) (.op_bind rfl fun _ => only_ret _)
    | _ => exact only_ret _
  | _ => exact only_ret _

lemma ofDrive_startExact (dev : DriveId) (current target : Nat) (prot : Protection)
    (alternatives : List Choice) (step : Option StepRef) :
    OfDrive (startExact dev current target prot alternatives step) := by
  refine Only.bind (ofDrive_begin dev target prot step) fun a => ?_
  cases a with
  | refused why => exact .op_bind rfl fun _ => only_ret _
  | _ => exact only_ret _

lemma ofDrive_formatBlocking (d : Drive) (target : Nat) (prot : Protection)
    (step : Option StepRef) : OfDrive (formatBlocking d target prot step) := by
  refine .op_bind rfl fun hold => ?_
  cases hold with
  | some why => exact only_ret _
  | none =>
    refine Only.andThen ((only_op_iff _).mpr rfl) fun dev =>
      Only.andThen ((only_op_iff _).mpr rfl) fun cap => ?_
    refine Only.bind (ofDrive_startExact _ _ _ _ _ _) fun r => ?_
    cases r with
    | error why => exact only_ret _
    | ok immediate =>
      exact Only.andThen ((only_op_iff _).mpr rfl) fun _ =>
        Only.andThen ((only_op_iff _).mpr rfl) fun _ => only_ret _

lemma ofDrive_formatFinish (h : Nat) (id : DriveId) (result : FormatResult) :
    OfDrive (formatFinish cfg h id result) := by
  cases result with
  | ok bs => exact .op_bind rfl fun _ => .op_bind rfl fun _ => ofDrive_persist
  | error why => exact .op_bind rfl fun _ => .op_bind rfl fun _ => ofDrive_persist

/-- **The task of a format** takes no section of the jobs. -/
theorem ofDrive_formatTask (h : Nat) (d : Drive) (target : Nat) (prot : Protection)
    (step : Option StepRef) : OfDrive (formatTask cfg h d target prot step) :=
  Only.bind (ofDrive_formatBlocking d target prot step) fun r =>
    ofDrive_formatFinish h d.id r

lemma ofDrive_formatStart (d : Drive) (target : Nat) (prot : Protection)
    (step : Option StepRef) : OfDrive (formatStart cfg d target prot step) := by
  refine .op_bind rfl fun h => .op_bind rfl fun boot => .op_bind rfl fun _ => ?_
  exact Only.bind ofDrive_persist fun _ => .op_bind rfl fun _ => only_ret _

lemma ofDrive_reattach (d : Drive) : OfDrive (reattach d) :=
  .op_bind rfl fun _ => .op_bind rfl fun _ => .op_bind rfl fun _ => only_ret _

lemma ofDrive_asNamedNow (d : Drive) (otherBoot : Bool) : OfDrive (asNamedNow d otherBoot) := by
  unfold asNamedNow
  split
  · exact only_ret _
  · refine .op_bind rfl fun names => ?_
    cases names with
    | cons name rest => exact only_ret _
    | nil => exact .ite (only_ret _) (only_ret _)

/-- The task of a format that went on over a restart takes no section of the jobs. -/
theorem ofDrive_reattachTask (h : Nat) (d : Drive) (otherBoot : Bool) :
    OfDrive (reattachTask cfg h d otherBoot) := by
  refine Only.bind ?_ fun r => ofDrive_formatFinish h d.id _
  exact Only.andThen (ofDrive_asNamedNow d otherBoot) fun name =>
    Only.andThen ((only_op_iff _).mpr rfl) fun dev =>
    Only.andThen ((only_op_iff _).mpr rfl) fun _ =>
    Only.andThen ((only_op_iff _).mpr rfl) fun after => only_ret _

lemma ofDrive_waitFormat (h target : Nat) (prot : Protection) :
    OfDrive (waitFormat h target prot) := by
  refine .op_bind rfl fun st => ?_
  cases st <;> exact only_ret _

lemma ofDrive_nvmeFormat (d : Drive) (blockSize : Nat) (step : Option StepRef) :
    OfDrive (nvmeFormat d blockSize step) := by
  refine Only.andThen ((only_op_iff _).mpr rfl) fun _ =>
    Only.andThen ((only_op_iff _).mpr rfl) fun dev => .op_bind rfl fun r => ?_
  cases r with
  | ok => exact Only.andThen ((only_op_iff _).mpr rfl) fun _ => only_ret _
  | _ => exact only_ret _

/-! ## Erases, tests and firmware -/

lemma ofDrive_scsiWait (node : String) (id : DriveId) : OfDrive (scsiWait node id) :=
  Only.andThen ((only_op_iff _).mpr rfl) fun _ => (only_op_iff _).mpr rfl

lemma ofDrive_scsiSanitize (d : Drive) (m : SanitizeMethod) (step : Option StepRef) :
    OfDrive (scsiSanitize d m step) := by
  refine Only.andThen ((only_op_iff _).mpr rfl) fun dev => .op_bind rfl fun r => ?_
  cases r with
  | ok => exact ofDrive_scsiWait _ _
  | _ => exact only_ret _

lemma ofDrive_nvmeSanitize (d : Drive) (m : SanitizeMethod) (step : Option StepRef) :
    OfDrive (nvmeSanitize d m step) := by
  refine Only.andThen ((only_op_iff _).mpr rfl) fun _ =>
    Only.andThen ((only_op_iff _).mpr rfl) fun dev => .op_bind rfl fun r => ?_
  cases r with
  | ok => exact ofDrive_scsiWait _ _
  | _ => exact only_ret _

lemma ofDrive_ataSecurity (node : String) (id : DriveId) : OfDrive (ataSecurity node id) :=
  Only.andThen ((only_op_iff _).mpr rfl) fun _ => (only_op_iff _).mpr rfl

lemma ofDrive_eraseUnit (d : Drive) (dev : DriveId) (password : String) (plan : AtaErasePlan)
    (step : Option StepRef) : OfDrive (eraseUnit d dev password plan step) := by
  refine .op_bind rfl fun r => ?_
  split
  · exact only_ret _
  · refine .op_bind rfl fun r => ?_
    cases r with
    | error why => exact only_ret _
    | ok _ =>
      refine Only.bind (ofDrive_ataSecurity _ _) fun after => ?_
      cases after with
      | error why => exact only_ret _
      | ok after => exact .ite (only_ret _) (only_ret _)

lemma ofDrive_undoPassword (dev : DriveId) (password why : String) (step : Option StepRef) :
    OfDrive (undoPassword dev password why step) := by
  refine .op_bind rfl fun r => ?_
  split <;> exact only_ret _

lemma ofDrive_ataSecurityErase (d : Drive) (password : String) (plan : AtaErasePlan)
    (step : Option StepRef) : OfDrive (ataSecurityErase d password plan step) := by
  refine .op_bind rfl fun r => ?_
  cases r with
  | error why => exact only_ret _
  | ok dev =>
    refine Only.bind ?_ fun set => ?_
    · split
      · exact (only_op_iff _).mpr rfl
      · exact only_ret _
    · split
      · exact only_ret _
      · refine .op_bind rfl fun r => ?_
        split
        · exact ofDrive_undoPassword _ _ _ _
        · exact ofDrive_eraseUnit _ _ _ _ _

lemma ofDrive_testBlocking (d : Drive) (kind : TestKind) (step : Option StepRef) :
    OfDrive (testBlocking d kind step) := by
  refine .op_bind rfl fun r => ?_
  cases r with
  | error why => exact only_ret _
  | ok dev =>
    refine .ite (.op_bind rfl fun r => ?_) (.op_bind rfl fun r => ?_)
    · split <;> exact only_ret _
    · cases r <;> exact only_ret _

/-- **The task of a test** takes no section of the jobs. -/
theorem ofDrive_testTask (h : Nat) (d : Drive) (kind : TestKind) (step : Option StepRef) :
    OfDrive (testTask cfg h d kind step) :=
  Only.bind (ofDrive_testBlocking d kind step) fun _ => .op_bind rfl fun _ => .op_bind rfl fun _ =>
    ofDrive_persist

lemma ofDrive_testStart (d : Drive) (kind : TestKind) (step : Option StepRef) :
    OfDrive (testStart d kind step) :=
  .op_bind rfl fun _ => .op_bind rfl fun _ => .op_bind rfl fun _ => only_ret _

/-- Waiting for a test's task only reads the inventory. -/
lemma only_waitNotTesting (hread : ∀ id, N (.record (.read .other id))) (id : DriveId) (n : Nat) :
    Only N (waitNotTesting id n) := by
  induction n with
  | zero => exact only_ret _
  | succ n ih =>
    simp only [waitNotTesting, op_bind, only_act_iff]
    refine ⟨hread id, fun x => ?_⟩
    split
    · split
      · exact ih
      · exact only_ret _
    · exact only_ret _

lemma ofDrive_nvmeDownload (d : Drive) (n : Nat) : OfDrive (nvmeDownload d n) := by
  induction n with
  | zero => exact only_ret _
  | succ n ih =>
    refine Only.andThen ((only_op_iff _).mpr rfl) fun dev => .op_bind rfl fun r => ?_
    split
    · exact only_ret _
    · exact ih

lemma ofDrive_firmwareBlocking (d : Drive) (pieces : Nat) :
    OfDrive (firmwareBlocking d pieces) := by
  unfold firmwareBlocking
  split
  · exact ofDrive_nvmeDownload d _
  · refine Only.andThen ((only_op_iff _).mpr rfl) fun dev => .op_bind rfl fun r => ?_
    split <;> exact only_ret _

/-- **The task of a firmware update** takes no section of the jobs. -/
theorem ofDrive_firmwareTask (d : Drive) (pieces : Nat) (force : Bool) :
    OfDrive (firmwareTask cfg d pieces force) := by
  refine Only.bind (Only.when ((only_op_iff _).mpr rfl)) fun _ => ?_
  refine Only.bind (.ite ((only_op_iff _).mpr rfl) (only_ret _)) fun pre => ?_
  refine Only.bind ?_ fun r => ?_
  · cases pre with
    | error why => exact only_ret _
    | ok _ => exact ofDrive_firmwareBlocking d pieces
  · refine Only.bind (Only.when (.op_bind rfl fun _ => only_ret _)) fun _ => ?_
    refine .op_bind rfl fun _ => Only.bind ofDrive_persist fun _ => ?_
    exact Only.when ((only_op_iff _).mpr rfl)

lemma ofDrive_firmwareStart (d : Drive) (image : String) (pieces : Nat) (force : Bool) :
    OfDrive (firmwareStart cfg d image pieces force) :=
  .op_bind rfl fun _ => Only.bind ofDrive_persist fun _ => (only_op_iff _).mpr rfl

/-! ## The REST operations, discovery and drains -/

lemma ofDrive_formatAll (blockSize : Nat) (prot : Protection) (ds : List Drive) :
    OfDrive (formatAll cfg blockSize prot ds) := by
  induction ds with
  | nil => exact only_ret _
  | cons d rest ih => exact Only.bind (ofDrive_formatStart d blockSize prot none) fun _ => ih

theorem ofDrive_startFormats (ids : List DriveId) (blockSize : Nat) (prot : Protection) :
    OfDrive (startFormats cfg ids blockSize prot) := by
  refine .ite (only_ret _) (.op_bind rfl fun drives => .ite (only_ret _) ?_)
  exact ofDrive_formatAll _ _ _

theorem ofDrive_startTest (id : DriveId) (kind : TestKind) : OfDrive (startTest id kind) := by
  refine .op_bind rfl fun r => ?_
  cases r with
  | none => exact only_ret _
  | some d =>
    refine .op_bind rfl fun mounts => .op_bind rfl fun disk => ?_
    split
    · exact only_ret _
    · exact Only.bind (ofDrive_testStart d kind none) fun _ => only_ret _

lemma ofDrive_firmwareAll (image : String) (pieces : Nat) (force : Bool) (ds : List Drive) :
    OfDrive (firmwareAll cfg image pieces force ds) := by
  induction ds with
  | nil => exact only_ret _
  | cons d rest ih => exact Only.bind (ofDrive_firmwareStart d image pieces force) fun _ => ih

theorem ofDrive_startFirmware (ids : List DriveId) (image : String) (pieces : Nat)
    (force : Bool) : OfDrive (startFirmware cfg ids image pieces force) := by
  refine .op_bind rfl fun drives => .ite (only_ret _) ?_
  exact ofDrive_firmwareAll _ _ _ _

theorem ofDrive_pass : OfDrive (pass cfg) :=
  .op_bind rfl fun _ => .op_bind rfl fun _ => .op_bind rfl fun _ => ofDrive_persist

/-! ## The fleet -/

/-- The save of the inventory copies it and writes the copy. -/
lemma only_persist (hsnap : N (.record .snapshot)) (hwrite : N (.record .write)) :
    Only N (persist cfg) := by
  unfold persist
  split
  · exact .op_bind hsnap fun _ => (only_op_iff _).mpr hwrite
  · exact only_ret _

lemma about_persist (id : DriveId) : About id (persist cfg) :=
  only_persist trivial trivial

lemma ofFleet_persist : OfFleet (persist cfg) :=
  (about_persist ⟨⟨0⟩⟩).ofFleet

/-- An answer that is not used. -/
lemma Only.ignore {α : Type} {p : Work α} (hp : Only N p) : Only N (ignore p) :=
  Only.bind hp fun _ => only_ret _

/-- A program for each element of a list. -/
lemma only_forAll {α : Type} {p : List α → Work Unit} {f : α → Work Unit} (hnil : p [] = pure ())
    (hcons : ∀ a l, p (a :: l) = f a >>= fun _ => p l) (l : List α) (hf : ∀ a ∈ l, Only N (f a)) :
    Only N (p l) := by
  induction l with
  | nil =>
    rw [hnil]
    exact only_ret _
  | cons a l ih =>
    rw [hcons]
    exact Only.bind (hf a List.mem_cons_self) fun _ =>
      ih fun b hb => hf b (List.mem_cons_of_mem a hb)

/-! ### What is done for one drive -/

section One

variable (id : DriveId) (d : Drive)

lemma drains_persist : Drains id (persist cfg) :=
  only_persist trivial trivial

lemma drains_startDrain (reason : String) (thenLeave : Bool) :
    Drains id (startDrain cfg id reason thenLeave) := by
  refine .op_bind rfl fun r => ?_
  cases r with
  | none => exact only_ret _
  | some d =>
    refine .ite (only_ret _) (.ite (only_ret _) ?_)
    refine Only.andThen ((only_op_iff _).mpr rfl) fun found => Only.bind ?_ fun status => ?_
    · split
      · exact only_ret _
      · exact (only_op_iff _).mpr rfl
    · cases status with
      | error why => exact only_ret _
      | ok s => exact .op_bind rfl fun _ => Only.bind (drains_persist id) fun _ => only_ret _

lemma drains_requestDrain (reason : String) (thenLeave : Bool) :
    Drains id (requestDrain cfg id reason thenLeave) := by
  refine Only.bind (drains_startDrain id reason thenLeave) fun r => ?_
  cases r with
  | ok _ => exact only_ret _
  | error why =>
    refine .op_bind rfl fun d => ?_
    cases d with
    | none => exact only_ret _
    | some d => exact Only.bind (Only.when (drains_persist id)) fun _ => only_ret _

theorem drains_cancelDrain : Drains id (cancelDrain cfg id) := by
  refine .op_bind rfl fun r => ?_
  cases r with
  | none => exact only_ret _
  | some d =>
    refine Only.andThen ((only_op_iff _).mpr rfl) fun _ => .op_bind rfl fun _ => ?_
    exact Only.bind (drains_persist id) fun _ => only_ret _

lemma keeping_persist : Keeping id (persist cfg) :=
  (drains_persist id).keeping

lemma keeping_retire : Keeping id (retire id) := by
  refine .op_bind rfl fun r => ?_
  cases r with
  | none => exact only_ret _
  | some d =>
    refine .op_bind ⟨rfl, rfl⟩ fun r => ?_
    cases r with
    | error why => exact only_ret _
    | ok _ => exact .op_bind ⟨rfl, rfl⟩ fun _ => only_ret _

lemma keeping_drainPolled (thenLeave : Bool) (status : DrainStatus) :
    Keeping d.id (drainPolled cfg d thenLeave status) := by
  refine .op_bind ⟨rfl, rfl⟩ fun _ => .ite (only_ret _) (.ite ?_ (.ite ?_ ?_))
  · refine Only.bind (.ite (keeping_retire _) ?_) fun _ => keeping_persist _
    exact .op_bind ⟨rfl, rfl⟩ fun _ => only_ret _
  · exact keeping_persist _
  · exact .op_bind ⟨rfl, rfl⟩ fun _ => only_ret _

lemma keeping_pollDrain : Keeping d.id (pollDrain cfg d) := by
  refine .op_bind ⟨rfl, rfl⟩ fun r => ?_
  cases r with
  | error why => exact only_ret _
  | ok status =>
    cases status with
    | none => exact .op_bind ⟨rfl, rfl⟩ fun _ => only_ret _
    | some status => exact keeping_drainPolled _ _ _

lemma keeping_pushLabel : Keeping d.id (pushLabel d) := by
  refine .op_bind ⟨rfl, rfl⟩ fun r => ?_
  cases r with
  | ok _ => exact Only.ignore ((only_op_iff _).mpr ⟨rfl, rfl⟩)
  | error why => exact only_ret _

lemma keeping_reportHealth : Keeping d.id (reportHealth cfg d) := by
  refine .op_bind ⟨rfl, rfl⟩ fun r => ?_
  cases r with
  | error why => exact only_ret _
  | ok _ =>
    refine .op_bind ⟨rfl, rfl⟩ fun _ => .ite (Only.ignore (drains_requestDrain _ _ _).keeping) ?_
    exact Only.when (.op_bind rfl fun _ => Only.when (keeping_persist _))

lemma about_openInEngine (target : String) (labels : List (String × String))
    (listed : List EngineDrive) : About id (openInEngine target labels id listed) :=
  .ite ((only_op_iff _).mpr rfl) ((only_op_iff _).mpr rfl)

lemma about_slabInEngine (target tier : String) (role : Option Role) :
    About id (slabInEngine target tier role) :=
  .op_bind trivial fun _ =>
    .ite (Only.andThen ((only_op_iff _).mpr trivial) fun _ => only_ret _) (only_ret _)

/-- A join makes requests about the drive, and one change. -/
lemma only_join (hengine : ∀ o : EngineOp, o.isAbout d.id → N (.engine o))
    (hjoined : N (.record (.change d.id (.joined d.stormblockLabels)))) (formatSlab : Bool)
    (tier : Option String) : Only N (join cfg d formatSlab tier) :=
  Only.andThen ((only_op_iff _).mpr (hengine _ trivial)) fun _ =>
    Only.andThen (.ite ((only_op_iff _).mpr (hengine _ rfl)) ((only_op_iff _).mpr (hengine _ rfl)))
      fun _ =>
      Only.andThen (.ite (.op_bind (hengine _ trivial) fun _ =>
        .ite (Only.andThen ((only_op_iff _).mpr (hengine _ trivial)) fun _ => only_ret _)
          (only_ret _)) (only_ret _)) fun _ =>
        .op_bind hjoined fun _ => only_ret _

lemma only_joinAndPersist (hengine : ∀ o : EngineOp, o.isAbout d.id → N (.engine o))
    (hjoined : N (.record (.change d.id (.joined d.stormblockLabels))))
    (hsnap : N (.record .snapshot)) (hwrite : N (.record .write)) (formatSlab : Bool)
    (tier : Option String) : Only N (joinAndPersist cfg d formatSlab tier) := by
  refine Only.bind (only_join d hengine hjoined _ _) fun r => ?_
  cases r with
  | ok _ => exact only_persist hsnap hwrite
  | error why => exact only_ret _

lemma about_join (formatSlab : Bool) (tier : Option String) :
    About d.id (join cfg d formatSlab tier) :=
  only_join (N := Op.isAbout d.id) d (fun _ ho => ho) rfl _ _

lemma about_joinAndPersist (formatSlab : Bool) (tier : Option String) :
    About d.id (joinAndPersist cfg d formatSlab tier) :=
  only_joinAndPersist (N := Op.isAbout d.id) d (fun _ ho => ho) rfl trivial trivial _ _

lemma keeping_leaveNow (force : Bool) : Keeping d.id (leaveNow cfg d force) := by
  refine .op_bind ⟨rfl, rfl⟩ fun r => ?_
  cases r with
  | ok _ => exact .op_bind ⟨rfl, rfl⟩ fun _ => keeping_persist _
  | error why => exact only_ret _

theorem drains_drainRoute (leave : Bool) : Drains id (drainRoute cfg id leave) :=
  Only.when (Only.ignore (drains_startDrain _ _ _))

lemma keeping_reportFailed : Keeping id (reportFailed id) := by
  refine .op_bind rfl fun now => .op_bind ⟨rfl, rfl⟩ fun r => ?_
  cases r with
  | ok _ => exact Only.ignore ((only_op_iff _).mpr ⟨rfl, rfl⟩)
  | error why => exact only_ret _

lemma about_patchFleet (fleet : FleetPatch) : About d.id (patchFleet cfg d fleet) := by
  refine .ite (only_ret _) ?_
  cases fleet with
  | leave => exact .ite (drains_startDrain _ _ _).about (only_ret _)
  | join =>
    dsimp only
    split
    · exact .ite (only_ret _) (only_ret _)
    · exact Only.andThen (about_join d _ _) fun _ => only_ret _

lemma about_patchDrain (drain : Bool) : About d.id (patchDrain cfg d drain) :=
  .ite (drains_startDrain _ _ _).about (.ite (drains_cancelDrain _).about (only_ret _))

end One

/-! ### The tasks of the fleet -/

lemma ofMember_pushOvercommit (ds : List Drive) : OfMember (pushOvercommit ds) := by
  induction ds with
  | nil => exact only_ret _
  | cons d rest ih =>
    refine .op_bind ⟨d.id, rfl, rfl⟩ fun r => ?_
    rcases r with why | _ | _
    · exact ih
    · exact only_ret _
    · exact .op_bind ⟨d.id, rfl, rfl⟩ fun _ => ih

lemma ofMember_pushThermal (ds : List Drive) : OfMember (pushThermal ds) := by
  induction ds with
  | nil => exact only_ret _
  | cons d rest ih =>
    refine .op_bind ⟨d.id, rfl, rfl⟩ fun r => ?_
    rcases r with why | _ | _
    · exact ih
    · exact only_ret _
    · exact .op_bind ⟨d.id, rfl, rfl⟩ fun _ => ih

lemma ofMember_retryPendingDrains (ds : List Drive) : OfMember (retryPendingDrains cfg ds) := by
  induction ds with
  | nil => exact only_ret _
  | cons d rest ih => exact Only.bind (drains_requestDrain _ _ _).keeping.ofMember fun _ => ih

lemma ofFleet_addAll (ds : List Drive) : OfFleet (addAll cfg ds) :=
  only_forAll (f := fun d => do
      let ready : Bool ← perform (.query (.ready ("auto-add " ++ d.name)))
      when ready (joinAndPersist cfg d cfg.autoFormatSlab none)) rfl (fun _ _ => rfl) ds
    fun d _ => .op_bind rfl fun _ => Only.when (about_joinAndPersist d _ _).ofFleet

theorem ofFleet_fleetTick : OfFleet (fleetTick cfg) := by
  refine Only.bind (Only.when ?_) fun _ => ofFleet_persist
  refine Only.bind (.op_bind rfl fun due => only_forAll rfl (fun _ _ => rfl) due
    fun d _ => (keeping_pushLabel d).about.ofFleet) fun _ => ?_
  refine Only.bind (.op_bind rfl fun ready => Only.when (.op_bind rfl fun due =>
    (ofMember_pushOvercommit due).ofFleet)) fun _ => ?_
  refine Only.bind (.op_bind rfl fun ready => Only.when (.op_bind rfl fun due =>
    (ofMember_pushThermal due).ofFleet)) fun _ => ?_
  refine Only.bind (Only.when (.op_bind rfl fun due => only_forAll rfl (fun _ _ => rfl) due
    fun d _ => (keeping_reportHealth d).about.ofFleet)) fun _ => ?_
  refine .op_bind rfl fun running => Only.bind (only_forAll rfl (fun _ _ => rfl) running
    fun d _ => (keeping_pollDrain d).about.ofFleet) fun _ => ?_
  refine .op_bind rfl fun due => Only.bind (ofMember_retryPendingDrains due).ofFleet fun _ => ?_
  exact Only.when (.op_bind rfl fun candidates => ofFleet_addAll candidates)

theorem ofFleet_collect : OfFleet (collect cfg) := by
  refine Only.bind (Only.when (.op_bind rfl fun r => ?_)) fun _ => ofFleet_persist
  cases r with
  | ok listed => exact (only_op_iff _).mpr rfl
  | error why => exact only_ret _

theorem ofFleet_fleetJoin (id : DriveId) (formatSlab : Bool) (tier : Option String) :
    OfFleet (fleetJoin cfg id formatSlab tier) := by
  refine .op_bind rfl fun r => ?_
  cases r with
  | none => exact only_ret _
  | some d =>
    exact .op_bind rfl fun disk => .ite (only_ret _) (about_joinAndPersist d _ _).ofFleet

theorem ofMember_fleetLeave (id : DriveId) (drain force : Bool) :
    OfMember (fleetLeave cfg id drain force) := by
  refine .op_bind ⟨id, rfl⟩ fun r => ?_
  cases r with
  | none => exact only_ret _
  | some d =>
    have hleave : OfMember (leaveNow cfg d force) := (keeping_leaveNow d force).ofMember
    refine .ite (only_ret _) (.ite hleave (.op_bind ⟨id, trivial, rfl⟩ fun r => ?_))
    rcases r with why | _ | _
    · exact only_ret _
    · exact hleave
    · exact Only.when (Only.ignore (drains_startDrain _ _ _).keeping.ofMember)

lemma ofFleet_systemSync : OfFleet systemSync :=
  .op_bind rfl fun _ => (only_op_iff _).mpr rfl

theorem ofFleet_setDesignation (id : DriveId) (des : Designation) :
    OfFleet (setDesignation cfg id des) := by
  refine .op_bind rfl fun r => ?_
  cases r with
  | error why => exact only_ret _
  | ok out =>
    refine Only.bind (Only.when (Only.bind (keeping_reportFailed id).about.ofFleet fun _ =>
      Only.when (Only.ignore (drains_requestDrain _ _ _).about.ofFleet))) fun _ => ?_
    exact Only.bind (Only.when ofFleet_systemSync) fun _ => ofFleet_persist

lemma ofFleet_patchDesignation (d : Drive) (des : Designation) :
    OfFleet (patchDesignation cfg d des) := by
  refine Only.andThen ((only_op_iff _).mpr rfl) fun out => ?_
  refine Only.bind (Only.when ofFleet_systemSync) fun _ => .ite ?_ (only_ret _)
  exact .op_bind rfl fun _ => .op_bind rfl fun _ =>
    .ite (drains_requestDrain _ _ _).about.ofFleet (only_ret _)

lemma Only.patchPart {α : Type} {x : Option α} {f : α → Work (Except String Unit)}
    (hf : ∀ a, Only N (f a)) : Only N (patchPart x f) := by
  cases x with
  | none => exact only_ret _
  | some a => exact hf a

theorem ofFleet_patchDrive (id : DriveId) (patch : DriveSpecPatch) :
    OfFleet (patchDrive cfg id patch) := by
  refine .op_bind rfl fun r => ?_
  cases r with
  | none => exact only_ret _
  | some d =>
    exact Only.andThen (Only.patchPart (ofFleet_patchDesignation d)) fun _ =>
      Only.andThen (Only.patchPart fun fleet => (about_patchFleet d fleet).ofFleet) fun _ =>
        Only.andThen (Only.patchPart fun drain => (about_patchDrain d drain).ofFleet) fun _ =>
          Only.bind ofFleet_persist fun _ => only_ret _

/-! ## After a restart -/

lemma ofDrive_reattachAll (ds : List Drive) : OfDrive (reattachAll ds) := by
  induction ds with
  | nil => exact only_ret _
  | cons d rest ih => exact Only.bind (ofDrive_reattach d) fun _ => ih

lemma ofDrive_interruptAll (ids : List DriveId) : OfDrive (interruptAll ids) := by
  induction ids with
  | nil => exact only_ret _
  | cons id rest ih => exact .op_bind rfl fun _ => ih

lemma ofDrive_watchWait (d : Drive) (step : Step) : OfDrive (watchWait d step) := by
  refine .ite ?_ (.ite (ofDrive_scsiWait _ _) (ofDrive_scsiWait _ _))
  refine Only.bind (ofDrive_reattach d) fun h => Only.bind (ofDrive_waitFormat _ _ _) fun _ => ?_
  exact only_ret _

/-! ## One step of a job -/

lemma ofDrive_context (d : Drive) : OfDrive (context cfg d) :=
  .op_bind rfl fun _ => .op_bind rfl fun _ => .op_bind rfl fun _ => only_ret _

lemma ofDrive_newDriveJobs (req : Request) (ds : List Drive) :
    OfDrive (newDriveJobs cfg req ds) := by
  induction ds with
  | nil => exact only_ret _
  | cons d rest ih =>
    exact Only.bind (ofDrive_context d) fun _ => Only.bind ih fun _ => only_ret _

section Step

variable (ref : StepRef) (d : Drive)

lemma ofDrive_stepFormatNvm (blockSize : Nat) :
    OfDrive (stepFormatNvm cfg ref d blockSize) := by
  refine .op_bind rfl fun _ => ?_
  refine Only.bind (ofDrive_nvmeFormat _ _ _) fun r => Only.bind ?_ fun g => ?_
  · cases r with
    | ok s => exact (only_op_iff _).mpr rfl
    | error why => exact only_ret _
  · exact .op_bind rfl fun _ => Only.bind ofDrive_persist fun _ => only_ret _

lemma ofDrive_stepFormat (blockSize : Nat) (prot : Protection) :
    OfDrive (stepFormat cfg ref d blockSize prot) :=
  Only.bind (ofDrive_formatStart _ _ _ _) fun _ => ofDrive_waitFormat _ _ _

lemma ofDrive_stepSanitize (m : SanitizeMethod) : OfDrive (stepSanitize cfg ref d m) := by
  refine .op_bind rfl fun _ => Only.bind (.ite (ofDrive_nvmeSanitize _ _ _)
    (ofDrive_scsiSanitize _ _ _)) fun r => .op_bind rfl fun _ => ?_
  exact Only.bind ofDrive_persist fun _ => only_ret _

lemma ofDrive_stepTest (kind : TestKind) : OfDrive (stepTest ref d kind) := by
  refine Only.bind (ofDrive_testStart _ _ _) fun h => .op_bind rfl fun st => ?_
  refine Only.bind (only_waitNotTesting (fun _ => rfl) _ _) fun _ => ?_
  cases st <;> exact only_ret _

lemma jobless_stepEnroll (tier : Option String) (role : Role) (steps : List Step) :
    Jobless (stepEnroll cfg d tier role steps) :=
  Only.andThen ((only_op_iff _).mpr rfl) fun _ =>
    Only.andThen (about_openInEngine _ _ _ _).ofFleet.jobless fun _ =>
      Only.andThen (about_slabInEngine d.id _ _ _).ofFleet.jobless fun _ =>
        .op_bind rfl fun _ => Only.bind ofDrive_persist.jobless fun _ => only_ret _

lemma ofDrive_writePartition (role : Role) (step : Option StepRef) :
    OfDrive (writePartition d role step) := by
  refine .op_bind rfl fun g => ?_
  cases g with
  | none => exact only_ret _
  | some g =>
    refine Only.andThen ((only_op_iff _).mpr rfl) fun _ =>
      Only.andThen ((only_op_iff _).mpr rfl) fun dev => .op_bind rfl fun r => ?_
    split
    · exact only_ret _
    · exact (only_op_iff _).mpr rfl

lemma ofStep_stepPartition (role : Role) : OfStep ref (stepPartition ref d role) := by
  refine .op_bind rfl fun _ => .op_bind (by simp [Op.withinStep, DjUpdate.withinStep, Op.offFleet])
    fun _ => ?_
  refine Only.bind ((ofDrive_writePartition d role _).ofStep ref) fun _ => ?_
  exact .op_bind rfl fun _ => only_ret _

lemma ofStep_erasePassword (ours : Option String) : OfStep ref (erasePassword cfg ref ours) := by
  unfold erasePassword
  split
  · exact only_ret _
  · refine Only.andThen ((only_op_iff _).mpr rfl) fun random => ?_
    refine .op_bind (by simp [Op.withinStep, DjUpdate.withinStep, Op.offFleet]) fun _ => ?_
    exact Only.bind (ofStep_save ref) fun _ => only_ret _

lemma ofStep_eraseWith (password : String) (plan : AtaErasePlan) :
    OfStep ref (eraseWith cfg ref d password plan) := by
  refine .op_bind rfl fun _ => Only.bind ((ofDrive_ataSecurityErase _ _ _ _).ofStep ref) fun r => ?_
  refine Only.bind ?_ fun _ => Only.bind (ofStep_save ref) fun _ => .op_bind rfl fun _ => ?_
  · exact Only.when (.op_bind (by simp [Op.withinStep, DjUpdate.withinStep, Op.offFleet])
      fun _ => only_ret _)
  · refine Only.bind (ofDrive_persist.ofStep ref) fun _ => ?_
    cases r with
    | ok _ => exact only_ret _
    | error e => exact .ite (only_ret _) (only_ret _)

lemma ofStep_stepSecurityErase (enhanced : Option Bool) :
    OfStep ref (stepSecurityErase cfg ref d enhanced) := by
  refine .op_bind (by simp [Op.withinStep, Op.offFleet]) fun ours => ?_
  refine Only.andThen ((ofDrive_ataSecurity _ _).ofStep ref) fun sec => ?_
  split
  · exact only_ret _
  · exact Only.andThen (ofStep_erasePassword ref ours) fun p => ofStep_eraseWith ref d p _

/-- **One step of a job keeps to its own part** and has nothing to do with the fleet, unless it is an
enrolment. -/
theorem ofStep_runStep {step : Step} (hstep : ∀ tier role, step ≠ .enroll tier role)
    (steps : List Step) : OfStep ref (runStep cfg ref d step steps) := by
  cases step with
  | format blockSize prot =>
    simp only [runStep]
    split
    · exact (ofDrive_stepFormatNvm ref d blockSize).ofStep ref
    · exact (ofDrive_stepFormat ref d blockSize prot).ofStep ref
  | sanitize m => exact (ofDrive_stepSanitize ref d m).ofStep ref
  | securityErase enhanced => exact ofStep_stepSecurityErase ref d enhanced
  | test kind => exact (ofDrive_stepTest ref d kind).ofStep ref
  | partition role => exact ofStep_stepPartition ref d role
  | enroll tier role => exact absurd rfl (hstep tier role)

/-- **One step of a job keeps to its own part**: beyond the inventory, the drives and the engine it
only reads and changes its own drive's part of the job, and saves. -/
theorem within_runStep (step : Step) (steps : List Step) :
    Within ref (runStep cfg ref d step steps) := by
  by_cases hstep : ∃ tier role, step = .enroll tier role
  · obtain ⟨tier, role, rfl⟩ := hstep
    exact (jobless_stepEnroll d tier role steps).within ref
  · exact (ofStep_runStep ref d (fun tier role h => hstep ⟨tier, role, h⟩) steps).within

end Step

/-! ## Whole requests -/

/-- The request has nothing to do with jobs: no part of a job is done for it. -/
def Req.besideJobs : Req → Bool
  | .submit .. | .cancel _ | .resume .. | .recover | .runDrive .. | .driveLoop .. | .watch .. =>
    false
  | _ => true

/-- **The requests that have nothing to do with jobs** are served by programs that have not. -/
theorem jobless_entry (cfg : Settings) {r : Req} (h : r.besideJobs = true) :
    ∃ p : Work Unit, r.entry cfg = once p ∧ Jobless p := by
  cases r with
  | startFormats ids bs prot => exact ⟨_, rfl, (ofDrive_startFormats ids bs prot).jobless⟩
  | startTest id kind => exact ⟨_, rfl, (ofDrive_startTest id kind).jobless⟩
  | startFirmware ids image pieces force =>
    exact ⟨_, rfl, (ofDrive_startFirmware ids image pieces force).jobless⟩
  | pass => exact ⟨_, rfl, ofDrive_pass.jobless⟩
  | collect => exact ⟨_, rfl, ofFleet_collect.jobless⟩
  | fleetTick => exact ⟨_, rfl, ofFleet_fleetTick.jobless⟩
  | fleetJoin id fs tier => exact ⟨_, rfl, (ofFleet_fleetJoin id fs tier).jobless⟩
  | fleetLeave id drain force => exact ⟨_, rfl, (ofMember_fleetLeave id drain force).ofFleet.jobless⟩
  | startDrain id leave => exact ⟨_, rfl, (drains_drainRoute id leave).about.ofFleet.jobless⟩
  | cancelDrain id => exact ⟨_, rfl, Only.ignore (drains_cancelDrain id).about.ofFleet.jobless⟩
  | setDesignation id des => exact ⟨_, rfl, (ofFleet_setDesignation id des).jobless⟩
  | setOvercommit id oc => exact ⟨_, rfl, .op_bind rfl fun _ => Only.when ofDrive_persist.jobless⟩
  | patchDrive id patch => exact ⟨_, rfl, Only.ignore (ofFleet_patchDrive id patch).jobless⟩
  | forget id => exact ⟨_, rfl, .op_bind rfl fun _ => Only.when ofDrive_persist.jobless⟩
  | formatTask i d target prot step => exact ⟨_, rfl, (ofDrive_formatTask i d target prot step).jobless⟩
  | reattachTask i d otherBoot => exact ⟨_, rfl, (ofDrive_reattachTask i d otherBoot).jobless⟩
  | testTask i d kind step => exact ⟨_, rfl, (ofDrive_testTask i d kind step).jobless⟩
  | firmwareTask d pieces force => exact ⟨_, rfl, (ofDrive_firmwareTask d pieces force).jobless⟩
  | _ => cases h

/-- The request is one of the fleet's. -/
def Req.ofFleet : Req → Bool
  | .collect | .fleetTick | .fleetJoin .. | .fleetLeave .. | .startDrain .. | .cancelDrain _
  | .setDesignation .. | .patchDrive .. => true
  | _ => false

lemma offFleet_save : OffFleet (save cfg) := by
  unfold save
  split
  · exact .op_bind rfl fun _ => (only_op_iff _).mpr rfl
  · exact only_ret _

lemma offFleet_spawnDrives (job : JobId) (idxs : List Nat) : OffFleet (spawnDrives job idxs) := by
  induction idxs with
  | nil => exact only_ret _
  | cons idx rest ih => exact .op_bind rfl fun _ => ih

lemma offFleet_submit (req : Request) (selected : List DriveId) (who : Option Requester) :
    OffFleet (submit cfg req selected who) := by
  unfold submit
  split
  · exact only_ret _
  · refine .op_bind rfl fun ds => Only.bind (ofDrive_newDriveJobs req ds).offFleet fun djs => ?_
    refine .ite (only_ret _) (.op_bind rfl fun id => .op_bind rfl fun _ => ?_)
    exact Only.bind offFleet_save fun _ => offFleet_spawnDrives _ _

lemma offFleet_resume (id : JobId) (who : Option Requester) : OffFleet (resume cfg id who) := by
  refine .op_bind rfl fun r => ?_
  cases r with
  | error why => exact only_ret _
  | ok idxs =>
    exact .ite (only_ret _) (Only.bind offFleet_save fun _ => offFleet_spawnDrives _ _)

lemma offFleet_recover : OffFleet (recover cfg) := by
  refine Only.bind ?_ fun _ => .op_bind rfl fun found => ?_
  · refine .op_bind rfl fun owned => .op_bind rfl fun found => .ite (only_ret _) ?_
    exact Only.bind (ofDrive_reattachAll found.1).offFleet fun _ => ofDrive_persist.offFleet
  · refine Only.bind (ofDrive_interruptAll found.2).offFleet fun _ => Only.bind offFleet_save
      fun _ => Only.bind ?_ fun _ => (only_op_iff _).mpr rfl
    induction found.1 with
    | nil => exact only_ret _
    | cons e rest ih => exact .op_bind rfl fun _ => ih

lemma offFleet_fail (job : JobId) (idx : Nat) (why : String) : OffFleet (fail cfg job idx why) :=
  .op_bind rfl fun _ => offFleet_save

lemma offFleet_watch (job : JobId) (idx : Nat) (id : DriveId) (step : Step) :
    OffFleet (watch cfg job idx id step) := by
  refine .op_bind rfl fun r => ?_
  cases r with
  | none => exact only_ret _
  | some d =>
    refine .op_bind rfl fun _ => Only.bind (ofDrive_watchWait d step).offFleet fun r =>
      .op_bind rfl fun _ => Only.bind ?_ fun _ => ofDrive_persist.offFleet
    cases r with
    | error why => exact offFleet_fail _ _ _
    | ok _ =>
      exact .op_bind rfl fun dj => .op_bind rfl fun total =>
        Only.bind (Only.when (.op_bind rfl fun _ => only_ret _)) fun _ => offFleet_save

/-- **The requests that have nothing to do with the fleet** are served by programs that have not, but
for the loop of a job's part, which may enrol the drive. -/
theorem offFleet_entry (cfg : Settings) {r : Req} (h : r.ofFleet = false)
    (hloop : ∀ job idx steps id dn un, r ≠ .driveLoop job idx steps id dn un)
    (hrun : ∀ job idx, r ≠ .runDrive job idx) :
    ∃ p : Work Unit, r.entry cfg = once p ∧ OffFleet p := by
  cases r with
  | submit req selected who => exact ⟨_, rfl, offFleet_submit req selected who⟩
  | cancel id => exact ⟨_, rfl, .op_bind rfl fun _ => Only.when offFleet_save⟩
  | resume id who => exact ⟨_, rfl, offFleet_resume id who⟩
  | startFormats ids bs prot => exact ⟨_, rfl, (ofDrive_startFormats ids bs prot).offFleet⟩
  | startTest id kind => exact ⟨_, rfl, (ofDrive_startTest id kind).offFleet⟩
  | startFirmware ids image pieces force =>
    exact ⟨_, rfl, (ofDrive_startFirmware ids image pieces force).offFleet⟩
  | pass => exact ⟨_, rfl, ofDrive_pass.offFleet⟩
  | setOvercommit id oc => exact ⟨_, rfl, .op_bind rfl fun _ => Only.when ofDrive_persist.offFleet⟩
  | forget id => exact ⟨_, rfl, .op_bind rfl fun _ => Only.when ofDrive_persist.offFleet⟩
  | recover => exact ⟨_, rfl, offFleet_recover⟩
  | formatTask i d target prot step =>
    exact ⟨_, rfl, (ofDrive_formatTask i d target prot step).offFleet⟩
  | reattachTask i d otherBoot => exact ⟨_, rfl, (ofDrive_reattachTask i d otherBoot).offFleet⟩
  | testTask i d kind step => exact ⟨_, rfl, (ofDrive_testTask i d kind step).offFleet⟩
  | firmwareTask d pieces force => exact ⟨_, rfl, (ofDrive_firmwareTask d pieces force).offFleet⟩
  | watch job idx id step => exact ⟨_, rfl, offFleet_watch job idx id step⟩
  | runDrive job idx => exact absurd rfl (hrun job idx)
  | driveLoop job idx steps id dn un => exact absurd rfl (hloop job idx steps id dn un)
  | _ => cases h

end Scope

end StormDrive
