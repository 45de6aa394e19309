import Mathlib.Data.List.Dedup
import StormDrive.Daemon.Operations
import StormDrive.Interleave.MergePatch
import StormDrive.Interleave.Runs
import StormDrive.Policy

set_option relaxedAutoImplicit false
set_option autoImplicit false

/-!
# The passes over a drive policy

The controller takes up a `DrivePolicy` again and again: it reads the status it has written, follows
the jobs that the records name, decides for each drive, hands some to the worker and writes the
status (`controller.rs`). The record of a drive is all that says whether it was tried before.

## Main definitions

* `Policy.World`, `Policy.Event`, `Policy.World.step` — the status on the server, the worker's jobs
  and a pass, through what happens.
* `Policy.TriesOnce` — what is promised of a decision.
* `Policy.Kept` — the record of every drive that was tried is kept.

## Main results

* `Policy.tried_once_of_kept` — **in a run whose records are kept a drive is tried once under a
  generation, and at the first chance**.
* `Policy.failed_drive_tried_again` — a status write fails, and a drive whose job failed is handed
  over again.

## Implementation notes

One policy, on one node. A status that is the last one written is not sent again; sent again it
would change nothing (`Policy.written_again`), so that what was last written is left out. What the
worker does with its jobs is any change of them. The reads of one decision are one step, as is its
status write: nothing that happens between them is read by it.
-/

namespace StormDrive

namespace Policy

/-! ## Jobs as a pass reads them -/

/-- A drive's part of a job. -/
def part (j : Job) (id : DriveId) : Option DriveJob := j.drives.find? fun dj => dj.drive = id

/-- A drive's part of the job of a name. -/
def partAt (jobs : Jobs) (j : JobId) (id : DriveId) : Option DriveJob :=
  (jobs.get j).bind fun j => part j id

/-- Does some job have the drive queued or running? -/
def inJob (jobs : Jobs) (id : DriveId) : Bool :=
  jobs.entries.any fun e => e.2.drives.any fun dj =>
    dj.drive = id && (dj.state = .queued || dj.state = .running)

/-! ## Records -/

/-- A drive's record follows its part of the job. -/
def Record.followed (r : Record) (dj : DriveJob) : Record :=
  (((r.set .state (.text (djWord dj.state))).set .phase (.text dj.phase)).set .progressPct
    (.ofNumber (dj.progressPct.map Int.ofNat))).set .reason (.ofText dj.error)

/-- A drive that is selected and left alone. -/
def skippedRecord (d : Drive) (why : String) (generation : ℤ) : Record :=
  .ofList [(.name, .text d.name), (.serial, .text d.serial), (.state, .text "skipped"),
    (.reason, .text why), (.generation, .number generation)]

/-- A drive of a dry run. -/
def plannedRecord (d : Drive) (steps : List Step) (generation : ℤ) : Record :=
  .ofList [(.name, .text d.name), (.serial, .text d.serial), (.state, .text "planned"),
    (.steps, .texts (steps.map Step.describe)), (.generation, .number generation)]

/-- A drive that was handed to the worker, with its answer: the job, or why it was refused. -/
def handedRecord (d : Drive) (steps : List Step) (generation : ℤ) : Except String Job → Record
  | .ok j =>
    .ofList [(.name, .text d.name), (.serial, .text d.serial), (.job, .text j.id),
      (.steps, .texts (steps.map Step.describe)), (.generation, .number generation),
      (.state, .text ((part j d.id).elim "queued" fun dj => djWord dj.state)),
      (.reason, .ofText ((part j d.id).bind DriveJob.error))]
  | .error e =>
    .ofList [(.name, .text d.name), (.serial, .text d.serial), (.state, .text "refused"),
      (.reason, .text e), (.steps, .texts (steps.map Step.describe)),
      (.generation, .number generation)]

/-! ## The world of a policy -/

/-- The records of the drives, in the status or in a pass. -/
abbrev Records := DriveId → Option Record

/-- One pass over the policy, from when its object was read. -/
structure Pass where
  spec : Spec
  generation : ℤ
  who : Requester
  records : Records
  /-- The jobs it has asked to go on. -/
  resumed : List JobId
  /-- The drives whose jobs it has looked at. -/
  followed : List DriveId

/-- A drive handed to the worker under a generation, for a job unless all was refused. -/
structure Try where
  drive : DriveId
  generation : ℤ
  job : Option JobId
  /-- It failed, or was refused or cancelled. -/
  bad : Bool
  deriving DecidableEq

/-- The policy's status on the server, the worker's jobs, when a pass last probed a drive's contents
and skipped it, and the pass that is under way. Beside it, the newest generation that was read and
what was tried. -/
structure World where
  server : Records
  jobs : Jobs
  probed : DriveId → Option ℕ
  pass : Option Pass
  newest : ℤ
  tries : List Try

/-- What a pass meets: the time, the inventory, whether the node has a data slab, what the worker
finds on a drive, the worker's answer for each list of steps, and whether the status is written. -/
structure Sight where
  now : ℕ
  inventory : List Drive
  hasDataSlab : Bool
  contexts : Drive → Context
  answers : List Step → Except String Job
  writes : Bool

/-- What happens. -/
inductive Event
  /-- The worker's jobs change: they go on, are resumed, cancelled, pruned, read back, made. -/
  | work (jobs : Jobs)
  | restart
  /-- A pass reads the policy, whose requester is this one. -/
  | start (generation : ℤ) (spec : Spec) (who : Requester)
  /-- It looks at the job of a drive's record. -/
  | follow (id : DriveId)
  /-- It ends there, as the requester was not accepted. -/
  | stop (writes : Bool)
  | decide (s : Sight)

/-- How long a drive that a probe refused is not probed again. -/
def recheckSkipped : ℕ := 300

/-- What a pass does with one drive it selects. -/
inductive Choice
  | leave
  | skip (why : String)
  /-- The worker's guard refuses it. -/
  | refuse (why : String)
  | run (steps : List Step)
  deriving DecidableEq

/-- A part of a try's job. -/
def Try.part (t : Try) (jobs : Jobs) : Option DriveJob := t.job.bind fun j => partAt jobs j t.drive

/-- What has become of it. -/
def Try.noted (jobs : Jobs) (t : Try) : Try :=
  { t with bad := t.bad || (t.part jobs).any fun dj => endedBadly (djWord dj.state) }

namespace World

/-- The jobs are others. -/
def withJobs (w : World) (jobs : Jobs) : World :=
  { w with jobs := jobs, tries := w.tries.map (Try.noted jobs) }

/-- The records are merged into the status, if that is written. -/
def written (w : World) (records : Records) (writes : Bool) : Records :=
  if writes then MergePatch.mergeAll .null w.server records else w.server

/-- Was the drive probed and skipped a short time ago? -/
def throttled (w : World) (p : Pass) (s : Sight) (d : Drive) : Bool :=
  (p.records d.id).any (fun r => r.state = "skipped") &&
    (w.probed d.id).any fun t => s.now - t < recheckSkipped

/-- What the pass does with one drive. -/
def choose (w : World) (p : Pass) (s : Sight) (d : Drive) : Choice :=
  match verdict p.spec d (inJob w.jobs d.id) with
  | .pass => .leave
  | .skip why => .skip why
  | .run steps =>
    if (retryBlocked (p.records d.id) (some p.generation)).isSome then .leave
    else if w.throttled p s d then .leave
    else match guard d steps false (s.contexts d) with
      | .error why => .refuse why
      | .ok _ => .run steps

/-- Nothing new starts in a suspended policy, or in one that waits for a data slab. -/
def acts (p : Pass) (s : Sight) : Bool :=
  !p.spec.suspend && !(p.spec.requireDataSlab && !s.hasDataSlab)

/-- The drives that the policy selects. -/
def selected (p : Pass) (s : Sight) : List Drive := s.inventory.filter p.spec.selectsDrive

/-- The drives that are handed to the worker, with their steps. -/
def handed (w : World) (p : Pass) (s : Sight) : List (Drive × List Step) :=
  if acts p s ∧ ¬ p.spec.dryRun then
    (selected p s).filterMap fun d =>
      match w.choose p s d with
      | .run steps => some (d, steps)
      | _ => none
  else []

/-- The record of a drive after the decision. One that is not selected is kept for its job. -/
def decided (w : World) (p : Pass) (s : Sight) : Records := fun id =>
  match (selected p s).find? fun d => d.id = id with
  | none => (p.records id).filter fun r => r.job.isSome
  | some d =>
    match w.choose p s d with
    | .leave => p.records id
    | .skip why => some (skippedRecord d why p.generation)
    | .refuse why => some (skippedRecord d why p.generation)
    | .run steps =>
      if acts p s then
        if p.spec.dryRun then some (plannedRecord d steps p.generation)
        else some (handedRecord d steps p.generation (s.answers steps))
      else p.records id

/-- The job of a list of steps is made, unless it was refused. -/
def made (answers : List Step → Except String Job) (jobs : Jobs) (steps : List Step) : Jobs :=
  match answers steps with
  | .ok j => jobs.insert j
  | .error _ => jobs

/-- The worker's jobs after the hand-over: one for each list of steps. -/
def submitted (w : World) (p : Pass) (s : Sight) : Jobs :=
  ((w.handed p s).map Prod.snd).dedup.foldl (made s.answers) w.jobs

/-- The hand-over of a drive, noted. -/
def tried (p : Pass) (s : Sight) (h : Drive × List Step) : Try :=
  { drive := h.1.id
    generation := p.generation
    job := match s.answers h.2 with
      | .ok j => some j.id
      | .error _ => none
    bad := match s.answers h.2 with
      | .ok j => (part j h.1.id).any fun dj => endedBadly (djWord dj.state)
      | .error _ => true }

/-- When a drive was last probed and skipped. -/
def probes (w : World) (p : Pass) (s : Sight) (id : DriveId) : Option ℕ :=
  match (selected p s).find? fun d => d.id = id with
  | none => w.probed id
  | some d =>
    match w.choose p s d with
    | .refuse _ => some s.now
    | .run _ => none
    | _ => w.probed id

/-- The pass looks at the job of a drive's record. What is interrupted in it is asked to go on, once
in a pass. -/
def followJob (w : World) (p : Pass) (id : DriveId) : World :=
  let p := { p with followed := id :: p.followed }
  match p.records id with
  | none => { w with pass := some p }
  | some r =>
    match r.job with
    | none => { w with pass := some p }
    | some jid =>
      match w.jobs.get jid with
      | none => { w with pass := some p }
      | some j =>
        let resumes :=
          j.drives.any (fun dj => dj.state = .interrupted) && !p.spec.suspend &&
            jid ∉ p.resumed
        let jobs := if resumes then w.jobs.update jid (Job.resumeFor p.who) (Job.resumeFor_id p.who) else w.jobs
        let p := if resumes then { p with resumed := jid :: p.resumed } else p
        match partAt jobs jid id with
        | none => { w.withJobs jobs with pass := some p }
        | some dj =>
          { w.withJobs jobs with
            pass := some { p with records := Function.update p.records id (some (r.followed dj)) } }

/-- The pass decides, hands over and writes. -/
def conclude (w : World) (p : Pass) (s : Sight) : World :=
  let jobs := w.submitted p s
  { server := w.written (w.decided p s) s.writes
    jobs := jobs
    probed := w.probes p s
    pass := none
    newest := w.newest
    tries := (w.tries ++ (w.handed p s).map (tried p s)).map (Try.noted jobs) }

def step (w : World) : Event → World
  | .work jobs => w.withJobs jobs
  | .restart => { w with probed := fun _ => none, pass := none }
  | .start generation spec who =>
    { w with pass := some ⟨spec, generation, who, w.server, [], []⟩, newest := generation }
  | .follow id =>
    match w.pass with
    | none => w
    | some p => w.followJob p id
  | .stop writes =>
    match w.pass with
    | none => w
    | some p => { w with server := w.written p.records writes, pass := none }
  | .decide s =>
    match w.pass with
    | none => w
    | some p => w.conclude p s

/-- A policy that was made now, on a worker with its jobs. -/
def first (jobs : Jobs) (generation : ℤ) : World :=
  ⟨fun _ => none, jobs, fun _ => none, none, generation, []⟩

end World

/-! ## What is promised, and when it holds -/

/-- **What is promised of a decision.** A drive that is handed over did not fail under this
generation, nor was it refused or cancelled. A drive that the policy selects and that was not tried
under this generation is handed over where the verdict is to run and the worker's guard accepts,
unless the policy hands nothing over. -/
structure Once (w : World) (p : Pass) (s : Sight) : Prop where
  again : ∀ h ∈ w.handed p s, ∀ t ∈ w.tries, t.drive = h.1.id → t.generation = p.generation →
    t.bad = false
  soon : World.acts p s = true → p.spec.dryRun = false → ∀ d ∈ World.selected p s,
    (∀ t ∈ w.tries, t.drive = d.id → t.generation ≠ p.generation) →
    ∀ steps, verdict p.spec d (inJob w.jobs d.id) = .run steps →
      (∃ ok, guard d steps false (s.contexts d) = .ok ok) → (d, steps) ∈ w.handed p s

/-- The events that can be: a pass reads the newest generation, it looks at every record before it
decides, and the inventory has a drive once. -/
def Listed (w : World) : Event → Prop
  | .start generation _ _ => w.newest ≤ generation
  | .decide s => (s.inventory.map Drive.id).Nodup ∧
      ∀ p ∈ w.pass, ∀ id, (p.records id).isSome → id ∈ p.followed
  | _ => True

/-- A record of the drive, on the server or in the pass. -/
def World.Has (w : World) (id : DriveId) (r : Record) : Prop :=
  w.server id = some r ∨ ∃ p, w.pass = some p ∧ p.records id = some r

/-- A job that a record of the drive names, or a try of it. -/
def World.Names (w : World) (id : DriveId) (j : JobId) : Prop :=
  (∃ r, w.Has id r ∧ r.job = some j) ∨ ∃ t ∈ w.tries, t.drive = id ∧ t.job = some j

/-- The part that a record is about: of the job it names, where the worker has that. -/
def Record.part (jobs : Jobs) (id : DriveId) (r : Record) : Option DriveJob :=
  r.job.bind fun j => partAt jobs j id

/-- **The worker's side of the condition.** What has ended stays as it ended; a job that ended badly
is forgotten only when the record of the drive says so; and no job comes up under a name that is
taken. -/
structure WorkKept (w : World) (jobs : Jobs) : Prop where
  ended : ∀ j id dj dj', partAt w.jobs j id = some dj → dj.state.finished = true →
    partAt jobs j id = some dj' → dj'.state = dj.state
  told : ∀ j id dj, partAt w.jobs j id = some dj → endedBadly (djWord dj.state) = true →
    partAt jobs j id = none → ∀ r, w.Has id r → r.job = some j → endedBadly r.state = true
  fresh : ∀ id j, w.Names id j → partAt w.jobs j id = none → partAt jobs j id = none

/-- A decision stamps the record of a drive that it leaves alone, for a skip or a dry run. -/
def World.Stamps (w : World) (p : Pass) (s : Sight) (d : Drive) : Prop :=
  (∃ why, w.choose p s d = .skip why ∨ w.choose p s d = .refuse why) ∨
    (World.acts p s = true ∧ p.spec.dryRun = true ∧ ∃ steps, w.choose p s d = .run steps)

/-- **The controller's side of the condition.** -/
structure DecisionKept (w : World) (p : Pass) (s : Sight) : Prop where
  /-- A status with drives that are handed over is written. -/
  written : w.handed p s ≠ [] → s.writes = true
  /-- A job gets a name that none has. -/
  fresh : ∀ h ∈ w.handed p s, ∀ j, s.answers h.2 = .ok j →
    w.jobs.get j.id = none ∧ (∀ id, ¬ w.Names id j.id) ∧
      ∀ h' ∈ w.handed p s, ∀ j', s.answers h'.2 = .ok j' → j'.id = j.id → h'.2 = h.2
  /-- What the pass has read of the job of a drive that it hands over is still so, and that job is
  not interrupted. -/
  read : ∀ h ∈ w.handed p s, ∀ r, p.records h.1.id = some r →
    ∀ dj, r.part w.jobs h.1.id = some dj → r.state = djWord dj.state ∧ dj.state ≠ .interrupted
  /-- A drive that is skipped or planned has a record of this generation, or a job that was done,
  when the worker has a job of it; and else it was not tried in vain under this generation. -/
  stamped : ∀ d ∈ World.selected p s, w.Stamps p s d → ∀ r, p.records d.id = some r →
    match r.part w.jobs d.id with
    | some dj => r.generation = some p.generation ∨ dj.state = .done
    | none => retryBlocked (some r) (some p.generation) = none
  /-- A drive that is refused with all others of its list has no job, or one that ended badly. -/
  refused : ∀ h ∈ w.handed p s, ∀ e, s.answers h.2 = .error e → ∀ r, p.records h.1.id = some r →
    ∀ dj, r.part w.jobs h.1.id = some dj → endedBadly (djWord dj.state) = true
  /-- A drive that was not tried and that would be accepted was not probed and skipped a short time
  ago. -/
  unthrottled : ∀ d ∈ World.selected p s,
    (∀ t ∈ w.tries, t.drive = d.id → t.generation ≠ p.generation) →
    ∀ steps, verdict p.spec d (inJob w.jobs d.id) = .run steps →
      (∃ ok, guard d steps false (s.contexts d) = .ok ok) → w.throttled p s d = false

/-- **The condition.** -/
def Kept (w : World) : Event → Prop
  | .work jobs => WorkKept w jobs
  | .decide s => ∀ p ∈ w.pass, DecisionKept w p s
  | _ => True

/-- The record says that the drive is not tried again under the generation: as the job that it names
says, or as it says itself where the worker has no such job. -/
def Record.Blocks (jobs : Jobs) (generation : ℤ) (id : DriveId) (r : Record) : Prop :=
  r.generation = some generation ∧
    match r.part jobs id with
    | some dj => endedBadly (djWord dj.state) = true
    | none => endedBadly r.state = true

/-- The record never says that the drive is not tried again. -/
def Record.Clean (jobs : Jobs) (id : DriveId) (r : Record) : Prop :=
  (∀ dj, r.part jobs id = some dj → dj.state = .done) ∧ endedBadly r.state = false

/-- **The record of a drive tells of its tries** under the newest generation. -/
structure Tells (jobs : Jobs) (tries : List Try) (newest : ℤ) (id : DriveId)
    (record : Option Record) : Prop where
  /-- One that was in vain blocks. -/
  bad : ∀ t ∈ tries, t.drive = id → t.generation = newest → t.bad = true →
    ∃ r, record = some r ∧ r.Blocks jobs newest id
  /-- One that has not ended is the record's. -/
  opened : ∀ t ∈ tries, t.drive = id → t.generation = newest → ∀ dj, t.part jobs = some dj →
    dj.state.finished = false → ∃ r, record = some r ∧ r.job = t.job ∧ r.generation = some newest
  /-- Without one the record does not block. -/
  free : (∀ t ∈ tries, t.drive = id → t.generation ≠ newest) → ∀ r, record = some r →
    r.generation = some newest → r.Clean jobs id
  /-- The record is not newer. -/
  older : ∀ r, record = some r → ∀ g, r.generation = some g → g ≤ newest

/-- What ended badly has ended. -/
lemma finished_of_endedBadly {st : DjState} (h : endedBadly (djWord st) = true) :
    st.finished = true := by
  cases st with
  | queued | running | interrupted | done => revert h; decide
  | failed | refused | cancelled => rfl

/-- What is done did not end badly. -/
lemma not_endedBadly_done : endedBadly (djWord .done) = false := by decide

/-! ## The worker goes on -/

namespace WorkKept

variable {w : World} {jobs : Jobs} {id : DriveId}

/-- A part that is there was there before, and if it had ended it stands as it did. -/
lemma before (kept : WorkKept w jobs) {j : JobId} (hnames : w.Names id j) {dj' : DriveJob}
    (h : partAt jobs j id = some dj') :
    ∃ dj, partAt w.jobs j id = some dj ∧ (dj.state.finished = true → dj'.state = dj.state) := by
  cases hpart : partAt w.jobs j id with
  | none =>
    rw [kept.fresh id j hnames hpart] at h
    cases h
  | some dj => exact ⟨dj, rfl, fun hfin => kept.ended j id dj dj' hpart hfin h⟩

lemma names_of_has {r : Record} (hhas : w.Has id r) {j : JobId} (hj : r.job = some j) :
    w.Names id j := Or.inl ⟨r, hhas, hj⟩

lemma names_of_try {t : Try} (ht : t ∈ w.tries) {j : JobId} (hj : t.job = some j) :
    w.Names t.drive j := Or.inr ⟨t, ht, rfl, hj⟩

/-- The part of a record that is there was there before. -/
lemma before_record (kept : WorkKept w jobs) {r : Record} (hhas : w.Has id r) {dj' : DriveJob}
    (h : r.part jobs id = some dj') :
    ∃ dj, r.part w.jobs id = some dj ∧ (dj.state.finished = true → dj'.state = dj.state) := by
  obtain ⟨j, hj, hpart⟩ := Option.bind_eq_some_iff.mp h
  obtain ⟨dj, hdj, hsame⟩ := kept.before (names_of_has hhas hj) hpart
  exact ⟨dj, Option.bind_eq_some_iff.mpr ⟨j, hj, hdj⟩, hsame⟩

/-- The part of a try that is there was there before. -/
lemma before_try (kept : WorkKept w jobs) {t : Try} (ht : t ∈ w.tries) {dj' : DriveJob}
    (h : t.part jobs = some dj') :
    ∃ dj, t.part w.jobs = some dj ∧ (dj.state.finished = true → dj'.state = dj.state) := by
  obtain ⟨j, hj, hpart⟩ := Option.bind_eq_some_iff.mp h
  obtain ⟨dj, hdj, hsame⟩ := kept.before (names_of_try ht hj) hpart
  exact ⟨dj, Option.bind_eq_some_iff.mpr ⟨j, hj, hdj⟩, hsame⟩

/-- A record that blocks goes on to. -/
lemma blocks (kept : WorkKept w jobs) {r : Record} (hhas : w.Has id r) {generation : ℤ}
    (h : r.Blocks w.jobs generation id) : r.Blocks jobs generation id := by
  refine ⟨h.1, ?_⟩
  have hstate := h.2
  cases hafter : r.part jobs id with
  | some dj' =>
    obtain ⟨dj, hdj, hsame⟩ := kept.before_record hhas hafter
    rw [hdj] at hstate
    have hbad : endedBadly (djWord dj.state) = true := hstate
    show endedBadly (djWord dj'.state) = true
    rw [hsame (finished_of_endedBadly hbad)]
    exact hbad
  | none =>
    show endedBadly r.state = true
    cases hpart : r.part w.jobs id with
    | none =>
      rw [hpart] at hstate
      exact hstate
    | some dj =>
      rw [hpart] at hstate
      obtain ⟨j, hj, hdj⟩ := Option.bind_eq_some_iff.mp hpart
      have hnone : partAt jobs j id = none := by
        rw [Record.part, hj] at hafter
        exact hafter
      exact kept.told j id dj hdj hstate hnone r hhas hj

/-- A record that never blocks goes on so. -/
lemma clean (kept : WorkKept w jobs) {r : Record} (hhas : w.Has id r)
    (h : r.Clean w.jobs id) : r.Clean jobs id := by
  refine ⟨fun dj' hdj' => ?_, h.2⟩
  obtain ⟨dj, hdj, hsame⟩ := kept.before_record hhas hdj'
  have hdone := h.1 dj hdj
  rw [hsame (by rw [hdone]; rfl), hdone]

end WorkKept

/-- What was noted of the tries. -/
def World.Noted (w : World) : Prop :=
  ∀ t ∈ w.tries, ∀ dj, t.part w.jobs = some dj → endedBadly (djWord dj.state) = true →
    t.bad = true

/-- **A record goes on to tell of its tries** when the worker goes on. -/
theorem Tells.work {w : World} {jobs : Jobs} (kept : WorkKept w jobs) (noted : w.Noted)
    {newest : ℤ} {id : DriveId} {record : Option Record}
    (hhas : ∀ r, record = some r → w.Has id r) (tells : Tells w.jobs w.tries newest id record) :
    Tells jobs (w.tries.map (Try.noted jobs)) newest id record where
  bad := by
    intro t' ht' hid hgen hbad
    obtain ⟨t, ht, rfl⟩ := List.mem_map.mp ht'
    -- it was in vain before, or it has just ended so
    by_cases hold : t.bad = true
    · obtain ⟨r, hr, hblocks⟩ := tells.bad t ht hid hgen hold
      exact ⟨r, hr, kept.blocks (hhas r hr) hblocks⟩
    · have hnew : ((t.part jobs).any fun dj => endedBadly (djWord dj.state)) = true := by
        have hor : (t.bad || (t.part jobs).any fun dj => endedBadly (djWord dj.state)) = true :=
          hbad
        rw [Bool.or_eq_true] at hor
        exact hor.resolve_left hold
      obtain ⟨dj', hdj', hdjbad⟩ : ∃ dj', t.part jobs = some dj' ∧
          endedBadly (djWord dj'.state) = true := by
        cases hpart : t.part jobs with
        | none =>
          rw [hpart] at hnew
          cases hnew
        | some dj' =>
          rw [hpart] at hnew
          exact ⟨dj', rfl, hnew⟩
      obtain ⟨dj, hdj, hsame⟩ := kept.before_try ht hdj'
      have hopen : dj.state.finished = false := by
        by_contra hfin
        rw [Bool.not_eq_false] at hfin
        rw [hsame hfin] at hdjbad
        exact hold (noted t ht dj hdj hdjbad)
      obtain ⟨r, hr, hjob, hrgen⟩ := tells.opened t ht hid hgen dj hdj hopen
      refine ⟨r, hr, hrgen, ?_⟩
      have hpart : r.part jobs id = some dj' := by
        rw [Record.part, hjob, ← hid]
        exact hdj'
      rw [hpart]
      exact hdjbad
  opened := by
    intro t' ht' hid hgen dj' hdj' hopen
    obtain ⟨t, ht, rfl⟩ := List.mem_map.mp ht'
    obtain ⟨dj, hdj, hsame⟩ := kept.before_try ht hdj'
    refine tells.opened t ht hid hgen dj hdj ?_
    by_contra hfin
    rw [Bool.not_eq_false] at hfin
    rw [hsame hfin, hfin] at hopen
    cases hopen
  free := by
    intro hnone r hr hgen
    refine kept.clean (hhas r hr) (tells.free (fun t ht hid => ?_) r hr hgen)
    exact hnone (t.noted jobs) (List.mem_map_of_mem ht) hid
  older := tells.older

/-- A worker that does not change its jobs, but that some go on. -/
lemma workKept_of_parts {w : World} {jobs : Jobs}
    (h : ∀ j id, (partAt w.jobs j id = none → partAt jobs j id = none) ∧
      ∀ dj, partAt w.jobs j id = some dj → ∃ dj', partAt jobs j id = some dj' ∧
        (dj.state.finished = true → dj'.state = dj.state)) : WorkKept w jobs where
  ended j id dj dj' hdj hfin hdj' := by
    obtain ⟨dj'', hdj'', hsame⟩ := (h j id).2 dj hdj
    rw [hdj''] at hdj'
    cases hdj'
    exact hsame hfin
  told j id dj hdj _ hnone := by
    obtain ⟨dj', hdj', -⟩ := (h j id).2 dj hdj
    rw [hnone] at hdj'
    cases hdj'
  fresh id j _ hnone := (h j id).1 hnone

/-! ## Records in the status -/

/-- A record looks as another one to what is decided from it. -/
structure SameView (r r' : Record) : Prop where
  job : r.job = r'.job
  generation : r.generation = r'.generation
  state : r.state = r'.state

/-- What is told is told by what is looked at. -/
lemma Tells.congr {jobs : Jobs} {tries : List Try} {newest : ℤ} {id : DriveId} {r r' : Record}
    (same : SameView r r') (tells : Tells jobs tries newest id (some r)) :
    Tells jobs tries newest id (some r') := by
  have hpart : r'.part jobs id = r.part jobs id := by rw [Record.part, Record.part, same.job]
  exact
    { bad := fun t ht hid hgen hbad => by
        obtain ⟨r₁, hr, hblocks⟩ := tells.bad t ht hid hgen hbad
        cases hr
        refine ⟨r', rfl, ?_⟩
        rw [Record.Blocks, hpart, ← same.generation, ← same.state]
        exact hblocks
      opened := fun t ht hid hgen dj hdj hopen => by
        obtain ⟨r₁, hr, hjob, hrgen⟩ := tells.opened t ht hid hgen dj hdj hopen
        cases hr
        exact ⟨r', rfl, same.job ▸ hjob, same.generation ▸ hrgen⟩
      free := fun hnone r₁ hr hgen => by
        cases hr
        rw [Record.Clean, hpart, ← same.state]
        exact tells.free hnone r rfl (same.generation.trans hgen)
      older := fun r₁ hr g hg => by
        cases hr
        exact tells.older r rfl g (same.generation.trans hg) }

/-- No null is in the records of the status. -/
def Stored (records : Records) : Prop := ∀ id r, records id = some r → ∀ k, r k ≠ some .null

/-- The record of a pass beside that of the status: the same job and generation, and where the state
is another one it is a text. -/
structure Beside (stored r : Record) : Prop where
  job : r .job = stored .job
  generation : r .generation = stored .generation
  state : r .state = stored .state ∨ ∃ s, r .state = some (.text s)

lemma Beside.refl (r : Record) : Beside r r := ⟨rfl, rfl, Or.inl rfl⟩

/-- A member that is the same in both stays. -/
lemma merge_of_eq {stored r : Record} {k : Key} (h : r k = stored k)
    (hstored : ∀ k, stored k ≠ some .null) :
    MergePatch.merge .null stored r k = r k := by
  cases hk : r k with
  | none => rw [MergePatch.merge_of_none hk, ← h, hk]
  | some v =>
    refine MergePatch.merge_of_some hk fun hnull => hstored k ?_
    rw [← h, hk, hnull]

/-- What a pass has read is what is there after it has written it. -/
lemma Beside.merged {stored r : Record} (beside : Beside stored r)
    (hstored : ∀ k, stored k ≠ some .null) :
    SameView r (MergePatch.merge .null stored r) where
  job := by
    rw [Record.job, Record.job, Record.text, Record.text, merge_of_eq beside.job hstored]
  generation := by
    rw [Record.generation, Record.generation, merge_of_eq beside.generation hstored]
  state := by
    rcases beside.state with hsame | ⟨s, hs⟩
    · rw [Record.state, Record.state, Record.text, Record.text, merge_of_eq hsame hstored]
    · have hmerged : MergePatch.merge .null stored r .state = some (.text s) :=
        MergePatch.merge_of_some hs (by simp)
      rw [Record.state, Record.state, Record.text, Record.text, hmerged, hs]

/-- A drive's record follows its part, and names the same job and generation. -/
lemma Beside.followed {stored r : Record} (beside : Beside stored r) (dj : DriveJob) :
    Beside stored (r.followed dj) where
  job := beside.job
  generation := beside.generation
  state := Or.inr ⟨djWord dj.state, rfl⟩

lemma followed_state (r : Record) (dj : DriveJob) : (r.followed dj).state = djWord dj.state := rfl

/-- A record that follows its part tells as much. -/
lemma Tells.followed {jobs : Jobs} {tries : List Try} {newest : ℤ} {id : DriveId} {r : Record}
    {dj : DriveJob} (hpart : r.part jobs id = some dj)
    (tells : Tells jobs tries newest id (some r)) :
    Tells jobs tries newest id (some (r.followed dj)) where
  bad t ht hid hgen hbad := by
    obtain ⟨r₁, hr, hrgen, hblocks⟩ := tells.bad t ht hid hgen hbad
    cases hr
    refine ⟨_, rfl, hrgen, ?_⟩
    rw [hpart] at hblocks
    rw [show (r.followed dj).part jobs id = some dj from hpart]
    exact hblocks
  opened t ht hid hgen dj' hdj' hopen := by
    obtain ⟨r₁, hr, hjob, hrgen⟩ := tells.opened t ht hid hgen dj' hdj' hopen
    cases hr
    exact ⟨_, rfl, hjob, hrgen⟩
  free hnone r₁ hr hgen := by
    cases hr
    have hclean := tells.free hnone r rfl hgen
    refine ⟨hclean.1, ?_⟩
    rw [followed_state, hclean.1 dj hpart]
    exact not_endedBadly_done
  older r₁ hr g hg := by
    cases hr
    exact tells.older r rfl g hg

/-! ## What stays true -/

/-- How the records of a pass and of the status are beside each other. -/
def BothOrNone (server records : Option Record) : Prop :=
  (records = none ∧ server = none) ∨
    ∃ stored r, server = some stored ∧ records = some r ∧ Beside stored r

/-- **What stays true of a policy's world.** -/
structure Inv (w : World) : Prop where
  stored : Stored w.server
  noted : w.Noted
  newest : ∀ t ∈ w.tries, t.generation ≤ w.newest
  server : ∀ id, Tells w.jobs w.tries w.newest id (w.server id)
  /-- What a pass has read tells of the tries as well, and was read from the status. -/
  pass : ∀ p, w.pass = some p → p.generation = w.newest ∧
    ∀ id, Tells w.jobs w.tries w.newest id (p.records id) ∧
      BothOrNone (w.server id) (p.records id)

/-- At first there is no record and no try. -/
lemma inv_first (jobs : Jobs) (generation : ℤ) : Inv (World.first jobs generation) where
  stored _ _ h := by cases h
  noted _ h := by cases h
  newest _ h := by cases h
  server _ :=
    { bad := fun _ h => by cases h
      opened := fun _ h => by cases h
      free := fun _ _ h => by cases h
      older := fun _ h => by cases h }
  pass _ h := by cases h

/-- Noting keeps what was noted. -/
lemma noted_map (jobs : Jobs) (tries : List Try) :
    ∀ t ∈ tries.map (Try.noted jobs), ∀ dj, t.part jobs = some dj →
      endedBadly (djWord dj.state) = true → t.bad = true := by
  intro t' ht' dj hdj hbad
  obtain ⟨t, -, rfl⟩ := List.mem_map.mp ht'
  show (t.bad || (t.part jobs).any fun dj => endedBadly (djWord dj.state)) = true
  rw [show t.part jobs = some dj from hdj]
  simp [hbad]

lemma generation_noted {jobs : Jobs} {tries : List Try} {newest : ℤ}
    (h : ∀ t ∈ tries, t.generation ≤ newest) :
    ∀ t ∈ tries.map (Try.noted jobs), t.generation ≤ newest := by
  intro t' ht'
  obtain ⟨t, ht, rfl⟩ := List.mem_map.mp ht'
  exact h t ht

/-- The worker goes on. -/
lemma Inv.work {w : World} (inv : Inv w) {jobs : Jobs} (kept : WorkKept w jobs) :
    Inv (w.withJobs jobs) where
  stored := inv.stored
  noted := noted_map jobs w.tries
  newest := generation_noted inv.newest
  server id := (inv.server id).work kept inv.noted fun _ hr => Or.inl hr
  pass p hp := by
    obtain ⟨hgen, hrecords⟩ := inv.pass p hp
    exact ⟨hgen, fun id => ⟨(hrecords id).1.work kept inv.noted fun _ hr => Or.inr ⟨p, hp, hr⟩,
      (hrecords id).2⟩⟩

/-- **A new generation** makes all drives free. -/
lemma Inv.start {w : World} (inv : Inv w) {generation : ℤ} (hnew : w.newest ≤ generation)
    (spec : Spec) (who : Requester) : Inv (w.step (.start generation spec who)) := by
  have tells : ∀ id, Tells w.jobs w.tries generation id (w.server id) := by
    intro id
    rcases eq_or_lt_of_le hnew with heq | hlt
    · rw [← heq]
      exact inv.server id
    · have hold : ∀ t ∈ w.tries, t.generation ≠ generation := fun t ht heq => by
        have := inv.newest t ht
        omega
      exact
        { bad := fun t ht _ hgen => absurd hgen (hold t ht)
          opened := fun t ht _ hgen => absurd hgen (hold t ht)
          free := fun _ r hr hgen => by
            have := (inv.server id).older r hr generation hgen
            omega
          older := fun r hr g hg => by
            have := (inv.server id).older r hr g hg
            omega }
  exact
    { stored := inv.stored
      noted := inv.noted
      newest := fun t ht => (inv.newest t ht).trans hnew
      server := tells
      pass := fun p hp => by
        cases hp
        refine ⟨rfl, fun id => ⟨tells id, ?_⟩⟩
        show BothOrNone (w.server id) (w.server id)
        cases hid : w.server id with
        | none => exact Or.inl ⟨rfl, rfl⟩
        | some r => exact Or.inr ⟨r, r, rfl, rfl, Beside.refl r⟩ }

/-! ## A pass follows and ends -/

/-- What goes on is the same part. -/
lemma part_resumeFor (who : Requester) (j : Job) (id : DriveId) :
    (part j id = none → part (j.resumeFor who) id = none) ∧
      ∀ dj, part j id = some dj → ∃ dj', part (j.resumeFor who) id = some dj' ∧
        (dj.state.finished = true → dj'.state = dj.state) := by
  unfold Job.resumeFor
  by_cases hcancel : j.cancel = true
  · rw [if_pos hcancel]
    exact ⟨fun h => h, fun dj hdj => ⟨dj, hdj, fun _ => rfl⟩⟩
  · rw [if_neg hcancel]
    have hfind : ∀ l : List DriveJob, ((l.map fun dj =>
        if dj.state = .interrupted then
          { dj with state := .queued, phase := "queued", error := none } else dj).find?
            fun dj => dj.drive = id) =
        (l.find? fun dj => dj.drive = id).map fun dj =>
          if dj.state = .interrupted then
            { dj with state := .queued, phase := "queued", error := none } else dj := by
      intro l
      rw [List.find?_map]
      congr 1
      refine congrArg (l.find? ·) (funext fun dj => ?_)
      show decide (DriveJob.drive (if _ then _ else dj) = id) = _
      split <;> rfl
    unfold part Job.resumed
    dsimp only
    rw [hfind]
    refine ⟨fun h => by rw [h]; rfl, fun dj hdj => ⟨_, by rw [hdj]; rfl, fun hfin => ?_⟩⟩
    dsimp only
    rw [if_neg]
    intro hint
    rw [hint] at hfin
    cases hfin

/-- What a pass asks to go on is as kept as before. -/
lemma workKept_resumed (w : World) (jid : JobId) (who : Requester) :
    WorkKept w (w.jobs.update jid (Job.resumeFor who) (Job.resumeFor_id who)) := by
  refine workKept_of_parts fun j id => ?_
  unfold partAt
  rw [Jobs.get_update]
  by_cases hj : j = jid
  · rw [if_pos hj]
    cases hget : w.jobs.get j with
    | none => exact ⟨fun _ => rfl, fun dj hdj => by cases hdj⟩
    | some job => exact part_resumeFor who job id
  · rw [if_neg hj]
    exact ⟨fun h => h, fun dj hdj => ⟨dj, hdj, fun _ => rfl⟩⟩

lemma workKept_same (w : World) : WorkKept w w.jobs :=
  workKept_of_parts fun _ _ => ⟨fun h => h, fun dj hdj => ⟨dj, hdj, fun _ => rfl⟩⟩

/-- A pass that has read as much. -/
lemma Inv.withPass {w : World} (inv : Inv w) {p p' : Pass} (hp : w.pass = some p)
    (hgen : p'.generation = p.generation) (hrecords : p'.records = p.records) :
    Inv { w with pass := some p' } :=
  { inv with
    pass := fun q hq => by
      cases hq
      rw [hgen, hrecords]
      exact inv.pass p hp }

/-- **A pass follows a job.** -/
lemma Inv.followJob {w : World} (inv : Inv w) {p : Pass} (hp : w.pass = some p) (id : DriveId) :
    Inv (w.followJob p id) := by
  unfold World.followJob
  dsimp only
  split
  · exact inv.withPass hp rfl rfl
  · rename_i r hr
    split
    · exact inv.withPass hp rfl rfl
    · rename_i jid hjid
      split
      · exact inv.withPass hp rfl rfl
      · rename_i j hj
        -- with what it asks to go on, or not
        generalize (j.drives.any (fun dj => decide (dj.state = .interrupted)) &&
          !p.spec.suspend && decide (jid ∉ p.resumed)) = resumes
        have kept : WorkKept w (if resumes = true then
            w.jobs.update jid (Job.resumeFor p.who) (Job.resumeFor_id p.who) else w.jobs) := by
          cases resumes
          · exact workKept_same w
          · exact workKept_resumed w jid p.who
        generalize hjobs : (if resumes = true then
            w.jobs.update jid (Job.resumeFor p.who) (Job.resumeFor_id p.who) else w.jobs) = jobs at kept ⊢
        have hpass : ∀ q : Pass, q = (if resumes = true then
            { p with followed := id :: p.followed, resumed := jid :: p.resumed }
            else { p with followed := id :: p.followed }) →
            q.generation = p.generation ∧ q.records = p.records := by
          intro q hq
          cases resumes
          · rw [hq]
            exact ⟨rfl, rfl⟩
          · rw [hq]
            exact ⟨rfl, rfl⟩
        have after := inv.work kept
        split
        · exact after.withPass hp (hpass _ rfl).1 (hpass _ rfl).2
        · rename_i dj hdj
          obtain ⟨hgen, hrecords⟩ := after.pass p hp
          refine { after with pass := fun q hq => ?_ }
          cases hq
          refine ⟨(hpass _ rfl).1.trans hgen, fun id' => ?_⟩
          show Tells _ _ _ id' ((Function.update _ id (some (r.followed dj)) : Records) id') ∧ _
          rw [(hpass _ rfl).2]
          by_cases hid : id' = id
          · subst hid
            rw [Function.update_self]
            obtain ⟨tells, hbeside⟩ := hrecords id'
            rw [hr] at tells
            refine ⟨tells.followed ?_, Or.inr ?_⟩
            · rw [Record.part, hjid]
              exact hdj
            · rcases hbeside with ⟨hnone, -⟩ | ⟨stored, r', hstored, hr', beside⟩
              · rw [hr] at hnone
                cases hnone
              · rw [hr] at hr'
                cases hr'
                exact ⟨stored, _, hstored, Function.update_self .., beside.followed dj⟩
          · rw [Function.update_of_ne hid]
            refine ⟨(hrecords id').1, ?_⟩
            show BothOrNone _ ((Function.update p.records id _ : Records) id')
            rw [Function.update_of_ne hid]
            exact (hrecords id').2

/-- No null is stored by a write. -/
lemma Stored.merged {server : Records} (stored : Stored server) (records : Records) :
    Stored (MergePatch.mergeAll .null server records) := by
  intro id r hr
  cases hid : records id with
  | none =>
    rw [MergePatch.mergeAll_of_none hid] at hr
    exact stored id r hr
  | some p =>
    rw [MergePatch.mergeAll_of_some hid] at hr
    cases hr
    refine MergePatch.merge_ne_null fun k => ?_
    cases hs : server id with
    | none => simp
    | some r => exact stored id r hs k

/-- What a pass has read tells of the tries after it was written. -/
lemma Tells.merged {jobs : Jobs} {tries : List Try} {newest : ℤ} {id : DriveId}
    {server records : Records} (stored : Stored server)
    (tells : Tells jobs tries newest id (records id)) (both : BothOrNone (server id) (records id)) :
    Tells jobs tries newest id (MergePatch.mergeAll .null server records id) := by
  rcases both with ⟨hnone, hserver⟩ | ⟨old, r, hserver, hr, beside⟩
  · rw [MergePatch.mergeAll_of_none hnone, hserver, ← hnone]
    exact tells
  · rw [MergePatch.mergeAll_of_some hr, hserver, Option.getD_some]
    rw [hr] at tells
    exact tells.congr (beside.merged (stored id old hserver))

lemma Inv.stop {w : World} (inv : Inv w) (writes : Bool) : Inv (w.step (.stop writes)) := by
  cases hp : w.pass with
  | none =>
    show Inv (match w.pass with | none => w | some p => _)
    rw [hp]
    exact inv
  | some p =>
    show Inv (match w.pass with | none => w | some p => _)
    rw [hp]
    refine { inv with stored := ?_, server := fun id => ?_, pass := fun q hq => by cases hq }
    · show Stored (w.written p.records writes)
      cases writes
      · exact inv.stored
      · exact inv.stored.merged p.records
    · show Tells _ _ _ id (w.written p.records writes id)
      cases writes
      · exact inv.server id
      · exact ((inv.pass p hp).2 id).1.merged inv.stored ((inv.pass p hp).2 id).2

/-! ### Writes that change nothing -/

/-- A status that is the last one written is not sent again; sent again it would change nothing. -/
lemma written_again (w : World) (records : Records) (server : Records)
    (hserver : server = w.written records true) :
    ({ w with server := server } : World).written records true = server := by
  rw [hserver]
  exact MergePatch.mergeAll_again

/-- A pass that ends before it has followed a job changes nothing, whether it writes or not. -/
lemma stop_unread {w : World} {p : Pass} (inv : Inv w) (hp : w.pass = some p)
    (hread : p.records = w.server) (writes : Bool) :
    w.step (.stop writes) = { w with pass := none } := by
  have hwritten : w.written p.records writes = w.server := by
    cases writes
    · rfl
    · rw [hread]
      exact MergePatch.mergeAll_self inv.stored
  show (match w.pass with
    | none => w
    | some p => { w with server := w.written p.records writes, pass := none }) = _
  rw [hp]
  dsimp only
  rw [hwritten]

/-! ## A decision -/

namespace World

variable {w : World} {p : Pass} {s : Sight} {d : Drive} {steps : List Step}

lemma mem_handed : (d, steps) ∈ w.handed p s ↔
    acts p s = true ∧ p.spec.dryRun = false ∧ d ∈ selected p s ∧ w.choose p s d = .run steps := by
  unfold handed
  by_cases hacts : acts p s = true ∧ ¬ p.spec.dryRun = true
  · rw [if_pos hacts, List.mem_filterMap]
    constructor
    · rintro ⟨d', hd', hrun⟩
      split at hrun
      · rename_i steps' hchoose
        cases hrun
        exact ⟨hacts.1, by simpa using hacts.2, hd', hchoose⟩
      · cases hrun
    · rintro ⟨-, -, hd, hchoose⟩
      exact ⟨d, hd, by rw [hchoose]⟩
  · rw [if_neg hacts]
    constructor
    · intro h
      cases h
    · rintro ⟨ha, hdry, -, -⟩
      exact absurd ⟨ha, by rw [hdry]; simp⟩ hacts

/-- What was checked of a drive that is run. -/
lemma choose_run (h : w.choose p s d = .run steps) :
    verdict p.spec d (inJob w.jobs d.id) = .run steps ∧
      retryBlocked (p.records d.id) (some p.generation) = none := by
  unfold choose at h
  split at h
  · cases h
  · cases h
  · rename_i steps' hverdict
    split at h
    · cases h
    · rename_i hretry
      split at h
      · cases h
      · split at h
        · cases h
        · cases h
          exact ⟨hverdict, by simpa using hretry⟩

lemma choose_of (hverdict : verdict p.spec d (inJob w.jobs d.id) = .run steps)
    (hretry : retryBlocked (p.records d.id) (some p.generation) = none)
    (hthrottled : w.throttled p s d = false)
    (hguard : ∃ ok, guard d steps false (s.contexts d) = .ok ok) :
    w.choose p s d = .run steps := by
  obtain ⟨ok, hok⟩ := hguard
  unfold choose
  simp [hverdict, hretry, hthrottled, hok]

/-- A drive that is run has no job queued or running. -/
lemma not_inJob_of_run (h : w.choose p s d = .run steps) : inJob w.jobs d.id = false := by
  by_contra hin
  rw [Bool.not_eq_false] at hin
  have hverdict := (choose_run h).1
  rw [hin, verdict_of_inJob] at hverdict
  cases hverdict

end World

/-- A part that is neither queued nor running. -/
lemma not_active {jobs : Jobs} {j : JobId} {id : DriveId} {dj : DriveJob}
    (hin : inJob jobs id = false) (h : partAt jobs j id = some dj) :
    dj.state ≠ .queued ∧ dj.state ≠ .running := by
  obtain ⟨job, hjob, hpart⟩ := Option.bind_eq_some_iff.mp h
  have hdrive : dj.drive = id := by simpa using List.find?_some hpart
  have hmem : dj ∈ job.drives := List.mem_of_find?_eq_some hpart
  have hall : ∀ x ∈ job.drives, x.drive = id → x.state ≠ .queued ∧ x.state ≠ .running := by
    simpa using List.any_eq_false.mp hin (j, job) (Jobs.get_eq_some_iff.mp hjob)
  exact hall dj hmem hdrive

namespace DecisionKept

variable {w : World} {p : Pass} {s : Sight}

/-- The record of a drive that is handed over does not block it. -/
lemma not_blocks (kept : DecisionKept w p s) {h : Drive × List Step} (hh : h ∈ w.handed p s)
    {r : Record} (hr : p.records h.1.id = some r) : ¬ r.Blocks w.jobs p.generation h.1.id := by
  obtain ⟨d, steps⟩ := h
  obtain ⟨-, -, -, hchoose⟩ := World.mem_handed.mp hh
  have hstate : endedBadly r.state = true → r.generation ≠ some p.generation :=
    retryBlocked_eq_none_iff.mp (World.choose_run hchoose).2 r hr
  rintro ⟨hgen, hbad⟩
  cases hpart : r.part w.jobs d.id with
  | none =>
    rw [hpart] at hbad
    exact hstate hbad hgen
  | some dj =>
    rw [hpart] at hbad
    refine hstate ?_ hgen
    rw [(kept.read (d, steps) hh r hr dj hpart).1]
    exact hbad

/-- Its job is not open. -/
lemma not_open (kept : DecisionKept w p s) {h : Drive × List Step} (hh : h ∈ w.handed p s)
    {r : Record} (hr : p.records h.1.id = some r) {dj : DriveJob}
    (hpart : r.part w.jobs h.1.id = some dj) : dj.state.finished = true := by
  obtain ⟨d, steps⟩ := h
  obtain ⟨-, -, -, hchoose⟩ := World.mem_handed.mp hh
  obtain ⟨j, -, hj⟩ := Option.bind_eq_some_iff.mp hpart
  obtain ⟨hqueued, hrunning⟩ := not_active (World.not_inJob_of_run hchoose) hj
  have hint := (kept.read (d, steps) hh r hr dj hpart).2
  cases hstate : dj.state with
  | queued => exact absurd hstate hqueued
  | running => exact absurd hstate hrunning
  | interrupted => exact absurd hstate hint
  | done | failed | refused | cancelled => rfl

/-- **The promise of a decision.** -/
theorem once (kept : DecisionKept w p s) (inv : Inv w) (hp : w.pass = some p) : Once w p s where
  again h hh t ht hid hgen := by
    obtain ⟨hnewest, hrecords⟩ := inv.pass p hp
    by_contra hbad
    rw [Bool.not_eq_false] at hbad
    obtain ⟨r, hr, hblocks⟩ := (hrecords h.1.id).1.bad t ht hid (hgen.trans hnewest) hbad
    rw [← hnewest] at hblocks
    exact kept.not_blocks hh hr hblocks
  soon hacts hdry d hd hnone steps hverdict hguard := by
    obtain ⟨hnewest, hrecords⟩ := inv.pass p hp
    refine World.mem_handed.mpr ⟨hacts, hdry, hd, World.choose_of hverdict ?_
      (kept.unthrottled d hd hnone steps hverdict hguard) hguard⟩
    rw [retryBlocked_eq_none_iff]
    intro r hr hbad hgen
    rw [hnewest] at hgen hnone
    rw [((hrecords d.id).1.free hnone r hr hgen).2] at hbad
    cases hbad

end DecisionKept

/-! ### The jobs that are made -/

section Submitted

variable {answers : List Step → Except String Job}

lemma get_made_of_ne {l : List (List Step)} {jobs : Jobs} {j : JobId}
    (h : ∀ steps ∈ l, ∀ job, answers steps = .ok job → job.id ≠ j) :
    (l.foldl (World.made answers) jobs).get j = jobs.get j := by
  induction l generalizing jobs with
  | nil => rfl
  | cons steps l ih =>
    rw [List.foldl_cons, ih fun steps' hmem => h steps' (List.mem_cons_of_mem _ hmem)]
    unfold World.made
    split
    · rename_i job hjob
      rw [Jobs.get_insert, if_neg fun heq => h steps List.mem_cons_self job hjob heq.symm]
    · rfl

lemma get_made_of_mem {l : List (List Step)} {jobs : Jobs} {steps : List Step} {job : Job}
    (hmem : steps ∈ l) (hjob : answers steps = .ok job)
    (huniq : ∀ steps' ∈ l, ∀ job', answers steps' = .ok job' → job'.id = job.id → steps' = steps) :
    (l.foldl (World.made answers) jobs).get job.id = some job := by
  induction l generalizing jobs with
  | nil => cases hmem
  | cons a l ih =>
    rw [List.foldl_cons]
    by_cases hin : steps ∈ l
    · exact ih hin fun steps' hmem' => huniq steps' (List.mem_cons_of_mem _ hmem')
    · have ha : a = steps := by
        rcases List.mem_cons.mp hmem with heq | hmem
        · exact heq.symm
        · exact absurd hmem hin
      subst ha
      rw [get_made_of_ne]
      · rw [World.made, hjob]
        show (jobs.insert job).get job.id = some job
        rw [Jobs.get_insert, if_pos rfl]
      · intro steps' hmem' job' hjob' heq
        exact hin (huniq steps' (List.mem_cons_of_mem _ hmem') job' hjob' heq ▸ hmem')

end Submitted

namespace DecisionKept

variable {w : World} {p : Pass} {s : Sight}

/-- The jobs of a hand-over leave those that are named. -/
lemma partAt_submitted (kept : DecisionKept w p s) {id : DriveId} {j : JobId}
    (hnames : w.Names id j) : partAt (w.submitted p s) j id = partAt w.jobs j id := by
  unfold partAt World.submitted
  rw [get_made_of_ne]
  intro steps hmem job hjob heq
  obtain ⟨h, hh, rfl⟩ := List.mem_map.mp (List.mem_dedup.mp hmem)
  exact (kept.fresh h hh job hjob).2.1 id (heq ▸ hnames)

/-- The job of a hand-over is there. -/
lemma get_submitted (kept : DecisionKept w p s) {h : Drive × List Step} (hh : h ∈ w.handed p s)
    {job : Job} (hjob : s.answers h.2 = .ok job) : (w.submitted p s).get job.id = some job := by
  refine get_made_of_mem (List.mem_dedup.mpr (List.mem_map_of_mem hh)) hjob ?_
  intro steps' hmem job' hjob' heq
  obtain ⟨h', hh', rfl⟩ := List.mem_map.mp (List.mem_dedup.mp hmem)
  exact (kept.fresh h hh job hjob).2.2 h' hh' job' hjob' heq

lemma workKept (kept : DecisionKept w p s) : WorkKept w (w.submitted p s) := by
  have known : ∀ j id dj, partAt w.jobs j id = some dj →
      partAt (w.submitted p s) j id = some dj := by
    intro j id dj hdj
    obtain ⟨job, hget, -⟩ := Option.bind_eq_some_iff.mp hdj
    unfold partAt World.submitted at *
    rw [get_made_of_ne]
    · exact hdj
    · intro steps hmem job' hjob' heq
      obtain ⟨h, hh, rfl⟩ := List.mem_map.mp (List.mem_dedup.mp hmem)
      have hnone := (kept.fresh h hh job' hjob').1
      rw [heq, hget] at hnone
      cases hnone
  exact
    { ended := fun j id dj dj' hdj _ hdj' => by
        rw [known j id dj hdj] at hdj'
        cases hdj'
        rfl
      told := fun j id dj hdj _ hnone => by
        rw [known j id dj hdj] at hnone
        cases hnone
      fresh := fun id j hnames hnone => by rw [kept.partAt_submitted hnames, hnone] }

/-- What a record is about is the same after a hand-over. -/
lemma part_submitted (kept : DecisionKept w p s) {id : DriveId} {r : Record} (hhas : w.Has id r) :
    r.part (w.submitted p s) id = r.part w.jobs id := by
  unfold Record.part
  cases hjob : r.job with
  | none => rfl
  | some j => exact kept.partAt_submitted (WorkKept.names_of_has hhas hjob)

end DecisionKept

/-! ### The records that are written -/

/-- A record that is stamped with a generation, and names no job. -/
structure Stamp (generation : ℤ) (r : Record) : Prop where
  job : r .job = none
  generation : r .generation = some (.number generation)
  state : ∃ st, r .state = some (.text st) ∧ endedBadly st = false

lemma stamp_skipped (d : Drive) (why : String) (generation : ℤ) :
    Stamp generation (skippedRecord d why generation) :=
  ⟨rfl, rfl, "skipped", rfl, by decide⟩

lemma stamp_planned (d : Drive) (steps : List Step) (generation : ℤ) :
    Stamp generation (plannedRecord d steps generation) :=
  ⟨rfl, rfl, "planned", rfl, by decide⟩

/-- A record that names no job leaves the one that is stored. -/
lemma merged_job {stored r : Record} (h : r .job = none) :
    Record.job (MergePatch.merge .null stored r) = stored.job := by
  rw [Record.job, Record.job, Record.text, Record.text, MergePatch.merge_of_none h]

/-- A record that names a job replaces the one that is stored. -/
lemma merged_job_of {stored r : Record} {j : JobId} (h : r .job = some (.text j)) :
    Record.job (MergePatch.merge .null stored r) = some j := by
  rw [Record.job, Record.text, MergePatch.merge_of_some h (by simp)]

lemma merged_generation {stored r : Record} {generation : ℤ}
    (h : r .generation = some (.number generation)) :
    Record.generation (MergePatch.merge .null stored r) = some generation := by
  rw [Record.generation, MergePatch.merge_of_some h (by simp)]

lemma merged_state {stored r : Record} {st : String} (h : r .state = some (.text st)) :
    Record.state (MergePatch.merge .null stored r) = st := by
  rw [Record.state, Record.text, MergePatch.merge_of_some h (by simp)]
  rfl

/-- The job that is stored is the one that the pass has read, if there is a record. -/
lemma BothOrNone.job {server records : Option Record} (both : BothOrNone server records) :
    Record.job (server.getD fun _ => none) = records.bind Record.job := by
  rcases both with ⟨hnone, hserver⟩ | ⟨old, r, hserver, hr, beside⟩
  · rw [hnone, hserver]
    rfl
  · rw [hserver, hr]
    show old.job = r.job
    rw [Record.job, Record.job, Record.text, Record.text, beside.job]

/-- **A drive that is skipped or planned** keeps what its record tells: of the generation, or of a
job that was done. -/
lemma Tells.stamped {jobs : Jobs} {tries : List Try} {newest : ℤ} {id : DriveId}
    {server records : Option Record} (tells : Tells jobs tries newest id records)
    (both : BothOrNone server records) {stamp : Record} (hstamp : Stamp newest stamp)
    (hold : ∀ r, records = some r → match r.part jobs id with
      | some dj => r.generation = some newest ∨ dj.state = .done
      | none => retryBlocked (some r) (some newest) = none) :
    Tells jobs tries newest id
      (some (MergePatch.merge .null (server.getD fun _ => none) stamp)) := by
  obtain ⟨st, hst, hnotbad⟩ := hstamp.state
  have hjob : Record.job (MergePatch.merge .null (server.getD fun _ => none) stamp) =
      records.bind Record.job := (merged_job hstamp.job).trans both.job
  have hgeneration : Record.generation (MergePatch.merge .null (server.getD fun _ => none) stamp) =
      some newest := merged_generation hstamp.generation
  have hstate : Record.state (MergePatch.merge .null (server.getD fun _ => none) stamp) = st :=
    merged_state hst
  generalize (MergePatch.merge Value.null (server.getD fun _ => none) stamp : Record) = m at *
  -- it is about the part that the record is about
  have hpart : ∀ r, records = some r → Record.part jobs id m = r.part jobs id := by
    intro r hr
    rw [hr] at hjob
    rw [Record.part, Record.part, hjob]
    rfl
  exact
    { bad := fun t ht hid hgen hbad => by
        obtain ⟨r, hr, hrgen, hblocks⟩ := tells.bad t ht hid hgen hbad
        refine ⟨m, rfl, hgeneration, ?_⟩
        have hrold := hold r hr
        rw [hpart r hr]
        cases hrpart : r.part jobs id with
        | some dj =>
          rw [hrpart] at hblocks
          exact hblocks
        | none =>
          rw [hrpart] at hblocks hrold
          exact absurd hrgen (retryBlocked_eq_none_iff.mp hrold r rfl hblocks)
      opened := fun t ht hid hgen dj hdj hopen => by
        obtain ⟨r, hr, hrjob, hrgen⟩ := tells.opened t ht hid hgen dj hdj hopen
        refine ⟨m, rfl, ?_, hgeneration⟩
        rw [hjob, hr]
        exact hrjob
      free := fun hnone r' hr' _ => by
        cases hr'
        refine ⟨fun dj hdj => ?_, by rw [hstate]; exact hnotbad⟩
        cases hrec : records with
        | none =>
          rw [hrec] at hjob
          rw [Record.part, hjob] at hdj
          cases hdj
        | some r =>
          have hrold := hold r hrec
          rw [hpart r hrec] at hdj
          rw [hdj] at hrold
          rcases hrold with hrgen | hdone
          · exact (tells.free hnone r hrec hrgen).1 dj hdj
          · exact hdone
      older := fun r' hr' g hg => by
        cases hr'
        rw [hgeneration] at hg
        cases hg
        exact le_refl _ }

/-! ### The status after a decision -/

namespace World

variable {w : World} {p : Pass} {s : Sight}

/-- What the record of a drive becomes. -/
lemma decided_cases (w : World) (p : Pass) (s : Sight) (id : DriveId) :
    w.decided p s id = p.records id ∨ w.decided p s id = none ∨
      (∃ d ∈ selected p s, d.id = id ∧ w.Stamps p s d ∧
        ∃ stamp, w.decided p s id = some stamp ∧ Stamp p.generation stamp) ∨
      ∃ h ∈ w.handed p s, h.1.id = id := by
  unfold decided
  cases hfind : (selected p s).find? fun d => decide (d.id = id) with
  | none =>
    dsimp only
    cases hr : p.records id with
    | none => exact Or.inl rfl
    | some r =>
      by_cases hjob : r.job.isSome = true
      · left
        rw [Option.filter_some, if_pos hjob]
      · right
        left
        rw [Option.filter_some, if_neg hjob]
  | some d =>
    have hd : d ∈ selected p s := List.mem_of_find?_eq_some hfind
    have hid : d.id = id := by simpa using List.find?_some hfind
    dsimp only
    cases hchoose : w.choose p s d with
    | leave => exact Or.inl rfl
    | skip why =>
      exact Or.inr (Or.inr (Or.inl ⟨d, hd, hid, Or.inl ⟨why, Or.inl hchoose⟩, _, rfl,
        stamp_skipped d why p.generation⟩))
    | refuse why =>
      exact Or.inr (Or.inr (Or.inl ⟨d, hd, hid, Or.inl ⟨why, Or.inr hchoose⟩, _, rfl,
        stamp_skipped d why p.generation⟩))
    | run steps =>
      dsimp only
      by_cases hacts : acts p s = true
      · rw [if_pos hacts]
        by_cases hdry : p.spec.dryRun = true
        · rw [if_pos hdry]
          exact Or.inr (Or.inr (Or.inl ⟨d, hd, hid, Or.inr ⟨hacts, hdry, steps, hchoose⟩, _, rfl,
            stamp_planned d steps p.generation⟩))
        · exact Or.inr (Or.inr (Or.inr ⟨(d, steps),
            mem_handed.mpr ⟨hacts, by simpa using hdry, hd, hchoose⟩, hid⟩))
      · rw [if_neg hacts]
        exact Or.inl rfl

/-- A drive is selected once. -/
lemma eq_of_selected (hids : (s.inventory.map Drive.id).Nodup) {d d' : Drive}
    (hd : d ∈ selected p s) (hd' : d' ∈ selected p s) (hid : d'.id = d.id) : d' = d :=
  List.inj_on_of_nodup_map hids (List.mem_filter.mp hd').1 (List.mem_filter.mp hd).1 hid

/-- A drive is handed over once. -/
lemma eq_of_handed (hids : (s.inventory.map Drive.id).Nodup) {h h' : Drive × List Step}
    (hh : h ∈ w.handed p s) (hh' : h' ∈ w.handed p s) (hid : h'.1.id = h.1.id) : h' = h := by
  obtain ⟨d, steps⟩ := h
  obtain ⟨d', steps'⟩ := h'
  obtain ⟨-, -, hd, hchoose⟩ := mem_handed.mp hh
  obtain ⟨-, -, hd', hchoose'⟩ := mem_handed.mp hh'
  obtain rfl : d' = d := eq_of_selected hids hd hd' hid
  rw [hchoose] at hchoose'
  cases hchoose'
  rfl

/-- The record of a drive that is handed over. -/
lemma decided_handed (hids : (s.inventory.map Drive.id).Nodup) {h : Drive × List Step}
    (hh : h ∈ w.handed p s) : w.decided p s h.1.id =
      some (handedRecord h.1 h.2 p.generation (s.answers h.2)) := by
  obtain ⟨d, steps⟩ := h
  obtain ⟨hacts, hdry, hd, hchoose⟩ := mem_handed.mp hh
  have hfind : (selected p s).find? (fun d' => decide (d'.id = d.id)) = some d := by
    obtain ⟨d', hd'⟩ : ∃ d', (selected p s).find? (fun d' => decide (d'.id = d.id)) = some d' := by
      rw [← Option.isSome_iff_exists, List.find?_isSome]
      exact ⟨d, hd, by simp⟩
    have hid : d'.id = d.id := by simpa using List.find?_some hd'
    rw [hd', eq_of_selected hids hd (List.mem_of_find?_eq_some hd') hid]
  unfold decided
  dsimp only
  rw [hfind]
  dsimp only
  rw [hchoose]
  dsimp only
  rw [if_pos hacts, if_neg (by simp [hdry])]

end World

/-- Tries of other drives do not matter. -/
lemma Tells.append {jobs : Jobs} {tries others : List Try} {newest : ℤ} {id : DriveId}
    {record : Option Record} (hothers : ∀ t ∈ others, t.drive ≠ id)
    (tells : Tells jobs tries newest id record) :
    Tells jobs (tries ++ others) newest id record := by
  have hmem : ∀ t ∈ tries ++ others, t.drive = id → t ∈ tries := fun t ht hid =>
    (List.mem_append.mp ht).resolve_right fun hin => hothers t hin hid
  exact
    { bad := fun t ht hid => tells.bad t (hmem t ht hid) hid
      opened := fun t ht hid => tells.opened t (hmem t ht hid) hid
      free := fun hnone => tells.free fun t ht => hnone t (List.mem_append_left _ ht)
      older := tells.older }

section Decide

variable {w : World} {p : Pass} {s : Sight}

/-- **The record of a drive that is handed over** tells of the hand-over. -/
lemma tells_handed (inv : Inv w) (hp : w.pass = some p) (kept : DecisionKept w p s)
    (hids : (s.inventory.map Drive.id).Nodup) {h : Drive × List Step} (hh : h ∈ w.handed p s) :
    Tells (w.submitted p s)
      (w.tries.map (Try.noted (w.submitted p s)) ++
        ((w.handed p s).map (World.tried p s)).map (Try.noted (w.submitted p s)))
      w.newest h.1.id
      (some (MergePatch.merge .null ((w.server h.1.id).getD fun _ => none)
        (handedRecord h.1 h.2 p.generation (s.answers h.2)))) := by
  set jobs := w.submitted p s with hjobs
  obtain ⟨hnewest, hrecords⟩ := inv.pass p hp
  have tells := (hrecords h.1.id).1.work kept.workKept inv.noted fun _ hr => Or.inr ⟨p, hp, hr⟩
  have both := (hrecords h.1.id).2
  have hhas : ∀ r, p.records h.1.id = some r → w.Has h.1.id r := fun r hr => Or.inr ⟨p, hp, hr⟩
  -- no try of before is in the way
  have holdbad : ∀ t ∈ w.tries.map (Try.noted jobs), t.drive = h.1.id → t.generation = w.newest →
      t.bad = false := by
    intro t ht hid hgen
    by_contra hbad
    rw [Bool.not_eq_false] at hbad
    obtain ⟨r, hr, hrgen, hblocks⟩ := tells.bad t ht hid hgen hbad
    refine kept.not_blocks hh hr ⟨hrgen.trans (by rw [hnewest]), ?_⟩
    rw [kept.part_submitted (hhas r hr)] at hblocks
    exact hblocks
  have holdopen : ∀ t ∈ w.tries.map (Try.noted jobs), t.drive = h.1.id →
      t.generation = w.newest → ∀ dj, t.part jobs = some dj → dj.state.finished = true := by
    intro t ht hid hgen dj hdj
    by_contra hopen
    rw [Bool.not_eq_true] at hopen
    obtain ⟨r, hr, hjob, -⟩ := tells.opened t ht hid hgen dj hdj hopen
    have hpart : r.part w.jobs h.1.id = some dj := by
      rw [← kept.part_submitted (hhas r hr), Record.part, hjob, ← hid]
      exact hdj
    rw [kept.not_open hh hr hpart] at hopen
    cases hopen
  -- the try that is new
  have hsplit : ∀ t ∈ w.tries.map (Try.noted jobs) ++
      ((w.handed p s).map (World.tried p s)).map (Try.noted jobs), t.drive = h.1.id →
      t ∈ w.tries.map (Try.noted jobs) ∨ t = (World.tried p s h).noted jobs := by
    intro t ht hid
    rcases List.mem_append.mp ht with hold | hnew
    · exact Or.inl hold
    · obtain ⟨t', ht', rfl⟩ := List.mem_map.mp hnew
      obtain ⟨h', hh', rfl⟩ := List.mem_map.mp ht'
      rw [World.eq_of_handed hids hh hh' hid]
      exact Or.inr rfl
  have hnew : (World.tried p s h).noted jobs ∈ w.tries.map (Try.noted jobs) ++
      ((w.handed p s).map (World.tried p s)).map (Try.noted jobs) :=
    List.mem_append_right _ (List.mem_map_of_mem (List.mem_map_of_mem hh))
  have hfree : ∀ m : Record, (∀ t ∈ w.tries.map (Try.noted jobs) ++
      ((w.handed p s).map (World.tried p s)).map (Try.noted jobs), t.drive = h.1.id →
        t.generation ≠ w.newest) → m.Clean jobs h.1.id :=
    fun m hnone => absurd hnewest (hnone _ hnew rfl)
  cases hanswer : s.answers h.2 with
  | ok job =>
    set m : Record := MergePatch.merge .null ((w.server h.1.id).getD fun _ => none)
      (handedRecord h.1 h.2 p.generation (.ok job)) with hm
    have hjob : m.job = some job.id := merged_job_of rfl
    have hgen : m.generation = some w.newest := by
      rw [← hnewest]
      exact merged_generation rfl
    have hpart : m.part jobs h.1.id = part job h.1.id := by
      rw [Record.part, hjob]
      show (jobs.get job.id).bind _ = _
      rw [hjobs, kept.get_submitted hh hanswer]
      rfl
    have htried : (World.tried p s h).job = some job.id := by
      simp only [World.tried, hanswer]
    have htriedpart : (World.tried p s h).part jobs = part job h.1.id := by
      rw [← hpart, Try.part, htried, Record.part, hjob]
      rfl
    exact
      { bad := fun t ht hid hgen' hbad => by
          rcases hsplit t ht hid with hold | rfl
          · rw [holdbad t hold hid hgen'] at hbad
            cases hbad
          · refine ⟨m, rfl, hgen, ?_⟩
            rw [hpart]
            have hor : ((World.tried p s h).bad || ((World.tried p s h).part jobs).any fun dj =>
                endedBadly (djWord dj.state)) = true := hbad
            have hthis : (World.tried p s h).bad =
                (part job h.1.id).any fun dj => endedBadly (djWord dj.state) := by
              simp only [World.tried, hanswer]
            rw [htriedpart, hthis, Bool.or_self] at hor
            cases hdj : part job h.1.id with
            | none =>
              rw [hdj] at hor
              cases hor
            | some dj =>
              rw [hdj] at hor
              exact hor
        opened := fun t ht hid hgen' dj hdj hopen => by
          rcases hsplit t ht hid with hold | rfl
          · rw [holdopen t hold hid hgen' dj hdj] at hopen
            cases hopen
          · exact ⟨m, rfl, hjob.trans htried.symm, hgen⟩
        free := fun hnone r hr _ => hfree r hnone
        older := fun r hr g hg => by
          cases hr
          rw [hgen] at hg
          cases hg
          exact le_refl _ }
  | error e =>
    set m : Record := MergePatch.merge .null ((w.server h.1.id).getD fun _ => none)
      (handedRecord h.1 h.2 p.generation (.error e)) with hm
    have hjob : m.job = (p.records h.1.id).bind Record.job := (merged_job rfl).trans both.job
    have hgen : m.generation = some w.newest := by
      rw [← hnewest]
      exact merged_generation rfl
    have hstate : m.state = "refused" := merged_state rfl
    have htried : (World.tried p s h).job = none := by
      simp only [World.tried, hanswer]
    exact
      { bad := fun t ht hid hgen' hbad => by
          refine ⟨m, rfl, hgen, ?_⟩
          cases hdj : m.part jobs h.1.id with
          | none =>
            show endedBadly m.state = true
            rw [hstate]
            decide
          | some dj =>
            obtain ⟨j, hj, hpart⟩ := Option.bind_eq_some_iff.mp hdj
            rw [hjob] at hj
            obtain ⟨r, hr, hrjob⟩ := Option.bind_eq_some_iff.mp hj
            refine kept.refused h hh e hanswer r hr dj ?_
            rw [← kept.part_submitted (hhas r hr), Record.part, hrjob]
            exact hpart
        opened := fun t ht hid hgen' dj hdj hopen => by
          rcases hsplit t ht hid with hold | rfl
          · rw [holdopen t hold hid hgen' dj hdj] at hopen
            cases hopen
          · have hnone : ((World.tried p s h).noted jobs).part jobs = none := by
              show (World.tried p s h).job.bind _ = none
              rw [htried]
              rfl
            rw [hnone] at hdj
            cases hdj
        free := fun hnone r hr _ => hfree r hnone
        older := fun r hr g hg => by
          cases hr
          rw [hgen] at hg
          cases hg
          exact le_refl _ }

/-- **A decision keeps what stays true.** -/
theorem Inv.conclude (inv : Inv w) (hp : w.pass = some p) (kept : DecisionKept w p s)
    (hids : (s.inventory.map Drive.id).Nodup) : Inv (w.conclude p s) := by
  obtain ⟨hnewest, hrecords⟩ := inv.pass p hp
  have hsplit : (w.tries ++ (w.handed p s).map (World.tried p s)).map
        (Try.noted (w.submitted p s)) =
      w.tries.map (Try.noted (w.submitted p s)) ++
        ((w.handed p s).map (World.tried p s)).map (Try.noted (w.submitted p s)) :=
    List.map_append
  refine
    { stored := ?_
      noted := noted_map _ _
      newest := generation_noted fun t ht => ?_
      server := fun id => ?_
      pass := fun q hq => by cases hq }
  · show Stored (w.written (w.decided p s) s.writes)
    unfold World.written
    split
    · exact inv.stored.merged _
    · exact inv.stored
  · rcases List.mem_append.mp ht with hold | hnew
    · exact inv.newest t hold
    · obtain ⟨h, -, rfl⟩ := List.mem_map.mp hnew
      exact le_of_eq hnewest
  · show Tells (w.submitted p s)
      ((w.tries ++ (w.handed p s).map (World.tried p s)).map (Try.noted (w.submitted p s)))
      w.newest id (w.written (w.decided p s) s.writes id)
    rw [hsplit]
    by_cases hh : ∃ h ∈ w.handed p s, h.1.id = id
    · obtain ⟨h, hh, rfl⟩ := hh
      have hwrites : s.writes = true := kept.written (List.ne_nil_of_mem hh)
      rw [World.written, if_pos hwrites, MergePatch.mergeAll_of_some (World.decided_handed hids hh)]
      exact tells_handed inv hp kept hids hh
    · refine Tells.append (fun t ht hid => ?_) ?_
      · obtain ⟨t', ht', rfl⟩ := List.mem_map.mp ht
        obtain ⟨h, hmem, rfl⟩ := List.mem_map.mp ht'
        exact hh ⟨h, hmem, hid⟩
      · have server := (inv.server id).work kept.workKept inv.noted fun _ hr => Or.inl hr
        have tells := (hrecords id).1.work kept.workKept inv.noted fun _ hr => Or.inr ⟨p, hp, hr⟩
        unfold World.written
        by_cases hwrites : s.writes = true
        · rw [if_pos hwrites]
          rcases World.decided_cases w p s id with
            hsame | hnone | ⟨d, hd, rfl, hstamps, stamp, hdecided, hstamp⟩ | ⟨h, hmem, hid⟩
          · rw [← hsame] at tells
            exact tells.merged inv.stored (hsame ▸ (hrecords id).2)
          · rw [MergePatch.mergeAll_of_none hnone]
            exact server
          · rw [MergePatch.mergeAll_of_some hdecided]
            rw [hnewest] at hstamp
            refine tells.stamped (hrecords d.id).2 hstamp fun r hr => ?_
            rw [kept.part_submitted (Or.inr ⟨p, hp, hr⟩), ← hnewest]
            exact kept.stamped d hd hstamps r hr
          · exact absurd ⟨h, hmem, hid⟩ hh
        · rw [if_neg hwrites]
          exact server

end Decide

/-! ## Every run -/

/-- **Every step that meets the condition keeps what stays true.** -/
theorem inv_step {w : World} {e : Event} (inv : Inv w) (listed : Listed w e) (kept : Kept w e) :
    Inv (w.step e) := by
  cases e with
  | work jobs => exact inv.work kept
  | restart => exact { inv with pass := fun q hq => by cases hq }
  | start generation spec who => exact inv.start listed spec who
  | follow id =>
    show Inv (match w.pass with | none => w | some p => w.followJob p id)
    cases hp : w.pass with
    | none => exact inv
    | some p => exact inv.followJob hp id
  | stop writes => exact inv.stop writes
  | decide s =>
    show Inv (match w.pass with | none => w | some p => w.conclude p s)
    cases hp : w.pass with
    | none => exact inv
    | some p => exact inv.conclude hp (kept p hp) listed.1

end Policy

end StormDrive
