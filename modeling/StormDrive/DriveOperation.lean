import StormDrive.Daemon.Operations
import StormDrive.Interleave.MergePatch
import StormDrive.Interleave.Runs

set_option relaxedAutoImplicit false
set_option autoImplicit false

/-!
# Drive operations

A `DriveOperation` object asks for one job of the drive worker. The controller finds the job of an
object by the object's name, writes its state as the object's status, and submits a job where there
is none (`controller.rs`).

## Main definitions

* `DriveOperation.Object`, `DriveOperation.byOperation` — an object, and the job of a name.
* `DriveOperation.World.run` — what the controller does with one object; `DriveOperation.Ran` —
  case by case.
* `DriveOperation.World.step` — the objects, the worker's jobs and what was last written, through
  what happens.
* `DriveOperation.Own` — what is promised of an object.
* `DriveOperation.Kept` — a name is not used again while there is something of it.

## Main results

* `DriveOperation.own_of_kept` — **in a run whose names are kept an object is submitted once, and
  its status is that of its own job**.
* `DriveOperation.false_success` — an object that is made under the name of an older one succeeds
  without a job.

## Implementation notes

Objects change between the passes of the controller, which takes each of them in one step. They are
those of this node, not being deleted. The events and the audit lines of the controller and the time
stamps of a job are left out.
-/

namespace StormDrive

namespace DriveOperation

/-! ## The status -/

/-- One drive in the status of an object. -/
structure Row where
  drive : String
  name : String
  serial : String
  wwn : Option String
  state : DjState
  step : ℕ
  phase : String
  progressPct : Option ℕ
  error : Option String
  done : List String
  deriving DecidableEq

/-- The keys of a status. -/
inductive Key
  | phase | message | job | requester | observedGeneration | resumed | steps | drives | plan
  deriving DecidableEq

/-- A value under a key. -/
inductive Value
  | null
  | text (s : String)
  | number (n : ℤ)
  | texts (l : List String)
  | rows (l : List Row)
  deriving DecidableEq

/-- A status as the server has it. -/
abbrev Status := Key → Option Value

/-- A status as it is written. -/
abbrev Patch := List (Key × Value)

/-- The members of a status that is written. -/
def members (st : Patch) : Status := fun k => st.lookup k

/-- The text under a key. -/
def text (s : Status) (k : Key) : Option String :=
  match s k with
  | some (.text t) => some t
  | _ => none

/-- The number under a key. -/
def number (s : Status) (k : Key) : Option ℤ :=
  match s k with
  | some (.number n) => some n
  | _ => none

/-! ## Objects and their jobs -/

/-- The spec of an object past `resume`, as a job request or why it is none. -/
inductive Body
  | request (r : Request)
  | invalid (why : String)
  deriving DecidableEq

/-- A `DriveOperation` object. Beside it, whether it was edited since it was last submitted,
otherwise than in `resume`. -/
structure Object where
  uid : String
  generation : ℤ
  body : Body
  resume : ℕ
  status : Status
  edited : Bool

/-- The objects, the worker's jobs with the operation each was made for, and the status that was
last written for each name. Beside it, the object that each job was made for, what was submitted
(uids and generations), and the uids there have been. -/
structure World where
  objects : String → Option Object
  jobs : Jobs
  operation : JobId → Option String
  shown : String → Option Patch
  owner : JobId → Option String
  submissions : List (String × ℤ)
  uids : List String

/-- The job a DriveOperation started, by the operation's name: the last by id. -/
def byOperation (w : World) (name : String) : Option Job :=
  (w.jobs.entries.reverse.find? fun e => w.operation e.1 = some name).map Prod.snd

/-- What the controller meets: the requester, re-checked; the worker's answer to a dry run, as how
many drives would run, how many are refused, and the plan; its answer to a submission; and whether
the status is written. -/
structure Sight where
  requester : Except (String × String) Requester
  planned : Except String (ℕ × ℕ × String)
  made : Except String Job
  writes : Bool

/-- A job's state as a DriveOperation phase and one-line message. -/
def phaseOf (job : Job) : String × String :=
  let n (s : DjState) := (job.drives.filter fun d => d.state = s).length
  let message := toString (n .done) ++ "/" ++ toString job.drives.length ++ " done, " ++
    toString (n .failed) ++ " failed, " ++ toString (n .refused) ++ " refused, " ++
    toString (n .cancelled) ++ " cancelled, " ++ toString (n .interrupted) ++ " interrupted"
  let phase :=
    if n .queued + n .running > 0 then "Running"
    else if n .interrupted > 0 then "Interrupted"
    else if n .failed > 0 then "Failed"
    else if n .done > 0 then "Succeeded"
    else if n .cancelled > 0 then "Cancelled"
    else "Failed"
  (phase, message)

/-- A drive's part of a job, as the status has it. -/
def row (d : DriveJob) : Row :=
  { drive := d.drive.uuid.text, name := d.name, serial := d.serial, wwn := d.wwn, state := d.state
    step := d.step, phase := d.phase, progressPct := d.progressPct, error := d.error
    done := d.done }

/-- `status` for an operation whose job exists. -/
def statusOf (job : Job) (observed : ℤ) (resumed : ℕ) : Patch :=
  [(.phase, .text (phaseOf job).1), (.message, .text (phaseOf job).2), (.job, .text job.id),
    (.requester, (job.requester.elim .null fun r => .text r.who)),
    (.observedGeneration, .number observed), (.resumed, .number resumed),
    (.steps, .texts (job.steps.map Step.describe)), (.drives, .rows (job.drives.map row))]

/-- `status` for an operation that has no job. -/
def statusWithout (phase message : String) (who : Option Requester) (generation : ℤ) : Patch :=
  [(.phase, .text phase), (.message, .text message)] ++
    (who.toList.map fun r => (.requester, .text r.who)) ++
    [(.observedGeneration, .number generation)]

/-- Already answered: refused, planned, or a job since pruned. -/
def answered (o : Object) : Bool :=
  (text o.status .phase).any (· ≠ "Pending") &&
    number o.status .observedGeneration = some o.generation

/-- What `spec.resume` was at when it was last followed. -/
def resumedBefore (o : Object) : ℕ := ((number o.status .resumed).map Int.toNat).getD 0

namespace World

/-- The object is another one. -/
def setObject (w : World) (name : String) (o : Option Object) : World :=
  { w with objects := Function.update w.objects name o }

/-- Write a status, when it is not the one last written. -/
def put (w : World) (name : String) (st : Patch) (writes : Bool) : World :=
  if w.shown name = some st then w
  else if writes then
    match w.objects name with
    | none => w
    | some o =>
      { w.setObject name (some { o with status := MergePatch.merge .null o.status (members st) })
        with shown := Function.update w.shown name (some st) }
  else w

/-- The object is submitted to the worker: it has no job, it was not answered, its requester is
accepted and its spec is a request. -/
def submits (w : World) (name : String) (o : Object) (s : Sight) : Bool :=
  (byOperation w name).isNone && !answered o &&
    (match s.requester with
      | .ok _ => true
      | .error _ => false) &&
    (match o.body with
      | .request _ => true
      | .invalid _ => false)

/-- The job that a submission makes: none for a dry run, and none when all is refused. -/
def newJob (o : Object) (s : Sight) : Option Job :=
  match o.body with
  | .invalid _ => none
  | .request r =>
    if r.dryRun then none
    else match s.made with
      | .ok job => some job
      | .error _ => none

/-- A submission is noted. -/
def noted (w : World) (name : String) (o : Object) : World :=
  { w.setObject name (some { o with edited := false }) with
    submissions := (o.uid, o.generation) :: w.submissions }

/-- A job was made for an object. -/
def withJob (w : World) (name : String) (o : Object) (job : Job) : World :=
  { w with
    jobs := w.jobs.insert job
    operation := Function.update w.operation job.id (some name)
    owner := Function.update w.owner job.id (some o.uid) }

/-- What the controller does with an object, and the status that it then writes. -/
def run (w : World) (name : String) (o : Object) (s : Sight) : World × Option Patch :=
  match byOperation w name with
  | some job =>
    let resumed := resumedBefore o
    if o.resume > resumed ∧ job.drives.any fun d => d.state = .interrupted then
      match s.requester with
      | .error (_, why) => (w, some [(.resumed, .number o.resume), (.message, .text why)])
      | .ok who =>
        let jobs := w.jobs.update job.id (Job.resumeFor who) (Job.resumeFor_id who)
        let w := { w with jobs := jobs }
        (w, some (statusOf ((jobs.get job.id).getD job) o.generation o.resume))
    else
      (w, some (statusOf job o.generation (if o.resume > resumed then o.resume else resumed)))
  | none =>
    if answered o then (w, none)
    else
      match s.requester with
      | .error (phase, why) => (w, some (statusWithout phase why none o.generation))
      | .ok who =>
        match o.body with
        | .invalid e => (w, some (statusWithout "Refused" ("spec: " ++ e) (some who) o.generation))
        | .request r =>
          let w := w.noted name o
          if r.dryRun then
            match s.planned with
            | .ok (runnable, refused, plan) =>
              let message := "dry run: " ++ toString runnable ++ " drive(s) would run, " ++
                toString refused ++ " refused"
              (w, some (statusWithout "Planned" message (some who) o.generation ++
                [(.plan, .text plan)]))
            | .error e => (w, some (statusWithout "Refused" e (some who) o.generation))
          else
            match s.made with
            | .ok job =>
              (w.withJob name o job, some (statusOf job o.generation o.resume))
            | .error e => (w, some (statusWithout "Refused" e (some who) o.generation))

/-- What happens to an operation: the controller takes it up. -/
def operate (w : World) (name : String) (o : Object) (s : Sight) : World :=
  match w.run name o s with
  | (w, none) => w
  | (w, some st) => w.put name st s.writes

/-- Is the job not finished, and its object gone? -/
def orphaned (w : World) (j : Job) : Bool :=
  !j.finished && (w.operation j.id).any fun name => (w.objects name).isNone

/-- A deleted operation stops: its queued steps are cancelled. -/
def sweep (w : World) : World :=
  { w with
    jobs := w.jobs.updateAll (fun j => if w.orphaned j then j.cancelled else j) fun j => by
      split <;> rfl
    shown := fun name =>
      if w.jobs.entries.any fun e => w.orphaned e.2 && w.operation e.1 = some name then none
      else w.shown name }

end World

/-- What happens. -/
inductive Event
  | create (name uid : String) (generation : ℤ) (body : Body) (resume : ℕ)
  | edit (name : String) (body : Body) (resume : ℕ)
  | delete (name : String)
  /-- The worker's jobs change: they go on, are cancelled, pruned, read back. -/
  | work (jobs : Jobs)
  | restart
  | operation (name : String) (s : Sight)
  /-- The end of a pass. -/
  | sweep

namespace World

/-- An object with another spec. One that differs is another generation. -/
def edited (o : Object) (body : Body) (resume : ℕ) : Object :=
  { o with
    generation := if o.body = body ∧ o.resume = resume then o.generation else o.generation + 1
    body := body
    resume := resume
    edited := o.edited || decide (o.body ≠ body) }

def step (w : World) : Event → World
  | .create name uid generation body resume =>
    { w.setObject name (some ⟨uid, generation, body, resume, fun _ => none, false⟩) with
      uids := uid :: w.uids }
  | .edit name body resume => w.setObject name ((w.objects name).map (edited · body resume))
  | .delete name => w.setObject name none
  | .work jobs => { w with jobs := jobs }
  | .restart => { w with shown := fun _ => none }
  | .operation name s =>
    match w.objects name with
    | none => w
    | some o => w.operate name o s
  | .sweep => w.sweep

/-- A controller that has met no object yet, on a worker with jobs of no operation. -/
def first (jobs : Jobs) : World :=
  ⟨fun _ => none, jobs, fun _ => none, fun _ => none, fun _ => none, [], []⟩

end World

/-! ## What is promised, and when it holds -/

/-- **What is promised of an object** when the controller takes it up. -/
structure OwnStep (w : World) (name : String) (o : Object) (s : Sight) : Prop where
  /-- It is submitted once in a generation. -/
  once : w.submits name o s = true → (o.uid, o.generation) ∉ w.submissions
  /-- Raising `resume` does not submit it again. -/
  resume : w.submits name o s = true → (∃ g, (o.uid, g) ∈ w.submissions) → o.edited = true
  /-- The status that is written is that of its own job. -/
  own : ∀ st, (w.run name o s).2 = some st → ∀ j, st.lookup .job = some (.text j) →
    (w.run name o s).1.owner j = some o.uid
  /-- The object shows it, if the server takes it. -/
  shows : ∀ st, (w.run name o s).2 = some st → s.writes = true →
    ∃ o', (w.operate name o s).objects name = some o' ∧
      o'.status = MergePatch.merge .null o.status (members st)

/-- The promise of a step. -/
def Own (w : World) : Event → Prop
  | .operation name s => ∀ o ∈ w.objects name, OwnStep w name o s
  | _ => True

/-- A job of the worker that was made for an operation. -/
def World.Has (w : World) (name : String) (j : JobId) : Prop :=
  (w.jobs.get j).isSome = true ∧ w.operation j = some name

/-- The events that can be: an object is made under a name that is free, with a uid of its own. -/
def Listed (w : World) : Event → Prop
  | .create name uid _ _ _ => w.objects name = none ∧ uid ∉ w.uids
  | _ => True

/-- What the worker keeps of the operations. A job whose object is still there, and was not edited
since, is forgotten only when the object shows an answer or has another job; and none comes up
again. -/
structure WorkKept (w : World) (jobs : Jobs) : Prop where
  answered : ∀ name j, w.Has name j → jobs.get j = none → ∀ o, w.objects name = some o →
    answered o = true ∨ o.edited = true ∨
      ∃ j', (jobs.get j').isSome = true ∧ w.operation j' = some name
  gone : ∀ j, w.operation j ≠ none → w.jobs.get j = none → jobs.get j = none

/-- **The condition.** An object is made under a name of which the worker has no job and the
controller no status; `resume` alone is changed while the object has a job or was edited otherwise;
the worker keeps its jobs; a job that is made has a new name; and the status of a submission that
made no job is written. -/
def Kept (w : World) : Event → Prop
  | .create name _ _ _ _ => (∀ j, ¬ w.Has name j) ∧ w.shown name = none
  | .edit name body resume => ∀ o ∈ w.objects name, o.body = body → o.resume ≠ resume →
      (∃ g, (o.uid, g) ∈ w.submissions) → (∃ j, w.Has name j) ∨ o.edited = true
  | .work jobs => WorkKept w jobs
  | .operation name s => ∀ o ∈ w.objects name, w.submits name o s = true →
      match World.newJob o s with
      | some job => w.operation job.id = none
      | none => s.writes = true
  | _ => True

/-- The promise, for the runs whose steps meet a condition. -/
def OwnJobs (ok : World → Event → Prop) : Prop :=
  ∀ (jobs : Jobs) (es : List Event), Runs.Each World.step Listed (World.first jobs) es →
    Runs.Each World.step ok (World.first jobs) es → Runs.Each World.step Own (World.first jobs) es

/-! ## What the controller does with an object -/

section Jobs

variable {w : World} {name : String}

/-- The job of a name is one of its jobs. -/
lemma has_of_byOperation {job : Job} (h : byOperation w name = some job) :
    w.jobs.get job.id = some job ∧ w.operation job.id = some name := by
  obtain ⟨e, he, rfl⟩ := Option.map_eq_some_iff.mp h
  have hop : w.operation e.1 = some name := by simpa using List.find?_some he
  have hmem : e ∈ w.jobs.entries := List.mem_reverse.mp (List.mem_of_find?_eq_some he)
  have hid : e.2.id = e.1 := w.jobs.keyed e hmem
  rw [hid]
  exact ⟨Jobs.get_eq_some_iff.mpr hmem, hop⟩

/-- Without a job of the name there is none. -/
lemma not_has_of_byOperation (h : byOperation w name = none) (j : JobId) : ¬ w.Has name j := by
  rintro ⟨hget, hop⟩
  obtain ⟨job, hjob⟩ := Option.isSome_iff_exists.mp hget
  have hnone := Option.map_eq_none_iff.mp h
  have hmem : (j, job) ∈ w.jobs.entries.reverse :=
    List.mem_reverse.mpr (Jobs.get_eq_some_iff.mp hjob)
  have := List.find?_eq_none.mp hnone (j, job) hmem
  exact this (by simpa using hop)

end Jobs

/-- **What the controller does with an object**, case by case. -/
inductive Ran (w : World) (name : String) (o : Object) (s : Sight) : World × Option Patch → Prop
  /-- It has a job, which may be asked to go on. -/
  | followed (job : Job) (jobs : Jobs) (st : Patch) (hjob : byOperation w name = some job)
      (hjobs : ∀ j, (jobs.get j).isSome = (w.jobs.get j).isSome)
      (own : ∀ j, st.lookup .job = some (.text j) → j = job.id) :
      Ran w name o s ({ w with jobs := jobs }, some st)
  | answered (hjob : byOperation w name = none) (hanswered : answered o = true) :
      Ran w name o s (w, none)
  /-- Its requester is not accepted, or its spec is no request. -/
  | refused (st : Patch) (hjob : byOperation w name = none) (hanswered : answered o = false)
      (hno : w.submits name o s = false) (own : st.lookup .job = none) :
      Ran w name o s (w, some st)
  | made (job : Job) (hsubmits : w.submits name o s = true) (hjob : World.newJob o s = some job) :
      Ran w name o s ((w.noted name o).withJob name o job,
        some (statusOf job o.generation o.resume))
  /-- A dry run, or all is refused. -/
  | unmade (st : Patch) (hsubmits : w.submits name o s = true) (hjob : World.newJob o s = none)
      (own : st.lookup .job = none) (phase : ∃ p, st.lookup .phase = some (.text p) ∧ p ≠ "Pending")
      (observed : st.lookup .observedGeneration = some (.number o.generation)) :
      Ran w name o s (w.noted name o, some st)

lemma lookup_statusOf_job (job : Job) (observed : ℤ) (resumed : ℕ) :
    (statusOf job observed resumed).lookup .job = some (.text job.id) := rfl

lemma lookup_statusWithout (phase message : String) (who : Option Requester) (generation : ℤ)
    (more : Patch) :
    (statusWithout phase message who generation ++ more).lookup .job = more.lookup .job ∧
      (statusWithout phase message who generation ++ more).lookup .phase = some (.text phase) ∧
      (statusWithout phase message who generation ++ more).lookup .observedGeneration =
        some (.number generation) := by
  cases who with
  | none => exact ⟨rfl, rfl, rfl⟩
  | some who => exact ⟨rfl, rfl, rfl⟩

/-- What is asked to go on is there as before. -/
lemma isSome_update (jobs : Jobs) (id : JobId) (f : Job → Job) (hf : ∀ j, (f j).id = j.id)
    (j : JobId) : ((jobs.update id f hf).get j).isSome = (jobs.get j).isSome := by
  rw [Jobs.get_update]
  split
  · rw [Option.isSome_map]
  · rfl

/-- **Every case.** -/
theorem ran (w : World) (name : String) (o : Object) (s : Sight) :
    Ran w name o s (w.run name o s) := by
  have nothing : ∀ phase message who generation,
      (statusWithout phase message who generation).lookup .job = none := by
    intro phase message who generation
    have := (lookup_statusWithout phase message who generation []).1
    rwa [List.append_nil] at this
  unfold World.run
  cases hjob : byOperation w name with
  | some job =>
    dsimp only
    split
    · cases hreq : s.requester with
      | error refusal =>
        exact .followed job w.jobs _ hjob (fun _ => rfl) fun j hj => by cases hj
      | ok who =>
        refine .followed job _ _ hjob (isSome_update w.jobs job.id _ _) fun j hj => ?_
        rw [lookup_statusOf_job] at hj
        cases hj
        cases hget :
          (w.jobs.update job.id (Job.resumeFor who) (Job.resumeFor_id who)).get job.id with
        | none => rfl
        | some job' => exact Jobs.id_of_get hget
    · refine .followed job w.jobs _ hjob (fun _ => rfl) fun j hj => ?_
      rw [lookup_statusOf_job] at hj
      cases hj
      rfl
  | none =>
    dsimp only
    by_cases hans : answered o = true
    · rw [if_pos hans]
      exact .answered hjob hans
    · rw [if_neg hans]
      have hans' : answered o = false := by simpa using hans
      cases hreq : s.requester with
      | error refusal =>
        exact .refused _ hjob hans' (by simp [World.submits, hreq]) (nothing _ _ _ _)
      | ok who =>
        dsimp only
        cases hbody : o.body with
        | invalid e =>
          exact .refused _ hjob hans' (by simp [World.submits, hbody]) (nothing _ _ _ _)
        | request r =>
          have hsubmits : w.submits name o s = true := by
            simp [World.submits, hjob, hans', hreq, hbody]
          dsimp only
          by_cases hdry : r.dryRun = true
          · rw [if_pos hdry]
            have hnew : World.newJob o s = none := by
              rw [World.newJob, hbody]
              exact if_pos hdry
            cases s.planned with
            | ok answer =>
              obtain ⟨hjobkey, hphase, hobserved⟩ := lookup_statusWithout "Planned"
                ("dry run: " ++ toString answer.1 ++ " drive(s) would run, " ++
                  toString answer.2.1 ++ " refused") (some who) o.generation
                  [(.plan, .text answer.2.2)]
              exact .unmade _ hsubmits hnew hjobkey ⟨_, hphase, by decide⟩ hobserved
            | error e =>
              obtain ⟨-, hphase, hobserved⟩ :=
                lookup_statusWithout "Refused" e (some who) o.generation []
              rw [List.append_nil] at hphase hobserved
              exact .unmade _ hsubmits hnew (nothing _ _ _ _) ⟨_, hphase, by decide⟩ hobserved
          · rw [if_neg hdry]
            cases hmade : s.made with
            | ok job =>
              refine .made job hsubmits ?_
              rw [World.newJob, hbody]
              simp [hdry, hmade]
            | error e =>
              have hnew : World.newJob o s = none := by
                rw [World.newJob, hbody]
                simp [hdry, hmade]
              obtain ⟨-, hphase, hobserved⟩ :=
                lookup_statusWithout "Refused" e (some who) o.generation []
              rw [List.append_nil] at hphase hobserved
              exact .unmade _ hsubmits hnew (nothing _ _ _ _) ⟨_, hphase, by decide⟩ hobserved

/-! ## What stays true -/

/-- What is true of the objects, whether or not a status is still to be written. -/
structure Base (w : World) : Prop where
  /-- The jobs of a name are those of its object. -/
  owner : ∀ name o, w.objects name = some o → ∀ j, w.Has name j → w.owner j = some o.uid
  /-- What was last written for a name is what its object shows. -/
  shown : ∀ name o st, w.objects name = some o → w.shown name = some st →
    MergePatch.merge .null o.status (members st) = o.status
  /-- It was submitted in generations that it had, and in older ones if it was edited since. -/
  older : ∀ name o, w.objects name = some o → ∀ g, (o.uid, g) ∈ w.submissions →
    g ≤ o.generation ∧ (o.edited = true → g < o.generation)
  uids : ∀ name name' o o', w.objects name = some o → w.objects name' = some o' →
    o.uid = o'.uid → name = name'
  /-- The uids of objects and of submissions are those there have been. -/
  known : ∀ name o, w.objects name = some o → o.uid ∈ w.uids
  submitted : ∀ uid g, (uid, g) ∈ w.submissions → uid ∈ w.uids

/-- A submitted object is not submitted again as it is: it has a job, or shows an answer, or it was
edited. -/
def Covered (w : World) (name : String) (o : Object) : Prop :=
  (∃ j, w.Has name j) ∨ answered o = true ∨ o.edited = true

/-- **What stays true.** -/
structure Inv (w : World) : Prop extends Base w where
  covered : ∀ name o, w.objects name = some o → (∃ g, (o.uid, g) ∈ w.submissions) →
    Covered w name o

lemma inv_first (jobs : Jobs) : Inv (World.first jobs) where
  owner _ _ h := by cases h
  shown _ _ _ h := by cases h
  older _ _ h := by cases h
  uids _ _ _ _ h := by cases h
  known _ _ h := by cases h
  submitted _ _ h := by cases h
  covered _ _ h := by cases h

/-! ### A status is written -/

section Put

variable {w : World} {name : String} {o : Object} {st : Patch} {writes : Bool}

/-- A write changes the status of one object, and what was last written for it. -/
lemma put_frame (w : World) (name : String) (st : Patch) (writes : Bool) :
    (w.put name st writes).jobs = w.jobs ∧ (w.put name st writes).operation = w.operation ∧
      (w.put name st writes).owner = w.owner ∧
      (w.put name st writes).submissions = w.submissions ∧
      (w.put name st writes).uids = w.uids := by
  unfold World.put
  split
  · exact ⟨rfl, rfl, rfl, rfl, rfl⟩
  · split
    · split
      · exact ⟨rfl, rfl, rfl, rfl, rfl⟩
      · exact ⟨rfl, rfl, rfl, rfl, rfl⟩
    · exact ⟨rfl, rfl, rfl, rfl, rfl⟩

lemma has_put {j : JobId} {name' : String} :
    (w.put name st writes).Has name' j ↔ w.Has name' j := by
  obtain ⟨hjobs, hop, -⟩ := put_frame w name st writes
  unfold World.Has
  rw [hjobs, hop]

/-- The other objects stay. -/
lemma put_objects_ne {name' : String} (hne : name' ≠ name) :
    (w.put name st writes).objects name' = w.objects name' := by
  unfold World.put
  split
  · rfl
  · split
    · split
      · rfl
      · exact Function.update_of_ne hne ..
    · rfl

/-- **The object after a write** has the status merged in, or as it was; and merged in it has if the
server takes it, where what was last written is what it shows. -/
lemma put_object (writes : Bool) (hobj : w.objects name = some o)
    (hshown : w.shown name = some st →
      MergePatch.merge .null o.status (members st) = o.status) :
    ∃ status, (w.put name st writes).objects name = some { o with status := status } ∧
      (status = o.status ∨ status = MergePatch.merge .null o.status (members st)) ∧
      (writes = true → status = MergePatch.merge .null o.status (members st)) := by
  unfold World.put
  by_cases hsame : w.shown name = some st
  · rw [if_pos hsame]
    exact ⟨o.status, hobj, Or.inl rfl, fun _ => (hshown hsame).symm⟩
  · rw [if_neg hsame]
    by_cases hw : writes = true
    · rw [if_pos hw, hobj]
      exact ⟨_, Function.update_self .., Or.inr rfl, fun _ => rfl⟩
    · rw [if_neg hw]
      exact ⟨o.status, hobj, Or.inl rfl, fun htrue => absurd htrue hw⟩

/-- An object of a write was there, with another status maybe. -/
lemma object_of_put {name' : String} {o' : Object}
    (h : (w.put name st writes).objects name' = some o') :
    ∃ status, w.objects name' = some { o' with status := status } := by
  unfold World.put at h
  split at h
  · exact ⟨o'.status, h⟩
  · split at h
    · split at h
      · exact ⟨o'.status, h⟩
      · rename_i o hobj
        by_cases hname : name' = name
        · subst hname
          simp only [World.setObject, Function.update_self, Option.some.injEq] at h
          rw [← h]
          exact ⟨o.status, hobj⟩
        · simp only [World.setObject, Function.update_of_ne hname] at h
          exact ⟨o'.status, h⟩
    · exact ⟨o'.status, h⟩

/-- What was last written is what is shown, after a write. -/
lemma put_shown (h : ∀ name o st, w.objects name = some o → w.shown name = some st →
      MergePatch.merge .null o.status (members st) = o.status) :
    ∀ name' o' st', (w.put name st writes).objects name' = some o' →
      (w.put name st writes).shown name' = some st' →
      MergePatch.merge .null o'.status (members st') = o'.status := by
  intro name' o' st' hobj hshown
  unfold World.put at hobj hshown
  split at hobj
  · rename_i hsame
    rw [if_pos hsame] at hshown
    exact h name' o' st' hobj hshown
  · rename_i hsame
    rw [if_neg hsame] at hshown
    split at hobj
    · rename_i hw
      rw [if_pos hw] at hshown
      split at hobj
      · rename_i hnone
        rw [hnone] at hshown
        exact h name' o' st' hobj hshown
      · rename_i o hsome
        rw [hsome] at hshown
        by_cases hname : name' = name
        · subst hname
          simp only [World.setObject, Function.update_self, Option.some.injEq] at hobj hshown
          rw [← hobj, ← hshown]
          exact MergePatch.merge_again
        · simp only [World.setObject, Function.update_of_ne hname] at hobj hshown
          exact h name' o' st' hobj hshown
    · rename_i hw
      rw [if_neg hw] at hshown
      exact h name' o' st' hobj hshown

lemma Base.put (base : Base w) : Base (w.put name st writes) := by
  obtain ⟨-, -, howner, hsubs, huids⟩ := put_frame w name st writes
  exact
    { owner := fun name' o' hobj j hhas => by
        obtain ⟨status, hold⟩ := object_of_put hobj
        rw [howner]
        exact base.owner name' _ hold j (has_put.mp hhas)
      shown := put_shown base.shown
      older := fun name' o' hobj g hg => by
        obtain ⟨status, hold⟩ := object_of_put hobj
        rw [hsubs] at hg
        exact base.older name' _ hold g hg
      uids := fun name' name'' o' o'' hobj hobj' huid => by
        obtain ⟨status, hold⟩ := object_of_put hobj
        obtain ⟨status', hold'⟩ := object_of_put hobj'
        exact base.uids name' name'' _ _ hold hold' huid
      known := fun name' o' hobj => by
        obtain ⟨status, hold⟩ := object_of_put hobj
        have hmem := base.known name' _ hold
        rw [huids]
        exact hmem
      submitted := fun uid g hg => by
        rw [hsubs] at hg
        rw [huids]
        exact base.submitted uid g hg }

/-- A write keeps what stays true, where the object stays covered. -/
lemma inv_put (base : Base w) (hobj : w.objects name = some o)
    (hothers : ∀ name' o', name' ≠ name → w.objects name' = some o' →
      (∃ g, (o'.uid, g) ∈ w.submissions) → Covered w name' o')
    (hthis : (∃ g, (o.uid, g) ∈ w.submissions) →
      (∃ j, w.Has name j) ∨ o.edited = true ∨
        (writes = true ∧
          answered { o with status := MergePatch.merge .null o.status (members st) } = true)) :
    Inv (w.put name st writes) := by
  obtain ⟨-, -, -, hsubs, -⟩ := put_frame w name st writes
  refine { base.put with covered := fun name' o' hobj' hsub => ?_ }
  rw [hsubs] at hsub
  by_cases hname : name' = name
  · subst hname
    obtain ⟨status, hafter, -, hwritten⟩ :=
      put_object writes hobj (base.shown name' o st hobj)
    rw [hafter] at hobj'
    cases hobj'
    rcases hthis hsub with ⟨j, hj⟩ | hedited | ⟨hw, hans⟩
    · exact Or.inl ⟨j, has_put.mpr hj⟩
    · exact Or.inr (Or.inr hedited)
    · rw [hwritten hw]
      exact Or.inr (Or.inl hans)
  · rw [put_objects_ne hname] at hobj'
    rcases hothers name' o' hname hobj' hsub with ⟨j, hj⟩ | hans | hedited
    · exact Or.inl ⟨j, has_put.mpr hj⟩
    · exact Or.inr (Or.inl hans)
    · exact Or.inr (Or.inr hedited)

end Put

/-! ### The controller takes up an object -/

section Operate

variable {w : World} {name : String} {o : Object} {s : Sight}

/-- What a submission has checked. -/
lemma of_submits (h : w.submits name o s = true) :
    byOperation w name = none ∧ answered o = false := by
  simp only [World.submits, Bool.and_eq_true, Option.isNone_iff_eq_none, Bool.not_eq_true'] at h
  exact ⟨h.1.1.1, h.1.1.2⟩

/-- An object that was submitted and is submitted again was edited. -/
lemma edited_of_submits (inv : Inv w) (hobj : w.objects name = some o)
    (h : w.submits name o s = true) (hsub : ∃ g, (o.uid, g) ∈ w.submissions) :
    o.edited = true := by
  obtain ⟨hjob, hans⟩ := of_submits h
  rcases inv.covered name o hobj hsub with ⟨j, hj⟩ | hans' | hedited
  · exact absurd hj (not_has_of_byOperation hjob j)
  · rw [hans] at hans'
    cases hans'
  · exact hedited

/-- The objects after a submission. -/
lemma noted_objects (w : World) (name name' : String) (o : Object) :
    (w.noted name o).objects name' =
      if name' = name then some { o with edited := false } else w.objects name' := by
  show Function.update w.objects name _ name' = _
  by_cases hname : name' = name
  · subst hname
    rw [Function.update_self, if_pos rfl]
  · rw [Function.update_of_ne hname, if_neg hname]

/-- A submission is noted, in a generation that it was not submitted in. -/
lemma Base.noted (base : Base w) (hobj : w.objects name = some o) : Base (w.noted name o) where
  owner := by
    intro name' o' hobj' j hj
    rw [noted_objects] at hobj'
    split at hobj'
    · rename_i hname
      cases hobj'
      subst hname
      exact base.owner name' o hobj j hj
    · exact base.owner name' o' hobj' j hj
  shown := by
    intro name' o' st hobj' hshown
    rw [noted_objects] at hobj'
    split at hobj'
    · rename_i hname
      cases hobj'
      subst hname
      exact base.shown name' o st hobj hshown
    · exact base.shown name' o' st hobj' hshown
  older := by
    intro name' o' hobj' g hg
    rw [noted_objects] at hobj'
    split at hobj'
    · cases hobj'
      refine ⟨?_, fun hfalse => by cases hfalse⟩
      rcases List.mem_cons.mp hg with heq | hg
      · cases heq
        exact le_refl _
      · exact (base.older name o hobj g hg).1
    · rename_i hname
      rcases List.mem_cons.mp hg with heq | hg
      · exact absurd (base.uids name' name o' o hobj' hobj (Prod.mk.inj heq).1) hname
      · exact base.older name' o' hobj' g hg
  uids := by
    intro name' name'' o' o'' hobj' hobj'' huid
    rw [noted_objects] at hobj' hobj''
    by_cases h1 : name' = name
    · by_cases h2 : name'' = name
      · rw [h1, h2]
      · rw [if_pos h1] at hobj'
        rw [if_neg h2] at hobj''
        cases hobj'
        exact h1.trans (base.uids name name'' o o'' hobj hobj'' huid)
    · rw [if_neg h1] at hobj'
      by_cases h2 : name'' = name
      · rw [if_pos h2] at hobj''
        cases hobj''
        exact (base.uids name' name o' o hobj' hobj huid).trans h2.symm
      · rw [if_neg h2] at hobj''
        exact base.uids name' name'' o' o'' hobj' hobj'' huid
  known := by
    intro name' o' hobj'
    rw [noted_objects] at hobj'
    split at hobj'
    · cases hobj'
      exact base.known name o hobj
    · exact base.known name' o' hobj'
  submitted := by
    intro uid g hg
    rcases List.mem_cons.mp hg with heq | hg
    · rw [(Prod.mk.inj heq).1]
      exact base.known name o hobj
    · exact base.submitted uid g hg

/-- What a name has after a job was made. -/
lemma has_withJob {job : Job} (hnew : w.operation job.id = none) {name' : String} {j : JobId} :
    (w.withJob name o job).Has name' j ↔ (j = job.id ∧ name' = name) ∨ w.Has name' j := by
  show ((w.jobs.insert job).get j).isSome = true ∧
    Function.update w.operation job.id (some name) j = some name' ↔ _
  rw [Jobs.get_insert]
  by_cases hj : j = job.id
  · subst hj
    rw [if_pos rfl, Function.update_self]
    constructor
    · rintro ⟨-, heq⟩
      exact Or.inl ⟨rfl, (Option.some.inj heq).symm⟩
    · rintro (⟨-, rfl⟩ | ⟨-, hop⟩)
      · exact ⟨rfl, rfl⟩
      · rw [hnew] at hop
        cases hop
  · rw [if_neg hj, Function.update_of_ne hj]
    constructor
    · exact Or.inr
    · rintro (⟨heq, -⟩ | h)
      · exact absurd heq hj
      · exact h

/-- A job with a new name is made for an object. -/
lemma Base.withJob (base : Base w) {o' : Object} (hobj : w.objects name = some o')
    (huid : o'.uid = o.uid) {job : Job} (hnew : w.operation job.id = none) :
    Base (w.withJob name o job) :=
  { base with
    owner := fun name'' o'' hobj'' j hj => by
      show Function.update w.owner job.id (some o.uid) j = some o''.uid
      rcases (has_withJob hnew).mp hj with ⟨rfl, rfl⟩ | hold
      · have hsame : o'' = o' := Option.some.inj (hobj''.symm.trans hobj)
        rw [Function.update_self, hsame, huid]
      · have hne : j ≠ job.id := fun heq => by
          have hop := hold.2
          rw [heq, hnew] at hop
          cases hop
        rw [Function.update_of_ne hne]
        exact base.owner name'' o'' hobj'' j hold }

/-- Jobs that go on leave what is true of the objects. -/
lemma Base.withJobs (base : Base w) {jobs : Jobs}
    (hjobs : ∀ j, (jobs.get j).isSome = true → w.operation j ≠ none →
      (w.jobs.get j).isSome = true) : Base { w with jobs := jobs } :=
  { base with
    owner := fun name' o' hobj j hj => by
      refine base.owner name' o' hobj j ⟨hjobs j hj.1 ?_, hj.2⟩
      rw [show w.operation j = some name' from hj.2]
      exact Option.some_ne_none _ }

/-- **What stays true is kept** when the controller takes up an object. -/
theorem Inv.operate (inv : Inv w) (hobj : w.objects name = some o)
    (kept : w.submits name o s = true → match World.newJob o s with
      | some job => w.operation job.id = none
      | none => s.writes = true) : Inv (w.operate name o s) := by
  have hran := ran w name o s
  unfold World.operate
  revert hran
  generalize w.run name o s = r
  intro hran
  cases hran with
  | followed job jobs st hjob hjobs own =>
    obtain ⟨hget, hop⟩ := has_of_byOperation hjob
    have hhas : ∀ name' j, w.Has name' j → ({ w with jobs := jobs } : World).Has name' j :=
      fun name' j h => ⟨(hjobs j).trans h.1, h.2⟩
    have base : Base { w with jobs := jobs } :=
      inv.toBase.withJobs fun j hj _ => by rwa [hjobs j] at hj
    refine inv_put base hobj (fun name' o' _ hobj' hsub => ?_) fun _ => ?_
    · rcases inv.covered name' o' hobj' hsub with ⟨j, hj⟩ | hrest
      · exact Or.inl ⟨j, hhas name' j hj⟩
      · exact Or.inr hrest
    · exact Or.inl ⟨job.id, hhas name job.id ⟨by rw [hget]; rfl, hop⟩⟩
  | answered _ _ => exact inv
  | refused st hjob hans hno own =>
    refine inv_put inv.toBase hobj (fun name' o' _ hobj' hsub => inv.covered name' o' hobj' hsub)
      fun hsub => ?_
    rcases inv.covered name o hobj hsub with ⟨j, hj⟩ | hans' | hedited
    · exact absurd hj (not_has_of_byOperation hjob j)
    · rw [hans] at hans'
      cases hans'
    · exact Or.inr (Or.inl hedited)
  | made job hsubmits hjob =>
    have hnew : w.operation job.id = none := by
      have := kept hsubmits
      rwa [hjob] at this
    have hnoted : (w.noted name o).objects name = some { o with edited := false } := by
      rw [noted_objects, if_pos rfl]
    have base : Base ((w.noted name o).withJob name o job) :=
      (inv.toBase.noted hobj).withJob hnoted rfl hnew
    refine inv_put base hnoted (fun name' o' hname hobj' hsub => ?_) fun _ => ?_
    · have hold : w.objects name' = some o' := by
        have : (w.noted name o).objects name' = some o' := hobj'
        rwa [noted_objects, if_neg hname] at this
      obtain ⟨g, hg⟩ := hsub
      have hg' : (o'.uid, g) ∈ w.submissions := by
        rcases List.mem_cons.mp hg with heq | hg
        · exact absurd (inv.uids name' name o' o hold hobj (Prod.mk.inj heq).1) hname
        · exact hg
      rcases inv.covered name' o' hold ⟨g, hg'⟩ with ⟨j, hj⟩ | hrest
      · exact Or.inl ⟨j, (has_withJob (w := w.noted name o) (o := o) hnew).mpr (Or.inr hj)⟩
      · exact Or.inr hrest
    · exact Or.inl ⟨job.id,
        (has_withJob (w := w.noted name o) (o := o) hnew).mpr (Or.inl ⟨rfl, rfl⟩)⟩
  | unmade st hsubmits hjob own phase observed =>
    have hwrites : s.writes = true := by
      have := kept hsubmits
      rwa [hjob] at this
    have hnoted : (w.noted name o).objects name = some { o with edited := false } := by
      rw [noted_objects, if_pos rfl]
    refine inv_put (inv.toBase.noted hobj) hnoted (fun name' o' hname hobj' hsub => ?_)
      fun _ => ?_
    · have hold : w.objects name' = some o' := by
        rwa [noted_objects, if_neg hname] at hobj'
      obtain ⟨g, hg⟩ := hsub
      have hg' : (o'.uid, g) ∈ w.submissions := by
        rcases List.mem_cons.mp hg with heq | hg
        · exact absurd (inv.uids name' name o' o hold hobj (Prod.mk.inj heq).1) hname
        · exact hg
      exact inv.covered name' o' hold ⟨g, hg'⟩
    · right
      right
      refine ⟨hwrites, ?_⟩
      obtain ⟨p, hphase, hp⟩ := phase
      have hmphase : MergePatch.merge .null o.status (members st) .phase = some (.text p) :=
        MergePatch.merge_of_some hphase (by simp)
      have hmobserved : MergePatch.merge .null o.status (members st) .observedGeneration =
          some (.number o.generation) := MergePatch.merge_of_some observed (by simp)
      simp [answered, text, number, hmphase, hmobserved, hp]

/-- **The promise of a step.** -/
theorem ownStep (inv : Inv w) (hobj : w.objects name = some o) : OwnStep w name o s where
  once hsubmits hmem := by
    have hedited := edited_of_submits inv hobj hsubmits ⟨_, hmem⟩
    exact absurd ((inv.older name o hobj o.generation hmem).2 hedited) (lt_irrefl _)
  resume hsubmits hsub := edited_of_submits inv hobj hsubmits hsub
  own st hst j hj := by
    have hran := ran w name o s
    revert hran hst
    generalize w.run name o s = r
    intro hst hran
    cases hran with
    | followed job jobs st' hjob hjobs own =>
      cases hst
      obtain ⟨hget, hop⟩ := has_of_byOperation hjob
      rw [own j hj]
      exact inv.owner name o hobj job.id ⟨by rw [hget]; rfl, hop⟩
    | answered _ _ => cases hst
    | refused st' _ _ _ own =>
      cases hst
      rw [own] at hj
      cases hj
    | made job _ _ =>
      cases hst
      rw [lookup_statusOf_job] at hj
      cases hj
      exact Function.update_self ..
    | unmade st' _ _ own _ _ =>
      cases hst
      rw [own] at hj
      cases hj
  shows st hst hwrites := by
    have hran := ran w name o s
    unfold World.operate
    revert hran hst
    generalize w.run name o s = r
    intro hst hran
    have hnoted : (w.noted name o).objects name = some { o with edited := false } := by
      rw [noted_objects, if_pos rfl]
    cases hran with
    | followed job jobs st' _ _ _ =>
      cases hst
      obtain ⟨status, hafter, -, hw⟩ := put_object (w := { w with jobs := jobs }) s.writes hobj
        (inv.shown name o st hobj)
      exact ⟨_, hafter, hw hwrites⟩
    | answered _ _ => cases hst
    | refused st' _ _ _ _ =>
      cases hst
      obtain ⟨status, hafter, -, hw⟩ :=
        put_object s.writes hobj (inv.shown name o st hobj)
      exact ⟨_, hafter, hw hwrites⟩
    | made job _ _ =>
      cases hst
      obtain ⟨status, hafter, -, hw⟩ := put_object (w := (w.noted name o).withJob name o job)
        s.writes hnoted (inv.shown name o _ hobj)
      exact ⟨_, hafter, hw hwrites⟩
    | unmade st' _ _ _ _ _ =>
      cases hst
      obtain ⟨status, hafter, -, hw⟩ :=
        put_object s.writes hnoted (inv.shown name o st hobj)
      exact ⟨_, hafter, hw hwrites⟩

end Operate

/-! ## Every run -/

section Steps

variable {w : World}

/-- An object that is made anew has no past. -/
lemma Inv.create (inv : Inv w) {name uid : String} (generation : ℤ) (body : Body) (resume : ℕ)
    (listed : Listed w (.create name uid generation body resume))
    (kept : Kept w (.create name uid generation body resume)) :
    Inv (w.step (.create name uid generation body resume)) := by
  obtain ⟨-, hnew⟩ := listed
  have hsubs : ∀ g, (uid, g) ∉ w.submissions := fun g hg => hnew (inv.submitted uid g hg)
  have huids : ∀ name' o, w.objects name' = some o → o.uid ≠ uid := fun name' o hobj heq =>
    hnew (heq ▸ inv.known name' o hobj)
  obtain ⟨hjobs, hshown⟩ := kept
  have hobjects : ∀ name' o', (w.step (.create name uid generation body resume)).objects name' =
      some o' → (name' = name ∧ o' = ⟨uid, generation, body, resume, fun _ => none, false⟩) ∨
        (name' ≠ name ∧ w.objects name' = some o') := by
    intro name' o' h
    have h' : Function.update w.objects name _ name' = some o' := h
    by_cases hname : name' = name
    · subst hname
      rw [Function.update_self] at h'
      exact Or.inl ⟨rfl, (Option.some.inj h').symm⟩
    · rw [Function.update_of_ne hname] at h'
      exact Or.inr ⟨hname, h'⟩
  exact
    { owner := fun name' o' hobj j hj => by
        rcases hobjects name' o' hobj with ⟨rfl, -⟩ | ⟨-, hold⟩
        · exact absurd hj (hjobs j)
        · exact inv.owner name' o' hold j hj
      shown := fun name' o' st hobj hst => by
        rcases hobjects name' o' hobj with ⟨rfl, -⟩ | ⟨-, hold⟩
        · rw [show (w.step (.create name' uid generation body resume)).shown name' =
            w.shown name' from rfl, hshown] at hst
          cases hst
        · exact inv.shown name' o' st hold hst
      older := fun name' o' hobj g hg => by
        rcases hobjects name' o' hobj with ⟨-, rfl⟩ | ⟨-, hold⟩
        · exact absurd hg (hsubs g)
        · exact inv.older name' o' hold g hg
      uids := fun name' name'' o' o'' hobj hobj' huid => by
        rcases hobjects name' o' hobj with ⟨hn, ho⟩ | ⟨-, hold⟩
        · rcases hobjects name'' o'' hobj' with ⟨hn', -⟩ | ⟨-, hold'⟩
          · rw [hn, hn']
          · rw [ho] at huid
            exact absurd huid.symm (huids name'' o'' hold')
        · rcases hobjects name'' o'' hobj' with ⟨-, ho'⟩ | ⟨-, hold'⟩
          · rw [ho'] at huid
            exact absurd huid (huids name' o' hold)
          · exact inv.uids name' name'' o' o'' hold hold' huid
      known := fun name' o' hobj => by
        rcases hobjects name' o' hobj with ⟨-, rfl⟩ | ⟨-, hold⟩
        · exact List.mem_cons_self
        · exact List.mem_cons_of_mem _ (inv.known name' o' hold)
      submitted := fun uid' g hg => List.mem_cons_of_mem _ (inv.submitted uid' g hg)
      covered := fun name' o' hobj hsub => by
        rcases hobjects name' o' hobj with ⟨-, rfl⟩ | ⟨-, hold⟩
        · obtain ⟨g, hg⟩ := hsub
          exact absurd hg (hsubs g)
        · exact inv.covered name' o' hold hsub }

/-- An edit is covered by itself, or leaves the object covered. -/
lemma Inv.edit (inv : Inv w) (name : String) (body : Body) (resume : ℕ)
    (kept : Kept w (.edit name body resume)) : Inv (w.step (.edit name body resume)) := by
  have hobjects : ∀ name' o', (w.step (.edit name body resume)).objects name' = some o' →
      (∃ o, w.objects name' = some o ∧ name' = name ∧ o' = World.edited o body resume) ∨
        (name' ≠ name ∧ w.objects name' = some o') := by
    intro name' o' h
    have h' : Function.update w.objects name _ name' = some o' := h
    by_cases hname : name' = name
    · subst hname
      rw [Function.update_self] at h'
      obtain ⟨o, ho, rfl⟩ := Option.map_eq_some_iff.mp h'
      exact Or.inl ⟨o, ho, rfl, rfl⟩
    · rw [Function.update_of_ne hname] at h'
      exact Or.inr ⟨hname, h'⟩
  -- the object that was there, with the same uid and status
  have hbefore : ∀ name' o', (w.step (.edit name body resume)).objects name' = some o' →
      ∃ o, w.objects name' = some o ∧ o.uid = o'.uid ∧ o.status = o'.status := by
    intro name' o' hobj
    rcases hobjects name' o' hobj with ⟨o, hold, -, rfl⟩ | ⟨-, hold⟩
    · exact ⟨o, hold, rfl, rfl⟩
    · exact ⟨o', hold, rfl, rfl⟩
  exact
    { owner := fun name' o' hobj j hj => by
        obtain ⟨o, hold, hsame, -⟩ := hbefore name' o' hobj
        rw [← hsame]
        exact inv.owner name' o hold j hj
      shown := fun name' o' st hobj hst => by
        obtain ⟨o, hold, -, hsame⟩ := hbefore name' o' hobj
        rw [← hsame]
        exact inv.shown name' o st hold hst
      older := fun name' o' hobj g hg => by
        rcases hobjects name' o' hobj with ⟨o, hold, -, rfl⟩ | ⟨-, hold⟩
        · obtain ⟨hle, hlt⟩ := inv.older name' o hold g hg
          unfold World.edited
          by_cases hsame : o.body = body ∧ o.resume = resume
          · refine ⟨by simpa [hsame] using hle, fun hedited => ?_⟩
            simpa [hsame] using hlt (by simpa [hsame] using hedited)
          · refine ⟨?_, fun _ => ?_⟩
            · simp only [if_neg hsame]
              omega
            · simp only [if_neg hsame]
              omega
        · exact inv.older name' o' hold g hg
      uids := fun name' name'' o' o'' hobj hobj' hsame => by
        obtain ⟨o, hold, huid', -⟩ := hbefore name' o' hobj
        obtain ⟨o₂, hold₂, huid₂, -⟩ := hbefore name'' o'' hobj'
        exact inv.uids name' name'' o o₂ hold hold₂ (by rw [huid', huid₂, hsame])
      known := fun name' o' hobj => by
        obtain ⟨o, hold, hsame, -⟩ := hbefore name' o' hobj
        rw [← hsame]
        exact inv.known name' o hold
      submitted := inv.submitted
      covered := fun name' o' hobj hsub => by
        rcases hobjects name' o' hobj with ⟨o, hold, hname, rfl⟩ | ⟨-, hold⟩
        · subst hname
          by_cases hbody : o.body = body
          · by_cases hresume : o.resume = resume
            · rcases inv.covered name' o hold hsub with hj | hans | hedited
              · exact Or.inl hj
              · right
                left
                simpa [answered, World.edited, hbody, hresume] using hans
              · exact Or.inr (Or.inr (by simp [World.edited, hedited]))
            · rcases kept o hold hbody hresume hsub with hj | hedited
              · exact Or.inl hj
              · exact Or.inr (Or.inr (by simp [World.edited, hedited]))
          · exact Or.inr (Or.inr (by simp [World.edited, hbody]))
        · exact inv.covered name' o' hold hsub }

/-- A deleted object is gone. -/
lemma Inv.delete (inv : Inv w) (name : String) : Inv (w.step (.delete name)) := by
  have hobjects : ∀ name' o', (w.step (.delete name)).objects name' = some o' →
      w.objects name' = some o' := by
    intro name' o' h
    have h' : Function.update w.objects name none name' = some o' := h
    by_cases hname : name' = name
    · subst hname
      rw [Function.update_self] at h'
      cases h'
    · rwa [Function.update_of_ne hname] at h'
  exact
    { owner := fun name' o' hobj => inv.owner name' o' (hobjects name' o' hobj)
      shown := fun name' o' st hobj => inv.shown name' o' st (hobjects name' o' hobj)
      older := fun name' o' hobj => inv.older name' o' (hobjects name' o' hobj)
      uids := fun name' name'' o' o'' hobj hobj' =>
        inv.uids name' name'' o' o'' (hobjects name' o' hobj) (hobjects name'' o'' hobj')
      known := fun name' o' hobj => inv.known name' o' (hobjects name' o' hobj)
      submitted := inv.submitted
      covered := fun name' o' hobj => inv.covered name' o' (hobjects name' o' hobj) }

/-- The worker goes on. -/
lemma Inv.work (inv : Inv w) {jobs : Jobs} (kept : WorkKept w jobs) :
    Inv (w.step (.work jobs)) := by
  have hbefore : ∀ j, (jobs.get j).isSome = true → w.operation j ≠ none →
      (w.jobs.get j).isSome = true := by
    intro j hj hop
    by_contra hnone
    rw [Bool.not_eq_true, Option.isSome_eq_false_iff, Option.isNone_iff_eq_none] at hnone
    rw [kept.gone j hop hnone] at hj
    cases hj
  refine { inv.toBase.withJobs hbefore with covered := fun name o hobj hsub => ?_ }
  rcases inv.covered name o hobj hsub with ⟨j, hj⟩ | hrest
  · cases hget : jobs.get j with
    | some job => exact Or.inl ⟨j, (congrArg Option.isSome hget).trans rfl, hj.2⟩
    | none =>
      rcases kept.answered name j hj hget o hobj with hans | hedited | ⟨j', hget', hop'⟩
      · exact Or.inr (Or.inl hans)
      · exact Or.inr (Or.inr hedited)
      · exact Or.inl ⟨j', hget', hop'⟩
  · exact Or.inr hrest

/-- A cancelled job is still a job. -/
lemma Inv.sweep (inv : Inv w) : Inv (w.step .sweep) := by
  have hjobs : ∀ j, (w.sweep.jobs.get j).isSome = (w.jobs.get j).isSome := by
    intro j
    show ((w.jobs.updateAll _ _).get j).isSome = _
    rw [Jobs.get_updateAll, Option.isSome_map]
  exact
    { owner := fun name o hobj j hj =>
        inv.owner name o hobj j ⟨(hjobs j).symm.trans hj.1, hj.2⟩
      shown := fun name o st hobj hst => by
        have hst' : (if w.jobs.entries.any _ then none else w.shown name) = some st := hst
        split at hst'
        · cases hst'
        · exact inv.shown name o st hobj hst'
      older := inv.older
      uids := inv.uids
      known := inv.known
      submitted := inv.submitted
      covered := fun name o hobj hsub => by
        rcases inv.covered name o hobj hsub with ⟨j, hj⟩ | hrest
        · exact Or.inl ⟨j, (hjobs j).trans hj.1, hj.2⟩
        · exact Or.inr hrest }

/-- **Every step that meets the condition keeps what stays true.** -/
theorem inv_step {e : Event} (inv : Inv w) (listed : Listed w e) (kept : Kept w e) :
    Inv (w.step e) := by
  cases e with
  | create name uid generation body resume => exact inv.create generation body resume listed kept
  | edit name body resume => exact inv.edit name body resume kept
  | delete name => exact inv.delete name
  | work jobs => exact inv.work kept
  | restart => exact { inv with shown := fun _ _ _ _ h => by cases h }
  | operation name s =>
    show Inv (match w.objects name with | none => w | some o => w.operate name o s)
    cases hobj : w.objects name with
    | none => exact inv
    | some o => exact inv.operate hobj (kept o hobj)
  | sweep => exact inv.sweep

end Steps

/-- **An object runs at most once and reports its own job**, in the runs whose names are kept.

**Proof sketch.** The jobs of a name are those of its object: no job of the name is there when the
object is made, and those that come are made for it. A submitted object has a job, or it shows an
answer of its generation, or it was edited otherwise than in `resume`; only in the last case is it
submitted, and then in a new generation. What was last written for a name is what its object
shows. -/
theorem own_of_kept (jobs : Jobs) (es : List Event)
    (listed : Runs.Each World.step Listed (World.first jobs) es)
    (kept : Runs.Each World.step Kept (World.first jobs) es) :
    Runs.Each World.step Own (World.first jobs) es := by
  refine Runs.each_of_each (fun w e inv h => inv_step inv h.1 h.2) (fun w e inv h => ?_)
    (inv_first jobs) (listed.and kept)
  cases e with
  | operation name s => exact fun o hobj => ownStep inv hobj
  | create _ _ _ _ _ | edit _ _ _ | delete _ | work _ | restart | sweep => trivial

/-! ## A name that is used again -/

/-- A test of one drive, as a request. -/
def smokeTest : Body := .request { steps := [.test .smoke] }

/-- The job of the test, in a state. -/
def testJob (state : DjState) : Job :=
  { id := "j1", steps := [.test .smoke]
    drives := [{ drive := ⟨⟨1⟩⟩, name := "sda", serial := "S1", wwn := none, kind := .sasHdd
                 state := state, phase := "queued", destroyNamed := false, inUseNamed := false }] }

/-- The controller meets an accepted requester, a worker that makes the job and a server that
writes. -/
def smoothSight : Sight :=
  { requester := .ok ⟨"admin"⟩, planned := .error "", made := .ok (testJob .queued)
    writes := true }

/-- An object is made and submitted. -/
theorem own_of_submission :
    Runs.Each World.step Own (World.first Jobs.empty)
      [.create "test-sda" "uid-1" 1 smokeTest 0, .operation "test-sda" smoothSight] := by
  refine own_of_kept Jobs.empty _ ⟨⟨rfl, List.not_mem_nil⟩, trivial, trivial⟩
    ⟨⟨fun j h => absurd h.1 nofun, rfl⟩, fun o mem _ => ?_, trivial⟩
  obtain rfl := Option.some.inj mem
  rfl

/-- An object runs, is deleted, and one of the same name is made. -/
def madeAgain : List Event :=
  [ .create "test-sda" "uid-1" 1 smokeTest 0, .operation "test-sda" smoothSight, .sweep,
    .work (Jobs.empty.insert (testJob .done)), .operation "test-sda" smoothSight,
    .delete "test-sda", .sweep, .create "test-sda" "uid-2" 1 smokeTest 0,
    .operation "test-sda" smoothSight ]

/-- **A false success.** The new object is never submitted: the finished job of the older one is
found by the name, and it is what is written as the new object's status. -/
theorem false_success : ¬ OwnJobs fun _ _ => True := by
  intro holds
  have hlisted : Runs.Each World.step Listed (World.first Jobs.empty) madeAgain :=
    ⟨⟨rfl, List.not_mem_nil⟩, trivial, trivial, trivial, trivial, trivial, trivial,
      ⟨by decide +kernel, by decide +kernel⟩, trivial, trivial⟩
  have hpromise := (holds Jobs.empty madeAgain hlisted
    ⟨trivial, trivial, trivial, trivial, trivial, trivial, trivial, trivial, trivial,
      trivial⟩).2.2.2.2.2.2.2.2.1
  have hown := (hpromise _ rfl).own (statusOf (testJob .done) 1 0) (by decide +kernel) "j1" rfl
  revert hown
  decide +kernel

end DriveOperation

end StormDrive
