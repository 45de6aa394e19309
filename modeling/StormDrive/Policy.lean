import StormDrive.Daemon.Jobs

set_option relaxedAutoImplicit false
set_option autoImplicit false

/-!
# The decision of a drive policy

What a `DrivePolicy` does with a drive, from the drive's record and from the record that the policy's
status has of it (`policy.rs`).

## Main definitions

* `Policy.Spec`, `Policy.Spec.selectsDrive`, `Policy.Spec.stepsFor` — the policy, the drives that it
  selects and what is done with one.
* `Policy.verdict` — the decision for a drive.
* `Policy.Record`, `Policy.retryBlocked` — a drive's record in the status, and whether it says not to
  try again.

## Implementation notes

The bays of a selector are those that its text names. A record is a JSON object, of which the keys
are listed in `Policy.Key`.
-/

namespace StormDrive

namespace Policy

open Text

/-! ## The policy -/

/-- Which drives a policy is about. -/
structure DriveSelector where
  kinds : List DriveKind := []
  minBytes : Option ℕ := none
  maxBytes : Option ℕ := none
  blockSizes : List ℕ := []
  model : Option String := none
  /-- An enclosure: its logical id, serial or sysfs id. -/
  shelf : Option String := none
  bays : Option (List ℕ) := none
  deriving DecidableEq

/-- The slab that the policy makes of a drive. -/
structure Enroll where
  role : Role := .data
  tier : String
  deriving DecidableEq

/-- What a policy says, past its choice of nodes. -/
structure Spec where
  drives : DriveSelector := {}
  /-- The size that a drive the kernel cannot use is reformatted to. -/
  reformat : Option ℕ := none
  enroll : Enroll
  requireDataSlab : Bool := false
  suspend : Bool := false
  dryRun : Bool := false
  deriving DecidableEq

/-- A text without the prefix, as often as it has it. -/
def trimStartMatches (pat : String) : List Char → ℕ → List Char
  | cs, 0 => cs
  | cs, fuel + 1 =>
    if pat.toList.isPrefixOf cs then trimStartMatches pat (cs.drop pat.toList.length) fuel else cs

/-- A SAS address or an enclosure's name, as two of them are compared. -/
def normalizeSas (s : String) : String :=
  let cs := (trim s).toList
  let cs := trimStartMatches "0x" cs cs.length
  let cs := trimStartMatches "0X" cs cs.length
  String.ofList (cs.map Char.toLower)

/-- Does the drive selector pick this drive? -/
def Spec.selectsDrive (p : Spec) (d : Drive) : Bool :=
  let s := p.drives
  (s.kinds.isEmpty || s.kinds.contains d.kind) &&
  !(s.minBytes.any (d.capacityBytes < ·) || s.maxBytes.any (d.capacityBytes > ·)) &&
  (s.blockSizes.isEmpty || s.blockSizes.contains d.blockSize) &&
  s.model.all (fun m => eqIgnoreAsciiCase (trim d.model) (trim m)) &&
  s.shelf.all (fun want => d.location.shelf.any fun shelf =>
    [shelf.key, shelf.logicalId, shelf.serial, shelf.id].any fun n =>
      n.any fun n => normalizeSas n = normalizeSas want) &&
  s.bays.all (fun bays => d.location.bay.any (bays.contains ·))

/-- The worker steps for a drive: the reformat when it needs one, then a partition and the slab in
it. -/
def Spec.stepsFor (p : Spec) (needsReformat : Bool) : List Step :=
  (match needsReformat, p.reformat with
    | true, some bs => [.format bs .none]
    | _, _ => []) ++
  [.partition p.enroll.role, .enroll (some p.enroll.tier) p.enroll.role]

/-! ## The verdict -/

/-- What the policy does with one drive it selects. -/
inductive Verdict
  /-- Not this policy's business now: in the fleet, missing or in a job. -/
  | pass
  /-- Selected but left alone, and why. -/
  | skip (why : String)
  /-- Hand it to the worker with these steps. -/
  | run (steps : List Step)
  deriving DecidableEq

/-- A designation on the wire. -/
def designationWord : Designation → String
  | .none => "none"
  | .reserved => "reserved"
  | .spare => "spare"
  | .failed => "failed"
  | .system => "system"

/-- The decision for a drive the selector picked, from its record alone. -/
def verdict (p : Spec) (d : Drive) (inJob : Bool) : Verdict :=
  if d.membership = .fleet ∨ d.activity = .missing ∨ inJob then .pass
  else if d.designation ≠ .none then .skip ("designated " ++ designationWord d.designation)
  else match d.inUseBy with
    | some who => .skip ("holds data for " ++ who)
    | none =>
      if d.activity ≠ .idle then .skip ("busy: " ++ d.activity.word)
      else if d.health.status.atLeastFailing then .skip ("health is " ++ d.health.status.debug)
      else if d.thermal.any DriveThermal.throttleBackground then
        .skip "running over its warning temperature"
      else if d.needsReformat ∧ p.reformat = none then
        .skip (toString d.blockSize ++ "-byte sectors and the policy has no reformat")
      else if d.health.status = .unknown ∧ ¬ d.needsReformat then .skip "no health verdict yet"
      else .run (p.stepsFor d.needsReformat)

/-- A drive that a job has queued or running is left to it. -/
lemma verdict_of_inJob (p : Spec) (d : Drive) : verdict p d true = .pass := by
  simp [verdict]

/-! ## The record of a drive in the status -/

/-- The keys of a drive's record. -/
inductive Key
  | name | serial | state | reason | generation | job | steps | phase | progressPct
  deriving DecidableEq

/-- A value under a key. -/
inductive Value
  | null
  | text (s : String)
  | number (n : ℤ)
  | texts (l : List String)
  deriving DecidableEq

/-- A text, or null. -/
def Value.ofText (s : Option String) : Value := s.elim null text

/-- A number, or null. -/
def Value.ofNumber (n : Option ℤ) : Value := n.elim null number

/-- A drive's record, as the status has it or as it is put there. -/
abbrev Record := Key → Option Value

namespace Record

/-- The text under a key. -/
def text (r : Record) (k : Key) : Option String :=
  match r k with
  | some (.text s) => some s
  | _ => none

/-- The generation the record is of. -/
def generation (r : Record) : Option ℤ :=
  match r .generation with
  | some (.number n) => some n
  | _ => none

/-- The job it names. -/
def job (r : Record) : Option JobId := r.text .job

/-- Where the drive stands. -/
def state (r : Record) : String := (r.text .state).getD ""

/-- A record of these members. -/
def ofList (l : List (Key × Value)) : Record := fun k => l.lookup k

/-- The value under a key is another one. -/
def set (r : Record) (k : Key) (v : Value) : Record := Function.update r k (some v)

end Record

/-- The worker's word for a drive job's state, as a policy reports it. -/
def djWord : DjState → String
  | .queued => "queued"
  | .running => "running"
  | .done => "enrolled"
  | .failed => "failed"
  | .refused => "refused"
  | .interrupted => "interrupted"
  | .cancelled => "cancelled"

/-- A word of a job that did not come to its end. -/
def endedBadly (state : String) : Bool :=
  state = "failed" || state = "refused" || state = "cancelled"

/-- A drive's last record in the policy's status, when it says not to try again: its job failed, or
was refused or cancelled, under this generation of the policy. -/
def retryBlocked (record : Option Record) (generation : Option ℤ) : Option String :=
  match record with
  | none => none
  | some r =>
    if !endedBadly r.state then none
    else if r.generation ≠ generation then none
    else
      let why := ((r.text .reason).filter (· ≠ "")).getD r.state
      some (r.state ++ " under generation " ++ toString (generation.getD 0) ++ " (" ++ why ++
        "); edit the policy to try again")

lemma retryBlocked_eq_none_iff {record : Option Record} {generation : Option ℤ} :
    retryBlocked record generation = none ↔
      ∀ r, record = some r → endedBadly r.state = true → r.generation ≠ generation := by
  cases record with
  | none => simp [retryBlocked]
  | some r =>
    by_cases hbad : endedBadly r.state = true
    · by_cases hgen : r.generation = generation
      · simp [retryBlocked, hbad, hgen]
      · simp [retryBlocked, hbad, hgen]
    · simp [retryBlocked, hbad]

end Policy

end StormDrive
