import StormDrive.InUse

set_option relaxedAutoImplicit false
set_option autoImplicit false

/-!
# The steps of a job and their guard

The pure part of `worker.rs`: the steps a job takes a drive through, what a valid list of steps
is, how a request names a drive, and `guard`, which decides whether steps may run on a drive.

## Main definitions

* `Step`, `Step.destroys`, `validateSteps` — the steps and their order.
* `namedForDestroy` — a request names a drive by id, serial or WWN.
* `guard` — may steps run on a drive?

## Main results

* `guardRefusal_eq_none_iff` — what `guard` has checked when it accepts.
* `namedForDestroy_iff` — what naming a drive is.
* `guard_destroy_safe` — a drive that `guard` gives to a destroying step is out of the fleet,
  idle, not reserved, not mounted, free unless acknowledged, and named when it holds anything.

## Implementation notes

`guard` is the first refusal of a cascade, in the order of the source. The part of a request that
selects drives is not modelled here: every statement is about every drive.
-/

namespace StormDrive

/-! ## Steps -/

/-- The half of the node a partition and its slab are for. -/
inductive Role
  | data | system
  deriving DecidableEq

/-- A role on the wire. -/
def Role.word : Role → String
  | data => "data"
  | system => "system"

/-- How a sanitize erases. -/
inductive SanitizeMethod
  | block | crypto | overwrite
  deriving DecidableEq

/-- A drive test. -/
inductive TestKind
  | smoke | readScan | destructiveSample
  deriving DecidableEq

/-- The test writes to the drive. -/
def TestKind.isDestructive : TestKind → Bool
  | destructiveSample => true
  | _ => false

/-- One step of a job. -/
inductive Step
  | format (blockSize : Nat) (protection : Protection)
  | sanitize (method : SanitizeMethod)
  | securityErase (enhanced : Option Bool)
  | test (kind : TestKind)
  | partition (role : Role)
  | enroll (tier : Option String) (role : Role)
  deriving DecidableEq

namespace Step

/-- Low-level before partition before enroll. -/
def rank : Step → Nat
  | format .. | sanitize _ | securityErase _ | test _ => 0
  | partition _ => 1
  | enroll .. => 2

/-- A step that waits in the lane of an HBA. -/
def lowLevel (s : Step) : Bool :=
  s.rank = 0

/-- Destroys what is on the drive. -/
def destroys : Step → Bool
  | test kind => kind.isDestructive
  | s => s.rank ≤ 1

/-- Only reads the drive: a smoke test or a read scan. -/
def readOnly : Step → Bool
  | test kind => !kind.isDestructive
  | _ => false

/-- A step's name on the wire. -/
def name : Step → String
  | format .. => "format"
  | sanitize _ => "sanitize"
  | securityErase _ => "security_erase"
  | test _ => "test"
  | partition _ => "partition"
  | enroll .. => "enroll"

/-- A step that formats. -/
def isFormat : Step → Bool
  | format .. => true
  | _ => false

/-- A step that partitions. -/
def isPartition : Step → Bool
  | partition _ => true
  | _ => false

/-- A step that hands the drive to stormblock. -/
def isEnroll : Step → Bool
  | enroll .. => true
  | _ => false

/-- A step that makes room for, or makes, a data slab. -/
def laysData : Step → Bool
  | partition .data => true
  | enroll _ .data => true
  | _ => false

/-- A step that destroys is not one that only reads. -/
lemma readOnly_eq_false_of_destroys {s : Step} (h : s.destroys = true) : s.readOnly = false := by
  cases s with
  | test kind => simpa [destroys, readOnly] using h
  | _ => rfl

end Step

/-- One step after the others in `validateSteps`: the names seen so far and the last rank. -/
def validateFrom : List String → Nat → List Step → Option String
  | _, _, [] => none
  | seen, rank, s :: rest =>
    refuse (s.name ∈ seen) (s.name ++ " appears twice") <|>
    refuse (s.rank < rank)
      (s.name ++ " must come before the steps after it: " ++
        "low-level (format, sanitize), then partition, then enroll") <|>
    (match s with
      | .format blockSize _ =>
        refuse (blockSize ∉ usableBlockSizes)
          ("block_size " ++ toString blockSize ++ ": use 512 or 4096")
      | _ => none) <|>
    validateFrom (s.name :: seen) s.rank rest

/-- The role of the first partition step. -/
def partitionRole (steps : List Step) : Option Role :=
  steps.findSome? fun
    | .partition role => some role
    | _ => none

/-- The role of the first enroll step. -/
def enrollRole (steps : List Step) : Option Role :=
  steps.findSome? fun
    | .enroll _ role => some role
    | _ => none

/-- Low-level before partition before enroll, each at most once, and a partition and the slab in
it agree on the role. -/
def validateSteps (steps : List Step) : Except String Unit :=
  let refusal :=
    refuse (steps = []) "no steps" <|>
    validateFrom [] 0 steps <|>
    (match partitionRole steps, enrollRole steps with
      | some p, some e =>
        refuse (p ≠ e) ("partition role " ++ p.word ++ " and enroll role " ++ e.word ++ " differ")
      | _, _ => none)
  match refusal with
  | some why => .error why
  | none => .ok ()

/-! ## Naming a drive -/

/-- A job request. The drives it selects are resolved by the caller. -/
structure Request where
  steps : List Step
  destroy : List String := []
  iKnowInUse : List String := []
  dryRun : Bool := false
  deriving DecidableEq

/-- `destroy` names this drive by stable id, WWN (any case) or serial. A `/dev` name never
counts: it can point at another drive tomorrow. -/
def namedForDestroy (d : Drive) (destroy : List String) : Bool :=
  (destroy.map Text.trim).any fun x =>
    x ≠ "" && (x == d.id.uuid.text || d.wwid.any (fun w => Text.eqIgnoreAsciiCase w x) ||
      (d.serial ≠ "" && x == d.serial))

/-- A text is a name of the drive: its id, its serial, or in any case its WWN. -/
def IsNameOf (d : Drive) (x : String) : Prop :=
  x ≠ "" ∧ (x = d.id.uuid.text ∨ x = d.serial ∨
    ∃ w, d.wwid = some w ∧ Text.eqIgnoreAsciiCase w x = true)

/-- **Naming a drive**: some entry, without the white space around it, is a name of it. -/
theorem namedForDestroy_iff (d : Drive) (destroy : List String) :
    namedForDestroy d destroy = true ↔ ∃ e ∈ destroy, IsNameOf d (Text.trim e) := by
  simp only [namedForDestroy, List.any_map, List.any_eq_true, Function.comp_apply,
    Bool.and_eq_true, Bool.or_eq_true, decide_eq_true_eq, beq_iff_eq, Option.any_eq_true, IsNameOf]
  refine exists_congr fun e => and_congr_right fun _ => and_congr_right fun hne => ?_
  constructor
  · rintro ((hid | ⟨w, hw, hx⟩) | ⟨-, hs⟩)
    · exact .inl hid
    · exact .inr (.inr ⟨w, hw, hx⟩)
    · exact .inr (.inl hs)
  · rintro (hid | hs | ⟨w, hw, hx⟩)
    · exact .inl (.inl hid)
    · exact .inr ⟨fun h0 => hne (hs.trans h0), hs⟩
    · exact .inl (.inr ⟨w, hw, hx⟩)

/-- Where the kernel shows the drive plays no part in naming it. -/
theorem namedForDestroy_moved (d : Drive) (destroy : List String) (path name : String)
    (paths : List String) :
    namedForDestroy { d with path := path, name := name, paths := paths } destroy =
      namedForDestroy d destroy :=
  rfl

/-! ## The guard -/

/-- What the guard needs to know beyond the drive record. -/
structure Context where
  /-- `contents::holds`: slabs or filesystems found on the drive. -/
  holds : Option String := none
  mounted : Bool := false
  /-- Other namespaces on the same NVMe controller. -/
  nvmeSiblings : Nat := 0
  stormblock : Bool := false
  /-- The request named the drive in `i_know_in_use`. -/
  inUseNamed : Bool := false
  deriving DecidableEq

/-- Why a drive cannot be asked for this PI format; none without PI. -/
def piRefusal (d : Drive) (blockSize : Nat) (protection : Protection) : Option String :=
  match protection with
  | .none => none
  | .type1 =>
    if d.kind = .nvmeSsd then
      some "PI formats are SCSI only here; NVMe end-to-end protection is not built"
    else
      match d.supports with
      | none =>
        some "not probed yet: what the drive offers (PI types, block lengths) is unknown"
      | some sup =>
        match sup.planAsked blockSize protection with
        | .ok _ => none
        | .error why => some why

/-- Why one step cannot run on the drive, beyond what holds of all the steps. -/
def stepRefusal (d : Drive) (cx : Context) (formatsFirst : Bool) (s : Step) : Option String :=
  let sectors :=
    refuse (formatsFirst = false ∧ (d.usable = false ∨ d.blockSize ∉ usableBlockSizes))
      (toString d.blockSize ++ "-byte sectors: add a format step first")
  match s with
  | .securityErase _ =>
    refuse (d.kind.isSata = false) "ATA security erase is for SATA drives; use sanitize"
  | .format blockSize protection => piRefusal d blockSize protection
  | .sanitize _ =>
    refuse (d.kind = .nvmeSsd ∧ 0 < cx.nvmeSiblings)
      ("an NVMe sanitize erases every namespace on the controller; " ++
        toString cx.nvmeSiblings ++ " other namespace(s) share it")
  | .partition _ => sectors
  | .test _ => sectors
  | .enroll _ _ =>
    sectors <|>
    refuse (cx.stormblock = false) "stormblock integration is disabled" <|>
    refuse (d.designation = .failed) "designated failed: it may be erased, not enrolled" <|>
    refuse (d.health.status.atLeastFailing = true) ("health is " ++ d.health.status.debug)

/-- The refusal of a fleet drive names the use when there is more to it than membership. -/
def fleetRefusal (d : Drive) : String :=
  let u := InUse.of d
  if u.use ≠ .slabMember then
    "in use: " ++ u.reason.getD "" ++ " — in the fleet: leave (drain) first"
  else "in the fleet — leave (drain) first"

/-- A drive in use is never destroyed on `destroy` alone: the record's use, or what the fresh
read finds. -/
def inUseRefusal (d : Drive) (cx : Context) : Option String :=
  ((InUse.of d).reason <|> freshReason d.name cx.holds).map fun why =>
    "in use: " ++ why ++ " — a drive in use is not destroyed (\"destroy\" alone is not enough)"

/-- What is held on the drive: by the fresh read, else by the record. -/
def held (d : Drive) (cx : Context) : Option String :=
  cx.holds <|> d.inUseBy

/-- An unnamed drive that holds anything, or is the node's system drive, is never a destroy
target. -/
def unnamedRefusal (d : Drive) (cx : Context) : Option String :=
  match held d cx with
  | some what =>
    some ("holds " ++ what ++ " — name it in \"destroy\" by id, WWN or serial to allow")
  | none =>
    refuse (d.designation = .system)
      "designated system — name it in \"destroy\" by id, WWN or serial to allow"

/-- Why `steps` may not run on `d`. -/
def guardRefusal (d : Drive) (steps : List Step) (destroyNamed : Bool) (cx : Context) :
    Option String :=
  let readOnly := steps.all Step.readOnly
  let destroys := steps.any Step.destroys
  let formatsFirst := steps.any Step.isFormat
  refuse (d.activity = .missing) "missing" <|>
  refuse (d.membership = .fleet ∧ readOnly = false) (fleetRefusal d) <|>
  refuse (d.activity ≠ .idle) ("busy: " ++ d.activity.word) <|>
  refuse (d.designation = .reserved ∧ readOnly = false) "designated reserved" <|>
  refuse (cx.mounted = true ∧ readOnly = false) "has mounted partitions" <|>
  (if destroys && !cx.inUseNamed then inUseRefusal d cx else none) <|>
  (if destroys && !destroyNamed then unnamedRefusal d cx else none) <|>
  refuse (d.designation = .system ∧ steps.any Step.laysData = true)
    "designated system: it takes the system half, not a data slab" <|>
  steps.findSome? (stepRefusal d cx formatsFirst)

/-- May `steps` run on `d`? The reason when not. -/
def guard (d : Drive) (steps : List Step) (destroyNamed : Bool) (cx : Context) :
    Except String Unit :=
  match guardRefusal d steps destroyNamed cx with
  | some why => .error why
  | none => .ok ()

/-- The guard accepts exactly when no check of its cascade refuses. -/
lemma guard_eq_ok_iff (d : Drive) (steps : List Step) (destroyNamed : Bool) (cx : Context) :
    guard d steps destroyNamed cx = .ok () ↔ guardRefusal d steps destroyNamed cx = none := by
  unfold guard
  cases guardRefusal d steps destroyNamed cx <;> simp

/-! ## What the guard has checked -/

/-- The in-use refusal is absent exactly when the record is free and the fresh read shows no data
of the engine. -/
lemma inUseRefusal_eq_none_iff (d : Drive) (cx : Context) :
    inUseRefusal d cx = none ↔ (InUse.of d).use = .free ∧ ¬ ShowsEngineData cx.holds := by
  rw [inUseRefusal, Option.map_eq_none_iff, Option.orElse_eq_none, freshReason_eq_none_iff,
    InUse.of_reason_eq_none_iff]

/-- An unnamed drive passes exactly when it holds nothing and is not the system drive. -/
lemma unnamedRefusal_eq_none_iff (d : Drive) (cx : Context) :
    unnamedRefusal d cx = none ↔
      cx.holds = none ∧ d.inUseBy = none ∧ d.designation ≠ .system := by
  unfold unnamedRefusal held
  rcases cx.holds with _ | h <;> rcases d.inUseBy with _ | w <;> simp

/-- **What the guard has checked when it accepts**, one clause for each check of the cascade. -/
theorem guardRefusal_eq_none_iff (d : Drive) (steps : List Step) (destroyNamed : Bool)
    (cx : Context) :
    guardRefusal d steps destroyNamed cx = none ↔
      d.activity = .idle ∧
      (steps.all Step.readOnly = false →
        d.membership = .out ∧ d.designation ≠ .reserved ∧ cx.mounted = false) ∧
      (steps.any Step.destroys = true → cx.inUseNamed = false →
        (InUse.of d).use = .free ∧ ¬ ShowsEngineData cx.holds) ∧
      (steps.any Step.destroys = true → destroyNamed = false →
        cx.holds = none ∧ d.inUseBy = none ∧ d.designation ≠ .system) ∧
      (d.designation = .system → steps.any Step.laysData = false) ∧
      ∀ s ∈ steps, stepRefusal d cx (steps.any Step.isFormat) s = none := by
  have hm : d.membership ≠ .fleet ↔ d.membership = .out := by cases d.membership <;> simp
  simp only [guardRefusal, Option.orElse_eq_none, refuse_eq_none_iff, List.findSome?_eq_none_iff,
    ne_eq, not_not]
  cases hr : steps.all Step.readOnly <;> cases hd : steps.any Step.destroys <;>
    cases cx.inUseNamed <;> cases destroyNamed <;>
    simp only [inUseRefusal_eq_none_iff, unnamedRefusal_eq_none_iff, Bool.and_true,
      Bool.and_false, Bool.not_true, Bool.not_false, if_true] <;>
    grind

/-- A list with a destroying step does not only read. -/
lemma all_readOnly_eq_false {steps : List Step} (h : steps.any Step.destroys = true) :
    steps.all Step.readOnly = false := by
  obtain ⟨s, hs, hd⟩ := List.any_eq_true.mp h
  exact List.all_eq_false.mpr ⟨s, hs, by simp [Step.readOnly_eq_false_of_destroys hd]⟩

/-! ## Destroy safety -/

/-- **Destroy safety of the guard**: when it accepts steps of which one destroys, the drive is out
of the fleet, idle, not reserved and not mounted; unless the request acknowledges the use, the
record is free and the fresh read shows no data of the engine; and a drive that holds anything, or
is the system drive, is named in `destroy`. Where the kernel shows the drive does not count as a
name, and the system drive gets no data slab, named or not.

**Proof sketch.** Each conclusion is a check of the cascade (`guardRefusal_eq_none_iff`): a list
with a destroying step is not read-only, so none of the exceptions for reading applies. -/
theorem guard_destroy_safe (d : Drive) (req : Request) (steps : List Step) (cx : Context)
    (hok : guard d steps (namedForDestroy d req.destroy)
      { cx with inUseNamed := namedForDestroy d req.iKnowInUse } = .ok ()) :
    ((∃ s ∈ steps, s.destroys = true) →
      d.membership = .out ∧ d.activity = .idle ∧ d.designation ≠ .reserved ∧ cx.mounted = false ∧
      ((∃ e ∈ req.iKnowInUse, IsNameOf d (Text.trim e)) ∨
        (InUse.of d).use = .free ∧ ¬ ShowsEngineData cx.holds) ∧
      (cx.holds ≠ none ∨ d.inUseBy ≠ none ∨ d.designation = .system →
        ∃ e ∈ req.destroy, IsNameOf d (Text.trim e))) ∧
    (∀ path name paths, namedForDestroy { d with path := path, name := name, paths := paths }
      req.destroy = namedForDestroy d req.destroy) ∧
    (d.designation = .system → ∀ s ∈ steps, s.laysData = false) := by
  rw [guard_eq_ok_iff, guardRefusal_eq_none_iff] at hok
  obtain ⟨hidle, hread, huse, hheld, hsys, -⟩ := hok
  refine ⟨?_, fun path name paths => namedForDestroy_moved d _ path name paths, ?_⟩
  · rintro ⟨s, hs, hd⟩
    have hdestroys : steps.any Step.destroys = true := List.any_eq_true.mpr ⟨s, hs, hd⟩
    obtain ⟨hout, hres, hmnt⟩ := hread (all_readOnly_eq_false hdestroys)
    refine ⟨hout, hidle, hres, hmnt, ?_, fun hsome => ?_⟩
    · cases hk : namedForDestroy d req.iKnowInUse with
      | true => exact .inl ((namedForDestroy_iff d _).mp hk)
      | false => exact .inr (huse hdestroys hk)
    · by_contra hno
      have hk : namedForDestroy d req.destroy = false := by
        rw [← Bool.not_eq_true, namedForDestroy_iff]
        exact hno
      obtain ⟨h1, h2, h3⟩ := hheld hdestroys hk
      rcases hsome with h | h | h
      · exact h h1
      · exact h h2
      · exact h3 h
  · intro hd s hs
    have := List.any_eq_false.mp (hsys hd) s hs
    simpa using this

/-- A blank SATA drive with serial `S1`, designated the node's system drive. -/
def systemDrive : Drive :=
  { Drive.testFixture ⟨⟨1⟩⟩ "sda" with serial := "S1", designation := .system }

/-- A drive with a filesystem on it, formatted by a request that names it. -/
theorem guard_destroy_safe_named :
    let cx : Context := { holds := some "xfs (whole drive)" }
    let req : Request := { steps := [.format 4096 .none], destroy := ["S1"] }
    systemDrive.membership = .out ∧ cx.mounted = false ∧
      ∃ e ∈ req.destroy, IsNameOf systemDrive (Text.trim e) := by
  have h := (guard_destroy_safe systemDrive
    { steps := [.format 4096 .none], destroy := ["S1"] } [.format 4096 .none]
    { holds := some "xfs (whole drive)" } (by decide)).1 ⟨_, List.mem_cons_self, by decide⟩
  exact ⟨h.1, h.2.2.2.1, h.2.2.2.2.2 (.inl (by decide))⟩

/-- An entry with a blank before the serial is not equal to any name of the drive, and still lets
a step that destroys the system drive through. -/
theorem guard_accepts_padded_entry :
    guard systemDrive [.format 4096 .none] (namedForDestroy systemDrive [" S1"])
      { inUseNamed := namedForDestroy systemDrive [] } = .ok () ∧
    (Step.format 4096 .none).destroys = true ∧ systemDrive.designation = .system ∧
    ∀ e ∈ [" S1"], e ≠ systemDrive.id.uuid.text ∧ e ≠ systemDrive.serial ∧
      ∀ w, systemDrive.wwid = some w → Text.eqIgnoreAsciiCase w e = false := by
  refine ⟨by decide, by decide, by decide, fun e he => ?_⟩
  obtain rfl : e = " S1" := by simpa using he
  exact ⟨by decide, by decide, by rintro w hw; cases hw⟩

end StormDrive
