import StormDrive.Drive

set_option relaxedAutoImplicit false
set_option autoImplicit false

/-!
# Is a drive in use, and by what

The model of `inuse.rs`: the use of a drive, read from its record, and the use that a fresh read
of the disk shows.

## Main definitions

* `InUse.of` — what a drive is used for, with the sentence a refusal carries.
* `freshReason` — the use that a text of `contents::holds` shows.

## Main results

* `InUse.of_reason_eq_none_iff` — a drive has no reason to be refused exactly when it is free.
* `InUse.of_free_iff` — what a free record has: no slab with a role, no holder, no membership, no
  mount.
-/

namespace StormDrive

/-- What a drive is used for: the first that holds, in this order. -/
inductive Use
  | system | raidMember | data | slabMember | mounted | free
  deriving DecidableEq

/-- One slab on the drive, by name and role. -/
structure UseSlab where
  partition : Option Nat
  name : String
  role : String
  deriving DecidableEq

/-- The use of a drive. -/
structure InUse where
  inUse : Bool
  use : Use
  slabs : List UseSlab
  /-- What stops working if the drive is destroyed. -/
  dependsOn : List String
  /-- The sentence a refusal carries; none when the drive is free. -/
  reason : Option String
  deriving DecidableEq

/-- A slab in words. -/
def slabLabel (s : UseSlab) : String :=
  match s.partition, s.name.isEmpty with
  | some p, false => "partition " ++ toString p ++ " '" ++ s.name ++ "'"
  | some p, true => "partition " ++ toString p
  | none, _ => "the whole drive"

namespace InUse

/-- The slabs of the record. -/
def slabsOf (d : Drive) : List UseSlab :=
  d.slabParts.map fun p => ⟨p.partition, p.name, p.role⟩

/-- The labels of the slabs with a role. -/
def ofRole (d : Drive) (role : String) : List String :=
  ((slabsOf d).filter fun s => s.role = role).map slabLabel

/-- The record names a stormraid superblock. -/
def raid (d : Drive) : Bool :=
  d.inUseBy.any fun w => Text.startsWith w "stormraid"

/-- The engine runs this half from the network. -/
def remote (d : Drive) (role : String) : Bool :=
  d.engineFinding.any fun f => f.roles.contains role

/-- The line about the engine's volumes on the drive. -/
def volumesLine (d : Drive) : List String :=
  match d.usage.bind Usage.volumes with
  | some (v :: vols) =>
    let names := (v :: vols).take 3
    let more :=
      if (v :: vols).length > names.length then
        ", … " ++ toString ((v :: vols).length - names.length) ++ " more"
      else ""
    [toString (v :: vols).length ++ " volume(s): " ++ Text.join ", " names ++ more]
  | _ => []

/-- What stops working if the drive is destroyed. -/
def dependsOnOf (d : Drive) : List String :=
  (if ofRole d "system" ≠ [] then
    [if remote d "system" then
      "this node's system slab (the engine runs the system half from the network today)"
    else "this node's root (the system slab)"]
  else []) ++
  (if ofRole d "data" ≠ [] then
    [if remote d "data" then
      "this node's data slab (the engine runs the data half from the network today)"
    else "this node's data half (the data slab)"]
  else []) ++
  (if raid d then ["a stormraid RAID set"] else []) ++ volumesLine d

/-- The sentence of a drive with the system slab. -/
def systemReason (d : Drive) : String :=
  let runs :=
    if remote d "system" then
      "the engine runs the system half from the network today, but the slab is the node's"
    else "the node runs from it"
  d.name ++ " holds this node's system slab (" ++ Text.join ", " (ofRole d "system") ++ "); " ++ runs

/-- The sentence of a drive with data slabs. -/
def dataReason (d : Drive) : String :=
  let plural := if (ofRole d "data").length = 1 then "" else "s"
  d.name ++ " holds this node's data slab" ++ plural ++ " (" ++
    Text.join ", " (ofRole d "data") ++ ")"

/-- The sentence of a drive that the engine holds otherwise. -/
def slabMemberReason (d : Drive) : String :=
  let what :=
    if d.membership = .fleet then "is in the fleet: the engine places data on it"
    else "holds data for " ++ d.inUseBy.getD "stormblock"
  d.name ++ " " ++ what

/-- The first use that holds, with its sentence. -/
def verdict (d : Drive) : Use × Option String :=
  if ofRole d "system" ≠ [] then (.system, some (systemReason d))
  else if raid d then (.raidMember, some (d.name ++ " is a member of a stormraid RAID set"))
  else if ofRole d "data" ≠ [] then (.data, some (dataReason d))
  else if d.membership = .fleet ∨ d.inUseBy.isSome then
    (.slabMember, some (slabMemberReason d))
  else if d.mounted then (.mounted, some (d.name ++ " has mounted partitions"))
  else (.free, none)

/-- The drive's use. -/
def of (d : Drive) : InUse :=
  let dependsOn := dependsOnOf d
  let reason := (verdict d).2.map fun r =>
    match dependsOn.find? fun x => Text.contains x "volume(s)" with
    | some v => r ++ "; " ++ v
    | none => r
  { inUse := (verdict d).1 ≠ .free, use := (verdict d).1, slabs := slabsOf d,
    dependsOn := dependsOn, reason := reason }

/-! ## What a free drive is -/

lemma of_use (d : Drive) : (of d).use = (verdict d).1 := rfl

/-- The verdict carries a sentence exactly when it is not `free`. -/
lemma verdict_snd_eq_none_iff (d : Drive) : (verdict d).2 = none ↔ (verdict d).1 = .free := by
  unfold verdict
  split_ifs <;> simp

/-- **A drive in use always has a reason to be refused, and a free one never has.** -/
theorem of_reason_eq_none_iff (d : Drive) : (of d).reason = none ↔ (of d).use = .free := by
  simp only [of, Option.map_eq_none_iff]
  exact verdict_snd_eq_none_iff d

/-- A role has no label exactly when no slab of the record has the role. -/
lemma ofRole_eq_nil_iff (d : Drive) (role : String) :
    ofRole d role = [] ↔ ∀ p ∈ d.slabParts, p.role ≠ role := by
  simp [ofRole, slabsOf]

/-- **What a free record has**: no slab with the role of a half of the node, nobody's data, no
membership, no mount. -/
theorem of_free_iff (d : Drive) :
    (of d).use = .free ↔
      (∀ p ∈ d.slabParts, p.role ≠ "system" ∧ p.role ≠ "data") ∧ d.inUseBy = none ∧
        d.membership = .out ∧ d.mounted = false := by
  have hm : d.membership = .fleet ↔ d.membership ≠ .out := by cases d.membership <;> simp
  have hr : d.inUseBy = none → raid d = false := by intro h; simp [raid, h]
  rw [of_use, verdict]
  constructor
  · intro h
    split_ifs at h with h1 h2 h3 h4 h5
    rw [not_or, Bool.not_eq_true, Option.isSome_eq_false_iff, Option.isNone_iff_eq_none] at h4
    have hs := (ofRole_eq_nil_iff d "system").mp (not_not.mp h1)
    have hd := (ofRole_eq_nil_iff d "data").mp (not_not.mp h3)
    refine ⟨fun p hp => ⟨hs p hp, hd p hp⟩, h4.2, ?_, by simpa using h5⟩
    exact not_not.mp fun hout => h4.1 (hm.mpr hout)
  · rintro ⟨hparts, hin, hout, hmnt⟩
    have hs := (ofRole_eq_nil_iff d "system").mpr fun p hp => (hparts p hp).1
    have hd := (ofRole_eq_nil_iff d "data").mpr fun p hp => (hparts p hp).2
    simp [hs, hd, hr hin, hin, hout, hmnt]

end InUse

/-! ## The fresh read as a use -/

/-- What a fresh read of the disk found, as a use: a slab or a RAID superblock on it is in use
even before the record knows. -/
def freshReason (name : String) (holds : Option String) : Option String :=
  match holds with
  | none => none
  | some h =>
    if Text.contains h "stormblock slab" then
      some (name ++ " holds a stormblock slab (" ++ h ++ ")")
    else if Text.contains h "stormraid member" then
      some (name ++ " is a member of a stormraid RAID set (" ++ h ++ ")")
    else none

/-- The text of a fresh read shows a slab of the engine or a member of a RAID set. -/
def ShowsEngineData (holds : Option String) : Prop :=
  ∃ h, holds = some h ∧
    (Text.contains h "stormblock slab" = true ∨ Text.contains h "stormraid member" = true)

instance (holds : Option String) : Decidable (ShowsEngineData holds) :=
  match holds with
  | none => isFalse (by rintro ⟨h, hh, -⟩; cases hh)
  | some h =>
    decidable_of_iff
      (Text.contains h "stormblock slab" = true ∨ Text.contains h "stormraid member" = true)
      ⟨fun hc => ⟨h, rfl, hc⟩, by rintro ⟨_, hh, hc⟩; cases hh; exact hc⟩

/-- The fresh read is a reason to refuse exactly when it shows a slab or a RAID member. -/
lemma freshReason_eq_none_iff (name : String) (holds : Option String) :
    freshReason name holds = none ↔ ¬ ShowsEngineData holds := by
  rcases holds with _ | h
  · simp [freshReason, ShowsEngineData]
  · simp only [freshReason, ShowsEngineData]
    split_ifs with h1 h2 <;> simp [*]

end StormDrive
