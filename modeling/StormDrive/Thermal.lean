import Mathlib.Data.Rat.Defs
import Mathlib.Order.Lattice
import StormDrive.Drive

set_option relaxedAutoImplicit false
set_option autoImplicit false

/-!
# Temperatures

What the node makes of a temperature (`thermal.rs`): the limits of a component, its level against
them, and a pass over all readings with the alerts that it tells.

## Main definitions

* `Thermal.resolve` — a component's limits, from the device, a setting and its class.
* `Thermal.settingFor` — the setting of a component, its own over its class's.
* `Thermal.level` — how hot a reading is, given how hot the one before was.
* `Thermal.worthTelling` — a change of the level that someone is told about.
* `Thermal.Tracker.pass` — one pass.

## Implementation notes

A temperature is of any type with a difference and comparisons: a limit that is compared with 0 and
150 as here is finite. What a pass derives from the components without being read by a later one is
left out: the fans, the cooling request, the trend and the history line.
-/

namespace StormDrive

/-! ## Levels -/

/-- The place in the order that the source derives. -/
def Level.rank : Level → ℕ
  | unknown => 0
  | ok => 1
  | near => 2
  | warning => 3
  | critical => 4

instance : LinearOrder Level where
  le a b := a.rank ≤ b.rank
  le_refl a := Nat.le_refl a.rank
  le_trans _ _ _ := Nat.le_trans
  le_antisymm a b h h' := by
    have same : a.rank = b.rank := Nat.le_antisymm h h'
    cases a <;> cases b <;> first | rfl | exact absurd same (by decide)
  le_total a b := Nat.le_total a.rank b.rank
  toDecidableLE a b := inferInstanceAs (Decidable (a.rank ≤ b.rank))
  toDecidableEq := inferInstance

/-- A level that alarms. -/
def Level.alarms (l : Level) : Bool :=
  .warning ≤ l

/-- A reading that does not alarm. -/
def Level.calm (l : Level) : Bool :=
  l = .ok ∨ l = .near

namespace Thermal

/-! ## Limits -/

/-- What a component is, for its default limits. -/
inductive Class
  | drive | cpu | dimm | hba | nic | gpu | chipset | board | psu | inlet | exhaust | shelf | other
  deriving DecidableEq

/-- A class by its name. -/
def Class.word : Class → String
  | drive => "drive"
  | cpu => "cpu"
  | dimm => "dimm"
  | hba => "hba"
  | nic => "nic"
  | gpu => "gpu"
  | chipset => "chipset"
  | board => "board"
  | psu => "psu"
  | inlet => "inlet"
  | exhaust => "exhaust"
  | shelf => "shelf"
  | other => "other"

section Limits

variable {α : Type}

/-- The warning and the critical limit when neither the device nor a setting says. -/
def Class.defaultLimits [NatCast α] : Class → α × α
  | drive => ((55 : ℕ), (70 : ℕ))
  | cpu => ((85 : ℕ), (95 : ℕ))
  | dimm => ((80 : ℕ), (90 : ℕ))
  | hba => ((85 : ℕ), (100 : ℕ))
  | nic => ((90 : ℕ), (105 : ℕ))
  | gpu => ((85 : ℕ), (95 : ℕ))
  | chipset => ((80 : ℕ), (95 : ℕ))
  | board => ((70 : ℕ), (85 : ℕ))
  | psu => ((70 : ℕ), (85 : ℕ))
  | inlet => ((35 : ℕ), (42 : ℕ))
  | exhaust => ((60 : ℕ), (70 : ℕ))
  | shelf => ((50 : ℕ), (60 : ℕ))
  | other => ((80 : ℕ), (95 : ℕ))

/-- Where a limit came from. -/
inductive LimitSource
  | device | setting | «class»
  deriving DecidableEq

/-- What the device says its own limits are. -/
structure DeviceLimits (α : Type) where
  warn : Option α := none
  crit : Option α := none
  deriving DecidableEq

/-- A live limit for a class or one component. -/
structure LimitSetting (α : Type) where
  warn : Option α := none
  crit : Option α := none
  deriving DecidableEq

/-- A component's effective limits. -/
structure Limits (α : Type) where
  warn : α
  crit : α
  warnSource : LimitSource
  critSource : LimitSource
  deriving DecidableEq

variable [NatCast α] [Sub α] [LE α] [LT α] [DecidableLE α] [DecidableLT α]

/-- A limit between 0 and 150 °C, 0 excluded. -/
def believable (v : α) : Bool :=
  (0 : ℕ) < v ∧ v ≤ (150 : ℕ)

/-- Only plausible limits count, and of two that are the wrong way round the critical one. -/
def DeviceLimits.sane (d : DeviceLimits α) : DeviceLimits α :=
  match d.warn.filter believable, d.crit.filter believable with
  | some w, some c => if c ≤ w then ⟨none, some c⟩ else ⟨some w, some c⟩
  | w, c => ⟨w, c⟩

/-- What is wrong with a setting. -/
inductive BadLimit (α : Type)
  /-- A limit is between 0 and 150 °C. -/
  | outside (v : α)
  /-- The warning must be below the critical. -/
  | crossed (warn crit : α)
  deriving DecidableEq

/-- `LimitSetting::validate`. -/
def LimitSetting.validate (s : LimitSetting α) : Except (BadLimit α) Unit :=
  match (s.warn.toList ++ s.crit.toList).find? fun v : α => ¬ ((0 : ℕ) ≤ v ∧ v ≤ (150 : ℕ)) with
  | some v => .error (.outside v)
  | none =>
    match s.warn, s.crit with
    | some w, some c => if c ≤ w then .error (.crossed w c) else .ok ()
    | _, _ => .ok ()

/-- The device's own limit, unless a setting is lower; else the setting; else the default. -/
def pick : Option α → Option α → α → α × LimitSource
  | some d, some s, _ => if s < d then (s, .setting) else (d, .device)
  | some d, none, _ => (d, .device)
  | none, some s, _ => (s, .setting)
  | none, none, base => (base, .class)

/-- The gap kept between a warning limit derived from a critical one and that critical one. -/
def derivedGap : ℕ := 5

/-- A warning limit at or above the critical one is put `derivedGap` under it. -/
def underCritical (warn crit : α × LimitSource) : Limits α :=
  if crit.1 ≤ warn.1 then ⟨crit.1 - (derivedGap : α), crit.1, crit.2, crit.2⟩
  else ⟨warn.1, crit.1, warn.2, crit.2⟩

/-- **The limits of a component**: the device's first; a setting fills what the device does not
give and may lower what it does; else the class default. -/
def resolve (device : DeviceLimits α) (setting : Option (LimitSetting α)) (base : α × α) :
    Limits α :=
  let device := device.sane
  let set := setting.getD {}
  let crit := pick device.crit set.crit base.2
  -- a device that gives only its critical limit: warn that far under it
  let warn :=
    if device.warn.isNone ∧ set.warn.isNone ∧ device.crit.isSome ∧
        crit.1 - (derivedGap : α) < base.1 then
      (crit.1 - (derivedGap : α), .device)
    else pick device.warn set.warn base.1
  underCritical warn crit

/-- The live settings: by class name, and by component. -/
structure Settings (α : Type) where
  classes : String → Option (LimitSetting α) := fun _ => none
  components : String → Option (LimitSetting α) := fun _ => none

/-- The tunables of a pass. -/
structure PassCfg (α : Type) where
  near : α
  hysteresis : α
  /-- The default of a drive. -/
  driveDefault : α × α

/-- The setting and the default limits of a class. -/
def classBase (cls : Class) (settings : Settings α) (cfg : PassCfg α) :
    Option (LimitSetting α) × (α × α) :=
  (settings.classes cls.word, if cls = .drive then cfg.driveDefault else cls.defaultLimits)

/-- The setting for one component: its own over its class's. -/
def settingFor (id : String) (cls : Class) (settings : Settings α) (cfg : PassCfg α) :
    Option (LimitSetting α) × (α × α) :=
  let (classSet, base) := classBase cls settings cfg
  match settings.components id, classSet with
  | some o, some c => (some ⟨o.warn <|> c.warn, o.crit <|> c.crit⟩, base)
  | o, c => (o <|> c, base)

end Limits

/-! ## A pass -/

/-- Up into warning or critical, or down out of them. -/
def worthTelling (before now : Level) : Bool :=
  (before < now && now.alarms) || (now < before && before.alarms && now ≠ .unknown)

section Pass

variable {α : Type} [NatCast α] [Sub α] [LE α] [LT α] [DecidableLE α] [DecidableLT α] [Max α]

/-- **The level of a reading**, given the one before: a level is entered at its limit and left only
`hyst` below it. -/
def level (prev : Level) (t : Option α) (l : Limits α) (near hyst : α) : Level :=
  match t with
  | none => .unknown
  | some t =>
    let held (at' : Level) (limit : α) : Bool := limit ≤ t ∨ (at' ≤ prev ∧ limit - hyst < t)
    if held .critical l.crit then .critical
    else if held .warning l.warn then .warning
    else if held .near (l.warn - near) then .near
    else .ok

/-- One temperature as read this pass. -/
structure Reading (α : Type) where
  id : String
  cls : Class
  label : String := ""
  source : String := ""
  driveId : Option DriveId := none
  shelf : Option String := none
  temp : Option α
  device : DeviceLimits α := {}

/-- A component after a pass. -/
structure Component (α : Type) where
  id : String
  cls : Class
  label : String
  source : String
  driveId : Option DriveId
  shelf : Option String
  temp : Option α
  limits : Limits α
  deviceLimits : DeviceLimits α
  level : Level
  sinceUnix : ℕ
  /-- Its hottest reading. -/
  max : Option α

/-- A component's level changed in a way someone is told about. -/
structure Alert (α : Type) where
  id : String
  label : String
  driveId : Option DriveId
  before : Level
  now : Level
  temp : Option α
  limits : Limits α

/-- What is kept between passes. -/
structure Tracker (α : Type) where
  components : String → Option (Component α) := fun _ => none
  atUnix : ℕ := 0

/-- What a pass is given. -/
structure PassInput (α : Type) where
  readings : List (Reading α)
  settings : Settings α
  cfg : PassCfg α
  now : ℕ

namespace Tracker

/-- The level of a component before a pass: unknown when the last pass had none of it. -/
def levelOf (t : Tracker α) (id : String) : Level :=
  ((t.components id).map Component.level).getD .unknown

/-- The limits of a reading. -/
def limitsOf (p : PassInput α) (r : Reading α) : Limits α :=
  let (set, base) := settingFor r.id r.cls p.settings p.cfg
  resolve r.device set base

/-- The level of a reading. -/
def levelAt (t : Tracker α) (p : PassInput α) (r : Reading α) : Level :=
  level (t.levelOf r.id) r.temp (limitsOf p r) p.cfg.near p.cfg.hysteresis

/-- The component that a reading makes. -/
def component (t : Tracker α) (p : PassInput α) (r : Reading α) : Component α where
  id := r.id
  cls := r.cls
  label := r.label
  source := r.source
  driveId := r.driveId
  shelf := r.shelf
  temp := r.temp
  limits := limitsOf p r
  deviceLimits := r.device.sane
  level := t.levelAt p r
  sinceUnix := match t.components r.id with
    | some c => if c.level = t.levelAt p r then c.sinceUnix else p.now
    | none => p.now
  max := match (t.components r.id).bind Component.max, r.temp with
    | some a, some b => some (Max.max a b)
    | a, b => a <|> b

/-- The alert that a reading tells. -/
def alert (t : Tracker α) (p : PassInput α) (r : Reading α) : Option (Alert α) :=
  if worthTelling (t.levelOf r.id) (t.levelAt p r) then
    some
      { id := r.id, label := r.label, driveId := r.driveId, before := t.levelOf r.id
        now := t.levelAt p r, temp := r.temp, limits := limitsOf p r }
  else none

/-- **One pass**: the alerts to tell, and what is kept. A component without a reading is gone. -/
def pass (t : Tracker α) (p : PassInput α) : List (Alert α) × Tracker α :=
  (p.readings.filterMap (t.alert p),
    { components := p.readings.foldl
        (fun next r => Function.update next r.id (some (t.component p r))) fun _ => none
      atUnix := p.now })

end Tracker

end Pass

end Thermal

end StormDrive
