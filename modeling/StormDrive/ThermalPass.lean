import Mathlib.Algebra.Order.Field.Rat
import Mathlib.Data.Prod.Lex
import Mathlib.Data.String.Basic
import Mathlib.Order.WithBot
import StormDrive.Interleave.Ledger
import StormDrive.Interleave.Runs
import StormDrive.Interleave.StableSort
import StormDrive.OrderedMap
import StormDrive.Thermal

set_option relaxedAutoImplicit false
set_option autoImplicit false

/-!
# A whole thermal pass

What a pass over the temperatures and the fans of a node leaves behind (`thermal.rs`): beside the
components the trend of each, the cooling that the node asks its BMC for, what of it goes into the
history in system-data, what a hot drive means, and what is told of all that.

## Main definitions

* `Thermal.fanProblem`, `Thermal.cooling` — a fan that does not cool, and the cooling request.
* `Thermal.WholeTracker`, `Thermal.WholeTracker.pass` — what is kept between passes, and one pass.
* `Thermal.DriveState.ofComponent` — what a hot drive means.
* `Thermal.Node`, `Thermal.Node.step` — a node over passes and restarts: its tracker, its drives,
  what it told, and its history.

## Main results

* `Thermal.WholeTracker.tracker_pass` — **the components and the alerts are those of
  `Tracker.pass`**.

## Implementation notes

The components are the entries of an ordered map, which is what the source's `BTreeMap` gives when
it is walked. The reasons of a cooling request are kept as data: the source writes them as text,
with the temperatures rounded. Whether a line of the history can be read back later is decided by
the environment: system-data may be absent, or a write fail.
-/

namespace StormDrive

namespace Thermal

/-! ## Fans -/

/-- One fan as read in a pass. -/
structure Fan where
  id : String
  label : String
  source : String := ""
  shelf : Option String := none
  rpm : Option ℕ
  minRpm : Option ℕ
  /-- The chip or the enclosure flags it. -/
  failed : Bool
  /-- Why it counts as not cooling, when it does not. -/
  problem : Option String := none
  deriving DecidableEq

/-- A fan that is stopped, under its minimum or flagged does not cool. -/
def fanProblem (f : Fan) : Option String :=
  if f.failed then some (f.label ++ " reports a fault")
  else
    match f.rpm, f.minRpm with
    | some r, some m =>
      if r = 0 ∧ 0 < m then
        some (f.label ++ " stopped (minimum " ++ toString m ++ " RPM)")
      else if r < m then
        some (f.label ++ " at " ++ toString r ++ " RPM, under its minimum " ++ toString m ++ " RPM")
      else none
    | _, _ => none

section Whole

variable {α : Type} [NatCast α] [Sub α] [LinearOrder α]

/-! ## Cooling -/

/-- What the node asks its BMC for. -/
inductive CoolingLevel
  | auto | raise | max
  deriving DecidableEq

/-- What is behind a cooling request: a component near or over a limit, or a fan. -/
inductive Cause (α : Type)
  | hot (label : String) (temp : Option α) (critical : Bool) (limit : α)
  | fan (problem : String)

/-- The request, what is behind it, hottest first, and since when. -/
structure Cooling (α : Type) where
  request : CoolingLevel
  why : List (Cause α)
  sinceUnix : ℕ

/-- How far a component is under its warning limit; nothing is further than none. -/
def margin (c : Component α) : WithTop α :=
  match c.temp with
  | some t => ((c.limits.warn - t : α) : WithTop α)
  | none => ⊤

/-- The order of the reasons: the higher level first, then the smaller margin. -/
def heat (c : Component α) : Lex (Levelᵒᵈ × WithTop α) :=
  toLex (OrderDual.toDual c.level, margin c)

/-- The components near a limit or over it, hottest first. -/
def hot (components : List (Component α)) : List (Component α) :=
  StableSort.byKey heat (components.filter fun c => .near ≤ c.level)

/-- A component as a reason. -/
def causeOf (c : Component α) : Cause α :=
  .hot c.label c.temp (c.level = .critical)
    (if c.level = .critical then c.limits.crit else c.limits.warn)

/-- **The cooling request** from a pass's components and fans. -/
def cooling (components : List (Component α)) (fans : List Fan) :
    CoolingLevel × List (Cause α) :=
  let why := (hot components).map causeOf ++ fans.filterMap fun f => f.problem.map .fan
  (if (hot components).any fun c => c.level = .critical then .max
    else if why.isEmpty then .auto
    else .raise, why)

/-! ## A pass -/

/-- What a pass is given: the readings with their limits, the fans, and the tunables that the
levels do not need. -/
structure PassWhole (α : Type) extends PassInput α where
  fans : List Fan := []
  bootId : String := ""
  replaceAfter : ℕ
  heartbeat : ℕ
  trendLen : ℕ

/-- A component in a line of the history. -/
structure HistoryPoint (α : Type) where
  id : String
  cls : Class
  temp : Option α
  level : Level
  warn : α
  crit : α

/-- A fan in a line of the history. -/
structure FanPoint where
  id : String
  rpm : Option ℕ

/-- One line of the thermal history in system-data. -/
structure HistoryLine (α : Type) where
  unix : ℕ
  bootId : String
  components : List (HistoryPoint α)
  fans : List FanPoint

/-- Everything between passes. -/
structure WholeTracker (α : Type) where
  components : List (String × Component α) := []
  fans : List Fan := []
  cooling : Option (Cooling α) := none
  atUnix : ℕ := 0
  /-- Each component's recent readings, oldest first. -/
  trend : String → List (ℕ × α) := fun _ => []
  /-- What was last written of each component. -/
  written : Ledger.Book String (Option α × Level) := fun _ => none
  fansWritten : Ledger.Book String (Option ℕ) := fun _ => none
  passes : ℕ := 0

/-- A component is due when its level changed, its reading moved by a degree, or one of the two is
missing. -/
def componentRule (heartbeat : ℕ) : Ledger.Rule (Option α × Level) where
  differs u v := u.2 ≠ v.2 ||
    match u.1, v.1 with
    | some a, some b => (1 : ℕ) ≤ a - b || (1 : ℕ) ≤ b - a
    | a, b => a.isSome ≠ b.isSome
  heartbeat := heartbeat

/-- A fan is due when its speed moved by a tenth, or one of the two is missing. -/
def fanRule (heartbeat : ℕ) : Ledger.Rule (Option ℕ) where
  differs u v := match u, v with
    | some a, some b => max a 1 ≤ (max a b - min a b) * 10
    | a, b => a.isSome ≠ b.isSome
  heartbeat := heartbeat

/-- A component as a point of the history. -/
def Component.point (c : Component α) : HistoryPoint α :=
  ⟨c.id, c.cls, c.temp, c.level, c.limits.warn, c.limits.crit⟩

/-- One more reading in a trend, which keeps at most so many. -/
def pushTrend (len : ℕ) (trend : List (ℕ × α)) (x : ℕ × α) : List (ℕ × α) :=
  (trend ++ [x]).drop ((trend ++ [x]).length - max len 1)

namespace WholeTracker

/-- The components as they are looked up. -/
def tracker (w : WholeTracker α) : Tracker α := ⟨OrderedMap.get w.components, w.atUnix⟩

/-- The components of a pass. -/
def next (w : WholeTracker α) (p : PassInput α) : List (String × Component α) :=
  OrderedMap.ofList (p.readings.map fun r => (r.id, w.tracker.component p r))

/-- One reading enters the trend of its component. -/
def trendOne (p : PassWhole α) (trend : String → List (ℕ × α)) (r : Reading α) :
    String → List (ℕ × α) :=
  match r.temp with
  | some t => Function.update trend r.id (pushTrend p.trendLen (trend r.id) (p.now, t))
  | none => trend

/-- The trends after a pass: a component that is gone takes its trend with it. -/
def trendNext (w : WholeTracker α) (p : PassWhole α) (id : String) : List (ℕ × α) :=
  if (OrderedMap.get (w.next p.toPassInput) id).isSome then
    p.readings.foldl (trendOne p) w.trend id
  else []

/-- What is due in the history of components and fans, given what was written. -/
def due (w : WholeTracker α) (p : PassWhole α) (components : List (Component α))
    (fans : List Fan) : (Ledger.Book String (Option α × Level) × List (Component α)) ×
      (Ledger.Book String (Option ℕ) × List Fan) :=
  (Ledger.writeAll Component.id (fun c => (c.temp, c.level)) (componentRule p.heartbeat) p.now
      w.written components,
    Ledger.writeAll Fan.id Fan.rpm (fanRule p.heartbeat) p.now w.fansWritten fans)

/-- The line of the history, when anything is due. -/
def lineOf (p : PassWhole α) (components : List (Component α)) (fans : List Fan) :
    Option (HistoryLine α) :=
  if components.isEmpty ∧ fans.isEmpty then none
  else some ⟨p.now, p.bootId, components.map Component.point, fans.map fun f => ⟨f.id, f.rpm⟩⟩

/-- The fans of a pass, each with what is wrong with it. -/
def fansOf (p : PassWhole α) : List Fan := p.fans.map fun f => { f with problem := fanProblem f }

/-- The cooling request of a pass, and since when it stands. -/
def coolingNext (w : WholeTracker α) (p : PassWhole α) : Cooling α :=
  let (request, why) := Thermal.cooling ((w.next p.toPassInput).map Prod.snd) (fansOf p)
  { request := request
    why := why
    sinceUnix := match w.cooling with
      | some c => if c.request = request then c.sinceUnix else p.now
      | none => p.now }

/-- **One pass**: the alerts to tell, the history line that is due, and what is kept. -/
def pass (w : WholeTracker α) (p : PassWhole α) :
    List (Alert α) × Option (HistoryLine α) × WholeTracker α :=
  let next := w.next p.toPassInput
  let fans := fansOf p
  let (written, fansWritten) := w.due p (next.map Prod.snd) fans
  (p.readings.filterMap (w.tracker.alert p.toPassInput), lineOf p written.2 fansWritten.2,
    { components := next
      fans := fans
      cooling := some (w.coolingNext p)
      atUnix := p.now
      trend := w.trendNext p
      written := Ledger.retain (fun id => (OrderedMap.get next id).isSome) written.1
      fansWritten := Ledger.retain (fun id => fans.any fun f => f.id = id) fansWritten.1
      passes := w.passes + 1 })

lemma fans_pass (w : WholeTracker α) (p : PassWhole α) : (w.pass p).2.2.fans = fansOf p := rfl

lemma written_pass (w : WholeTracker α) (p : PassWhole α) :
    (w.pass p).2.2.written =
      Ledger.retain (fun id => (OrderedMap.get (w.next p.toPassInput) id).isSome)
        (w.due p ((w.next p.toPassInput).map Prod.snd) (fansOf p)).1.1 := rfl

lemma fansWritten_pass (w : WholeTracker α) (p : PassWhole α) :
    (w.pass p).2.2.fansWritten =
      Ledger.retain (fun id => (fansOf p).any fun f => f.id = id)
        (w.due p ((w.next p.toPassInput).map Prod.snd) (fansOf p)).2.1 := rfl

/-- What is looked up among the components of a pass is the last reading's. -/
lemma get_next (w : WholeTracker α) (p : PassInput α) :
    OrderedMap.get (w.next p) = (w.tracker.pass p).2.components := by
  show OrderedMap.get (OrderedMap.ofList _) = _
  rw [OrderedMap.get_ofList, List.foldl_map]
  rfl

/-- **The components and the alerts are those of `Tracker.pass`.** -/
theorem tracker_pass (w : WholeTracker α) (p : PassWhole α) :
    ((w.pass p).1, (w.pass p).2.2.tracker) = w.tracker.pass p.toPassInput :=
  Prod.ext rfl (by simp only [pass, tracker, get_next]; rfl)

/-- An entry of the components is one reading's, under its id. -/
lemma id_of_mem_next {w : WholeTracker α} {p : PassInput α} {x : String × Component α}
    (mem : x ∈ w.next p) : x.2.id = x.1 := by
  obtain ⟨r, -, rfl⟩ := List.mem_map.mp (OrderedMap.mem_of_mem_ofList mem)
  rfl

/-- The components of a pass have different ids. -/
lemma nodup_next (w : WholeTracker α) (p : PassInput α) :
    (((w.next p).map Prod.snd).map Component.id).Nodup := by
  have same : ((w.next p).map Prod.snd).map Component.id = (w.next p).map Prod.fst := by
    rw [List.map_map]
    exact List.map_congr_left fun x mem => id_of_mem_next mem
  rw [same]
  exact (List.Pairwise.map Prod.fst (fun _ _ lt => lt) (OrderedMap.increasing_ofList _)).imp
    fun lt => lt.ne

end WholeTracker

/-! ## A node -/

/-- What a hot drive means, on the drive and to the engine. -/
structure DriveState (α : Type) where
  level : Level
  temp : Option α
  limits : Limits α
  sinceUnix : ℕ
  /-- At warning or over: the engine slows the drive's background I/O. -/
  throttleBackground : Bool
  /-- At critical: the engine places nothing new on it. -/
  excludeNewPlacement : Bool
  /-- Critical for so long: replace it. -/
  replaceProposed : Bool

/-- `DriveThermal::from_component`. -/
def DriveState.ofComponent (c : Component α) (now replaceAfter : ℕ) : DriveState α where
  level := c.level
  temp := c.temp
  limits := c.limits
  sinceUnix := c.sinceUnix
  throttleBackground := .warning ≤ c.level
  excludeNewPlacement := c.level = .critical
  replaceProposed := c.level = .critical ∧ replaceAfter ≤ now - c.sinceUnix

/-- What is told in the event log. -/
inductive Note (α : Type)
  | alert (a : Alert α)
  | replace (drive : DriveId) (state : DriveState α)
  | cooling (c : Cooling α)

/-- A node's thermal side: what it keeps in memory and on its drives, what it told, the lines of the
history that can be read back, and the times at which one was lost. -/
structure Node (α : Type) where
  tracker : WholeTracker α := {}
  thermal : DriveId → Option (DriveState α) := fun _ => none
  log : List (Note α) := []
  lines : List (HistoryLine α) := []
  lost : List ℕ := []

/-- What happens on a node. -/
inductive Happening (α : Type)
  /-- A pass, with the drives that are in the inventory, and whether the line of the history can be
  read back. -/
  | pass (p : PassWhole α) (inventory : DriveId → Bool) (kept : Bool)
  /-- A restart, with what the inventory on disk says of its drives. -/
  | restart (thermal : DriveId → Option (DriveState α))
  /-- A drive is forgotten. -/
  | forget (drive : DriveId)

namespace Node

/-- A change of the cooling request is told, and the first one unless it is for nothing. -/
def coolingChange (was : Option (Cooling α)) (now : Cooling α) : Option (Cooling α) :=
  match was with
  | some c => if c.request = now.request then none else some now
  | none => if now.request = .auto then none else some now

/-- What a pass means for one drive: its new state, and the proposal to replace it, when new. -/
def onDrive (s : (DriveId → Option (DriveState α)) × List (Note α)) (x : DriveId × DriveState α) :
    (DriveId → Option (DriveState α)) × List (Note α) :=
  (Function.update s.1 x.1 (some x.2),
    if x.2.replaceProposed ∧ ¬ (s.1 x.1).any DriveState.replaceProposed then
      s.2 ++ [.replace x.1 x.2]
    else s.2)

/-- The drives among the components, with what the pass means for them. -/
def driveStates (p : PassWhole α) (components : List (String × Component α)) :
    List (DriveId × DriveState α) :=
  components.filterMap fun c =>
    c.2.driveId.map fun id => (id, DriveState.ofComponent c.2 p.now p.replaceAfter)

/-- What a pass means for the drives that are in the inventory. -/
def onDrives (n : Node α) (p : PassWhole α) (inventory : DriveId → Bool) :
    (DriveId → Option (DriveState α)) × List (Note α) :=
  ((driveStates p (n.tracker.next p.toPassInput)).filter fun x => inventory x.1).foldl onDrive
    (n.thermal, [])

/-- **What happens to a node.** -/
def step (n : Node α) : Happening α → Node α
  | .pass p inventory kept =>
    let (alerts, line, tracker) := n.tracker.pass p
    let (thermal, proposals) := n.onDrives p inventory
    { tracker := tracker
      thermal := thermal
      log := n.log ++ (alerts.map .alert ++ proposals ++
        ((coolingChange n.tracker.cooling (n.tracker.coolingNext p)).map Note.cooling).toList)
      lines := if kept then n.lines ++ line.toList else n.lines
      lost := if kept ∨ line.isNone then n.lost else p.now :: n.lost }
  | .restart thermal => { n with tracker := {}, thermal := thermal }
  | .forget drive => { n with thermal := Function.update n.thermal drive none }

end Node

end Whole

/-- A pass over one drive of a node, at a time and a temperature. -/
def PassWhole.testFixture (now : ℕ) (t : ℚ) : PassWhole ℚ where
  readings := [{ id := "drive:a", cls := .drive, temp := some t, driveId := some ⟨⟨0⟩⟩ }]
  settings := {}
  cfg := ⟨5, 2, (55, 70)⟩
  now := now
  replaceAfter := 1800
  heartbeat := 600
  trendLen := 4

end Thermal

end StormDrive
