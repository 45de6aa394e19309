import Mathlib.Algebra.Ring.Nat
import StormDrive.Blockers
import StormDrive.Daemon.Changes
import StormDrive.Interleave.Runs

set_option relaxedAutoImplicit false
set_option autoImplicit false

/-!
# Drive firmware

Firmware updates of drives that may serve data (`firmware.rs`): a request checks its drives and
starts their updates one by one, and an update of a drive that serves data waits for the one lock
and for the volumes on the drive to be redundant.

## Main definitions

* `DriveFirmware.volumesOn`, `DriveFirmware.redundancyBlocker` — what an update looks at in the
  listing of the engine.
* `DriveFirmware.World.step` — requests, updates, and what else happens to drives and volumes.
* `DriveFirmware.Safe` — what is promised of a step.
* `DriveFirmware.Careful` — a drive is still as it was checked when its update is started, nobody
  else changes it during the update, the listing says whose its legs are, and a volume does not lose
  its redundancy between the last look and the download.

## Main results

* `DriveFirmware.updates_safe_of_careful` — **careful runs are safe**.
* `DriveFirmware.updated_twice` — two requests that are both checked before either starts an update
  give the drive two.

## Implementation notes

The listing of the engine has each drive by a WWN, a serial or a path. Beside it, an entry has the
drive that it is about, and a volume the drives that it has legs on. The progress that an update
shows, the history and the events are left out.
-/

namespace StormDrive

namespace DriveFirmware

/-! ## Volumes on a drive -/

/-- A drive, as the engine names it; a field that is missing is empty. -/
structure Ref where
  wwn : String
  serial : String
  path : String
  deriving DecidableEq

/-- A drive or a slab in the placement of a volume. Beside it, the drive that it is about. -/
structure Entry where
  drive : Option Ref
  bytes : ℕ
  state : String
  about : Option DriveId
  deriving DecidableEq

/-- Where a volume is; a word that is missing is empty. -/
structure Placement where
  drives : List Entry
  slabs : List Entry
  rebuild : String
  health : String
  deriving DecidableEq

/-- A volume in the listing. Beside it, the drives that it has legs on. -/
structure Volume where
  id : String
  name : String
  placement : Option Placement
  legs : List DriveId
  deriving DecidableEq

/-- A slab of the listing is on the drive: a WWN decides alone. -/
def slabOn (entry : Entry) (d : Drive) : Bool :=
  match entry.drive with
  | none => false
  | some r =>
    if r.wwn ≠ "" then d.wwid.any fun w => Text.eqIgnoreAsciiCase w r.wwn
    else if r.serial ≠ "" then r.serial = d.serial
    else r.path ≠ "" && (r.path = d.path || d.paths.contains r.path)

/-- An entry is on the drive, and on no other node. -/
def placedOn (entry : Entry) (d : Drive) : Bool :=
  !((entry.drive.map Ref.path).any fun path => Text.contains path "://") && slabOn entry d

/-- One volume with legs on a drive. -/
structure DriveVolume where
  id : String
  name : String
  bytes : ℕ
  state : String
  rebuild : String
  health : Option String
  deriving DecidableEq

/-- The words for a slab that is not well, the worst first. -/
def worst : List String := ["missing", "failed", "quarantined", "draining"]

/-- The volume, if it is on the drive. -/
def volumeOn (d : Drive) (v : Volume) (p : Placement) : Option DriveVolume :=
  let here := p.drives.filter fun e => placedOn e d
  let slabs := p.slabs.filter fun e => placedOn e d
  if here = [] then none
  else some
    { id := v.id
      name := if v.name = "" then v.id else v.name
      bytes := (here.map Entry.bytes).sum
      state := (worst.find? fun w => slabs.any fun s => s.state = w).getD "ok"
      rebuild := if p.rebuild = "" then "none" else p.rebuild
      health := if p.health = "" then none else some p.health }

/-- The volumes with legs on the drive, largest first; none when no volume says where it is. -/
def volumesOn (d : Drive) (volumes : List Volume) : Option (List DriveVolume) :=
  let placed := volumes.filterMap fun v => v.placement.map fun p => (v, p)
  if placed = [] && volumes ≠ [] then none
  else some ((placed.filterMap fun x => volumeOn d x.1 x.2).mergeSort fun a b =>
    b.bytes < a.bytes || (b.bytes = a.bytes && a.id ≤ b.id))

/-- What is not redundant about a volume. -/
def lacks (v : DriveVolume) : List String :=
  (match v.health with
    | some h => if h ≠ "healthy" then ["redundancy " ++ h] else []
    | none => []) ++
  (if v.rebuild ≠ "none" then ["rebuild " ++ v.rebuild] else []) ++
  (if v.state ≠ "ok" then ["its slab here is " ++ v.state] else [])

/-- A volume that is not redundant, in words. -/
def complaint (v : DriveVolume) : Option String :=
  if lacks v = [] then none else some (v.name ++ " (" ++ Text.join ", " (lacks v) ++ ")")

/-- Why a drive that serves data must not reset now. -/
def redundancyBlocker : Option (List DriveVolume) → Option String
  | none => some ("the engine reports no volume placement, so the volumes on this drive " ++
      "cannot be checked (force to go ahead)")
  | some vols =>
    let bad := vols.filterMap complaint
    if bad = [] then none
    else some (toString bad.length ++ " volume(s) on it are not fully redundant: " ++
      Text.join "; " bad)

/-! ## Requests and updates -/

/-- A request whose drives were checked, with those that are still to be started, as they were. -/
structure Request where
  force : Bool
  left : List Drive
  deriving DecidableEq

/-- Where an update is: on its way to the lock, waiting for redundancy, about to download,
downloading, waiting for redundancy again, over, written down, done. -/
inductive Stage
  | queued
  | locked
  | cleared
  | downloading
  | rechecking
  | ended (error : Option String)
  | written
  | done
  deriving DecidableEq

/-- An update, with the drive as it was when it was checked. -/
structure Update where
  drive : Drive
  force : Bool
  stage : Stage
  deriving DecidableEq

namespace Update

/-- It is up to now. -/
def isOpen (u : Update) : Bool :=
  match u.stage with
  | .written | .done => false
  | _ => true

/-- Its download has not begun. -/
def waits (u : Update) : Bool :=
  match u.stage with
  | .queued | .locked | .cleared => true
  | _ => false

/-- Its download has begun and it is not over. -/
def isActive (u : Update) : Bool :=
  match u.stage with
  | .downloading | .rechecking | .ended _ => true
  | _ => false

/-- It has the lock. -/
def holds (u : Update) : Bool :=
  u.drive.servesData &&
    match u.stage with
    | .queued | .done => false
    | _ => true

/-- It waits for redundancy. -/
def gated (enabled : Bool) (u : Update) : Bool := u.drive.servesData && enabled && !u.force

end Update

/-- The inventory, what the engine lists, the requests on their way, and the updates. -/
structure World where
  drives : DriveId → Option Drive
  listing : Option (List Volume)
  requests : List Request
  updates : List Update

/-- What happens. A request and an update are given by their places. -/
inductive Event
  | request (force : Bool) (ids : List DriveId)
  /-- The request starts the update of its next drive. -/
  | start (r : ℕ)
  | lock (u : ℕ)
  /-- The update asks the engine for the volumes. -/
  | look (u : ℕ)
  /-- The volumes were not redundant for too long. -/
  | giveUp (u : ℕ)
  | begin (u : ℕ)
  | downloaded (u : ℕ) (error : Option String)
  /-- The volumes are redundant again, or were not for too long. -/
  | rechecked (u : ℕ)
  | write (u : ℕ)
  | finish (u : ℕ)
  /-- Another task writes a record: discovery, health, a join, a leave. -/
  | change (id : DriveId) (d : Option Drive)
  | engine (listing : Option (List Volume))

namespace World

def setStage (w : World) (k : ℕ) (u : Update) (s : Stage) : World :=
  { w with updates := w.updates.set k { u with stage := s } }

/-- The record of a drive, if there is one, is changed. -/
def apply (w : World) (id : DriveId) (c : DriveUpdate) : World :=
  { w with drives := Function.update w.drives id ((w.drives id).map (·.apply c)) }

/-- Every drive is known and passes the check. -/
def request (w : World) (force : Bool) (ids : List DriveId) : World :=
  let drives := ids.eraseDups.filterMap fun id =>
    (w.drives id).filter fun d => d.firmwareBlocker force = none
  if ids = [] then w
  else if drives.length < ids.eraseDups.length then w
  else { w with requests := w.requests ++ [⟨force, drives⟩] }

def start (w : World) (r : ℕ) : World :=
  match w.requests[r]? with
  | some ⟨force, d :: left⟩ =>
    let w := w.apply d.id (.firmwareStarted { state := "running" })
    { w with
      requests := w.requests.set r ⟨force, left⟩
      updates := w.updates ++ [⟨d, force, .queued⟩] }
  | _ => w

def lock (w : World) (k : ℕ) : World :=
  match w.updates[k]? with
  | some ⟨d, force, .queued⟩ =>
    if d.servesData && w.updates.any Update.holds then w
    else w.setStage k ⟨d, force, .queued⟩ .locked
  | _ => w

def look (enabled : Bool) (w : World) (k : ℕ) : World :=
  match w.updates[k]? with
  | some ⟨d, force, .locked⟩ =>
    if Update.gated enabled ⟨d, force, .locked⟩ &&
        (redundancyBlocker (w.listing.bind (volumesOn d))).isSome then w
    else w.setStage k ⟨d, force, .locked⟩ .cleared
  | _ => w

def giveUp (enabled : Bool) (w : World) (k : ℕ) : World :=
  match w.updates[k]? with
  | some ⟨d, force, .locked⟩ =>
    match redundancyBlocker (w.listing.bind (volumesOn d)) with
    | some why =>
      if Update.gated enabled ⟨d, force, .locked⟩ then
        w.setStage k ⟨d, force, .locked⟩ (.ended (some ("not started — " ++ why)))
      else w
    | none => w
  | _ => w

def begin (w : World) (k : ℕ) : World :=
  match w.updates[k]? with
  | some ⟨d, force, .cleared⟩ => w.setStage k ⟨d, force, .cleared⟩ .downloading
  | _ => w

def downloaded (enabled : Bool) (w : World) (k : ℕ) (error : Option String) : World :=
  match w.updates[k]? with
  | some ⟨d, force, .downloading⟩ =>
    w.setStage k ⟨d, force, .downloading⟩
      (if Update.gated enabled ⟨d, force, .downloading⟩ && error = none then .rechecking
        else .ended error)
  | _ => w

def rechecked (w : World) (k : ℕ) : World :=
  match w.updates[k]? with
  | some ⟨d, force, .rechecking⟩ => w.setStage k ⟨d, force, .rechecking⟩ (.ended none)
  | _ => w

def write (w : World) (k : ℕ) : World :=
  match w.updates[k]? with
  | some ⟨d, force, .ended error⟩ =>
    (w.apply d.id (.firmwareFinished error)).setStage k ⟨d, force, .ended error⟩ .written
  | _ => w

def finish (w : World) (k : ℕ) : World :=
  match w.updates[k]? with
  | some ⟨d, force, .written⟩ => w.setStage k ⟨d, force, .written⟩ .done
  | _ => w

def step (enabled : Bool) (w : World) : Event → World
  | .request force ids => w.request force ids
  | .start r => w.start r
  | .lock k => w.lock k
  | .look k => w.look enabled k
  | .giveUp k => w.giveUp enabled k
  | .begin k => w.begin k
  | .downloaded k error => w.downloaded enabled k error
  | .rechecked k => w.rechecked k
  | .write k => w.write k
  | .finish k => w.finish k
  | .change id d => { w with drives := Function.update w.drives id d }
  | .engine listing => { w with listing := listing }

/-- Before the first request. -/
def first (drives : DriveId → Option Drive) (listing : Option (List Volume)) : World :=
  ⟨drives, listing, [], []⟩

end World

/-! ## What is promised, and when it holds -/

/-- A volume with a leg on the drive is redundant: it is healthy, no rebuild is owed, and its slabs
on the drive are well. -/
def Volume.RedundantOn (id : DriveId) (v : Volume) : Prop :=
  id ∈ v.legs → ∃ p, v.placement = some p ∧ p.health = "healthy" ∧
    (p.rebuild = "" ∨ p.rebuild = "none") ∧ ∀ s ∈ p.slabs, s.about = some id → s.state = "ok"

/-- The engine lists every volume with a leg on the drive as redundant. -/
def Shows (listing : Option (List Volume)) (id : DriveId) : Prop :=
  ∃ l, listing = some l ∧ ∀ v ∈ l, v.RedundantOn id

/-- What is promised of a step: one drive with data is updated at most, no drive twice, and a
download begins at a drive that is present and does nothing else, that is not about to fail unless
forced, and whose volumes are redundant if it serves data. -/
structure Safe (enabled : Bool) (w : World) (e : Event) : Prop where
  one : ∀ u ∈ (w.step enabled e).updates, ∀ v ∈ (w.step enabled e).updates,
    u.isActive = true → v.isActive = true →
    (∃ d, (w.step enabled e).drives u.drive.id = some d ∧ d.servesData = true) →
    (∃ d, (w.step enabled e).drives v.drive.id = some d ∧ d.servesData = true) →
    u.drive.id = v.drive.id
  alone : ∀ (i j : ℕ) u v, (w.step enabled e).updates[i]? = some u →
    (w.step enabled e).updates[j]? = some v → u.isOpen = true → v.isOpen = true →
    u.drive.id = v.drive.id → i = j
  begun : ∀ k d₀ force, e = .begin k → w.updates[k]? = some ⟨d₀, force, .cleared⟩ →
    ∃ d, w.drives d₀.id = some d ∧ d.activity = .updatingFirmware ∧
      (force = true ∨ d.health.status.atLeastFailing = false) ∧
      (d.servesData = true → force = false → enabled = true → Shows w.listing d₀.id)

/-- The listing says of the volumes with legs on a drive where they are, and whose its entries are,
in the words that the engine has. -/
def Identifies (l : List Volume) (d : Drive) : Prop :=
  ∀ v ∈ l, d.id ∈ v.legs → ∃ p, v.placement = some p ∧ (∃ e ∈ p.drives, placedOn e d = true) ∧
    p.health ≠ "" ∧ ∀ s ∈ p.slabs, s.about = some d.id →
      placedOn s d = true ∧ (s.state = "ok" ∨ s.state ∈ worst)

/-- The step is careful. -/
def Careful (enabled : Bool) (w : World) : Event → Prop
  -- the drive would still be let in, and serves data as it did
  | .start r => ∀ force d left, w.requests[r]? = some ⟨force, d :: left⟩ →
      ∃ now, w.drives d.id = some now ∧ now.firmwareBlocker force = none ∧
        now.servesData = d.servesData
  | .look k => ∀ u l, w.updates[k]? = some u → w.listing = some l →
      u.gated enabled = true → Identifies l u.drive
  -- a drive that is updated stays so, and until the download it does not begin to fail
  | .change id now => ∀ u ∈ w.updates, u.isOpen = true → u.drive.id = id →
      ∃ d, now = some d ∧ d.activity = .updatingFirmware ∧ d.servesData = u.drive.servesData ∧
        (u.waits = true → u.force = true ∨ d.health.status.atLeastFailing = false)
  -- no volume loses its redundancy between the last look and the download
  | .engine listing => ∀ u ∈ w.updates, u.stage = .cleared → u.gated enabled = true →
      Shows listing u.drive.id
  | _ => True

/-! ## What an update has seen -/

/-- A volume that lacks nothing is redundant, when it is known where it is. -/
lemma redundantOn_of_lacks {d : Drive} {v : Volume} {p : Placement} {dv : DriveVolume}
    (placed : v.placement = some p) (on : volumeOn d v p = some dv) (nothing : lacks dv = [])
    (health : p.health ≠ "")
    (slabs : ∀ s ∈ p.slabs, s.about = some d.id →
      placedOn s d = true ∧ (s.state = "ok" ∨ s.state ∈ worst)) : v.RedundantOn d.id := by
  unfold volumeOn at on
  dsimp only at on
  by_cases here : p.drives.filter (fun e => placedOn e d) = []
  · rw [if_pos here] at on
    exact absurd on nofun
  rw [if_neg here] at on
  obtain rfl := Option.some.inj on
  rw [lacks, List.append_eq_nil_iff, List.append_eq_nil_iff] at nothing
  obtain ⟨⟨healthy, rebuilt⟩, well⟩ := nothing
  rw [ite_eq_right_iff] at rebuilt well
  dsimp only at rebuilt well
  refine fun _ => ⟨p, placed, ?_, ?_, ?_⟩
  · dsimp only at healthy
    rw [if_neg health] at healthy
    dsimp only at healthy
    by_contra other
    rw [if_pos other] at healthy
    exact absurd healthy (List.cons_ne_nil _ _)
  · by_contra owed
    rw [not_or] at owed
    rw [if_neg owed.1] at rebuilt
    exact absurd (rebuilt owed.2) (List.cons_ne_nil _ _)
  · intro s mem about
    obtain ⟨placed, known⟩ := slabs s mem about
    refine known.resolve_right fun bad => ?_
    cases found : worst.find? fun w => (p.slabs.filter fun e => placedOn e d).any fun s =>
        s.state = w with
    | none =>
      have none := List.find?_eq_none.mp found _ bad
      refine none (List.any_eq_true.mpr ⟨s, List.mem_filter.mpr ⟨mem, placed⟩, ?_⟩)
      exact decide_eq_true rfl
    | some word =>
      rw [found, Option.getD_some] at well
      have among := List.mem_of_find?_eq_some found
      refine absurd (well fun ok => ?_) (List.cons_ne_nil _ _)
      rw [ok] at among
      exact absurd among (by decide)

/-- **What an update has looked at is redundant**, when the listing says whose it is. -/
lemma shows_of_unblocked {listing : Option (List Volume)} {d : Drive}
    (free : redundancyBlocker (listing.bind (volumesOn d)) = none)
    (identifies : ∀ l, listing = some l → Identifies l d) : Shows listing d.id := by
  cases listing with
  | none => exact absurd free nofun
  | some l =>
    refine ⟨l, rfl, ?_⟩
    intro v mem leg
    obtain ⟨p, placed, ⟨e, among, on⟩, health, slabs⟩ := identifies l rfl v mem leg
    have known : (v, p) ∈ l.filterMap fun v => v.placement.map fun p => (v, p) :=
      List.mem_filterMap.mpr ⟨v, mem, by rw [placed]; rfl⟩
    have full : p.drives.filter (fun e => placedOn e d) ≠ [] :=
      List.ne_nil_of_mem (List.mem_filter.mpr ⟨among, on⟩)
    obtain ⟨dv, is⟩ : ∃ dv, volumeOn d v p = some dv := by
      unfold volumeOn
      dsimp only
      rw [if_neg full]
      exact ⟨_, rfl⟩
    rw [Option.bind_some, volumesOn] at free
    rw [if_neg] at free
    · rw [redundancyBlocker, ite_eq_left_iff] at free
      have nothing : lacks dv = [] := by
        by_contra something
        have words : complaint dv = some _ := if_neg something
        exact absurd (free (List.ne_nil_of_mem (List.mem_filterMap.mpr ⟨dv,
          List.mem_mergeSort.mpr (List.mem_filterMap.mpr ⟨(v, p), known, is⟩), words⟩))) nofun
      exact redundantOn_of_lacks placed is nothing health slabs leg
    · rw [Bool.and_eq_true, decide_eq_true_eq]
      exact fun none => absurd none.1 (List.ne_nil_of_mem known)

/-! ## The invariant -/

/-- What holds at every state: the record of a drive that is updated says so and is as it was when
the drive was checked, a drive is updated once, one update has the lock, and what is about to be
downloaded to was seen to be redundant. -/
structure Sound (enabled : Bool) (w : World) : Prop where
  record : ∀ u ∈ w.updates, u.isOpen = true →
    ∃ d, w.drives u.drive.id = some d ∧ d.activity = .updatingFirmware ∧
      d.servesData = u.drive.servesData ∧
      (u.waits = true → u.force = true ∨ d.health.status.atLeastFailing = false)
  alone : ∀ (i j : ℕ) u v, w.updates[i]? = some u → w.updates[j]? = some v → u.isOpen = true →
    v.isOpen = true → u.drive.id = v.drive.id → i = j
  lock : ∀ (i j : ℕ) u v, w.updates[i]? = some u → w.updates[j]? = some v → u.holds = true →
    v.holds = true → i = j
  shows : ∀ u ∈ w.updates, u.stage = .cleared → u.gated enabled = true →
    Shows w.listing u.drive.id

lemma sound_first (enabled : Bool) (drives : DriveId → Option Drive)
    (listing : Option (List Volume)) : Sound enabled (World.first drives listing) where
  record := by simp [World.first]
  alone := by simp [World.first]
  lock := by simp [World.first]
  shows := by simp [World.first]

/-- An update that is active is up, and has the lock if its drive served data. -/
lemma Update.of_isActive {u : Update} (h : u.isActive = true) :
    u.isOpen = true ∧ (u.drive.servesData = true → u.holds = true) := by
  obtain ⟨d, force, stage⟩ := u
  cases stage with
  | downloading | rechecking | ended =>
    refine ⟨rfl, fun serves => ?_⟩
    rw [holds, serves]
    rfl
  | queued | locked | cleared | written | done => exact absurd h Bool.false_ne_true

namespace Sound

variable {enabled : Bool} {w : World}

/-- What is promised of the updates holds of a state with the invariant. -/
lemma one_alone (inv : Sound enabled w) :
    (∀ u ∈ w.updates, ∀ v ∈ w.updates, u.isActive = true → v.isActive = true →
      (∃ d, w.drives u.drive.id = some d ∧ d.servesData = true) →
      (∃ d, w.drives v.drive.id = some d ∧ d.servesData = true) → u.drive.id = v.drive.id) := by
  intro u hu v hv active_u active_v serves_u serves_v
  have holds {u : Update} (mem : u ∈ w.updates) (active : u.isActive = true)
      (serves : ∃ d, w.drives u.drive.id = some d ∧ d.servesData = true) : u.holds = true := by
    obtain ⟨on, has⟩ := Update.of_isActive active
    obtain ⟨d, known, -, same, -⟩ := inv.record u mem on
    obtain ⟨d', known', serves⟩ := serves
    rw [known] at known'
    obtain rfl := Option.some.inj known'
    exact has (same.symm.trans serves)
  obtain ⟨i, at_i⟩ := List.getElem?_of_mem hu
  obtain ⟨j, at_j⟩ := List.getElem?_of_mem hv
  have same := inv.lock i j u v at_i at_j (holds hu active_u serves_u) (holds hv active_v serves_v)
  rw [same, at_j] at at_i
  rw [Option.some.inj at_i]

/-- An update goes on to a stage. -/
lemma setStage (inv : Sound enabled w) {k : ℕ} {u : Update} (h : w.updates[k]? = some u)
    {s : Stage} (on : ({ u with stage := s } : Update).isOpen = true → u.isOpen = true)
    (waits : ({ u with stage := s } : Update).waits = true → u.waits = true)
    (holds : ({ u with stage := s } : Update).holds = true → u.holds = false →
      ∀ v ∈ w.updates, v.holds = false)
    (cleared : s = .cleared → u.gated enabled = true → Shows w.listing u.drive.id) :
    Sound enabled (w.setStage k u s) := by
  have mem := List.mem_of_getElem? h
  -- an update of the new state is the one that went on, or is at another place
  have cases {i : ℕ} {v : Update} (at_i : (w.updates.set k { u with stage := s })[i]? = some v) :
      (i = k ∧ v = { u with stage := s }) ∨ (i ≠ k ∧ w.updates[i]? = some v) := by
    by_cases same : i = k
    · rw [same, List.getElem?_set_self (List.getElem?_eq_some_iff.mp h).1] at at_i
      exact Or.inl ⟨same, (Option.some.inj at_i).symm⟩
    · rw [List.getElem?_set_ne (Ne.symm same)] at at_i
      exact Or.inr ⟨same, at_i⟩
  constructor
  · intro v hv open_v
    obtain old | rfl := List.mem_or_eq_of_mem_set hv
    · exact inv.record v old open_v
    · obtain ⟨d, known, busy, serves, fit⟩ := inv.record u mem (on open_v)
      exact ⟨d, known, busy, serves, fun now => fit (waits now)⟩
  · intro i j v v' at_i at_j open_v open_v' same
    obtain ⟨rfl, rfl⟩ | ⟨-, was_i⟩ := cases at_i
    · obtain ⟨rfl, -⟩ | ⟨-, was_j⟩ := cases at_j
      · rfl
      · exact inv.alone i j u v' h was_j (on open_v) open_v' same
    · obtain ⟨rfl, rfl⟩ | ⟨-, was_j⟩ := cases at_j
      · exact inv.alone i j v u was_i h open_v (on open_v') same
      · exact inv.alone i j v v' was_i was_j open_v open_v' same
  · intro i j v v' at_i at_j has_v has_v'
    -- whoever gets the lock gets it from no one
    have got {v : Update} (now : ({ u with stage := s } : Update).holds = true) {i : ℕ}
        (at_i : w.updates[i]? = some v) (has : v.holds = true) : i = k := by
      by_cases had : u.holds = true
      · exact inv.lock i k v u at_i h has had
      · have free := holds now (by rwa [Bool.not_eq_true] at had) v (List.mem_of_getElem? at_i)
        rw [free] at has
        exact absurd has Bool.false_ne_true
    obtain ⟨rfl, rfl⟩ | ⟨-, was_i⟩ := cases at_i
    · obtain ⟨rfl, -⟩ | ⟨-, was_j⟩ := cases at_j
      · rfl
      · exact (got has_v was_j has_v').symm
    · obtain ⟨rfl, rfl⟩ | ⟨-, was_j⟩ := cases at_j
      · exact got has_v' was_i has_v
      · exact inv.lock i j v v' was_i was_j has_v has_v'
  · intro v hv stage gate
    obtain old | rfl := List.mem_or_eq_of_mem_set hv
    · exact inv.shows v old stage gate
    · exact cleared stage gate

/-- The records change, of drives that are updated as they may. -/
lemma records (inv : Sound enabled w) {drives : DriveId → Option Drive}
    (kept : ∀ u ∈ w.updates, u.isOpen = true →
      ∃ d, drives u.drive.id = some d ∧ d.activity = .updatingFirmware ∧
        d.servesData = u.drive.servesData ∧
        (u.waits = true → u.force = true ∨ d.health.status.atLeastFailing = false)) :
    Sound enabled { w with drives := drives } where
  record := kept
  alone := inv.alone
  lock := inv.lock
  shows := inv.shows

end Sound

namespace Sound

variable {enabled : Bool} {w : World}

/-- A stage with which an update gets nothing. -/
lemma goesOn (inv : Sound enabled w) {k : ℕ} {u : Update} (h : w.updates[k]? = some u) {s : Stage}
    (on : ({ u with stage := s } : Update).isOpen = true → u.isOpen = true)
    (waits : ({ u with stage := s } : Update).waits = false)
    (holds : ({ u with stage := s } : Update).holds = true → u.holds = true)
    (uncleared : s ≠ .cleared) : Sound enabled (w.setStage k u s) := by
  refine inv.setStage h on ?_ ?_ fun now => absurd now uncleared
  · intro now
    rw [waits] at now
    exact absurd now Bool.false_ne_true
  · intro now had
    rw [holds now] at had
    exact absurd had nofun

lemma request (inv : Sound enabled w) (force : Bool) (ids : List DriveId) :
    Sound enabled (w.request force ids) := by
  unfold World.request
  dsimp only
  split_ifs
  · exact inv
  · exact inv
  · exact ⟨inv.record, inv.alone, inv.lock, inv.shows⟩

lemma free_of_firmwareBlocker {d : Drive} {force : Bool} (h : d.firmwareBlocker force = none) :
    d.activity = .idle ∧ (force = true ∨ d.health.status.atLeastFailing = false) := by
  simp only [Drive.firmwareBlocker, Option.orElse_eq_none, refuse_eq_none_iff, ne_eq, not_not] at h
  refine ⟨h.2.1, ?_⟩
  cases force with
  | true => exact Or.inl rfl
  | false => exact Or.inr (by simpa using h.2.2)

lemma start (inv : Sound enabled w) (r : ℕ)
    (careful : ∀ force d left, w.requests[r]? = some ⟨force, d :: left⟩ →
      ∃ now, w.drives d.id = some now ∧ now.firmwareBlocker force = none ∧
        now.servesData = d.servesData) : Sound enabled (w.start r) := by
  unfold World.start
  split
  · next force d left h =>
    obtain ⟨now, known, free, serves⟩ := careful force d left h
    obtain ⟨idle, fit⟩ := free_of_firmwareBlocker free
    -- nobody updates the drive, as it is idle
    have other {u : Update} (mem : u ∈ w.updates) (on : u.isOpen = true) : u.drive.id ≠ d.id := by
      intro same
      obtain ⟨d', known', busy, -⟩ := inv.record u mem on
      rw [same, known] at known'
      rw [← Option.some.inj known', idle] at busy
      exact absurd busy nofun
    have old {i : ℕ} {u : Update} (at_i : (w.updates ++ [⟨d, force, .queued⟩])[i]? = some u) :
        w.updates[i]? = some u ∨ i = w.updates.length ∧ u = ⟨d, force, .queued⟩ := by
      rw [List.getElem?_append] at at_i
      split_ifs at at_i with before
      · exact Or.inl at_i
      · rw [List.getElem?_singleton] at at_i
        split_ifs at at_i with none
        exact Or.inr ⟨by omega, (Option.some.inj at_i).symm⟩
    constructor
    · intro u hu on
      show ∃ d', Function.update w.drives d.id _ u.drive.id = some d' ∧ _
      obtain among | is := List.mem_append.mp hu
      · rw [Function.update_of_ne (other among on)]
        exact inv.record u among on
      · obtain rfl := List.mem_singleton.mp is
        rw [Function.update_self, known]
        exact ⟨_, rfl, rfl, serves, fun _ => fit⟩
    · intro i j u v at_i at_j on_u on_v same
      obtain was_i | ⟨rfl, rfl⟩ := old at_i
      · obtain was_j | ⟨rfl, rfl⟩ := old at_j
        · exact inv.alone i j u v was_i was_j on_u on_v same
        · exact absurd same (other (List.mem_of_getElem? was_i) on_u)
      · obtain was_j | ⟨rfl, -⟩ := old at_j
        · exact absurd same.symm (other (List.mem_of_getElem? was_j) on_v)
        · rfl
    · intro i j u v at_i at_j has_u has_v
      have unheld : (⟨d, force, .queued⟩ : Update).holds = false := Bool.and_false _
      obtain was_i | ⟨-, rfl⟩ := old at_i
      · obtain was_j | ⟨-, rfl⟩ := old at_j
        · exact inv.lock i j u v was_i was_j has_u has_v
        · rw [unheld] at has_v
          exact absurd has_v Bool.false_ne_true
      · rw [unheld] at has_u
        exact absurd has_u Bool.false_ne_true
    · intro u hu stage gate
      obtain among | is := List.mem_append.mp hu
      · exact inv.shows u among stage gate
      · obtain rfl := List.mem_singleton.mp is
        exact absurd stage nofun
  · exact inv

lemma takeLock (inv : Sound enabled w) (k : ℕ) : Sound enabled (w.lock k) := by
  unfold World.lock
  split
  · next d force h =>
    split_ifs with taken
    · exact inv
    · refine inv.setStage h (fun _ => rfl) (fun _ => rfl) ?_ nofun
      intro has _ v mem
      have serves : d.servesData = true := (Bool.and_eq_true_iff.mp has).1
      rw [serves, Bool.true_and, List.any_eq_true] at taken
      by_contra held
      exact taken ⟨v, mem, by rwa [Bool.not_eq_false] at held⟩
  · exact inv

lemma look (inv : Sound enabled w) (k : ℕ)
    (careful : ∀ u l, w.updates[k]? = some u → w.listing = some l → u.gated enabled = true →
      Identifies l u.drive) : Sound enabled (w.look enabled k) := by
  unfold World.look
  split
  · next d force h =>
    split_ifs with blocked
    · exact inv
    · refine inv.setStage h (fun _ => rfl) (fun _ => rfl) ?_ ?_
      · intro has had
        exact absurd (had.symm.trans has) Bool.false_ne_true
      · intro _ gate
        rw [gate, Bool.true_and, Bool.not_eq_true, Option.isSome_eq_false_iff,
          Option.isNone_iff_eq_none] at blocked
        exact shows_of_unblocked blocked fun l listed => careful _ l h listed gate
  · exact inv

lemma giveUp (inv : Sound enabled w) (k : ℕ) : Sound enabled (w.giveUp enabled k) := by
  unfold World.giveUp
  split
  · next d force h =>
    split
    · split_ifs
      · exact inv.goesOn h (fun _ => rfl) rfl id nofun
      · exact inv
    · exact inv
  · exact inv

lemma begin (inv : Sound enabled w) (k : ℕ) : Sound enabled (w.begin k) := by
  unfold World.begin
  split
  · next d force h => exact inv.goesOn h (fun _ => rfl) rfl id nofun
  · exact inv

lemma downloaded (inv : Sound enabled w) (k : ℕ) (error : Option String) :
    Sound enabled (w.downloaded enabled k error) := by
  unfold World.downloaded
  split
  · next d force h =>
    split_ifs
    · exact inv.goesOn h (fun _ => rfl) rfl id nofun
    · exact inv.goesOn h (fun _ => rfl) rfl id nofun
  · exact inv

lemma rechecked (inv : Sound enabled w) (k : ℕ) : Sound enabled (w.rechecked k) := by
  unfold World.rechecked
  split
  · next d force h => exact inv.goesOn h (fun _ => rfl) rfl id nofun
  · exact inv

lemma write (inv : Sound enabled w) (k : ℕ) : Sound enabled (w.write k) := by
  unfold World.write
  split
  · next d force error h =>
    have closed := inv.goesOn h (s := .written) nofun rfl id nofun
    refine closed.records ?_
    intro u hu on
    have other : u.drive.id ≠ d.id := by
      intro same
      obtain ⟨i, at_i⟩ := List.getElem?_of_mem hu
      by_cases here : i = k
      · rw [here] at at_i
        have set : (w.updates.set k ⟨d, force, .written⟩)[k]? = some u := at_i
        rw [List.getElem?_set_self (List.getElem?_eq_some_iff.mp h).1] at set
        rw [← Option.some.inj set] at on
        exact absurd on nofun
      · have was : (w.updates.set k ⟨d, force, .written⟩)[i]? = some u := at_i
        rw [List.getElem?_set_ne (Ne.symm here)] at was
        exact here (inv.alone i k u _ was h on rfl same)
    obtain ⟨now, known, rest⟩ := closed.record u hu on
    refine ⟨now, ?_, rest⟩
    show Function.update w.drives d.id _ u.drive.id = _
    rw [Function.update_of_ne other]
    exact known
  · exact inv

lemma finish (inv : Sound enabled w) (k : ℕ) : Sound enabled (w.finish k) := by
  unfold World.finish
  split
  · next d force h =>
    refine inv.goesOn h nofun rfl ?_ nofun
    intro has
    exact absurd (Bool.and_eq_true_iff.mp has).2 Bool.false_ne_true
  · exact inv

/-- **A careful step keeps the invariant**. -/
lemma step (inv : Sound enabled w) {e : Event} (careful : Careful enabled w e) :
    Sound enabled (w.step enabled e) := by
  cases e with
  | request force ids => exact inv.request force ids
  | start r => exact inv.start r careful
  | lock k => exact inv.takeLock k
  | look k => exact inv.look k careful
  | giveUp k => exact inv.giveUp k
  | begin k => exact inv.begin k
  | downloaded k error => exact inv.downloaded k error
  | rechecked k => exact inv.rechecked k
  | write k => exact inv.write k
  | finish k => exact inv.finish k
  | change id now =>
    refine inv.records ?_
    intro u hu on
    by_cases same : u.drive.id = id
    · rw [same, Function.update_self]
      exact careful u hu on same
    · rw [Function.update_of_ne same]
      exact inv.record u hu on
  | engine listing => exact ⟨inv.record, inv.alone, inv.lock, careful⟩

/-- A step that keeps the invariant is safe. -/
lemma safe (inv : Sound enabled w) {e : Event} (after : Sound enabled (w.step enabled e)) :
    Safe enabled w e where
  one := after.one_alone
  alone := after.alone
  begun := by
    intro k d₀ force _ h
    have mem := List.mem_of_getElem? h
    obtain ⟨d, known, busy, serves, fit⟩ := inv.record _ mem rfl
    refine ⟨d, known, busy, fit rfl, ?_⟩
    intro data unforced on
    refine inv.shows _ mem rfl ?_
    rw [Update.gated, ← serves, data, on, unforced]
    rfl

end Sound

/-! ## Careful runs -/

/-- **Careful runs are safe**. -/
theorem updates_safe_of_careful (enabled : Bool) (drives : DriveId → Option Drive)
    (listing : Option (List Volume)) (es : List Event)
    (careful : Runs.Each (World.step enabled) (Careful enabled) (World.first drives listing) es) :
    Runs.Each (World.step enabled) (Safe enabled) (World.first drives listing) es :=
  Runs.each_of_each (fun _ _ inv ok => inv.step ok) (fun _ _ inv ok => inv.safe (inv.step ok))
    (sound_first enabled drives listing) careful

/-- A drive in the fleet. -/
def fleetDrive : Drive := { Drive.testFixture ⟨⟨1⟩⟩ "sda" with membership := .fleet }

/-- It is the only drive. -/
def oneDrive (id : DriveId) : Option Drive := if id = fleetDrive.id then some fleetDrive else none

/-- A volume with a leg on it. -/
def mirrored : Volume where
  id := "v1"
  name := "v1"
  placement := some
    { drives := [⟨some ⟨"", fleetDrive.serial, ""⟩, 1, "", some fleetDrive.id⟩]
      slabs := [⟨some ⟨"", fleetDrive.serial, ""⟩, 1, "ok", some fleetDrive.id⟩]
      rebuild := "none"
      health := "healthy" }
  legs := [fleetDrive.id]

/-- An update of the drive, up to its download. -/
def updateRun : List Event := [.request false [fleetDrive.id], .start 0, .lock 0, .look 0, .begin 0]

/-- The drive is updated while its volume is redundant. -/
theorem fleet_drive_updated : Runs.Each (World.step true) (Safe true)
    (World.first oneDrive (some [mirrored])) updateRun := by
  apply updates_safe_of_careful
  refine ⟨trivial, ?_, trivial, ?_, trivial, trivial⟩
  · intro force d left h
    have is : Request.mk false [fleetDrive] = ⟨force, d :: left⟩ := Option.some.inj h
    obtain ⟨rfl, rest⟩ := Request.mk.inj is
    obtain ⟨rfl, -⟩ := List.cons.inj rest
    exact ⟨fleetDrive, rfl, by decide, rfl⟩
  · intro u l h listed _
    have is : (⟨fleetDrive, false, .locked⟩ : Update) = u := Option.some.inj h
    have same : [mirrored] = l := Option.some.inj listed
    subst is same
    intro v mem _
    obtain rfl := List.mem_singleton.mp mem
    refine ⟨_, rfl, ⟨_, List.mem_singleton.mpr rfl, by decide⟩, by decide, ?_⟩
    intro s mem _
    obtain rfl := List.mem_singleton.mp mem
    exact ⟨by decide, Or.inl rfl⟩

/-- Two requests that are both checked before either starts its update give the drive two. -/
theorem updated_twice : ¬ Runs.Each (World.step true) (Safe true)
    (World.first oneDrive (some [mirrored]))
    [.request false [fleetDrive.id], .request false [fleetDrive.id], .start 0, .start 1] := by
  intro safe
  have same := safe.2.2.2.1.alone 0 1 ⟨fleetDrive, false, .queued⟩ ⟨fleetDrive, false, .queued⟩
    rfl rfl rfl rfl rfl
  exact absurd same (by decide)

end DriveFirmware

end StormDrive
