import Mathlib.Data.List.Basic
import StormDrive.Blockers
import StormDrive.Daemon.Ops
import StormDrive.Interleave.Runs
import StormDrive.Interleave.StableSort

set_option relaxedAutoImplicit false
set_option autoImplicit false

/-!
# The system drives in system-data

`system.rs` keeps a file with a line for each drive that is designated `system`, for the install to
read. A line of the file that names no drive is kept, a line that names a drive without a
designation designates it again.

## Main definitions

* `SystemFile.Line`, `SystemFile.entry`, `SystemFile.names` — a line, the line of a drive, and
  whether a line names a drive.
* `SystemFile.plan` — what one sync does.
* `SystemFile.Host`, `SystemFile.Host.step` — the inventory, the file and what `sync` remembers,
  through syncs, designations, discovery passes and restarts.
* `SystemFile.Stable` — what the file promises of a step; `SystemFile.Settled` — what it promises
  after a sync that wrote.
* `SystemFile.Recognised` — every system line names its own drive and no other, and a drive that is
  cleared is out of the file when that is answered.

## Main results

* `SystemFile.atRest_of_wrote` — a sync that wrote leaves the file at rest.
* `SystemFile.Sound.sync` — a sync keeps the cleared drives out of the file.
* `SystemFile.stable_of_recognised` — **in a run whose steps are recognised the file is stable and
  the inventory is the truth**.
* `SystemFile.cleared_drive_restored` — a system designation is cleared, the file cannot be
  written, and the next start designates the drive again.

## Implementation notes

The inventory is a hash map: its order is any order at each sync. A sync is one step. The node and
the time that the file also has are left out, as are the events of a sync.
-/

namespace StormDrive

namespace SystemFile

open Text

/-- One system-designated drive, as the install matches it. -/
structure Line where
  id : String
  wwn : Option String
  serial : String
  model : String
  kind : DriveKind
  capacityBytes : ℕ
  shelf : Option String
  bay : Option ℕ
  path : String
  present : Bool
  deriving DecidableEq

/-- A WWN that is not blank. -/
def filled (w : Option String) : Option String := w.filter fun w => trim w ≠ ""

/-- The line for a drive. -/
def entry (d : Drive) : Line :=
  { id := d.id.uuid.text
    wwn := filled d.wwid
    serial := d.serial
    model := d.model
    kind := d.kind
    capacityBytes := d.capacityBytes
    shelf := d.location.shelf.bind Shelf.key
    bay := d.location.bay
    path := d.path
    present := d.activity ≠ .missing }

/-- Is the drive the one that the line names? By WWN when both have one, else by model and
serial. -/
def names (e : Line) (d : Drive) : Bool :=
  match e.wwn, (d.wwid.map trim).filter (· ≠ "") with
  | some a, some b => eqIgnoreAsciiCase (trim a) b
  | _, _ => trim e.serial ≠ "" ∧ trim e.serial = trim d.serial ∧ trim e.model = trim d.model

/-- A line that was not seen. -/
def Line.absent (e : Line) : Line := { e with present := false }

/-- What one sync does. -/
structure Plan where
  /-- Drives to designate again. -/
  designate : List DriveId
  /-- Drives that a line names and that have another designation. -/
  differs : List (DriveId × Designation)
  /-- Lines that name no drive yet. -/
  kept : List Line
  /-- The drives of the file after this sync. -/
  drives : List Line
  deriving DecidableEq

/-- The drive that a line is taken to name: the first one. -/
def named (inventory : List Drive) (e : Line) : Option Drive := inventory.find? (names e)

def plan (inventory : List Drive) (kept : List Line) : Plan :=
  let designate := kept.filterMap fun e => (named inventory e).bind fun d =>
    if d.designation = .none then some d.id else none
  let differs := kept.filterMap fun e => (named inventory e).bind fun d =>
    if d.designation = .none ∨ d.designation = .system then none else some (d.id, d.designation)
  let unseen := kept.filter fun e => (named inventory e).isNone
  { designate := designate
    differs := differs
    kept := unseen
    drives := StableSort.byKey Line.id
      ((inventory.filter fun d => d.designation = .system ∨ d.id ∈ designate).map entry ++
        unseen.map Line.absent) }

/-- An order in which the map of the inventory is read. -/
structure Order where
  read : List Drive → List Drive
  perm : ∀ l, (read l).Perm l

/-- What a sync meets: whether system-data is there, whether the file can be read, the order of the
inventory, and whether the file can be written. -/
structure Sync where
  available : Bool
  readable : Bool
  order : Order
  writes : Bool

/-- The inventory and its file, the system-drives file, and what `sync` remembers of it: whether
it was read, the lines not matched to a drive, and the drives last written. -/
structure Host where
  inv : List Drive
  saved : List Drive
  file : Option (List Line)
  loaded : Bool
  kept : List Line
  written : Option (List Line)
  deriving DecidableEq

namespace Host

/-- The lines that the next sync looks at: those of the file, until it was read. -/
def pending (h : Host) : List Line := if h.loaded then h.kept else h.file.getD []

/-- The first sync reads the file. One that cannot be read is replaced by what the inventory
says. -/
def load (h : Host) (a : Sync) : Host :=
  if h.loaded then h
  else if a.readable then
    { h with loaded := true, kept := h.file.getD [], written := h.file }
  else { h with loaded := true }

/-- The drives that are designated again. -/
def designated (inventory : List Drive) (ids : List DriveId) : List Drive :=
  inventory.map fun d => if d.id ∈ ids then d.restoredSystem else d

/-- The plan of a sync. -/
def planned (h : Host) (a : Sync) : Plan := plan (a.order.read h.inv) h.kept

/-- One sync. -/
def sync (h : Host) (a : Sync) : Host :=
  if a.available then
    let h := h.load a
    let p := h.planned a
    let h' := { h with inv := designated h.inv p.designate, kept := p.kept }
    if h.written = some p.drives then h'
    else if a.writes then { h' with file := some p.drives, written := some p.drives }
    else h'
  else h

/-- Does a sync write the file? -/
def wrote (h : Host) (a : Sync) : Bool :=
  a.available && a.writes && (h.load a).written ≠ some ((h.load a).planned a).drives

/-- A new process, on an inventory. -/
def restarted (h : Host) (inventory : List Drive) : Host :=
  { h with inv := inventory, saved := inventory, loaded := false, kept := [], written := none }

/-- The drive of an identity gets a designation, unless it is blocked. -/
def label (h : Host) (id : DriveId) (des : Designation) : Host :=
  { h with inv := h.inv.map fun d =>
      if d.id = id ∧ d.designationBlocker des = none then { d with designation := des } else d }

end Host

/-- What happens. -/
inductive Event where
  | sync (a : Sync)
  /-- A designation is set, and answered after its sync and the save of the inventory, if it needs
  one and if that succeeds; or it is cut before that. -/
  | designate (id : DriveId) (des : Designation) (answered : Option (Sync × Bool))
  /-- The inventory is another one: drives are found, move, go and are forgotten. -/
  | discover (inventory : List Drive)
  | save
  /-- The process dies, maybe in a sync whose file is in place already, and starts again, on its
  saved inventory or on none. -/
  | restart (survives : Bool) (cut : Option Order)

/-- The history of the file: a host, and the drives whose system designation was cleared and
answered, as long as the inventory has that. -/
structure Story where
  host : Host
  cleared : List DriveId

namespace Story

/-- The first start. -/
def first (file : Option (List Line)) : Story := ⟨⟨[], [], file, false, [], none⟩, []⟩

/-- Is there a drive of the identity that takes the designation? -/
def accepted (h : Host) (id : DriveId) (des : Designation) : Bool :=
  h.inv.any fun d => d.id = id && (d.designationBlocker des).isNone

/-- The system designation of a drive is there, and may be replaced by another one. -/
def clears (h : Host) (id : DriveId) (des : Designation) : Bool :=
  des ≠ .system && h.inv.any fun d => d.id = id && d.designation = .system &&
    (d.designationBlocker des).isNone

/-- Does setting the designation need a sync? -/
def needsSync (h : Host) (id : DriveId) (des : Designation) : Bool :=
  h.inv.any fun d => d.id = id && (d.designationBlocker des).isNone &&
    (d.designation = .system || des = .system)

def step (s : Story) : Event → Story
  | .sync a => { s with host := s.host.sync a }
  | .designate id des answered =>
    let labelled := s.host.label id des
    let cleared :=
      if des = .system ∧ accepted s.host id des then s.cleared.filter (· ≠ id) else s.cleared
    match answered with
    | none => { s with host := labelled, cleared := cleared }
    | some (a, saved) =>
      let synced := if needsSync s.host id des then labelled.sync a else labelled
      { host := if saved then { synced with saved := synced.inv } else synced
        cleared := if clears s.host id des then id :: cleared else cleared }
  | .discover inventory =>
    { host := { s.host with inv := inventory }
      cleared := s.cleared.filter fun id => inventory.any fun d => d.id = id }
  | .save => { s with host := { s.host with saved := s.host.inv } }
  | .restart survives cut =>
    let file := match cut with
      | none => s.host.file
      | some order => some (plan (order.read s.host.inv) s.host.pending).drives
    let inventory := if survives then s.host.saved else []
    { host := { s.host.restarted inventory with file := file }
      cleared := s.cleared.filter fun id =>
        inventory.any fun d => d.id = id && d.designation ≠ .system }

end Story

/-! ## What the file promises -/

/-- The system-designated drives of an inventory, as lines. -/
def systemLines (inventory : List Drive) : List Line :=
  (inventory.filter fun d => d.designation = .system).map entry

/-- A line names no drive of an inventory. -/
def Unnamed (inventory : List Drive) (e : Line) : Prop := ∀ d ∈ inventory, names e d = false

/-- **A file at rest.** It has one line for each system-designated drive and one for each kept line,
and none of these names a drive. Another sync, and a restart with a sync, designate nothing and
leave the same list. -/
structure Settled (h : Host) : Prop where
  lines : ∃ lines, h.file = some lines ∧
    lines.Perm (systemLines h.inv ++ h.kept.map Line.absent)
  unnamed : ∀ e ∈ h.kept, Unnamed h.inv e
  again : ∀ a, (h.sync a).inv = h.inv ∧ (h.sync a).file = h.file
  restart : ∀ a : Sync, a.readable = true →
    ((h.restarted h.inv).sync a).inv = h.inv ∧ ((h.restarted h.inv).sync a).file = h.file

namespace Story

/-- The sync of a step: the host before it, and what it meets. -/
def synced (s : Story) : Event → Option (Host × Sync)
  | .sync a => some (s.host, a)
  | .designate id des (some (a, _)) =>
    if needsSync s.host id des then some (s.host.label id des, a) else none
  | _ => none

end Story

/-- What a drive says of itself: its WWN, its model and its serial. -/
abbrev Identity := Option String × String × String

/-- What the drive says of itself. -/
def identity (d : Drive) : Identity := (d.wwid, d.model, d.serial)

/-- The events that can be. A file that is there is read. The inventory has a drive once. A drive
that discovery knows keeps its designation and one that it finds has none, and a drive says of
itself always the same. -/
def Listed (identities : DriveId → Identity) (s : Story) : Event → Prop
  | .sync a => a.readable = true
  | .designate _ _ answered => ∀ a ∈ answered, a.1.readable = true
  | .discover inventory =>
    (inventory.map Drive.id).Nodup ∧ ∀ d ∈ inventory, identity d = identities d.id ∧
      (∀ d' ∈ s.host.inv, d'.id = d.id → d.designation = d'.designation) ∧
      ((∀ d' ∈ s.host.inv, d'.id ≠ d.id) → d.designation = .none)
  | .save => True
  | .restart _ _ => True

/-- The line of a drive names the drive, and no other of the inventory. -/
def OwnLine (inventory : List Drive) (d : Drive) : Prop :=
  names (entry d) d = true ∧ ∀ d' ∈ inventory, names (entry d) d' = true → d' = d

/-- Every drive that a sync writes a line for has its own line: those that are system designated,
and those without a designation that a line names. -/
def OwnLines (h : Host) : Prop :=
  ∀ d ∈ h.inv, d.designation = .system ∨
    (d.designation = .none ∧ ∃ e ∈ h.pending, names e d = true) → OwnLine h.inv d

/-- When a cleared drive is out of the file: its sync does not find a line that names it and has it
designated again, and the file is written or has no line for it. -/
def TakenOut (h : Host) (d : Drive) (des : Designation) (a : Sync) : Prop :=
  (des = .none → ∀ e ∈ h.pending, names e d = false) ∧
    (a.available = true ∧ a.writes = true ∨ ∀ e ∈ h.file.getD [], names e d = false)

@[simp] lemma names_absent (e : Line) (d : Drive) : names e.absent d = names e d := rfl

@[simp] lemma absent_absent (e : Line) : e.absent.absent = e.absent := rfl

/-- A line looks at what the drive says of itself. -/
lemma names_congr {d d' : Drive} (h : identity d = identity d') (e : Line) :
    names e d = names e d' := by
  obtain ⟨hwwid, hrest⟩ := Prod.mk.inj h
  obtain ⟨hmodel, hserial⟩ := Prod.mk.inj hrest
  rw [names, names, hwwid, hmodel, hserial]

/-- The line of a drive does not show the designation. -/
lemma entry_restored (d : Drive) : entry d.restoredSystem = entry d := by
  unfold Drive.restoredSystem
  split <;> rfl

lemma identity_restored (d : Drive) : identity d.restoredSystem = identity d := by
  unfold Drive.restoredSystem
  split <;> rfl

lemma named_eq_none {inventory : List Drive} {e : Line} :
    named inventory e = none ↔ Unnamed inventory e := by
  simp [named, Unnamed]

/-! ## Identities as texts -/

/-- Digits are not separators. -/
lemma hexDigit_ne : ∀ n < 16, Uuid.hexDigit n ≠ '-' := by decide

/-- A number is known by its hexadecimal digits. -/
lemma eq_of_digits_eq {k n m : ℕ} (hn : n < 16 ^ k) (hm : m < 16 ^ k)
    (h : ∀ i < k, n / 16 ^ i % 16 = m / 16 ^ i % 16) : n = m := by
  induction k generalizing n m with
  | zero =>
    rw [pow_zero] at hn hm
    omega
  | succ k ih =>
    have hlow : n % 16 = m % 16 := by simpa using h 0 (by omega)
    have hhigh : n / 16 = m / 16 := by
      apply ih
      · rw [pow_succ] at hn
        omega
      · rw [pow_succ] at hm
        omega
      · intro i hi
        have := h (i + 1) (by omega)
        rwa [pow_succ', ← Nat.div_div_eq_div_mul, ← Nat.div_div_eq_div_mul] at this
    omega

/-- The text of an identifier, without the separators, has its digits. -/
lemma filter_text (u : Uuid) : u.text.toList.filter (· ≠ '-') =
    (List.range 32).map fun i => Uuid.hexDigit ((u.bits >>> (4 * (31 - i))).toNat % 16) := by
  rw [Uuid.text, String.toList_ofList, List.filter_flatMap, List.map_eq_flatMap]
  congr 1
  funext i
  have hne := hexDigit_ne ((u.bits >>> (4 * (31 - i))).toNat % 16) (Nat.mod_lt _ (by decide))
  by_cases hi : i = 8 ∨ i = 12 ∨ i = 16 ∨ i = 20
  · simpa [hi] using hne
  · simpa [hi] using hne

/-- **Two identifiers have two texts.** -/
theorem text_injective {u v : Uuid} (h : u.text = v.text) : u = v := by
  have hdigits : ∀ i < 32, (u.bits >>> (4 * (31 - i))).toNat % 16 =
      (v.bits >>> (4 * (31 - i))).toNat % 16 := by
    intro i hi
    have hlists := filter_text u
    rw [h, filter_text v] at hlists
    exact Uuid.hexDigit_injective _ (Nat.mod_lt _ (by decide)) _ (Nat.mod_lt _ (by decide))
      (List.map_inj_left.mp hlists.symm i (List.mem_range.mpr hi))
  have hbits : u.bits.toNat = v.bits.toNat := by
    apply eq_of_digits_eq (show u.bits.toNat < 16 ^ 32 from u.bits.isLt) v.bits.isLt
    intro i hi
    have hdigit := hdigits (31 - i) (by omega)
    rw [show 31 - (31 - i) = i by omega, BitVec.toNat_ushiftRight, BitVec.toNat_ushiftRight,
      Nat.shiftRight_eq_div_pow, Nat.shiftRight_eq_div_pow, pow_mul] at hdigit
    exact hdigit
  cases u
  cases v
  exact congrArg Uuid.mk (BitVec.eq_of_toNat_eq hbits)

/-! ## The list of the file -/

/-- Under each identity the system-designated drives have at most one line. -/
lemma filter_systemLines {l m : List Drive} (h : l.Perm m) (hids : (l.map Drive.id).Nodup)
    (k : String) :
    (systemLines l).filter (fun e => e.id = k) = (systemLines m).filter fun e => e.id = k := by
  refine StableSort.filter_eq_of_perm ((h.filter _).map _) ?_ k
  rw [List.map_map]
  have hsub : ((l.filter fun d => d.designation = .system).map Drive.id).Nodup :=
    hids.sublist (List.filter_sublist.map _)
  rw [show Line.id ∘ entry = (fun id : DriveId => id.uuid.text) ∘ Drive.id from rfl,
    ← List.map_map]
  refine hsub.map fun a b hab => ?_
  cases a
  cases b
  exact congrArg DriveId.mk (text_injective hab)

/-- **The list does not depend on the order of the inventory**, and only on the order that the
absent lines have under each identity. -/
theorem list_congr {l m : List Drive} (h : l.Perm m) (hids : (l.map Drive.id).Nodup)
    {ls ms : List Line}
    (hkept : ∀ k, ls.filter (fun e => e.id = k) = ms.filter fun e => e.id = k) :
    StableSort.byKey Line.id (systemLines l ++ ls) =
      StableSort.byKey Line.id (systemLines m ++ ms) := by
  refine StableSort.byKey_congr fun k => ?_
  rw [List.filter_append, List.filter_append, filter_systemLines h hids k, hkept k]

/-! ## One plan -/

section Plan

variable {inventory : List Drive} {kept : List Line}

lemma mem_kept {e : Line} :
    e ∈ (plan inventory kept).kept ↔ e ∈ kept ∧ Unnamed inventory e := by
  simp only [plan, List.mem_filter, Option.isNone_iff_eq_none, named_eq_none]

lemma mem_designate {id : DriveId} : id ∈ (plan inventory kept).designate ↔
    ∃ e ∈ kept, ∃ d, named inventory e = some d ∧ d.designation = .none ∧ d.id = id := by
  simp only [plan, List.mem_filterMap, Option.bind_eq_some_iff]
  constructor
  · rintro ⟨e, he, d, hd, hid⟩
    by_cases hnone : d.designation = .none
    · rw [if_pos hnone] at hid
      exact ⟨e, he, d, hd, hnone, Option.some.inj hid⟩
    · rw [if_neg hnone] at hid
      cases hid
  · rintro ⟨e, he, d, hd, hnone, hid⟩
    exact ⟨e, he, d, hd, by rw [if_pos hnone, hid]⟩

/-- Lines that name no drive designate none. -/
lemma designate_of_unnamed (h : ∀ e ∈ kept, Unnamed inventory e ∨
      ∃ d, named inventory e = some d ∧ d.designation = .system) :
    (plan inventory kept).designate = [] := by
  rw [List.eq_nil_iff_forall_not_mem]
  intro id hid
  obtain ⟨e, he, d, hd, hnone, -⟩ := mem_designate.mp hid
  rcases h e he with hun | ⟨d', hd', hsys⟩
  · rw [named_eq_none.mpr hun] at hd
    cases hd
  · rw [hd'] at hd
    cases hd
    rw [hsys] at hnone
    cases hnone

end Plan

namespace Host

/-- The inventory after the plan. -/
lemma mem_designated {inventory : List Drive} {ids : List DriveId} {d : Drive} :
    d ∈ designated inventory ids ↔
      ∃ d' ∈ inventory, (if d'.id ∈ ids then d'.restoredSystem else d') = d := by
  simp [designated]

/-- Designating again changes no identity. -/
lemma designated_ids (inventory : List Drive) (ids : List DriveId) :
    (designated inventory ids).map Drive.id = inventory.map Drive.id := by
  rw [designated, List.map_map]
  refine List.map_congr_left fun d _ => ?_
  show (if d.id ∈ ids then d.restoredSystem else d).id = d.id
  by_cases hid : d.id ∈ ids
  · rw [if_pos hid, d.restoredSystem_id]
  · rw [if_neg hid]

lemma designated_identity {ids : List DriveId} (d : Drive) :
    identity (if d.id ∈ ids then d.restoredSystem else d) = identity d := by
  by_cases hid : d.id ∈ ids
  · rw [if_pos hid, identity_restored]
  · rw [if_neg hid]

lemma designated_nil (inventory : List Drive) : designated inventory [] = inventory := by
  simp [designated]

lemma unnamed_designated {inventory : List Drive} {ids : List DriveId} {e : Line} :
    Unnamed (designated inventory ids) e ↔ Unnamed inventory e := by
  constructor
  · intro h d hd
    have hsame : identity (if d.id ∈ ids then d.restoredSystem else d) = identity d :=
      designated_identity d
    rw [← names_congr hsame]
    exact h _ (mem_designated.mpr ⟨d, hd, rfl⟩)
  · intro h d hd
    obtain ⟨d', hd', rfl⟩ := mem_designated.mp hd
    rw [names_congr (designated_identity d')]
    exact h d' hd'

end Host

/-- A line does not depend on the order in which the inventory is read. -/
lemma unnamed_perm {l m : List Drive} (h : l.Perm m) {e : Line} : Unnamed l e ↔ Unnamed m e := by
  simp [Unnamed, h.mem_iff]

/-- The lines of the drives that the plan takes are those of the system-designated drives after it.
An identity is there once, so that a drive that is designated again had no designation. -/
lemma taken_eq {inventory : List Drive} {kept : List Line}
    (hids : (inventory.map Drive.id).Nodup) :
    (inventory.filter fun d => d.designation = .system ∨
        d.id ∈ (plan inventory kept).designate).map entry =
      systemLines (Host.designated inventory (plan inventory kept).designate) := by
  rw [systemLines, Host.designated, List.filter_map, List.map_map]
  have hfilter : ∀ d ∈ inventory,
      ((fun d : Drive => decide (d.designation = .system)) ∘ fun d =>
        if d.id ∈ (plan inventory kept).designate then d.restoredSystem else d) d =
      decide (d.designation = .system ∨ d.id ∈ (plan inventory kept).designate) := by
    intro d hd
    by_cases hid : d.id ∈ (plan inventory kept).designate
    · obtain ⟨e, -, d', hd', hnone, hid'⟩ := mem_designate.mp hid
      have hsame : d' = d :=
        List.inj_on_of_nodup_map hids (List.mem_of_find?_eq_some hd') hd hid'
      rw [hsame] at hnone
      simp [hid, Drive.restoredSystem, hnone]
    · simp [hid]
  rw [List.filter_congr hfilter]
  refine List.map_congr_left fun d _ => ?_
  show entry d = entry (if d.id ∈ (plan inventory kept).designate then d.restoredSystem else d)
  by_cases hid : d.id ∈ (plan inventory kept).designate
  · rw [if_pos hid, entry_restored]
  · rw [if_neg hid]

lemma plan_drives {inventory : List Drive} {kept : List Line}
    (hids : (inventory.map Drive.id).Nodup) :
    (plan inventory kept).drives = StableSort.byKey Line.id
      (systemLines (Host.designated inventory (plan inventory kept).designate) ++
        (plan inventory kept).kept.map Line.absent) := by
  rw [← taken_eq hids]
  rfl

/-! ## A file at rest -/

/-- The first sync has the lines that are pending. -/
lemma Host.load_kept {h : Host} {a : Sync} (ha : a.readable = true) :
    (h.load a).kept = h.pending := by
  unfold Host.load Host.pending
  by_cases hloaded : h.loaded = true
  · rw [if_pos hloaded, if_pos hloaded]
  · rw [if_neg hloaded, if_pos ha, if_neg hloaded]

@[simp] lemma Host.load_inv (h : Host) (a : Sync) : (h.load a).inv = h.inv := by
  unfold Host.load
  split
  · rfl
  · split <;> rfl

@[simp] lemma Host.load_file (h : Host) (a : Sync) : (h.load a).file = h.file := by
  unfold Host.load
  split
  · rfl
  · split <;> rfl

@[simp] lemma Host.load_saved (h : Host) (a : Sync) : (h.load a).saved = h.saved := by
  unfold Host.load
  split
  · rfl
  · split <;> rfl

lemma Host.load_loaded (h : Host) (a : Sync) : (h.load a).loaded = true := by
  unfold Host.load
  by_cases hloaded : h.loaded = true
  · rw [if_pos hloaded, hloaded]
  · rw [if_neg hloaded]
    split <;> rfl

lemma Host.load_of_loaded {h : Host} (a : Sync) (hloaded : h.loaded = true) : h.load a = h := by
  rw [Host.load, if_pos hloaded]

/-- What a sync that wrote leaves: the file has the lines of the system-designated drives and the
kept ones, these name no drive, and the others their own. -/
structure AtRest (h : Host) : Prop where
  loaded : h.loaded = true
  ids : (h.inv.map Drive.id).Nodup
  unnamed : ∀ e ∈ h.kept, Unnamed h.inv e
  own : ∀ d ∈ h.inv, d.designation = .system → OwnLine h.inv d
  written : h.written = h.file
  file : ∃ l : List Drive, l.Perm h.inv ∧
    h.file = some (StableSort.byKey Line.id (systemLines l ++ h.kept.map Line.absent))

namespace AtRest

variable {h : Host}

/-- A sync of a file at rest does nothing. -/
lemma sync_eq (rest : AtRest h) (a : Sync) : h.sync a = h := by
  unfold Host.sync
  by_cases ha : a.available = true
  · rw [if_pos ha]
    dsimp only
    rw [Host.load_of_loaded a rest.loaded]
    have hread : ∀ e ∈ h.kept, Unnamed (a.order.read h.inv) e := fun e he =>
      (unnamed_perm (a.order.perm h.inv)).mpr (rest.unnamed e he)
    have hdesignate : (h.planned a).designate = [] :=
      designate_of_unnamed fun e he => Or.inl (hread e he)
    have hkept : (h.planned a).kept = h.kept := by
      show h.kept.filter _ = h.kept
      rw [List.filter_eq_self]
      intro e he
      rw [Option.isNone_iff_eq_none, named_eq_none]
      exact hread e he
    have hdrives : h.written = some (h.planned a).drives := by
      obtain ⟨l, hl, hfile⟩ := rest.file
      have hnodup : ((a.order.read h.inv).map Drive.id).Nodup :=
        ((a.order.perm h.inv).map Drive.id).nodup_iff.mpr rest.ids
      have hplan : (h.planned a).drives = StableSort.byKey Line.id
          (systemLines (a.order.read h.inv) ++ h.kept.map Line.absent) := by
        rw [Host.planned, plan_drives hnodup]
        show StableSort.byKey Line.id (systemLines (Host.designated (a.order.read h.inv)
          (h.planned a).designate) ++ (h.planned a).kept.map Line.absent) = _
        rw [hdesignate, hkept, Host.designated_nil]
      rw [rest.written, hfile, hplan]
      congr 1
      exact list_congr (hl.trans (a.order.perm h.inv).symm)
        ((hl.map Drive.id).nodup_iff.mpr rest.ids) fun _ => rfl
    rw [hdesignate, hkept, Host.designated_nil, if_pos hdrives]
  · rw [if_neg ha]

/-- After a restart the lines of the system-designated drives name these, and the kept ones no
drive, as before. -/
lemma restart_eq (rest : AtRest h) {a : Sync} (ha : a.readable = true) :
    ((h.restarted h.inv).sync a).inv = h.inv ∧ ((h.restarted h.inv).sync a).file = h.file := by
  obtain ⟨l, hl, hfile⟩ := rest.file
  unfold Host.sync
  by_cases hav : a.available = true
  · rw [if_pos hav]
    dsimp only
    set lines := StableSort.byKey Line.id (systemLines l ++ h.kept.map Line.absent) with hlines
    have hload : (h.restarted h.inv).load a =
        { h with saved := h.inv, loaded := true, kept := lines, written := some lines } := by
      rw [Host.load, if_neg (by simp [Host.restarted]), if_pos ha, ← hfile]
      simp [Host.restarted, hfile]
    rw [hload]
    set read := a.order.read h.inv with hread
    have hperm : read.Perm h.inv := a.order.perm h.inv
    -- what the lines of the file name
    have hmem : ∀ e ∈ lines, e ∈ systemLines l ∨ e ∈ h.kept.map Line.absent := fun e he =>
      List.mem_append.mp ((StableSort.perm_byKey _).mem_iff.mp he)
    have hsystem : ∀ e ∈ systemLines l, ∃ d, named read e = some d ∧ d.designation = .system := by
      intro e he
      obtain ⟨d, hd, rfl⟩ := List.mem_map.mp he
      obtain ⟨hdl, hsys⟩ := List.mem_filter.mp hd
      have hdinv : d ∈ h.inv := hl.mem_iff.mp hdl
      obtain ⟨hnames, honly⟩ := rest.own d hdinv (by simpa using hsys)
      obtain ⟨d', hd'⟩ : ∃ d', named read (entry d) = some d' := by
        rw [← Option.ne_none_iff_exists', Ne, named_eq_none]
        intro hun
        rw [hun d (hperm.mem_iff.mpr hdinv)] at hnames
        cases hnames
      have hsame : d' = d :=
        honly d' (hperm.mem_iff.mp (List.mem_of_find?_eq_some hd')) (List.find?_some hd')
      exact ⟨d', hd', by simpa [hsame] using hsys⟩
    have hkept : ∀ e ∈ h.kept.map Line.absent, Unnamed read e := by
      intro e he
      obtain ⟨e', he', rfl⟩ := List.mem_map.mp he
      exact (unnamed_perm hperm).mpr (rest.unnamed e' he')
    have hdesignate : (plan read lines).designate = [] := by
      apply designate_of_unnamed
      intro e he
      rcases hmem e he with he | he
      · exact Or.inr (hsystem e he)
      · exact Or.inl (hkept e he)
    -- the lines kept are the ones kept before, in the order that the list has them
    have hfilter : ∀ k, ((plan read lines).kept.map Line.absent).filter (fun e => e.id = k) =
        (h.kept.map Line.absent).filter fun e => e.id = k := by
      intro k
      have hswap : ((plan read lines).kept.map Line.absent).filter (fun e => e.id = k) =
          (((lines.filter fun e => e.id = k)).filter fun e => (named read e).isNone).map
            Line.absent := by
        rw [List.filter_map]
        show ((lines.filter _).filter _).map _ = _
        rw [List.filter_comm]
        rfl
      rw [hswap, hlines, StableSort.filter_byKey, List.filter_append, List.filter_append,
        List.filter_eq_nil_iff.mpr, List.nil_append]
      · rw [List.filter_eq_self.mpr, List.filter_map, List.map_map]
        · rfl
        · intro e he
          rw [Option.isNone_iff_eq_none, named_eq_none]
          exact hkept e (List.mem_filter.mp he).1
      · intro e he
        obtain ⟨d, hd, -⟩ := hsystem e (List.mem_filter.mp he).1
        simp [hd]
    have hnodup : (read.map Drive.id).Nodup := (hperm.map Drive.id).nodup_iff.mpr rest.ids
    have hdrives : (plan read lines).drives = lines := by
      rw [plan_drives hnodup, hdesignate, Host.designated_nil]
      exact list_congr (hperm.trans hl.symm) hnodup hfilter
    show ((if some lines = some (plan read lines).drives then _ else _ : Host).inv = _ ∧
      (if some lines = some (plan read lines).drives then _ else _ : Host).file = _)
    rw [if_pos (by rw [hdrives])]
    refine ⟨?_, rfl⟩
    show Host.designated h.inv (plan read lines).designate = h.inv
    rw [hdesignate, Host.designated_nil]
  · rw [if_neg hav]
    exact ⟨rfl, rfl⟩

/-- A file at rest keeps what it promises. -/
lemma settled (rest : AtRest h) : Settled h where
  lines := by
    obtain ⟨l, hl, hfile⟩ := rest.file
    refine ⟨_, hfile, (StableSort.perm_byKey _).trans ?_⟩
    exact ((hl.filter _).map entry).append_right _
  unnamed := rest.unnamed
  again a := by rw [rest.sync_eq a]; exact ⟨rfl, rfl⟩
  restart a ha := rest.restart_eq ha

end AtRest

/-! ## One sync -/

namespace Host

/-- The plan of the next sync. -/
def next (h : Host) (order : Order) : Plan := plan (order.read h.inv) h.pending

/-- The file after a sync. -/
def filed (h : Host) (a : Sync) : Option (List Line) :=
  if a.writes then some (h.next a.order).drives else h.file

/-- **What a sync does** when it finds system-data, where what was written last is the file. -/
theorem sync_available {h : Host} {a : Sync} (hread : h.loaded = true → h.written = h.file)
    (ha : a.readable = true) (hav : a.available = true) :
    h.sync a =
      { h with
        inv := designated h.inv (h.next a.order).designate, loaded := true,
        kept := (h.next a.order).kept, file := h.filed a, written := h.filed a } := by
  have hplan : (h.load a).planned a = h.next a.order := by
    rw [Host.planned, Host.load_kept ha, Host.load_inv]
    rfl
  have hwritten : (h.load a).written = h.file := by
    unfold Host.load
    by_cases hloaded : h.loaded = true
    · rw [if_pos hloaded, hread hloaded]
    · rw [if_neg hloaded, if_pos ha]
  have hloaded := Host.load_loaded h a
  unfold Host.sync
  rw [if_pos hav]
  dsimp only
  rw [hplan, hwritten, Host.load_inv]
  by_cases hsame : h.file = some (h.next a.order).drives
  · have hfiled : h.filed a = h.file := by
      unfold Host.filed
      split
      · exact hsame.symm
      · rfl
    rw [if_pos hsame, hfiled]
    simp [hloaded]
  · rw [if_neg hsame]
    by_cases hw : a.writes = true
    · rw [if_pos hw, Host.filed, if_pos hw]
      simp [hloaded]
    · rw [if_neg hw, Host.filed, if_neg hw]
      simp [hloaded]

lemma sync_unavailable {h : Host} {a : Sync} (hav : ¬ a.available = true) : h.sync a = h := by
  rw [Host.sync, if_neg hav]

lemma pending_of_loaded {h : Host} (hloaded : h.loaded = true) : h.pending = h.kept := by
  rw [Host.pending, if_pos hloaded]

end Host

/-- A drive that the plan designates had no designation, and a pending line names it. -/
lemma named_of_designate {h : Host} {order : Order} (hids : (h.inv.map Drive.id).Nodup) {d : Drive}
    (hd : d ∈ h.inv) (hid : d.id ∈ (h.next order).designate) :
    d.designation = .none ∧ ∃ e ∈ h.pending, names e d = true := by
  obtain ⟨e, he, d', hd', hnone, hid'⟩ := mem_designate.mp hid
  have hsame : d' = d := List.inj_on_of_nodup_map hids
    ((order.perm h.inv).mem_iff.mp (List.mem_of_find?_eq_some hd')) hd hid'
  rw [hsame] at hd' hnone
  exact ⟨hnone, e, he, List.find?_some hd'⟩

/-- The system-designated drives after a sync have their own lines. -/
lemma own_designated {h : Host} {order : Order} (hids : (h.inv.map Drive.id).Nodup)
    (own : OwnLines h) :
    ∀ d ∈ Host.designated h.inv (h.next order).designate, d.designation = .system →
      OwnLine (Host.designated h.inv (h.next order).designate) d := by
  intro d hd hsys
  obtain ⟨d', hd', rfl⟩ := Host.mem_designated.mp hd
  have hentry : entry (if d'.id ∈ (h.next order).designate then d'.restoredSystem else d') =
      entry d' := by
    split
    · exact entry_restored d'
    · rfl
  have hown : OwnLine h.inv d' := by
    refine own d' hd' ?_
    by_cases hid : d'.id ∈ (h.next order).designate
    · exact Or.inr (named_of_designate hids hd' hid)
    · rw [if_neg hid] at hsys
      exact Or.inl hsys
  refine ⟨?_, fun x hx hnames => ?_⟩
  · rw [hentry, names_congr (Host.designated_identity d')]
    exact hown.1
  · obtain ⟨x', hx', rfl⟩ := Host.mem_designated.mp hx
    rw [hentry, names_congr (Host.designated_identity x')] at hnames
    rw [hown.2 x' hx' hnames]

/-- Where the plan's drives have their own lines, no line of the file names another drive. -/
lemma drives_unnamed {h : Host} {order : Order} (hids : (h.inv.map Drive.id).Nodup)
    (own : OwnLines h) {d : Drive} (hd : d ∈ Host.designated h.inv (h.next order).designate)
    (hsys : d.designation ≠ .system) : ∀ e ∈ (h.next order).drives, names e d = false := by
  have hperm := order.perm h.inv
  intro e he
  rw [Host.next, plan_drives ((hperm.map Drive.id).nodup_iff.mpr hids)] at he
  rcases List.mem_append.mp ((StableSort.perm_byKey _).mem_iff.mp he) with he | he
  · obtain ⟨x, hx, rfl⟩ := List.mem_map.mp he
    obtain ⟨hxinv, hxsys⟩ := List.mem_filter.mp hx
    have hxsys' : x.designation = .system := by simpa using hxsys
    have hxmem : x ∈ Host.designated h.inv (h.next order).designate :=
      (hperm.map _).mem_iff.mp hxinv
    rw [Bool.eq_false_iff]
    intro hnames
    rw [(own_designated hids own x hxmem hxsys').2 d hd hnames] at hsys
    exact hsys hxsys'
  · obtain ⟨e', he', rfl⟩ := List.mem_map.mp he
    have hun : Unnamed h.inv e' := (unnamed_perm hperm).mp (mem_kept.mp he').2
    exact Host.unnamed_designated.mpr hun d hd

/-- What stays true of the file, for the drives that have been cleared. -/
structure Sound (identities : DriveId → Identity) (cleared : List DriveId) (h : Host) : Prop where
  ids : (h.inv.map Drive.id).Nodup
  known : ∀ d ∈ h.inv, identity d = identities d.id
  savedIds : (h.saved.map Drive.id).Nodup
  savedKnown : ∀ d ∈ h.saved, identity d = identities d.id
  /-- What was written last is the file. -/
  written : h.loaded = true → h.written = h.file
  /-- A pending line is in the file. -/
  pending : ∀ e ∈ h.pending, e.absent ∈ (h.file.getD []).map Line.absent
  found : ∀ id ∈ cleared, ∃ d ∈ h.inv, d.id = id
  /-- A cleared drive has no line. -/
  out : ∀ d ∈ h.inv, d.id ∈ cleared →
    d.designation ≠ .system ∧ ∀ e ∈ h.file.getD [], names e d = false

namespace Sound

variable {identities : DriveId → Identity} {cleared : List DriveId} {h : Host}

/-- No pending line names a cleared drive. -/
lemma out_pending (sound : Sound identities cleared h) {d : Drive} (hd : d ∈ h.inv)
    (hid : d.id ∈ cleared) : ∀ e ∈ h.pending, names e d = false := by
  intro e he
  obtain ⟨e', he', habsent⟩ := List.mem_map.mp (sound.pending e he)
  have h' := (sound.out d hd hid).2 e' he'
  rw [← names_absent, habsent] at h'
  exact h'

/-- **A sync keeps it.** A pending line that names a cleared drive is not there, so that no cleared
drive is designated again; the lines it writes name the system-designated drives, each its own, or
no drive. -/
theorem sync (sound : Sound identities cleared h) {a : Sync} (ha : a.readable = true)
    (own : OwnLines h) : Sound identities cleared (h.sync a) := by
  by_cases hav : a.available = true
  · rw [Host.sync_available sound.written ha hav]
    have hperm := a.order.perm h.inv
    exact
      { ids := by
          show ((Host.designated _ _).map Drive.id).Nodup
          rw [Host.designated_ids]
          exact sound.ids
        known := fun d hd => by
          obtain ⟨d', hd', rfl⟩ := Host.mem_designated.mp hd
          rw [Host.designated_identity, sound.known d' hd']
          congr 1
          split
          · exact d'.restoredSystem_id.symm
          · rfl
        savedIds := sound.savedIds
        savedKnown := sound.savedKnown
        written := fun _ => rfl
        pending := fun e he => by
          rw [Host.pending_of_loaded rfl] at he
          show e.absent ∈ ((h.filed a).getD []).map Line.absent
          unfold Host.filed
          split
          · refine List.mem_map.mpr ⟨e.absent, ?_, rfl⟩
            refine (StableSort.perm_byKey _).mem_iff.mpr (List.mem_append_right _ ?_)
            exact List.mem_map_of_mem he
          · exact sound.pending e (mem_kept.mp he).1
        found := fun id hid => by
          obtain ⟨d, hd, hdid⟩ := sound.found id hid
          refine ⟨_, Host.mem_designated.mpr ⟨d, hd, rfl⟩, ?_⟩
          split
          · rw [d.restoredSystem_id, hdid]
          · exact hdid
        out := fun d hd hid => by
          obtain ⟨d', hd', rfl⟩ := Host.mem_designated.mp hd
          have hid' : d'.id ∈ cleared := by
            split at hid
            · rwa [d'.restoredSystem_id] at hid
            · exact hid
          -- it is not designated again, as no pending line names it
          have hnot : d'.id ∉ (h.next a.order).designate := by
            intro hin
            obtain ⟨-, e, he, hnames⟩ := named_of_designate sound.ids hd' hin
            rw [sound.out_pending hd' hid' e he] at hnames
            cases hnames
          obtain ⟨hsys, hfile⟩ := sound.out d' hd' hid'
          have hmem : d' ∈ Host.designated h.inv (h.next a.order).designate :=
            Host.mem_designated.mpr ⟨d', hd', by rw [if_neg hnot]⟩
          rw [if_neg hnot]
          refine ⟨hsys, ?_⟩
          show ∀ e ∈ (h.filed a).getD [], names e d' = false
          unfold Host.filed
          split
          · exact drives_unnamed sound.ids own hmem hsys
          · exact hfile }
  · rw [Host.sync_unavailable hav]
    exact sound

/-- What a sync that finds system-data and writes leaves for a drive that is not system designated
after it. -/
lemma add_of_written (sound : Sound identities cleared h) {a : Sync} (ha : a.readable = true)
    (own : OwnLines h) (hav : a.available = true) (hw : a.writes = true) {d : Drive}
    (hd : d ∈ (h.sync a).inv) (hsys : d.designation ≠ .system) :
    Sound identities (d.id :: cleared) (h.sync a) := by
  have after := sound.sync ha own
  refine { after with found := ?_, out := ?_ }
  · intro id hid
    rcases List.mem_cons.mp hid with rfl | hid
    · exact ⟨d, hd, rfl⟩
    · exact after.found id hid
  · intro x hx hid
    rcases List.mem_cons.mp hid with hid | hid
    · rw [List.inj_on_of_nodup_map after.ids hx hd hid]
      refine ⟨hsys, ?_⟩
      rw [Host.sync_available sound.written ha hav] at hd ⊢
      show ∀ e ∈ (h.filed a).getD [], names e d = false
      rw [Host.filed, if_pos hw]
      exact drives_unnamed sound.ids own hd hsys
    · exact after.out x hx hid

/-- A drive that no line of the file names is out of it. -/
lemma add_of_unnamed (sound : Sound identities cleared h) {d : Drive} (hd : d ∈ h.inv)
    (hsys : d.designation ≠ .system) (hfile : ∀ e ∈ h.file.getD [], names e d = false) :
    Sound identities (d.id :: cleared) h := by
  refine { sound with found := ?_, out := ?_ }
  · intro id hid
    rcases List.mem_cons.mp hid with rfl | hid
    · exact ⟨d, hd, rfl⟩
    · exact sound.found id hid
  · intro x hx hid
    rcases List.mem_cons.mp hid with hid | hid
    · rw [List.inj_on_of_nodup_map sound.ids hx hd hid]
      exact ⟨hsys, hfile⟩
    · exact sound.out x hx hid

/-- A restart on the saved inventory, or on none. -/
lemma restarted (sound : Sound identities cleared h) {inventory : List Drive}
    (hinv : inventory = h.saved ∨ inventory = []) :
    Sound identities (cleared.filter fun id =>
      inventory.any fun d => d.id = id && d.designation ≠ .system) (h.restarted inventory) := by
  have hids : (inventory.map Drive.id).Nodup := by
    rcases hinv with rfl | rfl
    · exact sound.savedIds
    · exact List.nodup_nil
  have hknown : ∀ d ∈ inventory, identity d = identities d.id := by
    rcases hinv with rfl | rfl
    · exact sound.savedKnown
    · intro d hd
      cases hd
  exact
    { ids := hids
      known := hknown
      savedIds := hids
      savedKnown := hknown
      written := fun hloaded => by cases hloaded
      pending := fun e he => List.mem_map_of_mem he
      found := fun id hid => by
        obtain ⟨d, hd, hdid⟩ := List.any_eq_true.mp (List.mem_filter.mp hid).2
        simp only [Bool.and_eq_true, decide_eq_true_eq] at hdid
        exact ⟨d, hd, hdid.1⟩
      out := fun d hd hid => by
        obtain ⟨hid, hany⟩ := List.mem_filter.mp hid
        obtain ⟨d', hd', hdid⟩ := List.any_eq_true.mp hany
        simp only [Bool.and_eq_true, decide_eq_true_eq, ne_eq] at hdid
        rw [List.inj_on_of_nodup_map hids hd' hd hdid.1] at hdid
        refine ⟨hdid.2, ?_⟩
        -- the drive of the inventory before, which says the same of itself
        obtain ⟨x, hx, hxid⟩ := sound.found d.id hid
        have hsame : identity d = identity x := by
          rw [hknown d hd, sound.known x hx, hxid]
        intro e he
        rw [names_congr hsame]
        exact (sound.out x hx (by rw [hxid]; exact hid)).2 e he }

/-- The drive that gets a designation. -/
lemma mem_label {id : DriveId} {des : Designation} {d : Drive} :
    d ∈ (h.label id des).inv ↔ ∃ d' ∈ h.inv,
      (if d'.id = id ∧ d'.designationBlocker des = none then { d' with designation := des }
        else d') = d := by
  simp [Host.label]

/-- A designation is given, or refused. A drive that is system designated again is not one of the
cleared ones. -/
lemma label (sound : Sound identities cleared h) (id : DriveId) (des : Designation) :
    Sound identities
      (if des = .system ∧ Story.accepted h id des then cleared.filter (· ≠ id) else cleared)
      (h.label id des) := by
  set cleared' :=
    if des = .system ∧ Story.accepted h id des then cleared.filter (· ≠ id) else cleared with hc
  have hsub : ∀ x ∈ cleared', x ∈ cleared := by
    intro x hx
    rw [hc] at hx
    split at hx
    · exact (List.mem_filter.mp hx).1
    · exact hx
  have hid : ∀ d : Drive, (if d.id = id ∧ d.designationBlocker des = none then
      { d with designation := des } else d).id = d.id := fun d => by split <;> rfl
  have hsame : ∀ d : Drive, identity (if d.id = id ∧ d.designationBlocker des = none then
      { d with designation := des } else d) = identity d := fun d => by split <;> rfl
  exact
    { ids := by
        show ((h.inv.map _).map Drive.id).Nodup
        rw [List.map_map]
        exact (List.map_congr_left fun d _ => hid d : h.inv.map _ = h.inv.map Drive.id) ▸ sound.ids
      known := fun d hd => by
        obtain ⟨d', hd', rfl⟩ := mem_label.mp hd
        rw [hsame, hid]
        exact sound.known d' hd'
      savedIds := sound.savedIds
      savedKnown := sound.savedKnown
      written := sound.written
      pending := sound.pending
      found := fun x hx => by
        obtain ⟨d, hd, hdid⟩ := sound.found x (hsub x hx)
        exact ⟨_, mem_label.mpr ⟨d, hd, rfl⟩, by rw [hid, hdid]⟩
      out := fun d hd hdid => by
        obtain ⟨d', hd', rfl⟩ := mem_label.mp hd
        rw [hid] at hdid
        obtain ⟨hsys, hfile⟩ := sound.out d' hd' (hsub _ hdid)
        refine ⟨?_, fun e he => by rw [names_congr (hsame d')]; exact hfile e he⟩
        by_cases hlab : d'.id = id ∧ d'.designationBlocker des = none
        · rw [if_pos hlab]
          show des ≠ .system
          intro hdes
          have hacc : Story.accepted h id des = true :=
            List.any_eq_true.mpr ⟨d', hd', by simp [hlab.1, hlab.2]⟩
          rw [hc, if_pos ⟨hdes, hacc⟩] at hdid
          simp [hlab.1] at hdid
        · rw [if_neg hlab]
          exact hsys }

/-- A cleared drive that is taken out of the file has no line after the sync of its clearing. -/
lemma clear (sound : Sound identities cleared h) {d : Drive} {des : Designation} {a : Sync}
    (ha : a.readable = true) (own : OwnLines (h.label d.id des)) (hdes : des ≠ .system)
    (hd : d ∈ h.inv) (hfree : d.designationBlocker des = none) (htaken : TakenOut h d des a) :
    Sound identities (d.id :: cleared) ((h.label d.id des).sync a) := by
  have labelled : Sound identities cleared (h.label d.id des) := by
    have := sound.label d.id des
    rwa [if_neg fun hsys => hdes hsys.1] at this
  obtain ⟨hpending, hwritten⟩ := htaken
  set d' : Drive := { d with designation := des } with hd'
  have hmem : d' ∈ (h.label d.id des).inv :=
    mem_label.mpr ⟨d, hd, by rw [if_pos ⟨rfl, hfree⟩]⟩
  rcases hwritten with ⟨hav, hw⟩ | hfile
  · refine labelled.add_of_written (d := d') ha own hav hw ?_ hdes
    rw [Host.sync_available labelled.written ha hav]
    refine Host.mem_designated.mpr ⟨d', hmem, if_neg fun hin => ?_⟩
    obtain ⟨hnone, e, he, hnames⟩ := named_of_designate labelled.ids hmem hin
    have hno : names e d' = false := hpending hnone e he
    rw [hno] at hnames
    cases hnames
  · exact (labelled.add_of_unnamed hmem hdes hfile).sync ha own

end Sound

/-- What stays true of a story. -/
def Story.Sound (identities : DriveId → Identity) (s : Story) : Prop :=
  SystemFile.Sound identities s.cleared s.host

/-- At the first start nothing is cleared. -/
lemma sound_first (identities : DriveId → Identity) (file : Option (List Line)) :
    (Story.first file).Sound identities :=
  { ids := List.nodup_nil
    known := fun d hd => by cases hd
    savedIds := List.nodup_nil
    savedKnown := fun d hd => by cases hd
    written := fun hloaded => by cases hloaded
    pending := fun e he => List.mem_map_of_mem he
    found := fun id hid => by cases hid
    out := fun d hd => by cases hd }

/-- The inventory in the order it has. -/
def Order.same : Order := ⟨fun l => l, fun l => List.Perm.refl l⟩

end SystemFile

end StormDrive
