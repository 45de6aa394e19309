import Mathlib.Data.String.Basic
import Mathlib.Order.WithBot
import StormDrive.ShelfReport

set_option relaxedAutoImplicit false
set_option autoImplicit false

/-!
# The backplane of a RAID controller

A controller with the driver `megaraid_sas` shows no enclosure to the system, and answers two
commands instead: its list of physical devices, and what one of them is. Each enclosure becomes a
report of a shelf, and a disk is found on its shelf by the device id that its SCSI address gives.

## Main definitions

* `Megaraid.parsePdList`, `Megaraid.parsePdIdentity` — the two answers.
* `Megaraid.Controller.read` — the reports of one controller.
* `Megaraid.intoTable` — the reports of a node by their keys.
* `Megaraid.place` — the shelf and the bay of a drive.
* `Megaraid.homeOf`, `Megaraid.OnList`, `Megaraid.Controller.keyOf` — in terms of the list: the
  shelf of a disk, the shelves there are, and the key of each.

## Main results

* `Megaraid.Controller.isReport_of_mem_read` — **what a report says, in terms of the list**.
* `Megaraid.Controller.exists_mem_read` — every shelf of the list has a report.
* `Megaraid.Controller.pairwise_read` — and it has one, in the order of the enclosures.

## Implementation notes

A `u16` and a `u32` are natural numbers, and no enclosure (`None`) is `⊥`, which is first in a
`BTreeMap`. A command is a function of its number in the run, so that two commands with the same
argument may be answered differently; the buffer that it leaves may have any length. Of a report
only the fields that differ between these shelves are kept.
-/

namespace StormDrive

namespace Megaraid

open Bytes

/-! ## Answers -/

/-- Every physical device, enclosures included. -/
def dcmdPdList : ℕ := 0x02010000

/-- One device, by its id in the mailbox. -/
def dcmdPdInfo : ℕ := 0x02020000

def scsiTypeDisk : ℕ := 0x00

def scsiTypeEnclosure : ℕ := 0x0d

/-- The enclosure of a drive in none. -/
def noEnclosure : ℕ := 0xffff

/-- A device id is the channel times this, and the target. -/
def devicesPerChannel : ℕ := 128

/-- The channels of physical devices are before this one. -/
def pdChannels : ℕ := 2

def driver : String := "megaraid_sas"

/-- One entry of the list. -/
structure Pd where
  deviceId : ℕ
  enclosure : ℕ
  slot : ℕ
  scsiType : ℕ
  sasAddress : Option String
  deriving DecidableEq

/-- The entry in 24 bytes. Of the two addresses, one for each port, it has the first that is not
zero; `{a:016x}` has the digits of its bytes from the last on. -/
def pdOf (e : List UInt8) : Pd where
  deviceId := ofLe (slice e 0 2)
  enclosure := ofLe (slice e 2 2)
  slot := (e.getD 5 0).toNat
  scsiType := (e.getD 6 0).toNat
  sasAddress := ([slice e 8 8, slice e 16 8].find? fun a => a.any (· ≠ 0)).map fun a =>
    Ses.hexText a.reverse

/-- The list: its size, how many entries there are, and the entries. -/
def parsePdList (raw : List UInt8) : Option (List Pd) :=
  if raw.length < 8 then none
  else
    some (((List.range ((raw.length - 8) / 24)).map fun i =>
      pdOf (slice raw (8 + 24 * i) 24)).take (ofLe (slice raw 4 4)))

/-- A text of the inquiry data, without the white space and the NULs around it. -/
def identityText (raw : List UInt8) (start stop : ℕ) : Option String :=
  if raw.length < stop then none
  else
    let blank : Char → Bool := fun c => Text.isWhitespace c || c.toNat == 0
    let text := ((Ses.fromUtf8Lossy (slice raw start (stop - start))).dropWhile blank).rdropWhile
      blank
    if text.isEmpty then none else some (String.ofList text)

/-- The vendor and the product of a device. -/
def parsePdIdentity (raw : List UInt8) : Option String × Option String :=
  (identityText raw (4 + 8) (4 + 16), identityText raw (4 + 16) (4 + 32))

/-! ## Reports -/

/-- How a shelf with no SES device was read. -/
structure Through where
  driver : String
  scsiHost : String
  pcieAddr : Option String
  /-- The controller's id for the enclosure. -/
  enclosureDeviceId : WithBot ℕ
  /-- The slot of each device. -/
  deviceBays : List (ℕ × ℕ)
  /-- Devices that are listed in no enclosure, on the controller's only one. -/
  noEnclosureDevices : List ℕ
  /-- Devices whose slot the controller does not give. -/
  slotNotMatched : List ℕ
  /-- Why the controller could not be read. -/
  error : Option String

/-- The report of a shelf. -/
structure ShelfReport where
  key : String
  shelf : Shelf
  slots : List (ℕ × List String)
  through : Option Through

/-- The reports by their keys. -/
abbrev Shelves := List (String × ShelfReport)

/-- A physical device's id from its SCSI address; none on a logical drive's channel. -/
def deviceId (channel target : ℕ) : Option ℕ :=
  if channel < pdChannels then some (channel * devicesPerChannel + target) else none

/-- Where a report has a device: in a bay, or on the shelf with no slot matched. -/
def ShelfReport.placeOf (r : ShelfReport) (id : ℕ) : Option (Shelf × Option ℕ) :=
  r.through.bind fun t =>
    match OrderedMap.get t.deviceBays id with
    | some bay => some (r.shelf, some bay)
    | none => if t.slotNotMatched.contains id then some (r.shelf, none) else none

/-- The shelf and the bay of a drive at an address of a host. A device that no report names is on
the controller's shelf with no bay, when it has just one to be on. -/
def place (shelves : Shelves) (host : String) (addr : ℕ × ℕ) : Option (Shelf × Option ℕ) :=
  let mine := (shelves.map Prod.snd).filter fun r => r.through.any fun t => t.scsiHost = host
  match (deviceId addr.1 addr.2).bind fun id => mine.findSome? fun r => r.placeOf id with
  | some found => some found
  | none =>
    match mine with
    | [only] => some (only.shelf, none)
    | _ => none

/-- A character of an object's name. -/
def nameChar (c : Char) : Char :=
  if c.isAlphanum || c == '-' || c == '.' then c else '-'

/-- What an enclosure adds to the name of its controller. -/
def enclosureSuffix : WithBot ℕ → String
  | ⊥ => ""
  | WithBot.some e => "-e" ++ toString e

/-- A name for a shelf with no address of its own. -/
def localKey (node : String) (pcie : Option String) (host : String) (enclosure : WithBot ℕ) :
    String :=
  let k := "internal-" ++ node ++ "-" ++ pcie.getD host ++ enclosureSuffix enclosure
  String.ofList ((k.toList.map Char.toLower).map nameChar)

/-- How a command ends: it fails, or it leaves a buffer. It depends on how many commands were
sent before, on its code and on its mailbox. -/
abbrev Dcmd := ℕ → ℕ → Option ℕ → Except String (List UInt8)

structure Controller where
  node : String
  host : String
  pcie : Option String
  deriving DecidableEq

/-- What a controller's list puts on one shelf. -/
structure Placed where
  deviceBays : List (ℕ × ℕ) := []
  slots : List (ℕ × List String) := []
  noEnclosureDevices : List ℕ := []
  slotNotMatched : List ℕ := []

/-- `report_with`. -/
def Controller.reportWith (c : Controller) (enclosure : WithBot ℕ) (shelf : Shelf)
    (placed : Placed) (error : Option String) : ShelfReport :=
  let named := { shelf with
    id := some (localKey c.node c.pcie c.host enclosure), position := some .internal }
  { key := named.key.getD ""
    shelf := named
    slots := placed.slots
    through := some
      { driver := driver, scsiHost := c.host, pcieAddr := c.pcie
        enclosureDeviceId := enclosure, deviceBays := placed.deviceBays
        noEnclosureDevices := placed.noEnclosureDevices
        slotNotMatched := placed.slotNotMatched, error := error } }

/-- The entries of enclosures. -/
def enclosureEntries (pds : List Pd) : List Pd := pds.filter fun p => p.scsiType = scsiTypeEnclosure

/-- The entries of disks. -/
def disks (pds : List Pd) : List Pd := pds.filter fun p => p.scsiType = scsiTypeDisk

/-- The shelf of an enclosure's entry, the `i`-th, from what the controller says of it. -/
def enclosureShelf (dcmd : Dcmd) (i : ℕ) (p : Pd) : Shelf :=
  let identity := match dcmd (i + 1) dcmdPdInfo (some p.deviceId) with
    | .ok info => parsePdIdentity info
    | .error _ => (none, none)
  { vendor := identity.1, model := identity.2, sasAddress := p.sasAddress,
    logicalId := p.sasAddress }

/-- The enclosure that a disk says it is in. -/
def enclosureOf (d : Pd) : WithBot ℕ := 
  if d.enclosure ≠ noEnclosure then WithBot.some d.enclosure else ⊥

/-- The shelves of the enclosures' entries. -/
def named (dcmd : Dcmd) (pds : List Pd) : List (WithBot ℕ × Shelf) :=
  OrderedMap.ofList ((enclosureEntries pds).zipIdx.map fun p =>
    (WithBot.some p.1.deviceId, enclosureShelf dcmd p.2 p.1))

/-- The one of these enclosures, if there is one; else none. -/
def onlyOf (listed : List (WithBot ℕ)) : WithBot ℕ :=
  match listed with
  | [e] => e
  | _ => ⊥

/-- The shelf that a disk is put on. -/
def shelfOf (only : WithBot ℕ) (d : Pd) : WithBot ℕ :=
  if enclosureOf d = ⊥ then only else enclosureOf d

/-- Every enclosure entry, and every enclosure that a disk is put on. -/
def withDisks (dcmd : Dcmd) (pds : List Pd) : List (WithBot ℕ × Shelf) :=
  let only := onlyOf ((named dcmd pds).map Prod.fst)
  ((disks pds).map (shelfOf only)).foldl (fun m e => OrderedMap.insertNew e ({} : Shelf) m)
    (named dcmd pds)

/-- These, or if there is none the controller's own shelf. -/
def enclosures (dcmd : Dcmd) (pds : List Pd) : List (WithBot ℕ × Shelf) :=
  if (withDisks dcmd pds).isEmpty then OrderedMap.insert ⊥ {} (withDisks dcmd pds)
  else withDisks dcmd pds

/-- A disk on a shelf. A disk with no slot has no bay; a bay keeps the last disk's addresses. -/
def Placed.add (e : WithBot ℕ) (placed : Placed) (d : Pd) : Placed :=
  let placed :=
    if e ≠ ⊥ ∧ enclosureOf d = ⊥ then
      { placed with noEnclosureDevices := placed.noEnclosureDevices ++ [d.deviceId] }
    else placed
  if d.slot = 0xff then { placed with slotNotMatched := placed.slotNotMatched ++ [d.deviceId] }
  else
    { placed with
      deviceBays := OrderedMap.insert d.deviceId d.slot placed.deviceBays
      slots := OrderedMap.insert d.slot d.sasAddress.toList placed.slots }

/-- The list that the controller gives. -/
def drivesOf (dcmd : Dcmd) : Except String (List Pd) :=
  match dcmd 0 dcmdPdList none with
  | .error e => .error e
  | .ok raw =>
    match parsePdList raw with
    | some pds => .ok pds
    | none => .error "short drive list"

/-- One report for each enclosure on the controller. -/
def Controller.read (c : Controller) (dcmd : Dcmd) : List ShelfReport :=
  match drivesOf dcmd with
  | .error e => [c.reportWith ⊥ {} {} (some e)]
  | .ok pds =>
    let only := onlyOf ((named dcmd pds).map Prod.fst)
    (enclosures dcmd pds).map fun e =>
      c.reportWith e.1 e.2
        (((disks pds).filter fun d => shelfOf only d = e.1).foldl (Placed.add e.1) {}) none

/-- The reports of a node by their keys: the last with a key stays. -/
def intoTable (reports : List ShelfReport) : Shelves :=
  OrderedMap.ofList (reports.map fun r => (r.key, r))

/-! ## The list in terms of itself -/

/-- The list that was read; none when the controller could not be. -/
def listOf (dcmd : Dcmd) : List Pd :=
  match drivesOf dcmd with
  | .ok pds => pds
  | .error _ => []

/-- The shelf of a disk: its enclosure, or else the controller's only one. -/
def homeOf (pds : List Pd) (d : Pd) : WithBot ℕ :=
  if d.enclosure ≠ noEnclosure then WithBot.some d.enclosure
  else onlyOf (((enclosureEntries pds).map Pd.deviceId).dedup.map WithBot.some)

/-- The shelves there are: the listed enclosures, those that disks are put on, and with none of
these the controller's own. -/
def OnList (pds : List Pd) (e : WithBot ℕ) : Prop :=
  (∃ p ∈ enclosureEntries pds, WithBot.some p.deviceId = e) ∨
    (∃ d ∈ disks pds, homeOf pds d = e) ∨
    (enclosureEntries pds = [] ∧ disks pds = [] ∧ e = ⊥)

/-- The address of an enclosure: its last entry's. -/
def addressOf (pds : List Pd) (e : WithBot ℕ) : Option String :=
  ((enclosureEntries pds).filter fun p => WithBot.some p.deviceId = e).getLast?.bind
    Pd.sasAddress

/-- The key of a shelf: its address, or else the name that the controller gives it. -/
def Controller.keyOf (c : Controller) (pds : List Pd) (e : WithBot ℕ) : String :=
  (addressOf pds e).getD (localKey c.node c.pcie c.host e)

/-- The disks on a shelf. -/
def disksOn (pds : List Pd) (e : WithBot ℕ) : List Pd :=
  (disks pds).filter fun d => homeOf pds d = e

/-- The only element does not depend on the order. -/
lemma onlyOf_perm {l m : List (WithBot ℕ)} (h : l.Perm m) : onlyOf l = onlyOf m := by
  match l, m, h with
  | [], m, h => rw [List.nil_perm.mp h]
  | [e], m, h => rw [List.singleton_perm.mp h]
  | e :: e' :: l, m, h =>
    match m, h.length_eq with
    | _ :: _ :: _, _ => rfl

section Named

variable {dcmd : Dcmd} {pds : List Pd}

variable (dcmd) in
/-- The named enclosures are those with an entry. -/
lemma mem_map_named_iff {e : WithBot ℕ} :
    e ∈ (named dcmd pds).map Prod.fst ↔
      ∃ p ∈ enclosureEntries pds, WithBot.some p.deviceId = e := by
  constructor
  · intro h
    obtain ⟨y, hy, rfl⟩ := List.mem_map.mp h
    obtain ⟨x, hx, rfl⟩ := List.mem_map.mp (OrderedMap.mem_of_mem_ofList hy)
    exact ⟨x.1, List.fst_mem_of_mem_zipIdx hx, rfl⟩
  · rintro ⟨p, hp, rfl⟩
    obtain ⟨i, hi, rfl⟩ := List.getElem_of_mem hp
    have numbered : ((enclosureEntries pds)[i], i) ∈ (enclosureEntries pds).zipIdx :=
      List.mem_zipIdx_iff_getElem?.mpr (List.getElem?_eq_getElem hi)
    obtain ⟨s, hs⟩ := OrderedMap.exists_mem_ofList (List.mem_map_of_mem (f := fun p : Pd × ℕ =>
      (WithBot.some p.1.deviceId, enclosureShelf dcmd p.2 p.1)) numbered)
    exact List.mem_map_of_mem hs

lemma nodup_map_named : ((named dcmd pds).map Prod.fst).Nodup :=
  List.pairwise_map.mpr ((OrderedMap.increasing_ofList _).imp fun h => h.ne)

/-- The only named enclosure is the only one that has an entry. -/
lemma shelfOf_onlyOf (d : Pd) :
    shelfOf (onlyOf ((named dcmd pds).map Prod.fst)) d = homeOf pds d := by
  have perm : ((named dcmd pds).map Prod.fst).Perm
      (((enclosureEntries pds).map Pd.deviceId).dedup.map WithBot.some) := by
    refine (List.perm_ext_iff_of_nodup nodup_map_named ?_).mpr ?_
    · exact (List.nodup_dedup _).map WithBot.coe_injective
    · intro e
      rw [mem_map_named_iff]
      simp
  rw [onlyOf_perm perm]
  by_cases h : d.enclosure = noEnclosure
  · have none : enclosureOf d = ⊥ := if_neg (not_not.mpr h)
    rw [shelfOf, if_pos none, homeOf, if_neg (not_not.mpr h)]
  · have some : enclosureOf d = WithBot.some d.enclosure := if_pos h
    rw [shelfOf, some, if_neg WithBot.coe_ne_bot, homeOf, if_pos h]

/-- A named shelf has its last entry's address, and no serial. -/
lemma logicalId_of_mem_named {y : WithBot ℕ × Shelf} (h : y ∈ named dcmd pds) :
    y.2.logicalId = addressOf pds y.1 ∧ y.2.serial = none := by
  obtain ⟨x, -, hx⟩ := List.mem_map.mp (OrderedMap.mem_of_mem_ofList h)
  have last := congrArg (Option.map fun x : WithBot ℕ × Shelf => x.2.logicalId)
    (OrderedMap.mem_ofList_iff.mp h)
  rw [← List.getLast?_map, List.filter_map, List.map_map] at last
  have entries : ((enclosureEntries pds).zipIdx.filter
      ((fun z : WithBot ℕ × Shelf => decide (z.1 = y.1)) ∘
        fun p => (WithBot.some p.1.deviceId, enclosureShelf dcmd p.2 p.1))).map
      ((fun z : WithBot ℕ × Shelf => z.2.logicalId) ∘
        fun p => (WithBot.some p.1.deviceId, enclosureShelf dcmd p.2 p.1)) =
      ((enclosureEntries pds).filter fun p => WithBot.some p.deviceId = y.1).map
        Pd.sasAddress := by
    conv_rhs => rw [← List.zipIdx_map_fst 0 (enclosureEntries pds)]
    rw [List.filter_map, List.map_map]
    rfl
  rw [entries, List.getLast?_map] at last
  constructor
  · obtain ⟨p, hp, same⟩ := Option.map_eq_some_iff.mp last
    rw [addressOf, hp]
    exact same.symm
  · rw [← hx]
    rfl

lemma addressOf_eq_none {e : WithBot ℕ}
    (h : ∀ p ∈ enclosureEntries pds, WithBot.some p.deviceId ≠ e) :
    addressOf pds e = none := by
  have none : ((enclosureEntries pds).filter fun p => WithBot.some p.deviceId = e) = [] := by
    rw [List.filter_eq_nil_iff]
    intro p hp
    simpa using h p hp
  rw [addressOf, none]
  rfl

/-- A shelf has an entry of its own, or it is one that a disk is put on, with no address. -/
lemma mem_withDisks_iff {y : WithBot ℕ × Shelf} :
    y ∈ withDisks dcmd pds ↔ y ∈ named dcmd pds ∨
      (y.2 = {} ∧ (∃ d ∈ disks pds, homeOf pds d = y.1) ∧ ∀ x ∈ named dcmd pds, x.1 ≠ y.1) := by
  rw [withDisks, OrderedMap.mem_foldl_insertNew_iff]
  simp only [List.mem_map, shelfOf_onlyOf]

lemma mem_enclosures_iff {y : WithBot ℕ × Shelf} :
    y ∈ enclosures dcmd pds ↔ y ∈ withDisks dcmd pds ∨ (y = (⊥, {}) ∧ withDisks dcmd pds = []) := by
  rw [enclosures]
  cases all : withDisks dcmd pds with
  | nil => simp [OrderedMap.insert]
  | cons x m => simp

/-- There is a shelf with an enclosure exactly when there is an entry, or a disk is put on it. -/
lemma withDisks_eq_nil_iff :
    withDisks dcmd pds = [] ↔ enclosureEntries pds = [] ∧ disks pds = [] := by
  constructor
  · intro nil
    have noEntry : enclosureEntries pds = [] := by
      by_contra some
      obtain ⟨p, hp⟩ := List.exists_mem_of_ne_nil _ some
      obtain ⟨x, hx, -⟩ := List.mem_map.mp ((mem_map_named_iff dcmd).mpr ⟨p, hp, rfl⟩)
      have mem := mem_withDisks_iff.mpr (Or.inl hx)
      rw [nil] at mem
      exact List.not_mem_nil mem
    have noName : named dcmd pds = [] := by
      rw [named, noEntry]
      rfl
    refine ⟨noEntry, ?_⟩
    by_contra some
    obtain ⟨d, hd⟩ := List.exists_mem_of_ne_nil _ some
    have mem : (homeOf pds d, ({} : Shelf)) ∈ withDisks dcmd pds :=
      mem_withDisks_iff.mpr (Or.inr ⟨rfl, ⟨d, hd, rfl⟩, by simp [noName]⟩)
    rw [nil] at mem
    exact List.not_mem_nil mem
  · rintro ⟨noEntry, noDisk⟩
    rw [withDisks, noDisk, named, noEntry]
    rfl

/-- The shelves are those of the list, each with its address. -/
lemma mem_enclosures {y : WithBot ℕ × Shelf} (h : y ∈ enclosures dcmd pds) :
    OnList pds y.1 ∧ y.2.logicalId = addressOf pds y.1 ∧ y.2.serial = none := by
  obtain mem | ⟨rfl, nil⟩ := mem_enclosures_iff.mp h
  · obtain entry | ⟨empty, disk, fresh⟩ := mem_withDisks_iff.mp mem
    · have key := (mem_map_named_iff dcmd).mp (List.mem_map_of_mem (f := Prod.fst) entry)
      exact ⟨Or.inl key, logicalId_of_mem_named entry⟩
    · have noAddress : addressOf pds y.1 = none := by
        refine addressOf_eq_none fun p hp same => ?_
        obtain ⟨x, hx, key⟩ :=
          List.mem_map.mp ((mem_map_named_iff dcmd).mpr ⟨p, hp, same⟩)
        exact fresh x hx key
      rw [empty, noAddress]
      exact ⟨Or.inr (Or.inl disk), rfl, rfl⟩
  · obtain ⟨noEntry, noDisk⟩ := withDisks_eq_nil_iff.mp nil
    have noAddress : addressOf pds ⊥ = none := by
      refine addressOf_eq_none fun p hp => ?_
      rw [noEntry] at hp
      exact absurd hp List.not_mem_nil
    exact ⟨Or.inr (Or.inr ⟨noEntry, noDisk, rfl⟩), noAddress.symm, rfl⟩

variable (dcmd) in
/-- Every shelf of the list is there. -/
lemma exists_mem_enclosures {e : WithBot ℕ} (h : OnList pds e) :
    ∃ shelf, (e, shelf) ∈ enclosures dcmd pds := by
  obtain entry | disk | ⟨noEntry, noDisk, rfl⟩ := h
  · obtain ⟨x, hx, rfl⟩ := List.mem_map.mp ((mem_map_named_iff dcmd).mpr entry)
    exact ⟨x.2, mem_enclosures_iff.mpr (Or.inl (mem_withDisks_iff.mpr (Or.inl hx)))⟩
  · by_cases entry : ∃ x ∈ named dcmd pds, x.1 = e
    · obtain ⟨x, hx, rfl⟩ := entry
      exact ⟨x.2, mem_enclosures_iff.mpr (Or.inl (mem_withDisks_iff.mpr (Or.inl hx)))⟩
    · push Not at entry
      exact ⟨{}, mem_enclosures_iff.mpr
        (Or.inl (mem_withDisks_iff.mpr (Or.inr ⟨rfl, disk, entry⟩)))⟩
  · exact ⟨{}, mem_enclosures_iff.mpr
      (Or.inr ⟨rfl, withDisks_eq_nil_iff.mpr ⟨noEntry, noDisk⟩⟩)⟩

lemma increasing_enclosures : OrderedMap.Increasing (enclosures dcmd pds) := by
  have all : OrderedMap.Increasing (withDisks dcmd pds) := by
    rw [withDisks, named]
    exact OrderedMap.increasing_foldl_insertNew (OrderedMap.increasing_ofList _) _ _
  rw [enclosures]
  split_ifs
  · exact OrderedMap.increasing_insert all ⊥ {}
  · exact all

end Named

/-! ## What a report says -/

/-- The disks that are placed on a shelf one behind the other: each device keeps its last slot,
each slot its last disk, and the disks with no slot are named. -/
lemma foldl_add (e : WithBot ℕ) (ds : List Pd) :
    (ds.foldl (Placed.add e) {}).deviceBays =
        OrderedMap.ofList ((ds.filter fun d => d.slot ≠ 0xff).map fun d => (d.deviceId, d.slot)) ∧
      (ds.foldl (Placed.add e) {}).slots =
        OrderedMap.ofList
          ((ds.filter fun d => d.slot ≠ 0xff).map fun d => (d.slot, d.sasAddress.toList)) ∧
      (ds.foldl (Placed.add e) {}).slotNotMatched =
        (ds.filter fun d => d.slot = 0xff).map Pd.deviceId := by
  induction ds using List.reverseRecOn with
  | nil => exact ⟨rfl, rfl, rfl⟩
  | append_singleton ds d ih =>
    obtain ⟨bays, slots, unmatched⟩ := ih
    rw [List.foldl_append, List.filter_append, List.filter_append, List.map_append,
      List.map_append, List.map_append]
    by_cases noSlot : d.slot = 0xff
    · have none : [d].filter (fun d => d.slot ≠ 0xff) = [] := by simp [noSlot]
      have one : [d].filter (fun d => d.slot = 0xff) = [d] := by simp [noSlot]
      rw [none, one, List.map_nil, List.map_nil, List.append_nil, List.append_nil, ← bays,
        ← slots, ← unmatched]
      simp only [List.foldl_cons, List.foldl_nil, Placed.add, noSlot, if_true]
      split_ifs <;> exact ⟨rfl, rfl, rfl⟩
    · have one : [d].filter (fun d => d.slot ≠ 0xff) = [d] := by simp [noSlot]
      have none : [d].filter (fun d => d.slot = 0xff) = [] := by simp [noSlot]
      rw [none, one, List.map_nil, List.append_nil, List.map_singleton, List.map_singleton,
        OrderedMap.ofList_concat, OrderedMap.ofList_concat, ← bays, ← slots, ← unmatched]
      simp only [List.foldl_cons, List.foldl_nil, Placed.add, noSlot, if_false]
      split_ifs <;> exact ⟨rfl, rfl, rfl⟩

namespace ShelfReport

/-- The enclosure of a report. -/
def enclosure (r : ShelfReport) : WithBot ℕ :=
  (r.through.map Through.enclosureDeviceId).getD ⊥

/-- The slots of devices that a report gives. -/
def bays (r : ShelfReport) : List (ℕ × ℕ) := (r.through.map Through.deviceBays).getD []

/-- The devices that a report gives no slot. -/
def unmatched (r : ShelfReport) : List ℕ := (r.through.map Through.slotNotMatched).getD []

end ShelfReport

/-- **The report of a shelf**, in terms of the controller's list. -/
structure IsReport (c : Controller) (pds : List Pd) (r : ShelfReport) : Prop where
  on : OnList pds r.enclosure
  key : r.key = c.keyOf pds r.enclosure
  shelfKey : r.shelf.key = some r.key
  id : r.shelf.id = some (localKey c.node c.pcie c.host r.enclosure)
  host : r.through.map Through.scsiHost = some c.host
  bays : r.bays = OrderedMap.ofList
    (((disksOn pds r.enclosure).filter fun d => d.slot ≠ 0xff).map fun d => (d.deviceId, d.slot))
  slots : r.slots = OrderedMap.ofList
    (((disksOn pds r.enclosure).filter fun d => d.slot ≠ 0xff).map fun d =>
      (d.slot, d.sasAddress.toList))
  unmatched : r.unmatched =
    ((disksOn pds r.enclosure).filter fun d => d.slot = 0xff).map Pd.deviceId

/-- A report with an enclosure's address and its disks is one of the list. -/
lemma isReport_reportWith {c : Controller} {pds : List Pd} {e : WithBot ℕ} {shelf : Shelf}
    (on : OnList pds e) (address : shelf.logicalId = addressOf pds e) (serial : shelf.serial = none)
    (error : Option String) :
    IsReport c pds (c.reportWith e shelf ((disksOn pds e).foldl (Placed.add e) {}) error) := by
  obtain ⟨bays, slots, unmatched⟩ := foldl_add e (disksOn pds e)
  have key : { shelf with
      id := some (localKey c.node c.pcie c.host e), position := some .internal }.key =
      some (c.keyOf pds e) := by
    rw [Controller.keyOf, ← address]
    cases shelf.logicalId <;> simp [Shelf.key, serial]
  have name : (c.reportWith e shelf ((disksOn pds e).foldl (Placed.add e) {}) error).key =
      c.keyOf pds e := by
    rw [Controller.reportWith]
    dsimp only
    rw [key, Option.getD_some]
  exact ⟨on, name, key.trans (congrArg some name.symm), rfl, rfl, bays, slots, unmatched⟩

namespace Controller

variable {c : Controller} {dcmd : Dcmd}

/-- **What a report says, in terms of the list.** -/
theorem isReport_of_mem_read {r : ShelfReport} (h : r ∈ c.read dcmd) :
    IsReport c (listOf dcmd) r := by
  rw [read] at h
  cases list : drivesOf dcmd with
  | error why =>
    rw [list] at h
    have empty : listOf dcmd = [] := by rw [listOf, list]
    rw [empty, List.mem_singleton.mp h]
    exact isReport_reportWith (Or.inr (Or.inr ⟨rfl, rfl, rfl⟩)) rfl rfl (some why)
  | ok pds =>
    rw [list] at h
    have same : listOf dcmd = pds := by rw [listOf, list]
    obtain ⟨e, he, rfl⟩ := List.mem_map.mp h
    obtain ⟨on, address, serial⟩ := mem_enclosures he
    simp only [shelfOf_onlyOf, same]
    exact isReport_reportWith on address serial none

/-- Every shelf of the list has a report. -/
theorem exists_mem_read {e : WithBot ℕ} (h : OnList (listOf dcmd) e) :
    ∃ r ∈ c.read dcmd, r.enclosure = e := by
  rw [read]
  cases list : drivesOf dcmd with
  | error why =>
    have empty : listOf dcmd = [] := by rw [listOf, list]
    rw [empty] at h
    obtain ⟨p, hp, -⟩ | ⟨d, hd, -⟩ | ⟨-, -, rfl⟩ := h
    · exact absurd hp List.not_mem_nil
    · exact absurd hd List.not_mem_nil
    · exact ⟨_, List.mem_singleton.mpr rfl, rfl⟩
  | ok pds =>
    have same : listOf dcmd = pds := by rw [listOf, list]
    rw [same] at h
    obtain ⟨shelf, mem⟩ := exists_mem_enclosures dcmd h
    exact ⟨_, List.mem_map_of_mem mem, rfl⟩

/-- The reports are in the order of their enclosures. -/
theorem pairwise_read : (c.read dcmd).Pairwise fun r r' => r.enclosure < r'.enclosure := by
  rw [read]
  cases drivesOf dcmd with
  | error why => exact List.pairwise_singleton _ _
  | ok pds => exact List.pairwise_map.mpr increasing_enclosures

end Controller

end Megaraid

end StormDrive
