import StormDrive.Megaraid

set_option relaxedAutoImplicit false
set_option autoImplicit false

/-!
# Every disk of a RAID controller has its place

What a node makes of the lists of all its `megaraid_sas` controllers. A disk is joined to its shelf
by its device id, to its bay by its slot, and the shelves of all controllers go into one table by
their keys; each of these joins keeps the last entry with a name. So every disk has its place
exactly when the names that the lists give are distinct.

## Main definitions

* `Megaraid.Node` — the controllers of a node.
* `Megaraid.EveryDiskPlaced` — **the lists place every disk**.
* `Megaraid.DistinctNames` — no two shelves with one key, no two disks with one device id or in
  one bay.

## Main results

* `Megaraid.Node.kept_iff` — no controller's report is replaced by another's exactly when no two of
  them give one key.
* `Megaraid.Node.mem_shelves_iff` — then a report stays unless a later one of its controller has
  its key.
* `Megaraid.everyDiskPlaced_iff` — every disk has its place exactly when the names are distinct.
-/

namespace StormDrive

namespace Megaraid

/-! ## The node -/

/-- A controller as the node finds it: its host, its PCI function and how it answers. -/
structure Attached where
  host : String
  pcie : Option String
  dcmd : Dcmd

/-- The list of a controller. -/
def Attached.pds (a : Attached) : List Pd := listOf a.dcmd

/-- The controllers of a node. Their hosts are entries of one directory. -/
structure Node where
  name : String
  attached : List Attached
  nodup_hosts : (attached.map Attached.host).Nodup

namespace Node

variable (n : Node) (a : Attached)

def controller : Controller := ⟨n.name, a.host, a.pcie⟩

/-- The reports of one controller. -/
def read : List ShelfReport := (n.controller a).read a.dcmd

/-- The reports of all, one controller behind the other. -/
def reports : List ShelfReport := n.attached.flatMap n.read

/-- `scan`: the table of the node. -/
def shelves : Shelves := intoTable n.reports

/-- The key of a shelf of a controller. -/
def keyOf (e : WithBot ℕ) : String := (n.controller a).keyOf a.pds e

/-- A report says that the controller gives the disk no slot. -/
def Unmatched (d : Pd) : Prop :=
  ∃ x ∈ n.shelves, x.2.through.map Through.scsiHost = some a.host ∧ d.deviceId ∈ x.2.unmatched

end Node

/-- The bay of a disk: its slot, or none. -/
def Pd.bay (d : Pd) : Option ℕ := if d.slot = 0xff then none else some d.slot

/-- An address of a disk on its controller's host. -/
def Pd.At (d : Pd) (addr : ℕ × ℕ) : Prop :=
  Megaraid.deviceId addr.1 addr.2 = some d.deviceId

/-- **The lists place every disk.** -/
structure EveryDiskPlaced (n : Node) : Prop where
  /-- At its address there is its shelf, and its slot as the bay. -/
  found : ∀ a ∈ n.attached, ∀ d ∈ disks a.pds, ∀ addr, d.At addr →
    ∃ r ∈ n.read a, r.enclosure = homeOf a.pds d ∧
      place n.shelves a.host addr = some (r.shelf, d.bay)
  /-- Two disks have one place only if one of them is reported to have no slot. -/
  apart : ∀ a ∈ n.attached, ∀ d ∈ disks a.pds, ∀ a' ∈ n.attached, ∀ d' ∈ disks a'.pds,
    (a.host ≠ a'.host ∨ d.deviceId ≠ d'.deviceId) →
    ∀ addr addr', d.At addr → d'.At addr' → ∀ shelf shelf' bay,
      place n.shelves a.host addr = some (shelf, bay) →
      place n.shelves a'.host addr' = some (shelf', bay) → shelf.key = shelf'.key →
      n.Unmatched a d ∨ n.Unmatched a' d'
  /-- The table names the address of a disk in its slot. -/
  addressed : ∀ a ∈ n.attached, ∀ d ∈ disks a.pds, d.slot ≠ 0xff →
    ∀ address, d.sasAddress = some address →
    ∃ r ∈ n.read a, r.enclosure = homeOf a.pds d ∧ (r.key, r) ∈ n.shelves ∧
      ∃ addresses, (d.slot, addresses) ∈ r.slots ∧ address ∈ addresses
  /-- Under the key of a controller's report there is one of that controller. -/
  kept : ∀ a ∈ n.attached, ∀ r ∈ n.read a, ∃ r' ∈ n.read a, (r.key, r') ∈ n.shelves

/-- No two controllers give shelves with one key. -/
def ApartByKey (n : Node) : Prop :=
  ∀ a ∈ n.attached, ∀ a' ∈ n.attached, a.host ≠ a'.host →
    ∀ e e', OnList a.pds e → OnList a'.pds e' → n.keyOf a e ≠ n.keyOf a' e'

/-- The names in the lists are distinct. -/
structure DistinctNames (n : Node) : Prop where
  controllers : ApartByKey n
  /-- No shelf behind a disk's has the key of it. -/
  shelves : ∀ a ∈ n.attached, ∀ d ∈ disks a.pds, ∀ e, OnList a.pds e → homeOf a.pds d < e →
    n.keyOf a e ≠ n.keyOf a (homeOf a.pds d)
  /-- A device that is listed twice is on one shelf and in one slot. -/
  devices : ∀ a ∈ n.attached, ∀ d ∈ disks a.pds, ∀ d' ∈ disks a.pds, d.deviceId = d'.deviceId →
    homeOf a.pds d = homeOf a.pds d' ∧ d.slot = d'.slot
  /-- Two devices are not in one slot of a shelf. -/
  slots : ∀ a ∈ n.attached, ∀ d ∈ disks a.pds, ∀ d' ∈ disks a.pds,
    homeOf a.pds d = homeOf a.pds d' → d.slot = d'.slot → d.slot ≠ 0xff →
    d.deviceId = d'.deviceId
  /-- The last entry for a slot gives the address that any of them gives. -/
  addresses : ∀ a ∈ n.attached, ∀ d ∈ disks a.pds, d.slot ≠ 0xff →
    ∀ address, d.sasAddress = some address →
    ((disksOn a.pds (homeOf a.pds d)).filter fun d' => d'.slot = d.slot).getLast?.bind
      Pd.sasAddress = some address

/-! ## Lists -/

section Lists

variable {α β : Type}

/-- In a list in order, an element is the last or before it. -/
lemma eq_or_rel_of_getLast? {R : α → α → Prop} {l : List α} {x last : α} (h : l.Pairwise R)
    (hlast : l.getLast? = some last) (hx : x ∈ l) : x = last ∨ R x last := by
  obtain ⟨init, rfl⟩ := List.getLast?_eq_some_iff.mp hlast
  obtain before | here := List.mem_append.mp hx
  · exact Or.inr ((List.pairwise_append.mp h).2.2 x before last (List.mem_singleton.mpr rfl))
  · exact Or.inl (List.mem_singleton.mp here)

/-- A search in which all that can be found is one value. -/
lemma findSome?_eq_of_unique {f : α → Option β} {l : List α} {x : α} {b : β} (hx : x ∈ l)
    (found : (f x).isSome) (unique : ∀ y ∈ l, ∀ c, f y = some c → c = b) :
    l.findSome? f = some b := by
  obtain ⟨c, hc⟩ := Option.isSome_iff_exists.mp (List.findSome?_isSome_iff.mpr ⟨x, hx, found⟩)
  obtain ⟨y, hy, hfy⟩ := List.exists_of_findSome?_eq_some hc
  rw [hc, unique y hy c hfy]

end Lists

/-! ## Names of shelves -/

/-- Digits stay in a name. -/
lemma nameChar_digit :
    ∀ k < 58, 48 ≤ k → nameChar (Char.toLower (Char.ofNat k)) = Char.ofNat k := by
  decide

lemma map_nameChar_toDigits (e : ℕ) :
    ((Nat.toDigits 10 e).map Char.toLower).map nameChar = Nat.toDigits 10 e := by
  have digit : ∀ c ∈ Nat.toDigits 10 e, (nameChar ∘ Char.toLower) c = id c := by
    intro c hc
    have range : 48 ≤ c.toNat ∧ c.toNat ≤ 57 := by
      simpa [Char.isDigit, UInt32.le_iff_toNat_le] using
        Nat.isDigit_of_mem_toDigits (by decide) (by decide) hc
    rw [← Char.ofNat_toNat c]
    exact nameChar_digit c.toNat (by omega) range.1
  rw [List.map_map, List.map_congr_left digit, List.map_id]

/-- What an enclosure adds to a name differs with the enclosure. -/
lemma enclosureSuffix_injective {e e' : WithBot ℕ}
    (h : ((enclosureSuffix e).toList.map Char.toLower).map nameChar =
      ((enclosureSuffix e').toList.map Char.toLower).map nameChar) : e = e' := by
  have chars : ∀ k : ℕ, ((enclosureSuffix (WithBot.some k)).toList.map Char.toLower).map nameChar =
      ['-', 'e'] ++ Nat.toDigits 10 k := by
    intro k
    have suffix : (enclosureSuffix (WithBot.some k)).toList = ['-', 'e'] ++ Nat.toDigits 10 k := by
      show ("-e" ++ toString k).toList = _
      rw [String.toList_append]
      exact congrArg _ Nat.toList_repr
    rw [suffix, List.map_append, List.map_append, map_nameChar_toDigits]
    rfl
  cases e with
  | bot =>
    cases e' with
    | bot => rfl
    | coe k' =>
      rw [chars] at h
      exact absurd h (List.cons_ne_nil _ _).symm
  | coe k =>
    cases e' with
    | bot =>
      rw [chars] at h
      exact absurd h (List.cons_ne_nil _ _)
    | coe k' =>
      rw [chars, chars] at h
      have value := congrArg (fun l => Nat.ofDigitChars 10 l 0) (List.append_cancel_left h)
      simpa using value

/-- A controller gives two enclosures two names. -/
lemma localKey_injective {node host : String} {pcie : Option String} {e e' : WithBot ℕ}
    (h : localKey node pcie host e = localKey node pcie host e') : e = e' := by
  have chars := congrArg String.toList h
  simp only [localKey, String.toList_ofList, String.toList_append, List.map_append] at chars
  exact enclosureSuffix_injective (List.append_cancel_left chars)

/-! ## What one report places -/

lemma mem_disksOn_iff {pds : List Pd} {e : WithBot ℕ} {d : Pd} :
    d ∈ disksOn pds e ↔ d ∈ disks pds ∧ homeOf pds d = e := by
  simp [disksOn]

lemma Pd.bay_injective {d d' : Pd} (h : d.bay = d'.bay) : d.slot = d'.slot := by
  rw [bay, bay] at h
  split_ifs at h with none none'
  · rw [none, none']
  · exact Option.some.inj h

namespace IsReport

variable {c : Controller} {pds : List Pd} {r : ShelfReport}

/-- The device's bay is looked up first, then it may be one with no slot. -/
lemma placeOf_eq (h : IsReport c pds r) (id : ℕ) :
    r.placeOf id = match OrderedMap.get r.bays id with
      | some bay => some (r.shelf, some bay)
      | none => if r.unmatched.contains id then some (r.shelf, none) else none := by
  obtain ⟨t, ht, -⟩ := Option.map_eq_some_iff.mp h.host
  rw [ShelfReport.placeOf, ShelfReport.bays, ShelfReport.unmatched, ht]
  rfl

/-- A device has a bay on a shelf only if it is listed there in that slot. -/
lemma mem_bays (h : IsReport c pds r) {id bay : ℕ} (mem : (id, bay) ∈ r.bays) :
    ∃ d ∈ disksOn pds r.enclosure, d.slot ≠ 0xff ∧ d.deviceId = id ∧ d.slot = bay := by
  rw [h.bays] at mem
  obtain ⟨d, hd, same⟩ := List.mem_map.mp (OrderedMap.mem_of_mem_ofList mem)
  obtain ⟨on, slot⟩ := List.mem_filter.mp hd
  exact ⟨d, on, of_decide_eq_true slot, congrArg Prod.fst same, congrArg Prod.snd same⟩

lemma mem_unmatched_iff (h : IsReport c pds r) {id : ℕ} :
    id ∈ r.unmatched ↔ ∃ d ∈ disksOn pds r.enclosure, d.slot = 0xff ∧ d.deviceId = id := by
  rw [h.unmatched]
  simp [and_assoc]

/-- A device that is placed on a shelf is listed there, in the bay that is given. -/
lemma exists_of_placeOf (h : IsReport c pds r) {id : ℕ} {x : Shelf × Option ℕ}
    (found : r.placeOf id = some x) :
    ∃ d ∈ disksOn pds r.enclosure, d.deviceId = id ∧ x = (r.shelf, d.bay) := by
  rw [h.placeOf_eq] at found
  have increasing : OrderedMap.Increasing r.bays := by
    rw [h.bays]
    exact OrderedMap.increasing_ofList _
  cases get : OrderedMap.get r.bays id with
  | some bay =>
    rw [get] at found
    obtain ⟨d, on, slot, device, same⟩ := h.mem_bays (increasing.get_eq_some_iff.mp get)
    refine ⟨d, on, device, ?_⟩
    rw [Pd.bay, if_neg slot, same]
    exact (Option.some.inj found).symm
  | none =>
    rw [get] at found
    dsimp only at found
    split_ifs at found with listed
    obtain ⟨d, on, slot, device⟩ := h.mem_unmatched_iff.mp (List.contains_iff_mem.mp listed)
    refine ⟨d, on, device, ?_⟩
    rw [Pd.bay, if_pos slot]
    exact (Option.some.inj found).symm

/-- A disk that is listed on a shelf is placed there. -/
lemma placeOf_isSome (h : IsReport c pds r) {d : Pd} (on : d ∈ disksOn pds r.enclosure) :
    (r.placeOf d.deviceId).isSome := by
  rw [h.placeOf_eq]
  cases get : OrderedMap.get r.bays d.deviceId with
  | some bay => rfl
  | none =>
    by_cases slot : d.slot = 0xff
    · have listed : r.unmatched.contains d.deviceId := by
        rw [List.contains_iff_mem]
        exact h.mem_unmatched_iff.mpr ⟨d, on, slot, rfl⟩
      dsimp only
      rw [if_pos listed]
      rfl
    · have mem : (d.deviceId, d.slot) ∈
          ((disksOn pds r.enclosure).filter fun d => d.slot ≠ 0xff).map fun d =>
            (d.deviceId, d.slot) :=
        List.mem_map_of_mem (List.mem_filter.mpr ⟨on, decide_eq_true slot⟩)
      obtain ⟨bay, hbay⟩ := OrderedMap.exists_mem_ofList mem
      rw [← h.bays] at hbay
      have increasing : OrderedMap.Increasing r.bays := by
        rw [h.bays]
        exact OrderedMap.increasing_ofList _
      have found := increasing.get_eq_some_iff.mpr hbay
      rw [get] at found
      exact absurd found (Option.some_ne_none bay).symm

/-- A slot names the addresses of the last disk that is listed in it. -/
lemma mem_slots_iff (h : IsReport c pds r) {slot : ℕ} {addresses : List String} :
    (slot, addresses) ∈ r.slots ↔ slot ≠ 0xff ∧
      ((disksOn pds r.enclosure).filter fun d => d.slot = slot).getLast?.map
        (fun d => d.sasAddress.toList) = some addresses := by
  rw [h.slots, OrderedMap.mem_ofList_iff, List.filter_map, List.getLast?_map, List.filter_filter]
  by_cases ff : slot = 0xff
  · have nothing : ((disksOn pds r.enclosure).filter fun d =>
        decide (d.slot = slot) && decide (d.slot ≠ 0xff)) = [] := by
      rw [List.filter_eq_nil_iff]
      intro d _
      simp [ff]
    constructor
    · intro last
      change (List.getLast? (List.filter (fun d : Pd =>
        decide (d.slot = slot) && decide (d.slot ≠ 0xff)) _)).map _ = _ at last
      rw [nothing] at last
      exact absurd last (Option.some_ne_none _).symm
    · rintro ⟨notFf, -⟩
      exact absurd ff notFf
  · have same : ((disksOn pds r.enclosure).filter fun d =>
        decide (d.slot = slot) && decide (d.slot ≠ 0xff)) =
        (disksOn pds r.enclosure).filter fun d => d.slot = slot := by
      refine List.filter_congr fun d _ => ?_
      by_cases here : d.slot = slot
      · simp [here, ff]
      · simp [here]
    change (List.getLast? (List.filter (fun d : Pd =>
      decide (d.slot = slot) && decide (d.slot ≠ 0xff)) _)).map _ = _ ↔ _
    rw [same]
    cases last : ((disksOn pds r.enclosure).filter fun d => d.slot = slot).getLast? with
    | none => simp
    | some d =>
      have here : d.slot = slot := of_decide_eq_true
        (List.mem_filter.mp (List.mem_of_getLast? last)).2
      simp [here, ff]

end IsReport

/-! ## The table -/

namespace Node

variable {n : Node} {a a' : Attached} {r r' : ShelfReport}

lemma isReport_of_mem_read (h : r ∈ n.read a) : IsReport (n.controller a) a.pds r :=
  Controller.isReport_of_mem_read h

lemma host_of_mem_read (h : r ∈ n.read a) : r.through.map Through.scsiHost = some a.host :=
  (isReport_of_mem_read h).host

lemma key_of_mem_read (h : r ∈ n.read a) : r.key = n.keyOf a r.enclosure :=
  (isReport_of_mem_read h).key

/-- A controller has one report for an enclosure. -/
lemma eq_of_mem_read (h : r ∈ n.read a) (h' : r' ∈ n.read a) (same : r.enclosure = r'.enclosure) :
    r = r' := by
  have nodup : ((n.read a).map ShelfReport.enclosure).Nodup :=
    List.pairwise_map.mpr (Controller.pairwise_read.imp fun before => before.ne)
  exact List.inj_on_of_nodup_map nodup h h' same

/-- Two controllers have two hosts. -/
lemma eq_of_host (ha : a ∈ n.attached) (ha' : a' ∈ n.attached) (same : a.host = a'.host) : a = a' :=
  List.inj_on_of_nodup_map n.nodup_hosts ha ha' same

/-- A report of the table is one of a controller. -/
lemma exists_of_mem_shelves {x : String × ShelfReport} (h : x ∈ n.shelves) :
    ∃ a ∈ n.attached, x.2 ∈ n.read a ∧ x.1 = x.2.key := by
  obtain ⟨r, hr, rfl⟩ := List.mem_map.mp (OrderedMap.mem_of_mem_ofList h)
  obtain ⟨a, ha, mem⟩ := List.mem_flatMap.mp hr
  exact ⟨a, ha, mem, rfl⟩

/-- A report of the table with a host is one of the controller there. -/
lemma mem_read_of_host (ha : a ∈ n.attached) {x : String × ShelfReport} (h : x ∈ n.shelves)
    (host : x.2.through.map Through.scsiHost = some a.host) : x.2 ∈ n.read a ∧ x.1 = x.2.key := by
  obtain ⟨a', ha', mem, key⟩ := exists_of_mem_shelves h
  have same : a'.host = a.host := Option.some.inj ((host_of_mem_read mem).symm.trans host)
  rw [← eq_of_host ha' ha same]
  exact ⟨mem, key⟩

/-- A key has one report. -/
lemma eq_of_mem_shelves {k : String} (h : (k, r) ∈ n.shelves) (h' : (k, r') ∈ n.shelves) : r = r' :=
  congrArg Prod.snd ((OrderedMap.increasing_ofList _).eq_of_key h h' rfl)

/-- A report stays exactly when it is the last with its key. -/
lemma mem_shelves_iff_last :
    (r.key, r) ∈ n.shelves ↔
      (n.reports.filter fun r' => r'.key = r.key).getLast? = some r := by
  rw [shelves, intoTable, OrderedMap.mem_ofList_iff, List.filter_map, List.getLast?_map]
  constructor
  · intro last
    obtain ⟨r', hr', same⟩ := Option.map_eq_some_iff.mp last
    obtain rfl : r' = r := congrArg Prod.snd same
    exact hr'
  · intro last
    exact congrArg (Option.map fun r => (r.key, r)) last

/-- The reports of one controller come in the order of their enclosures. -/
lemma pairwise_reports : n.reports.Pairwise fun r r' =>
    r.through.map Through.scsiHost = r'.through.map Through.scsiHost →
      r.enclosure < r'.enclosure := by
  refine List.pairwise_flatMap.mpr ⟨?_, ?_⟩
  · intro a _
    refine Controller.pairwise_read.imp ?_
    intro r r' before _
    exact before
  · refine (List.pairwise_map.mp n.nodup_hosts).imp ?_
    intro a a' ne r hr r' hr' same
    rw [host_of_mem_read hr, host_of_mem_read hr'] at same
    exact absurd (Option.some.inj same) ne

/-- **No controller's report is replaced by another's** exactly when no two of them give shelves
with one key. -/
theorem kept_iff :
    (∀ a ∈ n.attached, ∀ r ∈ n.read a, ∃ r' ∈ n.read a, (r.key, r') ∈ n.shelves) ↔
      ApartByKey n := by
  constructor
  · intro kept a ha a' ha' ne e e' on on' same
    obtain ⟨r, hr, rfl⟩ := Controller.exists_mem_read (c := n.controller a) on
    obtain ⟨r', hr', rfl⟩ := Controller.exists_mem_read (c := n.controller a') on'
    obtain ⟨s, hs, stays⟩ := kept a ha r hr
    obtain ⟨s', hs', stays'⟩ := kept a' ha' r' hr'
    have keys : r.key = r'.key := by
      rw [key_of_mem_read hr, key_of_mem_read hr']
      exact same
    rw [keys] at stays
    have one := eq_of_mem_shelves stays stays'
    rw [one] at hs
    exact ne (Option.some.inj ((host_of_mem_read hs).symm.trans (host_of_mem_read hs')))
  · intro apart a ha r hr
    have reported : (r.key, r) ∈ n.reports.map fun r => (r.key, r) :=
      List.mem_map_of_mem (List.mem_flatMap.mpr ⟨a, ha, hr⟩)
    obtain ⟨r', stays⟩ := OrderedMap.exists_mem_ofList reported
    obtain ⟨a', ha', hr', key⟩ := exists_of_mem_shelves stays
    have same : a.host = a'.host := by
      by_contra ne
      refine apart a ha a' ha' ne r.enclosure r'.enclosure (isReport_of_mem_read hr).on
        (isReport_of_mem_read hr').on ?_
      rw [← key_of_mem_read hr, ← key_of_mem_read hr']
      exact key
    refine ⟨r', ?_, stays⟩
    rw [eq_of_host ha ha' same]
    exact hr'

/-- A report that stays has no later one of its controller with its key. -/
lemma key_ne_of_mem_shelves (hr : r ∈ n.read a) (ha : a ∈ n.attached)
    (stays : (r.key, r) ∈ n.shelves) (hr' : r' ∈ n.read a)
    (behind : r.enclosure < r'.enclosure) : r'.key ≠ r.key := by
  intro same
  have here : r' ∈ n.reports.filter fun r' => r'.key = r.key :=
    List.mem_filter.mpr ⟨List.mem_flatMap.mpr ⟨a, ha, hr'⟩, decide_eq_true same⟩
  obtain rfl | before := eq_or_rel_of_getLast? (pairwise_reports.filter _)
    (mem_shelves_iff_last.mp stays) here
  · exact lt_irrefl _ behind
  · exact lt_asymm behind (before ((host_of_mem_read hr').trans (host_of_mem_read hr).symm))

/-- **When a report stays**: no later one of its controller has its key, if other controllers give
other keys. -/
theorem mem_shelves_iff (apart : ApartByKey n) (ha : a ∈ n.attached) (hr : r ∈ n.read a) :
    (r.key, r) ∈ n.shelves ↔
      ∀ r' ∈ n.read a, r.enclosure < r'.enclosure → r'.key ≠ r.key := by
  constructor
  · intro stays r' hr' behind
    exact key_ne_of_mem_shelves hr ha stays hr' behind
  · intro last
    obtain ⟨r', hr', stays⟩ := kept_iff.mpr apart a ha r hr
    have key : r.key = r'.key := (mem_read_of_host ha stays (host_of_mem_read hr')).2
    rw [key] at stays
    have here : r ∈ n.reports.filter fun s => s.key = r'.key :=
      List.mem_filter.mpr ⟨List.mem_flatMap.mpr ⟨a, ha, hr⟩, decide_eq_true key⟩
    obtain rfl | before := eq_or_rel_of_getLast? (pairwise_reports.filter _)
      (mem_shelves_iff_last.mp stays) here
    · exact stays
    · have behind := before ((host_of_mem_read hr).trans (host_of_mem_read hr').symm)
      exact absurd key.symm (last r' hr' behind)

/-! ## Places -/

/-- The reports with a host that are in the table are the controller's. -/
lemma mem_mine_iff (ha : a ∈ n.attached) :
    r ∈ (n.shelves.map Prod.snd).filter (fun r => r.through.any fun t => t.scsiHost = a.host) ↔
      r ∈ n.read a ∧ (r.key, r) ∈ n.shelves := by
  constructor
  · intro mem
    obtain ⟨inTable, host⟩ := List.mem_filter.mp mem
    obtain ⟨x, stays, rfl⟩ := List.mem_map.mp inTable
    obtain ⟨t, through, same⟩ := (Option.any_eq_true _ _).mp host
    have here : x.2.through.map Through.scsiHost = some a.host := by
      rw [through, Option.map_some, of_decide_eq_true same]
    obtain ⟨hr, key⟩ := mem_read_of_host ha stays here
    refine ⟨hr, ?_⟩
    rw [← key]
    exact stays
  · rintro ⟨hr, stays⟩
    refine List.mem_filter.mpr ⟨List.mem_map_of_mem (f := Prod.snd) stays, ?_⟩
    obtain ⟨t, through, host⟩ := Option.map_eq_some_iff.mp (host_of_mem_read hr)
    rw [through, Option.any_some, decide_eq_true_iff]
    exact host

/-- What is found on a host is on a shelf of its controller that is in the table. -/
lemma exists_of_place (ha : a ∈ n.attached) {addr : ℕ × ℕ} {x : Shelf × Option ℕ}
    (h : place n.shelves a.host addr = some x) :
    ∃ r ∈ n.read a, (r.key, r) ∈ n.shelves ∧ x.1 = r.shelf := by
  rw [place] at h
  cases search : ((deviceId addr.1 addr.2).bind fun id =>
      ((n.shelves.map Prod.snd).filter fun r =>
        r.through.any fun t => t.scsiHost = a.host).findSome? fun r => r.placeOf id) with
  | some y =>
    rw [search] at h
    obtain rfl := Option.some.inj h
    obtain ⟨id, -, found⟩ := Option.bind_eq_some_iff.mp search
    obtain ⟨r, mine, here⟩ := List.exists_of_findSome?_eq_some found
    obtain ⟨hr, stays⟩ := (mem_mine_iff ha).mp mine
    obtain ⟨d, -, -, rfl⟩ := (isReport_of_mem_read hr).exists_of_placeOf here
    exact ⟨r, hr, stays, rfl⟩
  | none =>
    rw [search] at h
    dsimp only at h
    split at h
    · next only alone =>
      have mine : only ∈ (n.shelves.map Prod.snd).filter
          fun r => r.through.any fun t => t.scsiHost = a.host := by
        rw [alone]
        exact List.mem_singleton.mpr rfl
      obtain ⟨hr, stays⟩ := (mem_mine_iff ha).mp mine
      exact ⟨only, hr, stays, congrArg Prod.fst (Option.some.inj h).symm⟩
    · exact absurd h (Option.some_ne_none x).symm

/-- A disk whose report is in the table is found there, if every entry for its device says so. -/
lemma place_eq (ha : a ∈ n.attached)
    (devices : ∀ d ∈ disks a.pds, ∀ d' ∈ disks a.pds, d.deviceId = d'.deviceId →
      homeOf a.pds d = homeOf a.pds d' ∧ d.slot = d'.slot)
    {d : Pd} (hd : d ∈ disks a.pds) {addr : ℕ × ℕ} (at_ : d.At addr) (hr : r ∈ n.read a)
    (home : r.enclosure = homeOf a.pds d) (stays : (r.key, r) ∈ n.shelves) :
    place n.shelves a.host addr = some (r.shelf, d.bay) := by
  have found : ((n.shelves.map Prod.snd).filter
      fun r => r.through.any fun t => t.scsiHost = a.host).findSome?
        (fun r => r.placeOf d.deviceId) = some (r.shelf, d.bay) := by
    refine findSome?_eq_of_unique ((mem_mine_iff ha).mpr ⟨hr, stays⟩)
      ((isReport_of_mem_read hr).placeOf_isSome (mem_disksOn_iff.mpr ⟨hd, home.symm⟩)) ?_
    intro r' mine' x here
    obtain ⟨hr', -⟩ := (mem_mine_iff ha).mp mine'
    obtain ⟨d', on', device, rfl⟩ := (isReport_of_mem_read hr').exists_of_placeOf here
    obtain ⟨hd', home'⟩ := mem_disksOn_iff.mp on'
    obtain ⟨shelf, slot⟩ := devices d' hd' d hd device
    have one : r' = r := eq_of_mem_read hr' hr (home'.symm.trans (shelf.trans home.symm))
    rw [one, Pd.bay, Pd.bay, slot]
  rw [place, at_, Option.bind_some, found]

/-- A shelf of a controller is its report's: the name has the enclosure. -/
lemma eq_of_shelf (hr : r ∈ n.read a) (hr' : r' ∈ n.read a) (same : r.shelf = r'.shelf) :
    r = r' := by
  have ids : r.shelf.id = r'.shelf.id := by rw [same]
  rw [(isReport_of_mem_read hr).id, (isReport_of_mem_read hr').id] at ids
  exact eq_of_mem_read hr hr' (localKey_injective (Option.some.inj ids))

/-- A disk that a report has with no slot is listed so. -/
lemma exists_of_unmatched {d : Pd} (ha : a ∈ n.attached) (h : n.Unmatched a d) :
    ∃ d' ∈ disks a.pds, d'.slot = 0xff ∧ d'.deviceId = d.deviceId := by
  obtain ⟨x, stays, host, listed⟩ := h
  obtain ⟨hr, -⟩ := mem_read_of_host ha stays host
  obtain ⟨d', on', slot, device⟩ := (isReport_of_mem_read hr).mem_unmatched_iff.mp listed
  exact ⟨d', (mem_disksOn_iff.mp on').1, slot, device⟩

end Node

/-- Every disk has an address. -/
lemma Pd.at_zero (d : Pd) : d.At (0, d.deviceId) := by
  simp [At, Megaraid.deviceId, pdChannels, devicesPerChannel]

section Main

variable {n : Node}

/-- The report of a disk's shelf. -/
lemma exists_report {a : Attached} {d : Pd} (hd : d ∈ disks a.pds) :
    ∃ r ∈ n.read a, r.enclosure = homeOf a.pds d :=
  Controller.exists_mem_read (Or.inr (Or.inl ⟨d, hd, rfl⟩))

/-- With distinct names the report of a disk's shelf is in the table. -/
lemma DistinctNames.stays (h : DistinctNames n) {a : Attached} (ha : a ∈ n.attached) {d : Pd}
    (hd : d ∈ disks a.pds) {r : ShelfReport} (hr : r ∈ n.read a)
    (home : r.enclosure = homeOf a.pds d) : (r.key, r) ∈ n.shelves := by
  refine (Node.mem_shelves_iff h.controllers ha hr).mpr fun r' hr' behind => ?_
  rw [Node.key_of_mem_read hr', Node.key_of_mem_read hr, home]
  rw [home] at behind
  exact h.shelves a ha d hd r'.enclosure (Node.isReport_of_mem_read hr').on behind

/-- With distinct names a disk is on its shelf. -/
lemma DistinctNames.place_eq (h : DistinctNames n) {a : Attached} (ha : a ∈ n.attached) {d : Pd}
    (hd : d ∈ disks a.pds) {addr : ℕ × ℕ} (at_ : d.At addr) {r : ShelfReport} (hr : r ∈ n.read a)
    (home : r.enclosure = homeOf a.pds d) :
    place n.shelves a.host addr = some (r.shelf, d.bay) :=
  Node.place_eq ha (h.devices a ha) hd at_ hr home (h.stays ha hd hr home)

/-- With distinct names every disk has its place. -/
lemma DistinctNames.placed (h : DistinctNames n) : EveryDiskPlaced n where
  found := by
    intro a ha d hd addr at_
    obtain ⟨r, hr, home⟩ := exists_report (n := n) hd
    exact ⟨r, hr, home, h.place_eq ha hd at_ hr home⟩
  apart := by
    intro a ha d hd a' ha' d' hd' other addr addr' at_ at_' shelf shelf' bay here here' same
    obtain ⟨r, hr, home⟩ := exists_report (n := n) hd
    obtain ⟨r', hr', home'⟩ := exists_report (n := n) hd'
    rw [h.place_eq ha hd at_ hr home] at here
    rw [h.place_eq ha' hd' at_' hr' home'] at here'
    obtain ⟨rfl, rfl⟩ := Prod.mk.inj (Option.some.inj here)
    obtain ⟨rfl, bays⟩ := Prod.mk.inj (Option.some.inj here')
    -- one key is one report, and so one controller, one shelf and one slot
    have keys : r.key = r'.key := by
      rw [(Node.isReport_of_mem_read hr).shelfKey, (Node.isReport_of_mem_read hr').shelfKey] at same
      exact Option.some.inj same
    have stays := h.stays ha hd hr home
    have stays' := h.stays ha' hd' hr' home'
    rw [← keys] at stays'
    obtain rfl := Node.eq_of_mem_shelves stays stays'
    have hosts : a.host = a'.host :=
      Option.some.inj ((Node.host_of_mem_read hr).symm.trans (Node.host_of_mem_read hr'))
    obtain rfl := Node.eq_of_host ha ha' hosts
    have slots : d.slot = d'.slot := (Pd.bay_injective bays).symm
    by_cases slot : d.slot = 0xff
    · refine Or.inl ⟨(r.key, r), stays, Node.host_of_mem_read hr, ?_⟩
      exact (Node.isReport_of_mem_read hr).mem_unmatched_iff.mpr
        ⟨d, mem_disksOn_iff.mpr ⟨hd, home.symm⟩, slot, rfl⟩
    · have devices := h.slots a ha d hd d' hd' (home.symm.trans home') slots slot
      exact absurd devices (other.resolve_left (not_not.mpr rfl))
  addressed := by
    intro a ha d hd slot address given
    obtain ⟨r, hr, home⟩ := exists_report (n := n) hd
    refine ⟨r, hr, home, h.stays ha hd hr home, [address], ?_, List.mem_singleton.mpr rfl⟩
    refine (Node.isReport_of_mem_read hr).mem_slots_iff.mpr ⟨slot, ?_⟩
    obtain ⟨last, hlast, same⟩ :=
      Option.bind_eq_some_iff.mp (h.addresses a ha d hd slot address given)
    rw [home, hlast, Option.map_some, same]
    rfl
  kept := Node.kept_iff.mpr h.controllers

/-- Where every disk has its place, the report of its shelf is in the table. -/
lemma EveryDiskPlaced.stays (h : EveryDiskPlaced n) {a : Attached} (ha : a ∈ n.attached) {d : Pd}
    (hd : d ∈ disks a.pds) : ∃ r ∈ n.read a, r.enclosure = homeOf a.pds d ∧
      (r.key, r) ∈ n.shelves ∧ place n.shelves a.host (0, d.deviceId) = some (r.shelf, d.bay) := by
  obtain ⟨r, hr, home, found⟩ := h.found a ha d hd _ d.at_zero
  obtain ⟨r', hr', stays, same⟩ := Node.exists_of_place ha found
  obtain rfl := Node.eq_of_shelf hr hr' same
  exact ⟨r, hr, home, stays, found⟩

/-- Where every disk has its place, two entries of a device are on one shelf and in one slot. -/
lemma EveryDiskPlaced.devices (h : EveryDiskPlaced n) {a : Attached} (ha : a ∈ n.attached)
    {d d' : Pd} (hd : d ∈ disks a.pds) (hd' : d' ∈ disks a.pds)
    (device : d.deviceId = d'.deviceId) :
    homeOf a.pds d = homeOf a.pds d' ∧ d.slot = d'.slot := by
  obtain ⟨r, hr, home, -, found⟩ := h.stays ha hd
  obtain ⟨r', hr', home', -, found'⟩ := h.stays ha hd'
  rw [← device, found] at found'
  obtain ⟨shelf, bay⟩ := Prod.mk.inj (Option.some.inj found')
  obtain rfl := Node.eq_of_shelf hr hr' shelf
  exact ⟨home.symm.trans home', Pd.bay_injective bay⟩

/-- Where every disk has its place, the names are distinct. -/
lemma EveryDiskPlaced.distinct (h : EveryDiskPlaced n) : DistinctNames n where
  controllers := Node.kept_iff.mp h.kept
  shelves := by
    intro a ha d hd e on behind
    obtain ⟨r, hr, home, stays, -⟩ := h.stays ha hd
    obtain ⟨r', hr', rfl⟩ := Controller.exists_mem_read (c := n.controller a) on
    rw [← home] at behind ⊢
    have ne := Node.key_ne_of_mem_shelves hr ha stays hr' behind
    rw [Node.key_of_mem_read hr, Node.key_of_mem_read hr'] at ne
    exact ne
  devices := by
    intro a ha d hd d' hd' device
    exact h.devices ha hd hd' device
  slots := by
    intro a ha d hd d' hd' homes slots slot
    by_contra ne
    obtain ⟨r, hr, home, -, found⟩ := h.stays ha hd
    obtain ⟨r', hr', home', -, found'⟩ := h.stays ha hd'
    obtain rfl := Node.eq_of_mem_read hr hr' (home.trans (homes.trans home'.symm))
    have bays : d'.bay = d.bay := by rw [Pd.bay, Pd.bay, slots]
    rw [bays] at found'
    -- neither is reported to have no slot: the entry would be one more of the device
    have matched : ∀ x ∈ disks a.pds, x.slot = d.slot → ¬ n.Unmatched a x := by
      intro x hx same unmatched
      obtain ⟨y, hy, ff, device⟩ := Node.exists_of_unmatched ha unmatched
      obtain ⟨-, slots'⟩ := h.devices ha hy hx device
      exact slot (same.symm.trans (slots'.symm.trans ff))
    obtain un | un := h.apart a ha d hd a ha d' hd' (Or.inr ne) _ _ d.at_zero d'.at_zero _ _ _
      found found' rfl
    · exact matched d hd rfl un
    · exact matched d' hd' slots.symm un
  addresses := by
    intro a ha d hd slot address given
    obtain ⟨r, hr, home, -, addresses, mem, listed⟩ := h.addressed a ha d hd slot address given
    obtain ⟨-, last⟩ := (Node.isReport_of_mem_read hr).mem_slots_iff.mp mem
    rw [home] at last
    obtain ⟨d', hd', rfl⟩ := Option.map_eq_some_iff.mp last
    rw [hd', Option.bind_some]
    exact Option.mem_toList.mp listed

/-- **When the lists place every disk**: exactly when no two controllers give shelves with one
key, no shelf behind one with disks has its key, every entry for a device is on one shelf and in
one slot, no two devices are in one slot, and the last entry for a slot gives its address.

**Proof sketch.** A report with disks stays in the table (`DistinctNames.stays`), and a search by
device id ends there (`Node.place_eq`). The other way, what is found on a shelf is a report that
stayed (`Node.exists_of_place`), and a shelf's name has its enclosure (`Node.eq_of_shelf`). -/
theorem everyDiskPlaced_iff (n : Node) : EveryDiskPlaced n ↔ DistinctNames n :=
  ⟨EveryDiskPlaced.distinct, DistinctNames.placed⟩

end Main

/-- A controller that lists two disks, 4 and 5, in slot 1 of enclosure 32. -/
def twoInOneSlot : Attached where
  host := "host0"
  pcie := none
  dcmd := fun _ opcode _ =>
    if opcode = dcmdPdList then
      .ok ([56, 0, 0, 0, 2, 0, 0, 0] ++
        [4, 0, 32, 0, 0, 1, 0, 1, 0, 0, 0, 0, 0, 0, 0, 0, 0, 0, 0, 0, 0, 0, 0, 0] ++
        [5, 0, 32, 0, 0, 1, 0, 1, 0, 0, 0, 0, 0, 0, 0, 0, 0, 0, 0, 0, 0, 0, 0, 0])
    else .error "no info"

/-- **Two disks in one slot share a bay**, and neither is reported to have no slot. -/
theorem twoInOneSlot_not_placed : ¬ ∀ n : Node, EveryDiskPlaced n := by
  intro h
  have names := (h ⟨"n", [twoInOneSlot], List.nodup_singleton _⟩).distinct
  have listed : disks twoInOneSlot.pds = [⟨4, 32, 1, 0, none⟩, ⟨5, 32, 1, 0, none⟩] := by
    decide +kernel
  have devices := names.slots twoInOneSlot (List.mem_singleton.mpr rfl) ⟨4, 32, 1, 0, none⟩
    (by simp [listed]) ⟨5, 32, 1, 0, none⟩ (by simp [listed]) rfl rfl (by decide)
  exact absurd devices (by decide)

end Megaraid

end StormDrive
