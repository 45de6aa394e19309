import Mathlib.Data.List.Dedup
import Mathlib.Data.List.Sort
import Mathlib.Data.String.Basic
import StormDrive.JobRequest
import StormDrive.Places
import StormDrive.Smbios

set_option relaxedAutoImplicit false
set_option autoImplicit false

/-!
# The items of the hardware record

What a node is made of is recorded as items under stable keys, so that two boots compare item by
item (`assets.rs`).

## Main definitions

* `Items`, `Change`, `diff` — the items of a record, and how they differ from those of another.
* `scannedItems` — the items that the scans of the daemon know: HBAs, shelves and drives.
* `Turns` — what a list of changes has to say: it names each item that differs, and how.
* `OwnItems`, `Apart` — each drive has an item for itself, and no two drives share a bay or, out of
  the bays, an identifier.

## Main results

* `diff_turns` — **the differences of two records are the items that differ**, each named once.
* `Turns.applied_eq` — so that applied to the one record they give the other.
* `ownItems_iff` — **each drive that is present has its own item exactly when no two share a bay or
  an identifier**.

## Implementation notes

A value is a `Json`, an object the list of its members in the order of their names. The types here
have the fields that become items.
-/

namespace StormDrive

/-! ## Values -/

namespace Json

mutual

/-- Two documents are compared. -/
def decEq : (v w : Json) → Decidable (v = w)
  | null, null => .isTrue rfl
  | bool a, bool b => decidable_of_iff (a = b) (bool.injEq a b).symm.to_iff
  | num a, num b => decidable_of_iff (a = b) (num.injEq a b).symm.to_iff
  | str a, str b => decidable_of_iff (a = b) (str.injEq a b).symm.to_iff
  | arr a, arr b =>
    have := decEqValues a b
    decidable_of_iff (a = b) (arr.injEq a b).symm.to_iff
  | obj a, obj b =>
    have := decEqMembers a b
    decidable_of_iff (a = b) (obj.injEq a b).symm.to_iff
  | null, bool _ | null, num _ | null, str _ | null, arr _ | null, obj _ => .isFalse nofun
  | bool _, null | bool _, num _ | bool _, str _ | bool _, arr _ | bool _, obj _ => .isFalse nofun
  | num _, null | num _, bool _ | num _, str _ | num _, arr _ | num _, obj _ => .isFalse nofun
  | str _, null | str _, bool _ | str _, num _ | str _, arr _ | str _, obj _ => .isFalse nofun
  | arr _, null | arr _, bool _ | arr _, num _ | arr _, str _ | arr _, obj _ => .isFalse nofun
  | obj _, null | obj _, bool _ | obj _, num _ | obj _, str _ | obj _, arr _ => .isFalse nofun

def decEqValues : (v w : List Json) → Decidable (v = w)
  | [], [] => .isTrue rfl
  | [], _ :: _ => .isFalse nofun
  | _ :: _, [] => .isFalse nofun
  | a :: v, b :: w =>
    have := decEq a b
    have := decEqValues v w
    decidable_of_iff (a = b ∧ v = w) (List.cons.injEq a v b w).symm.to_iff

def decEqMembers : (v w : List (String × Json)) → Decidable (v = w)
  | [], [] => .isTrue rfl
  | [], _ :: _ => .isFalse nofun
  | _ :: _, [] => .isFalse nofun
  | (k, a) :: v, (l, b) :: w =>
    have := decEq a b
    have := decEqMembers v w
    decidable_of_iff (k = l ∧ a = b ∧ v = w) (by simp [and_assoc])

end

instance : DecidableEq Json := decEq

/-- A character of a string, as a document writes it. -/
def escaped (c : Char) : String :=
  match c.toNat with
  | 8 => "\\b"
  | 9 => "\\t"
  | 10 => "\\n"
  | 12 => "\\f"
  | 13 => "\\r"
  | 34 => "\\\""
  | 92 => "\\\\"
  | n => if n < 32 then "\\u00" ++ Ses.hexText [UInt8.ofNat n] else String.singleton c

def quoted (s : String) : String := "\"" ++ String.join (s.toList.map escaped) ++ "\""

mutual

/-- The document as text, on one line. -/
def text : Json → String
  | null => "null"
  | bool b => toString b
  | num t => t
  | str s => quoted s
  | arr values => "[" ++ ",".intercalate (textOfValues values) ++ "]"
  | obj members => "\x7b" ++ ",".intercalate (textOfMembers members) ++ "\x7d"

def textOfValues : List Json → List String
  | [] => []
  | v :: values => text v :: textOfValues values

def textOfMembers : List (String × Json) → List String
  | [] => []
  | (name, v) :: members => (quoted name ++ ":" ++ text v) :: textOfMembers members

end

/-- An object with the members given (`json!`). -/
def object (members : List (String × Json)) : Json := obj (OrderedMap.ofList members)

/-- A text, or null. -/
def ofText : Option String → Json
  | some s => str s
  | none => null

def ofNat (n : ℕ) : Json := num (toString n)

end Json

namespace Assets

/-! ## Items and their differences -/

/-- The items of a record, in the order of their keys. -/
structure Items where
  entries : List (String × Json)
  increasing : OrderedMap.Increasing entries
  deriving DecidableEq

namespace Items

def empty : Items := ⟨[], List.Pairwise.nil⟩

def get (m : Items) (k : String) : Option Json := OrderedMap.get m.entries k

def insert (m : Items) (k : String) (v : Json) : Items :=
  ⟨OrderedMap.insert k v m.entries, OrderedMap.increasing_insert m.increasing k v⟩

/-- An item under a key that has none yet. -/
def orInsert (m : Items) (k : String) (v : Json) : Items :=
  ⟨OrderedMap.insertNew k v m.entries, OrderedMap.increasing_insertNew m.increasing k v⟩

lemma get_eq_some_iff {m : Items} {k : String} {v : Json} :
    m.get k = some v ↔ (k, v) ∈ m.entries :=
  m.increasing.get_eq_some_iff

end Items

/-- What is different about an item. -/
inductive ChangeKind
  | added | removed | changed
  deriving DecidableEq

def ChangeKind.word : ChangeKind → String
  | added => "added"
  | removed => "removed"
  | changed => "changed"

/-- One difference; `fields` says for a changed item what each field was and is. -/
structure Change where
  item : String
  change : ChangeKind
  fields : List String
  deriving DecidableEq

def Change.describe (c : Change) : String :=
  match c.change with
  | .changed => c.item ++ " " ++ ", ".intercalate c.fields
  | kind => c.item ++ " " ++ kind.word

/-- A value in a difference. -/
def shown : Option Json → String
  | none | some .null => "—"
  | some (.str s) => s
  | some v => v.text

/-- What each field of a changed item was and is. -/
def changedFields (o v : Json) : List String :=
  match o, v with
  | .obj a, .obj b =>
    let names := ((a.map Prod.fst ++ b.map Prod.fst).insertionSort (· ≤ ·)).dedup
    (names.filter fun f => OrderedMap.get a f ≠ OrderedMap.get b f).map fun f =>
      f ++ ": " ++ shown (OrderedMap.get a f) ++ " → " ++ shown (OrderedMap.get b f)
  | _, _ => [shown (some o) ++ " → " ++ shown (some v)]

/-- The difference that an item of the new record makes to the old one. -/
def changeOf (old : Items) (x : String × Json) : Option Change :=
  match old.get x.1 with
  | none => some ⟨x.1, .added, []⟩
  | some o => if o ≠ x.2 then some ⟨x.1, .changed, changedFields o x.2⟩ else none

/-- Item-by-item difference from `old` to `new`. -/
def diff (old new : Items) : List Change :=
  new.entries.filterMap (changeOf old) ++
    (old.entries.filter fun x => (new.get x.1).isNone).map fun x => ⟨x.1, .removed, []⟩

/-- What each kind of difference is, between the values of an item in two records. -/
def ChangeKind.Between (o v : Option Json) : ChangeKind → Prop
  | added => o = none ∧ v ≠ none
  | removed => o ≠ none ∧ v = none
  | changed => o ≠ none ∧ v ≠ none ∧ o ≠ v

/-- **The changes turn the one record into the other**: they name the items that differ and how, and
each of them once. -/
structure Turns (old : Items) (cs : List Change) (new : Items) : Prop where
  named : ∀ k kind, (∃ c ∈ cs, c.item = k ∧ c.change = kind) ↔
    kind.Between (old.get k) (new.get k)
  once : (cs.map Change.item).Nodup

/-- What an item is after the changes: it is gone, or as in the new record, when they name it. -/
def applied (cs : List Change) (old new : Items) (k : String) : Option Json :=
  match cs.find? fun c => c.item = k with
  | none => old.get k
  | some c => if c.change = .removed then none else new.get k

/-- The changes applied to the old record give the new one. -/
theorem Turns.applied_eq {old new : Items} {cs : List Change} (h : Turns old cs new) (k : String) :
    applied cs old new k = new.get k := by
  rw [applied]
  split
  · next unnamed =>
    have no : ∀ kind : ChangeKind, ¬ kind.Between (old.get k) (new.get k) := by
      intro kind differs
      obtain ⟨c, mem, item, -⟩ := (h.named k kind).mpr differs
      exact List.find?_eq_none.mp unnamed c mem (decide_eq_true item)
    cases was : old.get k with
    | none =>
      by_contra ne
      exact no .added ⟨was, Ne.symm ne⟩
    | some o =>
      cases is : new.get k with
      | none => exact absurd ⟨by rw [was]; exact nofun, is⟩ (no .removed)
      | some v =>
        by_contra ne
        refine no .changed ⟨?_, ?_, ?_⟩
        · rw [was]
          exact nofun
        · rw [is]
          exact nofun
        · rw [was, is]
          exact ne
  · next c found =>
    split_ifs with removed
    · have item : c.item = k := by simpa using List.find?_some found
      have mem := List.mem_of_find?_eq_some found
      exact ((h.named k .removed).mp ⟨c, mem, item, removed⟩).2.symm
    · rfl

/-- A difference that an item of the new record makes is about this item, and says how it
differs. -/
lemma between_of_changeOf {old : Items} {x : String × Json} {c : Change}
    (h : changeOf old x = some c) :
    c.item = x.1 ∧ c.change.Between (old.get x.1) (some x.2) := by
  rw [changeOf] at h
  split at h
  · next was =>
    obtain rfl := Option.some.inj h
    exact ⟨rfl, was, nofun⟩
  · next o was =>
    split_ifs at h with ne
    obtain rfl := Option.some.inj h
    refine ⟨rfl, ?_, nofun, ?_⟩
    · rw [was]
      exact nofun
    · rw [was]
      exact fun same => ne (Option.some.inj same)

/-- **The differences of two records are the items that differ**, each named once.

**Proof sketch.** An item of the new record makes the difference that it is not in the old one, or
has another value there; the items of the old record that the new one does not have come behind.
The keys of a record increase, so neither part names an item twice, and no item is in both. -/
theorem diff_turns (old new : Items) : Turns old (diff old new) new where
  named k kind := by
    constructor
    · rintro ⟨c, mem, rfl, rfl⟩
      obtain mem | mem := List.mem_append.mp mem
      · obtain ⟨x, mem, makes⟩ := List.mem_filterMap.mp mem
        obtain ⟨item, differs⟩ := between_of_changeOf makes
        rw [item, Items.get_eq_some_iff.mpr mem]
        exact differs
      · obtain ⟨x, left, rfl⟩ := List.mem_map.mp mem
        obtain ⟨there, gone⟩ := List.mem_filter.mp left
        refine ⟨?_, Option.isNone_iff_eq_none.mp gone⟩
        rw [Items.get_eq_some_iff.mpr there]
        exact nofun
    · cases kind with
      | added =>
        rintro ⟨was, there⟩
        obtain ⟨v, is⟩ := Option.ne_none_iff_exists'.mp there
        refine ⟨⟨k, .added, []⟩, List.mem_append_left _ (List.mem_filterMap.mpr ?_), rfl, rfl⟩
        refine ⟨(k, v), Items.get_eq_some_iff.mp is, ?_⟩
        rw [changeOf, was]
      | removed =>
        rintro ⟨there, is⟩
        obtain ⟨o, was⟩ := Option.ne_none_iff_exists'.mp there
        refine ⟨⟨k, .removed, []⟩, List.mem_append_right _ (List.mem_map.mpr ?_), rfl, rfl⟩
        refine ⟨(k, o), List.mem_filter.mpr ⟨Items.get_eq_some_iff.mp was, ?_⟩, rfl⟩
        exact Option.isNone_iff_eq_none.mpr is
      | changed =>
        rintro ⟨there, here, ne⟩
        obtain ⟨o, was⟩ := Option.ne_none_iff_exists'.mp there
        obtain ⟨v, is⟩ := Option.ne_none_iff_exists'.mp here
        refine ⟨⟨k, .changed, changedFields o v⟩,
          List.mem_append_left _ (List.mem_filterMap.mpr ?_), rfl, rfl⟩
        refine ⟨(k, v), Items.get_eq_some_iff.mp is, ?_⟩
        simp only [changeOf, was]
        refine if_pos fun same => ne ?_
        rw [was, is, same]
  once := by
    rw [diff, List.map_append, List.nodup_append]
    refine ⟨?_, ?_, ?_⟩
    · rw [List.Nodup, List.pairwise_map, List.pairwise_filterMap]
      refine new.increasing.imp ?_
      intro x y lt c makes c' makes'
      rw [(between_of_changeOf makes).1, (between_of_changeOf makes').1]
      exact lt.ne
    · rw [List.map_map, List.Nodup, List.pairwise_map]
      exact (old.increasing.filter _).imp fun lt => lt.ne
    · rintro k made k' left rfl
      obtain ⟨c, made, item⟩ := List.mem_map.mp made
      obtain ⟨x, there, makes⟩ := List.mem_filterMap.mp made
      obtain ⟨c', left, item'⟩ := List.mem_map.mp left
      obtain ⟨y, old', rfl⟩ := List.mem_map.mp left
      have gone := Option.isNone_iff_eq_none.mp (List.mem_filter.mp old').2
      have same : y.1 = x.1 := item'.trans (item.symm.trans (between_of_changeOf makes).1)
      rw [same, Items.get_eq_some_iff.mpr there] at gone
      cases gone

/-- No changes turn a record into itself. -/
lemma turns_refl (m : Items) : Turns m [] m where
  named k kind := by
    constructor
    · rintro ⟨c, mem, -⟩
      exact absurd mem List.not_mem_nil
    · cases kind with
      | added => exact fun differs => absurd differs.1 differs.2
      | removed => exact fun differs => absurd differs.2 differs.1
      | changed => exact fun differs => absurd rfl differs.2.2
  once := List.nodup_nil

/-! ## What the scans know -/

/-- Where a shelf is, in one word. -/
def positionWord : Position → String
  | .internal => "internal"
  | .front => "front"
  | .rear => "rear"
  | .external => "external"

/-- What a scan knows of an HBA. -/
structure Hba where
  driver : Option String
  pciId : Option String
  boardName : Option String
  boardAssembly : Option String
  boardTracer : Option String
  firmware : Option String
  bios : Option String
  nvdata : Option String
  sasAddress : Option String

/-- One SES processor of a shelf. -/
structure EspPath where
  serial : Option String
  sasAddress : Option String
  revision : Option String

/-- The report of a shelf. -/
structure ShelfReport where
  shelf : Shelf
  esps : List EspPath
  slots : List (ℕ × List String)

/-- A drive, with the version of its firmware. -/
structure Drive extends StormDrive.Drive where
  firmware : String

open Json (ofText ofNat)

def Hba.item (h : Hba) : Json :=
  .object [("driver", ofText h.driver), ("pci_id", ofText h.pciId), ("board", ofText h.boardName),
    ("assembly", ofText h.boardAssembly), ("tracer", ofText h.boardTracer),
    ("firmware", ofText h.firmware), ("bios", ofText h.bios), ("nvdata", ofText h.nvdata),
    ("sas_address", ofText h.sasAddress)]

/-- What is on record of any shelf. -/
def shelfMembers (s : Shelf) : List (String × Json) :=
  [("vendor", ofText s.vendor), ("model", ofText s.model), ("serial", ofText s.serial),
    ("logical_id", ofText s.logicalId), ("position", ofText (s.position.map positionWord))]

def EspPath.item (e : EspPath) : Json :=
  .object [("serial", ofText e.serial), ("sas_address", ofText e.sasAddress),
    ("revision", ofText e.revision)]

def ShelfReport.item (s : ShelfReport) : Json :=
  .object (shelfMembers s.shelf ++
    [("ioms", .arr (s.esps.map EspPath.item)), ("bays", ofNat s.slots.length)])

namespace Drive

/-- What a drive outside the bays goes by. -/
def identifier (d : Drive) : String :=
  (d.wwid.filter fun w => Text.trim w ≠ "").getD (d.model ++ "_" ++ d.serial)

def itemName (d : Drive) : String :=
  match d.location.bayKey with
  | some b => "bay/" ++ b
  | none => "drive/" ++ d.identifier

def item (d : Drive) : Json :=
  .object [("wwn", ofText d.wwid), ("serial", .str d.serial), ("model", .str d.model),
    ("firmware", .str d.firmware), ("capacity_bytes", ofNat d.capacityBytes),
    ("block_size", ofNat d.blockSize)]

/-- The shelf of a drive, when no SES device answers for it. -/
def silentShelf (shelves : List (String × ShelfReport)) (d : Drive) : Option (String × Shelf) := do
  let sh ← d.location.shelf
  let key ← sh.key
  if (OrderedMap.get shelves key).isSome then none else some (key, sh)

/-- Two drives share a bay, or are outside the bays and go by one identifier. -/
def Shares (d e : Drive) : Prop :=
  d.location.bayKey = e.location.bayKey ∧ (d.location.bayKey = none → d.identifier = e.identifier)

end Drive

/-- The drives that are there. -/
def present (drives : List Drive) : List Drive := drives.filter fun d => d.activity ≠ .missing

/-- An item for each HBA and each shelf that answers. -/
def scannedParts (hbas : List (String × Hba)) (shelves : List (String × ShelfReport))
    (items : Items) : Items :=
  let items := hbas.foldl (fun m x => m.insert ("hba/" ++ x.1) x.2.item) items
  shelves.foldl (fun m x => m.insert ("shelf/" ++ x.1) x.2.item) items

/-- An item for each shelf that only its drives name. -/
def silentShelves (drives : List Drive) (shelves : List (String × ShelfReport)) (items : Items) :
    Items :=
  (present drives).foldl (fun m d =>
    match d.silentShelf shelves with
    | some (key, sh) => m.orInsert ("shelf/" ++ key) (.object (shelfMembers sh))
    | none => m) items

/-- What the scans of the daemon know. -/
def scannedItems (drives : List Drive) (hbas : List (String × Hba))
    (shelves : List (String × ShelfReport)) (items : Items) : Items :=
  let items := silentShelves drives shelves (scannedParts hbas shelves items)
  (present drives).foldl (fun m d => m.insert d.itemName d.item) items

/-- An item under this key is one of a drive. -/
def ofDrive (k : String) : Bool :=
  "bay/".toList.isPrefixOf k.toList || "drive/".toList.isPrefixOf k.toList

/-- **Each drive that is present has its own item**: it is there as the drive is, and there are as
many items of drives as there are drives. -/
structure OwnItems (drives : List Drive) (m : Items) : Prop where
  own : ∀ d ∈ present drives, m.get d.itemName = some d.item
  one : (m.entries.filter fun x => ofDrive x.1).length = (present drives).length

/-- No two drives that are present share a bay or, outside the bays, an identifier. -/
def Apart (drives : List Drive) : Prop := (present drives).Pairwise fun d e => ¬ d.Shares e

namespace Drive

variable {d e : Drive}

lemma ofDrive_itemName (d : Drive) : ofDrive d.itemName = true := by
  rw [itemName]
  split
  · simp [ofDrive, String.toList_append]
  · simp [ofDrive, String.toList_append]

/-- Two drives share an item exactly when they share a bay, or an identifier. -/
lemma itemName_eq_iff : d.itemName = e.itemName ↔ d.Shares e := by
  rw [itemName, itemName, Shares]
  cases bay : d.location.bayKey with
  | none =>
    cases bay' : e.location.bayKey with
    | none => simp
    | some b' =>
      refine ⟨fun same => absurd (congrArg String.toList same) ?_, fun same => nomatch same.1⟩
      simp [String.toList_append]
  | some b =>
    cases bay' : e.location.bayKey with
    | none =>
      refine ⟨fun same => absurd (congrArg String.toList same) ?_, fun same => nomatch same.1⟩
      simp [String.toList_append]
    | some b' => simp

end Drive

lemma apart_iff (drives : List Drive) :
    Apart drives ↔ ((present drives).map Drive.itemName).Nodup := by
  rw [Apart, List.Nodup, List.pairwise_map]
  exact List.Pairwise.iff fun d e => not_congr Drive.itemName_eq_iff.symm

/-- No item is one of a drive. -/
def NoDrives (m : Items) : Prop := ∀ x ∈ m.entries, ofDrive x.1 = false

lemma NoDrives.insert {m : Items} (h : NoDrives m) {k : String} (other : ofDrive k = false)
    (v : Json) : NoDrives (m.insert k v) := by
  intro x mem
  obtain rfl | old := OrderedMap.mem_of_mem_insert mem
  · exact other
  · exact h x old

lemma NoDrives.orInsert {m : Items} (h : NoDrives m) {k : String} (other : ofDrive k = false)
    (v : Json) : NoDrives (m.orInsert k v) := by
  intro x mem
  obtain old | ⟨rfl, -⟩ := OrderedMap.mem_insertNew_iff.mp mem
  · exact h x old
  · exact other

lemma ofDrive_shelf (key : String) : ofDrive ("shelf/" ++ key) = false := by
  rw [ofDrive, String.toList_append]
  rfl

lemma ofDrive_hba (addr : String) : ofDrive ("hba/" ++ addr) = false := by
  rw [ofDrive, String.toList_append]
  rfl

/-- The items of HBAs and shelves are none of drives. -/
lemma noDrives_silentShelves (drives : List Drive) (hbas : List (String × Hba))
    (shelves : List (String × ShelfReport)) :
    NoDrives (silentShelves drives shelves (scannedParts hbas shelves .empty)) := by
  have nothing : NoDrives .empty := fun x mem => absurd mem List.not_mem_nil
  have hbaItems := List.foldlRecOn hbas (fun m x => m.insert ("hba/" ++ x.1) x.2.item) nothing
    fun m h x _ => h.insert (ofDrive_hba x.1) x.2.item
  have parts := List.foldlRecOn shelves (fun m x => m.insert ("shelf/" ++ x.1) x.2.item) hbaItems
    fun m h x _ => h.insert (ofDrive_shelf x.1) x.2.item
  refine List.foldlRecOn (present drives) _ parts fun m h d _ => ?_
  split
  · exact h.orInsert (ofDrive_shelf _) _
  · exact h

section Placed

variable {ds : List Drive} {m : Items}

/-- The keys after the drives are placed. -/
lemma mem_keys_placed {k : String} :
    k ∈ (ds.foldl (fun m d => m.insert d.itemName d.item) m).entries.map Prod.fst ↔
      k ∈ m.entries.map Prod.fst ∨ k ∈ ds.map Drive.itemName := by
  induction ds generalizing m with
  | nil => simp
  | cons d ds ih =>
    rw [List.foldl_cons, ih, Items.insert, OrderedMap.mem_keys_insert_iff, List.map_cons,
      List.mem_cons]
    tauto

/-- An item that no drive takes stays. -/
lemma get_placed_of_notMem {k : String} (free : k ∉ ds.map Drive.itemName) :
    (ds.foldl (fun m d => m.insert d.itemName d.item) m).get k = m.get k := by
  induction ds generalizing m with
  | nil => rfl
  | cons d ds ih =>
    rw [List.map_cons, List.mem_cons, not_or] at free
    rw [List.foldl_cons, ih free.2]
    exact OrderedMap.get_insert_of_ne free.1 d.item m.entries

/-- Where no two drives share an item, each has its own. -/
lemma get_placed (apart : (ds.map Drive.itemName).Nodup) {d : Drive} (mem : d ∈ ds) :
    (ds.foldl (fun m d => m.insert d.itemName d.item) m).get d.itemName = some d.item := by
  induction ds generalizing m with
  | nil => exact absurd mem List.not_mem_nil
  | cons e ds ih =>
    rw [List.map_cons, List.nodup_cons] at apart
    rw [List.foldl_cons]
    obtain rfl | mem := List.mem_cons.mp mem
    · rw [get_placed_of_notMem apart.1]
      exact OrderedMap.get_insert_self d.itemName d.item m.entries
    · exact ih apart.2 mem

end Placed

/-- A list has as many elements as one without repetition that has the same elements exactly when
it has no repetition either. -/
lemma length_eq_iff_nodup {κ : Type} [DecidableEq κ] {l l' : List κ} (once : l.Nodup)
    (same : ∀ k, k ∈ l ↔ k ∈ l') : l.length = l'.length ↔ l'.Nodup := by
  constructor
  · intro length
    have perm : l.Perm l'.dedup := (List.perm_ext_iff_of_nodup once l'.nodup_dedup).mpr fun k => by
      rw [same, List.mem_dedup]
    have whole : l'.dedup = l' :=
      (List.dedup_sublist l').eq_of_length (perm.length_eq.symm.trans length)
    rw [← whole]
    exact l'.nodup_dedup
  · intro once'
    exact ((List.perm_ext_iff_of_nodup once once').mpr same).length_eq

/-- **Each drive that is present has its own item exactly when no two share a bay or, outside the
bays, an identifier.**

**Proof sketch.** The items of drives are those under the names that the drives take, and a key has
one item. So there are as many as there are drives exactly when no two take the same name. -/
theorem ownItems_iff (drives : List Drive) (hbas : List (String × Hba))
    (shelves : List (String × ShelfReport)) :
    OwnItems drives (scannedItems drives hbas shelves .empty) ↔ Apart drives := by
  set m := scannedItems drives hbas shelves .empty with placed
  have once : ((m.entries.filter fun x => ofDrive x.1).map Prod.fst).Nodup := by
    rw [List.Nodup, List.pairwise_map]
    exact (m.increasing.filter _).imp fun lt => lt.ne
  have names : ∀ k, k ∈ (m.entries.filter fun x => ofDrive x.1).map Prod.fst ↔
      k ∈ (present drives).map Drive.itemName := by
    intro k
    constructor
    · intro listed
      obtain ⟨x, mem, rfl⟩ := List.mem_map.mp listed
      obtain ⟨there, drive⟩ := List.mem_filter.mp mem
      obtain before | taken := mem_keys_placed.mp (List.mem_map_of_mem there)
      · obtain ⟨y, before, key⟩ := List.mem_map.mp before
        have other := noDrives_silentShelves drives hbas shelves y before
        rw [key, drive] at other
        cases other
      · exact taken
    · intro taken
      obtain ⟨x, there, rfl⟩ := List.mem_map.mp (mem_keys_placed.mpr (Or.inr taken))
      obtain ⟨d, -, name⟩ := List.mem_map.mp taken
      refine List.mem_map_of_mem (List.mem_filter.mpr ⟨there, ?_⟩)
      rw [← name]
      exact d.ofDrive_itemName
  have count := length_eq_iff_nodup once names
  rw [List.length_map, List.length_map, ← apart_iff] at count
  constructor
  · intro h
    exact count.mp h.one
  · intro apart
    exact ⟨fun d mem => get_placed ((apart_iff drives).mp apart) mem, count.mpr apart⟩

end Assets

end StormDrive
