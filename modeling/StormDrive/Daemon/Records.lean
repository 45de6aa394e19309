import StormDrive.Daemon.Changes
import StormDrive.Entries

set_option relaxedAutoImplicit false
set_option autoImplicit false

/-!
# The inventory of the daemon

The records in memory and in inventory.json, with the changes that a section under the lock of the
inventory makes to them.

## Main definitions

* `Records` — the records; every drive is kept under its own identity.
* `Records.update`, `Records.updateAll`, `Records.erase`, `Records.merged` — changes of records.
* `Records.listed` — the drives that a pass over the inventory takes.

## Main results

* `Records.mem_listed` — a pass takes every drive that satisfies its condition, in any order.
-/

namespace StormDrive

/-- The inventory keeps every drive under its own identity, and the list has all of them. -/
def Sound (ids : List DriveId) (inv : Inventory) : Prop :=
  ∀ id d, inv id = some d → id ∈ ids ∧ d.id = id

/-- The inventory in memory and in inventory.json. -/
structure Records where
  inv : Inventory
  saved : Inventory
  writing : Option Inventory := none
  seen : String → Option DriveId
  /-- Every drive of the three, at least. -/
  ids : List DriveId
  sound : Sound ids inv
  soundSaved : Sound ids saved
  soundWriting : ∀ snap, writing = some snap → Sound ids snap

namespace Records

variable (s : Records)

/-- Every drive is changed. -/
def updateAll (f : Drive → Drive) (hf : ∀ d, (f d).id = d.id) : Records :=
  { s with
    inv := fun id => (s.inv id).map f
    sound := by
      intro id d hd
      obtain ⟨d', hd', rfl⟩ := Option.map_eq_some_iff.mp hd
      rw [hf]
      exact s.sound id d' hd' }

/-- One drive is changed. -/
def update (id : DriveId) (f : Drive → Drive) (hf : ∀ d, (f d).id = d.id) : Records :=
  s.updateAll (fun d => if d.id = id then f d else d) fun d => by
    split
    · exact hf d
    · rfl

/-- One drive is removed. -/
def erase (id : DriveId) : Records :=
  { s with
    inv := fun id' => if id' = id then none else s.inv id'
    sound := by
      intro id' d hd
      dsimp only at hd
      split at hd
      · cases hd
      · exact s.sound id' d hd }

/-- The inventory is copied. -/
def copied : Records :=
  { s with
    writing := some s.inv
    soundWriting := by
      intro snap hsnap
      cases hsnap
      exact s.sound }

/-- The copy is written, or the write fails. -/
def written (ok : Bool) : Records :=
  { s with
    saved := match s.writing with
      | some snap => if ok then snap else s.saved
      | none => s.saved
    writing := none
    soundSaved := by
      split
      · next snap hsnap =>
        split
        · exact s.soundWriting snap hsnap
        · exact s.soundSaved
      · exact s.soundSaved
    soundWriting := by simp }

/-- The inventory is read back from the file. -/
def loaded : Records where
  inv id := (s.saved id).map Drive.reloaded
  saved := s.saved
  seen := s.seen
  ids := s.ids
  sound := by
    intro id d hd
    obtain ⟨d', hd', rfl⟩ := Option.map_eq_some_iff.mp hd
    exact s.soundSaved id d' hd'
  soundSaved := s.soundSaved
  soundWriting := by simp

/-! ## A discovery pass -/

/-- The drive that a pass puts behind a node. -/
def seenAfter (newV5 : String → Uuid) (observed : List Observed) (node : String) :
    Option DriveId :=
  (observed.find? fun o => o.path = node).map (Observed.id newV5)

/-- A pass leaves a record under its identity. -/
lemma id_refreshed (d : Drive) (primary : Observed) (paths : List String) :
    (d.refreshed primary paths).id = d.id := by
  simp only [Drive.refreshed, Drive.withReadings, apply_ite Drive.id, ite_self]

/-- A pass keeps the inventory sound, with the drives that it saw. -/
lemma sound_mergeObserved (newV5 : String → Uuid) (observed : List Observed) :
    Sound (observed.map (Observed.id newV5) ++ s.ids) (mergeObserved newV5 s.inv observed) := by
  intro id d hd
  rw [mergeObserved_apply] at hd
  have hold : ∀ d', s.inv id = some d' →
      id ∈ observed.map (Observed.id newV5) ++ s.ids ∧ d'.id = id := fun d' hd' =>
    ⟨List.mem_append_right _ (s.sound id d' hd').1, (s.sound id d' hd').2⟩
  split at hd
  · obtain ⟨d', hd', rfl⟩ := Option.map_eq_some_iff.mp hd
    have hid : d'.unseen.id = d'.id := by
      unfold Drive.unseen
      split <;> rfl
    rw [hid]
    exact hold d' hd'
  · next primary rest hgroup =>
    have hseen : id ∈ observed.map (Observed.id newV5) := by
      have hmem : primary ∈ groupOf newV5 observed id := by simp [hgroup]
      simp only [groupOf, List.mem_insertionSort, List.mem_filter, decide_eq_true_eq] at hmem
      exact List.mem_map.mpr ⟨primary, hmem⟩
    refine ⟨List.mem_append_left _ hseen, ?_⟩
    cases hinv : s.inv id with
    | none =>
      rw [hinv] at hd
      cases hd
      rfl
    | some d' =>
      rw [hinv] at hd
      cases hd
      rw [id_refreshed]
      exact (hold d' hinv).2

/-- A pass merges what it saw. -/
def merged (newV5 : String → Uuid) (observed : List Observed) : Records :=
  { s with
    inv := mergeObserved newV5 s.inv observed
    seen := seenAfter newV5 observed
    ids := observed.map (Observed.id newV5) ++ s.ids
    sound := s.sound_mergeObserved newV5 observed
    soundSaved := fun id d hd =>
      ⟨List.mem_append_right _ (s.soundSaved id d hd).1, (s.soundSaved id d hd).2⟩
    soundWriting := fun snap hsnap id d hd =>
      ⟨List.mem_append_right _ (s.soundWriting snap hsnap id d hd).1,
        (s.soundWriting snap hsnap id d hd).2⟩ }

/-! ## A pass over the inventory -/

/-- The drives that satisfy a condition. Those of `order` come first: the order of a hash map is
any. -/
def listed (order : List DriveId) (p : Drive → Bool) : List Drive :=
  ((order ++ s.ids).dedup.filterMap s.inv).filter p

variable {s}

/-- **A pass over the inventory** takes the drives that satisfy its condition, all of them. -/
theorem mem_listed {order : List DriveId} {p : Drive → Bool} {d : Drive} :
    d ∈ s.listed order p ↔ s.inv d.id = some d ∧ p d = true := by
  simp only [listed, List.mem_filter, List.mem_filterMap, List.mem_dedup, List.mem_append]
  constructor
  · rintro ⟨⟨id, -, hd⟩, hp⟩
    obtain ⟨-, rfl⟩ := s.sound id d hd
    exact ⟨hd, hp⟩
  · rintro ⟨hd, hp⟩
    exact ⟨⟨d.id, .inr (s.sound d.id d hd).1, hd⟩, hp⟩

/-- A record is its own drive's. -/
lemma id_of_inv {id : DriveId} {d : Drive} (h : s.inv id = some d) : d.id = id :=
  (s.sound id d h).2

@[simp] lemma updateAll_inv (f : Drive → Drive) (hf : ∀ d, (f d).id = d.id) (id : DriveId) :
    (s.updateAll f hf).inv id = (s.inv id).map f := rfl

/-- The inventory after one drive is changed. -/
@[simp] lemma update_inv (id : DriveId) (f : Drive → Drive) (hf : ∀ d, (f d).id = d.id)
    (id' : DriveId) :
    (s.update id f hf).inv id' = if id' = id then (s.inv id').map f else s.inv id' := by
  rw [update, updateAll_inv]
  cases hd : s.inv id' with
  | none => simp
  | some d =>
    have hid : d.id = id' := id_of_inv hd
    rw [Option.map_some, hid]
    by_cases h : id' = id
    · rw [if_pos h, if_pos h]
      rfl
    · rw [if_neg h, if_neg h]

@[simp] lemma erase_inv (id id' : DriveId) :
    (s.erase id).inv id' = if id' = id then none else s.inv id' := rfl

@[simp] lemma merged_inv (newV5 : String → Uuid) (observed : List Observed) :
    (s.merged newV5 observed).inv = mergeObserved newV5 s.inv observed := rfl

end Records

end StormDrive
