import StormDrive.Drive

set_option relaxedAutoImplicit false
set_option autoImplicit false

/-!
# A place, and a rescan that reads less of it

Every monitor pass locates a drive again, and what a pass can read varies: an SES page fails, a
shelf gives its serial and not its logical id. `Location.refreshed` keeps what was known where
the rescan says nothing. It recognises the shelf by `Shelf.key`, the first identifying field that
is there, so a pass that reads another first field is taken for one on another shelf.

## Main definitions

* `StormDrive.Location.movedTo`, `StormDrive.Location.bayKey` — did the drive move, and which bay
  is it in.
* `StormDrive.Location.filled` — what refreshing is for: the rescan, with every gap of it filled
  from what was known.
* `StormDrive.OneShelf` — two locations on one shelf, as its identifying fields tell.
* `StormDrive.LosesNothing` — a rescan that loses detail is not a move.

## Main results

* `StormDrive.Location.refreshed_refreshed` — the same rescan twice is the rescan once.
* `StormDrive.losesNothing_iff` — losing detail is not moving exactly when the first identifying
  field of the shelf has the same value both times, and the rescan gives every detail known of
  the HBA.
* `StormDrive.shelf_label_of_passes` — over any number of such passes the shelf label stays.

## Implementation notes

`filled` is stated with `Option.merge` on the two records inside a location, so a detail of the
HBA counts as a field like any other. The code fills a shelf's record but takes an HBA's whole.
-/

namespace StormDrive

/-! ## Moving, and the bay -/

/-- Did the drive physically move, or get placed for the first time? The failure-domain labels
are what counts. -/
def Location.movedTo (l now : Location) : Bool :=
  decide (l.labels ≠ now.labels)

/-- The bay as a key: shelf and bay, or the PCIe slot. -/
def Location.bayKey (l : Location) : Option String :=
  match l.bay, l.pcieSlot with
  | some b, _ => some ((l.shelf.bind Shelf.key).getD "" ++ "/bay/" ++ toString b)
  | none, some s => some ("slot/" ++ s)
  | none, none => none

/-! ## What refreshing is for -/

/-- The HBA of a rescan, its gaps filled from what was known. -/
def Controller.filled (o n : Controller) : Controller where
  scsiHost := n.scsiHost <|> o.scsiHost
  pcieAddr := n.pcieAddr <|> o.pcieAddr
  driver := n.driver <|> o.driver

/-- The shelf of a rescan, its gaps filled from what was known. -/
def Shelf.filled (o n : Shelf) : Shelf where
  id := n.id <|> o.id
  vendor := n.vendor <|> o.vendor
  model := n.model <|> o.model
  serial := n.serial <|> o.serial
  sasAddress := n.sasAddress <|> o.sasAddress
  logicalId := n.logicalId <|> o.logicalId
  position := n.position <|> o.position

/-- The location of a rescan, its gaps filled from what was known. -/
def Location.filled (old fresh : Location) : Location where
  controller := Option.merge Controller.filled old.controller fresh.controller
  shelf := Option.merge Shelf.filled old.shelf fresh.shelf
  bay := fresh.bay <|> old.bay
  sasAddress := fresh.sasAddress <|> old.sasAddress
  sasPhy := fresh.sasPhy <|> old.sasPhy
  expander := fresh.expander <|> old.expander
  pcieAddr := fresh.pcieAddr <|> old.pcieAddr
  pcieSlot := fresh.pcieSlot <|> old.pcieSlot
  position := fresh.position <|> old.position

@[simp] lemma Location.filled_bay (old fresh : Location) :
    (old.filled fresh).bay = fresh.bay.or old.bay := by
  simp [Location.filled]

@[simp] lemma Location.filled_pcieSlot (old fresh : Location) :
    (old.filled fresh).pcieSlot = fresh.pcieSlot.or old.pcieSlot := by
  simp [Location.filled]

/-- Two readings of a field agree when both are there only if they are the same. -/
def Agree {α : Type} (a b : Option α) : Prop :=
  ∀ x ∈ a, ∀ y ∈ b, x = y

/-- Two locations are on one shelf: its records agree on every identifying field that both give,
and both give one of them. -/
def OneShelf (old fresh : Location) : Prop :=
  ∃ o n, old.shelf = some o ∧ fresh.shelf = some n ∧
    Agree o.logicalId n.logicalId ∧ Agree o.serial n.serial ∧ Agree o.id n.id ∧
    ((o.logicalId.isSome ∧ n.logicalId.isSome) ∨ (o.serial.isSome ∧ n.serial.isSome) ∨
      (o.id.isSome ∧ n.id.isSome))

/-- The rescan gives the field a value that is not the known one. -/
def Differs {α : Type} (known given : Option α) : Prop :=
  ∃ v, given = some v ∧ known ≠ some v

/-- **Losing detail is not moving.** -/
structure LosesNothing (old fresh : Location) : Prop where
  /-- Every known field that the rescan does not give is kept, every field it gives is taken. -/
  filled : old.refreshed fresh = old.filled fresh
  /-- The drive moved only if the rescan gave another bay, HBA or PCIe slot. -/
  moved : old.movedTo (old.refreshed fresh) = true →
    Differs old.bay fresh.bay ∨
      Differs (old.controller.bind Controller.scsiHost)
        (fresh.controller.bind Controller.scsiHost) ∨
      Differs old.pcieSlot fresh.pcieSlot
  /-- The same rescan again changes nothing. -/
  again : (old.refreshed fresh).refreshed fresh = old.refreshed fresh
  /-- The shelf label stays. -/
  shelf : (old.refreshed fresh).shelf.bind Shelf.key = old.shelf.bind Shelf.key
  /-- The bay's key is that of the known shelf. -/
  bay : (old.refreshed fresh).bayKey =
    { old with bay := fresh.bay <|> old.bay, pcieSlot := fresh.pcieSlot <|> old.pcieSlot }.bayKey

/-- The rescan gives every detail that is known of the HBA. -/
def Controller.GivenBy (c d : Controller) : Prop :=
  (c.scsiHost.isSome → d.scsiHost.isSome) ∧ (c.pcieAddr.isSome → d.pcieAddr.isSome) ∧
    (c.driver.isSome → d.driver.isSome)

/-- The first identifying field of the shelf has the same value both times, and an HBA that the
rescan gives comes with every known detail. -/
def FullerRescan (old fresh : Location) : Prop :=
  old.shelf.bind Shelf.key = fresh.shelf.bind Shelf.key ∧
    ∀ c ∈ old.controller, ∀ d ∈ fresh.controller, c.GivenBy d

/-! ## Readings -/

section Readings

variable {α : Type}

/-- A gap is not filled from a field that is there, which is when the value is kept. -/
lemma or_eq_left_iff {a b : Option α} : a.or b = a ↔ (b.isSome → a.isSome) := by
  cases a with
  | some x => simp
  | none => cases b <;> simp

/-- Filling a gap twice from the same readings is filling it once. -/
@[simp] lemma or_or_self (a b : Option α) : a.or (a.or b) = a.or b := by
  rw [← Option.or_assoc, Option.or_self]

/-- A rescan that gives nothing different leaves the known value. -/
lemma or_eq_right_of_not_differs {known given : Option α} (h : ¬ Differs known given) :
    given.or known = known := by
  cases given with
  | none => rfl
  | some v =>
    have hv : known = some v := by
      by_contra hne
      exact h ⟨v, rfl, hne⟩
    rw [hv]
    rfl

end Readings

/-! ## Keys -/

/-- Two records with one key have that key when one fills the other: the first identifying field
of the filled record is the first of one of them. -/
lemma Shelf.key_filled {o n : Shelf} (h : o.key = n.key) : (o.filled n).key = o.key := by
  obtain ⟨oi, ov, om, os, oa, ol, op⟩ := o
  obtain ⟨ni, nv, nm, ns, na, nl, np⟩ := n
  simp only [Shelf.key, Shelf.filled] at h ⊢
  cases nl with
  | some l => simpa using h.symm
  | none =>
    cases ol with
    | some l => rfl
    | none =>
      cases ns with
      | some s => exact h.symm
      | none =>
        cases os with
        | some s => rfl
        | none =>
          cases ni with
          | some i => exact h.symm
          | none => rfl

/-- Filled from itself, a record stays. -/
@[simp] lemma Shelf.filled_self (n : Shelf) : n.filled n = n := by
  simp [Shelf.filled]

/-- Filling a record twice from the same rescan is filling it once. -/
@[simp] lemma Shelf.filled_filled (o n : Shelf) : (o.filled n).filled n = o.filled n := by
  simp [Shelf.filled]

/-- An HBA's record is filled to the rescan's own exactly when the rescan gives every detail. -/
lemma Controller.filled_eq_iff (c d : Controller) : c.filled d = d ↔ c.GivenBy d := by
  obtain ⟨ch, cp, cd⟩ := c
  obtain ⟨dh, dp, dd⟩ := d
  simp [Controller.filled, Controller.GivenBy, or_eq_left_iff]

/-! ## Refreshing -/

namespace Location

variable {old fresh : Location}

/-- On another shelf the rescan is taken whole. -/
lemma refreshed_of_ne (h : old.shelf.bind Shelf.key ≠ fresh.shelf.bind Shelf.key) :
    old.refreshed fresh = fresh :=
  if_pos h

/-- With one key, an HBA is taken from the rescan if it gives one, a shelf is filled, and so is
every other field. -/
lemma refreshed_of_eq (h : old.shelf.bind Shelf.key = fresh.shelf.bind Shelf.key) :
    old.refreshed fresh =
      { old.filled fresh with
        controller := fresh.controller <|> old.controller
        shelf := match old.shelf, fresh.shelf with
          | some o, some n => some (o.filled n)
          | _, n => n } :=
  if_neg (not_not.mpr h)

/-- With one key, refreshing does not change it. -/
lemma shelf_key_refreshed (h : old.shelf.bind Shelf.key = fresh.shelf.bind Shelf.key) :
    (old.refreshed fresh).shelf.bind Shelf.key = old.shelf.bind Shelf.key := by
  rw [refreshed_of_eq h]
  cases ho : old.shelf with
  | none => simpa [ho] using h.symm
  | some o =>
    cases hn : fresh.shelf with
    | none => simpa [ho, hn] using h.symm
    | some n =>
      have hkey : o.key = n.key := by simpa [ho, hn] using h
      exact Shelf.key_filled hkey

/-- **The same rescan twice is the rescan once.** -/
theorem refreshed_refreshed (old fresh : Location) :
    (old.refreshed fresh).refreshed fresh = old.refreshed fresh := by
  by_cases h : old.shelf.bind Shelf.key = fresh.shelf.bind Shelf.key
  · have hr := (shelf_key_refreshed h).trans h
    rw [refreshed_of_eq hr, refreshed_of_eq h]
    cases old.shelf <;> cases fresh.shelf <;> simp [filled]
  · rw [refreshed_of_ne h, refreshed_of_eq rfl]
    obtain ⟨-, shelf, -, -, -, -, -, -, -⟩ := fresh
    cases shelf <;> simp [filled]

end Location

/-! ## Losing detail -/

/-- A rescan of the same shelf that gives the same first field comes out as the filled location
but for the HBA, which it gives whole. -/
lemma refreshed_eq_filled_iff {old fresh : Location} (hs : OneShelf old fresh)
    (h : old.shelf.bind Shelf.key = fresh.shelf.bind Shelf.key) :
    old.refreshed fresh = old.filled fresh ↔
      ∀ c ∈ old.controller, ∀ d ∈ fresh.controller, c.GivenBy d := by
  obtain ⟨o, n, ho, hn, -⟩ := hs
  rw [Location.refreshed_of_eq h]
  cases hc : old.controller with
  | none => cases hd : fresh.controller <;> simp [Location.filled, ho, hn, hc, hd]
  | some c =>
    cases hd : fresh.controller with
    | none => simp [Location.filled, ho, hn, hc, hd]
    | some d =>
      simp [Location.filled, ho, hn, hc, hd, ← Controller.filled_eq_iff, eq_comm]

/-- An HBA's host after refreshing is the rescan's, else the known one, when the rescan gives
every known detail. -/
lemma scsiHost_filled (old fresh : Location) :
    (old.filled fresh).controller.bind Controller.scsiHost =
      (fresh.controller.bind Controller.scsiHost).or
        (old.controller.bind Controller.scsiHost) := by
  cases hc : old.controller <;> cases hd : fresh.controller <;>
    simp [Location.filled, Controller.filled, hc, hd]

/-- The labels come from the shelf's key, the bay, the HBA and the PCIe slot. -/
lemma labels_congr {l m : Location} (hs : l.shelf.bind Shelf.key = m.shelf.bind Shelf.key)
    (hb : l.bay = m.bay)
    (hc : l.controller.bind Controller.scsiHost = m.controller.bind Controller.scsiHost)
    (hp : l.pcieSlot = m.pcieSlot) : l.labels = m.labels := by
  simp only [Location.labels, hs, hb, hc, hp]

/-- The filled location on the known shelf has moved only by what the rescan gives. -/
lemma differs_of_movedTo_filled {old fresh : Location}
    (hs : (old.filled fresh).shelf.bind Shelf.key = old.shelf.bind Shelf.key)
    (h : old.movedTo (old.filled fresh) = true) :
    Differs old.bay fresh.bay ∨
      Differs (old.controller.bind Controller.scsiHost)
        (fresh.controller.bind Controller.scsiHost) ∨
      Differs old.pcieSlot fresh.pcieSlot := by
  by_contra hnone
  push Not at hnone
  obtain ⟨hb, hc, hp⟩ := hnone
  have hlabels : old.labels = (old.filled fresh).labels := by
    refine labels_congr hs.symm ?_ ?_ ?_
    · rw [Location.filled_bay, or_eq_right_of_not_differs hb]
    · rw [scsiHost_filled, or_eq_right_of_not_differs hc]
    · rw [Location.filled_pcieSlot, or_eq_right_of_not_differs hp]
  exact of_decide_eq_true h hlabels

/-- The bay's key comes from the shelf's key, the bay and the PCIe slot. -/
lemma bayKey_congr {l m : Location} (hs : l.shelf.bind Shelf.key = m.shelf.bind Shelf.key)
    (hb : l.bay = m.bay) (hp : l.pcieSlot = m.pcieSlot) : l.bayKey = m.bayKey := by
  simp only [Location.bayKey, hs, hb, hp]

/-- **When losing detail is not moving.** For two locations on one shelf it holds exactly when
the shelf's first identifying field has the same value both times and an HBA that the rescan
gives comes with every detail known of it.

**Proof sketch.** With one key the shelf is filled and keeps it (`Location.shelf_key_refreshed`),
and the rest is `refreshed_eq_filled_iff`; labels and bay key are read off the filled location.
With two keys the rescan is taken whole, and the shelf label is the rescan's, another one. -/
theorem losesNothing_iff (old fresh : Location) (hs : OneShelf old fresh) :
    LosesNothing old fresh ↔ FullerRescan old fresh := by
  constructor
  · intro h
    have hkey : old.shelf.bind Shelf.key = fresh.shelf.bind Shelf.key := by
      by_contra hne
      have hshelf := h.shelf
      rw [Location.refreshed_of_ne hne] at hshelf
      exact hne hshelf.symm
    exact ⟨hkey, (refreshed_eq_filled_iff hs hkey).mp h.filled⟩
  · rintro ⟨hkey, hgiven⟩
    have hfilled := (refreshed_eq_filled_iff hs hkey).mpr hgiven
    have hshelf := Location.shelf_key_refreshed hkey
    refine ⟨hfilled, ?_, Location.refreshed_refreshed old fresh, hshelf, ?_⟩
    · intro hmoved
      rw [hfilled] at hshelf hmoved
      exact differs_of_movedTo_filled hshelf hmoved
    · rw [hfilled] at hshelf ⊢
      exact bayKey_congr hshelf rfl rfl

/-- A drive's place: bay 4 of a shelf that is known by its logical id and its serial. -/
def knownPlace : Location where
  shelf := some { logicalId := some "500a0980", serial := some "SHF1" }
  bay := some 4

/-- **A lost logical id is a move.** A pass reads the serial of the shelf alone: the drive has
moved, to a shelf with another label. -/
theorem lost_logicalId_moves :
    ¬ ∀ old fresh, OneShelf old fresh → LosesNothing old fresh := by
  intro h
  have hs : OneShelf knownPlace { shelf := some { serial := some "SHF1" } } :=
    ⟨_, _, rfl, rfl, by simp [Agree], by simp [Agree], by simp [Agree], by simp⟩
  exact absurd (h knownPlace _ hs).shelf (by decide)

/-- Where the logical id is read again, the bay and the serial may be lost. -/
theorem knownPlace_losesNothing :
    OneShelf knownPlace { shelf := some { logicalId := some "500a0980" } } ∧
      LosesNothing knownPlace { shelf := some { logicalId := some "500a0980" } } := by
  have hs : OneShelf knownPlace { shelf := some { logicalId := some "500a0980" } } :=
    ⟨_, _, rfl, rfl, by simp [Agree], by simp [Agree], by simp [Agree], by simp⟩
  have hc : FullerRescan knownPlace { shelf := some { logicalId := some "500a0980" } } :=
    ⟨rfl, by simp [knownPlace]⟩
  exact ⟨hs, (losesNothing_iff _ _ hs).mpr hc⟩

/-! ## Many passes -/

/-- **The shelf label over many passes.** As long as every pass reads the same first identifying
field, the label stays that of the first.

**Proof sketch.** By induction on the passes: each keeps the key by
`Location.shelf_key_refreshed`. -/
theorem shelf_label_of_passes (old : Location) (passes : List Location)
    (h : ∀ fresh ∈ passes, fresh.shelf.bind Shelf.key = old.shelf.bind Shelf.key) :
    (passes.foldl Location.refreshed old).shelf.bind Shelf.key =
      old.shelf.bind Shelf.key := by
  induction passes generalizing old with
  | nil => rfl
  | cons fresh rest ih =>
    have hfirst := Location.shelf_key_refreshed (h fresh (List.mem_cons_self ..)).symm
    have hrest : ∀ p ∈ rest,
        p.shelf.bind Shelf.key = (old.refreshed fresh).shelf.bind Shelf.key := by
      intro p hp
      rw [hfirst]
      exact h p (List.mem_cons_of_mem fresh hp)
    rw [List.foldl_cons, ih _ hrest, hfirst]

end StormDrive
