import Mathlib.Data.List.ReduceOption
import StormDrive.DriveUsage

set_option relaxedAutoImplicit false
set_option autoImplicit false

/-!
# Whose the slabs are

Every slab of the engine is on one drive, and a drive's volumes are those with a leg on one of its
slabs (`usage.rs`). A slab is matched by WWN, else by serial, else by path; a volume by the drives of
its placement.

## Main definitions

* `DriveUsage.Attributed` — every slab counts once, and what is counted adds up.
* `DriveUsage.Names` — a name, of a WWN, a serial and a path, is that of a drive.
* `DriveUsage.Plain` — no two drives have the name of a slab, no drive that of a slab of another
  node, the placements of the volumes agree with the slabs, and the sums are in range.

## Main results

* `DriveUsage.attributed_iff` — **slabs and volumes are attributed exactly where the listings are
  plain**.
* `DriveUsage.hasLeg_iff_of_coherent` — a placement that tells the same of drives and slabs as the
  list of slabs agrees with it, up to the slabs of another node.
* `DriveUsage.fabric_slab_counted` — another node's slab counts on a drive with its serial.
-/

namespace StormDrive

namespace DriveUsage

open DriveFirmware (Ref)

/-! ## One after the other -/

section Each

variable {α β : Type} {f : α → Checked Empty β}

/-- All succeed when each does. -/
lemma each_eq {g : α → β} {l : List α} (h : ∀ a ∈ l, f a = .ok (g a)) :
    each f l = .ok (l.map g) := by
  induction l with
  | nil => rfl
  | cons a l ih =>
    rw [each, h a (List.mem_cons_self ..), Checked.ok_bind,
      ih fun b hb => h b (List.mem_cons_of_mem _ hb)]
    rfl

/-- **All succeed exactly when each does**, with the values of each. -/
lemma each_eq_ok_iff {l : List α} {bs : List β} :
    each f l = .ok bs ↔ List.Forall₂ (fun a b => f a = .ok b) l bs := by
  induction l generalizing bs with
  | nil =>
    rw [each, List.forall₂_nil_left_iff]
    exact ⟨fun h => (Except.ok.inj h).symm, fun h => h ▸ rfl⟩
  | cons a l ih =>
    rw [each, List.forall₂_cons_left_iff]
    cases hf : f a with
    | error e => exact iff_of_false (by rintro ⟨⟩) (by rintro ⟨b, _, hb, -⟩; cases hb)
    | ok b =>
      rw [Checked.ok_bind]
      cases hl : each f l with
      | error e =>
        refine iff_of_false (by rintro ⟨⟩) ?_
        rintro ⟨_, bs', -, hrest, -⟩
        rw [ih.mpr hrest] at hl
        cases hl
      | ok bs' =>
        rw [Checked.ok_bind]
        constructor
        · intro h
          exact ⟨b, bs', rfl, ih.mp hl, (Except.ok.inj h).symm⟩
        · rintro ⟨b', bs'', hb', hrest, rfl⟩
          cases hb'
          rw [ih.mpr hrest] at hl
          cases hl
          rfl

/-- Each succeeds when all do. -/
lemma of_each {l : List α} {bs : List β} (h : each f l = .ok bs) {a : α} (ha : a ∈ l) :
    ∃ b, b ∈ bs ∧ f a = .ok b := by
  obtain ⟨i, hi, rfl⟩ := List.mem_iff_getElem.mp ha
  obtain ⟨hlen, hget⟩ := List.forall₂_iff_get.mp (each_eq_ok_iff.mp h)
  exact ⟨_, List.get_mem bs ⟨i, hlen ▸ hi⟩, hget i hi (hlen ▸ hi)⟩

/-- Every value is that of one. -/
lemma mem_of_each {l : List α} {bs : List β} (h : each f l = .ok bs) {b : β} (hb : b ∈ bs) :
    ∃ a, a ∈ l ∧ f a = .ok b := by
  obtain ⟨i, hi, rfl⟩ := List.mem_iff_getElem.mp hb
  obtain ⟨hlen, hget⟩ := List.forall₂_iff_get.mp (each_eq_ok_iff.mp h)
  exact ⟨_, List.get_mem l ⟨i, hlen ▸ hi⟩, hget i (hlen ▸ hi) hi⟩

/-- All succeed when each has a value. -/
lemma exists_each {l : List α} (h : ∀ a ∈ l, ∃ b, f a = .ok b) : ∃ bs, each f l = .ok bs := by
  induction l with
  | nil => exact ⟨[], rfl⟩
  | cons a l ih =>
    obtain ⟨b, hb⟩ := h a (List.mem_cons_self ..)
    obtain ⟨bs, hbs⟩ := ih fun a' ha' => h a' (List.mem_cons_of_mem _ ha')
    exact ⟨b :: bs, each_eq_ok_iff.mpr (.cons hb (each_eq_ok_iff.mp hbs))⟩

end Each

/-! ## The sums of the slabs -/

/-- The slots of a slab are in range as bytes. -/
def Slab.SlotsFit (s : Slab) : Prop :=
  ∀ n, s.allocatedSlots = some n → n * s.slotSize < 2 ^ 64

/-- The bytes that are allocated in a slab. -/
def Slab.allocatedBytes (s : Slab) : ℕ :=
  match s.allocatedSlots with
  | some n => if 0 < s.slotSize then n * s.slotSize else s.totalBytes - s.freeBytes
  | none => s.totalBytes - s.freeBytes

/-- A slab on a drive. -/
def Slab.usage (s : Slab) : SlabUsage where
  id := s.id
  role := s.role
  tier := s.tier
  slotSize := s.slotSize
  totalBytes := s.totalBytes
  allocatedBytes := s.allocatedBytes
  freeBytes := s.freeBytes
  committedBytes := s.committedBytes

lemma allocated_eq {s : Slab} (h : s.SlotsFit) : allocated s = .ok s.allocatedBytes := by
  unfold allocated Slab.allocatedBytes
  cases hslots : s.allocatedSlots with
  | none => rfl
  | some n =>
    dsimp only
    split
    · exact Checked.mul_eq (h n hslots)
    · rfl

lemma slotsFit_of_allocated {s : Slab} {n : ℕ} (h : allocated s = .ok n) : s.SlotsFit := by
  intro k hk
  rw [allocated, hk] at h
  dsimp only at h
  split at h
  · by_contra hbig
    rw [Checked.mul, if_neg hbig] at h
    cases h
  · next hzero =>
    rw [Nat.eq_zero_of_not_pos hzero, Nat.mul_zero]
    decide

lemma slabUsage_eq {s : Slab} (h : s.SlotsFit) : slabUsage s = .ok s.usage := by
  rw [slabUsage, allocated_eq h]
  rfl

lemma slotsFit_of_slabUsage {s : Slab} {u : SlabUsage} (h : slabUsage s = .ok u) : s.SlotsFit := by
  rw [slabUsage] at h
  cases ha : allocated s with
  | error e =>
    rw [ha] at h
    cases h
  | ok n => exact slotsFit_of_allocated ha

/-- The slabs of a drive, in the order in which they are summed up. -/
def inOrder (d : Drive) (slabs : List Slab) : List Slab :=
  StableSort.byKey (fun s => byRole s.usage) (mine d slabs)

/-- **The sums of a drive's slabs are in range**, those of the committed bytes up to the first slab
that does not report it. -/
structure SlabsFit (d : Drive) (slabs : List Slab) : Prop where
  slots : ∀ s ∈ mine d slabs, s.SlotsFit
  total : ((mine d slabs).map Slab.totalBytes).sum < 2 ^ 64
  allocated : ((mine d slabs).map Slab.allocatedBytes).sum < 2 ^ 64
  free : ((mine d slabs).map Slab.freeBytes).sum < 2 ^ 64
  committed : (Checked.present ((inOrder d slabs).map Slab.committedBytes)).sum < 2 ^ 64

/-- The slabs of a drive are put in order whether they are sorted before or after. -/
lemma byRole_map (d : Drive) (slabs : List Slab) :
    StableSort.byKey byRole ((mine d slabs).map Slab.usage) = (inOrder d slabs).map Slab.usage :=
  (StableSort.map_byKey Slab.usage _).symm

/-- The order does not matter for a sum. -/
lemma sum_inOrder (d : Drive) (slabs : List Slab) (f : Slab → ℕ) :
    ((inOrder d slabs).map f).sum = ((mine d slabs).map f).sum :=
  ((StableSort.perm_byKey _).map f).sum_eq

section Compute

variable {promise : Overcommit → ℕ → ℕ} {d : Drive} {slabs : List Slab} {now : ℕ}

/-- The usage of a drive whose sums are in range. -/
def usageOf (promise : Overcommit → ℕ → ℕ) (d : Drive) (slabs : List Slab) (now : ℕ) : Usage :=
  Usage.priced promise
    { capacityBytes := d.capacityBytes
      slabs := (inOrder d slabs).map Slab.usage
      inSlabsBytes := ((mine d slabs).map Slab.totalBytes).sum
      usedBytes := ((mine d slabs).map Slab.allocatedBytes).sum
      freeInSlabsBytes := ((mine d slabs).map Slab.freeBytes).sum
      outsideSlabsBytes := d.capacityBytes - ((mine d slabs).map Slab.totalBytes).sum
      freeBytes := d.capacityBytes - ((mine d slabs).map Slab.allocatedBytes).sum
      promisableBytes := 0
      committedBytes :=
        if ((inOrder d slabs).map Slab.committedBytes).all Option.isSome then
          some (Checked.present ((inOrder d slabs).map Slab.committedBytes)).sum
        else none
      headroomBytes := none
      collectedAt := now } d.overcommit

/-- What remains to be summed up when every slab is in range. -/
lemma compute_eq (h : ∀ s ∈ mine d slabs, s.SlotsFit) : compute promise d slabs now = (do
    let inSlabs ← Checked.sum ((inOrder d slabs).map Slab.totalBytes)
    let used ← Checked.sum ((inOrder d slabs).map Slab.allocatedBytes)
    let freeInSlabs ← Checked.sum ((inOrder d slabs).map Slab.freeBytes)
    let committed ← Checked.sumSome ((inOrder d slabs).map Slab.committedBytes)
    .ok (Usage.priced promise
      { capacityBytes := d.capacityBytes, slabs := (inOrder d slabs).map Slab.usage
        inSlabsBytes := inSlabs, usedBytes := used, freeInSlabsBytes := freeInSlabs
        outsideSlabsBytes := d.capacityBytes - inSlabs, freeBytes := d.capacityBytes - used
        promisableBytes := 0, committedBytes := committed, headroomBytes := none
        collectedAt := now } d.overcommit)) := by
  rw [compute, each_eq fun s hs => slabUsage_eq (h s hs), Checked.ok_bind, byRole_map]
  simp only [List.map_map]
  rfl

/-- **The usage of a drive is computed exactly when its sums are in range.** -/
theorem compute_eq_ok_iff {u : Usage} : compute promise d slabs now = .ok u ↔
    SlabsFit d slabs ∧ u = usageOf promise d slabs now := by
  by_cases hslots : ∀ s ∈ mine d slabs, s.SlotsFit
  · rw [compute_eq hslots, Checked.sum_eq, Checked.ite_bind_eq_ok_iff, Checked.sum_eq,
      Checked.ite_bind_eq_ok_iff, Checked.sum_eq, Checked.ite_bind_eq_ok_iff, Checked.sumSome_eq,
      Checked.ite_bind_eq_ok_iff]
    simp only [sum_inOrder]
    constructor
    · rintro ⟨htotal, hallocated, hfree, hcommitted, hu⟩
      exact ⟨⟨hslots, htotal, hallocated, hfree, hcommitted⟩, (Except.ok.inj hu).symm⟩
    · rintro ⟨⟨-, htotal, hallocated, hfree, hcommitted⟩, rfl⟩
      exact ⟨htotal, hallocated, hfree, hcommitted, rfl⟩
  · refine iff_of_false (fun h => hslots fun s hs => ?_) fun h => hslots h.1.slots
    cases heach : each slabUsage (mine d slabs) with
    | error e =>
      rw [compute, heach] at h
      cases h
    | ok us =>
      obtain ⟨u', -, hu'⟩ := of_each heach hs
      exact slotsFit_of_slabUsage hu'

end Compute

/-! ## The volumes of a drive -/

/-- A drive of the placement is this one. -/
def Listed (d : Drive) (p : Placement) : Prop :=
  ∃ e ∈ p.drives, placedOn e.drive d = true

/-- A leg is on a slab that counts on the drive. -/
def HasLeg (d : Drive) (slabs : List Slab) (p : Placement) : Prop :=
  ∃ leg ∈ p.slabs, ∃ s ∈ mine d slabs, s.id = leg.id

/-- **The sums of a volume's entries on a drive are in range.** -/
structure VolumeFits (d : Drive) (p : Placement) : Prop where
  bytes : (((p.drives.filter fun e => placedOn e.drive d)).map Entry.bytes).sum < 2 ^ 64
  legs : (((p.drives.filter fun e => placedOn e.drive d)).map Entry.legs).sum < 2 ^ 64
  sharedLegs : (((p.slabs.filter fun e => placedOn e.drive d)).map Entry.sharedLegs).sum < 2 ^ 64

section Volumes

variable {d : Drive} {v : Volume} {p : Placement} {volumes : List Volume}

lemma listed_iff : Listed d p ↔ p.drives.filter (fun e => placedOn e.drive d) ≠ [] := by
  simp [Listed, List.filter_eq_nil_iff]

/-- A volume that is on the drive is found when its sums are in range. -/
lemma volumeOn_of_listed (h : Listed d p) {x : Option DriveVolume} :
    volumeOn d v p = .ok x → VolumeFits d p ∧ ∃ dv, x = some dv ∧ dv.id = v.id := by
  intro hx
  rw [volumeOn] at hx
  rw [if_neg (listed_iff.mp h), Checked.sum_eq, Checked.ite_bind_eq_ok_iff, Checked.sum_eq,
    Checked.ite_bind_eq_ok_iff, Checked.sum_eq, Checked.ite_bind_eq_ok_iff] at hx
  obtain ⟨hbytes, hlegs, hshared, hx⟩ := hx
  exact ⟨⟨hbytes, hlegs, hshared⟩, _, (Except.ok.inj hx).symm, rfl⟩

lemma volumeOn_of_fits (h : Listed d p) (hfits : VolumeFits d p) :
    ∃ dv, volumeOn d v p = .ok (some dv) := by
  rw [volumeOn]
  rw [if_neg (listed_iff.mp h), Checked.sum_eq, if_pos hfits.bytes, Checked.ok_bind,
    Checked.sum_eq, if_pos hfits.legs, Checked.ok_bind, Checked.sum_eq, if_pos hfits.sharedLegs,
    Checked.ok_bind]
  exact ⟨_, rfl⟩

lemma volumeOn_of_not_listed (h : ¬ Listed d p) : volumeOn d v p = .ok none := by
  rw [volumeOn]
  rw [if_pos (not_not.mp fun hne => h (listed_iff.mpr hne))]

lemma mem_placed : (v, p) ∈ placed volumes ↔ v ∈ volumes ∧ v.placement = some p := by
  simp only [placed, List.mem_filterMap, Option.map_eq_some_iff, Prod.mk.injEq]
  constructor
  · rintro ⟨v', hv', p', hp', rfl, rfl⟩
    exact ⟨hv', hp'⟩
  · rintro ⟨hv, hp⟩
    exact ⟨v, hv, p, hp, rfl, rfl⟩

/-- The volumes of the drive whose identifiers are listed. -/
lemma volumesOn_spec {found : Option (List DriveVolume)} (h : volumesOn d volumes = .ok found) :
    (∀ v ∈ volumes, ∀ p, v.placement = some p → Listed d p → VolumeFits d p) ∧
      ∀ vs, found = some vs → ∀ id, id ∈ vs.map DriveVolume.id ↔
        ∃ v ∈ volumes, ∃ p, v.placement = some p ∧ v.id = id ∧ Listed d p := by
  rw [volumesOn] at h
  split at h
  · next hnone =>
    obtain rfl := (Except.ok.inj h).symm
    refine ⟨fun v hv p hp => ?_, fun vs hvs => absurd hvs (by rintro ⟨⟩)⟩
    exact absurd (mem_placed.mpr ⟨hv, hp⟩) (hnone.1 ▸ List.not_mem_nil)
  · cases heach : each (fun x => volumeOn d x.1 x.2) (placed volumes) with
    | error e =>
      rw [heach] at h
      cases h
    | ok out =>
      rw [heach, Checked.ok_bind] at h
      obtain rfl := (Except.ok.inj h).symm
      constructor
      · intro v hv p hp hlisted
        obtain ⟨x, -, hx⟩ := of_each heach (mem_placed.mpr ⟨hv, hp⟩)
        exact (volumeOn_of_listed hlisted hx).1
      · rintro vs hvs id
        obtain rfl := (Option.some.inj hvs).symm
        simp only [List.mem_map, (StableSort.perm_byKey _).mem_iff, List.reduceOption_mem_iff]
        constructor
        · rintro ⟨dv, hdv, rfl⟩
          obtain ⟨⟨v, p⟩, hvp, hx⟩ := mem_of_each heach hdv
          obtain ⟨hv, hp⟩ := mem_placed.mp hvp
          have hlisted : Listed d p := by
            by_contra hno
            rw [volumeOn_of_not_listed hno] at hx
            cases hx
          obtain ⟨-, dv', hdv', hid⟩ := volumeOn_of_listed hlisted hx
          cases hdv'
          exact ⟨v, hv, p, hp, hid.symm, hlisted⟩
        · rintro ⟨v, hv, p, hp, rfl, hlisted⟩
          obtain ⟨x, hmem, hx⟩ := of_each heach (mem_placed.mpr ⟨hv, hp⟩)
          obtain ⟨-, dv, rfl, hid⟩ := volumeOn_of_listed hlisted hx
          exact ⟨dv, hmem, hid⟩

/-- The volumes of a drive are found when their sums are in range. -/
lemma exists_volumesOn
    (h : ∀ v ∈ volumes, ∀ p, v.placement = some p → Listed d p → VolumeFits d p) :
    ∃ found, volumesOn d volumes = .ok found := by
  rw [volumesOn]
  split
  · exact ⟨none, rfl⟩
  · obtain ⟨out, hout⟩ : ∃ out, each (fun x => volumeOn d x.1 x.2) (placed volumes) = .ok out := by
      refine exists_each ?_
      rintro ⟨v, p⟩ hvp
      obtain ⟨hv, hp⟩ := mem_placed.mp hvp
      by_cases hlisted : Listed d p
      · obtain ⟨dv, hdv⟩ := volumeOn_of_fits (v := v) hlisted (h v hv p hp hlisted)
        exact ⟨some dv, hdv⟩
      · exact ⟨none, volumeOn_of_not_listed hlisted⟩
    rw [hout, Checked.ok_bind]
    exact ⟨_, rfl⟩

/-- Nothing is found only where no volume says where it is. -/
lemma placed_of_not_reported (h : volumesOn d volumes = .ok none) : placed volumes = [] := by
  rw [volumesOn] at h
  split at h
  · next hnone => exact hnone.1
  · cases heach : each (fun x => volumeOn d x.1 x.2) (placed volumes) with
    | error e =>
      rw [heach] at h
      cases h
    | ok out =>
      rw [heach] at h
      cases h

end Volumes

/-! ## Attribution -/

/-- A drive answers to the WWN. -/
def HasWwn (d : Drive) (wwn : String) : Prop :=
  ∃ w, d.wwid = some w ∧ Text.eqIgnoreAsciiCase w wwn = true

/-- A drive answers to the path. -/
def HasPath (d : Drive) (path : String) : Prop :=
  path = d.path ∨ path ∈ d.paths

/-- **A name is a drive's**: the drive has the WWN that the name gives; if it gives none, the
serial; if it gives neither, the path. -/
def Names (r : Ref) (d : Drive) : Prop :=
  if r.wwn ≠ "" then HasWwn d r.wwn
  else if r.serial ≠ "" then r.serial = d.serial
  else r.path ≠ "" ∧ HasPath d r.path

/-- An entry is on the drives whose name it gives. -/
lemma slabOn_iff_names {r : Ref} {d : Drive} : slabOn (some r) d = true ↔ Names r d := by
  rw [slabOn, Names]
  by_cases hwwn : r.wwn ≠ ""
  · simp [hwwn, HasWwn, Option.any_eq_true]
  by_cases hserial : r.serial ≠ ""
  · simp [hwwn, hserial]
  · simp [hwwn, hserial, HasPath]

/-- **Every slab counts once, and what is counted adds up.** -/
structure Attributed (promise : Overcommit → ℕ → ℕ) (now : ℕ) (drives : List Drive)
    (slabs : List Slab) (volumes : List Volume) : Prop where
  /-- A slab counts on at most one drive. -/
  once : ∀ s ∈ slabs, ∀ d ∈ drives, ∀ d' ∈ drives, s ∈ mine d slabs → s ∈ mine d' slabs →
    d.id = d'.id
  /-- A slab of another node counts on none. -/
  atHome : ∀ s ∈ slabs, onFabric s.drive = true → ∀ d ∈ drives, s ∉ mine d slabs
  /-- The usage of a drive is computed without an overflow, and adds up. -/
  adds : ∀ d ∈ drives, ∃ u, compute promise d slabs now = .ok u ∧
    ((u.slabs.map SlabUsage.allocatedBytes).sum ≤ u.capacityBytes →
      u.usedBytes + u.freeBytes = u.capacityBytes)
  /-- So are its volumes, which are those with a leg on a slab that counts there. -/
  volumes : ∀ d ∈ drives, ∃ found, volumesOn d volumes = .ok found ∧
    ∀ vs, found = some vs → ∀ id, id ∈ vs.map DriveVolume.id ↔
      ∃ v ∈ volumes, ∃ p, v.placement = some p ∧ v.id = id ∧ HasLeg d slabs p

/-- **The listings are plain.** -/
structure Plain (drives : List Drive) (slabs : List Slab) (volumes : List Volume) : Prop where
  /-- No two drives have the name that a slab gives. -/
  apart : ∀ s ∈ slabs, ∀ r, s.drive = some r →
    ∀ d ∈ drives, ∀ d' ∈ drives, Names r d → Names r d' → d.id = d'.id
  /-- No drive has the name that a slab on another node gives. -/
  foreign : ∀ s ∈ slabs, ∀ r, s.drive = some r → Text.contains r.path "://" = true →
    ∀ d ∈ drives, ¬ Names r d
  fits : ∀ d ∈ drives, SlabsFit d slabs
  sums : ∀ d ∈ drives, ∀ v ∈ volumes, ∀ p, v.placement = some p → Listed d p → VolumeFits d p
  /-- The volumes that name the drive are those with a leg on one of its slabs. -/
  agree : ∀ d ∈ drives, ∀ id,
    (∃ v ∈ volumes, ∃ p, v.placement = some p ∧ v.id = id ∧ Listed d p) ↔
      ∃ v ∈ volumes, ∃ p, v.placement = some p ∧ v.id = id ∧ HasLeg d slabs p

variable {drives : List Drive} {slabs : List Slab} {volumes : List Volume}

lemma mem_mine {s : Slab} {d : Drive} : s ∈ mine d slabs ↔
    s ∈ slabs ∧ ∃ r, s.drive = some r ∧ Names r d := by
  rw [mine, List.mem_filter]
  refine and_congr_right fun _ => ?_
  cases hr : s.drive with
  | none => simp [slabOn]
  | some r => simp [slabOn_iff_names]

/-- What is used and what is free make up the drive. -/
lemma used_add_free {promise : Overcommit → ℕ → ℕ} {d : Drive} {now : ℕ} {u : Usage}
    (h : compute promise d slabs now = .ok u)
    (hfits : (u.slabs.map SlabUsage.allocatedBytes).sum ≤ u.capacityBytes) :
    u.usedBytes + u.freeBytes = u.capacityBytes := by
  obtain ⟨-, rfl⟩ := compute_eq_ok_iff.mp h
  have hsum : (((inOrder d slabs).map Slab.usage).map SlabUsage.allocatedBytes).sum =
      ((mine d slabs).map Slab.allocatedBytes).sum := by
    rw [List.map_map]
    exact sum_inOrder d slabs Slab.allocatedBytes
  simp only [usageOf, Usage.priced] at hfits ⊢
  rw [hsum] at hfits
  exact Nat.add_sub_of_le hfits

/-- **Slabs and volumes are attributed exactly where the listings are plain.**

**Proof sketch.** Clause by clause: an entry is on the drives whose name it gives
(`mem_mine`), the sums are computed exactly when they are in range (`compute_eq_ok_iff`), and the
volumes found are those that name the drive (`volumesOn_spec`). -/
theorem attributed_iff (promise : Overcommit → ℕ → ℕ) (now : ℕ) (drives : List Drive)
    (slabs : List Slab) (volumes : List Volume) :
    Attributed promise now drives slabs volumes ↔ Plain drives slabs volumes := by
  constructor
  · intro h
    refine
      { apart := fun s hs r hr d hd d' hd' hnames hnames' => ?_
        foreign := fun s hs r hr hfabric d hd hnames => ?_
        fits := fun d hd => ?_
        sums := fun d hd => ?_
        agree := fun d hd id => ?_ }
    · exact h.once s hs d hd d' hd' (mem_mine.mpr ⟨hs, r, hr, hnames⟩)
        (mem_mine.mpr ⟨hs, r, hr, hnames'⟩)
    · refine h.atHome s hs ?_ d hd (mem_mine.mpr ⟨hs, r, hr, hnames⟩)
      rw [onFabric, hr]
      exact hfabric
    · obtain ⟨u, hu, -⟩ := h.adds d hd
      exact (compute_eq_ok_iff.mp hu).1
    · obtain ⟨found, hfound, -⟩ := h.volumes d hd
      exact (volumesOn_spec hfound).1
    · obtain ⟨found, hfound, hlegs⟩ := h.volumes d hd
      cases found with
      | some vs => rw [← (volumesOn_spec hfound).2 vs rfl, hlegs vs rfl]
      | none =>
        -- no volume says where it is
        have hnone := placed_of_not_reported hfound
        have hempty : ∀ v ∈ volumes, ∀ p, v.placement ≠ some p := fun v hv p hp =>
          absurd (mem_placed.mpr ⟨hv, hp⟩) (hnone ▸ List.not_mem_nil)
        refine iff_of_false ?_ ?_
        · rintro ⟨v, hv, p, hp, -⟩
          exact hempty v hv p hp
        · rintro ⟨v, hv, p, hp, -⟩
          exact hempty v hv p hp
  · intro h
    refine
      { once := fun s hs d hd d' hd' hmine hmine' => ?_
        atHome := fun s hs hfabric d hd hmine => ?_
        adds := fun d hd => ?_
        volumes := fun d hd => ?_ }
    · obtain ⟨-, r, hr, hnames⟩ := mem_mine.mp hmine
      obtain ⟨-, r', hr', hnames'⟩ := mem_mine.mp hmine'
      obtain rfl := Option.some.inj (hr.symm.trans hr')
      exact h.apart s hs r hr d hd d' hd' hnames hnames'
    · obtain ⟨-, r, hr, hnames⟩ := mem_mine.mp hmine
      rw [onFabric, hr] at hfabric
      exact h.foreign s hs r hr hfabric d hd hnames
    · have hu : compute promise d slabs now = .ok (usageOf promise d slabs now) :=
        compute_eq_ok_iff.mpr ⟨h.fits d hd, rfl⟩
      exact ⟨_, hu, used_add_free hu⟩
    · obtain ⟨found, hfound⟩ := exists_volumesOn (h.sums d hd)
      refine ⟨found, hfound, fun vs hvs id => ?_⟩
      rw [(volumesOn_spec hfound).2 vs hvs id]
      exact h.agree d hd id

/-! ### Listings that agree -/

/-- **The placement of a volume tells the same as the list of slabs**: its drives are those of its
legs, and a leg is on a listed slab of the same drive. -/
structure Coherent (slabs : List Slab) (p : Placement) : Prop where
  leg : ∀ e ∈ p.drives, ∃ leg ∈ p.slabs, leg.drive = e.drive
  drive : ∀ leg ∈ p.slabs, ∃ e ∈ p.drives, e.drive = leg.drive
  slab : ∀ leg ∈ p.slabs, ∃ s ∈ slabs, s.id = leg.id
  same : ∀ leg ∈ p.slabs, ∀ s ∈ slabs, s.id = leg.id → s.drive = leg.drive

/-- **In listings that tell the same** a volume names the drive exactly when it has a leg there, once
no slab of another node has a drive's name. -/
theorem hasLeg_iff_of_coherent {d : Drive} {p : Placement} (hp : Coherent slabs p)
    (hforeign : ∀ s ∈ slabs, onFabric s.drive = true → slabOn s.drive d = false) :
    Listed d p ↔ HasLeg d slabs p := by
  constructor
  · rintro ⟨e, he, hon⟩
    obtain ⟨leg, hleg, hdrive⟩ := hp.leg e he
    obtain ⟨s, hs, hid⟩ := hp.slab leg hleg
    have hsame : s.drive = e.drive := (hp.same leg hleg s hs hid).trans hdrive
    refine ⟨leg, hleg, s, List.mem_filter.mpr ⟨hs, ?_⟩, hid⟩
    rw [hsame]
    exact (Bool.and_eq_true_iff.mp hon).2
  · rintro ⟨leg, hleg, s, hs, hid⟩
    obtain ⟨hs, hon⟩ := List.mem_filter.mp hs
    obtain ⟨e, he, hdrive⟩ := hp.drive leg hleg
    have hsame : e.drive = s.drive := hdrive.trans (hp.same leg hleg s hs hid).symm
    refine ⟨e, he, ?_⟩
    rw [placedOn, hsame, hon, Bool.and_true, Bool.not_eq_true']
    by_contra hfabric
    rw [hforeign s hs (Bool.not_eq_false _ ▸ hfabric)] at hon
    cases hon

/-- A slab on another node, on a drive whose serial is that of a drive here. -/
def fabricSlab : Slab where
  id := "s"
  drive := some ⟨"", "sda", "nvme-tcp://10.0.0.2:4420/nqn.x"⟩
  slotSize := 1
  totalBytes := 8
  freeBytes := 8

/-- **Not for every listing**: another node's slab counts on a drive with its serial. -/
theorem fabric_slab_counted : ¬ ∀ (drives : List Drive) (slabs : List Slab) (volumes : List Volume),
    (drives.map Drive.id).Nodup → Attributed (fun _ n => n) 0 drives slabs volumes := by
  intro h
  have hattr := h [Drive.testFixture ⟨⟨7⟩⟩ "sda"] [fabricSlab] [] (by decide)
  exact hattr.atHome fabricSlab (by decide) (by decide) _ (List.mem_cons_self ..) (by decide)

end DriveUsage

end StormDrive
