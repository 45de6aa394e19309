import StormDrive.Discovery

set_option relaxedAutoImplicit false
set_option autoImplicit false

/-!
# A drive that is mounted through one of its nodes

A drive on two paths shows two block devices with one WWID. A mount table names one of them. This
file settles when the drive reads mounted after a discovery pass, so that every destroying step
is refused.

## Main definitions

* `MountedNode` — some node of the drive, or a partition of it, is in the mount table.
* `ReadsMounted` — what a present drive must be for every destroying step to be refused.
* `MountSeen` — the condition on the devices and the record under which that is so.

## Main results

* `readsMounted_refuses` — a drive that reads mounted is refused every destroying step.
* `mountedNode_protected_iff` — a pass protects a mounted drive exactly under `MountSeen`.

## Design

The pass skips a mounted node before it groups the nodes of a drive, and takes the mark of the
record from the first node alone; `worker::context` asks the mount table for the name of the
first node. So the other nodes count for nothing, and the mark is that of the first node that is
scanned.
-/

namespace StormDrive

variable (newV5 : String → Uuid)

/-- The identity derived from a block device. -/
def BlockDevice.id (b : BlockDevice) : DriveId :=
  DriveId.derive newV5 b.wwid b.model b.serial

/-- Some node of the drive, or a partition of it, is in the mount table. -/
def MountedNode (mounts : String) (devices : List BlockDevice) (id : DriveId) : Prop :=
  ∃ b ∈ devices, b.id newV5 = id ∧ mountedIn mounts b.name = true

/-- Where the drive is present, its record reads mounted and the guard's look at the mount table
finds it so. -/
def ReadsMounted (inv : Inventory) (mounts : String) (id : DriveId) : Prop :=
  ∀ d, inv id = some d → d.activity ≠ .missing →
    d.mounted = true ∧ mountedIn mounts d.name = true

/-- The record is in use, and the guard refuses every list of steps with one that destroys,
whatever the request names. -/
def RefusesDestroy (mounts : String) (d : Drive) : Prop :=
  (InUse.of d).use ≠ .free ∧
    ∀ steps named cx, cx.mounted = mountedIn mounts d.name → (∃ s ∈ steps, s.destroys = true) →
      guard d steps named cx ≠ .ok ()

/-- A node of the drive that the scan considers, first of them by path. -/
def FirstVisible (cfg : DiscoveryConfig) (devices : List BlockDevice) (id : DriveId)
    (b : BlockDevice) : Prop :=
  b ∈ devices ∧ b.id newV5 = id ∧ visible cfg b = true ∧
    ∀ b' ∈ devices, b'.id newV5 = id → visible cfg b' = true →
      pathLe (devPath b.name) (devPath b'.name)

/-- The pass sees the mount. Where mounted drives are not managed: every node of the drive that
the scan considers is mounted. Where they are: the first such node is, and a record that a format
owns already reads mounted. -/
def MountSeen (mounts : String) (cfg : DiscoveryConfig) (devices : List BlockDevice)
    (inv : Inventory) (id : DriveId) : Prop :=
  if cfg.manageMounted = true then
    ∀ b, FirstVisible newV5 cfg devices id b → mountedIn mounts b.name = true ∧
      ∀ d, inv id = some d → d.activity.ownsReadings = true → d.mounted = true
  else
    ∀ b ∈ devices, b.id newV5 = id → visible cfg b = true → mountedIn mounts b.name = true

/-! ## What a mounted record refuses -/

/-- **A drive that reads mounted is refused every destroying step.** -/
theorem readsMounted_refuses {mounts : String} {d : Drive} (hd : d.mounted = true)
    (hm : mountedIn mounts d.name = true) : RefusesDestroy mounts d := by
  refine ⟨fun hfree => ?_, fun steps named cx hcx ⟨s, hs, hdes⟩ hok => ?_⟩
  · have := ((InUse.of_free_iff d).mp hfree).2.2.2
    simp [hd] at this
  · rw [guard_eq_ok_iff, guardRefusal_eq_none_iff] at hok
    have hread : steps.all Step.readOnly = false :=
      all_readOnly_eq_false (List.any_eq_true.mpr ⟨s, hs, hdes⟩)
    have := (hok.2.1 hread).2.2
    simp [hcx, hm] at this

/-! ## The scanned nodes of a drive -/

/-- The group of a drive holds the observations of its scanned nodes. -/
lemma mem_groupOf_scanIn {mounts : String} {cfg : DiscoveryConfig} {devices : List BlockDevice}
    {id : DriveId} {o : Observed} :
    o ∈ groupOf newV5 (scanIn mounts cfg devices) id ↔
      ∃ b ∈ devices, scanned cfg mounts b = true ∧ b.id newV5 = id ∧ observe mounts b = o := by
  simp only [groupOf, List.mem_insertionSort, List.mem_filter, scanIn, List.mem_map,
    decide_eq_true_eq]
  constructor
  · rintro ⟨⟨b, ⟨hb, hs⟩, rfl⟩, hid⟩
    exact ⟨b, hb, hs, hid, rfl⟩
  · rintro ⟨b, hb, hs, hid, rfl⟩
    exact ⟨⟨b, ⟨hb, hs⟩, rfl⟩, hid⟩

/-- The first observation of a group has the least path. -/
lemma groupOf_head_le {observed : List Observed} {id : DriveId} {primary : Observed}
    {rest : List Observed} (h : groupOf newV5 observed id = primary :: rest) :
    ∀ o ∈ groupOf newV5 observed id, pathLe primary.path o.path := by
  have hsorted := List.pairwise_insertionSort Observed.le (observed.filter fun o => o.id newV5 = id)
  rw [show List.insertionSort Observed.le _ = _ from h] at hsorted
  rw [h]
  intro o ho
  rcases List.mem_cons.mp ho with rfl | ho
  · exact le_refl _
  · exact (List.pairwise_cons.mp hsorted).1 o ho

/-- Where the drive's first scanned node is `b`, the record after the pass has its name, is
present, and has its mark unless a format owns the record. -/
lemma mergeObserved_of_group (inv : Inventory) {mounts : String} {cfg : DiscoveryConfig}
    {devices : List BlockDevice} {id : DriveId} {b : BlockDevice} {rest : List Observed}
    (h : groupOf newV5 (scanIn mounts cfg devices) id = observe mounts b :: rest) :
    ∃ d, mergeObserved newV5 inv (scanIn mounts cfg devices) id = some d ∧
      d.activity ≠ .missing ∧ d.name = b.name ∧
      (d.mounted = true ↔
        (∃ old, inv id = some old ∧ old.activity.ownsReadings = true ∧ old.mounted = true) ∨
        (∀ old, inv id = some old → old.activity.ownsReadings = false) ∧
          mountedIn mounts b.name = true) := by
  rw [mergeObserved_apply, h]
  rcases hd : inv id with _ | old
  · refine ⟨_, rfl, by simp [Drive.discovered], rfl, ?_⟩
    simp [Drive.discovered, observe]
  · refine ⟨_, rfl, ?_, ?_, ?_⟩
    all_goals
      cases ha : old.activity <;>
        simp [Drive.refreshed, Drive.withReadings, Activity.ownsReadings, observe, ha]

/-- A drive none of whose nodes was scanned is not present after the pass. -/
lemma mergeObserved_of_no_group {inv : Inventory} {observed : List Observed} {id : DriveId}
    (h : groupOf newV5 observed id = []) {d : Drive}
    (hd : mergeObserved newV5 inv observed id = some d) : d.activity = .missing := by
  rw [mergeObserved_apply, h] at hd
  simp only [Option.map_eq_some_iff] at hd
  obtain ⟨old, -, rfl⟩ := hd
  unfold Drive.unseen
  split_ifs with hm
  · rfl
  · exact not_not.mp hm

/-! ## When the pass protects a mounted drive -/

/-- **Without managed mounts**: the nodes left after the scan are not mounted, so the drive reads
mounted only when none is left. -/
lemma readsMounted_iff_of_unmanaged {mounts : String} {cfg : DiscoveryConfig}
    {devices : List BlockDevice} {inv : Inventory} {id : DriveId}
    (hcfg : cfg.manageMounted = false) :
    ReadsMounted (mergeObserved newV5 inv (scanIn mounts cfg devices)) mounts id ↔
      ∀ b ∈ devices, b.id newV5 = id → visible cfg b = true → mountedIn mounts b.name = true := by
  have hscan : ∀ b, scanned cfg mounts b = true ↔
      visible cfg b = true ∧ mountedIn mounts b.name = false := by
    intro b
    simp [scanned, hcfg]
  rcases hg : groupOf newV5 (scanIn mounts cfg devices) id with _ | ⟨primary, rest⟩
  · refine ⟨fun _ b hb hid hv => ?_, fun _ d hd hp => ?_⟩
    · by_contra hm
      have : observe mounts b ∈ groupOf newV5 (scanIn mounts cfg devices) id :=
        (mem_groupOf_scanIn newV5).mpr
          ⟨b, hb, (hscan b).mpr ⟨hv, by simpa using hm⟩, hid, rfl⟩
      simp [hg] at this
    · exact absurd (mergeObserved_of_no_group newV5 hg hd) hp
  · obtain ⟨b, hb, hs, hid, rfl⟩ := (mem_groupOf_scanIn newV5).mp
      (show primary ∈ groupOf newV5 (scanIn mounts cfg devices) id by simp [hg])
    obtain ⟨hv, hm⟩ := (hscan b).mp hs
    obtain ⟨d, hd, hpres, hname, -⟩ := mergeObserved_of_group newV5 inv hg
    refine ⟨fun hread => ?_, fun hall => ?_⟩
    · have := (hread d hd hpres).2
      simp [hname, hm] at this
    · have := hall b hb hid hv
      simp [hm] at this

/-- **With managed mounts**: every node is scanned, and the first of them gives the record its
name and its mark. -/
lemma readsMounted_iff_of_managed {mounts : String} {cfg : DiscoveryConfig}
    {devices : List BlockDevice} {inv : Inventory} {id : DriveId}
    (hcfg : cfg.manageMounted = true) :
    ReadsMounted (mergeObserved newV5 inv (scanIn mounts cfg devices)) mounts id ↔
      ∀ b, FirstVisible newV5 cfg devices id b → mountedIn mounts b.name = true ∧
        ∀ d, inv id = some d → d.activity.ownsReadings = true → d.mounted = true := by
  have hscan : ∀ b, scanned cfg mounts b = true ↔ visible cfg b = true := by
    intro b
    simp [scanned, hcfg]
  rcases hg : groupOf newV5 (scanIn mounts cfg devices) id with _ | ⟨primary, rest⟩
  · refine ⟨fun _ b ⟨hb, hid, hv, _⟩ => ?_, fun _ d hd hp => ?_⟩
    · have : observe mounts b ∈ groupOf newV5 (scanIn mounts cfg devices) id :=
        (mem_groupOf_scanIn newV5).mpr ⟨b, hb, (hscan b).mpr hv, hid, rfl⟩
      simp [hg] at this
    · exact absurd (mergeObserved_of_no_group newV5 hg hd) hp
  · obtain ⟨b, hb, hs, hid, rfl⟩ := (mem_groupOf_scanIn newV5).mp
      (show primary ∈ groupOf newV5 (scanIn mounts cfg devices) id by simp [hg])
    have hle : ∀ b' ∈ devices, b'.id newV5 = id → visible cfg b' = true →
        pathLe (devPath b.name) (devPath b'.name) := by
      intro b' hb' hid' hv'
      exact groupOf_head_le newV5 hg (observe mounts b')
        ((mem_groupOf_scanIn newV5).mpr ⟨b', hb', (hscan b').mpr hv', hid', rfl⟩)
    have hfirst : FirstVisible newV5 cfg devices id b := ⟨hb, hid, (hscan b).mp hs, hle⟩
    -- two nodes that are both first have one name
    have huniq : ∀ b', FirstVisible newV5 cfg devices id b' → b'.name = b.name := by
      rintro b' ⟨hb', hid', hv', hle'⟩
      have heq : (devPath b'.name).toList = (devPath b.name).toList :=
        le_antisymm (hle' b hb hid ((hscan b).mp hs)) (hle b' hb' hid' hv')
      exact String.toList_inj.mp (by simpa [devPath] using heq)
    obtain ⟨d, hd, hpres, hname, hmark⟩ := mergeObserved_of_group newV5 inv hg
    refine ⟨fun hread b' hb' => ?_, fun hall d' hd' hp => ?_⟩
    · obtain ⟨hdm, hdn⟩ := hread d hd hpres
      rw [huniq b' hb', ← hname]
      refine ⟨hdn, fun old hold hown => ?_⟩
      rcases hmark.mp hdm with ⟨old', hold', -, hm⟩ | ⟨hnone, -⟩
      · obtain rfl : old' = old := by simpa [hold] using hold'.symm
        exact hm
      · simp [hnone old hold] at hown
    · obtain rfl : d = d' := by simpa [hd] using hd'
      obtain ⟨hbm, hold⟩ := hall b hfirst
      refine ⟨hmark.mpr ?_, hname ▸ hbm⟩
      by_cases hown : ∃ old, inv id = some old ∧ old.activity.ownsReadings = true
      · obtain ⟨old, ho, hown⟩ := hown
        exact .inl ⟨old, ho, hown, hold old ho hown⟩
      · refine .inr ⟨fun old ho => ?_, hbm⟩
        simpa using fun h => hown ⟨old, ho, h⟩

/-- **When a pass protects a drive that is mounted through one of its nodes.** The drive reads
mounted, or is not present, and every destroying step is refused, exactly when no node of it is
mounted or the pass sees the mount (`MountSeen`).

**Proof sketch.** A present drive is one with a scanned node; its record has the name and the mark
of the first of them (`mergeObserved_of_group`). Without managed mounts the scanned nodes are the
ones that are not mounted. With them, the first visible node decides, and a record that a format
owns keeps its mark. A record that reads mounted is refused by both checks
(`readsMounted_refuses`). -/
theorem mountedNode_protected_iff (mounts : String) (cfg : DiscoveryConfig)
    (devices : List BlockDevice) (inv : Inventory) (id : DriveId) :
    (MountedNode newV5 mounts devices id →
      ReadsMounted (mergeObserved newV5 inv (scanIn mounts cfg devices)) mounts id ∧
      ∀ d, mergeObserved newV5 inv (scanIn mounts cfg devices) id = some d →
        d.activity ≠ .missing → RefusesDestroy mounts d) ↔
      (∀ b ∈ devices, b.id newV5 = id → mountedIn mounts b.name = false) ∨
        MountSeen newV5 mounts cfg devices inv id := by
  have hreads : ReadsMounted (mergeObserved newV5 inv (scanIn mounts cfg devices)) mounts id ↔
      MountSeen newV5 mounts cfg devices inv id := by
    unfold MountSeen
    split_ifs with hcfg
    · exact readsMounted_iff_of_managed newV5 hcfg
    · exact readsMounted_iff_of_unmanaged newV5 (by simpa using hcfg)
  constructor
  · intro h
    by_cases hm : MountedNode newV5 mounts devices id
    · exact .inr (hreads.mp (h hm).1)
    · refine .inl fun b hb hid => ?_
      simpa using fun hmb => hm ⟨b, hb, hid, hmb⟩
  · rintro (hno | hseen) hm
    · obtain ⟨b, hb, hid, hmb⟩ := hm
      simp [hno b hb hid] at hmb
    · have hread := hreads.mpr hseen
      refine ⟨hread, fun d hd hp => ?_⟩
      exact readsMounted_refuses (hread d hd hp).1 (hread d hd hp).2

/-! ## A drive on two paths -/

/-- One node of a drive on two paths. -/
def pathNode (name : String) : BlockDevice where
  name := name
  sectors := 1000
  kind := .sasHdd
  model := "M"
  serial := "S"
  wwid := some "naa.5000c500a1b2c3d4"
  capacityBytes := 512000
  blockSize := 512
  physicalBlockSize := 512

/-- A drive whose second path is mounted: the pass skips the mounted node and keeps the drive
through the other one, not mounted. -/
theorem mounted_second_path_not_protected :
    let newV5 : String → Uuid := fun _ => ⟨1⟩
    let mounts := "/dev/sdb1 /data xfs rw 0 0"
    let devices := [pathNode "sda", pathNode "sdb"]
    MountedNode newV5 mounts devices ⟨⟨1⟩⟩ ∧
      ∃ d, mergeObserved newV5 (fun _ => none) (scanIn mounts {} devices) ⟨⟨1⟩⟩ = some d ∧
        d.activity = .idle ∧ d.mounted = false ∧ mountedIn mounts d.name = false ∧
        (InUse.of d).use = .free ∧
        guard d [.format 4096 .none] false { mounted := mountedIn mounts d.name } = .ok () := by
  refine ⟨⟨pathNode "sdb", by simp, by decide, by decide⟩, ?_⟩
  refine ⟨Drive.discovered ⟨⟨1⟩⟩ (observe "/dev/sdb1 /data xfs rw 0 0" (pathNode "sda"))
    ["/dev/sda"], ?_, by decide, by decide, by decide, by decide, by decide⟩
  rw [mergeObserved_apply]
  decide

end StormDrive
