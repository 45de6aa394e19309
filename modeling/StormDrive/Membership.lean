import StormDrive.Daemon.Ops

set_option relaxedAutoImplicit false
set_option autoImplicit false

/-!
# What the engine's list says about membership

`reconcile_stormblock` marks a drive as in the fleet when an entry of the engine's list carries its
path, the path of its partition, or its serial. Which drive the engine really has open there is a
fact about the engine: an entry of this host is for one drive at most, one of another node for none.

## Main definitions

* `OpenDrive` — an entry of the engine's list with the drive that it is for.
* `Truthful` — after the reconciliation a drive is in the fleet iff an entry is for it.
* `Identified` — the entries carry what their own drives have, and nothing of any other drive.

## Main results

* `truthful_iff_identified` — the membership is the truth for exactly the lists and inventories
  that identify every drive.
-/

namespace StormDrive

/-! ## The engine's list and the drives -/

/-- An entry of the engine's list with the drive that the engine has open there: none when it is
another node's. -/
structure OpenDrive where
  entry : EngineDrive
  drive : Option DriveId

/-- The list as the engine answers it. -/
def listing (opened : List OpenDrive) : List EngineDrive :=
  opened.map OpenDrive.entry

/-- Some entry of the list is for the drive. -/
def IsOpen (opened : List OpenDrive) (id : DriveId) : Prop :=
  ∃ o ∈ opened, o.drive = some id

/-- The entry carries the path that the record has, the path of its partition, or its serial when
that is not blank. -/
def EngineDrive.Carries (sd : EngineDrive) (d : Drive) : Prop :=
  sd.path = some d.path ∨ sd.path = some d.stormblockPath ∨
    (d.serial ≠ "" ∧ sd.serial = some d.serial)

/-- **Every drive is identified**: when the engine has it open, some entry carries its present
path, its partition's path or its serial, and when the engine has not, no entry does. -/
def Identified (opened : List OpenDrive) (s : Records) : Prop :=
  ∀ id d, s.inv id = some d →
    (IsOpen opened id → ∃ o ∈ opened, o.entry.Carries d) ∧
      (¬ IsOpen opened id → ∀ o ∈ opened, ¬ o.entry.Carries d)

/-- **Reconciled membership is the truth**: after the reconciliation with the list, a drive is in
the fleet if and only if some entry is for it. -/
def Truthful (newV5 : String → Uuid) (opened : List OpenDrive) (s : Records) : Prop :=
  ∀ (e : Env) (a : Unit) (s' : Records),
    RecordOp.exec newV5 (.reconcile (listing opened)) e s = some (a, s') →
    ∀ id d, s'.inv id = some d → (d.membership = .fleet ↔ IsOpen opened id)

/-! ## The reconciliation of one drive -/

/-- An entry is taken for a drive when it carries something of it. -/
lemma EngineDrive.matches_iff (sd : EngineDrive) (d : Drive) :
    sd.matches d = true ↔ sd.Carries d := by
  simp [EngineDrive.matches, Carries, or_assoc]

/-- A drive is in the fleet after the reconciliation iff an entry carries something of it. -/
lemma Drive.reconciled_membership (opened : List OpenDrive) (d : Drive) :
    (d.reconciled (listing opened)).membership = .fleet ↔ ∃ o ∈ opened, o.entry.Carries d := by
  have hany : ((listing opened).any fun sd => sd.matches d) = true ↔
      ∃ o ∈ opened, o.entry.Carries d := by
    simp [listing, List.any_eq_true, EngineDrive.matches_iff]
  rw [← hany]
  unfold Drive.reconciled
  cases hin : (listing opened).any fun sd => sd.matches d with
  | true =>
    cases hm : d.membership with
    | out => simp
    | fleet => simp [hm]
  | false =>
    cases hm : d.membership with
    | out => simp [hm]
    | fleet => simp

/-! ## The results -/

/-- **The membership is the truth for exactly the lists and inventories that identify every
drive.**

**Proof sketch.** The reconciliation takes each record by itself, and makes it a member iff an entry
carries something of it (`Drive.reconciled_membership`). -/
theorem truthful_iff_identified (newV5 : String → Uuid) (opened : List OpenDrive) (s : Records) :
    Truthful newV5 opened s ↔ Identified opened s := by
  constructor
  · intro h id d hd
    have hd' : (s.updateAll (Drive.reconciled (listing opened))
        (Drive.reconciled_id (listing opened))).inv id = some (d.reconciled (listing opened)) := by
      rw [Records.updateAll_inv, hd]
      rfl
    have hmem := h {} () _ rfl id _ hd'
    rw [Drive.reconciled_membership] at hmem
    exact ⟨hmem.mpr, fun hno o ho hcar => hno (hmem.mp ⟨o, ho, hcar⟩)⟩
  · intro h e a s' hex id d' hd'
    cases hex
    rw [Records.updateAll_inv, Option.map_eq_some_iff] at hd'
    obtain ⟨d, hd, rfl⟩ := hd'
    obtain ⟨hown, hother⟩ := h id d hd
    rw [Drive.reconciled_membership]
    constructor
    · rintro ⟨o, ho, hcar⟩
      by_contra hno
      exact hother hno o ho hcar
    · exact hown

/-- A drive was pulled, and the one that came in its place has its path. -/
def Records.replacedFixture : Records where
  inv id :=
    if id = ⟨⟨7⟩⟩ then
      some { Drive.testFixture ⟨⟨7⟩⟩ "sdb" with
        serial := "old", activity := .missing, membership := .out }
    else if id = ⟨⟨8⟩⟩ then some { Drive.testFixture ⟨⟨8⟩⟩ "sdb" with serial := "new" }
    else none
  saved _ := none
  seen node := if node = "/dev/sdb" then some ⟨⟨8⟩⟩ else none
  ids := [⟨⟨7⟩⟩, ⟨⟨8⟩⟩]
  sound := by
    intro id d hd
    dsimp only at hd
    split at hd
    · next hid =>
      rw [← Option.some.inj hd, hid]
      exact ⟨by simp, rfl⟩
    · split at hd
      · next hid =>
        rw [← Option.some.inj hd, hid]
        exact ⟨by simp, rfl⟩
      · cases hd
  soundSaved := by simp [Sound]
  soundWriting := by simp

/-- **Not every list identifies every drive**: the entry of a new drive puts the pulled one into
the fleet whose path it has. -/
theorem replaced_drive_adopted :
    ¬ Truthful (fun _ => ⟨0⟩)
      [⟨{ path := some "/dev/sdb", serial := some "new" }, some ⟨⟨8⟩⟩⟩]
      Records.replacedFixture := by
  intro h
  have hout := (h {} () _ rfl ⟨⟨7⟩⟩ _ rfl).mp (by decide)
  obtain ⟨o, ho, hid⟩ := hout
  rw [List.mem_singleton.mp ho] at hid
  exact absurd hid (by decide)

end StormDrive
