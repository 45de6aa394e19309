import StormDrive.Daemon.Ops

set_option relaxedAutoImplicit false
set_option autoImplicit false

/-!
# What a section makes of a drive's record

What each section under the lock of the inventory makes of one record, and of the copies of the
inventory that are kept in the file.

## Main definitions

* `RecordOp.onDrive` — the record after a section.
* `Drive.kept` — the part of a record that a discovery pass leaves.
* `Filed` — what the file and the copy being written say of every drive.

## Main results

* `inv_exec_of_inv`, `inv_exec_cases` — the inventory after a section, drive by drive.
* `file_exec_cases`, `copy_exec_cases` — the file and the copy being written after a section.
* `records_eq_of_ne_record` — every other operation leaves the inventory.
* `inv_world_cases` — the inventory after a change from outside.
-/

namespace StormDrive

/-! ## One record -/

/-- What a discovery pass makes of a record. -/
def Drive.passed (newV5 : String → Uuid) (observed : List Observed) (d : Drive) : Drive :=
  match groupOf newV5 observed d.id with
  | [] => d.unseen
  | primary :: rest => d.refreshed primary ((primary :: rest).map Observed.path)

/-- What a section makes of a record that is there before and after it. -/
def RecordOp.onDrive (newV5 : String → Uuid) (o : RecordOp) (e : Env) (d : Drive) : Drive :=
  match o with
  | .change id u => if d.id = id then d.apply u else d
  | .recoverOrphans owned => d.recovered (owned.contains d.id)
  | .designate id des =>
    if d.id = id ∧ d.designationBlocker des = none then { d with designation := des } else d
  | .restoreSystem named => if d.id ∈ named then d.restoredSystem else d
  | .reconcile listed => d.reconciled listed
  | .dropPending id => if d.id = id then d.apply .drainDropped else d
  | .setOvercommit id oc => if d.id = id then d.apply (.overcommitSet oc) else d
  | .merge => d.passed newV5 e.observed
  | _ => d

/-- The part of a record that a discovery pass leaves: all but the place, the readings and the
activity. -/
def Drive.kept (d : Drive) : Drive :=
  { d with
    location := {}, path := "", name := "", paths := [], kind := .unknown, supports := none,
    capacityBytes := 0, blockSize := 0, physicalBlockSize := 0, usable := true, inUseBy := none,
    contents := none, slabParts := [], mounted := false, activity := .idle }

/-- A pass leaves that part. -/
@[simp] lemma Drive.kept_passed (newV5 : String → Uuid) (observed : List Observed) (d : Drive) :
    (d.passed newV5 observed).kept = d.kept := by
  unfold Drive.passed
  split
  · unfold Drive.unseen
    split <;> rfl
  · next primary rest _ =>
    have hread : ∀ d : Drive,
        (if d.activity.ownsReadings then d else d.withReadings primary).kept = d.kept := by
      intro d
      split <;> rfl
    have hidle : ∀ d : Drive,
        (if d.activity = .missing then { d with activity := .idle } else d).kept = d.kept := by
      intro d
      split <;> rfl
    exact (hidle _).trans ((hread _).trans rfl)

/-- The reconciliation changes nothing but the membership. -/
lemma Drive.reconciled_eq (listed : List EngineDrive) (d : Drive) :
    d.reconciled listed = { d with membership := (d.reconciled listed).membership } := by
  unfold Drive.reconciled
  dsimp only
  split <;> rfl

/-! ## What was pushed -/

/-- What a record says of the fleet and of what was pushed. -/
def Drive.pushed (d : Drive) : Membership × List (String × String) × Option String ×
    Option Overcommit × Option String :=
  (d.membership, d.pushedLabels, d.pushedHealth, d.pushedOvercommit, d.pushedThermal)

/-- The change writes down what the engine was told. -/
def DriveUpdate.writesDown : DriveUpdate → Bool
  | .labelsPushed _ | .overcommitPushed _ | .thermalPushed _ | .healthPushed _ | .joined _
  | .enrolled .. | .left | .retired => true
  | _ => false

/-- A change that writes nothing of it down leaves it. -/
lemma pushed_apply {d : Drive} {u : DriveUpdate} (hu : u.writesDown = false) :
    (d.apply u).pushed = d.pushed := by
  cases u <;> cases hu
  all_goals
    simp only [Drive.apply, Drive.markPending]
    repeat' split
  all_goals rfl

/-- A section that changes what was pushed, or the fleet. -/
def RecordOp.moves : RecordOp → Bool
  | .change _ u => u.writesDown
  | .reconcile _ => true
  | _ => false

/-- Every other section leaves it. -/
lemma pushed_onDrive {newV5 : String → Uuid} {o : RecordOp} {env : Env} {d : Drive}
    (ho : o.moves = false) : (o.onDrive newV5 env d).pushed = d.pushed := by
  cases o with
  | change id u =>
    simp only [RecordOp.onDrive]
    split
    · exact pushed_apply ho
    · rfl
  | recoverOrphans owned =>
    simp only [RecordOp.onDrive, Drive.recovered, Drive.idleOrphan]
    split
    · split <;> rfl
    · rfl
  | designate id des =>
    simp only [RecordOp.onDrive]
    split <;> rfl
  | restoreSystem named =>
    simp only [RecordOp.onDrive, Drive.restoredSystem]
    split
    · split <;> rfl
    · rfl
  | reconcile listed => cases ho
  | dropPending id =>
    simp only [RecordOp.onDrive]
    split
    · exact pushed_apply rfl
    · rfl
  | setOvercommit id oc =>
    simp only [RecordOp.onDrive]
    split <;> rfl
  | merge =>
    have hkept : (d.passed newV5 env.observed).kept.pushed = d.kept.pushed :=
      congrArg Drive.pushed (Drive.kept_passed newV5 env.observed d)
    exact hkept
  | _ => rfl

/-- The reconciliation leaves what was pushed. -/
lemma pushed_reconciled (listed : List EngineDrive) (d : Drive) :
    (d.reconciled listed).pushed.2 = d.pushed.2 := by
  rw [Drive.reconciled_eq]
  rfl

section Exec

variable {newV5 : String → Uuid} {o : RecordOp} {e : Env} {s s' : Records} {a : o.Ans}
  {id : DriveId} {d d' : Drive}

/-- A pass, drive by drive. -/
lemma mergeObserved_of_some (h : s.inv id = some d) :
    mergeObserved newV5 s.inv e.observed id = some (d.passed newV5 e.observed) := by
  have hid : d.id = id := Records.id_of_inv h
  rw [mergeObserved_apply, h, Drive.passed, hid]
  cases groupOf newV5 e.observed id <;> rfl

/-- **The inventory after a section**: a record is what the section makes of it, unless the drive
is forgotten. -/
theorem inv_exec_of_inv (hex : o.exec newV5 e s = some (a, s')) (h : s.inv id = some d) :
    s'.inv id = some (o.onDrive newV5 e d) ∨
      o = .forget id ∧ d.activity = .missing ∧ d.membership ≠ .fleet ∧ s'.inv id = none := by
  have hid : d.id = id := Records.id_of_inv h
  have hupdate : ∀ (id' : DriveId) (f : Drive → Drive) (hf : ∀ d, (f d).id = d.id),
      (s.update id' f hf).inv id = some (if d.id = id' then f d else d) := by
    intro id' f hf
    rw [Records.update_inv, h, hid]
    split <;> rfl
  cases o with
  | change id' u =>
    cases hex
    exact .inl (hupdate id' _ _)
  | recoverOrphans owned =>
    cases hex
    refine .inl ?_
    rw [Records.updateAll_inv, h]
    rfl
  | designate id' des =>
    refine .inl ?_
    simp only [RecordOp.exec] at hex
    split at hex
    · next hnone =>
      cases hex
      have hne : d.id ≠ id' := by
        rintro rfl
        rw [hid, h] at hnone
        cases hnone
      rw [h, RecordOp.onDrive, if_neg fun hc => hne hc.1]
    · next d₀ hd₀ =>
      split at hex
      · next why hwhy =>
        cases hex
        rw [h, RecordOp.onDrive, if_neg]
        rintro ⟨rfl, hnone⟩
        rw [hid, h] at hd₀
        cases hd₀
        rw [hnone] at hwhy
        cases hwhy
      · next hnone =>
        cases hex
        rw [hupdate, RecordOp.onDrive]
        by_cases hc : d.id = id'
        · subst hc
          rw [hid, h] at hd₀
          cases hd₀
          rw [if_pos rfl, if_pos ⟨rfl, hnone⟩]
        · rw [if_neg hc, if_neg fun h => hc h.1]
  | restoreSystem named =>
    cases hex
    refine .inl ?_
    rw [Records.updateAll_inv, h]
    rfl
  | reconcile listed =>
    cases hex
    refine .inl ?_
    rw [Records.updateAll_inv, h]
    rfl
  | dropPending id' =>
    cases hex
    exact .inl (hupdate id' _ _)
  | setOvercommit id' oc =>
    cases hex
    exact .inl (hupdate id' _ _)
  | forget id' =>
    simp only [RecordOp.exec] at hex
    split at hex
    · cases hex
      exact .inl h
    · next d₀ hd₀ =>
      split at hex
      · cases hex
        exact .inl h
      · next hno =>
        cases hex
        rw [Records.erase_inv]
        by_cases hc : id = id'
        · subst hc
          rw [h] at hd₀
          cases hd₀
          simp only [not_or, not_not] at hno
          exact .inr ⟨rfl, hno.1, hno.2, if_pos rfl⟩
        · rw [if_neg hc]
          exact .inl h
  | merge =>
    cases hex
    exact .inl (mergeObserved_of_some h)
  | snapshot =>
    simp only [RecordOp.exec] at hex
    split at hex <;> cases hex
    exact .inl h
  | _ =>
    cases hex
    exact .inl h

/-- **The records after a section** are those before it, as the section makes them, and those of
drives that a pass saw for the first time. -/
theorem inv_exec_cases (hex : o.exec newV5 e s = some (a, s')) (h' : s'.inv id = some d') :
    (∃ d, s.inv id = some d ∧ d' = o.onDrive newV5 e d) ∨
      s.inv id = none ∧ ∃ primary paths, d' = .discovered id primary paths := by
  cases h : s.inv id with
  | some d =>
    refine .inl ⟨d, rfl, ?_⟩
    rcases inv_exec_of_inv hex h with hd | ⟨-, -, -, hd⟩
    · exact Option.some.inj (h'.symm.trans hd)
    · rw [hd] at h'
      cases h'
  | none =>
    refine .inr ⟨rfl, ?_⟩
    have hupdate : ∀ (id' : DriveId) (f : Drive → Drive) (hf : ∀ d, (f d).id = d.id),
        (s.update id' f hf).inv id = none := by
      intro id' f hf
      rw [Records.update_inv, h]
      split <;> rfl
    cases o with
    | merge =>
      cases hex
      rw [Records.merged_inv, mergeObserved_apply, h] at h'
      split at h'
      · cases h'
      · exact ⟨_, _, (Option.some.inj h').symm⟩
    | designate id' des =>
      simp only [RecordOp.exec] at hex
      split at hex
      · cases hex
        rw [h] at h'
        cases h'
      · split at hex
        · cases hex
          rw [h] at h'
          cases h'
        · cases hex
          rw [hupdate] at h'
          cases h'
    | forget id' =>
      simp only [RecordOp.exec] at hex
      split at hex
      · cases hex
        rw [h] at h'
        cases h'
      · split at hex
        · cases hex
          rw [h] at h'
          cases h'
        · cases hex
          rw [Records.erase_inv, h, ite_self] at h'
          cases h'
    | snapshot =>
      simp only [RecordOp.exec] at hex
      split at hex <;> cases hex
      change s.inv id = some d' at h'
      rw [h] at h'
      cases h'
    | change id' u =>
      cases hex
      rw [hupdate] at h'
      cases h'
    | dropPending id' =>
      cases hex
      rw [hupdate] at h'
      cases h'
    | setOvercommit id' oc =>
      cases hex
      rw [hupdate] at h'
      cases h'
    | recoverOrphans owned =>
      cases hex
      rw [Records.updateAll_inv, h] at h'
      cases h'
    | restoreSystem named =>
      cases hex
      rw [Records.updateAll_inv, h] at h'
      cases h'
    | reconcile listed =>
      cases hex
      rw [Records.updateAll_inv, h] at h'
      cases h'
    | _ =>
      cases hex
      rw [show s.inv id = some d' from h'] at h
      cases h

/-- The copy that is being written after a section: that of before, or of the records there. -/
theorem copy_exec_cases (hex : o.exec newV5 e s = some (a, s')) {snap : Inventory}
    (h : s'.writing = some snap) : s.writing = some snap ∨ o = .snapshot ∧ snap = s.inv := by
  have hsame : s'.writing = s.writing → s.writing = some snap := fun hw => hw ▸ h
  cases o with
  | snapshot =>
    simp only [RecordOp.exec] at hex
    split at hex
    · cases hex
    · cases hex
      exact .inr ⟨rfl, (Option.some.inj h).symm⟩
  | write =>
    cases hex
    cases h
  | designate id' des =>
    simp only [RecordOp.exec] at hex
    split at hex
    · cases hex
      exact .inl h
    · split at hex <;> cases hex <;> exact .inl h
  | forget id' =>
    simp only [RecordOp.exec] at hex
    split at hex
    · cases hex
      exact .inl h
    · split at hex <;> cases hex <;> exact .inl h
  | _ =>
    cases hex
    exact .inl h

/-- The file after a section: that of before, or the copy that was being written. -/
theorem file_exec_cases (hex : o.exec newV5 e s = some (a, s')) :
    s'.saved = s.saved ∨ o = .write ∧ s.writing = some s'.saved := by
  cases o with
  | write =>
    cases hex
    simp only [Records.written]
    cases hw : s.writing with
    | none => exact .inl rfl
    | some snap =>
      by_cases hok : e.ok = true
      · exact .inr ⟨trivial, by simp [hok]⟩
      · exact .inl (by simp [hok])
  | snapshot =>
    simp only [RecordOp.exec] at hex
    split at hex <;> cases hex
    exact .inl rfl
  | designate id' des =>
    simp only [RecordOp.exec] at hex
    split at hex
    · cases hex
      exact .inl rfl
    · split at hex <;> cases hex <;> exact .inl rfl
  | forget id' =>
    simp only [RecordOp.exec] at hex
    split at hex
    · cases hex
      exact .inl rfl
    · split at hex <;> cases hex <;> exact .inl rfl
  | _ =>
    cases hex
    exact .inl rfl

end Exec

/-! ## The operations -/

section Op

variable {newV5 : String → Uuid} {e : Env} {s s' : State}

/-- An operation that is no section of the inventory leaves it. -/
lemma records_eq_of_ne_record {o : Op} {a : o.Ans} (ho : ∀ r, o ≠ .record r)
    (h : o.exec newV5 e s = some (a, s')) : s'.records = s.records := by
  cases o with
  | record r => exact absurd rfl (ho r)
  | query o =>
    cases h
    rfl
  | engine o =>
    cases h
    rfl
  | spawn r =>
    cases h
    rfl
  | _ =>
    obtain ⟨out, -, hout⟩ := Option.map_eq_some_iff.mp h
    cases hout
    rfl

/-- An operation that is no request to the engine leaves it. -/
lemma engine_eq_of_ne_engine {o : Op} {a : o.Ans} (ho : ∀ r, o ≠ .engine r)
    (h : o.exec newV5 e s = some (a, s')) : s'.engine = s.engine := by
  cases o with
  | engine r => exact absurd rfl (ho r)
  | query o =>
    cases h
    rfl
  | spawn r =>
    cases h
    rfl
  | _ =>
    obtain ⟨out, -, hout⟩ := Option.map_eq_some_iff.mp h
    cases hout
    rfl

/-- A section of the inventory changes nothing else. -/
lemma exec_record {o : RecordOp} {a : o.Ans} (h : (Op.record o).exec newV5 e s = some (a, s')) :
    o.exec newV5 e s.records = some (a, s'.records) ∧ s' = { s with records := s'.records } := by
  obtain ⟨⟨a', st⟩, hex, hout⟩ := Option.map_eq_some_iff.mp h
  cases hout
  exact ⟨hex, rfl⟩

/-- **A change from outside** leaves a record but for what is sampled of its drive. -/
lemma inv_world_cases {w : World} {id : DriveId} {d' : Drive} (hw : w.exec s = some s')
    (h' : s'.records.inv id = some d') :
    ∃ d health thermal usage, s.records.inv id = some d ∧
      d' = { d with health := health, thermal := thermal, usage := usage } := by
  cases w with
  | sample id' health thermal usage =>
    cases hw
    dsimp only at h'
    rw [Records.update_inv] at h'
    split at h'
    · obtain ⟨d, hd, rfl⟩ := Option.map_eq_some_iff.mp h'
      exact ⟨d, health, thermal, usage, hd, rfl⟩
    · exact ⟨d', d'.health, d'.thermal, d'.usage, h', rfl⟩
  | finish dev =>
    cases hw
    exact ⟨d', d'.health, d'.thermal, d'.usage, h', rfl⟩
  | plug node dev =>
    cases hw
    exact ⟨d', d'.health, d'.thermal, d'.usage, h', rfl⟩

/-! ## The file -/

/-- What inventory.json, and the copy that is being written to it, say of every drive. -/
structure Filed (q : Drive → Prop) (s : State) : Prop where
  saved : ∀ id d, s.records.saved id = some d → q d
  writing : ∀ snap id d, s.records.writing = some snap → snap id = some d → q d

/-- **What the file says stays so**, when it is so of the records that are copied. -/
lemma Filed.exec {q : Drive → Prop} {o : Op} {a : o.Ans} (h : Filed q s)
    (hex : o.exec newV5 e s = some (a, s'))
    (hcopy : o = .record .snapshot → ∀ id d, s.records.inv id = some d → q d) : Filed q s' := by
  by_cases hrec : ∃ r, o = .record r
  · obtain ⟨r, rfl⟩ := hrec
    obtain ⟨hex', -⟩ := exec_record hex
    constructor
    · intro id d hd
      rcases file_exec_cases hex' with hsaved | ⟨rfl, hwritten⟩
      · rw [hsaved] at hd
        exact h.saved id d hd
      · exact h.writing _ id d hwritten hd
    · intro snap id d hsnap hd
      rcases copy_exec_cases hex' hsnap with hsnap | ⟨rfl, rfl⟩
      · exact h.writing snap id d hsnap hd
      · exact hcopy rfl id d hd
  · have hsame : s'.records = s.records := records_eq_of_ne_record (fun r ho => hrec ⟨r, ho⟩) hex
    constructor
    · rw [hsame]
      exact h.saved
    · rw [hsame]
      exact h.writing

/-- A change from outside touches no file. -/
lemma Filed.world {q : Drive → Prop} {w : World} (h : Filed q s) (hw : w.exec s = some s') :
    Filed q s' := by
  have hsame : s'.records.saved = s.records.saved ∧ s'.records.writing = s.records.writing := by
    cases w <;> cases hw <;> exact ⟨rfl, rfl⟩
  constructor
  · rw [hsame.1]
    exact h.saved
  · rw [hsame.2]
    exact h.writing

/-- After a restart the file is what it was. -/
lemma Filed.boot {q : Drive → Prop} (h : Filed q s) : Filed q s.boot :=
  ⟨h.saved, fun _ _ _ hsnap => nomatch hsnap⟩

end Op

end StormDrive
