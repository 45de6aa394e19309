import StormDrive.Daemon.Inventory
import StormDrive.Daemon.Scope
import StormDrive.Interleave.Alone

set_option relaxedAutoImplicit false
set_option autoImplicit false

/-!
# What a drive keeps of its time in the fleet

A drive leaves the fleet by REST, by the retirement that ends its drain, or because the engine does
not list it any more. What its record keeps of the drain and of what was pushed to the engine, one
tick of the fleet later, depends on the way out.

## Main definitions

* `WayOut` — the ways out of the fleet, and the section that each takes.
* `Drive.Clear` — nothing is left of the drive's time in the fleet.
* `LeavesNoResidue` — a drive that went this way is clear after one more tick.
* `WayOut.Tidy` — what the record has to be for that before it goes.

## Main results

* `exists_wayOut` — no other operation takes a drive out of the fleet.
* `leavesNoResidue_iff_tidy` — a way out leaves no residue of exactly the tidy records.
-/

namespace StormDrive

open Interleave Interleave.Prog Work

/-! ## The property -/

/-- The ways out of the fleet. -/
inductive WayOut
  /-- The end of a leave by REST, forced or not. -/
  | left
  /-- The retirement of a drained drive. -/
  | retired
  /-- The reconciliation with the engine's list. -/
  | reconciled
  deriving DecidableEq

/-- The section of the inventory that takes the drive out. -/
def WayOut.IsSection (w : WayOut) (id : DriveId) (o : RecordOp) : Prop :=
  match w with
  | left => o = .change id .left
  | retired => o = .change id .retired
  | reconciled => ∃ listed, o = .reconcile listed

/-- The drive's record after the section, when that takes it out. -/
def WayOut.after (w : WayOut) (d : Drive) : Drive :=
  match w with
  | left => d.apply .left
  | retired => d.apply .retired
  | reconciled => { d with membership := .out }

/-- A poll takes the drive up. -/
def Drive.drainRuns (d : Drive) : Bool :=
  d.drain.any fun r => r.state = "running"

/-- Nothing is left of the drive's time in the fleet. -/
structure Drive.Clear (d : Drive) : Prop where
  drain : ∀ r, d.drain = some r → r.state ≠ "running" ∧ r.state ≠ pending
  activity : d.activity ≠ .draining
  partition : d.fleetPartition = none
  labels : d.pushedLabels = []
  health : d.pushedHealth = none
  overcommit : d.pushedOvercommit = none
  thermal : d.pushedThermal = none

/-- The ways into the fleet again. -/
inductive Drive.Rejoins (d : Drive) : Drive → Prop
  | joined (labels : List (String × String)) : Rejoins d (d.apply (.joined labels))
  | enrolled (partition : Option Nat) (labels : List (String × String)) :
      Rejoins d (d.apply (.enrolled partition labels))
  | reconciled (listed : List EngineDrive) : Rejoins d (d.reconciled listed)

variable (cfg : Settings) (newV5 : String → Uuid)

/-- **Leaving leaves no residue**: when the drive has gone this way and one more tick of the fleet
has run, whatever the engine answered, its record is clear while it is out, and if it joins again no
poll and no retry takes it up. -/
def LeavesNoResidue (w : WayOut) (d : Drive) : Prop :=
  ∀ (o : RecordOp) (e : Env) (a : o.Ans) (s s₁ s₂ : State) (d₁ d₂ : Drive),
    w.IsSection d.id o → s.records.inv d.id = some d → d.membership = .fleet →
    Op.exec newV5 (.record o) e s = some (a, s₁) →
    s₁.records.inv d.id = some d₁ → d₁.membership = .out →
    Alone (Op.exec newV5) (fleetTick cfg) s₁ () s₂ →
    s₂.records.inv d.id = some d₂ → d₂.membership = .out →
    d₂.Clear ∧ ∀ d₃, d₂.Rejoins d₃ → d₃.drainRuns = false ∧ d₃.drainDue = false

/-- **What a way out leaves to be clear before it**: no drain runs or is pending, no thermal state
was pushed, and, but for a retirement, nothing else was pushed either and no drain shows. A tick
pushes the overcommit setting of a present drive on which the engine has slabs, whether it is in the
fleet or not. -/
structure WayOut.Tidy (w : WayOut) (d : Drive) : Prop where
  drain : ∀ r, d.drain = some r → r.state ≠ "running" ∧ r.state ≠ pending
  activity : w ≠ .retired → d.activity ≠ .draining
  partition : w = .reconciled → d.fleetPartition = none
  labels : w ≠ .retired → d.pushedLabels = []
  health : w ≠ .retired → d.pushedHealth = none
  overcommit : w ≠ .retired → d.pushedOvercommit = none
  thermal : d.pushedThermal = none
  slabs : cfg.stormblock = true → w = .retired ∨ d.activity ≠ .missing →
    (d.usage.any fun u => u.slabs ≠ []) = false

/-! ## The ways out -/

variable {cfg newV5}

/-- A change takes a drive out of the fleet at the end of a leave and in a retirement. -/
lemma Drive.apply_membership_out {d : Drive} {u : DriveUpdate} (hd : d.membership = .fleet)
    (hu : (d.apply u).membership = .out) : u = .left ∨ u = .retired := by
  cases u with
  | left => exact .inl rfl
  | retired => exact .inr rfl
  | _ =>
    simp only [Drive.apply, Drive.markPending] at hu
    (repeat' split at hu) <;> simp_all

/-- **The ways out of the fleet**: no other section takes a drive out. -/
theorem exists_wayOut {o : RecordOp} {e : Env} {a : o.Ans} {s s' : Records} {id : DriveId}
    {d d' : Drive} (hex : o.exec newV5 e s = some (a, s')) (hd : s.inv id = some d)
    (hd' : s'.inv id = some d') (hin : d.membership = .fleet) (hout : d'.membership = .out) :
    ∃ w : WayOut, w.IsSection id o := by
  have hid : d.id = id := Records.id_of_inv hd
  obtain ⟨d₀, hd₀, rfl⟩ | ⟨hnone, -⟩ := inv_exec_cases hex hd'
  swap
  · rw [hd] at hnone
    cases hnone
  rw [hd] at hd₀
  cases hd₀
  cases o with
  | change id' u =>
    simp only [RecordOp.onDrive] at hout
    split at hout
    · next hid' =>
      rw [← hid, hid']
      rcases Drive.apply_membership_out hin hout with rfl | rfl
      · exact ⟨.left, rfl⟩
      · exact ⟨.retired, rfl⟩
    · rw [hin] at hout
      cases hout
  | reconcile listed => exact ⟨.reconciled, listed, rfl⟩
  | merge =>
    have hkept := congrArg Drive.membership (Drive.kept_passed newV5 e.observed d)
    have hsame : (d.passed newV5 e.observed).membership = d.membership := hkept
    rw [RecordOp.onDrive, hsame, hin] at hout
    cases hout
  | recoverOrphans owned =>
    simp only [RecordOp.onDrive, Drive.recovered, Drive.idleOrphan] at hout
    split at hout
    · split at hout <;> simp_all
    · rw [hin] at hout
      cases hout
  | dropPending id' =>
    simp only [RecordOp.onDrive, Drive.apply] at hout
    (repeat' split at hout) <;> simp_all
  | setOvercommit id' oc =>
    simp only [RecordOp.onDrive, Drive.apply] at hout
    split at hout <;> simp_all
  | restoreSystem named =>
    simp only [RecordOp.onDrive, Drive.restoredSystem] at hout
    (repeat' split at hout) <;> simp_all
  | designate id' des =>
    simp only [RecordOp.onDrive] at hout
    split at hout <;> simp_all
  | _ =>
    simp only [RecordOp.onDrive] at hout
    rw [hin] at hout
    cases hout

/-- What the way out makes of the record. -/
lemma WayOut.inv_after {w : WayOut} {o : RecordOp} {e : Env} {a : o.Ans} {s s₁ : State}
    {d d₁ : Drive} (ho : w.IsSection d.id o) (hd : s.records.inv d.id = some d)
    (hin : d.membership = .fleet) (hex : Op.exec newV5 (.record o) e s = some (a, s₁))
    (hd₁ : s₁.records.inv d.id = some d₁) (hout : d₁.membership = .out) : d₁ = w.after d := by
  obtain ⟨d₀, hd₀, rfl⟩ | ⟨hnone, -⟩ := inv_exec_cases (exec_record hex).1 hd₁
  swap
  · rw [hd] at hnone
    cases hnone
  rw [hd] at hd₀
  cases hd₀
  cases w with
  | left =>
    cases ho
    exact if_pos rfl
  | retired =>
    cases ho
    exact if_pos rfl
  | reconciled =>
    obtain ⟨listed, rfl⟩ := ho
    simp only [RecordOp.onDrive] at hout ⊢
    unfold Drive.reconciled at hout ⊢
    dsimp only at hout ⊢
    split at hout
    · cases hout
    · rfl
    · rw [hin] at hout
      cases hout

/-! ## What a tick leaves -/

/-- The operation leaves the record of the drive. -/
def Op.spares (id : DriveId) : Op → Prop
  | .record (.change id' _) | .record (.dropPending id') => id' ≠ id
  | .record (.read ..) | .record .snapshot | .record .write | .query _ | .engine _ => True
  | _ => False

/-- What is done for another drive leaves the record. -/
lemma About.spares {α : Type} {id id' : DriveId} {p : Work α} (h : About id' p) (hne : id' ≠ id) :
    Only (Op.spares id) p := by
  refine h.mono fun o ho => ?_
  cases o with
  | record r =>
    cases r with
    | change id₁ u => exact fun h => hne (ho.symm.trans h)
    | dropPending id₁ => exact fun h => hne (ho.symm.trans h)
    | read site id₁ => trivial
    | snapshot => trivial
    | write => trivial
    | _ => exact False.elim ho
  | query q => trivial
  | engine r => trivial
  | _ => exact False.elim ho

/-- An operation that leaves the record leaves it. -/
lemma inv_of_spares {id : DriveId} {o : Op} {e : Env} {x : o.Ans} {s s' : State} {d : Drive}
    (ho : o.spares id) (hd : s.records.inv id = some d)
    (hex : o.exec newV5 e s = some (x, s')) : s'.records.inv id = some d := by
  have hid : d.id = id := Records.id_of_inv hd
  cases o with
  | record r =>
    have hr := (exec_record hex).1
    cases r with
    | change id' u =>
      rcases inv_exec_of_inv hr hd with h | ⟨h, -⟩
      · rw [h, RecordOp.onDrive, if_neg fun h => ho (h.symm.trans hid)]
      · cases h
    | dropPending id' =>
      rcases inv_exec_of_inv hr hd with h | ⟨h, -⟩
      · rw [h, RecordOp.onDrive, if_neg fun h => ho (h.symm.trans hid)]
      · cases h
    | read site id' =>
      rcases inv_exec_of_inv hr hd with h | ⟨h, -⟩
      · exact h
      · cases h
    | snapshot =>
      rcases inv_exec_of_inv hr hd with h | ⟨h, -⟩
      · exact h
      · cases h
    | write =>
      rcases inv_exec_of_inv hr hd with h | ⟨h, -⟩
      · exact h
      · cases h
    | _ => exact False.elim ho
  | query q =>
    rw [records_eq_of_ne_record (by simp) hex]
    exact hd
  | engine r =>
    rw [records_eq_of_ne_record (by simp) hex]
    exact hd
  | _ => exact False.elim ho

/-- A program of such operations leaves the record. -/
lemma inv_of_only_spares {α : Type} {id : DriveId} {p : Work α} {s s' : State} {a : α} {d : Drive}
    (h : Alone (Op.exec newV5) p s a s') (hp : Only (Op.spares id) p)
    (hd : s.records.inv id = some d) : s'.records.inv id = some d :=
  h.keeps hp (J := fun s => s.records.inv id = some d)
    (fun _ _ _ _ _ ho hd hex => inv_of_spares ho hd hex) hd

/-- Something that is done only when a condition holds. -/
lemma alone_when_iff {c : Prop} [Decidable c] {p : Work Unit} {s s' : State} :
    Alone (Op.exec newV5) (when c p) s () s' ↔
      c ∧ Alone (Op.exec newV5) p s () s' ∨ ¬ c ∧ s' = s := by
  unfold Work.when
  split
  · next hc => simp [hc]
  · next hc => simp [hc]

/-- A pass over the inventory changes nothing, and lists drives of it that satisfy its condition. -/
def Lists (o : RecordOp) (f : o.Ans → List Drive) (q : Drive → Bool) : Prop :=
  ∀ (newV5 : String → Uuid) (e : Env) (x : o.Ans) (r r' : Records),
    o.exec newV5 e r = some (x, r') → r' = r ∧ ∀ d ∈ f x, r.inv d.id = some d ∧ q d = true

lemma lists_due (w : Due) : Lists (.due w) id w.holds := by
  intro newV5 e x r r' hex
  cases hex
  exact ⟨rfl, fun _ hd => Records.mem_listed.mp hd⟩

lemma lists_runningDrains : Lists .runningDrains id Drive.drainRuns := by
  intro newV5 e x r r' hex
  cases hex
  exact ⟨rfl, fun _ hd => Records.mem_listed.mp hd⟩

lemma lists_dueDrains : Lists .dueDrains id Drive.drainDue := by
  intro newV5 e x r r' hex
  cases hex
  exact ⟨rfl, fun _ hd => Records.mem_listed.mp hd⟩

/-- **A pass over the inventory does not list** a drive that does not satisfy its condition. -/
lemma ne_of_lists {o : RecordOp} {f : o.Ans → List Drive} {q : Drive → Bool} (hlists : Lists o f q)
    {e : Env} {x : o.Ans} {s s' : State} {id : DriveId} {d : Drive}
    (hex : Op.exec newV5 (.record o) e s = some (x, s')) (hd : s.records.inv id = some d)
    (hq : q d = false) : s'.records.inv id = some d ∧ ∀ d' ∈ f x, d'.id ≠ id := by
  obtain ⟨hsame, hmem⟩ := hlists newV5 e x _ _ (exec_record hex).1
  refine ⟨by rw [hsame]; exact hd, fun d' hd' hid => ?_⟩
  obtain ⟨hinv, htrue⟩ := hmem d' hd'
  rw [hid, hd] at hinv
  cases hinv
  rw [hq] at htrue
  cases htrue

/-- **A part of the tick leaves the record** of a drive that it does not take. -/
lemma inv_of_part {o : RecordOp} {f : o.Ans → List Drive} {q : Drive → Bool}
    (hlists : Lists o f q) {id : DriveId} {p : o.Ans → Work Unit} {s s' : State} {d : Drive}
    (hp : ∀ x, (∀ d' ∈ f x, d'.id ≠ id) → Only (Op.spares id) (p x)) (hq : q d = false)
    (hd : s.records.inv id = some d)
    (h : Alone (Op.exec newV5) (perform (.record o) >>= p) s () s') :
    s'.records.inv id = some d := by
  obtain ⟨e, x, s₁, hex, hrest⟩ := (alone_op_bind_iff _ _ _ _ _).mp h
  obtain ⟨h₁, hne⟩ := ne_of_lists hlists hex hd hq
  exact inv_of_only_spares hrest (hp x hne) h₁

/-- A tick leaves the record: no part of it takes the drive up but the auto-add. -/
structure Drive.Quiet (d : Drive) : Prop where
  out : d.membership = .out
  drain : d.drainRuns = false
  slabs : d.activity = .missing ∨ d.carriesSlabs = false

section Parts

variable {id : DriveId} (ds : List Drive) (h : ∀ d ∈ ds, d.id ≠ id)
include h

lemma spares_pushLabels : Only (Op.spares id) (pushLabels ds) :=
  only_forAll rfl (fun _ _ => rfl) ds fun d hd => (keeping_pushLabel d).about.spares (h d hd)

lemma spares_pushOvercommit : Only (Op.spares id) (pushOvercommit ds) := by
  induction ds with
  | nil => exact only_ret _
  | cons d rest ih =>
    have hrest := ih fun d' hd' => h d' (List.mem_cons_of_mem d hd')
    refine .op_bind trivial fun r => ?_
    rcases r with why | _ | _
    · exact hrest
    · exact only_ret _
    · exact .op_bind (h d List.mem_cons_self) fun _ => hrest

lemma spares_pushThermal : Only (Op.spares id) (pushThermal ds) := by
  induction ds with
  | nil => exact only_ret _
  | cons d rest ih =>
    have hrest := ih fun d' hd' => h d' (List.mem_cons_of_mem d hd')
    refine .op_bind trivial fun r => ?_
    rcases r with why | _ | _
    · exact hrest
    · exact only_ret _
    · exact .op_bind (h d List.mem_cons_self) fun _ => hrest

lemma spares_reportAll : Only (Op.spares id) (reportAll cfg ds) :=
  only_forAll rfl (fun _ _ => rfl) ds fun d hd => (keeping_reportHealth d).about.spares (h d hd)

lemma spares_pollDrains : Only (Op.spares id) (pollDrains cfg ds) :=
  only_forAll rfl (fun _ _ => rfl) ds fun d hd => (keeping_pollDrain d).about.spares (h d hd)

lemma spares_retryPendingDrains : Only (Op.spares id) (retryPendingDrains cfg ds) := by
  induction ds with
  | nil => exact only_ret _
  | cons d rest ih =>
    refine Only.bind ((drains_requestDrain _ _ _).about.spares (h d List.mem_cons_self)) fun _ => ?_
    exact ih fun d' hd' => h d' (List.mem_cons_of_mem d hd')

end Parts

/-- The auto-add only makes members. -/
def Op.onlyJoins : Op → Prop
  | .record (.change _ (.joined _)) | .record .snapshot | .record .write | .query _ | .engine _ =>
    True
  | _ => False

lemma onlyJoins_addAll (ds : List Drive) : Only Op.onlyJoins (addAll cfg ds) :=
  only_forAll (f := fun d => do
      let ready : Bool ← perform (.query (.ready ("auto-add " ++ d.name)))
      when ready (joinAndPersist cfg d cfg.autoFormatSlab none)) rfl (fun _ _ => rfl) ds
    fun d _ => .op_bind trivial fun _ =>
      Only.when (only_joinAndPersist d (fun _ _ => trivial) trivial trivial trivial _ _)

/-- The auto-add leaves the record or makes the drive a member. -/
lemma inv_of_onlyJoins {id : DriveId} {o : Op} {e : Env} {x : o.Ans} {s s' : State} {d : Drive}
    (ho : o.onlyJoins)
    (hd : s.records.inv id = some d ∨ ∃ d', s.records.inv id = some d' ∧ d'.membership = .fleet)
    (hex : o.exec newV5 e s = some (x, s')) :
    s'.records.inv id = some d ∨
      ∃ d', s'.records.inv id = some d' ∧ d'.membership = .fleet := by
  cases o with
  | record r =>
    have hr := (exec_record hex).1
    have hsame : (∀ d', r.onDrive newV5 e d' = d') → (∀ id, r ≠ .forget id) →
        s'.records.inv id = some d ∨
          ∃ d', s'.records.inv id = some d' ∧ d'.membership = .fleet := by
      intro heq hforget
      rcases hd with hd | ⟨d', hd', hfleet⟩
      · rcases inv_exec_of_inv hr hd with h | ⟨h, -⟩
        · exact .inl (h.trans (by rw [heq]))
        · exact absurd h (hforget id)
      · rcases inv_exec_of_inv hr hd' with h | ⟨h, -⟩
        · exact .inr ⟨d', h.trans (by rw [heq]), hfleet⟩
        · exact absurd h (hforget id)
    cases r with
    | change id' u =>
      cases u with
      | joined labels =>
        have hjoined : ∀ d', s.records.inv id = some d' →
            s'.records.inv id = some (if d'.id = id' then d'.apply (.joined labels) else d') := by
          intro d' hd'
          rcases inv_exec_of_inv hr hd' with h | ⟨h, -⟩
          · exact h
          · cases h
        rcases hd with hd | ⟨d', hd', hfleet⟩
        · have h := hjoined d hd
          split at h
          · exact .inr ⟨_, h, rfl⟩
          · exact .inl h
        · refine .inr ⟨_, hjoined d' hd', ?_⟩
          split
          · rfl
          · exact hfleet
      | _ => exact False.elim ho
    | snapshot => exact hsame (fun _ => rfl) (by simp)
    | write => exact hsame (fun _ => rfl) (by simp)
    | _ => exact False.elim ho
  | query q =>
    rw [records_eq_of_ne_record (by simp) hex]
    exact hd
  | engine r =>
    rw [records_eq_of_ne_record (by simp) hex]
    exact hd
  | _ => exact False.elim ho

/-- **A tick leaves a quiet record**, unless the auto-add makes the drive a member.

**Proof sketch.** Part by part: each takes the drives that its condition holds for at its beginning,
and changes no other (`inv_of_part`). The condition of none but the auto-add holds for a quiet
record. -/
theorem inv_fleetTick {id : DriveId} {s s' : State} {d : Drive}
    (hquiet : cfg.stormblock = true → d.Quiet)
    (hd : s.records.inv id = some d) (h : Alone (Op.exec newV5) (fleetTick cfg) s () s') :
    s'.records.inv id = some d ∨
      ∃ d', s'.records.inv id = some d' ∧ d'.membership = .fleet := by
  obtain ⟨⟨⟩, s₉, htick, hpersist⟩ := (alone_bind_iff _ _ _ _ _).mp h
  suffices hend : s₉.records.inv id = some d ∨
      ∃ d', s₉.records.inv id = some d' ∧ d'.membership = .fleet by
    have hsave : Only (Op.spares id) (persist cfg) := only_persist trivial trivial
    rcases hend with hd | ⟨d', hd', hfleet⟩
    · exact .inl (inv_of_only_spares hpersist hsave hd)
    · exact .inr ⟨d', inv_of_only_spares hpersist hsave hd', hfleet⟩
  obtain ⟨hstorm, htick⟩ | ⟨-, rfl⟩ := alone_when_iff.mp htick
  swap
  · exact .inl hd
  replace hquiet := hquiet hstorm
  have hnotFleet : (d.membership = .fleet) = False := by simp [hquiet.out]
  have hcarries : ∀ b : Bool, (decide (d.activity ≠ .missing) && d.carriesSlabs && b) = false := by
    intro b
    rcases hquiet.slabs with h | h <;> simp [h]
  have hready : ∀ {what : String} {p : Work Unit} {s s' : State}, s.records.inv id = some d →
      Alone (Op.exec newV5) (do
        let ready : Bool ← perform (.query (.ready what))
        when ready p) s () s' →
      (∀ {s}, s.records.inv id = some d → Alone (Op.exec newV5) p s () s' →
        s'.records.inv id = some d) → s'.records.inv id = some d := by
    intro what p s s' hd h hp
    obtain ⟨e, ready, s₀, hex, h⟩ := (alone_op_bind_iff _ _ _ _ _).mp h
    have h₀ : s₀.records.inv id = some d := by
      rw [records_eq_of_ne_record (by simp) hex]
      exact hd
    obtain ⟨-, h⟩ | ⟨-, rfl⟩ := alone_when_iff.mp h
    · exact hp h₀ h
    · exact h₀
  obtain ⟨⟨⟩, s₁, hlabels, htick⟩ := (alone_bind_iff _ _ _ _ _).mp htick
  have h₁ : s₁.records.inv id = some d :=
    inv_of_part (lists_due .labels) spares_pushLabels (by simp [Due.holds, hnotFleet]) hd hlabels
  obtain ⟨⟨⟩, s₂, hover, htick⟩ := (alone_bind_iff _ _ _ _ _).mp htick
  have h₂ : s₂.records.inv id = some d := hready h₁ hover fun hd h =>
    inv_of_part (lists_due .overcommit) spares_pushOvercommit (hcarries _) hd h
  obtain ⟨⟨⟩, s₃, hthermal, htick⟩ := (alone_bind_iff _ _ _ _ _).mp htick
  have h₃ : s₃.records.inv id = some d := hready h₂ hthermal fun hd h =>
    inv_of_part (lists_due .thermal) spares_pushThermal (hcarries _) hd h
  obtain ⟨⟨⟩, s₄, hhealth, htick⟩ := (alone_bind_iff _ _ _ _ _).mp htick
  have h₄ : s₄.records.inv id = some d := by
    obtain ⟨-, hhealth⟩ | ⟨-, rfl⟩ := alone_when_iff.mp hhealth
    · exact inv_of_part (lists_due .health) spares_reportAll (by simp [Due.holds, hnotFleet])
        h₃ hhealth
    · exact h₃
  obtain ⟨e₅, running, s₅, hex₅, htick⟩ := (alone_op_bind_iff _ _ _ _ _).mp htick
  obtain ⟨h₅, hne₅⟩ := ne_of_lists lists_runningDrains hex₅ h₄ hquiet.drain
  obtain ⟨⟨⟩, s₆, hpolls, htick⟩ := (alone_bind_iff _ _ _ _ _).mp htick
  have h₆ := inv_of_only_spares hpolls (spares_pollDrains running hne₅) h₅
  obtain ⟨e₇, due, s₇, hex₇, htick⟩ := (alone_op_bind_iff _ _ _ _ _).mp htick
  obtain ⟨h₇, hne₇⟩ := ne_of_lists lists_dueDrains hex₇ h₆ (by simp [Drive.drainDue, hnotFleet])
  obtain ⟨⟨⟩, s₈, hretries, htick⟩ := (alone_bind_iff _ _ _ _ _).mp htick
  have h₈ := inv_of_only_spares hretries (spares_retryPendingDrains due hne₇) h₇
  obtain ⟨-, hadd⟩ | ⟨-, rfl⟩ := alone_when_iff.mp htick
  swap
  · exact .inl h₈
  obtain ⟨e₉, candidates, s₁₀, hex₉, hadd⟩ := (alone_op_bind_iff _ _ _ _ _).mp hadd
  obtain ⟨hsame, -⟩ := lists_due .add newV5 e₉ _ _ _ (exec_record hex₉).1
  refine hadd.keeps (onlyJoins_addAll candidates) (fun _ _ _ _ _ ho hd hex =>
    inv_of_onlyJoins ho hd hex) (.inl ?_)
  rw [hsame]
  exact h₈

/-! ## A tick that the engine answers so -/

/-- The drive is the only one, and the inventory is not being written. -/
structure Sole (s : State) (d : Drive) : Prop where
  ids : s.records.ids = [d.id]
  inv : s.records.inv d.id = some d
  writing : s.records.writing = none

/-- The only drive is the one that can be listed. -/
lemma Sole.listed {s : State} {d : Drive} (h : Sole s d) (p : Drive → Bool) :
    s.records.listed [] p = if p d then [d] else [] := by
  simp [Records.listed, h.ids, h.inv, List.filter_cons]

lemma Sole.listed_of_false {s : State} {d : Drive} (h : Sole s d) {p : Drive → Bool}
    (hp : p d = false) : s.records.listed [] p = [] := by
  rw [h.listed, hp]
  rfl

/-- The save takes its time, and goes through. -/
lemma Sole.persist {s : State} {d : Drive} (h : Sole s d) :
    ∃ s', Alone (Op.exec newV5) (persist cfg) s () s' ∧ s'.records.inv d.id = some d := by
  unfold StormDrive.persist
  split
  · have hsnap : (Op.record .snapshot).exec newV5 {} s =
        some ((), { s with records := s.records.copied }) := by
      simp [Op.exec, RecordOp.exec, h.writing]
    have hwrite : Alone (Op.exec newV5) (perform (.record .write))
        { s with records := s.records.copied } () { s with records := s.records.copied.written true } :=
      (alone_op_iff _ _ _ _).mpr ⟨{}, rfl⟩
    exact ⟨_, .op_seq {} () hsnap hwrite, h.inv⟩
  · exact ⟨s, .ret () s, h.inv⟩

/-- The polls of the drains fail. -/
lemma alone_pollDrains_of_error (ds : List Drive) (s : State) :
    Alone (Op.exec newV5) (pollDrains cfg ds) s () s := by
  induction ds with
  | nil => exact .ret () s
  | cons d rest ih =>
    have hpoll : Alone (Op.exec newV5) (pollDrain cfg d) s () s :=
      .op_seq { ok := false, took := false } (.error "") rfl (.ret () s)
    exact hpoll.seq ih

/-- No candidate of the auto-add is ready. -/
lemma alone_addAll_of_not_ready (ds : List Drive) (s : State) :
    Alone (Op.exec newV5) (addAll cfg ds) s () s := by
  induction ds with
  | nil => exact .ret () s
  | cons d rest ih =>
    have hskip : Alone (Op.exec newV5) (when (false = true) (joinAndPersist cfg d
        cfg.autoFormatSlab none)) s () s := .ret () s
    exact .op_seq { ok := false } false rfl (hskip.seq ih)

/-- A part of the tick that has nothing to take. -/
lemma Sole.part {s : State} {d : Drive} (h : Sole s d) {w : Due} {p : List Drive → Work Unit}
    (hw : w.holds d = false) (hp : p [] = pure ()) :
    Alone (Op.exec newV5) (perform (.record (.due w)) >>= p) s () s := by
  refine .op_seq {} (s.records.listed [] w.holds) rfl ?_
  rw [h.listed_of_false hw, hp]
  exact .ret () s

/-- **A tick in which every other request to the engine fails** leaves what the push of the
overcommit setting made of the record. -/
lemma Sole.fleetTick {s s₁ : State} {d d₁ : Drive} (hs : Sole s d) (hout : d.membership = .out)
    (hover : cfg.stormblock = true → Alone (Op.exec newV5) syncOvercommit s () s₁)
    (hskip : cfg.stormblock = false → s₁ = s) (h₁ : Sole s₁ d₁) (hout₁ : d₁.membership = .out) :
    ∃ s', Alone (Op.exec newV5) (fleetTick cfg) s () s' ∧ s'.records.inv d₁.id = some d₁ := by
  obtain ⟨s', hpersist, hinv⟩ : ∃ s', Alone (Op.exec newV5) (StormDrive.persist cfg) s₁ () s' ∧
      s'.records.inv d₁.id = some d₁ := h₁.persist
  refine ⟨s', (alone_bind_iff _ _ _ _ _).mpr ⟨(), s₁, ?_, hpersist⟩, hinv⟩
  rw [alone_when_iff]
  by_cases hstorm : cfg.stormblock = true
  swap
  · exact .inr ⟨hstorm, hskip (by simpa using hstorm)⟩
  refine .inl ⟨hstorm, ?_⟩
  have hlabels : Alone (Op.exec newV5) syncLabels s () s :=
    hs.part (by simp [Due.holds, hout]) rfl
  have hthermal : Alone (Op.exec newV5) syncThermal s₁ () s₁ :=
    .op_seq { ok := false } false rfl (.ret () s₁)
  have hhealth : Alone (Op.exec newV5) (when cfg.pushHealth (pushHealth cfg)) s₁ () s₁ := by
    rw [alone_when_iff]
    by_cases hpush : cfg.pushHealth = true
    · exact .inl ⟨hpush, h₁.part (by simp [Due.holds, hout₁]) rfl⟩
    · exact .inr ⟨hpush, rfl⟩
  have hretries : Alone (Op.exec newV5)
      (retryPendingDrains cfg (s₁.records.listed [] Drive.drainDue)) s₁ () s₁ := by
    rw [h₁.listed_of_false (by simp [Drive.drainDue, hout₁])]
    exact .ret () s₁
  have hadd : Alone (Op.exec newV5) (when cfg.autoAdd (autoAdd cfg)) s₁ () s₁ := by
    rw [alone_when_iff]
    by_cases hadd : cfg.autoAdd = true
    · exact .inl ⟨hadd, .op_seq {} (s₁.records.listed [] autoAddCandidate) rfl
        (alone_addAll_of_not_ready _ s₁)⟩
    · exact .inr ⟨hadd, rfl⟩
  refine hlabels.seq ((hover hstorm).seq (hthermal.seq (hhealth.seq ?_)))
  refine .op_seq {} (s₁.records.listed [] Drive.drainRuns) rfl ?_
  refine (alone_pollDrains_of_error _ s₁).seq ?_
  exact .op_seq {} (s₁.records.listed [] Drive.drainDue) rfl (hretries.seq hadd)

/-- A tick in which every request fails. -/
lemma Sole.failing {s : State} {d : Drive} (h : Sole s d) (hout : d.membership = .out) :
    ∃ s', Alone (Op.exec newV5) (StormDrive.fleetTick cfg) s () s' ∧
      s'.records.inv d.id = some d :=
  h.fleetTick hout (fun _ => .op_seq { ok := false } false rfl (.ret () s)) (fun _ => rfl) h hout

/-- A tick in which the engine accepts the overcommit setting. -/
lemma Sole.accepting {s : State} {d : Drive} (h : Sole s d) (hout : d.membership = .out)
    (hstorm : cfg.stormblock = true) (hdue : Due.overcommit.holds d = true) :
    ∃ s', Alone (Op.exec newV5) (StormDrive.fleetTick cfg) s () s' ∧
      s'.records.inv d.id = some (d.apply (.overcommitPushed d.overcommit)) := by
  let s₁ : State :=
    { s with
      engine := s.engine.set d.id fun r => { r with overcommit := some d.overcommit }
      records := s.records.update d.id (·.apply (.overcommitPushed d.overcommit))
        fun d' => d'.apply_id _ }
  have hinv : s₁.records.inv d.id = some (d.apply (.overcommitPushed d.overcommit)) := by
    rw [Records.update_inv, if_pos rfl, h.inv]
    rfl
  have h₁ : Sole s₁ (d.apply (.overcommitPushed d.overcommit)) := ⟨h.ids, hinv, h.writing⟩
  refine h.fleetTick hout (fun _ => ?_) (fun hno => ?_) h₁ hout
  · refine .op_seq {} true rfl (.op_seq {} (s.records.listed [] Due.overcommit.holds) rfl ?_)
    rw [h.listed, hdue]
    exact .op_seq {} (.ok true) rfl (.op_seq {} _ rfl (.ret () s₁))
  · rw [hno] at hstorm
    cases hstorm

/-! ## The results -/

variable {w : WayOut} {d : Drive}

/-- A tidy record is clear when the drive is out. -/
lemma WayOut.Tidy.clear_after (h : w.Tidy cfg d) : (w.after d).Clear := by
  have hdrain := h.drain
  have hthermal := h.thermal
  cases w with
  | left =>
    exact ⟨hdrain, h.activity nofun, rfl, h.labels nofun, h.health nofun, h.overcommit nofun,
      hthermal⟩
  | retired => exact ⟨hdrain, nofun, rfl, rfl, rfl, rfl, hthermal⟩
  | reconciled =>
    exact ⟨hdrain, h.activity nofun, h.partition rfl, h.labels nofun, h.health nofun,
      h.overcommit nofun, hthermal⟩

/-- A clear record has no drain that a poll takes up. -/
lemma Drive.Clear.drainRuns (h : d.Clear) : d.drainRuns = false := by
  unfold Drive.drainRuns
  cases hr : d.drain with
  | none => rfl
  | some r => simpa using (h.drain r hr).1

/-- A tidy record is quiet when the drive is out. -/
lemma WayOut.Tidy.quiet_after (h : w.Tidy cfg d) (hstorm : cfg.stormblock = true) :
    (w.after d).Quiet := by
  have hslabs := h.slabs hstorm
  refine ⟨by cases w <;> rfl, h.clear_after.drainRuns, ?_⟩
  by_cases hmissing : (w.after d).activity = .missing
  · exact .inl hmissing
  · refine .inr ?_
    have hno : (d.usage.any fun u => u.slabs ≠ []) = false := by
      refine hslabs ?_
      cases w with
      | retired => exact .inl rfl
      | left => exact .inr hmissing
      | reconciled => exact .inr hmissing
    have hout : (w.after d).membership = .out := by cases w <;> rfl
    have husage : (w.after d).usage = d.usage := by cases w <;> rfl
    rw [Drive.carriesSlabs, hout, husage, hno]
    rfl

/-- A clear drive that joins again is taken up by no poll and no retry. -/
lemma Drive.Clear.not_drained_again (h : d.Clear) {d' : Drive} (hd' : d.Rejoins d') :
    d'.drainRuns = false ∧ d'.drainDue = false := by
  have hnot : ∀ d'' : Drive, d''.drain = d.drain →
      d''.drainRuns = false ∧ d''.drainDue = false := by
    intro d'' hsame
    unfold Drive.drainRuns Drive.drainDue
    rw [hsame]
    cases hr : d.drain with
    | none => simp
    | some r =>
      obtain ⟨hrun, hpend⟩ := h.drain r hr
      simp [hrun, hpend]
  cases hd' with
  | joined labels => simp [Drive.drainRuns, Drive.drainDue, Drive.apply]
  | enrolled partition labels => simp [Drive.drainRuns, Drive.drainDue, Drive.apply]
  | reconciled listed =>
    refine hnot _ ?_
    unfold Drive.reconciled
    dsimp only
    split <;> rfl

/-- A tidy record leaves no residue. -/
lemma leavesNoResidue_of_tidy (h : d.membership = .fleet → w.Tidy cfg d) :
    LeavesNoResidue cfg newV5 w d := by
  intro o e a s s₁ s₂ d₁ d₂ ho hd hin hex hd₁ hout htick hd₂ hout₂
  have htidy := h hin
  obtain rfl := WayOut.inv_after ho hd hin hex hd₁ hout
  have hsame : d₂ = w.after d := by
    rcases inv_fleetTick htidy.quiet_after hd₁ htick with h | ⟨d', hd', hfleet⟩
    · exact Option.some.inj (hd₂.symm.trans h)
    · rw [hd₂] at hd'
      cases hd'
      rw [hout₂] at hfleet
      cases hfleet
  rw [hsame]
  exact ⟨htidy.clear_after, fun d₃ hd₃ => htidy.clear_after.not_drained_again hd₃⟩

/-- The way out, taken by the only drive. -/
lemma exists_sole_after (w : WayOut) (d : Drive) (hin : d.membership = .fleet) :
    ∃ (o : RecordOp) (a : o.Ans) (s₁ : State), w.IsSection d.id o ∧
      Op.exec newV5 (.record o) {} (State.sole d) = some (a, s₁) ∧ Sole s₁ (w.after d) := by
  have hd : (State.sole d).records.inv d.id = some d := if_pos rfl
  have hid : (w.after d).id = d.id := by cases w <;> rfl
  cases w with
  | left =>
    refine ⟨.change d.id .left, _, _, rfl, rfl, rfl, ?_, rfl⟩
    dsimp only
    rw [hid, Records.update_inv, if_pos rfl, hd]
    rfl
  | retired =>
    refine ⟨.change d.id .retired, _, _, rfl, rfl, rfl, ?_, rfl⟩
    dsimp only
    rw [hid, Records.update_inv, if_pos rfl, hd]
    rfl
  | reconciled =>
    refine ⟨.reconcile [], _, _, ⟨[], rfl⟩, rfl, rfl, ?_, rfl⟩
    dsimp only
    rw [hid, Records.updateAll_inv, hd]
    simp [Drive.reconciled, hin, WayOut.after]

/-- A record that leaves no residue is tidy. -/
lemma tidy_of_leavesNoResidue (h : LeavesNoResidue cfg newV5 w d) (hin : d.membership = .fleet) :
    w.Tidy cfg d := by
  obtain ⟨o, a, s₁, ho, hex, hsole⟩ : ∃ (o : RecordOp) (a : o.Ans) (s₁ : State),
      w.IsSection d.id o ∧ Op.exec newV5 (.record o) {} (State.sole d) = some (a, s₁) ∧
        Sole s₁ (w.after d) := exists_sole_after w d hin
  have hid : (w.after d).id = d.id := by cases w <;> rfl
  have hout : (w.after d).membership = .out := by cases w <;> rfl
  have hend : ∀ s₂ d₂, Alone (Op.exec newV5) (fleetTick cfg) s₁ () s₂ →
      s₂.records.inv (w.after d).id = some d₂ → d₂.membership = .out → d₂.Clear := by
    intro s₂ d₂ htick hd₂ hout₂
    exact (h o {} a (State.sole d) s₁ s₂ (w.after d) d₂ ho (if_pos rfl) hin hex
      (hid ▸ hsole.inv) hout htick (hid ▸ hd₂) hout₂).1
  have hclear : (w.after d).Clear := by
    obtain ⟨s₂, htick, hd₂⟩ : ∃ s₂, Alone (Op.exec newV5) (fleetTick cfg) s₁ () s₂ ∧
        s₂.records.inv (w.after d).id = some (w.after d) := hsole.failing hout
    exact hend s₂ _ htick hd₂ hout
  have hslabs : cfg.stormblock = true → (w.after d).activity ≠ .missing →
      (d.usage.any fun u => u.slabs ≠ []) = false := by
    intro hstorm hpresent
    by_contra hany
    rw [Bool.not_eq_false] at hany
    have husage : (w.after d).usage = d.usage := by cases w <;> rfl
    have hdue : Due.overcommit.holds (w.after d) = true := by
      simp only [Due.holds, Drive.carriesSlabs, husage, hany, hclear.overcommit]
      simp [hpresent]
    obtain ⟨s₂, htick, hd₂⟩ : ∃ s₂, Alone (Op.exec newV5) (fleetTick cfg) s₁ () s₂ ∧
        s₂.records.inv (w.after d).id =
          some ((w.after d).apply (.overcommitPushed (w.after d).overcommit)) :=
      hsole.accepting hout hstorm hdue
    have hpushed := (hend s₂ _ htick hd₂ hout).overcommit
    cases hpushed
  cases w with
  | left =>
    exact ⟨hclear.drain, fun _ => hclear.activity, nofun, fun _ => hclear.labels,
      fun _ => hclear.health, fun _ => hclear.overcommit, hclear.thermal,
      fun hstorm hor => hslabs hstorm (hor.resolve_left nofun)⟩
  | retired =>
    exact ⟨hclear.drain, fun hno => absurd rfl hno, nofun, fun hno => absurd rfl hno,
      fun hno => absurd rfl hno, fun hno => absurd rfl hno, hclear.thermal,
      fun hstorm _ => hslabs hstorm nofun⟩
  | reconciled =>
    exact ⟨hclear.drain, fun _ => hclear.activity, fun _ => hclear.partition,
      fun _ => hclear.labels, fun _ => hclear.health, fun _ => hclear.overcommit,
      hclear.thermal, fun hstorm hor => hslabs hstorm (hor.resolve_left nofun)⟩

/-- **A way out leaves no residue of exactly the tidy records.**

**Proof sketch.** A tidy record is clear once the drive is out, and no part of a tick takes it up
(`inv_fleetTick`). Conversely a tick in which every request to the engine fails leaves the record as
the way out made it (`Sole.failing`), and one in which the engine accepts an overcommit setting
writes it into the record of a drive that has slabs (`Sole.accepting`). -/
theorem leavesNoResidue_iff_tidy (cfg : Settings) (newV5 : String → Uuid) (w : WayOut) (d : Drive) :
    LeavesNoResidue cfg newV5 w d ↔ (d.membership = .fleet → w.Tidy cfg d) :=
  ⟨tidy_of_leavesNoResidue, leavesNoResidue_of_tidy⟩

/-- **Not every record is tidy**: a drive that leaves by REST while its drain runs is still polled,
and can be retired when it has joined again. -/
theorem running_drain_survives_leave :
    ¬ LeavesNoResidue {} (fun _ => ⟨0⟩) .left
      { Drive.testFixture ⟨⟨7⟩⟩ "sdb" with
        membership := .fleet, activity := .draining
        drain := some { state := "running", reason := "leave", thenLeave := true } } := by
  intro h
  exact ((tidy_of_leavesNoResidue h rfl).drain _ rfl).1 rfl

end StormDrive
