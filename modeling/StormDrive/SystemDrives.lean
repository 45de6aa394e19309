import StormDrive.Daemon.Inventory
import StormDrive.Daemon.Rules

set_option relaxedAutoImplicit false
set_option autoImplicit false

/-!
# System drives and the fleet

A drive designated system takes the system half of an install, so it is not handed to the engine
as data. A join, and an enrolment with a data slab, look at the designation once, on a copy of the
record, and write the membership after several answers of the engine; the designation is checked
against the membership where it is written.

## Main definitions

* `Entering` — the drives that a task has found fit for the fleet and may still put into it.
* `NeverAsData` — a system drive is not joined nor enrolled as data, and a drive of the fleet does
  not become one.
* `DesignatedApart` — the label is written for drives that no task is putting into the fleet.

## Main results

* `enterings_entry` — every task puts into the fleet only what it has found fit.
* `neverAsData_of_apart` — with labels written so, a system drive is never handed over as data.

## Implementation notes

A task that has ended has nothing in hand: the marks follow `auto_add` through its candidates, and
let a drive go when the engine refuses, when the membership is written or when the step has ended.
-/

namespace StormDrive

open Interleave Interleave.Prog Work

/-! ## What a task may put into the fleet -/

/-- What a task has found fit for the fleet as data. -/
inductive Entering
  | idle
  /-- It serves a join by REST, before it has read the record. -/
  | asked
  /-- It serves a PATCH with a join, before it has read the record. -/
  | patching
  /-- A join by REST found the record fit, and reads the drive. -/
  | probing (id : DriveId)
  /-- The candidates of `auto_add` that are still to come. -/
  | candidates (l : List DriveId)
  /-- It joins the drive; the others are still to come. -/
  | joining (id : DriveId) (l : List DriveId)
  /-- It is a task for a part of a job. -/
  | worker
  /-- It takes a part through the steps. -/
  | part (steps : List Step)
  /-- The step is due. -/
  | due (steps : List Step) (step : Step)
  /-- The step is approved; a data enrolment has its drive in hand. -/
  | carrying (steps : List Step) (step : Step) (l : List DriveId)
  deriving DecidableEq

namespace Entering

/-- The drives that the task may still put into the fleet as data. -/
def ids : Entering → List DriveId
  | probing id => [id]
  | candidates l | carrying _ _ l => l
  | joining id l => id :: l
  | _ => []

/-- The task carries out a step that enrols with a data slab. -/
def asData : Entering → Bool
  | carrying _ (.enroll _ .data) _ => true
  | _ => false

variable (cfg : Settings)

/-- The task has read a record. -/
def found (m : Entering) (d : Drive) : Entering :=
  let fit := cfg.stormblock && d.fleetJoinBlocker.isNone
  match m with
  | asked => if fit then probing d.id else idle
  | patching => if fit then joining d.id [] else idle
  | m => m

/-- The task has read a drive. -/
def probed (m : Entering) (disk : FreshDisk) : Entering :=
  match m with
  | probing id => if (Fresh.probe ⟨disk, ""⟩).isNone then joining id [] else idle
  | m => m

/-- The next candidate joins, or is passed over. -/
def turned (m : Entering) (go : Bool) : Entering :=
  match m with
  | candidates (id :: l) => if go then joining id l else candidates l
  | m => m

/-- The task has polled its part, which stands at a step. -/
def polled (m : Entering) (k : Nat) : Entering :=
  match m with
  | part steps =>
    match steps[k]? with
    | some step => due steps step
    | none => part steps
  | m => m

/-- The task has read the record that the guard decides on. -/
def approved (m : Entering) (d : Drive) : Entering :=
  match m with
  | due steps (.enroll tier .data) =>
    carrying steps (.enroll tier .data) (if d.designation = .system then [] else [d.id])
  | due steps step => carrying steps step []
  | m => m

/-- The drive is in the fleet, or does not get there. -/
def released : Entering → Entering
  | joining _ l => candidates l
  | carrying steps step _ => carrying steps step []
  | m => m

/-- The step has ended. -/
def stepped : Entering → Entering
  | due steps _ | carrying steps _ _ => part steps
  | m => m

end Entering

/-- The change ends a step of the part, or the part. -/
def DjUpdate.endsStep : DjUpdate → Bool
  | .stepDone _ | .finish | .cancel | .fail _ | .interrupt _ => true
  | _ => false

/-- A task after an operation. -/
def Entering.next (cfg : Settings) (m : Entering) : (op : Op) → op.Ans → Entering
  | .record (.read .other _), some d => m.found cfg d
  | .record (.read .approval _), some d => m.approved d
  | .record (.due .add), l => .candidates (l.map Drive.id)
  | .record (.change _ (.joined _)), _ | .record (.change _ (.enrolled ..)), _ => m.released
  | .record (.designate ..), .error _ => m.released
  | .query (.disk _), disk => m.probed disk
  | .query (.ready _), go => m.turned go
  | .job (.head ..), some x => if m = .worker then .part x.1 else m
  | .job (.poll ..), some x => m.polled x.1
  | .job (.change _ _ u), _ => if u.endsStep then m.stepped else m
  | .engine o, a => if o.failed a then m.released else m
  | _, _ => m

section Next

variable (cfg : Settings) (m : Entering)

lemma Entering.next_read (id : DriveId) (d : Drive) :
    m.next cfg (.record (.read .other id)) (some d) = m.found cfg d := rfl

lemma Entering.next_disk (path : String) (disk : FreshDisk) :
    m.next cfg (.query (.disk path)) disk = m.probed disk := rfl

lemma Entering.next_head (job : JobId) (idx : ℕ) (x : List Step × DriveId × Bool × Bool) :
    m.next cfg (.job (.head job idx)) (some x) = if m = .worker then .part x.1 else m := rfl

lemma Entering.next_poll (job : JobId) (idx : ℕ) (x : ℕ × Bool × DjState) :
    m.next cfg (.job (.poll job idx)) (some x) = m.polled x.1 := rfl

lemma Entering.next_changeJob (job : JobId) (idx : ℕ) (u : DjUpdate) (x : Option DriveJob) :
    m.next cfg (.job (.change job idx u)) x = if u.endsStep then m.stepped else m := rfl

lemma Entering.next_engine (o : EngineOp) (x : o.Ans) :
    m.next cfg (.engine o) x = if o.failed x then m.released else m := rfl

end Next

/-- A task that begins with a request. -/
def Entering.of : Req → Entering
  | .fleetJoin .. => asked
  | .patchDrive _ patch => if patch.fleet = some .join then patching else idle
  | .runDrive .. => worker
  | .driveLoop _ _ steps .. => part steps
  | _ => idle

/-- How the drives in hand move. -/
def enteringTracer (cfg : Settings) : Tracer Op Op.Ans Req Entering where
  fresh := Entering.of
  next := Entering.next cfg
  child _ := Entering.of

/-- **A drive is put into the fleet by a task that has found it fit**, or by an enrolment with a
system slab. -/
def Entering.may (m : Entering) : Op → Prop
  | .record (.change id (.joined _)) => ∃ l, m = .joining id l
  | .record (.change id (.enrolled ..)) => id ∈ m.ids ∨ m.asData = false
  | _ => True

/-- The protocol of the fleet's entrances. -/
def enteringProtocol (cfg : Settings) : Protocol Op Op.Ans Req Entering where
  toTracer := enteringTracer cfg
  may := Entering.may
  gives _ _ _ := True
  ready r m := m = Entering.of r

/-! ## Every task keeps to the protocol -/

section Entry

variable {cfg : Settings} {α : Type} {m : Entering}

/-- What has nothing to do with the fleet leaves a task without anything in hand. -/
lemma overlooks_idle : Overlooks (enteringProtocol cfg) .idle := by
  constructor
  · intro o ho
    cases o with
    | record r =>
      cases r with
      | change id u => cases u <;> trivial
      | _ => trivial
    | engine r => cases ho
    | _ => trivial
  · intro o x ho
    cases o with
    | record r =>
      cases r with
      | change id u => cases u <;> rfl
      | read site id => cases site <;> cases x <;> rfl
      | due w => cases ho
      | designate id des => cases ho
      | _ => rfl
    | engine r => cases ho
    | job r =>
      cases r with
      | head job idx => cases x <;> rfl
      | poll job idx => cases x <;> rfl
      | change job idx u => cases u <;> rfl
      | _ => rfl
    | query r => cases r <;> rfl
    | _ => rfl

/-- Work off the fleet is allowed at every mark. -/
lemma wp_entering_offFleet {p : Work α} (hp : OffFleet p) :
    wp (enteringProtocol cfg) p (fun _ _ => True) m := by
  refine wp_of_may _ hp fun o m' ho => ?_
  cases o with
  | record r =>
    cases r with
    | change id u => cases u <;> trivial
    | _ => trivial
  | engine r => cases ho
  | _ => trivial

/-- What is done for the fleet's drives leaves a task without anything in hand. -/
lemma back_entering_of_member {q : Work α} (hq : OfMember q) :
    Back (enteringProtocol cfg) .idle q := by
  refine wp_of_only _ hq (fun o ho => ?_) (fun o x ho => ?_) fun _ => rfl
  · obtain ⟨id, ho⟩ := ho
    cases o with
    | record r =>
      cases r with
      | change id' u => cases u <;> first | trivial | cases ho.2
      | _ => trivial
    | _ => trivial
  · obtain ⟨id, ho⟩ := ho
    cases o with
    | record r =>
      cases r with
      | change id' u => cases u <;> rfl
      | read site id' => cases site <;> cases x <;> rfl
      | _ => first | rfl | exact False.elim ho
    | engine r =>
      simp only [enteringProtocol, enteringTracer, Entering.next_engine]
      split <;> rfl
    | _ => exact False.elim ho

/-- A drain leaves what is in hand, once the task has read its record. -/
lemma wp_entering_of_drains {q : Work α} {id : DriveId} {Q : α → Entering → Prop}
    (hm : ∀ d, m.found cfg d = m) (hq : Drains id q) (hQ : ∀ a, Q a m) :
    wp (enteringProtocol cfg) q Q m := by
  refine wp_of_only _ hq (fun o ho => ?_) (fun o x ho => ?_) hQ
  · cases o with
    | record r =>
      cases r with
      | change id' u => cases u <;> trivial
      | _ => trivial
    | _ => trivial
  · cases o with
    | record r =>
      cases r with
      | change id' u => cases u <;> first | rfl | exact False.elim ho
      | read site id' =>
        cases site with
        | approval => exact False.elim ho
        | other =>
          cases x with
          | none => rfl
          | some d => exact hm d
      | _ => first | rfl | exact False.elim ho
    | engine r => cases r <;> first | rfl | exact False.elim ho
    | _ => exact False.elim ho

lemma wp_entering_persist {Q : Unit → Entering → Prop} (hQ : Q () m) :
    wp (enteringProtocol cfg) (persist cfg) Q m := by
  unfold persist
  split
  · exact ⟨trivial, fun _ _ => ⟨trivial, fun _ _ => hQ⟩⟩
  · exact hQ

/-! ### Joins -/

/-- **A join puts in the drive that its task has found fit**, and has it in hand no more. -/
lemma wp_entering_join {d : Drive} {l : List DriveId} (formatSlab : Bool) (tier : Option String) :
    wp (enteringProtocol cfg) (join cfg d formatSlab tier) (fun _ m' => m' = .candidates l)
      (.joining d.id l) := by
  refine wp_andThen ⟨trivial, fun r _ => ?_⟩
  cases r with
  | error why => rfl
  | ok listed =>
    have hend : ∀ b, wp (enteringProtocol cfg) (do
        let _ ← changeDrive d.id (.joined d.stormblockLabels)
        pure (.ok (if b = true then some (tier.getD (cfg.tierFor d.kind)) else none)))
        (fun (_ : Except String (Option String)) m' => m' = .candidates l) (.joining d.id l) :=
      fun b => wp_op_bind _ ⟨l, rfl⟩ fun _ _ => rfl
    have hslab : wp (enteringProtocol cfg) (andThen (if formatSlab = true then
        slabInEngine d.path (tier.getD (cfg.tierFor d.kind)) none else pure (.ok false))
        fun formatted => do
          let _ ← changeDrive d.id (.joined d.stormblockLabels)
          pure (.ok (if formatted = true then some (tier.getD (cfg.tierFor d.kind)) else none)))
        (fun (_ : Except String (Option String)) m' => m' = .candidates l) (.joining d.id l) := by
      refine wp_andThen (wp_ite (fun _ => ?_) fun _ => hend false)
      refine wp_op_bind _ trivial fun slabs _ => ?_
      have hstay : (enteringProtocol cfg).next (.joining d.id l) (.engine (.driveSlabs d.path))
          slabs = .joining d.id l := by cases slabs <;> rfl
      rw [hstay]
      refine wp_ite (fun _ => wp_andThen ⟨trivial, fun r _ => ?_⟩) fun _ => hend false
      cases r with
      | ok _ => exact hend true
      | error why => rfl
    refine wp_andThen (wp_ite (fun _ => ⟨trivial, fun r _ => ?_⟩) fun _ => ⟨trivial, fun r _ => ?_⟩)
    · cases r with
      | ok _ => exact hslab
      | error why => rfl
    · cases r with
      | ok _ => exact hslab
      | error why => rfl

lemma wp_entering_joinAndPersist {d : Drive} {l : List DriveId} (formatSlab : Bool)
    (tier : Option String) :
    wp (enteringProtocol cfg) (joinAndPersist cfg d formatSlab tier)
      (fun _ m' => m' = .candidates l) (.joining d.id l) := by
  refine wp_seq _ (wp_mono _ (fun r m' hm => ?_) (wp_entering_join formatSlab tier))
  cases r with
  | ok _ => exact wp_entering_persist hm
  | error why => exact hm

/-- **`auto_add` goes through its candidates.** -/
lemma wp_entering_addAll (ds : List Drive) :
    wp (enteringProtocol cfg) (addAll cfg ds) (fun _ _ => True)
      (.candidates (ds.map Drive.id)) := by
  induction ds with
  | nil => trivial
  | cons d rest ih =>
    refine wp_op_bind _ trivial fun ready _ => wp_seq _ ?_
    cases ready with
    | false => exact ih
    | true =>
      refine wp_mono _ (fun _ m' hm => ?_)
        (wp_entering_joinAndPersist (l := rest.map Drive.id) cfg.autoFormatSlab none)
      rw [hm]
      exact ih

lemma wp_entering_fleetTick :
    wp (enteringProtocol cfg) (fleetTick cfg) (fun _ _ => True) .idle := by
  refine wp_fleetTick overlooks_idle (fun o ho hne => ?_)
    (fun d => back_entering_of_member (keeping_pushLabel d).ofMember)
    (fun ds => back_entering_of_member (ofMember_pushOvercommit ds))
    (fun ds => back_entering_of_member (ofMember_pushThermal ds))
    (fun d => back_entering_of_member (keeping_reportHealth d).ofMember)
    (fun d => back_entering_of_member (keeping_pollDrain d).ofMember)
    (fun id _ _ => back_entering_of_member (drains_requestDrain id _ _).keeping.ofMember) ?_
    (wp_entering_persist trivial)
  · cases o with
    | record r =>
      cases r with
      | due w => cases w <;> first | exact ⟨trivial, fun _ => rfl⟩ | exact absurd rfl hne
      | _ => first | exact ⟨trivial, fun _ => rfl⟩ | cases ho
    | _ => cases ho
  · refine wp_op_bind _ trivial fun ds _ => ?_
    exact wp_mono _ (fun _ _ _ => wp_entering_persist trivial) (wp_entering_addAll ds)

/-- **A join by REST** finds the record fit, and then the drive. -/
lemma wp_entering_fleetJoin (id : DriveId) (formatSlab : Bool) (tier : Option String) :
    wp (enteringProtocol cfg) (fleetJoin cfg id formatSlab tier) (fun _ _ => True) .asked := by
  refine wp_op_bind _ trivial fun r _ => ?_
  cases r with
  | none => trivial
  | some d =>
    refine wp_op_bind _ trivial fun disk _ => wp_ite (fun _ => trivial) fun hfit => ?_
    rw [not_or, Bool.not_eq_false, Option.not_isSome_iff_eq_none] at hfit
    obtain ⟨hstorm, hrefusal⟩ := hfit
    rw [joinRefusal, Option.orElse_eq_none, Option.map_eq_none_iff, Option.map_eq_none_iff] at hrefusal
    have hmark : (enteringProtocol cfg).next ((enteringProtocol cfg).next .asked
        (.record (.read .other id)) (some d)) (.query (.disk d.path)) disk = .joining d.id [] := by
      simp [enteringProtocol, enteringTracer, Entering.next_read, Entering.next_disk,
        Entering.found, Entering.probed, hstorm, hrefusal.1, hrefusal.2]
    rw [hmark]
    exact wp_mono _ (fun _ _ _ => trivial) (wp_entering_joinAndPersist formatSlab tier)

/-! ### The other tasks of the fleet -/

lemma wp_entering_setDesignation (id : DriveId) (des : Designation) :
    wp (enteringProtocol cfg) (setDesignation cfg id des) (fun _ _ => True) .idle := by
  refine wp_op_bind _ trivial fun r _ => ?_
  cases r with
  | error why => trivial
  | ok out =>
    refine Back.seq (wp_when (fun _ => ?_) fun _ => rfl) fun _ => ?_
    · refine (back_entering_of_member (keeping_reportFailed id).ofMember).seq fun _ => ?_
      refine wp_when (fun _ => wp_ignore ?_) fun _ => rfl
      exact back_entering_of_member (drains_requestDrain _ _ _).keeping.ofMember
    · have hsync : Back (enteringProtocol cfg) .idle systemSync :=
        wp_op_bind _ trivial fun _ _ => ⟨trivial, fun _ _ => rfl⟩
      exact Back.seq (wp_when (fun _ => hsync) fun _ => rfl) fun _ => wp_entering_persist trivial

/-- The designation of a PATCH leaves what is in hand, unless it ends the PATCH. -/
lemma wp_entering_patchDesignation (hm : ∀ d, m.found cfg d = m) (d : Drive) (des : Designation) :
    wp (enteringProtocol cfg) (patchDesignation cfg d des)
      (fun r m' => (∃ why, r = .error why) ∨ m' = m) m := by
  refine wp_andThen ⟨trivial, fun r _ => ?_⟩
  cases r with
  | error why => exact .inl ⟨why, rfl⟩
  | ok out =>
    have hend : wp (enteringProtocol cfg)
        (if des = .failed ∧ d.membership = .fleet ∧ cfg.stormblock = true then do
          let _ : Except String Unit ←
            perform (.engine (.reportHealth d.stormblockPath "failed" d.id))
          let _ ← changeDrive d.id (.healthPushed "failed")
          if cfg.drainOnFailing then requestDrain cfg d.id "operator" true else pure (.ok ())
        else pure (.ok ())) (fun r m' => (∃ why, r = .error why) ∨ m' = m) m := by
      refine wp_ite (fun _ => wp_op_bind _ trivial fun r _ => ?_) fun _ => .inr rfl
      have hstay : (enteringProtocol cfg).next m
          (.engine (.reportHealth d.stormblockPath "failed" d.id)) r = m := rfl
      rw [hstay]
      refine wp_op_bind _ trivial fun _ _ => wp_ite (fun _ => ?_) fun _ => .inr rfl
      exact wp_entering_of_drains hm (drains_requestDrain _ _ _) fun _ => .inr rfl
    refine wp_seq _ (wp_when (fun _ => ?_) fun _ => hend)
    exact wp_op_bind _ trivial fun _ _ => ⟨trivial, fun _ _ => hend⟩

/-- The fleet of a PATCH: a join puts in the drive that was found fit. -/
lemma wp_entering_patchFleet (hm : ∀ d, m.found cfg d = m) (d : Drive) (fleet : FleetPatch)
    (hjoin : fleet = .join → cfg.stormblock = true → d.fleetJoinBlocker = none →
      m = .joining d.id []) :
    wp (enteringProtocol cfg) (patchFleet cfg d fleet)
      (fun _ m' => ∀ d, m'.found cfg d = m') m := by
  refine wp_ite (fun _ => hm) fun hstorm => ?_
  rw [Bool.not_eq_false] at hstorm
  cases fleet with
  | leave =>
    exact wp_ite (fun _ => wp_entering_of_drains hm (drains_startDrain _ _ _) fun _ => hm)
      fun _ => hm
  | join =>
    dsimp only
    split
    · exact wp_ite (fun _ => hm) fun _ => hm
    · next hfit =>
      rw [hjoin rfl hstorm hfit]
      refine wp_andThen (wp_mono _ (fun r m' hm' => ?_) (wp_entering_join _ _))
      subst hm'
      cases r with
      | ok _ => exact fun _ => rfl
      | error why => exact fun _ => rfl

lemma wp_entering_patchDrive (id : DriveId) (patch : DriveSpecPatch) :
    wp (enteringProtocol cfg) (patchDrive cfg id patch) (fun _ _ => True)
      (.of (.patchDrive id patch)) := by
  refine wp_op_bind _ trivial fun r _ => ?_
  cases r with
  | none => trivial
  | some d =>
    obtain ⟨m, hm, hfound, hjoin⟩ : ∃ m, (Entering.of (.patchDrive id patch)).found cfg d = m ∧
        (∀ d, m.found cfg d = m) ∧ (patch.fleet = some .join → cfg.stormblock = true →
          d.fleetJoinBlocker = none → m = .joining d.id []) := by
      by_cases hfleet : patch.fleet = some .join
      · by_cases hfit : (cfg.stormblock && d.fleetJoinBlocker.isNone) = true
        · refine ⟨.joining d.id [], ?_, fun _ => rfl, fun _ _ _ => rfl⟩
          simp [Entering.of, Entering.found, hfleet, hfit]
        · refine ⟨.idle, ?_, fun _ => rfl, fun _ hstorm hnone => absurd ?_ hfit⟩
          · simp only [Entering.of, Entering.found, if_pos hfleet, if_neg hfit]
          · simp [hstorm, hnone]
      · refine ⟨.idle, ?_, fun _ => rfl, fun h => absurd h hfleet⟩
        simp only [Entering.of, Entering.found, if_neg hfleet]
    have hnext : (enteringProtocol cfg).next (.of (.patchDrive id patch))
        (.record (.read .other id)) (some d) = m := hm
    rw [hnext]
    have hdrain : ∀ {m' : Entering}, (∀ d, m'.found cfg d = m') →
        wp (enteringProtocol cfg) (andThen (patchPart patch.drain (patchDrain cfg d)) fun _ => do
          persist cfg
          pure (.ok ())) (fun _ _ => True) m' := by
      intro m' hm'
      have hsave : wp (enteringProtocol cfg) (do
          persist cfg
          pure (.ok ())) (fun (_ : Except String Unit) _ => True) m' :=
        wp_seq _ (wp_entering_persist trivial)
      refine wp_andThen (wp_mono _ (fun r m'' hm'' => ?_) (?_ : Back _ m' _))
      · subst hm''
        cases r with
        | ok _ => exact hsave
        | error why => trivial
      · cases patch.drain with
        | none => rfl
        | some drain =>
          exact wp_ite (fun _ => wp_entering_of_drains hm' (drains_startDrain _ _ _) fun _ => rfl)
            fun _ => wp_ite (fun _ => wp_entering_of_drains hm' (drains_cancelDrain _) fun _ => rfl)
              fun _ => rfl
    have hfleet : wp (enteringProtocol cfg) (andThen (patchPart patch.fleet (patchFleet cfg d))
        fun _ => andThen (patchPart patch.drain (patchDrain cfg d)) fun _ => do
          persist cfg
          pure (.ok ())) (fun _ _ => True) m := by
      refine wp_andThen (wp_mono _ (fun r m' hm' => ?_) (?_ : wp _ _ (fun _ m' => ∀ d,
        m'.found cfg d = m') m))
      · cases r with
        | ok _ => exact hdrain hm'
        | error why => trivial
      · cases hp : patch.fleet with
        | none => exact hfound
        | some fleet =>
          exact wp_entering_patchFleet hfound d fleet fun h => hjoin (hp.trans (congrArg some h))
    refine wp_andThen (wp_mono _ (fun r m' hm' => ?_) (?_ : wp _ _ (fun r m' =>
      (∃ why, r = .error why) ∨ m' = m) m))
    · rcases hm' with ⟨why, rfl⟩ | rfl
      · trivial
      · cases r with
        | ok _ => exact hfleet
        | error why => trivial
    · cases patch.designation with
      | none => exact .inr rfl
      | some des => exact wp_entering_patchDesignation hfound d des

/-! ### Enrolments -/

section Enrol

variable {job : JobId} {idx k : Nat} {steps : List Step} {step : Step} {id : DriveId} {d : Drive}
  {dn un : Bool} {l : List DriveId}

/-- The task still carries out the step. -/
def Entering.Carries (steps : List Step) (step : Step) (m : Entering) : Prop :=
  ∃ l, m = .carrying steps step l

/-- **An enrolment puts in the drive that was found fit**, or lays a system slab. -/
lemma wp_entering_stepEnroll {tier : Option String} {role : Role}
    (hl : role = .data → d.id ∈ l) :
    wp (enteringProtocol cfg) (stepEnroll cfg d tier role steps)
      (fun _ => Entering.Carries steps (.enroll tier role))
      (.carrying steps (.enroll tier role) l) := by
  have hmay : (enteringProtocol cfg).may (.carrying steps (.enroll tier role) l)
      (.record (.change d.id (.enrolled (if steps.any Step.isPartition then some 1 else none)
        d.stormblockLabels))) := by
    cases role with
    | data => exact .inl (hl rfl)
    | system => exact .inr rfl
  refine wp_andThen ⟨trivial, fun r _ => ?_⟩
  cases r with
  | error why => exact ⟨[], rfl⟩
  | ok listed =>
    have hend : wp (enteringProtocol cfg) (do
        let _ ← changeDrive d.id (.enrolled (if steps.any Step.isPartition then some 1 else none)
          d.stormblockLabels)
        persist cfg
        pure (.ok (enrollTarget d steps ++ " in stormblock, " ++ role.word ++ " slab, tier " ++
          tier.getD (cfg.tierFor d.kind))))
        (fun (_ : Except String String) => Entering.Carries steps (.enroll tier role))
        (.carrying steps (.enroll tier role) l) :=
      wp_op_bind _ hmay fun _ _ => wp_seq _ (wp_entering_persist ⟨[], rfl⟩)
    have hslab : wp (enteringProtocol cfg) (andThen
        (slabInEngine (enrollTarget d steps) (tier.getD (cfg.tierFor d.kind)) (some role)) fun _ => do
          let _ ← changeDrive d.id (.enrolled (if steps.any Step.isPartition then some 1 else none)
            d.stormblockLabels)
          persist cfg
          pure (.ok (enrollTarget d steps ++ " in stormblock, " ++ role.word ++ " slab, tier " ++
            tier.getD (cfg.tierFor d.kind))))
        (fun (_ : Except String String) => Entering.Carries steps (.enroll tier role))
        (.carrying steps (.enroll tier role) l) := by
      refine wp_andThen (wp_op_bind _ trivial fun slabs _ => ?_)
      have hstay : (enteringProtocol cfg).next (.carrying steps (.enroll tier role) l)
          (.engine (.driveSlabs (enrollTarget d steps))) slabs =
          .carrying steps (.enroll tier role) l := by cases slabs <;> rfl
      rw [hstay]
      refine wp_ite (fun _ => wp_andThen ⟨trivial, fun r _ => ?_⟩) fun _ => hend
      cases r with
      | ok _ => exact hend
      | error why => exact ⟨[], rfl⟩
    refine wp_andThen (wp_ite (fun _ => ⟨trivial, fun r _ => ?_⟩) fun _ => ⟨trivial, fun r _ => ?_⟩)
    · cases r with
      | ok _ => exact hslab
      | error why => exact ⟨[], rfl⟩
    · cases r with
      | ok _ => exact hslab
      | error why => exact ⟨[], rfl⟩

/-- Work of a step off the fleet leaves what is in hand. -/
lemma wp_entering_ofStep {ref : StepRef} {p : Work α} (hp : OfStep ref p)
    {Q : α → Entering → Prop} (hQ : ∀ a, Q a (.carrying steps step l)) :
    wp (enteringProtocol cfg) p Q (.carrying steps step l) := by
  refine wp_of_only _ hp (fun o ho => ?_) (fun o x ho => ?_) hQ
  · cases o with
    | record r =>
      cases r with
      | change id u => cases u <;> trivial
      | _ => trivial
    | _ => trivial
  · rw [Bool.and_eq_true] at ho
    cases o with
    | record r =>
      cases r with
      | change id u => cases u <;> first | rfl | exact Bool.noConfusion ho.2
      | read site id => cases site <;> cases x <;> rfl
      | due w => exact Bool.noConfusion ho.2
      | designate id des => exact Bool.noConfusion ho.2
      | _ => rfl
    | engine r => exact Bool.noConfusion ho.2
    | job r =>
      cases r with
      | change i n u =>
        cases u <;> first | rfl | simp [Op.withinStep, DjUpdate.withinStep] at ho
      | _ => first | rfl | exact Bool.noConfusion ho.1
    | query r => cases r <;> rfl
    | _ => rfl

lemma wp_entering_runStep (hl : ∀ tier, step = .enroll tier .data → d.id ∈ l) :
    wp (enteringProtocol cfg) (runStep cfg ⟨job, idx, k⟩ d step steps)
      (fun _ => Entering.Carries steps step) (.carrying steps step l) := by
  by_cases hstep : ∃ tier role, step = .enroll tier role
  · obtain ⟨tier, role, rfl⟩ := hstep
    exact wp_entering_stepEnroll fun hrole => hl tier (by rw [hrole])
  · have hno : ∀ tier role, step ≠ .enroll tier role := fun tier role h => hstep ⟨tier, role, h⟩
    exact wp_entering_ofStep (ofStep_runStep _ d hno steps) fun _ => ⟨l, rfl⟩

/-- The mark of an approved step: a data enrolment of a drive that is no system drive has it in
hand. -/
lemma exists_approved (steps : List Step) (step : Step) (d : Drive) :
    ∃ l, (Entering.due steps step).approved d = .carrying steps step l ∧
      (d.designation ≠ .system → ∀ tier, step = .enroll tier .data → d.id ∈ l) := by
  by_cases hdata : ∃ tier, step = .enroll tier .data
  · obtain ⟨tier, rfl⟩ := hdata
    refine ⟨_, rfl, fun hsys tier' _ => ?_⟩
    rw [if_neg hsys]
    exact List.mem_singleton_self _
  · refine ⟨[], ?_, fun _ tier htier => absurd ⟨tier, htier⟩ hdata⟩
    cases step with
    | enroll tier role =>
      cases role with
      | data => exact absurd ⟨tier, rfl⟩ hdata
      | system => rfl
    | _ => rfl

/-- **A step is approved on a record**, and a data enrolment only of a drive that is not the system
drive. -/
lemma wp_entering_approveAndRun (hk : steps[k]? = some step) :
    wp (enteringProtocol cfg) (approveAndRun cfg job idx k steps id dn un step)
      (fun r m' => r.isSome = true → m'.Carries steps step) (.due steps step) := by
  have hfail : ∀ {m : Entering} (why : String), wp (enteringProtocol cfg) (do
      fail cfg job idx why
      pure none) (fun (r : Option (Except String String)) m' =>
        r.isSome = true → m'.Carries steps step) m :=
    fun why => wp_seq _ (wp_mono _ (fun _ _ _ => nofun)
      (wp_entering_offFleet (offFleet_fail job idx why)))
  refine wp_op_bind _ trivial fun r _ => ?_
  cases r with
  | none => exact hfail _
  | some d =>
    obtain ⟨l, hmark, hl⟩ := exists_approved steps step d
    have hnext : (enteringProtocol cfg).next (.due steps step) (.record (.read .approval id))
        (some d) = .carrying steps step l := hmark
    rw [hnext]
    refine wp_seq _ (wp_entering_ofStep ((ofDrive_context d).ofStep ⟨job, idx, k⟩) fun cx => ?_)
    split
    · exact hfail _
    · next hguard =>
      have hfit : ∀ tier, step = .enroll tier .data → d.id ∈ l := by
        intro tier htier
        refine hl (fun hsys => ?_) tier htier
        have hlays := ((guardRefusal_eq_none_iff _ _ _ _).mp hguard).2.2.2.2.1 hsys
        rw [List.any_eq_false] at hlays
        refine hlays step (List.mem_of_getElem? (i := 0) ?_) (by rw [htier]; rfl)
        rw [List.getElem?_drop, Nat.add_zero]
        exact hk
      refine wp_op_bind _ trivial fun who _ => ?_
      cases who with
      | none => exact hfail _
      | some who =>
        refine wp_op_bind _ trivial fun r _ => ?_
        cases r with
        | denied why => exact hfail _
        | unavailable why =>
          refine wp_op_bind _ trivial fun _ _ => wp_seq _ ?_
          exact wp_mono _ (fun _ _ _ => nofun) (wp_entering_offFleet offFleet_save)
        | allowed =>
          refine wp_op_bind _ trivial fun _ _ => wp_seq _ ?_
          refine wp_entering_ofStep (ofStep_save ⟨job, idx, k⟩) fun _ => wp_seq _ ?_
          refine wp_mono _ (fun r m' h => ?_) (wp_entering_runStep hfit)
          exact fun _ => h

/-- **The loop of a job's part.** -/
lemma wp_entering_driveLoop :
    wp (enteringProtocol cfg) (driveLoop cfg job idx steps id dn un) (Ends (enteringProtocol cfg))
      (.part steps) := by
  have hsave : ∀ {m : Entering}, wp (enteringProtocol cfg) (do
      save cfg
      pure none) (Ends (enteringProtocol cfg)) m :=
    wp_seq _ (wp_mono _ (fun _ _ _ => trivial) (wp_entering_offFleet offFleet_save))
  have hfail : ∀ {m : Entering} (why : String), wp (enteringProtocol cfg) (do
      fail cfg job idx why
      pure none) (Ends (enteringProtocol cfg)) m :=
    fun why => wp_seq _ (wp_mono _ (fun _ _ _ => trivial)
      (wp_entering_offFleet (offFleet_fail job idx why)))
  refine wp_op_bind _ trivial fun r _ => ?_
  rcases r with _ | ⟨k, cancelled, st⟩
  · trivial
  · refine wp_ite (fun _ => trivial) fun _ => ?_
    cases hk : steps[k]? with
    | none => exact wp_op_bind _ trivial fun _ _ => hsave
    | some step =>
      refine wp_ite (fun _ => wp_op_bind _ trivial fun _ _ => hsave) fun _ => ?_
      have hdue : (enteringProtocol cfg).next (.part steps) (.job (.poll job idx))
          (some (k, cancelled, st)) = .due steps step := by
        simp only [enteringProtocol, enteringTracer, Entering.next_poll, Entering.polled, hk]
      rw [hdue]
      refine wp_op_bind _ trivial fun r _ => ?_
      cases r with
      | none => exact hfail _
      | some d =>
        have hend : ∀ (r : Option (Except String String)) (m : Entering),
            (r.isSome = true → m.Carries steps step) → wp (enteringProtocol cfg)
              (finishStep cfg job idx steps id dn un step r) (Ends (enteringProtocol cfg)) m := by
          intro r m hm
          rcases r with _ | why | note
          · trivial
          · exact hfail _
          · obtain ⟨l, rfl⟩ := hm rfl
            refine wp_op_bind _ trivial fun _ _ => wp_seq _ ?_
            unfold save
            refine wp_ite (fun _ => ⟨trivial, fun _ _ => ⟨trivial, fun _ _ => rfl⟩⟩) fun _ => rfl
        have hrun : ∀ {f : Option (Except String String) → Work (Option (Except String String))},
            (∀ r m, (r.isSome = true → m.Carries steps step) → wp (enteringProtocol cfg) (f r)
              (fun r m' => r.isSome = true → m'.Carries steps step) m) →
            wp (enteringProtocol cfg) (approveAndRun cfg job idx k steps id dn un step >>= f)
              (fun r m' => r.isSome = true → m'.Carries steps step) (.due steps step) :=
          fun hf => wp_seq _ (wp_mono _ hf (wp_entering_approveAndRun hk))
        refine wp_op_bind _ trivial fun _ _ => wp_seq _ (wp_mono _ hend ?_)
        unfold withPermit
        refine wp_ite (fun _ => ?_) fun _ => ?_
        · exact wp_op_bind _ trivial fun _ _ => hrun fun r m hm =>
            wp_op_bind _ trivial fun _ _ => hm
        · exact wp_op_bind _ trivial fun _ _ => hrun fun r m hm =>
            wp_op_bind _ trivial fun _ _ => hm

end Enrol

/-- **Every task puts into the fleet only what it has found fit.** -/
theorem enterings_entry (r : Req) (m : Entering) (h : (enteringProtocol cfg).ready r m) :
    wp (enteringProtocol cfg) (r.entry cfg) (Ends (enteringProtocol cfg)) m := by
  obtain rfl : m = Entering.of r := h
  have honce : ∀ {q : Work Unit} {m : Entering}, wp (enteringProtocol cfg) q (fun _ _ => True) m →
      wp (enteringProtocol cfg) (once q) (Ends (enteringProtocol cfg)) m :=
    fun hq => wp_seq _ (wp_mono _ (fun _ _ _ => trivial) hq)
  have hmember : ∀ {α : Type} {q : Work α}, OfMember q →
      wp (enteringProtocol cfg) q (fun _ _ => True) .idle :=
    fun hq => wp_mono _ (fun _ _ _ => trivial) (back_entering_of_member hq)
  by_cases hr : r.ofFleet = true
  · cases r with
    | collect =>
      refine honce (wp_seq _ (wp_when (fun _ => wp_op_bind _ trivial fun r _ => ?_)
        fun _ => wp_entering_persist trivial))
      cases r with
      | ok listed => exact ⟨trivial, fun _ _ => wp_entering_persist trivial⟩
      | error why => exact wp_entering_persist trivial
    | fleetTick => exact honce wp_entering_fleetTick
    | fleetJoin id formatSlab tier => exact honce (wp_entering_fleetJoin id formatSlab tier)
    | fleetLeave id drain force => exact honce (hmember (ofMember_fleetLeave id drain force))
    | startDrain id leave => exact honce (hmember (drains_drainRoute id leave).keeping.ofMember)
    | cancelDrain id =>
      exact honce (wp_ignore (hmember (drains_cancelDrain id).keeping.ofMember))
    | setDesignation id des => exact honce (wp_entering_setDesignation id des)
    | patchDrive id patch => exact honce (wp_ignore (wp_entering_patchDrive id patch))
    | _ => cases hr
  · by_cases hloop : ∃ job idx steps id dn un, r = .driveLoop job idx steps id dn un
    · obtain ⟨job, idx, steps, id, dn, un, rfl⟩ := hloop
      exact wp_entering_driveLoop
    by_cases hrun : ∃ job idx, r = .runDrive job idx
    · obtain ⟨job, idx, rfl⟩ := hrun
      refine wp_op_bind _ trivial fun x _ => ?_
      rcases x with _ | ⟨steps, id, dn, un⟩
      · trivial
      · rfl
    · obtain ⟨p, hp, hoff⟩ := offFleet_entry cfg (Bool.not_eq_true _ ▸ hr)
        (fun job idx steps id dn un h => hloop ⟨job, idx, steps, id, dn, un, h⟩)
        fun job idx h => hrun ⟨job, idx, h⟩
      rw [hp]
      exact honce (wp_entering_offFleet hoff)

end Entry

/-! ## The property -/

section Property

variable (cfg : Settings) (newV5 : String → Uuid)

/-- **A system drive is never handed over as data**, in runs whose steps meet the condition: no
section of a join, nor of an enrolment with a data slab, finds the drive designated system, and no
section makes a drive of the fleet the system drive. -/
def NeverAsData (ok : Condition Op Op.Ans State World Req Entering) : Prop :=
  ∀ (s : State) (es : List (Interleave.Event Op Op.Ans World Req)) (c c' : Config Op Op.Ans State Req Entering)
    (i : Nat) (o : RecordOp) (a : o.Ans) (m : Entering) (id : DriveId) (d d' : Drive),
    Run (daemon cfg newV5) (enteringTracer cfg) ok ⟨s, []⟩ es c →
    ok c.state c.marks (.turn i (.record o) a) →
    Interleave.Step (daemon cfg newV5) (enteringTracer cfg) c (.turn i (.record o) a) c' →
    c.marks[i]? = some m → c.state.records.inv id = some d → c'.state.records.inv id = some d' →
    ((∃ l, o = .change id (.joined l)) → d.designation ≠ .system) ∧
    ((∃ part l, o = .change id (.enrolled part l)) → m.asData = true → d.designation ≠ .system) ∧
    (d'.designation = .system → d.designation = .system ∨ d.membership ≠ .fleet)

/-- **The label is written apart from the joins**: a drive becomes the system drive only while no
task may still put it into the fleet as data, and the system-data file only makes one of a drive
that is out of the fleet. -/
def DesignatedApart : Condition Op Op.Ans State World Req Entering
  | _, ms, .turn _ (.record (.designate id .system)) (.ok _) => ∀ m ∈ ms, id ∉ m.ids
  | s, ms, .turn _ (.record (.restoreSystem named)) _ =>
    ∀ id ∈ named, ∀ d, s.records.inv id = some d → d.designation = .none →
      d.membership ≠ .fleet ∧ ∀ m ∈ ms, id ∉ m.ids
  | _, _, _ => True

end Property

/-! ## The invariant -/

/-- What a task has found fit for the fleet is no system drive. -/
def Fit (s : State) (ms : List Entering) : Prop :=
  ∀ m ∈ ms, ∀ id ∈ m.ids, ∀ d, s.records.inv id = some d → d.designation ≠ .system

section Invariant

variable {cfg : Settings} {newV5 : String → Uuid} {s s' : State} {ms : List Entering} {i : Nat}
  {m : Entering} {env : Env}

/-- Only the label's own sections write it. -/
lemma designation_onDrive {o : RecordOp} {d : Drive} (hdes : ∀ id des, o ≠ .designate id des)
    (hsys : ∀ named, o ≠ .restoreSystem named) :
    (o.onDrive newV5 env d).designation = d.designation := by
  cases o with
  | change id u =>
    simp only [RecordOp.onDrive]
    split
    · cases u <;> simp only [Drive.apply, Drive.markPending] <;> (repeat' split) <;> rfl
    · rfl
  | recoverOrphans owned =>
    simp only [RecordOp.onDrive, Drive.recovered, Drive.idleOrphan]
    split
    · split <;> rfl
    · rfl
  | designate id des => exact absurd rfl (hdes id des)
  | restoreSystem named => exact absurd rfl (hsys named)
  | reconcile listed =>
    simp only [RecordOp.onDrive]
    rw [Drive.reconciled_eq]
  | dropPending id =>
    simp only [RecordOp.onDrive, Drive.apply]
    split
    · split <;> rfl
    · rfl
  | setOvercommit id oc =>
    simp only [RecordOp.onDrive]
    split <;> rfl
  | merge =>
    have hkept : (d.passed newV5 env.observed).kept.designation = d.kept.designation :=
      congrArg Drive.designation (Drive.kept_passed newV5 env.observed d)
    exact hkept
  | _ => rfl

/-- What a label's section writes. -/
lemma designation_designate {id : DriveId} {des : Designation} {d : Drive}
    (h : ((RecordOp.designate id des).onDrive newV5 env d).designation = .system) :
    d.designation = .system ∨
      des = .system ∧ d.id = id ∧ d.designationBlocker des = none ∧ d.membership ≠ .fleet := by
  simp only [RecordOp.onDrive] at h
  split at h
  · next hc =>
    have hdes : des = .system := h
    subst hdes
    by_cases hsys : d.designation = .system
    · exact .inl hsys
    · refine .inr ⟨rfl, hc.1, hc.2, fun hfleet => ?_⟩
      have hnone := hc.2
      simp [Drive.designationBlocker, Ne.symm hsys, hfleet, refuse] at hnone
  · exact .inl h

/-- What the system-data file writes. -/
lemma designation_restoreSystem {named : List DriveId} {d : Drive}
    (h : ((RecordOp.restoreSystem named).onDrive newV5 env d).designation = .system) :
    d.designation = .system ∨ d.designation = .none ∧ d.id ∈ named := by
  simp only [RecordOp.onDrive] at h
  split at h
  · next hmem =>
    by_cases hnone : d.designation = .none
    · exact .inr ⟨hnone, hmem⟩
    · rw [Drive.restoredSystem, if_neg hnone] at h
      exact .inl h
  · exact .inl h

/-- An accepted label is answered so. -/
lemma ok_of_designate {id : DriveId} {des : Designation} {st st' : Records} {d : Drive}
    {a : (RecordOp.designate id des).Ans}
    (hex : (RecordOp.designate id des).exec newV5 env st = some (a, st')) (hd : st.inv id = some d)
    (hfree : d.designationBlocker des = none) : ∃ x, a = .ok x := by
  simp only [RecordOp.exec, hd, hfree] at hex
  cases hex
  exact ⟨_, rfl⟩

/-- **A section leaves what is in hand fit**, when the label is written apart. -/
lemma Fit.record {o : RecordOp} {a : o.Ans} (hF : Fit s ms)
    (hex : (Op.record o).exec newV5 env s = some (a, s'))
    (hok : DesignatedApart s ms (.turn i (.record o) a)) : Fit s' ms := by
  intro m hm id hid d' hd' hsys
  obtain ⟨hrec, -⟩ := exec_record hex
  rcases inv_exec_cases hrec hd' with ⟨d, hd, rfl⟩ | ⟨-, primary, paths, rfl⟩
  swap
  · cases hsys
  have hfit := hF m hm id hid d hd
  have hself : d.id = id := Records.id_of_inv hd
  by_cases hdes : ∃ id' des, o = .designate id' des
  · obtain ⟨id', des, rfl⟩ := hdes
    rcases designation_designate hsys with h | ⟨rfl, rfl, hfree, -⟩
    · exact hfit h
    · rw [hself] at hrec hok
      obtain ⟨x, rfl⟩ := ok_of_designate hrec hd hfree
      exact hok m hm hid
  by_cases hres : ∃ named, o = .restoreSystem named
  · obtain ⟨named, rfl⟩ := hres
    rcases designation_restoreSystem hsys with h | ⟨hnone, hmem⟩
    · exact hfit h
    · rw [hself] at hmem
      exact (hok id hmem d hd hnone).2 m hm hid
  · rw [designation_onDrive (fun id' des h => hdes ⟨id', des, h⟩)
      (fun named h => hres ⟨named, h⟩)] at hsys
    exact hfit hsys

/-! ### What comes into hand -/

lemma ids_of (r : Req) : (Entering.of r).ids = [] := by
  cases r with
  | patchDrive id patch =>
    simp only [Entering.of]
    split <;> rfl
  | _ => rfl

lemma ids_released_subset (m : Entering) : m.released.ids ⊆ m.ids := by
  cases m with
  | joining id l => exact List.subset_cons_self id l
  | carrying steps step l => exact List.nil_subset l
  | _ => exact List.Subset.refl _

lemma ids_stepped_subset (m : Entering) : m.stepped.ids ⊆ m.ids := by
  cases m with
  | due steps step => exact List.nil_subset _
  | carrying steps step l => exact List.nil_subset l
  | _ => exact List.Subset.refl _

lemma ids_polled_subset (m : Entering) (k : Nat) : (m.polled k).ids ⊆ m.ids := by
  cases m with
  | part steps =>
    simp only [Entering.polled]
    split <;> exact List.nil_subset _
  | _ => exact List.Subset.refl _

lemma ids_probed_subset (m : Entering) (disk : FreshDisk) : (m.probed disk).ids ⊆ m.ids := by
  cases m with
  | probing id =>
    unfold Entering.probed
    dsimp only
    split
    · exact List.Subset.refl _
    · exact List.nil_subset _
  | _ => exact List.Subset.refl _

lemma ids_turned_subset (m : Entering) (go : Bool) : (m.turned go).ids ⊆ m.ids := by
  cases m with
  | candidates l =>
    cases l with
    | nil => exact List.Subset.refl _
    | cons id l =>
      cases go with
      | true => exact List.Subset.refl _
      | false => exact List.subset_cons_self id l
  | _ => exact List.Subset.refl _

/-- A record that was read comes into hand when the fleet may have the drive. -/
lemma mem_ids_found {d : Drive} {id : DriveId} (h : id ∈ (m.found cfg d).ids) :
    id ∈ m.ids ∨ id = d.id ∧ d.fleetJoinBlocker = none := by
  by_cases hfit : (cfg.stormblock && d.fleetJoinBlocker.isNone) = true
  · have hnone : d.fleetJoinBlocker = none := by
      simpa using (Bool.and_eq_true_iff.mp hfit).2
    cases m with
    | asked | patching =>
      rw [Entering.found, if_pos hfit] at h
      exact .inr ⟨List.mem_singleton.mp h, hnone⟩
    | _ => exact .inl h
  · cases m with
    | asked | patching =>
      rw [Entering.found, if_neg hfit] at h
      cases h
    | _ => exact .inl h

/-- An approved record comes into hand when it is not the system drive's. -/
lemma mem_ids_approved {d : Drive} {id : DriveId} (h : id ∈ (m.approved d).ids) :
    id ∈ m.ids ∨ id = d.id ∧ d.designation ≠ .system := by
  cases m with
  | due steps step =>
    by_cases hdata : ∃ tier, step = .enroll tier .data
    · obtain ⟨tier, rfl⟩ := hdata
      simp only [Entering.approved, Entering.ids] at h
      split at h
      · cases h
      · next hsys => exact .inr ⟨List.mem_singleton.mp h, hsys⟩
    · have hnil : ((Entering.due steps step).approved d).ids = [] := by
        cases step with
        | enroll tier role =>
          cases role with
          | data => exact absurd ⟨tier, rfl⟩ hdata
          | system => rfl
        | _ => rfl
      rw [hnil] at h
      cases h
  | _ => exact .inl h

/-- What a task has in hand after an operation it had before, or has just found fit. -/
lemma fit_of_mem_next {o : Op} {a : o.Ans} (hex : o.exec newV5 env s = some (a, s'))
    {id : DriveId} (hid : id ∈ (m.next cfg o a).ids) :
    id ∈ m.ids ∨ ∀ d, s'.records.inv id = some d → d.designation ≠ .system := by
  have hread : ∀ {r : RecordOp} {b : r.Ans}, (Op.record r).exec newV5 env s = some (b, s') →
      r.exec newV5 env s.records = some (b, s'.records) := fun h => (exec_record h).1
  cases o with
  | record r =>
    cases r with
    | read site id' =>
      cases a with
      | none => cases site <;> exact .inl hid
      | some d =>
        obtain ⟨hd, hsame⟩ := Prod.mk.inj (Option.some.inj (hread hex))
        have hself : d.id = id' := Records.id_of_inv hd
        rw [← hsame]
        cases site with
        | other =>
          rcases mem_ids_found hid with h | ⟨rfl, hnone⟩
          · exact .inl h
          · refine .inr fun d' hd' => ?_
            rw [hself, hd] at hd'
            cases hd'
            rcases (Drive.fleetJoinBlocker_eq_none_iff.mp hnone).2.1 with h | h <;> simp [h]
        | approval =>
          rcases mem_ids_approved hid with h | ⟨rfl, hsys⟩
          · exact .inl h
          · refine .inr fun d' hd' => ?_
            rw [hself, hd] at hd'
            cases hd'
            exact hsys
    | due w =>
      cases w with
      | add =>
        obtain ⟨hl, hsame⟩ := Prod.mk.inj (Option.some.inj (hread hex))
        obtain ⟨d, hd, rfl⟩ := List.mem_map.mp hid
        rw [← hl] at hd
        obtain ⟨hinv, hadd⟩ := s.records.mem_listed.mp hd
        rw [← hsame]
        refine .inr fun d' hd' => ?_
        rw [hinv] at hd'
        cases hd'
        have hnone : d.designation = .none := by
          simp only [Due.holds, autoAddCandidate, Bool.and_eq_true, decide_eq_true_eq] at hadd
          exact hadd.1.1.2
        simp [hnone]
      | _ => exact .inl hid
    | change id' u =>
      cases u with
      | joined l => exact .inl (ids_released_subset m hid)
      | enrolled part l => exact .inl (ids_released_subset m hid)
      | _ => exact .inl hid
    | designate id' des =>
      cases a with
      | ok x => exact .inl hid
      | error why => exact .inl (ids_released_subset m hid)
    | _ => exact .inl hid
  | query q =>
    cases q with
    | disk path => exact .inl (ids_probed_subset m a hid)
    | ready what => exact .inl (ids_turned_subset m a hid)
    | _ => exact .inl hid
  | job j =>
    cases j with
    | head job idx =>
      cases a with
      | none => exact .inl hid
      | some x =>
        simp only [Entering.next_head] at hid
        split at hid
        · cases hid
        · exact .inl hid
    | poll job idx =>
      cases a with
      | none => exact .inl hid
      | some x => exact .inl (ids_polled_subset m x.1 hid)
    | change job idx u =>
      simp only [Entering.next_changeJob] at hid
      split at hid
      · exact .inl (ids_stepped_subset m hid)
      · exact .inl hid
    | _ => exact .inl hid
  | engine e =>
    simp only [Entering.next_engine] at hid
    split at hid
    · exact .inl (ids_released_subset m hid)
    · exact .inl hid
  | _ => exact .inl hid

end Invariant

section Keeps

variable {cfg : Settings} {newV5 : String → Uuid}

/-- **What tasks have in hand stays fit for the fleet**, when the label is written apart. -/
theorem keeps_fit : Keeps (daemon cfg newV5) (enteringProtocol cfg) DesignatedApart Fit where
  entry := enterings_entry
  start s ms r hF _ _ := by
    refine ⟨rfl, fun m hm id hid => ?_⟩
    rcases List.mem_append.mp hm with hm | hm
    · exact hF m hm id hid
    · obtain rfl := List.mem_singleton.mp hm
      rw [show ((enteringProtocol cfg).fresh r).ids = [] from ids_of r] at hid
      cases hid
  turn s ms i m o env a s' hF hm hmay hex hok := by
    have hex : o.exec newV5 env s = some (a, s') := hex
    refine ⟨trivial, fun r _ => rfl, fun n hn id hid => ?_⟩
    have hold : Fit s' ms := by
      by_cases hrec : ∃ r, o = .record r
      · obtain ⟨r, rfl⟩ := hrec
        exact hF.record hex hok
      · have hsame := records_eq_of_ne_record (fun r h => hrec ⟨r, h⟩) hex
        intro n hn id hid d hd
        rw [hsame] at hd
        exact hF n hn id hid d hd
    rcases List.mem_append.mp hn with hn | hn
    · rcases List.mem_or_eq_of_mem_set hn with hn | rfl
      · exact hold n hn id hid
      · rcases fit_of_mem_next hex hid with h | h
        · exact hold m (List.mem_of_getElem? hm) id h
        · exact h
    · obtain ⟨r, -, rfl⟩ := List.mem_map.mp hn
      rw [show ((enteringProtocol cfg).child m r).ids = [] from ids_of r] at hid
      cases hid
  world s ms w s' hF hw _ := by
    intro m hm id hid d' hd'
    cases w with
    | sample id' health thermal usage =>
      cases hw
      dsimp only at hd'
      rw [Records.update_inv] at hd'
      split at hd'
      · obtain ⟨d, hd, rfl⟩ := Option.map_eq_some_iff.mp hd'
        exact hF m hm id hid d hd
      · exact hF m hm id hid d' hd'
    | finish dev =>
      cases hw
      exact hF m hm id hid d' hd'
    | plug node dev =>
      cases hw
      exact hF m hm id hid d' hd'
  crash s ms _ _ := by
    refine ⟨fun r _ => rfl, fun m hm id hid => ?_⟩
    obtain ⟨r, -, rfl⟩ := List.mem_map.mp hm
    rw [show ((enteringProtocol cfg).fresh r).ids = [] from ids_of r] at hid
    cases hid

end Keeps

/-! ## The results -/

section Results

/-- **A system drive is never handed to the engine as data**, when the label is written apart from
the joins.

**Proof sketch.** Every task puts into the fleet only a drive that it has found fit
(`enterings_entry`), and what is found fit stays so until the task lets go of it (`keeps_fit`): no
other section writes the label (`designation_onDrive`). A section that writes it sees the drive out
of the fleet. -/
theorem neverAsData_of_apart (cfg : Settings) (newV5 : String → Uuid) :
    NeverAsData cfg newV5 DesignatedApart := by
  intro s es c c' i o a m id d d' hrun hok hstep hm hd hd'
  have hgood : Good (enteringProtocol cfg) Fit c := keeps_fit.run (good_idle nofun) hrun
  have hfit := fun hid => hgood.inv m (List.mem_of_getElem? hm) id hid d hd
  obtain ⟨m', hm', hmay⟩ := hgood.may hstep
  rw [hm] at hm'
  cases hm'
  refine ⟨?_, ?_, fun hsys => ?_⟩
  · rintro ⟨l, rfl⟩
    obtain ⟨l', rfl⟩ := hmay
    exact hfit List.mem_cons_self
  · rintro ⟨part, l, rfl⟩ hdata
    rcases hmay with hid | hno
    · exact hfit hid
    · rw [hdata] at hno
      cases hno
  · obtain ⟨env, hex⟩ := hstep.exec
    obtain ⟨hrec, -⟩ := exec_record hex
    obtain rfl : d' = o.onDrive newV5 env d := by
      rcases inv_exec_of_inv hrec hd with h | ⟨-, -, -, h⟩
      · exact Option.some.inj (hd'.symm.trans h)
      · rw [hd'] at h
        cases h
    by_cases hdes : ∃ id' des, o = .designate id' des
    · obtain ⟨id', des, rfl⟩ := hdes
      rcases designation_designate hsys with h | ⟨-, -, -, h⟩
      · exact .inl h
      · exact .inr h
    by_cases hres : ∃ named, o = .restoreSystem named
    · obtain ⟨named, rfl⟩ := hres
      rcases designation_restoreSystem hsys with h | ⟨hnone, hmem⟩
      · exact .inl h
      · rw [Records.id_of_inv hd] at hmem
        exact .inr (hok id hmem d hd hnone).1
    · rw [designation_onDrive (fun id' des h => hdes ⟨id', des, h⟩)
        (fun named h => hres ⟨named, h⟩)] at hsys
      exact .inl hsys

/-- The operator asks for the system label and the join in one PATCH. -/
def labelledAndJoined : List (Move Env World Req) :=
  [.start (.patchDrive ⟨⟨7⟩⟩ { designation := some .system, fleet := some .join })] ++
    List.replicate 8 (.turn 0 {})

/-- The next turn of the first task joins a system drive. -/
def joinsSystem (c : Config Op Op.Ans State Req Entering) : Bool :=
  match (daemon {} fun _ => ⟨0⟩).step (enteringTracer {}) c (.turn 0 {}) with
  | some (.turn 0 (.record (.change id (.joined _))) _, c') =>
    (c.marks[0]?).isSome && (c.state.records.inv id).any (fun d => d.designation = .system) &&
      (c'.state.records.inv id).isSome
  | _ => false

/-- **Not every label is**: a PATCH with both joins the drive that it has just made the system
drive, because the join looks at the record from before. -/
theorem labelled_drive_joined : ¬ NeverAsData {} (fun _ => ⟨0⟩) fun _ _ _ => True := by
  intro hnever
  obtain ⟨es, c, hrun, hcheck⟩ : ∃ es c, Run (daemon {} fun _ => ⟨0⟩) (enteringTracer {})
      (fun _ _ _ => True) ⟨{ State.sole (Drive.testFixture ⟨⟨7⟩⟩ "sdb") with
        sync := { serving := true } }, []⟩ es c ∧ joinsSystem c = true :=
    exists_run_of_moves labelledAndJoined (by decide +kernel)
  unfold joinsSystem at hcheck
  split at hcheck
  · next id l a c' hstep =>
    simp only [Bool.and_eq_true] at hcheck
    obtain ⟨⟨hm, hd⟩, hd'⟩ := hcheck
    obtain ⟨m, hm⟩ := Option.isSome_iff_exists.mp hm
    obtain ⟨d, hd, hsys⟩ := (Option.any_eq_true _ _).mp hd
    obtain ⟨d', hd'⟩ := Option.isSome_iff_exists.mp hd'
    have hbad := hnever _ es c c' 0 (.change id (.joined l)) a m id d d' hrun trivial
      (step_of_step hstep) hm hd hd'
    exact hbad.1 ⟨l, rfl⟩ (of_decide_eq_true hsys)
  · cases hcheck

end Results

end StormDrive
