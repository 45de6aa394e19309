import StormDrive.Daemon.Inventory
import StormDrive.Daemon.Rules

set_option relaxedAutoImplicit false
set_option autoImplicit false

/-!
# What is recorded as pushed

The record of a drive says which labels, health, overcommit setting and thermal state the engine
last accepted for it, and a tick of the fleet only sends what differs from that. Between the answer
of the engine and the record there is an `await`: until it is written, the task has told the engine
something that is not on record yet.

## Main definitions

* `Told`, `Hand` — what a task has told the engine and has not yet written into the record.
* `Agrees` — a registration holds what a record says was pushed of a part.
* `RecordedIsHeld` — what is recorded as pushed, and is current, is what the engine holds.
* `Undisturbed` — the steps after which that stays so.

## Main results

* `hands_entry` — every task writes down what it told the engine.
* `recordedIsHeld_of_undisturbed` — in undisturbed runs, what is recorded is what the engine holds.

## Implementation notes

A part that a task has in hand is left out of the property: the engine has answered, and the
section that writes the answer down is still to come. A drive out of the fleet is left out as well.
-/

namespace StormDrive

open Interleave Interleave.Prog Work

/-! ## What a task has told the engine -/

/-- The parts of a registration. -/
inductive Part
  | labels | health | overcommit | thermal
  deriving DecidableEq

/-- Something that the engine accepted and that is not on record yet. -/
inductive Told
  /-- The drive is open, and has these labels now. -/
  | labels (l : List (String × String))
  /-- The engine has opened the drive, with these labels. -/
  | opened (l : List (String × String))
  | health (word : String)
  | overcommit (oc : Overcommit)
  | thermal (word : String)
  /-- The engine has closed the drive. -/
  | removed
  deriving DecidableEq

/-- The parts of the registration that it changed. -/
def Told.parts : Told → List Part
  | labels _ => [.labels]
  | health _ => [.health]
  | overcommit _ => [.overcommit]
  | thermal _ => [.thermal]
  | opened _ | removed => [.labels, .health, .overcommit, .thermal]

/-- What a task has in hand. -/
structure Hand where
  /-- It serves a PATCH of a drive resource. -/
  patch : Bool := false
  told : Option (DriveId × Told) := none
  deriving DecidableEq

/-- The parts of registrations that the task has in hand. -/
def Hand.parts (m : Hand) : List (DriveId × Part) :=
  match m.told with
  | some (id, t) => t.parts.map fun p => (id, p)
  | none => []

/-- What a request that the engine accepts tells it. -/
def EngineOp.told : (o : EngineOp) → o.Ans → Option (DriveId × Told)
  | .setLabels _ l id, .ok _ => some (id, .labels l)
  | .addDrive _ l id, .ok _ => some (id, .opened l)
  | .setOvercommit _ oc id, .ok true => some (id, .overcommit oc)
  | .setThermal _ word id, .ok true => some (id, .thermal word)
  | .reportHealth _ word id, .ok _ => some (id, .health word)
  | .deleteDrive _ _ id, .ok _ => some (id, .removed)
  | _, _ => none

/-- The request changes a registration when it is accepted. -/
def EngineOp.tells : EngineOp → Bool
  | .setLabels .. | .addDrive .. | .setOvercommit .. | .setThermal .. | .reportHealth ..
  | .deleteDrive .. => true
  | _ => false

/-- A task after an operation. A join whose slab is not formatted goes no further. -/
def Hand.next (m : Hand) : (op : Op) → op.Ans → Hand
  | .engine (.formatSlab ..), .error _ => { m with told := none }
  | .engine o, a => { m with told := (o.told a).or m.told }
  | .record (.change _ u), _ => if u.writesDown then { m with told := none } else m
  | _, _ => m

/-- A task that begins with a request. -/
def Hand.of : Req → Hand
  | .patchDrive .. => { patch := true }
  | _ => {}

/-- How the hands move. -/
def handTracer : Tracer Op Op.Ans Req Hand where
  fresh := Hand.of
  next := Hand.next
  child _ := Hand.of

/-- **What a task writes down is what it told the engine**, and it tells the engine one thing at a
time. -/
def Hand.may (m : Hand) : Op → Prop
  | .record (.change id u) =>
    match u with
    | .labelsPushed l => m.told = some (id, .labels l)
    | .joined l | .enrolled _ l => m.told = some (id, .labels l) ∨ m.told = some (id, .opened l)
    | .healthPushed word => m.told = some (id, .health word)
    | .overcommitPushed oc => m.told = some (id, .overcommit oc)
    | .thermalPushed word => m.told = some (id, .thermal word)
    | .left | .retired => m.told = some (id, .removed)
    | _ => True
  | .engine o => o.tells = true → m.told = none
  | _ => True

/-- The engine accepts the report of a PATCH. -/
def Hand.gives (m : Hand) : (op : Op) → op.Ans → Prop
  | .engine (.reportHealth ..), .error _ => m.patch = false
  | _, _ => True

/-- The protocol of the hands. -/
def handProtocol : Protocol Op Op.Ans Req Hand where
  toTracer := handTracer
  may := Hand.may
  gives := Hand.gives
  ready r m := m.told = none ∧ ((Hand.of r).patch = true → m.patch = true)

/-! ## Every task keeps to the protocol -/

section Entry

variable {cfg : Settings} {α : Type} {p : Bool}

/-- What has nothing to do with the fleet tells the engine nothing. -/
lemma overlooks_hand (m : Hand) : Overlooks handProtocol m := by
  constructor
  · intro o ho
    cases o with
    | record r =>
      cases r with
      | change id u => cases u <;> trivial
      | _ => trivial
    | engine r => cases ho
    | _ => trivial
  · intro o x ho
    cases o with
    | record r =>
      cases r with
      | change id u => cases u <;> first | rfl | cases ho
      | _ => rfl
    | engine r => cases ho
    | _ => rfl

/-- What is about a drain tells the engine nothing. -/
lemma wp_hand_of_drains {q : Work α} {id : DriveId} {m : Hand} {Q : α → Hand → Prop}
    (hq : Drains id q) (hQ : ∀ a, Q a m) : wp handProtocol q Q m := by
  refine wp_of_only _ hq (fun o ho => ?_) (fun o x ho => ?_) hQ
  · cases o with
    | record r =>
      cases r with
      | change id' u => cases u <;> trivial
      | _ => trivial
    | engine r => cases r <;> first | exact False.elim ho | exact nofun
    | _ => trivial
  · cases o with
    | record r =>
      cases r with
      | change id' u => cases u <;> first | rfl | exact False.elim ho
      | _ => rfl
    | engine r => cases r <;> first | rfl | exact False.elim ho
    | _ => rfl

lemma wp_hand_persist {m : Hand} {Q : Unit → Hand → Prop} (hQ : Q () m) :
    wp handProtocol (persist cfg) Q m :=
  wp_offFleet (overlooks_hand m) ofDrive_persist.offFleet fun _ => hQ

lemma wp_hand_pushLabel (d : Drive) :
    Back handProtocol ⟨p, none⟩ (pushLabel d) := by
  refine wp_op_bind _ (fun _ => rfl) fun r _ => ?_
  cases r with
  | error why => rfl
  | ok _ => exact wp_ignore ⟨rfl, fun _ _ => rfl⟩

lemma wp_hand_pushOvercommit (ds : List Drive) :
    Back handProtocol ⟨p, none⟩ (pushOvercommit ds) := by
  induction ds with
  | nil => rfl
  | cons d rest ih =>
    refine wp_op_bind _ (fun _ => rfl) fun r _ => ?_
    rcases r with why | _ | _
    · exact ih
    · rfl
    · exact wp_op_bind _ rfl fun _ _ => ih

lemma wp_hand_pushThermal (ds : List Drive) :
    Back handProtocol ⟨p, none⟩ (pushThermal ds) := by
  induction ds with
  | nil => rfl
  | cons d rest ih =>
    refine wp_op_bind _ (fun _ => rfl) fun r _ => ?_
    rcases r with why | _ | _
    · exact ih
    · rfl
    · exact wp_op_bind _ rfl fun _ _ => ih

lemma wp_hand_reportHealth (d : Drive) :
    Back handProtocol ⟨p, none⟩ (reportHealth cfg d) := by
  refine wp_op_bind _ (fun _ => rfl) fun r _ => ?_
  cases r with
  | error why => rfl
  | ok _ =>
    refine wp_op_bind _ rfl fun _ _ => wp_ite (fun _ => ?_) fun _ => wp_when (fun _ => ?_) fun _ => rfl
    · exact wp_ignore (wp_hand_of_drains (drains_requestDrain _ _ _) fun _ => rfl)
    · exact wp_op_bind _ trivial fun _ _ => wp_when (fun _ => wp_hand_persist rfl) fun _ => rfl

lemma wp_hand_retire (id : DriveId) :
    Back handProtocol ⟨p, none⟩ (retire id) := by
  refine wp_op_bind _ trivial fun r _ => ?_
  cases r with
  | none => rfl
  | some d =>
    refine wp_op_bind _ (fun _ => rfl) fun r _ => ?_
    cases r with
    | error why => rfl
    | ok _ => exact wp_op_bind _ rfl fun _ _ => rfl

lemma wp_hand_drainPolled (d : Drive) (thenLeave : Bool) (status : DrainStatus) :
    Back handProtocol ⟨p, none⟩ (drainPolled cfg d thenLeave status) := by
  refine wp_op_bind _ trivial fun _ _ => wp_ite (fun _ => rfl) fun _ => ?_
  refine wp_ite (fun _ => ?_) fun _ => wp_ite (fun _ => wp_hand_persist rfl) fun _ => ?_
  · refine wp_seq _ (wp_ite (fun _ => ?_) fun _ => wp_op_bind _ trivial fun _ _ =>
      wp_hand_persist rfl)
    refine wp_mono _ (fun _ m' hm => ?_) (wp_hand_retire (p := p) d.id)
    rw [hm]
    exact wp_hand_persist rfl
  · exact wp_op_bind _ trivial fun _ _ => rfl

lemma wp_hand_pollDrain (d : Drive) :
    Back handProtocol ⟨p, none⟩ (pollDrain cfg d) := by
  refine wp_op_bind _ nofun fun r _ => ?_
  rcases r with why | _ | status
  · rfl
  · exact wp_op_bind _ trivial fun _ _ => rfl
  · exact wp_hand_drainPolled d _ _

/-- The engine has the drive open, and the task has it in hand. -/
def OpenIn (id : DriveId) (l : List (String × String)) (m : Hand) : Prop :=
  m.told = some (id, .labels l) ∨ m.told = some (id, .opened l)

lemma wp_hand_openInEngine {target : String} {l : List (String × String)} {id : DriveId}
    {listed : List EngineDrive} {Q : Except String Unit → Hand → Prop}
    (hok : ∀ t, OpenIn id l ⟨p, some (id, t)⟩ → Q (.ok ()) ⟨p, some (id, t)⟩)
    (herr : ∀ why, Q (.error why) ⟨p, none⟩) :
    wp handProtocol (openInEngine target l id listed) Q ⟨p, none⟩ := by
  refine wp_ite (fun _ => ⟨fun _ => rfl, fun r _ => ?_⟩) fun _ => ⟨fun _ => rfl, fun r _ => ?_⟩
  · cases r with
    | ok _ => exact hok _ (.inl rfl)
    | error why => exact herr why
  · cases r with
    | ok _ => exact hok _ (.inr rfl)
    | error why => exact herr why

lemma wp_hand_slabInEngine {target tier : String} {role : Option Role} {id : DriveId} {t : Told}
    {Q : Except String Bool → Hand → Prop} (hok : ∀ b, Q (.ok b) ⟨p, some (id, t)⟩)
    (herr : ∀ why, Q (.error why) ⟨p, none⟩) :
    wp handProtocol (slabInEngine target tier role) Q ⟨p, some (id, t)⟩ := by
  refine wp_op_bind _ nofun fun slabs _ => wp_ite (fun _ => ?_) fun _ => hok false
  refine wp_andThen ⟨nofun, fun r _ => ?_⟩
  cases r with
  | ok _ => exact hok true
  | error why => exact herr why

lemma wp_hand_join (d : Drive) (formatSlab : Bool) (tier : Option String) :
    Back handProtocol ⟨p, none⟩ (join cfg d formatSlab tier) := by
  refine wp_andThen ⟨nofun, fun r _ => ?_⟩
  cases r with
  | error why => rfl
  | ok listed =>
    refine wp_andThen (wp_hand_openInEngine (fun t ht => ?_) fun _ => rfl)
    have hend : ∀ b, wp handProtocol (do
        let _ ← changeDrive d.id (.joined d.stormblockLabels)
        pure (.ok (if b = true then some (tier.getD (cfg.tierFor d.kind)) else none)))
        (fun (_ : Except String (Option String)) m' => m' = ⟨p, none⟩) ⟨p, some (d.id, t)⟩ :=
      fun b => wp_op_bind _ ht fun _ _ => rfl
    refine wp_andThen (wp_ite (fun _ => wp_hand_slabInEngine hend fun _ => rfl) fun _ => ?_)
    exact hend false

lemma wp_hand_joinAndPersist (d : Drive) (formatSlab : Bool) (tier : Option String) :
    Back handProtocol ⟨p, none⟩ (joinAndPersist cfg d formatSlab tier) := by
  refine wp_seq _ (wp_mono _ (fun r m' hm => ?_) (wp_hand_join (p := p) d formatSlab tier))
  rw [hm]
  cases r with
  | ok _ => exact wp_hand_persist rfl
  | error why => rfl

/-- **An enrolment writes down what it told the engine.** -/
lemma wp_hand_stepEnroll (d : Drive) (tier : Option String) (role : Role) (steps : List Step) :
    Back handProtocol ⟨p, none⟩ (stepEnroll cfg d tier role steps) := by
  refine wp_andThen ⟨nofun, fun r _ => ?_⟩
  cases r with
  | error why => rfl
  | ok listed =>
    refine wp_andThen (wp_hand_openInEngine (fun t ht => ?_) fun _ => rfl)
    refine wp_andThen (wp_hand_slabInEngine (fun _ => ?_) fun _ => rfl)
    exact wp_op_bind _ ht fun _ _ => wp_seq _ (wp_hand_persist rfl)

lemma wp_hand_fleetTick : Back handProtocol ⟨p, none⟩ (fleetTick cfg) := by
  refine back_fleetTick (overlooks_hand _) (fun o ho => ?_) wp_hand_pushLabel wp_hand_pushOvercommit
    wp_hand_pushThermal wp_hand_reportHealth wp_hand_pollDrain (fun id reason thenLeave => ?_)
    fun d => wp_hand_joinAndPersist d _ _
  · cases o with
    | record r => cases r <;> first | exact ⟨trivial, fun _ => rfl⟩ | cases ho
    | _ => cases ho
  · exact wp_hand_of_drains (drains_requestDrain _ _ _) fun _ => rfl

lemma wp_hand_leaveNow (d : Drive) (force : Bool) :
    wp handProtocol (leaveNow cfg d force) (fun _ _ => True) ⟨p, none⟩ := by
  refine wp_op_bind _ (fun _ => rfl) fun r _ => ?_
  cases r with
  | error why => trivial
  | ok _ => exact wp_op_bind _ rfl fun _ _ => wp_hand_persist trivial

lemma wp_hand_fleetLeave (id : DriveId) (drain force : Bool) :
    wp handProtocol (fleetLeave cfg id drain force) (fun _ _ => True) ⟨p, none⟩ := by
  refine wp_op_bind _ trivial fun r _ => ?_
  cases r with
  | none => trivial
  | some d =>
    refine wp_ite (fun _ => trivial) fun _ => wp_ite (fun _ => wp_hand_leaveNow d force) fun _ => ?_
    refine wp_op_bind _ nofun fun r _ => ?_
    rcases r with why | _ | _
    · trivial
    · exact wp_hand_leaveNow d force
    · refine wp_when (fun _ => wp_ignore ?_) fun _ => trivial
      exact wp_hand_of_drains (drains_startDrain _ _ _) fun _ => trivial

lemma wp_hand_systemSync {m : Hand} {Q : Unit → Hand → Prop} (hQ : Q () m) :
    wp handProtocol systemSync Q m :=
  wp_op_bind _ trivial fun _ _ => ⟨trivial, fun _ _ => hQ⟩

lemma wp_hand_setDesignation (id : DriveId) (des : Designation) :
    wp handProtocol (setDesignation cfg id des) (fun _ _ => True) ⟨p, none⟩ := by
  refine wp_op_bind _ trivial fun r _ => ?_
  cases r with
  | error why => trivial
  | ok out =>
    have hend : wp handProtocol (do
        when (out.1 = .system ∨ des = .system) systemSync
        persist cfg) (fun _ _ => True) ⟨p, none⟩ :=
      wp_seq _ (wp_when (fun _ => wp_hand_systemSync (wp_hand_persist trivial))
        fun _ => wp_hand_persist trivial)
    refine wp_seq _ (wp_when (fun _ => wp_seq _ (wp_op_bind _ trivial fun now _ => ?_)) fun _ => hend)
    have hdrain : wp handProtocol (when cfg.drainOnFailing
        (ignore (requestDrain cfg id "operator" true)))
        (fun _ m' => wp handProtocol (do
          when (out.1 = .system ∨ des = .system) systemSync
          persist cfg) (fun _ _ => True) m') ⟨p, none⟩ :=
      wp_when (fun _ => wp_ignore (wp_hand_of_drains (drains_requestDrain _ _ _) fun _ => hend))
        fun _ => hend
    refine wp_op_bind _ (fun _ => rfl) fun r _ => ?_
    cases r with
    | error why => exact hdrain
    | ok _ => exact wp_ignore ⟨rfl, fun _ _ => hdrain⟩

/-- **A PATCH writes down what it told the engine**, when the engine accepts its report. -/
lemma wp_hand_patchDesignation (d : Drive) (des : Designation) :
    Back handProtocol ⟨true, none⟩ (patchDesignation cfg d des) := by
  refine wp_andThen ⟨trivial, fun r _ => ?_⟩
  cases r with
  | error why => rfl
  | ok out =>
    have hend : wp handProtocol (if des = .failed ∧ d.membership = .fleet ∧ cfg.stormblock = true then do
          let _ : Except String Unit ←
            perform (.engine (.reportHealth d.stormblockPath "failed" d.id))
          let _ ← changeDrive d.id (.healthPushed "failed")
          if cfg.drainOnFailing then requestDrain cfg d.id "operator" true else pure (.ok ())
        else pure (.ok ())) (fun _ m' => m' = ⟨true, none⟩) ⟨true, none⟩ := by
      refine wp_ite (fun _ => wp_op_bind _ (fun _ => rfl) fun r hr => ?_) fun _ => rfl
      cases r with
      | error why => cases hr
      | ok _ =>
        refine wp_op_bind _ rfl fun _ _ => wp_ite (fun _ => ?_) fun _ => rfl
        exact wp_hand_of_drains (drains_requestDrain _ _ _) fun _ => rfl
    exact wp_seq _ (wp_when (fun _ => wp_hand_systemSync hend) fun _ => hend)

lemma wp_hand_patchFleet (d : Drive) (fleet : FleetPatch) :
    Back handProtocol ⟨p, none⟩ (patchFleet cfg d fleet) := by
  refine wp_ite (fun _ => rfl) fun _ => ?_
  cases fleet with
  | leave =>
    refine wp_ite (fun _ => ?_) fun _ => rfl
    exact wp_hand_of_drains (drains_startDrain _ _ _) fun _ => rfl
  | join =>
    dsimp only
    split
    · exact wp_ite (fun _ => rfl) fun _ => rfl
    · refine wp_andThen (wp_mono _ (fun r m' hm => ?_) (wp_hand_join (p := p) d _ _))
      cases r with
      | ok _ => exact hm
      | error why => exact hm

lemma wp_hand_patchPart {β : Type} {x : Option β} {f : β → Work (Except String Unit)}
    (hf : ∀ b, Back handProtocol ⟨p, none⟩ (f b)) :
    Back handProtocol ⟨p, none⟩ (patchPart x f) := by
  cases x with
  | none => rfl
  | some b => exact hf b

lemma wp_hand_patchDrive (id : DriveId) (patch : DriveSpecPatch) :
    wp handProtocol (patchDrive cfg id patch) (fun _ _ => True) ⟨true, none⟩ := by
  have hthen : ∀ {q : Work (Except String Unit)} {f : Unit → Work (Except String Unit)},
      wp handProtocol q (fun _ m' => m' = ⟨true, none⟩) ⟨true, none⟩ →
      (∀ a, wp handProtocol (f a) (fun _ _ => True) ⟨true, none⟩) →
      wp handProtocol (andThen q f) (fun _ _ => True) ⟨true, none⟩ := by
    intro q f hq hf
    refine wp_andThen (wp_mono _ (fun r m' hm => ?_) hq)
    cases r with
    | ok a => exact hm ▸ hf a
    | error why => trivial
  refine wp_op_bind _ trivial fun r _ => ?_
  cases r with
  | none => trivial
  | some d =>
    refine hthen (wp_hand_patchPart (wp_hand_patchDesignation d)) fun _ =>
      hthen (wp_hand_patchPart (wp_hand_patchFleet d)) fun _ =>
        hthen (wp_hand_patchPart fun drain => ?_) fun _ => wp_seq _ (wp_hand_persist trivial)
    exact wp_ite (fun _ => wp_hand_of_drains (drains_startDrain _ _ _) fun _ => rfl) fun _ =>
      wp_ite (fun _ => wp_hand_of_drains (drains_cancelDrain _) fun _ => rfl) fun _ => rfl

/-- **Every task writes down what it told the engine.** -/
theorem hands_entry (r : Req) (m : Hand) (h : handProtocol.ready r m) :
    wp handProtocol (r.entry cfg) (Ends handProtocol) m := by
  obtain ⟨p, told⟩ := m
  obtain ⟨rfl, hpatch⟩ := h
  by_cases hr : r.ofFleet = true
  swap
  · refine wp_entry (overlooks_hand _) wp_hand_stepEnroll trivial (fun _ _ _ _ _ _ => ⟨rfl, nofun⟩) ?_
    simpa using hr
  have honce : ∀ {q : Work Unit}, wp handProtocol q (fun _ _ => True) ⟨p, none⟩ →
      wp handProtocol (once q) (Ends handProtocol) ⟨p, none⟩ := fun hq => wp_seq _ hq
  cases r with
  | collect =>
    refine honce (wp_seq _ (wp_when (fun _ => wp_op_bind _ nofun fun r _ => ?_)
      fun _ => wp_hand_persist trivial))
    cases r with
    | ok listed => exact ⟨trivial, fun _ _ => wp_hand_persist trivial⟩
    | error why => exact wp_hand_persist trivial
  | fleetTick => exact honce (wp_mono _ (fun _ _ _ => trivial) wp_hand_fleetTick)
  | fleetJoin id formatSlab tier =>
    refine honce (wp_op_bind _ trivial fun r _ => ?_)
    cases r with
    | none => trivial
    | some d =>
      refine wp_op_bind _ trivial fun disk _ => wp_ite (fun _ => trivial) fun _ => ?_
      exact wp_mono _ (fun _ _ _ => trivial) (wp_hand_joinAndPersist (p := p) d _ _)
  | fleetLeave id drain force => exact honce (wp_hand_fleetLeave id drain force)
  | startDrain id leave =>
    refine honce (wp_when (fun _ => wp_ignore ?_) fun _ => trivial)
    exact wp_hand_of_drains (drains_startDrain _ _ _) fun _ => trivial
  | cancelDrain id =>
    exact honce (wp_ignore (wp_hand_of_drains (drains_cancelDrain _) fun _ => trivial))
  | setDesignation id des => exact honce (wp_hand_setDesignation id des)
  | patchDrive id patch =>
    obtain rfl : p = true := hpatch rfl
    exact honce (wp_ignore (wp_hand_patchDrive id patch))
  | _ => cases hr

end Entry

/-! ## What the engine holds -/

/-- What is recorded as pushed of a part is what the registration holds. -/
def Agrees (d : Drive) (r : Option Registration) : Part → Prop
  | .labels => r.map Registration.labels = some d.pushedLabels
  | .health => ∀ word, d.pushedHealth = some word → r.bind Registration.health = some word
  | .overcommit => ∀ oc, d.pushedOvercommit = some oc → r.bind Registration.overcommit = some oc
  | .thermal => ∀ word, d.pushedThermal = some word → r.bind Registration.thermal = some word

/-- What is recorded as pushed of a part is the current value. -/
def Current (d : Drive) : Part → Prop
  | .labels => d.pushedLabels = d.stormblockLabels
  | .health => d.pushedHealth = some d.healthWord
  | .overcommit => d.pushedOvercommit = some d.overcommit
  | .thermal => ∃ t, d.thermal = some t ∧ d.pushedThermal = some t.engineWord

/-- The registration holds the current value of a part. -/
def HoldsCurrent (d : Drive) (r : Option Registration) : Part → Prop
  | .labels => r.map Registration.labels = some d.stormblockLabels
  | .health => r.bind Registration.health = some d.healthWord
  | .overcommit => r.bind Registration.overcommit = some d.overcommit
  | .thermal => r.bind Registration.thermal = d.thermal.map DriveThermal.engineWord

/-- What being told something makes of a registration. -/
def Told.registered (r : Option Registration) : Told → Option Registration
  | labels l => some { r.getD {} with labels := l }
  | opened l => some { labels := l }
  | health word => some { r.getD {} with health := some word }
  | overcommit oc => some { r.getD {} with overcommit := some oc }
  | thermal word => some { r.getD {} with thermal := some word }
  | removed => none

/-- What a registration has after it was told something. -/
def Told.Accepted (r : Option Registration) : Told → Prop
  | labels l | opened l => r.map Registration.labels = some l
  | health word => r.bind Registration.health = some word
  | overcommit oc => r.bind Registration.overcommit = some oc
  | thermal word => r.bind Registration.thermal = some word
  | removed => True

/-- No task has a part of a registration in hand. -/
def Free (ms : List Hand) (x : DriveId × Part) : Prop :=
  ∀ m ∈ ms, x ∉ m.parts

/-- The engine holds what the records of the fleet's drives say was pushed. -/
def FleetAgrees (inv : Inventory) (e : Engine) : Prop :=
  ∀ id d p, inv id = some d → d.membership = .fleet → Agrees d (e id) p

section Property

variable (cfg : Settings) (newV5 : String → Uuid)

/-- **What is recorded as pushed is what the engine holds**, in runs whose steps meet the
condition: where what is recorded as pushed to a drive of the fleet is the current value, the
engine holds that value, unless a task is between the engine's answer and the record. -/
def RecordedIsHeld (ok : Condition Op Op.Ans State World Req Hand) : Prop :=
  ∀ (s : State) (es : List (Interleave.Event Op Op.Ans World Req)) (c : Config Op Op.Ans State Req Hand)
    (id : DriveId) (d : Drive) (p : Part),
    FleetAgrees s.records.inv s.engine →
    Run (daemon cfg newV5) handTracer ok ⟨s, []⟩ es c →
    c.state.records.inv id = some d → d.membership = .fleet → Free c.marks (id, p) →
    Current d p → HoldsCurrent d (c.state.engine id) p

/-- A request to the engine, with its answer, by a task with the mark:

* What it tells the engine, no other task has in hand.
* The report of a PATCH is accepted.
* A slab is not formatted only for a drive that is still out of the fleet, or of which the engine
  holds what is recorded. -/
structure EngineUndisturbed (s : State) (ms : List Hand) (m : Hand) (o : EngineOp) (a : o.Ans) :
    Prop where
  apart : ∀ id t, o.told a = some (id, t) → ∀ p ∈ t.parts, Free ms (id, p)
  reported : handProtocol.gives m (.engine o) a
  unformatted : (handProtocol.next m (.engine o) a).told = none →
    ∀ id d p, (id, p) ∈ m.parts → s.records.inv id = some d → d.membership = .fleet →
      Agrees d (s.engine id) p

/-- **The steps after which the records stay true**:

* The requests to the engine are undisturbed.
* A drive joins the fleet without a pushed thermal state on record that the engine does not hold.
* The reconciliation takes in only drives of which the engine holds what is recorded.
* The daemon stops only when that is so of the fleet's drives in inventory.json. -/
def Undisturbed : Condition Op Op.Ans State World Req Hand
  | s, ms, .turn i (.engine o) a => ∀ m, ms[i]? = some m → EngineUndisturbed s ms m o a
  | s, _, .turn _ (.record (.change id (.joined _))) _
  | s, _, .turn _ (.record (.change id (.enrolled ..))) _ =>
    ∀ d, s.records.inv id = some d → Agrees d (s.engine id) .thermal
  | s, ms, .turn _ (.record (.reconcile listed)) _ =>
    ∀ id d p, s.records.inv id = some d → d.membership ≠ .fleet →
      (d.reconciled listed).membership = .fleet → Free ms (id, p) → Agrees d (s.engine id) p
  | s, _, .crash => FleetAgrees s.records.loaded.inv s.engine
  | _, _, _ => True

end Property

/-! ## The invariant -/

/-- What a task has in hand, the engine has accepted; what none has in hand is as it is recorded. -/
structure Written (s : State) (ms : List Hand) : Prop where
  exclusive : Exclusive Hand.parts ms
  told : ∀ m ∈ ms, ∀ id t, m.told = some (id, t) → t.Accepted (s.engine id)
  agrees : ∀ id d p, s.records.inv id = some d → d.membership = .fleet → Free ms (id, p) →
    Agrees d (s.engine id) p

section Invariant

variable {s s' : State} {ms : List Hand} {i : Nat} {m m' : Hand}

/-- The parts that a task without anything in hand has in hand. -/
lemma parts_eq_nil (h : m.told = none) : m.parts = [] := by
  rw [Hand.parts, h]

/-- The parts of what a task has in hand. -/
lemma mem_parts_iff {x : DriveId × Part} :
    x ∈ m.parts ↔ ∃ t, m.told = some (x.1, t) ∧ x.2 ∈ t.parts := by
  unfold Hand.parts
  constructor
  · intro h
    split at h
    · next id t ht =>
      obtain ⟨p, hp, rfl⟩ := List.mem_map.mp h
      exact ⟨t, ht, hp⟩
    · cases h
  · intro h
    obtain ⟨t, ht, hp⟩ := h
    rw [ht]
    exact List.mem_map.mpr ⟨x.2, hp, rfl⟩

lemma nodup_parts (m : Hand) : m.parts.Nodup := by
  unfold Hand.parts
  split
  · next id t ht =>
    have hinj : Function.Injective fun p : Part => (id, p) := fun p q h => (Prod.mk.inj h).2
    rw [List.nodup_map_iff hinj]
    cases t <;> simp [Told.parts]
  · exact List.nodup_nil

/-- What is free when one task's mark moves was free before, or that task let go of it. -/
lemma Free.of_set {x : DriveId × Part} (hm : ms[i]? = some m) (h : Free (ms.set i m') x)
    (hx : x ∉ m.parts) : Free ms x := by
  intro n hn hxn
  obtain ⟨j, hj⟩ := List.getElem?_of_mem hn
  by_cases hji : j = i
  · subst hji
    rw [hm] at hj
    cases hj
    exact hx hxn
  · refine h n (List.mem_of_getElem? (i := j) ?_) hxn
    rw [List.getElem?_set_ne (Ne.symm hji)]
    exact hj

/-- What is free after a task's mark moved, that task does not have in hand. -/
lemma Free.not_mem_of_set {x : DriveId × Part} (hm : ms[i]? = some m)
    (h : Free (ms.set i m') x) : x ∉ m'.parts := by
  have hi : i < ms.length := (List.getElem?_eq_some_iff.mp hm).1
  exact h m' (List.mem_set hi m')

/-! ### The engine -/

/-- **What a request does to the registrations**: what it tells, if it is accepted. -/
lemma engine_exec {newV5 : String → Uuid} {env : Env} {o : EngineOp} {a : o.Ans}
    (hex : (Op.engine o).exec newV5 env s = some (a, s')) :
    s'.engine = match o.told a with
      | some (id, t) => Function.update s.engine id (t.registered (s.engine id))
      | none => s.engine := by
  cases hex
  cases o
  case setOvercommit | setThermal =>
    cases hok : env.ok <;> cases htook : env.took <;>
      simp [EngineOp.answer, EngineOp.accepted, EngineOp.taken, EngineOp.told, Engine.set,
        Told.registered, hok, htook]
  case setLabels | addDrive | reportHealth | deleteDrive =>
    cases hok : env.ok <;>
      simp [EngineOp.answer, EngineOp.accepted, EngineOp.taken, EngineOp.told, Engine.set,
        Told.registered, hok]
  all_goals exact ite_self _

/-- What was told is accepted. -/
lemma Told.accepted_registered (t : Told) (r : Option Registration) :
    t.Accepted (t.registered r) := by
  cases t <;> first | rfl | trivial

/-- The parts that it does not change stay. -/
lemma agrees_registered {t : Told} {d : Drive} {r : Option Registration} {p : Part}
    (hp : p ∉ t.parts) (h : Agrees d r p) : Agrees d (t.registered r) p := by
  cases t <;> cases p <;> simp only [Told.parts, List.mem_cons, List.not_mem_nil, not_or,
    not_true_eq_false, false_and, and_false] at hp <;> cases r <;> simp_all [Agrees, Told.registered]

/-- What was accepted stays so when other parts change. -/
lemma Told.Accepted.registered {t t' : Told} {r : Option Registration} (h : t'.Accepted r)
    (hp : ∀ p ∈ t'.parts, p ∉ t.parts) : t'.Accepted (t.registered r) := by
  cases t' <;> cases t <;> simp only [Told.parts, List.mem_cons, List.not_mem_nil, or_false,
    forall_eq, not_true_eq_false, forall_eq_or_imp, false_and, true_or] at hp <;> cases r <;>
    simp_all [Told.Accepted, Told.registered]

/-- What a task has in hand after a request: what it told, what it had, or nothing. -/
lemma told_next_engine {o : EngineOp} {a : o.Ans} :
    (m.next (.engine o) a).told = (o.told a).or m.told ∨
      (m.next (.engine o) a).told = none ∧ o.told a = none := by
  cases o with
  | formatSlab target tier role =>
    cases a with
    | ok _ => exact .inl rfl
    | error why => exact .inr ⟨rfl, rfl⟩
  | _ => exact .inl rfl

/-- A request that tells something is one that a task makes with nothing in hand. -/
lemma tells_of_told {o : EngineOp} {a : o.Ans} {x : DriveId × Told} (h : o.told a = some x) :
    o.tells = true := by
  cases o <;> first | rfl | cases h

/-- **An undisturbed request keeps the records true.** -/
lemma Written.engine {newV5 : String → Uuid} {env : Env} {o : EngineOp} {a : o.Ans}
    (hW : Written s ms) (hm : ms[i]? = some m) (hmay : m.may (.engine o))
    (hex : (Op.engine o).exec newV5 env s = some (a, s')) (hok : EngineUndisturbed s ms m o a) :
    Written s' (ms.set i (m.next (.engine o) a)) := by
  have hmem : m ∈ ms := List.mem_of_getElem? hm
  have hrec : s'.records = s.records := records_eq_of_ne_record (fun _ h => by cases h) hex
  have heng := engine_exec hex
  cases ht : o.told a with
  | none =>
    rw [ht] at heng
    have hsub : ∀ x, (m.next (.engine o) a).told = some x → m.told = some x := by
      intro x hx
      rcases told_next_engine (m := m) (a := a) with h | ⟨h, -⟩
      · rw [ht, Option.none_or] at h
        exact h ▸ hx
      · rw [h] at hx
        cases hx
    constructor
    · refine hW.exclusive.set hm (nodup_parts _) fun x hx => .inl ?_
      obtain ⟨t, htold, hp⟩ := mem_parts_iff.mp hx
      exact mem_parts_iff.mpr ⟨t, hsub _ htold, hp⟩
    · intro n hn id t htold
      rw [heng]
      rcases List.mem_or_eq_of_mem_set hn with hn | rfl
      · exact hW.told n hn id t htold
      · exact hW.told m hmem id t (hsub _ htold)
    · intro id d p hd hfleet hfree
      rw [hrec] at hd
      rw [heng]
      by_cases hx : (id, p) ∈ m.parts
      · refine hok.unformatted ?_ id d p hx hd hfleet
        obtain ⟨t, htold, hp⟩ := mem_parts_iff.mp hx
        by_contra hsome
        obtain ⟨x, hx'⟩ := Option.ne_none_iff_exists'.mp hsome
        have hsame := (hsub x hx').symm.trans htold
        refine hfree.not_mem_of_set hm (mem_parts_iff.mpr ⟨t, ?_, hp⟩)
        exact hx'.trans hsame
      · exact hW.agrees id d p hd hfleet (hfree.of_set hm hx)
  | some x =>
    obtain ⟨id, t⟩ := x
    replace heng : s'.engine = Function.update s.engine id (t.registered (s.engine id)) := by
      rw [ht] at heng
      exact heng
    have hnone : m.told = none := hmay (tells_of_told ht)
    have hnext : (m.next (.engine o) a).told = some (id, t) := by
      rcases told_next_engine (m := m) (a := a) with h | ⟨-, h⟩
      · rw [h, ht]
        rfl
      · rw [ht] at h
        cases h
    have hparts : ∀ x, x ∈ (m.next (.engine o) a).parts ↔ x.1 = id ∧ x.2 ∈ t.parts := by
      intro x
      rw [mem_parts_iff, hnext]
      constructor
      · intro h
        obtain ⟨t', htold, hp⟩ := h
        cases htold
        exact ⟨rfl, hp⟩
      · intro h
        exact ⟨t, by rw [h.1], h.2⟩
    constructor
    · refine hW.exclusive.set hm (nodup_parts _) fun x hx => .inr ?_
      obtain ⟨rfl, hp⟩ := (hparts x).mp hx
      exact hok.apart _ t ht x.2 hp
    · refine forall_mem_set (fun id' t' htold => ?_) fun j n hj hn id' t' htold => ?_
      · rw [hnext] at htold
        cases htold
        rw [heng, Function.update_self]
        exact t.accepted_registered _
      · have hold := hW.told n (List.mem_of_getElem? hn) id' t' htold
        rw [heng]
        by_cases hid : id' = id
        · subst hid
          rw [Function.update_self]
          refine hold.registered fun p hp hpt => ?_
          exact hok.apart _ t ht p hpt n (List.mem_of_getElem? hn)
            (mem_parts_iff.mpr ⟨t', htold, hp⟩)
        · rw [Function.update_of_ne hid]
          exact hold
    · intro id' d p hd hfleet hfree
      rw [hrec] at hd
      have hx : (id', p) ∉ m.parts := by simp [parts_eq_nil hnone]
      have hold := hW.agrees id' d p hd hfleet (hfree.of_set hm hx)
      have hnot := hfree.not_mem_of_set hm
      rw [hparts] at hnot
      rw [heng]
      by_cases hid : id' = id
      · subst hid
        rw [Function.update_self]
        exact agrees_registered (fun hp => hnot ⟨rfl, hp⟩) hold
      · rw [Function.update_of_ne hid]
        exact hold

/-! ### The records -/

/-- Records that say the same of what was pushed agree with the same registrations. -/
lemma agrees_of_pushed {d d' : Drive} {r : Option Registration} {p : Part}
    (h : d'.pushed.2 = d.pushed.2) (hd : Agrees d r p) : Agrees d' r p := by
  simp only [Drive.pushed, Prod.mk.injEq] at h
  obtain ⟨hl, hh, ho, ht⟩ := h
  cases p with
  | labels => simpa only [Agrees, hl] using hd
  | health => simpa only [Agrees, hh] using hd
  | overcommit => simpa only [Agrees, ho] using hd
  | thermal => simpa only [Agrees, ht] using hd

/-- A task that writes down what it told about a drive has that drive in hand. -/
lemma told_of_writesDown {u : DriveUpdate} {id : DriveId} (hu : u.writesDown = true)
    (hmay : m.may (.record (.change id u))) : ∃ t, m.told = some (id, t) := by
  cases u with
  | joined l | enrolled part l =>
    rcases hmay with h | h
    · exact ⟨_, h⟩
    · exact ⟨_, h⟩
  | labelsPushed l | healthPushed w | overcommitPushed oc | thermalPushed w | left | retired =>
    exact ⟨_, hmay⟩
  | _ => cases hu

/-- **What a task writes down is true**, when it is what the engine accepted. -/
lemma agrees_written {d : Drive} {u : DriveUpdate} {r : Option Registration} {id : DriveId}
    {p : Part} (hu : u.writesDown = true) (hmay : m.may (.record (.change id u)))
    (hfleet : (d.apply u).membership = .fleet) (htold : ∀ t, m.told = some (id, t) → t.Accepted r)
    (hold : (id, p) ∉ m.parts → d.membership = .fleet → Agrees d r p)
    (hjoin : ∀ l part, u = .joined l ∨ u = .enrolled part l → Agrees d r .thermal) :
    Agrees (d.apply u) r p := by
  have hother : ∀ t, m.told = some (id, t) → p ∉ t.parts → (id, p) ∉ m.parts := by
    intro t ht hp hmem
    obtain ⟨t', ht', hp'⟩ := mem_parts_iff.mp hmem
    obtain ⟨-, rfl⟩ := Prod.mk.inj (Option.some.inj (ht.symm.trans ht'))
    exact hp hp'
  have hentered : ∀ l, m.told = some (id, .labels l) ∨ m.told = some (id, .opened l) →
      r.map Registration.labels = some l := by
    intro l h
    rcases h with h | h
    · exact htold _ h
    · exact htold _ h
  cases u with
  | labelsPushed l =>
    cases p with
    | labels => exact htold _ hmay
    | _ => exact hold (hother _ hmay (by simp [Told.parts])) hfleet
  | healthPushed word =>
    cases p with
    | health =>
      intro w hw
      cases hw
      exact htold _ hmay
    | _ => exact hold (hother _ hmay (by simp [Told.parts])) hfleet
  | overcommitPushed oc =>
    cases p with
    | overcommit =>
      intro w hw
      cases hw
      exact htold _ hmay
    | _ => exact hold (hother _ hmay (by simp [Told.parts])) hfleet
  | thermalPushed word =>
    cases p with
    | thermal =>
      intro w hw
      cases hw
      exact htold _ hmay
    | _ => exact hold (hother _ hmay (by simp [Told.parts])) hfleet
  | joined l =>
    cases p with
    | labels => exact hentered l hmay
    | thermal => exact hjoin l none (.inl rfl)
    | _ => exact nofun
  | enrolled part l =>
    cases p with
    | labels => exact hentered l hmay
    | thermal => exact hjoin l part (.inr rfl)
    | _ => exact nofun
  | left => cases hfleet
  | retired => cases hfleet
  | _ => cases hu

/-- **A section keeps the records true.** -/
lemma Written.record {newV5 : String → Uuid} {env : Env} {o : RecordOp} {a : o.Ans}
    (hW : Written s ms) (hm : ms[i]? = some m) (hmay : m.may (.record o))
    (hex : (Op.record o).exec newV5 env s = some (a, s'))
    (hok : Undisturbed s ms (.turn i (.record o) a)) :
    Written s' (ms.set i (m.next (.record o) a)) := by
  have hmem : m ∈ ms := List.mem_of_getElem? hm
  obtain ⟨hrec, hsame⟩ := exec_record hex
  have heng : s'.engine = s.engine := by rw [hsame]
  have hnext : (m.next (.record o) a).told = m.told ∨ (m.next (.record o) a).told = none := by
    cases o with
    | change id u =>
      simp only [Hand.next]
      split
      · exact .inr rfl
      · exact .inl rfl
    | _ => exact .inl rfl
  have hsub : ∀ x, (m.next (.record o) a).told = some x → m.told = some x := by
    intro x hx
    rcases hnext with h | h
    · exact h ▸ hx
    · rw [h] at hx
      cases hx
  constructor
  · refine hW.exclusive.set hm (nodup_parts _) fun x hx => .inl ?_
    obtain ⟨t, htold, hp⟩ := mem_parts_iff.mp hx
    exact mem_parts_iff.mpr ⟨t, hsub _ htold, hp⟩
  · intro n hn id t htold
    rw [heng]
    rcases List.mem_or_eq_of_mem_set hn with hn | rfl
    · exact hW.told n hn id t htold
    · exact hW.told m hmem id t (hsub _ htold)
  · intro id d' p hd' hfleet hfree
    rw [heng]
    rcases inv_exec_cases hrec hd' with ⟨d, hd, rfl⟩ | ⟨-, primary, paths, rfl⟩
    swap
    · cases hfleet
    have hid : d.id = id := Records.id_of_inv hd
    by_cases hmoves : o.moves = true
    swap
    · have hkept : (o.onDrive newV5 env d).pushed = d.pushed :=
        pushed_onDrive (Bool.not_eq_true _ ▸ hmoves)
      have hstay : m.next (.record o) a = m := by
        cases o with
        | change id' u => exact if_neg hmoves
        | _ => rfl
      rw [hstay, set_of_getElem? hm] at hfree
      refine agrees_of_pushed (congrArg Prod.snd hkept) (hW.agrees id d p hd ?_ hfree)
      exact (congrArg Prod.fst hkept).symm.trans hfleet
    cases o with
    | reconcile listed =>
      have hstay : m.next (.record (.reconcile listed)) a = m := rfl
      rw [hstay, set_of_getElem? hm] at hfree
      refine agrees_of_pushed (pushed_reconciled listed d) ?_
      by_cases hin : d.membership = .fleet
      · exact hW.agrees id d p hd hin hfree
      · exact hok id d p hd hin hfleet hfree
    | change id' u =>
      have hold : (id, p) ∉ m.parts → d.membership = .fleet → Agrees d (s.engine id) p :=
        fun hx hin => hW.agrees id d p hd hin (hfree.of_set hm hx)
      simp only [RecordOp.onDrive] at hfleet ⊢
      split at hfleet
      · next heq =>
        rw [if_pos heq]
        obtain rfl : id' = id := heq.symm.trans hid
        refine agrees_written hmoves hmay hfleet (hW.told m hmem id') hold fun l part hu => ?_
        rcases hu with rfl | rfl
        · exact hok d hd
        · exact hok d hd
      · next hne =>
        rw [if_neg hne]
        refine hold (fun hx => ?_) hfleet
        obtain ⟨t, ht, -⟩ := mem_parts_iff.mp hx
        obtain ⟨t', ht'⟩ := told_of_writesDown hmoves hmay
        rw [ht] at ht'
        cases ht'
        exact hne hid
    | _ => cases hmoves

/-- Nothing changes, and a task is added that has nothing in hand. -/
lemma Written.add (hW : Written s ms) {l : List Hand} (hl : ∀ n ∈ l, n.told = none) :
    Written s (ms ++ l) := by
  induction l generalizing ms with
  | nil => simpa using hW
  | cons n rest ih =>
    have hn : n.parts = [] := parts_eq_nil (hl n List.mem_cons_self)
    have hone : Written s (ms ++ [n]) := by
      constructor
      · exact hW.exclusive.concat (nodup_parts n) (by simp [hn])
      · intro m hm id t ht
        rcases List.mem_append.mp hm with hm | hm
        · exact hW.told m hm id t ht
        · obtain rfl := List.mem_singleton.mp hm
          rw [hl m List.mem_cons_self] at ht
          cases ht
      · exact fun id d p hd hin hfree =>
          hW.agrees id d p hd hin fun m hm => hfree m (List.mem_append_left _ hm)
    have hmore := ih hone fun m hm => hl m (List.mem_cons_of_mem n hm)
    simpa using hmore

/-- The registrations and what the records say of them stay. -/
lemma Written.of_same (hW : Written s ms) (hrec : ∀ id d', s'.records.inv id = some d' →
      ∃ d, s.records.inv id = some d ∧ d'.pushed = d.pushed)
    (heng : s'.engine = s.engine) : Written s' ms := by
  refine ⟨hW.exclusive, heng ▸ hW.told, fun id d' p hd' hin hfree => ?_⟩
  obtain ⟨d, hd, hsame⟩ := hrec id d' hd'
  rw [heng]
  refine agrees_of_pushed (congrArg Prod.snd hsame) (hW.agrees id d p hd ?_ hfree)
  exact (congrArg Prod.fst hsame).symm.trans hin

end Invariant

section Keeps

variable {cfg : Settings} {newV5 : String → Uuid}

/-- The tasks of a restart have nothing in hand. -/
lemma written_of_fleetAgrees {s : State} {l : List Hand} (h : FleetAgrees s.records.inv s.engine)
    (hl : ∀ n ∈ l, n.told = none) : Written s l := by
  have hnil : Written s [] :=
    ⟨exclusive_nil, nofun, fun id d p hd hin _ => h id d p hd hin⟩
  simpa using hnil.add hl

lemma told_of (r : Req) : (Hand.of r).told = none := by
  cases r <;> rfl

/-- **Undisturbed steps keep the records true.** -/
theorem keeps_written : Keeps (daemon cfg newV5) handProtocol Undisturbed Written where
  entry := hands_entry
  start s ms r hW _ _ := by
    refine ⟨⟨told_of r, id⟩, hW.add fun n hn => ?_⟩
    obtain rfl := List.mem_singleton.mp hn
    exact told_of r
  turn s ms i m o env a s' hW hm hmay hex hok := by
    have hex : o.exec newV5 env s = some (a, s') := hex
    have hchild : ∀ r, handProtocol.ready r (handProtocol.child m r) := fun r => ⟨told_of r, id⟩
    cases o with
    | engine o =>
      have hquiet : EngineUndisturbed s ms m o a := hok m hm
      have hnext : handProtocol.next m (.engine o) a = m.next (.engine o) a := rfl
      refine ⟨hquiet.reported, fun r _ => hchild r, ?_⟩
      simpa [daemon, Op.spawned, hnext] using hW.engine hm hmay hex hquiet
    | record o =>
      have hnext : handProtocol.next m (.record o) a = m.next (.record o) a := rfl
      refine ⟨trivial, fun r _ => hchild r, ?_⟩
      simpa [daemon, Op.spawned, hnext] using hW.record hm hmay hex hok
    | spawn r =>
      cases hex
      refine ⟨trivial, fun r _ => hchild r, ?_⟩
      have hstay : handProtocol.next m (.spawn r) () = m := rfl
      rw [hstay, set_of_getElem? hm]
      refine hW.add fun n hn => ?_
      obtain ⟨r', -, rfl⟩ := List.mem_map.mp hn
      exact told_of r'
    | job o | sync o | device o | query o =>
      refine ⟨trivial, fun r _ => hchild r, ?_⟩
      have hrec := records_eq_of_ne_record (fun _ h => by cases h) hex
      have heng := engine_eq_of_ne_engine (fun _ h => by cases h) hex
      have hW' : Written s' ms := hW.of_same (fun id d hd => ⟨d, hrec ▸ hd, rfl⟩) heng
      have hstay : ms.set i m = ms := set_of_getElem? hm
      simpa [daemon, Op.spawned, handProtocol, handTracer, Hand.next, hstay] using hW'
  world s ms w s' hW hw _ := by
    cases w with
    | sample id health thermal usage =>
      cases hw
      refine hW.of_same (fun id' d' hd' => ?_) rfl
      dsimp only at hd'
      rw [Records.update_inv] at hd'
      split at hd'
      · obtain ⟨d, hd, rfl⟩ := Option.map_eq_some_iff.mp hd'
        exact ⟨d, hd, rfl⟩
      · exact ⟨d', hd', rfl⟩
    | finish dev =>
      cases hw
      exact hW.of_same (fun id d hd => ⟨d, hd, rfl⟩) rfl
    | plug node dev =>
      cases hw
      exact hW.of_same (fun id d hd => ⟨d, hd, rfl⟩) rfl
  crash s ms _ hok := by
    refine ⟨fun r hr => ⟨told_of r, id⟩, written_of_fleetAgrees hok fun n hn => ?_⟩
    obtain ⟨r, -, rfl⟩ := List.mem_map.mp hn
    exact told_of r

end Keeps

/-! ## The results -/

section Results

/-- What is recorded and current is held where record and registration agree. -/
lemma holdsCurrent_of_agrees {d : Drive} {r : Option Registration} {p : Part}
    (h : Agrees d r p) (hc : Current d p) : HoldsCurrent d r p := by
  cases p with
  | labels => exact h.trans (congrArg some hc)
  | health => exact h _ hc
  | overcommit => exact h _ hc
  | thermal =>
    obtain ⟨t, ht, hpushed⟩ := hc
    have hr := h _ hpushed
    simp only [HoldsCurrent, hr, ht, Option.map_some]

/-- **What is recorded as pushed is what the engine holds**, when the steps are undisturbed.

**Proof sketch.** Every task tells the engine one thing at a time and writes down what it told
(`hands_entry`). An undisturbed request changes no part that another task has in hand
(`Written.engine`), so what a task writes is still what the engine holds (`agrees_written`), and no
other section changes what is recorded (`pushed_onDrive`). -/
theorem recordedIsHeld_of_undisturbed (cfg : Settings) (newV5 : String → Uuid) :
    RecordedIsHeld cfg newV5 Undisturbed := by
  intro s es c id d p hs hrun hd hfleet hfree hcurrent
  have hgood : Good handProtocol Written c :=
    keeps_written.run (good_idle (written_of_fleetAgrees hs nofun)) hrun
  exact holdsCurrent_of_agrees (hgood.inv.agrees id d p hd hfleet hfree) hcurrent

/-- A host whose only drive is in the fleet, and open in the engine. -/
def State.inFleet : State :=
  { State.sole { Drive.testFixture ⟨⟨7⟩⟩ "sdb" with membership := .fleet } with
    sync := { serving := true }
    engine := fun id => if id = ⟨⟨7⟩⟩ then some {} else none }

lemma fleetAgrees_inFleet : FleetAgrees State.inFleet.records.inv State.inFleet.engine := by
  intro id d p hd _
  simp only [State.inFleet, State.sole] at hd
  split at hd
  · next hid =>
    cases hd
    have heng : State.inFleet.engine id = some {} := if_pos hid
    rw [heng]
    cases p <;> first | rfl | rintro _ ⟨⟩
  · cases hd

/-- The operator marks the drive failed through its resource, and the engine does not answer. -/
def failedUnheard : List (Move Env World Req) :=
  [.start (.patchDrive ⟨⟨7⟩⟩ { designation := some .failed }), .turn 0 {}, .turn 0 {},
    .turn 0 { ok := false }, .turn 0 {}]

/-- A drive of the fleet is recorded as reported, no task has its health in hand, and the engine
has not heard of it. -/
def unheard (c : Config Op Op.Ans State Req Hand) : Bool :=
  (c.state.records.inv ⟨⟨7⟩⟩).any (fun d => d.membership = .fleet ∧
    d.pushedHealth = some d.healthWord ∧
    (c.state.engine ⟨⟨7⟩⟩).bind Registration.health ≠ some d.healthWord) &&
  c.marks.all fun m => (⟨⟨7⟩⟩, Part.health) ∉ m.parts

/-- **Not all steps are so**: a PATCH records its report of a failed drive whatever the engine
answers. -/
theorem failed_report_recorded :
    ¬ RecordedIsHeld {} (fun _ => ⟨0⟩) fun _ _ _ => True := by
  intro hheld
  obtain ⟨es, c, hrun, hcheck⟩ : ∃ es c, Run (daemon {} fun _ => ⟨0⟩) handTracer
      (fun _ _ _ => True) ⟨State.inFleet, []⟩ es c ∧ unheard c = true :=
    exists_run_of_moves failedUnheard (by decide +kernel)
  obtain ⟨hany, hfree⟩ := Bool.and_eq_true_iff.mp hcheck
  obtain ⟨d, hd, hbad⟩ := (Option.any_eq_true _ _).mp hany
  obtain ⟨hfleet, hpushed, hnot⟩ := of_decide_eq_true hbad
  exact hnot (hheld State.inFleet es c _ d .health fleetAgrees_inFleet hrun hd hfleet
    (fun m hm => of_decide_eq_true (List.all_eq_true.mp hfree m hm)) hpushed)

end Results

end StormDrive
