import StormDrive.Daemon.Drains

set_option relaxedAutoImplicit false
set_option autoImplicit false

/-!
# Slabs of the drives that join

A join and an enrolment open the drive in the engine, ask for the slabs on it, format one when there
is none, and put the drive into the fleet. Each of these is a request that can fail, and between any
two of them a discovery pass may take the drive for one of the fleet, because the engine lists it.

## Main definitions

* `Laying`, `layingProtocol` — the drive that a task has opened in the engine, and what it knows of
  the slabs there.
* `FormatsOnEmptiness` — a slab is formatted only where the engine has listed none.
* `CompletesJoins` — a drive that was to get a slab is not left in the fleet without one.
* `Answered`, `Unfailing` — the steps after which these hold.

## Main results

* `layings_entry` — every task keeps to the protocol.
* `slabs_of_answered` — both hold, in runs of such steps.
* `failed_slab_left` — neither does in every run.
-/

namespace StormDrive

open Interleave Interleave.Prog Work

/-! ## What a task lays -/

/-- The drive that a task has opened in the engine. -/
structure Laying where
  /-- The task formats a slab on what it opens. -/
  wants : Bool
  /-- The task opens drives. The fleet's tick does when it has come to the new ones. -/
  opens : Bool := true
  /-- The drive that is open, and not yet put into the fleet. -/
  drive : Option DriveId := none
  /-- The last target that was listed without a slab, and whether the engine answered. -/
  listing : Option (String × Bool) := none
  /-- A slab is on the drive: it was listed, or has been formatted. -/
  there : Bool := false
  deriving DecidableEq

namespace Laying

/-- The task has the drive open, to put a slab on it. -/
def lays (m : Laying) (id : DriveId) : Bool :=
  m.wants && m.drive = some id

/-- The task is done with the drive. -/
def ended (m : Laying) : Laying :=
  { wants := m.wants, opens := m.opens }

/-- The engine has been asked to open a drive. -/
def opened (m : Laying) (id : DriveId) (ok : Bool) : Laying :=
  if m.opens && ok then { m.ended with drive := some id } else m

/-- The engine has been asked for the slabs. -/
def looked (m : Laying) (target : String) : Except String (List String) → Laying
  | .ok [] => { m with listing := some (target, true) }
  | .ok (_ :: _) => { m with listing := none, there := true }
  | .error _ => { m with listing := some (target, false) }

/-- The engine has been asked to format one. -/
def formatted (m : Laying) (ok : Bool) : Laying :=
  if ok then { m with listing := none, there := true } else m.ended

/-- A task after an operation. -/
def next (m : Laying) : (op : Op) → op.Ans → Laying
  | .record (.due .add), _ => { m with opens := true }
  | .record (.change _ (.joined _)), _ | .record (.change _ (.enrolled ..)), _ => m.ended
  | .engine (.setLabels _ _ id), r => m.opened id r.isOk
  | .engine (.addDrive _ _ id), r => m.opened id r.isOk
  | .engine (.driveSlabs target), r => m.looked target r
  | .engine (.formatSlab ..), r => m.formatted r.isOk
  | _, _ => m

/-- A task that begins with a request. -/
def of (cfg : Settings) : Req → Laying
  | .fleetJoin _ formatSlab _ => { wants := formatSlab }
  | .patchDrive .. => { wants := cfg.autoFormatSlab }
  | r => if r.ofFleet then { wants := cfg.autoFormatSlab, opens := false } else { wants := true }

/-- **A slab is formatted on what was listed without one**, or not answered for, and a drive is put
into the fleet with the slab that was to be on it. -/
def may (m : Laying) : Op → Prop
  | .engine (.setLabels ..) | .engine (.addDrive ..) => m.opens = true → m.drive = none
  | .engine (.formatSlab target ..) => ∃ answered, m.listing = some (target, answered)
  | .record (.change id (.joined _)) => m.drive = some id ∧ (m.wants = true → m.there = true)
  | .record (.change id (.enrolled ..)) => m.drive = some id ∧ m.wants = true ∧ m.there = true
  | _ => True

end Laying

/-- How the open drives move. -/
def layingTracer (cfg : Settings) : Tracer Op Op.Ans Req Laying where
  fresh := Laying.of cfg
  next := Laying.next
  child _ := Laying.of cfg

/-- The protocol of the joins. -/
def layingProtocol (cfg : Settings) : Protocol Op Op.Ans Req Laying where
  toTracer := layingTracer cfg
  may := Laying.may
  gives _ _ _ := True
  ready r m := m = Laying.of cfg r
  done m := m.drive = none

/-! ## Every task keeps to the protocol -/

/-- The operation has nothing to do with the joins. -/
def Op.offJoins : Op → Bool
  | .record (.due .add) | .engine (.setLabels ..) | .engine (.addDrive ..)
  | .engine (.driveSlabs _) | .engine (.formatSlab ..) => false
  | .record (.change _ u) => !u.enters
  | _ => true

section Entry

variable {cfg : Settings} {α : Type} {m : Laying} {w : Bool}

/-- What has nothing to do with the joins is allowed, and leaves the mark. -/
lemma laying_offJoins {o : Op} (ho : o.offJoins = true) :
    (layingProtocol cfg).may m o ∧ ∀ x, (layingProtocol cfg).next m o x = m := by
  cases o with
  | record r =>
    cases r with
    | change id u => cases u <;> first | exact ⟨trivial, fun _ => rfl⟩ | cases ho
    | due d => cases d <;> first | exact ⟨trivial, fun _ => rfl⟩ | cases ho
    | _ => exact ⟨trivial, fun _ => rfl⟩
  | engine r => cases r <;> first | exact ⟨trivial, fun _ => rfl⟩ | cases ho
  | _ => exact ⟨trivial, fun _ => rfl⟩

/-- What has nothing to do with the fleet has nothing to do with the joins. -/
lemma offJoins_of_offFleet {o : Op} (ho : o.offFleet = true) : o.offJoins = true := by
  cases o with
  | record r =>
    cases r with
    | change id u => cases u <;> first | rfl | cases ho
    | due d => cases ho
    | _ => rfl
  | engine r => cases ho
  | _ => rfl

lemma overlooks_laying (m : Laying) : Overlooks (layingProtocol cfg) m :=
  ⟨fun _ ho => (laying_offJoins (offJoins_of_offFleet ho)).1,
    fun _ x ho => (laying_offJoins (offJoins_of_offFleet ho)).2 x⟩

/-- A part that has nothing to do with the joins leaves the mark. -/
lemma wp_laying_offJoins {p : Work α} {Q : α → Laying → Prop}
    (hp : Only (fun o => o.offJoins = true) p) (hQ : ∀ a, Q a m) :
    wp (layingProtocol cfg) p Q m :=
  wp_of_only _ hp (fun _ ho => (laying_offJoins ho).1) (fun _ x ho => (laying_offJoins ho).2 x) hQ

/-- A drain has nothing to do with the joins. -/
lemma Drains.offJoins {p : Work α} {id : DriveId} (hp : Drains id p) :
    Only (fun o => o.offJoins = true) p := by
  refine hp.mono fun o ho => ?_
  cases o with
  | record r =>
    cases r with
    | change id' u => cases u <;> first | rfl | exact False.elim ho
    | _ => first | rfl | exact False.elim ho
  | engine r => cases r <;> first | rfl | exact False.elim ho
  | _ => exact False.elim ho

lemma persist_offJoins : Only (fun o => o.offJoins = true) (persist cfg) :=
  only_persist rfl rfl

/-- What is done for the fleet's drives leaves a task that opens none. -/
lemma back_laying_of_member {q : Work α} (hq : OfMember q) (hm : m.opens = false) :
    Back (layingProtocol cfg) m q := by
  refine wp_of_only _ hq (fun o ho => ?_) (fun o x ho => ?_) fun _ => rfl
  · obtain ⟨id, ho⟩ := ho
    by_cases hoff : o.offJoins = true
    · exact (laying_offJoins hoff).1
    · cases o with
      | record r =>
        cases r with
        | change id' u => cases u <;> first | exact absurd rfl hoff | cases ho.2
        | due d => exact False.elim ho
        | _ => exact absurd rfl hoff
      | engine r =>
        cases r with
        | setLabels => exact fun hopens => by rw [hm] at hopens; cases hopens
        | _ => first | exact absurd rfl hoff | cases ho.2
      | _ => exact absurd rfl hoff
  · obtain ⟨id, ho⟩ := ho
    by_cases hoff : o.offJoins = true
    · exact (laying_offJoins hoff).2 x
    · cases o with
      | record r =>
        cases r with
        | change id' u => cases u <;> first | exact absurd rfl hoff | cases ho.2
        | due d => exact False.elim ho
        | _ => exact absurd rfl hoff
      | engine r =>
        cases r with
        | setLabels =>
          simp only [layingProtocol, layingTracer, Laying.next, Laying.opened, hm, Bool.false_and]
          rfl
        | _ => first | exact absurd rfl hoff | cases ho.2
      | _ => exact absurd rfl hoff

/-! ### Joins -/

/-- **The engine opens the drive**, or the join goes no further. -/
lemma wp_laying_openInEngine {target : String} {labels : List (String × String)} {id : DriveId}
    {listed : List EngineDrive} :
    wp (layingProtocol cfg) (openInEngine target labels id listed)
      (fun r m => m = match r with
        | .ok _ => { wants := w, drive := some id }
        | .error _ => { wants := w }) { wants := w } := by
  refine wp_ite (fun _ => ⟨fun _ => rfl, fun r _ => ?_⟩) fun _ => ⟨fun _ => rfl, fun r _ => ?_⟩
  · cases r <;> rfl
  · cases r <;> rfl

/-- **A slab is formatted where none is listed**, and is there when the task goes on. -/
lemma wp_laying_slabInEngine {target tier : String} {role : Option Role} {id : DriveId} :
    wp (layingProtocol cfg) (slabInEngine target tier role)
      (fun r m => match r with
        | .ok _ => m = { wants := w, drive := some id, there := true }
        | .error _ => m = { wants := w }) { wants := w, drive := some id } := by
  refine wp_op_bind _ trivial fun slabs _ => ?_
  have hformat : ∀ answered, wp (layingProtocol cfg)
      (andThen (perform (.engine (.formatSlab target tier role)) : Work (Except String Unit))
        fun _ => pure (.ok true))
      (fun r m => match r with
        | .ok _ => m = { wants := w, drive := some id, there := true }
        | .error _ => m = { wants := w })
      { wants := w, drive := some id, listing := some (target, answered) } := fun answered => by
    refine wp_andThen ⟨⟨answered, rfl⟩, fun r _ => ?_⟩
    cases r <;> rfl
  rcases slabs with why | _ | ⟨name, rest⟩
  · exact hformat false
  · exact hformat true
  · rfl

/-- **A join** puts the drive into the fleet, or lets it go. -/
lemma back_laying_join (d : Drive) (formatSlab : Bool) (tier : Option String) :
    Back (layingProtocol cfg) { wants := formatSlab } (join cfg d formatSlab tier) := by
  refine wp_andThen ⟨trivial, fun r _ => ?_⟩
  cases r with
  | error why => rfl
  | ok listed =>
    refine wp_andThen (wp_mono _ (fun r m hm => ?_) wp_laying_openInEngine)
    subst hm
    cases r with
    | error why => rfl
    | ok _ =>
      cases formatSlab with
      | false => exact wp_op_bind _ ⟨rfl, nofun⟩ fun _ _ => rfl
      | true =>
        refine wp_andThen (wp_mono _ (fun r m hm => ?_) wp_laying_slabInEngine)
        cases r with
        | error why => exact hm
        | ok formatted =>
          subst hm
          exact wp_op_bind _ ⟨rfl, fun _ => rfl⟩ fun _ _ => rfl

lemma back_laying_joinAndPersist (d : Drive) (formatSlab : Bool) (tier : Option String) :
    Back (layingProtocol cfg) { wants := formatSlab } (joinAndPersist cfg d formatSlab tier) := by
  refine (back_laying_join d formatSlab tier).seq fun r => ?_
  cases r with
  | ok _ => exact wp_laying_offJoins persist_offJoins fun _ => rfl
  | error why => rfl

/-- **An enrolment** puts the drive into the fleet, or lets it go. -/
lemma back_laying_stepEnroll (d : Drive) (tier : Option String) (role : Role)
    (steps : List Step) :
    Back (layingProtocol cfg) { wants := true } (stepEnroll cfg d tier role steps) := by
  refine wp_andThen ⟨trivial, fun r _ => ?_⟩
  cases r with
  | error why => rfl
  | ok listed =>
    refine wp_andThen (wp_mono _ (fun r m hm => ?_) wp_laying_openInEngine)
    subst hm
    cases r with
    | error why => rfl
    | ok _ =>
      refine wp_andThen (wp_mono _ (fun r m hm => ?_) wp_laying_slabInEngine)
      cases r with
      | error why => exact hm
      | ok formatted =>
        subst hm
        exact wp_op_bind _ ⟨rfl, rfl, rfl⟩ fun _ _ =>
          wp_seq _ (wp_laying_offJoins persist_offJoins fun _ => rfl)

/-! ### The fleet's tasks -/

/-- **The fleet's tick** opens drives only when it has come to the new ones. -/
lemma wp_laying_fleetTick :
    wp (layingProtocol cfg) (fleetTick cfg) (fun _ m => m.drive = none)
      { wants := cfg.autoFormatSlab, opens := false } := by
  have hsave : ∀ {m : Laying}, m.drive = none →
      wp (layingProtocol cfg) (persist cfg) (fun _ m => m.drive = none) m :=
    fun hm => wp_laying_offJoins persist_offJoins fun _ => hm
  refine wp_fleetTick (overlooks_laying _) (fun o ho hne => ?_)
    (fun d => back_laying_of_member (keeping_pushLabel d).ofMember rfl)
    (fun ds => back_laying_of_member (ofMember_pushOvercommit ds) rfl)
    (fun ds => back_laying_of_member (ofMember_pushThermal ds) rfl)
    (fun d => back_laying_of_member (keeping_reportHealth d).ofMember rfl)
    (fun d => back_laying_of_member (keeping_pollDrain d).ofMember rfl)
    (fun id _ _ => wp_laying_offJoins (drains_requestDrain id _ _).offJoins fun _ => rfl) ?_
    (hsave rfl)
  · cases o with
    | record r =>
      cases r with
      | due w => cases w <;> first | exact ⟨trivial, fun _ => rfl⟩ | exact absurd rfl hne
      | _ => first | exact ⟨trivial, fun _ => rfl⟩ | cases ho
    | _ => cases ho
  · refine wp_op_bind _ trivial fun ds _ => ?_
    have hadd : Back (layingProtocol cfg) { wants := cfg.autoFormatSlab } (addAll cfg ds) :=
      back_forAll (f := fun d => do
        let ready : Bool ← perform (.query (.ready ("auto-add " ++ d.name)))
        when ready (joinAndPersist cfg d cfg.autoFormatSlab none)) rfl (fun _ _ => rfl) ds
        fun d _ => back_op (laying_offJoins rfl) fun _ =>
          wp_when (fun _ => back_laying_joinAndPersist d _ _) fun _ => rfl
    exact wp_mono _ (fun _ m hm => hsave (hm ▸ rfl)) hadd

/-- **A PATCH** opens the drive where it joins it. -/
lemma back_laying_patchDrive (id : DriveId) (patch : DriveSpecPatch) :
    Back (layingProtocol cfg) { wants := cfg.autoFormatSlab } (patchDrive cfg id patch) := by
  refine back_op (laying_offJoins rfl) fun x => ?_
  cases x with
  | none => rfl
  | some d =>
    have hpart : ∀ {β : Type} {x : Option β} {f : β → Work (Except String Unit)},
        (∀ b, Back (layingProtocol cfg) { wants := cfg.autoFormatSlab } (f b)) →
        Back (layingProtocol cfg) { wants := cfg.autoFormatSlab } (patchPart x f) := by
      intro β x f hf
      cases x with
      | none => rfl
      | some b => exact hf b
    have hdrain : ∀ {β : Type} {q : Work β}, Drains d.id q →
        Back (layingProtocol cfg) { wants := cfg.autoFormatSlab } q :=
      fun hq => wp_laying_offJoins hq.offJoins fun _ => rfl
    have hsave : Back (layingProtocol cfg) { wants := cfg.autoFormatSlab } (persist cfg) :=
      wp_laying_offJoins persist_offJoins fun _ => rfl
    refine (hpart fun des => ?_).andThen fun _ => (hpart fun fleet => ?_).andThen fun _ =>
      (hpart fun drain => ?_).andThen fun _ => hsave.seq fun _ => rfl
    · have hsync : Back (layingProtocol cfg) { wants := cfg.autoFormatSlab } systemSync :=
        back_op (laying_offJoins rfl) fun _ => ⟨trivial, fun _ _ => rfl⟩
      have hdes : Back (layingProtocol cfg) { wants := cfg.autoFormatSlab }
          (perform (.record (.designate d.id des)) : Work (Except String (Designation × Drive))) :=
        ⟨trivial, fun _ _ => rfl⟩
      refine hdes.andThen fun out => Back.seq (wp_when (fun _ => hsync) fun _ => rfl) fun _ => ?_
      refine wp_ite (fun _ => ?_) fun _ => rfl
      refine back_op (laying_offJoins rfl) fun _ => back_op (laying_offJoins rfl) fun _ => ?_
      exact wp_ite (fun _ => hdrain (drains_requestDrain _ _ _)) fun _ => rfl
    · refine wp_ite (fun _ => rfl) fun _ => ?_
      cases fleet with
      | leave => exact wp_ite (fun _ => hdrain (drains_startDrain _ _ _)) fun _ => rfl
      | join =>
        dsimp only
        split
        · exact wp_ite (fun _ => rfl) fun _ => rfl
        · exact (back_laying_join d _ none).andThen fun _ => rfl
    · refine wp_ite (fun _ => hdrain (drains_startDrain _ _ _)) fun _ => ?_
      exact wp_ite (fun _ => hdrain (drains_cancelDrain _)) fun _ => rfl

/-- **Every task keeps to the protocol**: a slab is formatted where none was listed, and a drive is
put into the fleet with the slab that was to be on it. -/
theorem layings_entry (r : Req) (m : Laying) (h : (layingProtocol cfg).ready r m) :
    wp (layingProtocol cfg) (r.entry cfg) (Ends (layingProtocol cfg)) m := by
  obtain rfl : m = Laying.of cfg r := h
  have honce : ∀ {q : Work Unit} {m : Laying},
      wp (layingProtocol cfg) q (fun _ m => m.drive = none) m →
      wp (layingProtocol cfg) (once q) (Ends (layingProtocol cfg)) m :=
    fun hq => wp_seq _ (wp_mono _ (fun _ _ hm => hm) hq)
  have hback : ∀ {β : Type} {q : Work β} {m : Laying}, m.drive = none →
      Back (layingProtocol cfg) m q → wp (layingProtocol cfg) q (fun _ m => m.drive = none) m :=
    fun hm hq => wp_mono _ (fun _ _ h => h ▸ hm) hq
  have hplain : ∀ {β : Type} {q : Work β} {m : Laying}, m.drive = none →
      Only (fun o => o.offJoins = true) q →
      wp (layingProtocol cfg) q (fun _ m => m.drive = none) m :=
    fun hm hq => wp_laying_offJoins hq fun _ => hm
  by_cases hr : r.ofFleet = true
  · cases r with
    | collect =>
      refine honce (hplain rfl (Only.bind (Only.when (.op_bind rfl fun r => ?_))
        fun _ => persist_offJoins))
      cases r with
      | ok listed => exact (only_op_iff _).mpr rfl
      | error why => exact only_ret _
    | fleetTick => exact honce wp_laying_fleetTick
    | fleetJoin id formatSlab tier =>
      refine honce (back_op (laying_offJoins rfl) fun x => ?_)
      cases x with
      | none => rfl
      | some d =>
        exact back_op (laying_offJoins rfl) fun _ =>
          wp_ite (fun _ => rfl) fun _ => hback rfl (back_laying_joinAndPersist d formatSlab tier)
    | fleetLeave id drain force =>
      exact honce (hback rfl (back_laying_of_member (ofMember_fleetLeave id drain force) rfl))
    | startDrain id leave =>
      exact honce (hback rfl (back_laying_of_member (drains_drainRoute id leave).keeping.ofMember
        rfl))
    | cancelDrain id => exact honce (wp_ignore (hplain rfl (drains_cancelDrain id).offJoins))
    | setDesignation id des =>
      refine honce (back_op (laying_offJoins rfl) fun r => ?_)
      have hsave : wp (layingProtocol cfg) (persist cfg) (fun _ m => m.drive = none)
          { wants := cfg.autoFormatSlab, opens := false } := hplain rfl persist_offJoins
      cases r with
      | error why => rfl
      | ok out =>
        refine Back.seq (wp_when (fun _ => ?_) fun _ => rfl) fun _ => ?_
        · refine (back_laying_of_member (keeping_reportFailed id).ofMember rfl).seq fun _ => ?_
          exact wp_when (fun _ => wp_ignore (wp_laying_offJoins (drains_requestDrain _ _ _).offJoins
            fun _ => rfl)) fun _ => rfl
        · have hsync : Back (layingProtocol cfg)
              { wants := cfg.autoFormatSlab, opens := false } systemSync :=
            back_op (laying_offJoins rfl) fun _ => ⟨trivial, fun _ _ => rfl⟩
          exact Back.seq (wp_when (fun _ => hsync) fun _ => rfl) fun _ => hsave
    | patchDrive id patch =>
      exact honce (wp_ignore (hback rfl (back_laying_patchDrive id patch)))
    | _ => cases hr
  · have hof : ∀ r : Req, r.ofFleet = false → Laying.of cfg r = { wants := true } := by
      intro r hr
      cases r <;> first | rfl | cases hr
    rw [Bool.not_eq_true] at hr
    rw [hof r hr]
    exact wp_entry (overlooks_laying _) back_laying_stepEnroll rfl
      (fun job idx steps id dn un => (hof (.driveLoop job idx steps id dn un) rfl).symm) hr

end Entry

/-! ## The properties -/

/-- The request opens the drive in the engine. -/
def EngineOp.opensDrive (id : DriveId) : EngineOp → Bool
  | .setLabels _ _ id' | .addDrive _ _ id' => id' = id
  | _ => false

/-- Another task has the drive open, to put a slab on it. -/
def LaidByOther (id : DriveId) (i : Nat) (ms : List Laying) : Prop :=
  ∃ (j : Nat) (n : Laying), j ≠ i ∧ ms[j]? = some n ∧ n.lays id = true

/-- The daemon goes on, no slab comes to be on the drive or is found there, and no task opens it that
is to put none on it. -/
def StaysBare (id : DriveId) : Condition Op Op.Ans State World Req Laying
  | _, ms, .turn i o a => ∀ m, ms[i]? = some m → (m.next o a).drive = some id →
    (m.next o a).there = false ∧ (m.drive = some id ∨ m.wants = true)
  | _, _, .crash => False
  | _, _, _ => True

section Property

variable (cfg : Settings) (newV5 : String → Uuid)

/-- **A slab is formatted only on proven emptiness**, in runs whose steps meet the condition: the
engine's answer to the listing before it was a list without a slab. -/
def FormatsOnEmptiness (ok : Condition Op Op.Ans State World Req Laying) : Prop :=
  ∀ (s : State) (es : List (Interleave.Event Op Op.Ans World Req)) (c c' : Config Op Op.Ans State Req Laying)
    (i : Nat) (target tier : String) (role : Option Role) (a : Except String Unit) (m : Laying),
    Run (daemon cfg newV5) (layingTracer cfg) ok ⟨s, []⟩ es c →
    Interleave.Step (daemon cfg newV5) (layingTracer cfg) c
      (.turn i (.engine (.formatSlab target tier role)) a) c' →
    c.marks[i]? = some m → m.listing = some (target, true)

/-- **A half-finished join is completed**, in runs whose steps meet the condition: from when a task
asks the engine to open a drive that is to get a slab, and as long as none is on it, the drive is not
in the fleet unless a task is about to put one there. -/
def CompletesJoins (ok : DriveId → Condition Op Op.Ans State World Req Laying) : Prop :=
  ∀ (s : State) (before after : List (Interleave.Event Op Op.Ans World Req))
    (c₁ c₂ c₃ : Config Op Op.Ans State Req Laying) (i : Nat) (o : EngineOp) (a : o.Ans) (m : Laying)
    (id : DriveId) (d : Drive),
    Run (daemon cfg newV5) (layingTracer cfg) (fun _ _ _ => True) ⟨s, []⟩ before c₁ →
    c₁.marks[i]? = some m → m.opens = true → m.wants = true → o.opensDrive id = true →
    (∀ n ∈ c₁.marks, n.drive = some id → n.there = false) →
    ok id c₁.state c₁.marks (.turn i (.engine o) a) →
    Interleave.Step (daemon cfg newV5) (layingTracer cfg) c₁ (.turn i (.engine o) a) c₂ →
    Run (daemon cfg newV5) (layingTracer cfg) (fun s ms e => ok id s ms e ∧ StaysBare id s ms e) c₂
      after c₃ →
    (∀ t ∈ c₃.threads, t.mark.lays id = true → ∃ r, t.prog = .ret r) →
    c₃.state.records.inv id = some d → d.membership ≠ .fleet

/-- The engine answers when it is asked for the slabs on a drive. -/
def Answered : Condition Op Op.Ans State World Req Laying
  | _, _, .turn _ (.engine (.driveSlabs _)) (.error _) => False
  | _, _, _ => True

/-- **The steps after which no drive is left without its slab**:

* The engine fails no request of a join that is to put a slab on the drive while the drive is in the
  fleet, unless another task is about to put one there.
* The reconciliation takes the drive for one of the fleet, or a join that puts no slab on it puts it
  there, only while a task is about to put one there. -/
def Unfailing (id : DriveId) : Condition Op Op.Ans State World Req Laying
  | s, ms, .turn i (.engine o) a => ∀ m d, ms[i]? = some m → o.failed a = true →
    (m.lays id = true ∨ m.opens = true ∧ m.wants = true ∧ o.opensDrive id = true) →
    s.records.inv id = some d → d.membership = .fleet → LaidByOther id i ms
  | s, ms, .turn _ (.record (.reconcile listed)) _ => ∀ d, s.records.inv id = some d →
    d.membership = .out → (listed.any fun sd => sd.matches d) = true →
    ∃ n ∈ ms, n.lays id = true
  | _, ms, .turn i (.record (.change id' (.joined _))) _ => ∀ m, ms[i]? = some m → id' = id →
    m.wants = false → ∃ n ∈ ms, n.lays id = true
  | _, _, _ => True

end Property

/-! ## The invariants -/

section Invariant

variable {cfg : Settings} {newV5 : String → Uuid} {s s' : State} {ms : List Laying} {i : Nat}
  {m : Laying} {id : DriveId}

/-- A task that begins has no drive open. -/
lemma drive_of (r : Req) : (Laying.of cfg r).drive = none := by
  cases r <;> rfl

lemma listing_of (r : Req) : (Laying.of cfg r).listing = none := by
  cases r <;> rfl

/-- What a task knows of a listing is that the engine answered. -/
lemma listing_next {o : Op} {a : o.Ans} (hok : Answered s ms (.turn i o a))
    (hm : ∀ target answered, m.listing = some (target, answered) → answered = true) :
    ∀ target answered, (m.next o a).listing = some (target, answered) → answered = true := by
  have hended : ∀ target answered, m.ended.listing = some (target, answered) → answered = true :=
    nofun
  have hopened : ∀ (id : DriveId) (b : Bool) target answered,
      (m.opened id b).listing = some (target, answered) → answered = true := by
    intro id b
    simp only [Laying.opened]
    split
    · exact nofun
    · exact hm
  cases o with
  | record r =>
    cases r with
    | change id' u => cases u <;> first | exact hm | exact hended
    | due w => cases w <;> exact hm
    | _ => exact hm
  | engine r =>
    cases r with
    | setLabels target labels id' => exact hopened id' _
    | addDrive target labels id' => exact hopened id' _
    | driveSlabs target =>
      rcases a with why | _ | ⟨name, rest⟩
      · exact False.elim hok
      · rintro _ _ ⟨⟩
        rfl
      · exact nofun
    | formatSlab target tier role =>
      cases a with
      | ok u => exact nofun
      | error why => exact hended
    | _ => exact hm
  | _ => exact hm

/-- **Every listing that a task relies on** was answered. -/
theorem keeps_answered :
    Keeps (daemon cfg newV5) (layingProtocol cfg) Answered fun _ ms =>
      ∀ m ∈ ms, ∀ target answered, m.listing = some (target, answered) → answered = true where
  entry := layings_entry
  start s ms r hJ _ _ := by
    refine ⟨rfl, List.forall_mem_append.mpr ⟨hJ, fun m hm => ?_⟩⟩
    obtain rfl : m = Laying.of cfg r := List.mem_singleton.mp hm
    rw [listing_of]
    exact nofun
  turn s ms i m o e a s' hJ hm _ _ hok := by
    refine ⟨trivial, fun r _ => rfl, forall_mem_turn hJ ?_ fun n hn => ?_⟩
    · exact listing_next hok (hJ m (List.mem_of_getElem? hm))
    · obtain ⟨r, -, rfl⟩ := List.mem_map.mp hn
      have hnone : ((layingProtocol cfg).child m r).listing = none := listing_of r
      rw [hnone]
      exact nofun
  world s ms w s' hJ _ _ := hJ
  crash s ms _ _ := by
    refine ⟨fun r _ => rfl, fun n hn => ?_⟩
    obtain ⟨r, -, rfl⟩ := List.mem_map.mp hn
    have hnone : ((layingProtocol cfg).fresh r).listing = none := listing_of r
    rw [hnone]
    exact nofun

/-- No slab is on the drive, and it is in the fleet only while a task is about to put one there. -/
structure Unfinished (id : DriveId) (s : State) (ms : List Laying) : Prop where
  bare : ∀ n ∈ ms, n.drive = some id → n.there = false
  held : ∀ d, s.records.inv id = some d → d.membership = .fleet → ∃ n ∈ ms, n.lays id = true

lemma lays_iff : m.lays id = true ↔ m.wants = true ∧ m.drive = some id := by
  simp [Laying.lays]

/-- **A task that is to put a slab on a drive** keeps it open, unless the engine fails its request. -/
lemma lays_next {o : Op} {a : o.Ans} (hmay : m.may o)
    (hbare : m.drive = some id → m.there = false) (hlays : m.lays id = true)
    (hfailed : ∀ (r : EngineOp) (x : r.Ans), o = .engine r → a ≍ x → r.failed x = false) :
    (m.next o a).lays id = true := by
  obtain ⟨hwants, hdrive⟩ := lays_iff.mp hlays
  have hthere : m.there = false := hbare hdrive
  have hopened : ∀ (id' : DriveId) (b : Bool), (m.opens = true → m.drive = none) →
      (m.opened id' b).lays id = true := by
    intro id' b hnone
    have hopens : m.opens = false := by
      by_contra hopens
      rw [hnone (Bool.not_eq_false _ ▸ hopens)] at hdrive
      cases hdrive
    simpa [Laying.opened, hopens] using hlays
  cases o with
  | record r =>
    cases r with
    | change id' u =>
      cases u with
      | joined =>
        rw [hmay.2 hwants] at hthere
        cases hthere
      | enrolled =>
        rw [hmay.2.2] at hthere
        cases hthere
      | _ => exact hlays
    | due w => cases w <;> exact hlays
    | _ => exact hlays
  | engine r =>
    cases r with
    | setLabels target labels id' => exact hopened id' _ hmay
    | addDrive target labels id' => exact hopened id' _ hmay
    | driveSlabs target =>
      rcases a with why | _ | ⟨name, rest⟩
      · exact hlays
      · exact hlays
      · exact hlays
    | formatSlab target tier role =>
      cases a with
      | ok u => exact hlays
      | error why => cases hfailed _ _ rfl HEq.rfl
    | _ => exact hlays
  | _ => exact hlays

/-- Another task's mark is there after a turn, too. -/
lemma LaidByOther.turn {m' : Laying} (h : LaidByOther id i ms) :
    ∃ n ∈ ms.set i m', n.lays id = true := by
  obtain ⟨j, n, hj, hn, hlays⟩ := h
  refine ⟨n, List.mem_of_getElem? (i := j) ?_, hlays⟩
  rw [List.getElem?_set_ne (Ne.symm hj)]
  exact hn

/-- **The drive is in the fleet only while a task is about to put a slab on it**, after a step, too. -/
lemma Unfinished.held_turn {o : Op} {e : Env} {a : o.Ans} (hJ : Unfinished id s ms)
    (hm : ms[i]? = some m) (hmay : m.may o) (hex : o.exec newV5 e s = some (a, s'))
    (hok : Unfailing id s ms (.turn i o a)) {d' : Drive} (hd' : s'.records.inv id = some d')
    (hin : d'.membership = .fleet) : ∃ n ∈ ms.set i (m.next o a), n.lays id = true := by
  have hbare : m.drive = some id → m.there = false := hJ.bare m (List.mem_of_getElem? hm)
  by_cases hrec : ∃ r, o = .record r
  · obtain ⟨r, rfl⟩ := hrec
    obtain ⟨hex', -⟩ := exec_record hex
    rcases inv_exec_cases hex' hd' with ⟨d, hd, rfl⟩ | ⟨-, primary, paths, rfl⟩
    swap
    · cases hin
    obtain rfl : d.id = id := Records.id_of_inv hd
    have hstay : (∃ n ∈ ms, n.lays d.id = true) →
        ∃ n ∈ ms.set i (m.next (.record r) a), n.lays d.id = true :=
      exists_mem_set hm fun hlays => lays_next hmay hbare hlays (by simp)
    by_cases hjoin : ∃ l, r = .change d.id (.joined l)
    · obtain ⟨l, rfl⟩ := hjoin
      refine hstay (hok m hm rfl ?_)
      by_contra hwants
      rw [Bool.not_eq_false] at hwants
      have hthere : m.there = true := hmay.2 hwants
      rw [hbare hmay.1] at hthere
      cases hthere
    by_cases henroll : ∃ part l, r = .change d.id (.enrolled part l)
    · obtain ⟨part, l, rfl⟩ := henroll
      have hthere : m.there = true := hmay.2.2
      rw [hbare hmay.1] at hthere
      cases hthere
    by_cases hreconcile : ∃ listed, r = .reconcile listed
    · obtain ⟨listed, rfl⟩ := hreconcile
      cases hwas : d.membership with
      | fleet => exact hstay (hJ.held d hd hwas)
      | out =>
        refine hstay (hok d hd hwas ?_)
        by_contra hno
        simp [RecordOp.onDrive, Drive.reconciled, hwas, hno] at hin
    · refine hstay (hJ.held d hd (fleet_of_onDrive (fun u hu => ?_) (fun l hl => ?_) hin))
      · cases u with
        | joined l => exact absurd ⟨l, hu⟩ hjoin
        | enrolled part l => exact absurd ⟨part, l, hu⟩ henroll
        | _ => rfl
      · exact hreconcile ⟨l, hl⟩
  · rw [records_eq_of_ne_record (fun r ho => hrec ⟨r, ho⟩) hex] at hd'
    have hheld : ∃ n ∈ ms, n.lays id = true := hJ.held d' hd' hin
    cases o with
    | record r => exact absurd ⟨r, rfl⟩ hrec
    | engine r =>
      by_cases hfail : r.failed a = true ∧ m.lays id = true
      · exact (hok m d' hm hfail.1 (.inl hfail.2) hd' hin).turn
      · refine exists_mem_set hm (fun hlays => lays_next hmay hbare hlays ?_) hheld
        rintro _ _ ⟨⟩ ⟨⟩
        exact Bool.not_eq_true _ ▸ fun hfailed => hfail ⟨hfailed, hlays⟩
    | _ => exact exists_mem_set hm (fun hlays => lays_next hmay hbare hlays (by simp)) hheld

/-- **Every step that the conditions allow** leaves the drive so. -/
theorem keeps_unfinished :
    Keeps (daemon cfg newV5) (layingProtocol cfg)
      (fun s ms e => Unfailing id s ms e ∧ StaysBare id s ms e) (Unfinished id) where
  entry := layings_entry
  start s ms r hJ _ _ := by
    refine ⟨rfl, List.forall_mem_append.mpr ⟨hJ.bare, fun n hn => ?_⟩, fun d hd hin => ?_⟩
    · obtain rfl : n = Laying.of cfg r := List.mem_singleton.mp hn
      rw [drive_of]
      exact nofun
    · obtain ⟨n, hn, hlays⟩ := hJ.held d hd hin
      exact ⟨n, List.mem_append_left _ hn, hlays⟩
  turn s ms i m o e a s' hJ hm hmay hex hok := by
    have hex : o.exec newV5 e s = some (a, s') := hex
    refine ⟨trivial, fun r _ => rfl, forall_mem_turn hJ.bare (fun hdrive => ?_) fun n hn => ?_,
      fun d' hd' hin => ?_⟩
    · exact (hok.2 m hm hdrive).1
    · obtain ⟨r, -, rfl⟩ := List.mem_map.mp hn
      have hnone : ((layingProtocol cfg).child m r).drive = none := drive_of r
      rw [hnone]
      exact nofun
    · obtain ⟨n, hn, hlays⟩ := hJ.held_turn hm hmay hex hok.1 hd' hin
      exact ⟨n, List.mem_append_left _ hn, hlays⟩
  world s ms w s' hJ hw _ := by
    refine ⟨hJ.bare, fun d' hd' hin => ?_⟩
    obtain ⟨d, _, _, _, hd, rfl⟩ := inv_world_cases hw hd'
    exact hJ.held d hd hin
  crash s ms _ hok := False.elim hok.2

/-- Every task of a run keeps to the protocol. -/
lemma good_layings {ok : Condition Op Op.Ans State World Req Laying} {s : State}
    {c : Config Op Op.Ans State Req Laying} {es : List (Interleave.Event Op Op.Ans World Req)}
    (h : Run (daemon cfg newV5) (layingTracer cfg) ok ⟨s, []⟩ es c) :
    Good (layingProtocol cfg) (fun _ _ => True) c := by
  have hkeeps : Keeps (daemon cfg newV5) (layingProtocol cfg) ok fun _ _ => True :=
    { entry := layings_entry
      start := fun _ _ _ _ _ _ => ⟨rfl, trivial⟩
      turn := fun _ _ _ _ _ _ _ _ _ _ _ _ _ => ⟨trivial, fun _ _ => rfl, trivial⟩
      world := fun _ _ _ _ _ _ _ => trivial
      crash := fun _ _ _ _ => ⟨fun _ _ => rfl, trivial⟩ }
  exact hkeeps.run (good_idle trivial) h

/-- **The step that asks the engine to open the drive** begins such a stretch. -/
lemma unfinished_of_open {o : EngineOp} {e : Env} {a : o.Ans}
    (hm : ms[i]? = some m) (hopens : m.opens = true) (hwants : m.wants = true)
    (ho : o.opensDrive id = true) (hbare : ∀ n ∈ ms, n.drive = some id → n.there = false)
    (hex : (Op.engine o).exec newV5 e s = some (a, s'))
    (hok : Unfailing id s ms (.turn i (.engine o) a)) :
    Unfinished id s' (ms.set i (m.next (.engine o) a)) := by
  have hsame : s'.records = s.records := records_eq_of_ne_record (fun r ho => by cases ho) hex
  have hnext : m.next (.engine o) a = { wants := true, opens := true, drive := some id } ∧
        o.failed a = false ∨
      m.next (.engine o) a = m ∧ o.failed a = true := by
    cases o with
    | setLabels target labels id' =>
      obtain rfl : id' = id := of_decide_eq_true ho
      cases a with
      | ok u =>
        left
        simp [Laying.next, Laying.opened, Laying.ended, hopens, hwants, Except.isOk, Except.toBool,
          EngineOp.failed]
      | error why =>
        right
        simp [Laying.next, Laying.opened, Except.isOk, Except.toBool, EngineOp.failed]
    | addDrive target labels id' =>
      obtain rfl : id' = id := of_decide_eq_true ho
      cases a with
      | ok u =>
        left
        simp [Laying.next, Laying.opened, Laying.ended, hopens, hwants, Except.isOk, Except.toBool,
          EngineOp.failed]
      | error why =>
        right
        simp [Laying.next, Laying.opened, Except.isOk, Except.toBool, EngineOp.failed]
    | _ => cases ho
  rcases hnext with ⟨hnext, -⟩ | ⟨hnext, hfailed⟩
  · rw [hnext]
    constructor
    · refine forall_mem_set (fun _ => rfl) fun j n _ hn => hbare n (List.mem_of_getElem? hn)
    · intro d _ _
      have hlt : i < ms.length := (List.getElem?_eq_some_iff.mp hm).1
      exact ⟨_, List.mem_set hlt _, by simp [Laying.lays]⟩
  · constructor
    · rw [hnext, set_of_getElem? hm]
      exact hbare
    · intro d hd hin
      rw [hsame] at hd
      exact (hok m d hm hfailed (.inr ⟨hopens, hwants, ho⟩) hd hin).turn

end Invariant

/-! ## Whole runs -/

/-- **A slab is formatted on proven emptiness, and no drive is left without its slab**, where the
steps are so.

**Proof sketch.** Every task keeps to the protocol (`layings_entry`): it formats a slab on what it
has listed last, and puts the drive into the fleet when the slab is there. So a format follows an
answered listing (`keeps_answered`). From when the drive is opened (`unfinished_of_open`), and as
long as no slab is on it, only the reconciliation and a join without a slab put it into the fleet;
while it is there a task has it open (`keeps_unfinished`), and that task has not ended. -/
theorem slabs_of_answered (cfg : Settings) (newV5 : String → Uuid) :
    FormatsOnEmptiness cfg newV5 Answered ∧ CompletesJoins cfg newV5 Unfailing := by
  constructor
  · intro s es c c' i target tier role a m hrun hstep hm
    have hgood := keeps_answered.run (good_idle (by simp)) hrun
    obtain ⟨m', hm', answered, hlisting⟩ := hgood.may hstep
    obtain rfl : m' = m := Option.some.inj (hm'.symm.trans hm)
    rw [hlisting, hgood.inv m' (List.mem_of_getElem? hm) target answered hlisting]
  · intro s before after c₁ c₂ c₃ i o a m id d hbefore hm hopens hwants ho hbare hok hopen hafter
      hended hd hin
    have hgood₂ : Good (layingProtocol cfg) (Unfinished id) c₂ := by
      have hrun := run_append_iff.mpr ⟨c₁, hbefore, .cons trivial hopen (.nil c₂)⟩
      refine ⟨?_, (good_layings hrun).keeps⟩
      cases hopen with
      | turn _ _ k m₀ env _ s' ht hex =>
        have hm₀ : c₁.marks[i]? = some m₀ := by simp [Config.marks, ht]
        obtain rfl : m₀ = m := Option.some.inj (hm₀.symm.trans hm)
        have hex : (Op.engine o).exec newV5 env c₁.state = some (a, s') := hex
        have hunfinished : Unfinished id s' (c₁.marks.set i (m₀.next (.engine o) a)) :=
          unfinished_of_open hm hopens hwants ho hbare hex hok
        simpa [Config.marks, children, List.map_set, daemon, Op.spawned, layingTracer]
          using hunfinished
    have hgood₃ := keeps_unfinished.run hgood₂ hafter
    obtain ⟨n, hn, hlays⟩ := hgood₃.inv.held d hd hin
    obtain ⟨t, ht, rfl⟩ := List.mem_map.mp hn
    obtain ⟨r, hr⟩ := hended t ht hlays
    have hwp := hgood₃.keeps t ht
    rw [hr] at hwp
    have hnone : t.mark.drive = none := by
      cases r with
      | none => exact hwp
      | some r =>
        have hready : t.mark = Laying.of cfg r := hwp
        rw [hready]
        exact drive_of r
    rw [lays_iff, hnone] at hlays
    cases hlays.2

/-- A host whose only drive is free. -/
def State.oneFree : State :=
  { State.sole (Drive.testFixture ⟨⟨7⟩⟩ "sdb") with sync := { serving := true } }

/-- A PATCH joins the drive, and the engine does not answer for its slabs. -/
def joinUnlisted : List (Move Env World Req) :=
  [.start (.patchDrive ⟨⟨7⟩⟩ { fleet := some .join }), .turn 0 {}, .turn 0 {}, .turn 0 {},
    .turn 0 { ok := false }]

/-- The first task formats a slab next, and has no answer about those that are there. -/
def formatsUnlisted (c : Config Op Op.Ans State Req Laying) : Bool :=
  match (daemon {} fun _ => ⟨0⟩).step (layingTracer {}) c (.turn 0 {}) with
  | some (.turn 0 (.engine (.formatSlab target _ _)) _, _) =>
    (c.marks[0]?).any fun m => m.listing ≠ some (target, true)
  | _ => false

/-- The engine refuses the slab, and a discovery pass finds the drive in its list. -/
def refusedThenListed : List (Move Env World Req) :=
  [.turn 0 {}, .turn 0 { ok := false }, .start .collect,
    .turn 1 { listed := [{ path := some "/dev/sdb" }] }, .turn 1 {}]

/-- The check of `StaysBare`. -/
def staysBare (id : DriveId) (_ : State) (ms : List Laying) : Interleave.Event Op Op.Ans World Req → Bool
  | .turn i o a => (ms[i]?).all fun m => (m.next o a).drive ≠ some id ||
    !(m.next o a).there && (m.drive = some id || m.wants)
  | .crash => false
  | _ => true

lemma staysBare_of_check {id : DriveId} {s : State} {ms : List Laying}
    {e : Interleave.Event Op Op.Ans World Req} (h : staysBare id s ms e = true) : StaysBare id s ms e := by
  cases e with
  | turn i o a =>
    intro m hm hdrive
    have hall := h
    simp only [staysBare, hm, Option.all_some, hdrive] at hall
    simpa using hall
  | crash => cases h
  | _ => trivial

/-- The drive is in the fleet, and every task is done with it. -/
def leftBare (id : DriveId) (c : Config Op Op.Ans State Req Laying) : Bool :=
  (c.state.records.inv id).any (fun d => d.membership = .fleet) && c.marks.all fun m => !m.lays id

/-- The first task opens the drive to put a slab on it, is refused, and the drive is left so. -/
def openedThenLeft (c₁ : Config Op Op.Ans State Req Laying) : Bool :=
  match (daemon {} fun _ => ⟨0⟩).step (layingTracer {}) c₁ (.turn 0 {}) with
  | some (.turn 0 (.engine (.addDrive _ _ id)) _, c₂) =>
    ((daemon {} fun _ => ⟨0⟩).runChecked (layingTracer {}) (staysBare id) c₂
      refusedThenListed).any (fun out => leftBare id out.2) &&
      (c₁.marks[0]?).any (fun m => m.opens && m.wants) && c₁.marks.all fun m => m.drive = none
  | _ => false

/-- **Not in every run**: a slab is formatted on a drive of which the engine did not answer what is
there, and a drive whose slab was refused is taken for one of the fleet by the next discovery
pass. -/
theorem failed_slab_left :
    ¬ FormatsOnEmptiness {} (fun _ => ⟨0⟩) (fun _ _ _ => True) ∧
      ¬ CompletesJoins {} (fun _ => ⟨0⟩) fun _ _ _ _ => True := by
  constructor
  · intro hformats
    obtain ⟨es, c, hrun, hcheck⟩ : ∃ es c, Run (daemon {} fun _ => ⟨0⟩) (layingTracer {})
        (fun _ _ _ => True) ⟨State.oneFree, []⟩ es c ∧ formatsUnlisted c = true :=
      exists_run_of_moves joinUnlisted (by decide +kernel)
    unfold formatsUnlisted at hcheck
    split at hcheck
    · next target tier role a c' hstep =>
      obtain ⟨m, hm, hlisting⟩ := (Option.any_eq_true _ _).mp hcheck
      exact of_decide_eq_true hlisting
        (hformats _ es c c' 0 target tier role a m hrun (step_of_step hstep) hm)
    · cases hcheck
  · intro hcompletes
    obtain ⟨es, c₁, hbefore, hcheck⟩ : ∃ es c, Run (daemon {} fun _ => ⟨0⟩) (layingTracer {})
        (fun _ _ _ => True) ⟨State.oneFree, []⟩ es c ∧ openedThenLeft c = true :=
      exists_run_of_moves (joinUnlisted.take 3) (by decide +kernel)
    unfold openedThenLeft at hcheck
    split at hcheck
    · next target labels id a c₂ hopen =>
      simp only [Bool.and_eq_true] at hcheck
      obtain ⟨⟨hafter, hasked⟩, hfree⟩ := hcheck
      obtain ⟨⟨after, c₃⟩, hafter, hleft⟩ := (Option.any_eq_true _ _).mp hafter
      obtain ⟨hfleet, hdone⟩ := Bool.and_eq_true_iff.mp hleft
      obtain ⟨d, hd, hin⟩ := (Option.any_eq_true _ _).mp hfleet
      obtain ⟨m, hm, hboth⟩ := (Option.any_eq_true _ _).mp hasked
      obtain ⟨hopens, hwants⟩ := Bool.and_eq_true_iff.mp hboth
      have hbare : ∀ n ∈ c₁.marks, n.drive = some id → n.there = false := by
        intro n hn hdrive
        rw [of_decide_eq_true (List.all_eq_true.mp hfree n hn)] at hdrive
        cases hdrive
      have hrun := (run_of_runChecked hafter).mono fun _ _ _ h =>
        And.intro trivial (staysBare_of_check h)
      refine hcompletes _ es after c₁ c₂ c₃ 0 (.addDrive target labels id) a m id d hbefore hm hopens
        hwants (decide_eq_true rfl) hbare trivial (step_of_step hopen) hrun (fun t ht hlays => ?_) hd
        (of_decide_eq_true hin)
      have hnot := List.all_eq_true.mp hdone t.mark (List.mem_map_of_mem ht)
      rw [hlays] at hnot
      cases hnot
    · cases hcheck

end StormDrive
