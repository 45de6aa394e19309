import StormDrive.Daemon.Scope
import StormDrive.Interleave.Oracle

set_option relaxedAutoImplicit false
set_option autoImplicit false

/-!
# The drive resource

`patch_drive` of `api/kube.rs` does in one handler what the routes of `api/mod.rs` do one by one:
the designation, the part in the fleet, the drain. It decides on the record that it read when the
patch came.

## Main definitions

* `DrivePatch.Memory`, `DrivePatch.Outside` — the inventory with an engine, and a world that
  answers.
* `restDesignation`, `restJoin`, `restLeave`, `restDrain`, `restVerbs` — the routes, with what they
  answer.
* `resourceVerbs` — what a patch asks for, by the routes.
* `DrivePatch.Judged` — the record read before the patch decides as the one that is there.

## Main results

* `DrivePatch.patchDrive_eq_resourceVerbs` — **a patch does what its verbs do, one after another**.
* `DrivePatch.patchDrive_ne_restVerbs` — they are not the plain routes: a patch that takes an empty
  drive out of the fleet drains it first.

## Implementation notes

A handler runs by itself, in a world that answers every request in one way: the engine by its state,
a fresh read of a disk and the kept lines of the system-data file as they are. Saves are no part of
such a run. A `spec.fleet` of another word is refused by both. The locate LED touches no drive.
-/

namespace StormDrive

open Interleave Work

/-! ## The routes -/

section Routes

variable (cfg : Settings)

/-- `set_designation`. -/
def restDesignation (id : DriveId) (des : Designation) : Work (Except String Unit) := do
  match ← (perform (.record (.designate id des)) :
      Work (Except String (Designation × Drive))) with
  | .error why => pure (.error why)
  | .ok (was, d) =>
    when (des = .failed ∧ d.membership = .fleet ∧ cfg.stormblock = true) (do
      reportFailed id
      when cfg.drainOnFailing (ignore (requestDrain cfg id "operator" true)))
    when (was = .system ∨ des = .system) systemSync
    persist cfg
    pure (.ok ())

/-- `fleet_action` with `join`. -/
def restJoin (id : DriveId) (formatSlab : Bool) (tier : Option String) :
    Work (Except String Unit) := do
  match ← readDrive .other id with
  | none => pure (.error "not found")
  | some d =>
    let disk : FreshDisk ← perform (.query (.disk d.path))
    if cfg.stormblock = false then pure (.error "stormblock integration is disabled")
    else
      match joinRefusal d ⟨disk, ""⟩ with
      | some why => pure (.error why)
      | none =>
        match ← join cfg d formatSlab tier with
        | .error why => pure (.error why)
        | .ok _ => do
          persist cfg
          pure (.ok ())

/-- The end of a leave, with what the engine answered. -/
def restLeaveNow (d : Drive) (force : Bool) : Work (Except String Unit) := do
  match ← (perform (.engine (.deleteDrive d.stormblockPath force d.id)) :
      Work (Except String Unit)) with
  | .error why => pure (.error why)
  | .ok _ =>
    let _ ← changeDrive d.id .left
    persist cfg
    pure (.ok ())

/-- `fleet_action` with `leave`. -/
def restLeave (id : DriveId) (drain force : Bool) : Work (Except String Unit) := do
  match ← readDrive .other id with
  | none => pure (.error "not found")
  | some d =>
    if cfg.stormblock = false then pure (.error "stormblock integration is disabled")
    else if d.membership ≠ .fleet then pure (.error (d.name ++ ": not in the fleet"))
    else if force then restLeaveNow cfg d force
    else
      match ← (perform (.engine (.occupiedSlabs d.stormblockPath)) :
          Work (Except String (List String))) with
      | .error why => pure (.error why)
      | .ok [] => restLeaveNow cfg d force
      | .ok (_ :: _) =>
        if drain then startDrain cfg id "leave" true
        else pure (.error (d.name ++ ": data lives on this drive — leave with \"drain\": true " ++
          "to move it off first, or pass force"))

/-- The drain route. -/
def restDrain (id : DriveId) (leave : Bool) : Work (Except String Unit) :=
  if cfg.stormblock = true then startDrain cfg id "operator" leave
  else pure (.error "stormblock integration is disabled")

/-! They are the routes of the daemon. -/

lemma ignore_restDesignation (id : DriveId) (des : Designation) :
    ignore (restDesignation cfg id des) = setDesignation cfg id des := by
  rw [ignore, restDesignation, Prog.bind_assoc, setDesignation]
  congr 1
  funext r
  cases r with
  | error why => rfl
  | ok out => simp only [Prog.bind_assoc, Prog.pure_eq, Prog.ret_bind, Prog.bind_ret_unit]

lemma ignore_restJoin (id : DriveId) (formatSlab : Bool) (tier : Option String) :
    ignore (restJoin cfg id formatSlab tier) = fleetJoin cfg id formatSlab tier := by
  rw [ignore, restJoin, Prog.bind_assoc, fleetJoin]
  congr 1
  funext r
  cases r with
  | none => rfl
  | some d =>
    rw [Prog.bind_assoc]
    congr 1
    funext disk
    by_cases off : cfg.stormblock = false
    · simp [off]
    · rw [if_neg off]
      cases refused : joinRefusal d ⟨disk, ""⟩ with
      | some why => simp
      | none =>
        rw [Prog.bind_assoc, if_neg (by simp [off]), joinAndPersist]
        congr 1
        funext r
        cases r with
        | error why => rfl
        | ok tier => simp only [Prog.bind_assoc, Prog.pure_eq, Prog.ret_bind, Prog.bind_ret_unit]

lemma ignore_restLeaveNow (d : Drive) (force : Bool) :
    ignore (restLeaveNow cfg d force) = leaveNow cfg d force := by
  rw [ignore, restLeaveNow, Prog.bind_assoc, leaveNow]
  congr 1
  funext r
  cases r with
  | error why => rfl
  | ok _ => simp only [Prog.bind_assoc, Prog.pure_eq, Prog.ret_bind, Prog.bind_ret_unit]

lemma ignore_restLeave (id : DriveId) (drain force : Bool) :
    ignore (restLeave cfg id drain force) = fleetLeave cfg id drain force := by
  rw [ignore, restLeave, Prog.bind_assoc, fleetLeave]
  congr 1
  funext r
  cases r with
  | none => rfl
  | some d =>
    dsimp only
    by_cases off : cfg.stormblock = false
    · simp [off]
    by_cases out : d.membership ≠ .fleet
    · simp [off, out]
    · rw [if_neg off, if_neg out, if_neg (not_or.mpr ⟨off, out⟩)]
      by_cases forced : force = true
      · rw [if_pos forced, if_pos forced]
        exact ignore_restLeaveNow cfg d force
      · rw [if_neg forced, if_neg forced, Prog.bind_assoc]
        congr 1
        funext r
        cases r with
        | error why => rfl
        | ok slabs =>
          cases slabs with
          | nil => exact ignore_restLeaveNow cfg d force
          | cons s rest => cases drain <;> rfl

lemma ignore_restDrain (id : DriveId) (leave : Bool) :
    ignore (restDrain cfg id leave) = drainRoute cfg id leave := by
  unfold restDrain drainRoute Work.when
  split
  · rfl
  · rfl

/-! ## The verbs of a patch -/

/-- A patch as routes: the designation, the part in the fleet, where leaving is asked to drain, and
the drain. -/
def restVerbs (id : DriveId) (patch : DriveSpecPatch) : Work (Except String Unit) := do
  match ← readDrive .other id with
  | none => pure (.error "not found")
  | some _ =>
    andThen (patchPart patch.designation (restDesignation cfg id)) fun _ =>
    andThen (patchPart patch.fleet fun
      | .join => restJoin cfg id cfg.autoFormatSlab none
      | .leave => restLeave cfg id true false) fun _ =>
    patchPart patch.drain fun on => if on then restDrain cfg id false else cancelDrain cfg id

/-- `spec.fleet` as a state that is wanted: a drive that is there already stays, and a drive never
leaves without a drain. -/
def fleetVerb (id : DriveId) (fleet : FleetPatch) : Work (Except String Unit) := do
  match ← readDrive .other id with
  | none => pure (.error "not found")
  | some d =>
    if cfg.stormblock = false then pure (.error "stormblock integration is disabled")
    else
      match fleet with
      | .join =>
        if d.membership = .fleet then pure (.ok ())
        else restJoin cfg id cfg.autoFormatSlab none
      | .leave => if d.membership = .fleet then startDrain cfg id "leave" true else pure (.ok ())

/-- `spec.drain` as a state that is wanted: a drive that does not drain has nothing to cancel. -/
def drainVerb (id : DriveId) (on : Bool) : Work (Except String Unit) :=
  if on then restDrain cfg id false
  else do
    match ← readDrive .other id with
    | none => pure (.error "not found")
    | some d => if d.activity = .draining then cancelDrain cfg id else pure (.ok ())

/-- What a patch asks for, each verb on what the one before it left. -/
def resourceVerbs (id : DriveId) (patch : DriveSpecPatch) : Work (Except String Unit) := do
  match ← readDrive .other id with
  | none => pure (.error "not found")
  | some _ =>
    andThen (patchPart patch.designation (restDesignation cfg id)) fun _ =>
    andThen (patchPart patch.fleet (fleetVerb cfg id)) fun _ =>
    patchPart patch.drain (drainVerb cfg id)

end Routes

namespace DrivePatch

/-! ## A world that answers -/

/-- The inventory in memory, and the engine. -/
structure Memory (σ : Type) where
  inv : Inventory
  ids : List DriveId
  sound : Sound ids inv
  engine : σ

/-- The world outside: the engine's answer to a request and its state after it, what a fresh read of
a disk shows, and the drives that the kept lines of the system-data file name. -/
structure Outside (σ : Type) where
  newV5 : String → Uuid
  engine : (o : EngineOp) → σ → o.Ans × σ
  disk : String → FreshDisk
  system : List DriveId

namespace Memory

variable {σ : Type} (m : Memory σ)

/-- The records of the memory, saved. -/
def records : Records where
  inv := m.inv
  saved := m.inv
  seen := fun _ => none
  ids := m.ids
  sound := m.sound
  soundSaved := m.sound
  soundWriting := by simp

/-- The memory with other records. -/
def withRecords (r : Records) : Memory σ := ⟨r.inv, r.ids, r.sound, m.engine⟩

/-- A drive is changed. -/
def change (id : DriveId) (u : DriveUpdate) : Memory σ :=
  m.withRecords (m.records.update id (·.apply u) fun d => d.apply_id u)

lemma designate_id (des : Designation) (d : Drive) : { d with designation := des }.id = d.id := rfl

/-- A drive is designated. -/
def designated (id : DriveId) (des : Designation) : Memory σ :=
  m.withRecords (m.records.update id (fun d => { d with designation := des }) (designate_id des))

lemma restore_id (named : List DriveId) (d : Drive) :
    (if d.id ∈ named then d.restoredSystem else d).id = d.id := by
  split
  · exact d.restoredSystem_id
  · rfl

/-- The drives that a kept line names are system drives again. -/
def restored (named : List DriveId) : Memory σ :=
  m.withRecords (m.records.updateAll (fun d => if d.id ∈ named then d.restoredSystem else d)
    (restore_id named))

/-- The engine is in another state. -/
def withEngine (s : σ) : Memory σ := { m with engine := s }

@[ext] lemma ext' {m m' : Memory σ} (inv : m.inv = m'.inv) (ids : m.ids = m'.ids)
    (engine : m.engine = m'.engine) : m = m' := by
  cases m
  cases m'
  simp_all

end Memory

namespace Outside

variable {σ : Type} (out : Outside σ)

/-- What an operation of a handler comes to. -/
def exec : (o : Op) → Memory σ → Option (o.Ans × Memory σ)
  | .record o, m => (o.exec out.newV5 {} m.records).map fun r => (r.1, m.withRecords r.2)
  | .query (.disk path), m => some (out.disk path, m)
  | .query .systemLines, m => some (out.system, m)
  | .engine o, m => some ((out.engine o m.engine).1, m.withEngine (out.engine o m.engine).2)
  | _, _ => none

/-- The engine is asked where a drain stands. -/
def askDrain (path : String) (id : DriveId) (s : σ) : Except String (Option DrainStatus) × σ :=
  out.engine (.drainStatus path id) s

/-- The engine is asked to start a drain. -/
def askStart (path : String) (id : DriveId) (s : σ) : Except String DrainStatus × σ :=
  out.engine (.startDrain path id) s

/-- A drive is reported failed to the engine. -/
def askFailed (path : String) (id : DriveId) (s : σ) : Except String Unit × σ :=
  out.engine (.reportHealth path "failed" id) s

/-- The run of a program. -/
def run {α : Type} (p : Work α) (m : Memory σ) : Option (α × Memory σ) := p.run out.exec m

/-- Whether a handler succeeds, and what it leaves. -/
def outcome (p : Work (Except String Unit)) (m : Memory σ) : Option (Bool × Memory σ) :=
  (out.run p m).map fun r => (r.1.isOk, r.2)

end Outside

/-! ## The claim, and what the patch is judged on -/

/-- A drive with this designation may join the fleet. -/
def joinable (des : Designation) : Bool :=
  des ≠ .failed && des ≠ .reserved && des ≠ .system

section Judged

variable {σ : Type} (cfg : Settings) (out : Outside σ)

/-- The engine starts a drain of the drive, or already runs one. -/
def startsDrain (d : Drive) (s : σ) : Bool :=
  (d.drain.any fun r => r.state = "running") ||
  match out.askDrain d.stormblockPath d.id s with
  | (.error _, _) => false
  | (.ok found, s) =>
    found.any DrainStatus.isRunning || (out.askStart d.stormblockPath d.id s).1.isOk

/-- The engine takes the report that the drive failed, and starts the drain that follows. -/
def takesFailed (d : Drive) (s : σ) : Bool :=
  match out.askFailed d.stormblockPath d.id s with
  | (.error _, _) => false
  | (.ok _, s) => !cfg.drainOnFailing || startsDrain out d s

/-- The record that was read when the patch came decides as the record that is there. -/
structure Judged (m : Memory σ) (d : Drive) (patch : DriveSpecPatch) : Prop where
  /-- A drive of the fleet that is designated failed: the engine does what it is asked. -/
  failed : patch.designation = some .failed → d.membership = .fleet → cfg.stormblock = true →
    takesFailed cfg out d m.engine = true
  /-- A drive that joins: it holds no data, and a designation of the same patch does not decide
  whether it may join. -/
  join : patch.fleet = some .join → d.membership ≠ .fleet →
    probe (out.disk d.path).kernel = none ∧
      ∀ des, patch.designation = some des → joinable des = joinable d.designation
  /-- A drain is asked for only with the integration. -/
  drain : patch.drain = some true → cfg.stormblock = true
  /-- A drain is cancelled only by a patch that does not also start one. -/
  cancel : patch.drain = some false → d.membership = .fleet → cfg.stormblock = true →
    patch.fleet = some .leave ∨ (patch.designation = some .failed ∧ cfg.drainOnFailing = true) →
    (d.drain.any fun r => r.state = "running") = true

end Judged

/-! ## Runs of the parts -/

section Runs

variable {σ : Type} (cfg : Settings) (out : Outside σ) (m : Memory σ)

@[simp] lemma run_ret {α : Type} (a : α) : out.run (Prog.ret a : Work α) m = some (a, m) := rfl

/-- The run of a sequence. -/
@[simp] lemma run_seq {α β : Type} (p : Work α) (f : α → Work β) :
    out.run (p >>= f) m = (out.run p m).bind fun r => out.run (f r.1) r.2 :=
  Prog.run_bind out.exec p f m

lemma run_perform (o : Op) : out.run (perform o) m = out.exec o m :=
  Prog.run_op out.exec o m

@[simp] lemma run_read (site : Site) (id : DriveId) :
    out.run (readDrive site id) m = some (m.inv id, m) := rfl

@[simp] lemma run_change (id : DriveId) (u : DriveUpdate) :
    out.run (changeDrive id u) m = some ((m.inv id).map (·.apply u), m.change id u) := rfl

lemma run_askDrain (path : String) (id : DriveId) :
    out.run (perform (.engine (.drainStatus path id)) :
      Work (Except String (Option DrainStatus))) m =
      some ((out.askDrain path id m.engine).1, m.withEngine (out.askDrain path id m.engine).2) :=
  rfl

lemma run_askStart (path : String) (id : DriveId) :
    out.run (perform (.engine (.startDrain path id)) : Work (Except String DrainStatus)) m =
      some ((out.askStart path id m.engine).1, m.withEngine (out.askStart path id m.engine).2) :=
  rfl

lemma run_askFailed (path : String) (id : DriveId) :
    out.run (perform (.engine (.reportHealth path "failed" id)) : Work (Except String Unit)) m =
      some ((out.askFailed path id m.engine).1,
        m.withEngine (out.askFailed path id m.engine).2) :=
  rfl

@[simp] lemma run_disk (path : String) :
    out.run (perform (.query (.disk path))) m = some (out.disk path, m) := rfl

/-- A save is no part of a run. -/
@[simp] lemma run_persist : out.run (persist cfg) m = some ((), m) := by
  unfold persist
  split
  · rfl
  · rfl

@[simp] lemma run_systemSync :
    out.run systemSync m = some ((), m.restored out.system) := rfl

lemma run_when {c : Prop} [Decidable c] (h : c) (p : Work Unit) :
    out.run (when c p) m = out.run p m := by
  rw [when, if_pos h]

lemma run_when_not {c : Prop} [Decidable c] (h : ¬ c) (p : Work Unit) :
    out.run (when c p) m = some ((), m) := by
  rw [when, if_neg h]
  rfl

lemma run_designate_blocked {id : DriveId} {d : Drive} {des : Designation} {why : String}
    (hd : m.inv id = some d) (h : d.designationBlocker des = some why) :
    out.run (perform (.record (.designate id des))) m =
      some (.error (d.name ++ ": " ++ why), m) := by
  have hr : m.records.inv id = some d := hd
  rw [run_perform]
  simp only [Outside.exec, RecordOp.exec, hr, h, Option.map_some]
  rfl

lemma run_designate {id : DriveId} {d : Drive} {des : Designation} (hd : m.inv id = some d)
    (h : d.designationBlocker des = none) :
    out.run (perform (.record (.designate id des))) m =
      some (.ok (d.designation, { d with designation := des }), m.designated id des) := by
  have hr : m.records.inv id = some d := hd
  rw [run_perform]
  simp only [Outside.exec, RecordOp.exec, hr, h, Option.map_some]
  rfl

/-- The run of a part that goes on when it succeeded. -/
lemma run_andThen {α β : Type} (p : Work (Except String α)) (f : α → Work (Except String β)) :
    out.run (andThen p f) m = (out.run p m).bind fun r =>
      match r.1 with
      | .ok a => out.run (f a) r.2
      | .error why => some (.error why, r.2) := by
  rw [andThen, run_seq]
  congr 1
  funext r
  cases r.1 <;> rfl

/-! ### The memory -/

variable {m}

lemma Memory.inv_change {id : DriveId} {d : Drive} (hd : m.inv id = some d) (u : DriveUpdate) :
    (m.change id u).inv id = some (d.apply u) := by
  have h : d.id = id := (m.sound id d hd).2
  show (m.inv id).map _ = _
  rw [hd, Option.map_some, if_pos h]

lemma Memory.inv_designated {id : DriveId} {d : Drive} (hd : m.inv id = some d)
    (des : Designation) : (m.designated id des).inv id = some { d with designation := des } := by
  have h : d.id = id := (m.sound id d hd).2
  show (m.inv id).map _ = _
  rw [hd, Option.map_some, if_pos h]

/-- A drive with a designation stays as it is. -/
lemma Memory.inv_restored {id : DriveId} {d : Drive} (hd : m.inv id = some d)
    (named : List DriveId) (h : d.designation ≠ .none) :
    (m.restored named).inv id = some d := by
  show (m.inv id).map _ = _
  rw [hd, Option.map_some, Drive.restoredSystem, if_neg h, ite_self]

end Runs

/-! ### Success and what is left -/

section Outcomes

variable {σ : Type} {cfg : Settings} {out : Outside σ} {m : Memory σ}

/-- Two parts that come to the same, followed by parts that do. -/
lemma outcome_andThen {p q : Work (Except String Unit)} {f g : Unit → Work (Except String Unit)}
    (first : out.outcome p m = out.outcome q m)
    (rest : ∀ m', out.run p m = some (.ok (), m') →
      out.outcome (f ()) m' = out.outcome (g ()) m') :
    out.outcome (andThen p f) m = out.outcome (andThen q g) m := by
  unfold Outside.outcome at first rest ⊢
  rw [run_andThen, run_andThen]
  cases hp : out.run p m with
  | none =>
    cases hq : out.run q m with
    | none => rfl
    | some r => simp [hp, hq] at first
  | some r =>
    cases hq : out.run q m with
    | none => simp [hp, hq] at first
    | some r' =>
      obtain ⟨a, m₁⟩ := r
      obtain ⟨b, m₂⟩ := r'
      simp only [hp, hq, Option.map_some, Option.some.injEq, Prod.mk.injEq] at first
      obtain ⟨same, rfl⟩ := first
      cases a with
      | error why =>
        cases b with
        | error why' => rfl
        | ok _ => exact absurd same (by simp [Except.isOk, Except.toBool])
      | ok _ =>
        cases b with
        | error why' => exact absurd same (by simp [Except.isOk, Except.toBool])
        | ok _ => exact rest m₁ hp

/-- A save at the end changes nothing. -/
lemma outcome_persist (p : Work (Except String Unit)) :
    out.outcome (andThen p fun _ => do
      persist cfg
      pure (.ok ())) m = out.outcome p m := by
  unfold Outside.outcome
  rw [run_andThen]
  cases out.run p m with
  | none => rfl
  | some r =>
    obtain ⟨a, m'⟩ := r
    cases a with
    | error why => rfl
    | ok _ => simp

end Outcomes

/-! ## A drain -/

section Drains

variable {σ : Type} (cfg : Settings) {out : Outside σ} {m : Memory σ} {id : DriveId} {d : Drive}

/-- The engine knows a drive by its path and its identity. -/
lemma startsDrain_congr {d' : Drive} (drain : d'.drain = d.drain)
    (path : d'.stormblockPath = d.stormblockPath) (same : d'.id = d.id) (s : σ) :
    startsDrain out d' s = startsDrain out d s := by
  unfold startsDrain
  rw [drain, path, same]

/-- What a drain that was started leaves. -/
lemma run_drainBegun (out : Outside σ) (hd : m.inv id = some d) (record : DrainRecord) :
    ∃ m', out.run (do
        let _ ← changeDrive id (.drainStarted record)
        persist cfg
        pure (.ok ()) : Work (Except String Unit)) m = some (.ok (), m') ∧
      ∃ d', m'.inv id = some d' ∧ d'.membership = d.membership := by
  refine ⟨m.change id (.drainStarted record), ?_, _, Memory.inv_change hd _, ?_⟩
  · rw [run_seq, run_change, Option.bind_some, run_seq, run_persist]
    rfl
  · show (if record.state = "running" then _ else _ : Drive).membership = _
    split
    · rfl
    · rfl

/-- A drain that the engine starts is started; one that runs is left as it is. -/
lemma run_startDrain (hd : m.inv id = some d) (fleet : d.membership = .fleet)
    (starts : startsDrain out d m.engine = true) (reason : String) (thenLeave : Bool) :
    ∃ m', out.run (startDrain cfg id reason thenLeave) m = some (.ok (), m') ∧
      (∃ d', m'.inv id = some d' ∧ d'.membership = d.membership) ∧
      ((d.drain.any fun r => r.state = "running") = true → m' = m) := by
  have hid : d.id = id := (m.sound id d hd).2
  unfold startsDrain at starts
  rw [hid] at starts
  rw [startDrain, run_seq, run_read, Option.bind_some, hd]
  dsimp only
  rw [if_neg (by simp [fleet])]
  by_cases running : (d.drain.any fun r => r.state = "running") = true
  · rw [if_pos running]
    exact ⟨m, rfl, ⟨d, hd, rfl⟩, fun _ => rfl⟩
  · rw [if_neg running, run_andThen, run_askDrain, Option.bind_some]
    rw [Bool.not_eq_true] at running
    rw [running, Bool.false_or] at starts
    cases found : out.askDrain d.stormblockPath id m.engine with
    | mk answer s =>
      rw [found] at starts
      cases answer with
      | error why => exact absurd starts (by simp)
      | ok status =>
        dsimp only at starts ⊢
        rw [run_seq]
        have hd' : (m.withEngine s).inv id = some d := hd
        cases h : status.filter DrainStatus.isRunning with
        | some st =>
          obtain ⟨m', run, kept⟩ := run_drainBegun cfg out hd'
            { state := st.state, reason := reason, thenLeave := thenLeave, errors := st.errors }
          exact ⟨m', run, kept, fun h => absurd h (by simp [running])⟩
        | none =>
          have none : status.any DrainStatus.isRunning = false := by
            cases status with
            | none => rfl
            | some st => simpa using h
          rw [none, Bool.false_or] at starts
          dsimp only
          rw [run_askStart, Option.bind_some]
          cases asked : out.askStart d.stormblockPath id (m.withEngine s).engine with
          | mk answer s' =>
            have asked' : out.askStart d.stormblockPath id s = (answer, s') := asked
            rw [asked'] at starts
            cases answer with
            | error why => exact absurd starts (by simp [Except.isOk, Except.toBool])
            | ok st =>
              have hd' : ((m.withEngine s).withEngine s').inv id = some d := hd
              obtain ⟨m', run, kept⟩ := run_drainBegun cfg out hd'
                { state := st.state, reason := reason, thenLeave := thenLeave, errors := st.errors }
              exact ⟨m', run, kept, fun h => absurd h (by simp [running])⟩

/-- A drain that is asked for and that the engine starts. -/
lemma run_requestDrain (hd : m.inv id = some d) (fleet : d.membership = .fleet)
    (starts : startsDrain out d m.engine = true) (reason : String) (thenLeave : Bool) :
    ∃ m', out.run (requestDrain cfg id reason thenLeave) m = some (.ok (), m') ∧
      (∃ d', m'.inv id = some d' ∧ d'.membership = d.membership) ∧
      ((d.drain.any fun r => r.state = "running") = true → m' = m) := by
  obtain ⟨m', run, kept⟩ := run_startDrain cfg hd fleet starts reason thenLeave
  refine ⟨m', ?_, kept⟩
  rw [requestDrain, run_seq, run, Option.bind_some]
  rfl

/-! ### Apart from the kept lines -/

/-- The operation touches no drive but this one, and not its designation. -/
def Near (id : DriveId) : Op → Prop
  | .record (.read _ i) | .record (.change i _) => i = id
  | .record .snapshot | .record .write | .engine _ => True
  | _ => False

lemma near_persist : Prog.Only (Near id) (persist cfg) := by
  unfold persist
  split
  · exact (Prog.only_act_iff _ _).mpr ⟨trivial, fun _ => (Prog.only_op_iff _).mpr trivial⟩
  · exact Prog.only_ret _

lemma near_startDrain (reason : String) (thenLeave : Bool) :
    Prog.Only (Near id) (startDrain cfg id reason thenLeave) := by
  refine Prog.Only.op_bind rfl fun r => ?_
  cases r with
  | none => exact Prog.only_ret _
  | some d =>
    refine Prog.Only.ite (Prog.only_ret _) (Prog.Only.ite (Prog.only_ret _) ?_)
    refine Only.andThen ((Prog.only_op_iff _).mpr trivial) fun found => ?_
    refine Prog.Only.bind ?_ fun r => ?_
    · cases found.filter DrainStatus.isRunning with
      | none => exact (Prog.only_op_iff _).mpr trivial
      | some s => exact Prog.only_ret _
    · cases r with
      | error why => exact Prog.only_ret _
      | ok s =>
        exact Prog.Only.op_bind rfl fun _ => (near_persist cfg).bind fun _ => Prog.only_ret _

lemma near_requestDrain (reason : String) (thenLeave : Bool) :
    Prog.Only (Near id) (requestDrain cfg id reason thenLeave) := by
  refine (near_startDrain cfg reason thenLeave).bind fun r => ?_
  cases r with
  | ok _ => exact Prog.only_ret _
  | error why =>
    refine Prog.Only.op_bind rfl fun r => ?_
    cases r with
    | none => exact Prog.only_ret _
    | some d =>
      exact (Only.when (near_persist cfg)).bind fun _ => Prog.only_ret _

lemma apply_designation (d : Drive) (u : DriveUpdate) :
    (d.apply u).designation = d.designation := by
  cases u <;> simp only [Drive.apply, Drive.markPending] <;> (repeat' split) <;> rfl

/-- The drive has a designation. -/
def Labelled (id : DriveId) (m : Memory σ) : Prop := ∀ d, m.inv id = some d → d.designation ≠ .none

lemma near_cases {o : Op} (h : Near id o) :
    (∃ site, o = .record (.read site id)) ∨ (∃ u, o = .record (.change id u)) ∨
      o = .record .snapshot ∨ o = .record .write ∨ ∃ e, o = .engine e := by
  unfold Near at h
  split at h
  · exact .inl ⟨_, by rw [h]⟩
  · exact .inr (.inl ⟨_, by rw [h]⟩)
  · exact .inr (.inr (.inl rfl))
  · exact .inr (.inr (.inr (.inl rfl)))
  · exact .inr (.inr (.inr (.inr ⟨_, rfl⟩)))
  · exact h.elim

lemma labelled_change (h : Labelled id m) (u : DriveUpdate) : Labelled id (m.change id u) := by
  intro d' hd'
  obtain ⟨d, hd, rfl⟩ := Option.map_eq_some_iff.mp hd'
  split
  · rw [apply_designation]
    exact h d hd
  · exact h d hd

lemma labelled_exec {o : Op} {r : o.Ans × Memory σ} (near : Near id o) (h : Labelled id m)
    (run : out.exec o m = some r) : Labelled id r.2 := by
  obtain ⟨site, rfl⟩ | ⟨u, rfl⟩ | rfl | rfl | ⟨e, rfl⟩ := near_cases near
  · obtain rfl := Option.some.inj run
    exact h
  · obtain rfl := Option.some.inj run
    exact labelled_change h u
  · obtain rfl := Option.some.inj run
    exact h
  · obtain rfl := Option.some.inj run
    exact h
  · obtain rfl := Option.some.inj run
    exact h

lemma restored_change (h : Labelled id m) (named : List DriveId) (u : DriveUpdate) :
    (m.restored named).change id u = (m.change id u).restored named := by
  refine Memory.ext' ?_ rfl rfl
  funext i
  show ((m.inv i).map _).map _ = ((m.inv i).map _).map _
  cases hd : m.inv i with
  | none => rfl
  | some d =>
    simp only [Option.map_some, Option.some.injEq]
    have hi : d.id = i := (m.sound i d hd).2
    by_cases same : d.id = id
    · have named' : d.designation ≠ .none := h d (by rw [← same, hi, hd])
      have : d.restoredSystem = d := if_neg named'
      have : (d.apply u).restoredSystem = d.apply u :=
        if_neg (by rw [apply_designation]; exact named')
      simp_all
    · have : (if d.id ∈ named then d.restoredSystem else d).id = d.id := by
        split
        · exact d.restoredSystem_id
        · rfl
      rw [if_neg same, this, if_neg same]

/-- Nothing that is done near a drive with a designation meets the kept lines. -/
lemma restored_exec {o : Op} (near : Near id o) (h : Labelled id m) (named : List DriveId) :
    out.exec o (m.restored named) = (out.exec o m).map fun r => (r.1, r.2.restored named) := by
  have read : (m.restored named).inv id = m.inv id := by
    cases hd : m.inv id with
    | none =>
      show (m.inv id).map _ = _
      rw [hd]
      rfl
    | some d => exact Memory.inv_restored hd named (h d hd)
  obtain ⟨site, rfl⟩ | ⟨u, rfl⟩ | rfl | rfl | ⟨e, rfl⟩ := near_cases near
  · show some ((m.restored named).inv id, m.restored named) = _
    rw [read]
    rfl
  · show some (((m.restored named).inv id).map _, (m.restored named).change id u) = _
    rw [read, restored_change h]
    rfl
  · rfl
  · rfl
  · rfl

/-- A program near a drive keeps its designation. -/
lemma labelled_run {α : Type} {p : Work α} (near : Prog.Only (Near id) p) (h : Labelled id m)
    {r : α × Memory σ} (run : out.run p m = some r) : Labelled id r.2 := by
  have keeps : ∀ (o : Op) (m : Memory σ) (r : o.Ans × Memory σ), Near id o → Labelled id m →
      out.exec o m = some r → Labelled id r.2 := fun _ _ _ near h run => labelled_exec near h run
  exact Prog.run_keeps keeps near h run

/-- A program near a drive with a designation may come before the kept lines or after them. -/
lemma run_restored {α : Type} {p : Work α} (near : Prog.Only (Near id) p) (h : Labelled id m)
    (named : List DriveId) :
    out.run p (m.restored named) = (out.run p m).map fun r => (r.1, r.2.restored named) := by
  have step : ∀ (o : Op) (m : Memory σ), Near id o → Labelled id m →
      out.exec o (m.restored named) = (out.exec o m).map fun r => (r.1, r.2.restored named) :=
    fun _ _ near h => restored_exec near h named
  have keeps : ∀ (o : Op) (m : Memory σ) (r : o.Ans × Memory σ), Near id o → Labelled id m →
      out.exec o m = some r → Labelled id r.2 := fun _ _ _ near h run => labelled_exec near h run
  exact Prog.run_comm step keeps near h

end Drains

/-! ## The designation -/

section Designation

variable {σ : Type} (cfg : Settings) {out : Outside σ} {m : Memory σ} {id : DriveId} {d : Drive}

/-- What `patch_drive` does with a drive of the fleet that it designated failed. -/
def patchFailed (d : Drive) : Work (Except String Unit) := do
  let _ : Except String Unit ← perform (.engine (.reportHealth d.stormblockPath "failed" d.id))
  let _ ← changeDrive d.id (.healthPushed "failed")
  if cfg.drainOnFailing then requestDrain cfg d.id "operator" true else pure (.ok ())

/-- What `set_designation` does with it. -/
def restFailed (id : DriveId) : Work Unit := do
  reportFailed id
  when cfg.drainOnFailing (ignore (requestDrain cfg id "operator" true))

lemma near_patchFailed (d : Drive) : Prog.Only (Near d.id) (patchFailed cfg d) := by
  refine Prog.Only.op_bind trivial fun _ => Prog.Only.op_bind rfl fun _ => Prog.Only.ite ?_ ?_
  · exact near_requestDrain cfg _ _
  · exact Prog.only_ret _

lemma takesFailed_congr {d' : Drive} (drain : d'.drain = d.drain)
    (path : d'.stormblockPath = d.stormblockPath) (same : d'.id = d.id) (s : σ) :
    takesFailed cfg out d' s = takesFailed cfg out d s := by
  unfold takesFailed
  simp only [path, same, startsDrain_congr drain path same]

/-- When the engine does what it is asked, both come to the same. -/
lemma run_failed (hd : m.inv id = some d) (fleet : d.membership = .fleet)
    (takes : takesFailed cfg out d m.engine = true) :
    ∃ m', out.run (patchFailed cfg d) m = some (.ok (), m') ∧
      out.run (restFailed cfg id) m = some ((), m') ∧
      ∃ d', m'.inv id = some d' ∧ d'.membership = d.membership ∧
        (cfg.drainOnFailing = false ∨ (d.drain.any fun r => r.state = "running") = true →
          d'.activity = d.activity ∧ d'.drain = d.drain) := by
  have hid : d.id = id := (m.sound id d hd).2
  subst hid
  unfold takesFailed at takes
  cases report : out.askFailed d.stormblockPath d.id m.engine with
  | mk answer s =>
    rw [report] at takes
    cases answer with
    | error why => exact absurd takes (by simp)
    | ok _ =>
      let m₁ := (m.withEngine s).change d.id (.healthPushed "failed")
      have hd₀ : (m.withEngine s).inv d.id = some d := hd
      have hd₁ : m₁.inv d.id = some (d.apply (.healthPushed "failed")) := Memory.inv_change hd₀ _
      have patch : out.run (patchFailed cfg d) m =
          out.run (if cfg.drainOnFailing then requestDrain cfg d.id "operator" true
            else pure (.ok ())) m₁ := by
        rw [patchFailed, run_seq, run_askFailed, Option.bind_some, run_seq, run_change,
          Option.bind_some, report]
      have rest : out.run (restFailed cfg d.id) m =
          out.run (when cfg.drainOnFailing
            (ignore (requestDrain cfg d.id "operator" true))) m₁ := by
        rw [restFailed, run_seq, reportFailed, run_seq, run_read, Option.bind_some, hd, run_seq]
        dsimp only [Option.map_some, Option.getD_some]
        rw [run_askFailed, Option.bind_some, report]
        dsimp only
        rw [ignore, run_seq, run_change]
        rfl
      rw [patch, rest]
      by_cases drains : cfg.drainOnFailing = true
      · rw [if_pos drains, when, if_pos drains]
        have starts : startsDrain out (d.apply (.healthPushed "failed")) m₁.engine = true := by
          have h : startsDrain out d s = true := by simpa [drains] using takes
          exact (startsDrain_congr rfl rfl rfl s).trans h
        obtain ⟨m', run, ⟨d', hd', member⟩, same⟩ :=
          run_requestDrain cfg hd₁ fleet starts "operator" true
        refine ⟨m', run, ?_, d', hd', member, ?_⟩
        · rw [ignore, run_seq, run]
          rfl
        · rintro (off | running)
          · exact absurd drains (by simp [off])
          · rw [same running, hd₁] at hd'
            obtain rfl := Option.some.inj hd'
            exact ⟨rfl, rfl⟩
      · rw [if_neg drains, when, if_neg drains]
        exact ⟨m₁, rfl, rfl, _, hd₁, rfl, fun _ => ⟨rfl, rfl⟩⟩

/-- The runs of both, past the blocker. -/
lemma run_patchDesignation (hd : m.inv id = some d) {des : Designation}
    (free : d.designationBlocker des = none) :
    out.run (patchDesignation cfg d des) m =
      (out.run (when (d.designation = .system ∨ des = .system) systemSync)
        (m.designated id des)).bind fun r =>
      out.run (if des = .failed ∧ d.membership = .fleet ∧ cfg.stormblock = true then
        patchFailed cfg d else pure (.ok ())) r.2 := by
  have hid : d.id = id := (m.sound id d hd).2
  subst hid
  rw [patchDesignation, run_andThen, run_designate out m hd free, Option.bind_some]
  dsimp only
  rw [run_seq]
  rfl

lemma run_restDesignation (hd : m.inv id = some d) {des : Designation}
    (free : d.designationBlocker des = none) :
    out.run (restDesignation cfg id des) m =
      (out.run (when (des = .failed ∧ d.membership = .fleet ∧ cfg.stormblock = true)
        (restFailed cfg id)) (m.designated id des)).bind fun r =>
      (out.run (when (d.designation = .system ∨ des = .system) systemSync) r.2).bind fun r =>
      some (.ok (), r.2) := by
  rw [restDesignation, run_seq, run_designate out m hd free, Option.bind_some]
  dsimp only
  rw [run_seq]
  congr 1
  funext r
  rw [run_seq]
  congr 1
  funext r
  rw [run_seq, run_persist]
  rfl

/-- A designation that the engine is not told of. -/
lemma run_designation_untold (hd : m.inv id = some d) {des : Designation}
    (free : d.designationBlocker des = none)
    (untold : ¬ (des = .failed ∧ d.membership = .fleet ∧ cfg.stormblock = true)) :
    ∃ m', out.run (patchDesignation cfg d des) m = some (.ok (), m') ∧
      out.run (restDesignation cfg id des) m = some (.ok (), m') ∧
      ∃ des', m'.inv id = some { d with designation := des' } ∧
        (des' = des ∨ d.designation = .system ∧ des = .none ∧ des' = .system) := by
  rw [run_patchDesignation cfg hd free, run_restDesignation cfg hd free, if_neg untold,
    run_when_not out _ untold, Option.bind_some]
  have hd₁ := Memory.inv_designated hd des
  by_cases sync : d.designation = .system ∨ des = .system
  · rw [run_when out _ sync, run_systemSync, Option.bind_some, Option.bind_some]
    refine ⟨(m.designated id des).restored out.system, rfl, rfl, ?_⟩
    by_cases labelled : des = .none
    · refine ⟨if d.id ∈ out.system then .system else .none, ?_, ?_⟩
      · show ((m.designated id des).inv id).map _ = _
        rw [hd₁, Option.map_some, labelled]
        split <;> rfl
      · have was : d.designation = .system := sync.resolve_right (by simp [labelled])
        split
        · exact .inr ⟨was, labelled, rfl⟩
        · exact .inl labelled.symm
    · exact ⟨des, Memory.inv_restored hd₁ _ labelled, .inl rfl⟩
  · rw [run_when_not out _ sync, Option.bind_some, Option.bind_some]
    exact ⟨m.designated id des, rfl, rfl, des, hd₁, .inl rfl⟩

/-- A drive of the fleet that is designated failed, when the engine does what it is asked. -/
lemma run_designation_told (hd : m.inv id = some d) (free : d.designationBlocker .failed = none)
    (fleet : d.membership = .fleet) (on : cfg.stormblock = true)
    (takes : takesFailed cfg out d m.engine = true) :
    ∃ m', out.run (patchDesignation cfg d .failed) m = some (.ok (), m') ∧
      out.run (restDesignation cfg id .failed) m = some (.ok (), m') ∧
      ∃ d', m'.inv id = some d' ∧ d'.membership = d.membership ∧
        (cfg.drainOnFailing = false ∨ (d.drain.any fun r => r.state = "running") = true →
          d'.activity = d.activity ∧ d'.drain = d.drain) := by
  have hid : d.id = id := (m.sound id d hd).2
  subst hid
  have hd₁ := Memory.inv_designated hd .failed
  have takes₁ : takesFailed cfg out { d with designation := .failed } m.engine = true :=
    (takesFailed_congr cfg rfl rfl rfl m.engine).trans takes
  obtain ⟨m', patch, rest, d', hd', left⟩ := run_failed cfg hd₁ fleet takes₁
  have labelled : Labelled d.id (m.designated d.id .failed) := by
    intro e he
    obtain rfl := Option.some.inj (hd₁.symm.trans he)
    exact nofun
  have told : (.failed : Designation) = .failed ∧ d.membership = .fleet ∧ cfg.stormblock = true :=
    ⟨rfl, fleet, on⟩
  have same : patchFailed cfg { d with designation := .failed } = patchFailed cfg d := rfl
  rw [same] at patch
  rw [run_patchDesignation cfg hd free, run_restDesignation cfg hd free, if_pos told,
    run_when out _ told, rest, Option.bind_some]
  by_cases was : d.designation = .system
  · have sync : d.designation = .system ∨ (.failed : Designation) = .system := .inl was
    rw [run_when out _ sync, run_systemSync, Option.bind_some]
    refine ⟨m'.restored out.system, ?_, ?_, d', ?_, left⟩
    · dsimp only
      rw [run_restored (near_patchFailed cfg d) labelled, patch]
      rfl
    · dsimp only
      rw [run_when out _ sync, run_systemSync]
      rfl
    · exact Memory.inv_restored hd' _ (labelled_run (near_patchFailed cfg d) labelled patch d' hd')
  · have sync : ¬ (d.designation = .system ∨ (.failed : Designation) = .system) :=
      not_or.mpr ⟨was, nofun⟩
    rw [run_when_not out _ sync, Option.bind_some]
    refine ⟨m', patch, ?_, d', hd', left⟩
    dsimp only
    rw [run_when_not out _ sync]
    rfl

end Designation

/-! ## The patch -/

section Patch

variable {σ : Type} (cfg : Settings) {out : Outside σ} {m m' : Memory σ} {id : DriveId} {d : Drive}
  {patch : DriveSpecPatch}

/-- What the designation of a patch leaves for the other parts: the drive is in the fleet as
before; out of it only its designation is another; and where the patch cancels a drain, the drive
drains as before. -/
def Left (m' : Memory σ) (d : Drive) (patch : DriveSpecPatch) (d' : Drive) : Prop :=
  m'.inv d.id = some d' ∧ d'.membership = d.membership ∧
    (d.membership ≠ .fleet → ∃ des, d' = { d with designation := des } ∧
      (patch.fleet = some .join → joinable des = joinable d.designation)) ∧
    (patch.drain = some false → d'.activity = d.activity ∧ d'.drain = d.drain)

/-- **The designation of a patch** comes to the same as the route. -/
lemma outcome_designation (hd : m.inv id = some d) (judged : Judged cfg out m d patch) :
    out.outcome (patchPart patch.designation (patchDesignation cfg d)) m =
        out.outcome (patchPart patch.designation (restDesignation cfg id)) m ∧
      ∀ m', out.run (patchPart patch.designation (patchDesignation cfg d)) m = some (.ok (), m') →
        ∃ d', Left m' d patch d' := by
  have hid : d.id = id := (m.sound id d hd).2
  subst hid
  cases part : patch.designation with
  | none =>
    refine ⟨rfl, ?_⟩
    intro m' run
    obtain ⟨-, rfl⟩ := Prod.mk.inj (Option.some.inj run)
    exact ⟨d, hd, rfl, fun _ => ⟨d.designation, rfl, fun _ => rfl⟩, fun _ => ⟨rfl, rfl⟩⟩
  | some des =>
    dsimp only [patchPart]
    cases blocked : d.designationBlocker des with
    | some why =>
      have refused := run_designate_blocked out m hd blocked
      have patched : out.run (patchDesignation cfg d des) m =
          some (.error (d.name ++ ": " ++ why), m) := by
        rw [patchDesignation, run_andThen, refused, Option.bind_some]
      have routed : out.run (restDesignation cfg d.id des) m =
          some (.error (d.name ++ ": " ++ why), m) := by
        rw [restDesignation, run_seq, refused, Option.bind_some]
        rfl
      refine ⟨?_, ?_⟩
      · rw [Outside.outcome, Outside.outcome, patched, routed]
      · intro m' run
        rw [patched] at run
        exact absurd (Prod.mk.inj (Option.some.inj run)).1 nofun
    | none =>
      by_cases told : des = .failed ∧ d.membership = .fleet ∧ cfg.stormblock = true
      · obtain ⟨rfl, fleet, on⟩ := told
        obtain ⟨m₁, patched, routed, d', hd', member, same⟩ :=
          run_designation_told cfg hd blocked fleet on (judged.failed part fleet on)
        refine ⟨by rw [Outside.outcome, Outside.outcome, patched, routed], ?_⟩
        intro m' run
        rw [patched] at run
        obtain ⟨-, rfl⟩ := Prod.mk.inj (Option.some.inj run)
        refine ⟨d', hd', member, fun h => absurd fleet h, fun cancel => same ?_⟩
        by_cases drains : cfg.drainOnFailing = true
        · exact .inr (judged.cancel cancel fleet on (.inr ⟨part, drains⟩))
        · exact .inl (Bool.not_eq_true _ ▸ drains)
      · obtain ⟨m₁, patched, routed, des', hd', which⟩ := run_designation_untold cfg hd blocked told
        refine ⟨by rw [Outside.outcome, Outside.outcome, patched, routed], ?_⟩
        intro m' run
        rw [patched] at run
        obtain ⟨-, rfl⟩ := Prod.mk.inj (Option.some.inj run)
        refine ⟨_, hd', rfl, fun stays => ⟨des', rfl, fun joins => ?_⟩, fun _ => ⟨rfl, rfl⟩⟩
        have same := (judged.join joins stays).2 des part
        obtain rfl | ⟨was, rfl, rfl⟩ := which
        · exact same
        · rw [was] at same
          exact absurd same (by decide)

/-! ### The part in the fleet -/

/-- A text that begins otherwise is another text. -/
lemma append_ne_of_take {s t u : String} {n : ℕ} (hn : n ≤ s.toList.length)
    (h : s.toList.take n ≠ u.toList.take n) : s ++ t ≠ u := by
  intro e
  rw [← e, String.toList_append, List.take_append_of_le_length hn] at h
  exact h rfl

/-- Only a drive of the fleet is blocked for being there. -/
lemma blocker_ne_of_not_fleet (h : d.membership ≠ .fleet) :
    d.fleetJoinBlocker ≠ some "already in the fleet" := by
  intro e
  simp only [Drive.fleetJoinBlocker, refuse, h, if_false, Option.orElse_eq_some,
    Option.map_eq_some_iff, Option.ite_none_right_eq_some, Option.some.injEq] at e
  have active : ∀ s, "activity is " ++ s ≠ "already in the fleet" :=
    fun s => append_ne_of_take (n := 2) (by decide) (by decide)
  have health : ∀ s, "health is " ++ s ≠ "already in the fleet" :=
    fun s => append_ne_of_take (n := 2) (by decide) (by decide)
  have data : ∀ s, "in use: holds data for " ++ s ≠ "already in the fleet" :=
    fun s => append_ne_of_take (n := 2) (by decide) (by decide)
  have sectors : ∀ s t, "kernel cannot use " ++ s ++ t ≠ "already in the fleet" := fun s t => by
    rw [String.append_assoc]
    exact append_ne_of_take (n := 2) (by decide) (by decide)
  simp [active, health, data, sectors] at e

lemma blocker_of_fleet (h : d.membership = .fleet) :
    d.fleetJoinBlocker = some "already in the fleet" := by
  simp [Drive.fleetJoinBlocker, refuse, h]

/-- Whether a drive may join depends on its designation only in whether that may. -/
lemma joinBlocker_congr (des : Designation) (h : joinable des = joinable d.designation) :
    ({ d with designation := des } : Drive).fleetJoinBlocker = none ↔
      d.fleetJoinBlocker = none := by
  have hdes : (des = .none ∨ des = .spare) ↔ (d.designation = .none ∨ d.designation = .spare) := by
    revert h
    cases des <;> cases d.designation <;> simp [joinable]
  rw [Drive.fleetJoinBlocker_eq_none_iff, Drive.fleetJoinBlocker_eq_none_iff]
  dsimp only
  rw [hdes]

/-- The operation is a request to the engine, or notes a join. -/
def Joins (id : DriveId) : Op → Prop
  | .record (.change i (.joined _)) => i = id
  | .engine _ => True
  | _ => False

lemma joins_join (d : Drive) (formatSlab : Bool) (tier : Option String) :
    Prog.Only (Joins d.id) (join cfg d formatSlab tier) := by
  refine Only.andThen ((Prog.only_op_iff _).mpr trivial) fun listed => Only.andThen ?_ fun _ => ?_
  · exact Prog.Only.ite ((Prog.only_op_iff _).mpr trivial) ((Prog.only_op_iff _).mpr trivial)
  refine Only.andThen (Prog.Only.ite ?_ (Prog.only_ret _)) fun formatted => ?_
  · refine Prog.Only.op_bind trivial fun slabs => Prog.Only.ite ?_ (Prog.only_ret _)
    exact Only.andThen ((Prog.only_op_iff _).mpr trivial) fun _ => Prog.only_ret _
  · exact Prog.Only.op_bind rfl fun _ => Prog.only_ret _

/-- A join does nothing to a drive's activity. -/
lemma activity_join {formatSlab : Bool} {tier : Option String} {a : Activity}
    (ha : (m.inv d.id).map Drive.activity = some a)
    {r : Except String (Option String) × Memory σ}
    (run : out.run (join cfg d formatSlab tier) m = some r) :
    (r.2.inv d.id).map Drive.activity = some a := by
  have keeps : ∀ (o : Op) (m : Memory σ) (r : o.Ans × Memory σ), Joins d.id o →
      (m.inv d.id).map Drive.activity = some a → out.exec o m = some r →
      (r.2.inv d.id).map Drive.activity = some a := by
    intro o m r joins ha run
    unfold Joins at joins
    split at joins
    · next i labels =>
      obtain rfl := Option.some.inj run
      obtain ⟨e, he, hact⟩ := Option.map_eq_some_iff.mp ha
      subst joins
      show ((m.change d.id (.joined labels)).inv d.id).map _ = _
      rw [Memory.inv_change he]
      exact congrArg some hact
    · obtain rfl := Option.some.inj run
      exact ha
    · exact joins.elim
  exact Prog.run_keeps (P := fun m => (m.inv d.id).map Drive.activity = some a) keeps
    (joins_join cfg d formatSlab tier) ha run

/-- A drive that the record lets in, and the drive that is there, join alike. -/
lemma outcome_join (judged : Judged cfg out m d patch) (part : patch.fleet = some .join)
    (on : cfg.stormblock ≠ false) (outside : d.membership ≠ .fleet) {des : Designation}
    (hd' : m'.inv d.id = some { d with designation := des })
    (same : joinable des = joinable d.designation) :
    out.outcome (match d.fleetJoinBlocker with
      | some why =>
        if why ≠ "already in the fleet" then pure (.error (d.name ++ ": " ++ why))
        else pure (.ok ())
      | none => andThen (join cfg d cfg.autoFormatSlab none) fun _ => pure (.ok ())) m' =
    out.outcome (restJoin cfg d.id cfg.autoFormatSlab none) m' := by
  have bare : probe (out.disk d.path).kernel = none := (judged.join part outside).1
  have congr := joinBlocker_congr des same
  have routed : out.run (restJoin cfg d.id cfg.autoFormatSlab none) m' =
      out.run (match joinRefusal { d with designation := des } ⟨out.disk d.path, ""⟩ with
        | some why => pure (.error why)
        | none => do
          match ← join cfg d cfg.autoFormatSlab none with
          | .error why => pure (.error why)
          | .ok _ => do
            persist cfg
            pure (.ok ())) m' := by
    rw [restJoin, run_seq, run_read, Option.bind_some, hd']
    dsimp only
    rw [run_seq, run_disk, Option.bind_some, if_neg on]
    rfl
  unfold Outside.outcome
  rw [routed]
  cases blocker : d.fleetJoinBlocker with
  | some why =>
    have other : why ≠ "already in the fleet" := fun e =>
      blocker_ne_of_not_fleet outside (by rw [blocker, e])
    obtain ⟨why', blocker'⟩ := Option.ne_none_iff_exists'.mp
      (mt congr.mp (by rw [blocker]; exact nofun))
    have refusal : joinRefusal { d with designation := des } ⟨out.disk d.path, ""⟩ =
        some (d.name ++ ": " ++ why') := by
      rw [joinRefusal, blocker']
      rfl
    dsimp only
    rw [if_pos other, refusal]
    rfl
  | none =>
    have refusal : joinRefusal { d with designation := des } ⟨out.disk d.path, ""⟩ = none := by
      rw [joinRefusal, congr.mpr blocker, Fresh.probe, bare]
      rfl
    rw [refusal]
    dsimp only
    rw [run_andThen, run_seq]
    cases out.run (join cfg d cfg.autoFormatSlab none) m' with
    | none => rfl
    | some r =>
      obtain ⟨a, m₁⟩ := r
      cases a with
      | error why => rfl
      | ok tier =>
        rw [Option.bind_some, Option.bind_some]
        dsimp only
        rw [run_seq, run_persist]
        rfl

/-- **The part of a patch in the fleet**, on what its designation left. -/
lemma outcome_fleet (judged : Judged cfg out m d patch) {d' : Drive} (left : Left m' d patch d') :
    out.outcome (patchPart patch.fleet (patchFleet cfg d)) m' =
        out.outcome (patchPart patch.fleet (fleetVerb cfg d.id)) m' ∧
      ∀ m'', out.run (patchPart patch.fleet (patchFleet cfg d)) m' = some (.ok (), m'') →
        patch.drain = some false → (m''.inv d.id).map Drive.activity = some d.activity := by
  obtain ⟨hd', member, outside, cancels⟩ := left
  have stays : patch.drain = some false → (m'.inv d.id).map Drive.activity = some d.activity := by
    intro cancel
    rw [hd', Option.map_some, (cancels cancel).1]
  cases part : patch.fleet with
  | none =>
    refine ⟨rfl, fun m'' run => ?_⟩
    obtain ⟨-, rfl⟩ := Prod.mk.inj (Option.some.inj run)
    exact stays
  | some fleet =>
    have verb : out.run (fleetVerb cfg d.id fleet) m' =
        out.run (if cfg.stormblock = false then pure (.error "stormblock integration is disabled")
          else match fleet with
            | .join =>
              if d'.membership = .fleet then pure (.ok ())
              else restJoin cfg d.id cfg.autoFormatSlab none
            | .leave =>
              if d'.membership = .fleet then startDrain cfg d.id "leave" true else pure (.ok ()))
          m' := by
      rw [fleetVerb, run_seq, run_read, Option.bind_some, hd']
    dsimp only [patchPart]
    unfold Outside.outcome
    rw [verb, patchFleet.eq_def]
    by_cases off : cfg.stormblock = false
    · rw [if_pos off, if_pos off]
      exact ⟨rfl, fun m'' run => absurd (Prod.mk.inj (Option.some.inj run)).1 nofun⟩
    rw [if_neg off, if_neg off]
    cases fleet with
    | join =>
      dsimp only
      by_cases there : d.membership = .fleet
      · rw [blocker_of_fleet there, if_pos (member.trans there)]
        refine ⟨rfl, fun m'' run => ?_⟩
        obtain ⟨-, rfl⟩ := Prod.mk.inj (Option.some.inj run)
        exact stays
      · obtain ⟨des, rfl, same⟩ := outside there
        rw [if_neg there]
        refine ⟨outcome_join cfg judged part off there hd' (same part), fun m'' run cancel => ?_⟩
        have ha := stays cancel
        cases blocker : d.fleetJoinBlocker with
        | some why =>
          rw [blocker] at run
          dsimp only at run
          split at run
          · exact absurd (Prod.mk.inj (Option.some.inj run)).1 nofun
          · obtain ⟨-, rfl⟩ := Prod.mk.inj (Option.some.inj run)
            exact ha
        | none =>
          rw [blocker] at run
          dsimp only at run
          rw [run_andThen] at run
          obtain ⟨⟨a, m₁⟩, joined, run⟩ := Option.bind_eq_some_iff.mp run
          cases a with
          | error why => exact absurd (Prod.mk.inj (Option.some.inj run)).1 nofun
          | ok tier =>
            obtain ⟨-, rfl⟩ := Prod.mk.inj (Option.some.inj run)
            exact activity_join cfg ha joined
    | leave =>
      dsimp only
      rw [member]
      refine ⟨rfl, fun m'' run cancel => ?_⟩
      by_cases there : d.membership = .fleet
      · rw [if_pos there] at run
        have running : (d'.drain.any fun r => r.state = "running") = true := by
          rw [(cancels cancel).2]
          exact judged.cancel cancel there (Bool.not_eq_false _ ▸ off) (.inl part)
        have starts : startsDrain out d' m'.engine = true := by
          unfold startsDrain
          rw [running, Bool.true_or]
        obtain ⟨m₁, started, -, same⟩ :=
          run_startDrain cfg hd' (member.trans there) starts "leave" true
        rw [started] at run
        obtain ⟨-, rfl⟩ := Prod.mk.inj (Option.some.inj run)
        rw [same running]
        exact stays cancel
      · rw [if_neg there] at run
        obtain ⟨-, rfl⟩ := Prod.mk.inj (Option.some.inj run)
        exact stays cancel

/-- **The drain of a patch**, on what the other parts left. -/
lemma outcome_drain (judged : Judged cfg out m d patch)
    (ha : patch.drain = some false → (m'.inv d.id).map Drive.activity = some d.activity) :
    out.outcome (patchPart patch.drain (patchDrain cfg d)) m' =
      out.outcome (patchPart patch.drain (drainVerb cfg d.id)) m' := by
  cases part : patch.drain with
  | none => rfl
  | some on =>
    dsimp only [patchPart]
    unfold Outside.outcome
    rw [patchDrain, drainVerb]
    cases on with
    | true =>
      rw [if_pos rfl, if_pos rfl, restDrain, if_pos (judged.drain part)]
    | false =>
      obtain ⟨d', hd', same⟩ := Option.map_eq_some_iff.mp (ha part)
      rw [if_neg Bool.false_ne_true, if_neg Bool.false_ne_true, run_seq, run_read,
        Option.bind_some, hd']
      dsimp only
      rw [same]

/-- **A patch of a drive resource does what its verbs do, one after another**: it succeeds when
they do, and leaves the same inventory and the same engine.

**Proof sketch.** Part by part. The designation comes to the same as the route, and leaves the
record as it was read but for the designation, or in the fleet with a drain that goes on. What
the other parts are judged on, the record read before and the record that is there have in
common. -/
theorem patchDrive_eq_resourceVerbs {σ : Type} (cfg : Settings) (out : Outside σ) (m : Memory σ)
    (id : DriveId) (patch : DriveSpecPatch)
    (judged : ∀ d, m.inv id = some d → Judged cfg out m d patch) :
    out.outcome (patchDrive cfg id patch) m = out.outcome (resourceVerbs cfg id patch) m := by
  cases hd : m.inv id with
  | none =>
    rw [Outside.outcome, Outside.outcome, patchDrive, resourceVerbs, run_seq, run_seq, run_read,
      Option.bind_some, Option.bind_some, hd]
  | some d =>
    have hid : d.id = id := (m.sound id d hd).2
    subst hid
    have patched : out.outcome (patchDrive cfg d.id patch) m =
        out.outcome (andThen (patchPart patch.designation (patchDesignation cfg d)) fun _ =>
          andThen (patchPart patch.fleet (patchFleet cfg d)) fun _ =>
          andThen (patchPart patch.drain (patchDrain cfg d)) fun _ => do
          persist cfg
          pure (.ok ())) m := by
      rw [Outside.outcome, patchDrive, run_seq, run_read, Option.bind_some, hd]
      rfl
    have verbs : out.outcome (resourceVerbs cfg d.id patch) m =
        out.outcome (andThen (patchPart patch.designation (restDesignation cfg d.id)) fun _ =>
          andThen (patchPart patch.fleet (fleetVerb cfg d.id)) fun _ =>
          patchPart patch.drain (drainVerb cfg d.id)) m := by
      rw [Outside.outcome, resourceVerbs, run_seq, run_read, Option.bind_some, hd]
      rfl
    rw [patched, verbs]
    have judged := judged d hd
    obtain ⟨first, leaves⟩ := outcome_designation cfg hd judged
    refine outcome_andThen first fun m₁ run₁ => ?_
    obtain ⟨d', left⟩ := leaves m₁ run₁
    obtain ⟨second, keeps⟩ := outcome_fleet cfg judged left
    refine outcome_andThen second fun m₂ run₂ => ?_
    rw [outcome_persist]
    exact outcome_drain cfg judged (keeps m₂ run₂)

end Patch

/-! ### Runs -/

/-- A drive of the fleet with nothing on it. -/
def fleetDrive : Drive := { Drive.testFixture ⟨⟨1⟩⟩ "sda" with membership := .fleet }

lemma oneDrive_sound (d : Drive) (id : DriveId) (e : Drive)
    (h : (if id = d.id then some d else none) = some e) : id ∈ [d.id] ∧ e.id = id := by
  split at h
  · next same =>
    obtain rfl := Option.some.inj h
    rw [same]
    exact ⟨List.mem_singleton_self _, rfl⟩
  · cases h

/-- The inventory of one drive. -/
def oneDrive (d : Drive) : Memory Unit where
  inv := fun id => if id = d.id then some d else none
  ids := [d.id]
  sound := oneDrive_sound d
  engine := ()

/-- An engine that does what it is asked, on empty drives. -/
def willing : Outside Unit where
  newV5 := fun _ => ⟨0⟩
  engine := fun o s => (o.answer { drain := some { state := "running" } }, s)
  disk := fun _ => ⟨.unreadable, none⟩
  system := []

/-- A drive of the fleet is designated failed: reported and drained. -/
theorem patchDrive_failed :
    willing.outcome (patchDrive {} ⟨⟨1⟩⟩ { designation := some .failed }) (oneDrive fleetDrive) =
      willing.outcome (resourceVerbs {} ⟨⟨1⟩⟩ { designation := some .failed })
        (oneDrive fleetDrive) := by
  refine patchDrive_eq_resourceVerbs {} willing (oneDrive fleetDrive) ⟨⟨1⟩⟩ _ fun d hd => ?_
  obtain rfl : fleetDrive = d := Option.some.inj hd
  exact
    { failed := fun _ _ _ => by decide +kernel
      join := fun h => absurd h nofun
      drain := fun h => absurd h nofun
      cancel := fun h => absurd h nofun }

/-- The plain routes take an empty drive out of the fleet at once, a patch drains it first. -/
theorem patchDrive_ne_restVerbs :
    ¬ ∀ (σ : Type) (cfg : Settings) (out : Outside σ) (m : Memory σ) (id : DriveId)
      (patch : DriveSpecPatch),
      out.outcome (patchDrive cfg id patch) m = out.outcome (restVerbs cfg id patch) m := by
  intro h
  have same := congrArg (Option.map fun r => (r.2.inv ⟨⟨1⟩⟩).map Drive.membership)
    (h Unit {} willing (oneDrive fleetDrive) ⟨⟨1⟩⟩ { fleet := some .leave })
  exact absurd same (by decide +kernel)

end DrivePatch

end StormDrive
