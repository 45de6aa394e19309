import StormDrive.Daemon.Inventory
import StormDrive.Daemon.Rules

set_option relaxedAutoImplicit false
set_option autoImplicit false

/-!
# Which drains a task has in hand

A drain is asked for by a request or by the fleet's tick, and the tick also follows the drains that
run and tries again those that are pending. Each of these takes the drive up at one point, asks the
engine, and writes the record of the drain at a later one.

## Main definitions

* `Wish`, `Drainer` — the drains that a task has taken up, and what it has heard of them.
* `drainTracer`, `drainProtocol` — a task only starts, and only writes, what it has taken up.

## Main results

* `drains_entry` — every task keeps to the protocol.

## Implementation notes

A task lets go of a drain where its program does: when it has written the record, or where it goes
no further. So a task that has ended, or has gone on to the next drive, has nothing in hand.
-/

namespace StormDrive

open Interleave Interleave.Prog Work

/-! ## What a task has taken up -/

/-- How a drain is asked for. -/
inductive Ask
  /-- By `start_drain`: a task that is refused goes no further. -/
  | start
  /-- By `request_drain`, for a drain that is pending. -/
  | retry
  /-- By `request_drain`, for a drive whose health has been reported. -/
  | report
  /-- The same in a PATCH, which goes no further when it is refused. -/
  | patch
  deriving DecidableEq

/-- A refusal is written into the record. -/
def Ask.writes : Ask → Bool
  | start => false
  | _ => true

/-- A drain that a task asks for. -/
structure Wish where
  drive : DriveId
  ask : Ask
  thenLeave : Bool
  deriving DecidableEq

/-- Where a request stands before it asks for a drain. -/
inductive Serving
  | none
  | drain (leave : Bool)
  | leave (drain force : Bool)
  /-- A leave that looks for slabs with anything on them. -/
  | leaving (id : DriveId)
  | designation (des : Designation)
  /-- The drive is marked failed, and to be reported. -/
  | designated (id : DriveId)
  | patch (patch : DriveSpecPatch)
  deriving DecidableEq

/-- The drive that a request is about to ask a drain of. -/
def Serving.drives : Serving → List DriveId
  | .leaving id | .designated id => [id]
  | _ => []

/-- The drains that a task has in hand. -/
structure Drainer where
  serving : Serving := .none
  /-- The drains to ask for, the first of them now. -/
  todo : List Wish := []
  /-- The engine's word about the drain at hand. -/
  heard : Option String := none
  /-- The running drains to follow, and whether the drive leaves then. -/
  polls : List (DriveId × Bool) := []
  /-- The engine's word about the drain that is followed. -/
  said : Option String := none
  /-- The drive is empty, and leaves the fleet. -/
  retiring : Option DriveId := none
  /-- The drive is on record as failing, and its drain is yet to be asked for. -/
  owes : Option DriveId := none
  deriving DecidableEq

/-- The drain that the drain of a PATCH asks for. -/
def drainWishes (d : Drive) (drain : Option Bool) : List Wish :=
  if drain = some true then [⟨d.id, .start, false⟩] else []

/-- The drains that the fleet of a PATCH asks for, and those after it. -/
def fleetWishes (cfg : Settings) (d : Drive) (rest : List Wish) : Option FleetPatch → List Wish
  | none => rest
  | some .leave =>
    if cfg.stormblock = false then []
    else if d.membership = .fleet then ⟨d.id, .start, true⟩ :: rest else rest
  | some .join =>
    if cfg.stormblock = false then []
    else if d.fleetJoinBlocker.any fun why => why ≠ "already in the fleet" then [] else rest

/-- The drains that the designation of a PATCH asks for, and those after it. -/
def designationWishes (cfg : Settings) (d : Drive) (rest : List Wish)
    (des : Option Designation) : List Wish :=
  if des = some .failed ∧ d.membership = .fleet ∧ cfg.stormblock = true ∧
    cfg.drainOnFailing = true then ⟨d.id, .patch, true⟩ :: rest
  else rest

/-- The drains that a PATCH asks for, by the record that it reads first. -/
def DriveSpecPatch.wishes (cfg : Settings) (patch : DriveSpecPatch) (d : Drive) : List Wish :=
  designationWishes cfg d (fleetWishes cfg d (drainWishes d patch.drain) patch.fleet)
    patch.designation

namespace Drainer

/-- The drives that a task has in hand. -/
def drives (m : Drainer) : List DriveId :=
  m.serving.drives ++ m.todo.map Wish.drive ++ m.polls.map Prod.fst ++ m.retiring.toList

variable (cfg : Settings)

/-- The task goes no further with what it asks for. -/
def refused (m : Drainer) : Drainer :=
  match m.todo with
  | w :: _ => if w.ask = .start then { m with todo := [] } else m
  | [] => m

/-- A drain is asked for, or adopted. -/
def asked (m : Drainer) : Drainer :=
  { m with todo := m.todo.tail, heard := none, owes := none }

/-- A request has found out which drains to ask for. -/
def turn (m : Drainer) (todo : List Wish) : Drainer :=
  { m with serving := .none, todo := todo, heard := none }

/-- The refusal is written. -/
def refusalWritten (m : Drainer) : Drainer :=
  match m.todo with
  | w :: rest =>
    { m with todo := if w.ask = .patch then [] else rest, heard := none, owes := none }
  | [] => m

/-- A task that retires no drive has read the record of one. -/
def look (m : Drainer) (id : DriveId) (x : Option Drive) : Drainer :=
  match m.serving, x with
  | .drain leave, some d =>
    if d.membership = .fleet ∧ (d.drain.any fun r => r.state = "running") = false then
      m.turn [⟨id, .start, leave⟩]
    else m.turn []
  | .leave drain force, some d =>
    if cfg.stormblock = true ∧ d.membership = .fleet ∧ force = false ∧ drain = true then
      { m with serving := .leaving id }
    else m.turn []
  | .patch patch, some d => m.turn (patch.wishes cfg d)
  | .drain _, none | .leave .., none | .patch _, none => m.turn []
  | .none, some d =>
    if d.membership ≠ .fleet then m.refused
    else if d.drain.any fun r => r.state = "running" then m.asked
    else m
  | .none, none => m.refused
  | _, _ => m

/-- The task has read the record of a drive. -/
def read (m : Drainer) (id : DriveId) (x : Option Drive) : Drainer :=
  match m.retiring, x with
  | some _, none => { m with retiring := none }
  | some _, some _ => m
  | none, x => m.look cfg id x

/-- The engine has answered what it knows of a drain. -/
def answered (m : Drainer) (x : Except String (Option DrainStatus)) : Drainer :=
  match m.polls, m.todo, x with
  | _ :: rest, _, .error _ => { m with polls := rest }
  | _ :: _, _, .ok found => { m with said := found.map DrainStatus.state }
  | [], _ :: _, .ok found =>
    { m with heard := (found.filter DrainStatus.isRunning).map DrainStatus.state }
  | [], _, .error _ => m.refused
  | [], [], .ok _ => m

/-- The engine has answered a start. -/
def started (m : Drainer) (x : Except String DrainStatus) : Drainer :=
  match m.todo, x with
  | _ :: _, .ok s => { m with heard := some s.state }
  | _, .error _ => m.refused
  | [], .ok _ => m

/-- The status of a poll is written. -/
def polled (m : Drainer) (state : String) : Drainer :=
  match m.polls with
  | (id, thenLeave) :: rest =>
    { m with
      polls := rest, said := none
      retiring := if state = "empty" ∧ thenLeave = true then some id else none }
  | [] => m

/-- The engine has taken the report of a drive's health. -/
def reported (m : Drainer) (id : DriveId) (word : String) (ok : Bool) : Drainer :=
  match m.serving, m.todo with
  | .designated _, _ => m.turn [⟨id, .report, true⟩]
  | .none, [] =>
    if ok = true ∧ (word = "failed" ∨ word = "failing") ∧ cfg.drainOnFailing = true then
      m.turn [⟨id, .report, true⟩]
    else m
  | _, _ => m

/-- The health is on record. -/
def marked (m : Drainer) (id : DriveId) (word : String) : Drainer :=
  if (word = "failed" ∨ word = "failing") ∧ cfg.drainOnFailing = true then
    { m with owes := some id }
  else m

/-- The label is written, or refused. -/
def labelled (m : Drainer) (id : DriveId) (x : Except String (Designation × Drive)) : Drainer :=
  match m.serving, x with
  | .designation des, .ok out =>
    if des = .failed ∧ out.2.membership = .fleet ∧ cfg.stormblock = true ∧
        cfg.drainOnFailing = true then { m with serving := .designated id }
    else { m with serving := .none }
  | .designation _, .error _ => { m with serving := .none }
  | _, .error _ => { m with todo := [] }
  | _, .ok _ => m

/-- A leave has asked for the slabs with anything on them. -/
def counted (m : Drainer) (x : Except String (List String)) : Drainer :=
  match m.serving, x with
  | .leaving id, .ok (_ :: _) => m.turn [⟨id, .start, true⟩]
  | .leaving _, _ => { m with serving := .none }
  | _, _ => m

/-- A running drain of the list, as the poll takes it. -/
def pollOf (d : Drive) : DriveId × Bool :=
  (d.id, (d.drain.getD {}).thenLeave)

/-- A pending drain of the list, as the retry takes it. -/
def retryOf (d : Drive) : Wish :=
  ⟨d.id, .retry, (d.drain.getD {}).thenLeave⟩

/-- A task after an operation. -/
def next (m : Drainer) : (op : Op) → op.Ans → Drainer
  | .record (.read .other id), x => m.read cfg id x
  | .record .runningDrains, l => { m with polls := l.map pollOf, said := none }
  | .record .dueDrains, l => { m with todo := l.map retryOf, heard := none }
  | .record (.designate id _), x => m.labelled cfg id x
  | .record (.change _ (.drainStarted _)), _ => m.asked
  | .record (.change _ (.drainRefused ..)), _ => m.refusalWritten
  | .record (.change _ (.drainPending ..)), _ => { m with polls := m.polls.tail, said := none }
  | .record (.change _ (.drainStatus state _)), _ => m.polled state
  | .record (.change _ .retired), _ => { m with retiring := none }
  | .record (.change id (.healthPushed word)), _ => m.marked cfg id word
  | .engine (.drainStatus ..), x => m.answered x
  | .engine (.startDrain ..), x => m.started x
  | .engine (.deleteDrive ..), .error _ => { m with retiring := none }
  | .engine (.reportHealth _ word id), x => m.reported cfg id word x.isOk
  | .engine (.occupiedSlabs _), x => m.counted x
  | .engine .listDrives, .error _ | .engine (.setLabels ..), .error _
  | .engine (.addDrive ..), .error _ | .engine (.formatSlab ..), .error _ => { m with todo := [] }
  | _, _ => m

section Next

variable (m : Drainer)

lemma next_read (id : DriveId) (x : Option Drive) :
    m.next cfg (.record (.read .other id)) x = m.read cfg id x := rfl

lemma next_runningDrains (l : List Drive) : m.next cfg (.record .runningDrains) l =
    { m with polls := l.map pollOf, said := none } := rfl

lemma next_dueDrains (l : List Drive) : m.next cfg (.record .dueDrains) l =
    { m with todo := l.map retryOf, heard := none } := rfl

lemma next_designate (id : DriveId) (des : Designation) (x : Except String (Designation × Drive)) :
    m.next cfg (.record (.designate id des)) x = m.labelled cfg id x := rfl

lemma next_refused (id : DriveId) (reason : String) (thenLeave : Bool) (error : String)
    (x : Option Drive) :
    m.next cfg (.record (.change id (.drainRefused reason thenLeave error))) x =
      m.refusalWritten := rfl

lemma next_polled (id : DriveId) (state : String) (errors : List String) (x : Option Drive) :
    m.next cfg (.record (.change id (.drainStatus state errors))) x = m.polled state := rfl

lemma next_marked (id : DriveId) (word : String) (x : Option Drive) :
    m.next cfg (.record (.change id (.healthPushed word))) x = m.marked cfg id word := rfl

lemma next_answered (path : String) (id : DriveId) (x : Except String (Option DrainStatus)) :
    m.next cfg (.engine (.drainStatus path id)) x = m.answered x := rfl

lemma next_started (path : String) (id : DriveId) (x : Except String DrainStatus) :
    m.next cfg (.engine (.startDrain path id)) x = m.started x := rfl

lemma next_reported (path word : String) (id : DriveId) (x : Except String Unit) :
    m.next cfg (.engine (.reportHealth path word id)) x = m.reported cfg id word x.isOk := rfl

lemma next_counted (path : String) (x : Except String (List String)) :
    m.next cfg (.engine (.occupiedSlabs path)) x = m.counted x := rfl

end Next

/-- A task that begins with a request. -/
def of : Req → Drainer
  | .startDrain _ leave => { serving := .drain leave }
  | .fleetLeave _ drain force => { serving := .leave drain force }
  | .setDesignation _ des => { serving := .designation des }
  | .patchDrive _ patch => { serving := .patch patch }
  | _ => {}

end Drainer

/-- How the drains in hand move. -/
def drainTracer (cfg : Settings) : Tracer Op Op.Ans Req Drainer where
  fresh := Drainer.of
  next := Drainer.next cfg
  child _ := Drainer.of

/-- The task asks for a drain of the drive. -/
def Drainer.Wants (m : Drainer) (id : DriveId) (w : Wish) : Prop :=
  m.todo.head? = some w ∧ w.drive = id

/-- What a task writes about a drain is what it has taken up, in the engine's words. -/
def Drainer.mayWrite (cfg : Settings) (m : Drainer) : Op → Prop
  | .engine (.startDrain _ id) => ∃ w, m.Wants id w
  | .record (.change id u) =>
    match u with
    | .drainStarted r => ∃ w, m.Wants id w ∧ m.heard = some r.state ∧ r.thenLeave = w.thenLeave
    | .drainRefused _ thenLeave _ =>
      ∃ w, m.Wants id w ∧ w.ask.writes = true ∧ thenLeave = w.thenLeave
    | .drainPending .. => ∃ thenLeave, m.polls.head? = some (id, thenLeave)
    | .drainStatus state _ =>
      (∃ thenLeave, m.polls.head? = some (id, thenLeave)) ∧ m.said = some state
    | .retired => m.retiring = some id
    -- a pending drain is dropped in a section of its own
    | .drainDropped => False
    | .healthPushed word => (word = "failed" ∨ word = "failing") → cfg.drainOnFailing = true →
      ∃ w, m.Wants id w ∧ (w.ask = .report ∨ w.ask = .patch)
    | _ => True
  | _ => True

/-- The operation is one of those that retire a drive. -/
def Op.retires (id : DriveId) : Op → Prop
  | .record (.read .other id') | .record (.change id' .retired)
  | .engine (.deleteDrive _ _ id') => id' = id
  | _ => False

/-- **What a task does about a drain is what it has taken up.** A drive that is empty it retires
next, and of a drive that it has put on record as failing it asks a drain next. -/
structure Drainer.May (cfg : Settings) (m : Drainer) (o : Op) : Prop where
  retires : ∀ id, m.retiring = some id → o.retires id
  drains : ∀ id, m.owes = some id → o.drains id
  write : m.mayWrite cfg o

/-- The protocol of the drains. -/
def drainProtocol (cfg : Settings) : Protocol Op Op.Ans Req Drainer where
  toTracer := drainTracer cfg
  may := Drainer.May cfg
  gives _ _ _ := True
  ready r m := m = Drainer.of r
  done m := m.drives = [] ∧ m.owes = none

/-! ## Every task keeps to the protocol -/

section Entry

variable {cfg : Settings} {α : Type}

/-- A task that retires no drive and owes no drain. -/
lemma may_free {m : Drainer} {o : Op} (hretiring : m.retiring = none) (howes : m.owes = none)
    (h : m.mayWrite cfg o) : (drainProtocol cfg).may m o :=
  ⟨fun _ hid => (nomatch hretiring.symm.trans hid), fun _ hid => (nomatch howes.symm.trans hid), h⟩

/-- What has nothing to do with the fleet leaves a task without a drain in hand. -/
lemma overlooks_drains : Overlooks (drainProtocol cfg) {} := by
  constructor
  · intro o ho
    refine may_free rfl rfl ?_
    cases o with
    | record r =>
      cases r with
      | change id u => cases u <;> trivial
      | _ => trivial
    | engine r => cases ho
    | _ => trivial
  · intro o x ho
    cases o with
    | record r =>
      cases r with
      | change id u => cases u <;> first | rfl | cases ho
      | read site id =>
        cases site with
        | approval => rfl
        | other =>
          cases x with
          | none => rfl
          | some d =>
            simp only [drainProtocol, drainTracer, Drainer.next_read, Drainer.read, Drainer.look,
              Drainer.refused, Drainer.asked, List.tail_nil, ite_self]
      | _ => first | rfl | cases ho
    | engine r => cases ho
    | _ => rfl

lemma wp_drains_persist {m : Drainer} {Q : Unit → Drainer → Prop} (hQ : Q () m)
    (hretiring : m.retiring = none) (howes : m.owes = none) :
    wp (drainProtocol cfg) (persist cfg) Q m := by
  unfold persist
  split
  · refine ⟨may_free hretiring howes trivial, fun _ _ => ?_⟩
    exact ⟨may_free hretiring howes trivial, fun _ _ => hQ⟩
  · exact hQ

/-! ### Asking for a drain -/

/-- What `start_drain` does for a drive of the fleet that has no running drain on record. -/
def startInEngine (cfg : Settings) (d : Drive) (id : DriveId) (reason : String)
    (thenLeave : Bool) : Work (Except String Unit) :=
  andThen (perform (.engine (.drainStatus d.stormblockPath id)) :
    Work (Except String (Option DrainStatus))) fun found => do
  let running := found.filter DrainStatus.isRunning
  let status ← (match running with
    | some s => pure (.ok s)
    | none => perform (.engine (.startDrain d.stormblockPath id)) :
      Work (Except String DrainStatus))
  match status with
  | .error why => pure (.error why)
  | .ok s =>
    let _ ← changeDrive id (.drainStarted
      { state := s.state, reason := reason, thenLeave := thenLeave, errors := s.errors })
    persist cfg
    pure (.ok ())

lemma startDrain_eq (id : DriveId) (reason : String) (thenLeave : Bool) :
    startDrain cfg id reason thenLeave = (readDrive .other id >>= fun x =>
      match x with
      | none => pure (.error "not in inventory")
      | some d =>
        if d.membership ≠ .fleet then
          pure (.error (d.name ++ ": not in the fleet, nothing to drain"))
        else if d.drain.any fun r => r.state = "running" then pure (.ok ())
        else startInEngine cfg d id reason thenLeave) := rfl

/-- What a task has in hand once it has asked for the first of its drains. -/
def Wish.after (w : Wish) (rest : List Wish) (owes : Option DriveId) : Except String Unit → Drainer
  | .ok _ => { todo := rest }
  | .error _ => if w.ask = .start then { owes := owes } else { todo := w :: rest, owes := owes }

variable {id : DriveId} {reason : String} {ask : Ask} {thenLeave : Bool} {rest : List Wish}
  {owes : Option DriveId}

/-- A task that asks for the drain that it owes, if it owes one. -/
lemma may_ask {m : Drainer} {o : Op} (howes : ∀ id', m.owes = some id' → id' = id)
    (hretiring : m.retiring = none) (hdrains : o.drains id) (h : m.mayWrite cfg o) :
    (drainProtocol cfg).may m o :=
  ⟨fun _ hid => (nomatch hretiring.symm.trans hid), fun id' hid => howes id' hid ▸ hdrains, h⟩

/-- **A drain is asked for** as it was taken up. -/
lemma wp_drains_startInEngine (d : Drive) (howes : ∀ id', owes = some id' → id' = id) :
    wp (drainProtocol cfg) (startInEngine cfg d id reason thenLeave)
      (fun r m => m = Wish.after ⟨id, ask, thenLeave⟩ rest owes r)
      { todo := ⟨id, ask, thenLeave⟩ :: rest, owes := owes } := by
  have hwant : ∀ heard, ({ todo := ⟨id, ask, thenLeave⟩ :: rest, heard := heard, owes := owes } :
      Drainer).Wants id ⟨id, ask, thenLeave⟩ := fun _ => ⟨rfl, rfl⟩
  have hend : ∀ s : DrainStatus, wp (drainProtocol cfg) (do
      let _ ← changeDrive id (.drainStarted
        { state := s.state, reason := reason, thenLeave := thenLeave, errors := s.errors })
      persist cfg
      pure (.ok ())) (fun r m => m = Wish.after ⟨id, ask, thenLeave⟩ rest owes r)
      { todo := ⟨id, ask, thenLeave⟩ :: rest, heard := some s.state, owes := owes } := fun s =>
    wp_op_bind _ (may_ask howes rfl rfl ⟨_, hwant _, rfl, rfl⟩) fun _ _ =>
      wp_seq _ (wp_drains_persist rfl rfl rfl)
  refine wp_andThen ⟨may_ask howes rfl rfl trivial, fun r _ => ?_⟩
  cases r with
  | error why => cases ask <;> rfl
  | ok found =>
    have hnext : (drainProtocol cfg).next
        { todo := ⟨id, ask, thenLeave⟩ :: rest, owes := owes }
        (.engine (.drainStatus d.stormblockPath id)) (.ok found) =
        { todo := ⟨id, ask, thenLeave⟩ :: rest,
          heard := (found.filter DrainStatus.isRunning).map DrainStatus.state
          owes := owes } := rfl
    rw [hnext, wp_ret]
    dsimp only
    cases found.filter DrainStatus.isRunning with
    | some s => exact hend s
    | none =>
      refine wp_op_bind _ (may_ask howes rfl rfl ⟨_, hwant _⟩) fun r _ => ?_
      cases r with
      | error why => cases ask <;> rfl
      | ok s => exact hend s

lemma wp_drains_startDrain (howes : ∀ id', owes = some id' → id' = id) :
    wp (drainProtocol cfg) (startDrain cfg id reason thenLeave)
      (fun r m => m = Wish.after ⟨id, ask, thenLeave⟩ rest owes r)
      { todo := ⟨id, ask, thenLeave⟩ :: rest, owes := owes } := by
  rw [startDrain_eq]
  refine wp_op_bind _ (may_ask howes rfl rfl trivial) fun x _ => ?_
  cases x with
  | none => cases ask <;> rfl
  | some d =>
    have hnext : (drainProtocol cfg).next
        { todo := ⟨id, ask, thenLeave⟩ :: rest, owes := owes }
        (.record (.read .other id)) (some d) =
        if d.membership ≠ .fleet then
          ({ todo := ⟨id, ask, thenLeave⟩ :: rest, owes := owes } : Drainer).refused
        else if d.drain.any fun r => r.state = "running" then { todo := rest }
        else { todo := ⟨id, ask, thenLeave⟩ :: rest, owes := owes } := rfl
    rw [hnext]
    dsimp only
    by_cases hin : d.membership ≠ .fleet
    · rw [if_pos hin, if_pos hin]
      cases ask <;> rfl
    · rw [if_neg hin, if_neg hin]
      by_cases hrun : (d.drain.any fun r => r.state = "running") = true
      · rw [if_pos hrun, if_pos hrun]
        rfl
      · rw [if_neg hrun, if_neg hrun]
        exact wp_drains_startInEngine d howes

/-- **A drain that is refused is written down**, by a task that does so. -/
lemma wp_drains_requestDrain (hask : ask.writes = true)
    (howes : ∀ id', owes = some id' → id' = id) :
    wp (drainProtocol cfg) (requestDrain cfg id reason thenLeave)
      (fun r m => m = { todo := if ask = .patch ∧ r.isOk = false then [] else rest })
      { todo := ⟨id, ask, thenLeave⟩ :: rest, owes := owes } := by
  refine wp_seq _ (wp_mono _ (fun r m hm => ?_) (wp_drains_startDrain howes))
  subst hm
  cases r with
  | ok _ => simp [Wish.after, Except.isOk, Except.toBool]
  | error why =>
    have hafter : Wish.after ⟨id, ask, thenLeave⟩ rest owes (.error why) =
        { todo := ⟨id, ask, thenLeave⟩ :: rest, owes := owes } := by
      cases ask <;> first | rfl | cases hask
    rw [hafter]
    refine wp_op_bind _ (may_ask howes rfl rfl ⟨_, ⟨rfl, rfl⟩, hask, rfl⟩) fun x _ => ?_
    have hnext : (drainProtocol cfg).next { todo := ⟨id, ask, thenLeave⟩ :: rest, owes := owes }
        (.record (.change id (.drainRefused reason thenLeave why))) x =
        { todo := if ask = .patch then [] else rest } := rfl
    rw [hnext]
    cases x with
    | none => cases ask <;> rfl
    | some d =>
      refine wp_seq _ (wp_when (fun _ => wp_drains_persist ?_ rfl rfl) fun _ => ?_)
      · cases ask <;> rfl
      · cases ask <;> rfl

/-! ### The fleet's tick -/

lemma back_drains_pushLabel (d : Drive) : Back (drainProtocol cfg) {} (pushLabel d) := by
  refine wp_op_bind _ (may_free rfl rfl trivial) fun r _ => ?_
  cases r with
  | ok _ => exact wp_ignore ⟨may_free rfl rfl trivial, fun _ _ => rfl⟩
  | error why => rfl

lemma back_drains_pushOvercommit (ds : List Drive) :
    Back (drainProtocol cfg) {} (pushOvercommit ds) := by
  induction ds with
  | nil => rfl
  | cons d rest ih =>
    refine wp_op_bind _ (may_free rfl rfl trivial) fun r _ => ?_
    rcases r with why | _ | _
    · exact ih
    · rfl
    · exact wp_op_bind _ (may_free rfl rfl trivial) fun _ _ => ih

lemma back_drains_pushThermal (ds : List Drive) :
    Back (drainProtocol cfg) {} (pushThermal ds) := by
  induction ds with
  | nil => rfl
  | cons d rest ih =>
    refine wp_op_bind _ (may_free rfl rfl trivial) fun r _ => ?_
    rcases r with why | _ | _
    · exact ih
    · rfl
    · exact wp_op_bind _ (may_free rfl rfl trivial) fun _ _ => ih

/-- **A drive whose health is reported failing** is one to ask a drain of. -/
lemma back_drains_reportHealth (d : Drive) : Back (drainProtocol cfg) {} (reportHealth cfg d) := by
  refine wp_op_bind _ (may_free rfl rfl trivial) fun r _ => ?_
  cases r with
  | error why =>
    have hnext : (drainProtocol cfg).next {} (.engine (.reportHealth d.healthTarget d.healthWord
        d.id)) (.error why) = {} := by
      simp [drainProtocol, drainTracer, Drainer.next_reported, Drainer.reported, Except.isOk, Except.toBool]
    rw [hnext]
    rfl
  | ok u =>
    by_cases hbad : (d.healthWord = "failed" ∨ d.healthWord = "failing") ∧
        cfg.drainOnFailing = true
    · have hnext : (drainProtocol cfg).next {} (.engine (.reportHealth d.healthTarget d.healthWord
          d.id)) (.ok u) = { todo := [⟨d.id, .report, true⟩] } := by
        simp [drainProtocol, drainTracer, Drainer.next_reported, Drainer.reported, Drainer.turn,
          Except.isOk, Except.toBool, hbad]
      rw [hnext]
      refine wp_op_bind _ (may_free rfl rfl fun _ _ => ⟨_, ⟨rfl, rfl⟩, .inl rfl⟩) fun x _ => ?_
      have hmark : (drainProtocol cfg).next { todo := [⟨d.id, .report, true⟩] }
          (.record (.change d.id (.healthPushed d.healthWord))) x =
          { todo := [⟨d.id, .report, true⟩], owes := some d.id } := if_pos hbad
      rw [hmark, if_pos hbad]
      refine wp_ignore (wp_mono _ (fun r m hm => ?_)
        (wp_drains_requestDrain rfl fun _ h => (Option.some.inj h).symm))
      rw [hm]
      simp
    · have hnext : (drainProtocol cfg).next {} (.engine (.reportHealth d.healthTarget d.healthWord
          d.id)) (.ok u) = {} := by
        simp only [drainProtocol, drainTracer, Drainer.next_reported, Drainer.reported]
        exact if_neg fun h => hbad ⟨h.2.1, h.2.2⟩
      rw [hnext]
      refine wp_op_bind _ (may_free rfl rfl fun hword hcfg => absurd ⟨hword, hcfg⟩ hbad)
        fun x _ => ?_
      have hmark : (drainProtocol cfg).next {}
          (.record (.change d.id (.healthPushed d.healthWord))) x = {} := if_neg hbad
      rw [hmark, if_neg hbad]
      refine wp_when (fun _ => ?_) fun _ => rfl
      exact wp_op_bind _ (may_free rfl rfl trivial) fun _ _ =>
        wp_when (fun _ => wp_drains_persist rfl rfl rfl) fun _ => rfl

/-- **A drain is followed** as it was listed. -/
lemma wp_drains_pollDrain (d : Drive) (l : List (DriveId × Bool)) :
    wp (drainProtocol cfg) (pollDrain cfg d) (fun _ m => m = { polls := l })
      { polls := Drainer.pollOf d :: l } := by
  refine wp_op_bind _ (may_free rfl rfl trivial) fun r _ => ?_
  rcases r with why | _ | status
  · rfl
  · exact wp_op_bind _ (may_free rfl rfl ⟨_, rfl⟩) fun _ _ => rfl
  · have hmay : ∀ {id : DriveId} {o : Op}, o.retires id → ({ polls := l, retiring := some id } :
        Drainer).mayWrite cfg o →
        (drainProtocol cfg).may { polls := l, retiring := some id } o := fun hretires h =>
      ⟨fun _ hid => Option.some.inj hid ▸ hretires, nofun, h⟩
    have hretire : ∀ id, wp (drainProtocol cfg) (retire id) (fun _ m => m = { polls := l })
        { polls := l, retiring := some id } := by
      intro id
      refine wp_op_bind _ (hmay rfl trivial) fun r _ => ?_
      cases r with
      | none => rfl
      | some d =>
        refine wp_op_bind _ (hmay rfl trivial) fun r _ => ?_
        cases r with
        | error why => rfl
        | ok _ => exact wp_op_bind _ (hmay rfl rfl) fun _ _ => rfl
    have hheard : (drainProtocol cfg).next { polls := Drainer.pollOf d :: l }
        (.engine (.drainStatus d.stormblockPath d.id)) (.ok (some status)) =
        { polls := Drainer.pollOf d :: l, said := some status.state } := rfl
    rw [hheard]
    refine wp_op_bind _ (may_free rfl rfl ⟨⟨_, rfl⟩, rfl⟩) fun x _ => ?_
    have hnext : (drainProtocol cfg).next
        { polls := Drainer.pollOf d :: l, said := some status.state }
        (.record (.change d.id (.drainStatus status.state status.errors))) x =
        { polls := l,
          retiring := if status.state = "empty" ∧ (d.drain.getD {}).thenLeave = true then
            some d.id else none } := rfl
    have hstay : status.state ≠ "empty" ∨ (d.drain.getD {}).thenLeave = false →
        (drainProtocol cfg).next
          { polls := Drainer.pollOf d :: l, said := some status.state }
          (.record (.change d.id (.drainStatus status.state status.errors))) x = { polls := l } := by
      intro h
      rw [hnext, if_neg]
      rcases h with h | h <;> simp [h]
    by_cases hempty : status.state = "empty"
    · refine wp_ite (fun hrun => absurd (hempty.symm.trans hrun) (by decide)) fun _ => ?_
      rw [if_pos hempty]
      refine wp_seq _ (wp_mono _ (Q := fun _ m => m = { polls := l }) (fun _ m hm => ?_)
        (wp_ite (fun hleave => ?_) fun hstays => ?_))
      · subst hm
        exact wp_drains_persist rfl rfl rfl
      · rw [hnext, if_pos ⟨hempty, hleave⟩]
        exact hretire d.id
      · rw [hstay (.inr (Bool.not_eq_true _ ▸ hstays))]
        exact wp_op_bind _ (may_free rfl rfl trivial) fun _ _ => rfl
    · rw [hstay (.inl hempty)]
      refine wp_ite (fun _ => rfl) fun _ => ?_
      rw [if_neg hempty]
      exact wp_ite (fun _ => wp_drains_persist rfl rfl rfl)
        fun _ => wp_op_bind _ (may_free rfl rfl trivial) fun _ _ => rfl

lemma wp_drains_pollDrains (ds : List Drive) :
    wp (drainProtocol cfg) (pollDrains cfg ds) (fun _ m => m = {})
      { polls := ds.map Drainer.pollOf } := by
  induction ds with
  | nil => rfl
  | cons d rest ih =>
    refine wp_seq _ (wp_mono _ (fun _ m hm => ?_) (wp_drains_pollDrain d _))
    rw [hm]
    exact ih

lemma wp_drains_retryPendingDrains (ds : List Drive) :
    wp (drainProtocol cfg) (retryPendingDrains cfg ds) (fun _ m => m = {})
      { todo := ds.map Drainer.retryOf } := by
  induction ds with
  | nil => rfl
  | cons d rest ih =>
    have hretry : Ask.retry.writes = true := rfl
    refine wp_seq _ (wp_mono _ (fun _ m hm => ?_) (wp_drains_requestDrain hretry nofun))
    simp only [reduceCtorEq, false_and, if_false] at hm
    rw [hm]
    exact ih

/-! ### Joins -/

/-- A join, or what is left of it, takes up no drain, and lets go of them where it fails. -/
def Drainer.joined (rest : List Wish) {β : Type} : Except String β → Drainer
  | .ok _ => { todo := rest }
  | .error _ => {}

lemma wp_drains_openInEngine (rest : List Wish) {target : String}
    {labels : List (String × String)} {listed : List EngineDrive} :
    wp (drainProtocol cfg) (openInEngine target labels id listed)
      (fun r m => m = Drainer.joined rest r) { todo := rest } := by
  refine wp_ite (fun _ => ⟨may_free rfl rfl trivial, fun r _ => ?_⟩)
    fun _ => ⟨may_free rfl rfl trivial, fun r _ => ?_⟩
  · cases r <;> rfl
  · cases r <;> rfl

lemma wp_drains_slabInEngine (rest : List Wish) {target tier : String} {role : Option Role} :
    wp (drainProtocol cfg) (slabInEngine target tier role)
      (fun r m => m = Drainer.joined rest r) { todo := rest } := by
  refine wp_op_bind _ (may_free rfl rfl trivial) fun slabs _ => ?_
  have hnext : (drainProtocol cfg).next { todo := rest } (.engine (.driveSlabs target)) slabs =
      { todo := rest } := by cases slabs <;> rfl
  rw [hnext]
  refine wp_ite (fun _ => wp_andThen ⟨may_free rfl rfl trivial, fun r _ => ?_⟩) fun _ => rfl
  cases r <;> rfl

lemma wp_drains_join (rest : List Wish) (d : Drive) (formatSlab : Bool) (tier : Option String) :
    wp (drainProtocol cfg) (join cfg d formatSlab tier)
      (fun r m => m = Drainer.joined rest r) { todo := rest } := by
  refine wp_andThen ⟨may_free rfl rfl trivial, fun r _ => ?_⟩
  cases r with
  | error why => rfl
  | ok listed =>
    refine wp_andThen (wp_mono _ (fun r m hm => ?_) (wp_drains_openInEngine rest))
    subst hm
    cases r with
    | error why => rfl
    | ok _ =>
      refine wp_andThen (wp_mono _ (fun r m hm => ?_) (wp_ite
        (fun _ => wp_drains_slabInEngine rest) fun _ => rfl))
      subst hm
      cases r with
      | error why => rfl
      | ok formatted => exact wp_op_bind _ (may_free rfl rfl trivial) fun _ _ => rfl

lemma back_drains_joinAndPersist (d : Drive) (formatSlab : Bool) (tier : Option String) :
    Back (drainProtocol cfg) {} (joinAndPersist cfg d formatSlab tier) := by
  refine wp_seq _ (wp_mono _ (fun r m hm => ?_) (wp_drains_join [] d formatSlab tier))
  subst hm
  cases r with
  | ok _ => exact wp_drains_persist rfl rfl rfl
  | error why => rfl

lemma back_drains_stepEnroll (d : Drive) (tier : Option String) (role : Role)
    (steps : List Step) : Back (drainProtocol cfg) {} (stepEnroll cfg d tier role steps) := by
  refine wp_andThen ⟨may_free rfl rfl trivial, fun r _ => ?_⟩
  cases r with
  | error why => rfl
  | ok listed =>
    refine wp_andThen (wp_mono _ (fun r m hm => ?_) (wp_drains_openInEngine []))
    subst hm
    cases r with
    | error why => rfl
    | ok _ =>
      refine wp_andThen (wp_mono _ (fun r m hm => ?_) (wp_drains_slabInEngine []))
      subst hm
      cases r with
      | error why => rfl
      | ok formatted =>
        exact wp_op_bind _ (may_free rfl rfl trivial) fun _ _ =>
          wp_seq _ (wp_drains_persist rfl rfl rfl)

/-- **The fleet's tick** has no drain in hand between its parts. -/
lemma back_drains_fleetTick : Back (drainProtocol cfg) {} (fleetTick cfg) := by
  have hdue : ∀ {w : Due} {p : List Drive → Work Unit}, (∀ ds, Back (drainProtocol cfg) {} (p ds)) →
      Back (drainProtocol cfg) {} (do
        let due : List Drive ← perform (.record (.due w))
        p due) := fun hp => wp_op_bind _ (may_free rfl rfl trivial) fun ds _ => hp ds
  refine wp_tickParts overlooks_drains (hdue fun ds => ?_) (hdue back_drains_pushOvercommit)
    (hdue back_drains_pushThermal) (hdue fun ds => ?_)
    (wp_op_bind _ (may_free rfl rfl trivial) fun ds _ => wp_drains_pollDrains ds)
    (wp_op_bind _ (may_free rfl rfl trivial) fun ds _ => wp_drains_retryPendingDrains ds) ?_
    (wp_drains_persist rfl rfl rfl)
  · exact back_forAll rfl (fun _ _ => rfl) ds fun d _ => back_drains_pushLabel d
  · exact back_forAll rfl (fun _ _ => rfl) ds fun d _ => back_drains_reportHealth d
  · refine wp_mono _ (fun _ m hm => by subst hm; exact wp_drains_persist rfl rfl rfl)
      (hdue (p := addAll cfg) fun ds => ?_)
    refine back_forAll (f := fun d => do
      let ready : Bool ← perform (.query (.ready ("auto-add " ++ d.name)))
      when ready (joinAndPersist cfg d cfg.autoFormatSlab none)) rfl (fun _ _ => rfl) ds
      fun d _ => ?_
    exact wp_op_bind _ (may_free rfl rfl trivial) fun _ _ =>
      wp_when (fun _ => back_drains_joinAndPersist _ _ _) fun _ => rfl

/-! ### Requests -/

lemma back_drains_cancelDrain (id : DriveId) :
    Back (drainProtocol cfg) {} (cancelDrain cfg id) := by
  refine back_op ⟨may_free rfl rfl trivial, fun x => overlooks_drains.next _ x rfl⟩ fun x => ?_
  cases x with
  | none => rfl
  | some d =>
    refine wp_andThen ⟨may_free rfl rfl trivial, fun r _ => ?_⟩
    cases r with
    | error why => rfl
    | ok _ =>
      exact wp_op_bind _ (may_free rfl rfl trivial) fun _ _ =>
        wp_seq _ (wp_drains_persist rfl rfl rfl)

/-- After a start, a task has nothing in hand but what it asks for next. -/
lemma Wish.after_start (r : Except String Unit) :
    Wish.after ⟨id, .start, thenLeave⟩ rest none r = Drainer.joined rest r := by
  cases r <;> rfl

/-- Nor has one that asks for nothing next. -/
lemma Wish.after_last (r : Except String Unit) :
    Wish.after ⟨id, .start, thenLeave⟩ [] none r = {} := by
  cases r <;> rfl

/-- **A drain by REST** is taken up when the record is read. -/
lemma wp_drains_startDrain_route (leave : Bool) :
    wp (drainProtocol cfg) (startDrain cfg id reason leave) (fun _ m => m = {})
      { serving := .drain leave } := by
  rw [startDrain_eq]
  refine wp_op_bind _ (may_free rfl rfl trivial) fun x _ => ?_
  cases x with
  | none => rfl
  | some d =>
    have hnext : (drainProtocol cfg).next { serving := .drain leave }
        (.record (.read .other id)) (some d) =
        if d.membership = .fleet ∧ (d.drain.any fun r => r.state = "running") = false then
          { todo := [⟨id, .start, leave⟩] }
        else {} := rfl
    rw [hnext]
    dsimp only
    by_cases hin : d.membership ≠ .fleet
    · rw [if_pos hin, if_neg fun h => hin h.1]
      rfl
    · rw [if_neg hin]
      by_cases hrun : (d.drain.any fun r => r.state = "running") = true
      · rw [if_pos hrun, if_neg fun h => by rw [hrun] at h; cases h.2]
        rfl
      · rw [if_neg hrun, if_pos ⟨not_not.mp hin, Bool.not_eq_true _ ▸ hrun⟩]
        exact wp_mono _ (fun r m hm => hm.trans (Wish.after_last r))
          (wp_drains_startInEngine d nofun)

lemma back_drains_leaveNow (d : Drive) (force : Bool) :
    Back (drainProtocol cfg) {} (leaveNow cfg d force) := by
  refine wp_op_bind _ (may_free rfl rfl trivial) fun r _ => ?_
  cases r with
  | error why => rfl
  | ok _ => exact wp_op_bind _ (may_free rfl rfl trivial) fun _ _ => wp_drains_persist rfl rfl rfl

/-- **A leave by REST** asks for a drain when it finds anything on the drive. -/
lemma wp_drains_fleetLeave (drain force : Bool) :
    wp (drainProtocol cfg) (fleetLeave cfg id drain force) (fun _ m => m = {})
      { serving := .leave drain force } := by
  refine wp_op_bind _ (may_free rfl rfl trivial) fun x _ => ?_
  cases x with
  | none => rfl
  | some d =>
    have hnext : (drainProtocol cfg).next { serving := .leave drain force }
        (.record (.read .other id)) (some d) =
        if cfg.stormblock = true ∧ d.membership = .fleet ∧ force = false ∧ drain = true then
          { serving := .leaving id }
        else {} := rfl
    rw [hnext]
    refine wp_ite (fun hout => ?_) fun hin => ?_
    · rw [if_neg fun h => hout.elim (fun h' => by rw [h.1] at h'; cases h') fun h' => h' h.2.1]
      rfl
    · rw [not_or, Bool.not_eq_false, not_not] at hin
      refine wp_ite (fun hforce => ?_) fun hforce => ?_
      · rw [if_neg fun h => by rw [hforce] at h; cases h.2.2.1]
        exact back_drains_leaveNow d force
      · rw [Bool.not_eq_true] at hforce
        cases drain with
        | false =>
          rw [if_neg fun h => by cases h.2.2.2]
          refine wp_op_bind _ (may_free rfl rfl trivial) fun r _ => ?_
          rcases r with why | _ | _
          · rfl
          · exact back_drains_leaveNow d force
          · rfl
        | true =>
          rw [if_pos ⟨hin.1, hin.2, hforce, rfl⟩]
          refine wp_op_bind _ (may_free rfl rfl trivial) fun r _ => ?_
          rcases r with why | _ | _
          · rfl
          · exact back_drains_leaveNow d force
          · exact wp_ignore (wp_mono _ (fun r m hm => hm.trans (Wish.after_last r))
              (wp_drains_startDrain nofun))

lemma back_drains_systemSync : Back (drainProtocol cfg) {} systemSync :=
  wp_op_bind _ (may_free rfl rfl trivial) fun _ _ => ⟨may_free rfl rfl trivial, fun _ _ => rfl⟩

/-- A drive that the operator marked failed is one to ask a drain of, once it has been reported. -/
lemma wp_drains_reportFailed (hcfg : cfg.drainOnFailing = true) :
    wp (drainProtocol cfg) (reportFailed id)
      (fun _ m => ∃ owes : Option DriveId, (∀ id', owes = some id' → id' = id) ∧
        m = { todo := [⟨id, .report, true⟩], owes := owes })
      { serving := .designated id } := by
  refine wp_op_bind _ (may_free rfl rfl trivial) fun x _ => ?_
  have hread : (drainProtocol cfg).next { serving := .designated id }
      (.record (.read .other id)) x = { serving := .designated id } := by cases x <;> rfl
  rw [hread]
  refine wp_op_bind _ (may_free rfl rfl trivial) fun r _ => ?_
  cases r with
  | error why => exact ⟨none, nofun, rfl⟩
  | ok _ =>
    refine wp_ignore ⟨may_free rfl rfl fun _ _ => ⟨_, ⟨rfl, rfl⟩, .inl rfl⟩, fun _ _ => ?_⟩
    exact ⟨some id, fun _ h => (Option.some.inj h).symm, if_pos ⟨.inl rfl, hcfg⟩⟩

lemma back_drains_reportFailed (hcfg : cfg.drainOnFailing = false) :
    Back (drainProtocol cfg) {} (reportFailed id) := by
  refine back_op ⟨may_free rfl rfl trivial, fun x => overlooks_drains.next _ x rfl⟩ fun x => ?_
  refine wp_op_bind _ (may_free rfl rfl trivial) fun r _ => ?_
  have hnext : ∀ path, (drainProtocol cfg).next {} (.engine (.reportHealth path "failed" id)) r =
      {} := fun path => if_neg fun h => by rw [hcfg] at h; cases h.2.2
  rw [hnext]
  cases r with
  | error why => rfl
  | ok _ =>
    refine wp_ignore ⟨may_free rfl rfl fun _ h => ?_, fun _ _ => if_neg fun h => ?_⟩
    · rw [hcfg] at h
      cases h
    · rw [hcfg] at h
      cases h.2

lemma wp_drains_setDesignation (des : Designation) :
    wp (drainProtocol cfg) (setDesignation cfg id des) (fun _ m => m = {})
      { serving := .designation des } := by
  refine wp_op_bind _ (may_free rfl rfl trivial) fun r _ => ?_
  cases r with
  | error why => rfl
  | ok out =>
    have hnext : (drainProtocol cfg).next { serving := .designation des }
        (.record (.designate id des)) (.ok out) =
        if des = .failed ∧ out.2.membership = .fleet ∧ cfg.stormblock = true ∧
          cfg.drainOnFailing = true then { serving := .designated id }
        else {} := rfl
    rw [hnext]
    refine wp_seq _ (wp_mono _ (fun _ m hm => ?_) (Q := fun _ m => m = {}) ?_)
    · subst hm
      exact Back.seq (wp_when (fun _ => back_drains_systemSync) fun _ => rfl) fun _ =>
        wp_drains_persist rfl rfl rfl
    · by_cases hfail : des = .failed ∧ out.2.membership = .fleet ∧ cfg.stormblock = true
      · refine wp_when (fun _ => ?_) fun hno => absurd hfail hno
        by_cases hcfg : cfg.drainOnFailing = true
        · rw [if_pos ⟨hfail.1, hfail.2.1, hfail.2.2, hcfg⟩]
          refine wp_seq _ (wp_mono _ (fun _ m hm => ?_) (wp_drains_reportFailed hcfg))
          obtain ⟨owes, howes, rfl⟩ := hm
          refine wp_when (fun _ => wp_ignore (wp_mono _ (fun r m hm => ?_)
            (wp_drains_requestDrain rfl howes))) fun hno => absurd hcfg hno
          rw [hm]
          simp
        · rw [if_neg fun h => hcfg h.2.2.2]
          exact (back_drains_reportFailed (Bool.not_eq_true _ ▸ hcfg)).seq fun _ =>
            wp_when (fun h => absurd h hcfg) fun _ => rfl
      · rw [if_neg fun h => hfail ⟨h.1, h.2.1, h.2.2.1⟩]
        exact wp_when (fun h => absurd h hfail) fun _ => rfl

/-- **The designation of a PATCH**: a drain that it asks for is refused, and nothing more is asked
for. `rest` is what the PATCH asks for then. -/
lemma wp_drains_patchDesignation (d : Drive) (des : Designation) :
    wp (drainProtocol cfg) (patchDesignation cfg d des)
      (fun r m => m = Drainer.joined rest r)
      { todo := designationWishes cfg d rest (some des) } := by
  have hend : ∀ l, wp (drainProtocol cfg)
      (if des = .failed ∧ d.membership = .fleet ∧ cfg.stormblock = true then do
        let _ : Except String Unit ←
          perform (.engine (.reportHealth d.stormblockPath "failed" d.id))
        let _ ← changeDrive d.id (.healthPushed "failed")
        if cfg.drainOnFailing then requestDrain cfg d.id "operator" true else pure (.ok ())
      else pure (.ok ())) (fun r m => m = Drainer.joined rest r) { todo := l } →
      wp (drainProtocol cfg) (patchDesignation cfg d des)
        (fun r m => m = Drainer.joined rest r) { todo := l } := by
    intro l hl
    refine wp_andThen ⟨may_free rfl rfl trivial, fun r _ => ?_⟩
    cases r with
    | error why => rfl
    | ok out =>
      have hsync : Back (drainProtocol cfg) { todo := l } systemSync :=
        wp_op_bind _ (may_free rfl rfl trivial) fun _ _ => ⟨may_free rfl rfl trivial, fun _ _ => rfl⟩
      exact Back.seq (wp_when (fun _ => hsync) fun _ => rfl) fun _ => hl
  by_cases hfail : des = .failed ∧ d.membership = .fleet ∧ cfg.stormblock = true
  · by_cases hcfg : cfg.drainOnFailing = true
    · rw [designationWishes, if_pos ⟨congrArg some hfail.1, hfail.2.1, hfail.2.2, hcfg⟩]
      refine hend _ (wp_ite (fun _ => wp_op_bind _ (may_free rfl rfl trivial) fun x _ => ?_)
        fun hno => absurd hfail hno)
      refine wp_op_bind _ (may_free rfl rfl fun _ _ => ⟨_, ⟨rfl, rfl⟩, .inr rfl⟩) fun y _ => ?_
      have hmark : (drainProtocol cfg).next { todo := ⟨d.id, .patch, true⟩ :: rest }
          (.record (.change d.id (.healthPushed "failed"))) y =
          { todo := ⟨d.id, .patch, true⟩ :: rest, owes := some d.id } := if_pos ⟨.inl rfl, hcfg⟩
      have hreport : (drainProtocol cfg).next { todo := ⟨d.id, .patch, true⟩ :: rest }
          (.engine (.reportHealth d.stormblockPath "failed" d.id)) x =
          { todo := ⟨d.id, .patch, true⟩ :: rest } := rfl
      rw [hreport, hmark, if_pos hcfg]
      refine wp_mono _ (fun r m hm => ?_)
        (wp_drains_requestDrain rfl fun _ h => (Option.some.inj h).symm)
      rw [hm]
      cases r <;> simp [Drainer.joined, Except.isOk, Except.toBool]
    · rw [designationWishes, if_neg fun h => hcfg h.2.2.2]
      refine hend _ (wp_ite (fun _ => wp_op_bind _ (may_free rfl rfl trivial) fun x _ => ?_)
        fun hno => absurd hfail hno)
      have hstay : (drainProtocol cfg).next { todo := rest }
          (.engine (.reportHealth d.stormblockPath "failed" d.id)) x = { todo := rest } := by
        cases rest with
        | nil => exact if_neg fun h => hcfg h.2.2
        | cons w rest => rfl
      rw [hstay]
      refine wp_op_bind _ (may_free rfl rfl fun _ h => absurd h hcfg) fun y _ => ?_
      have hmark : (drainProtocol cfg).next { todo := rest }
          (.record (.change d.id (.healthPushed "failed"))) y = { todo := rest } :=
        if_neg fun h => hcfg h.2
      rw [hmark, if_neg hcfg]
      rfl
  · rw [designationWishes, if_neg fun h => hfail ⟨Option.some.inj h.1, h.2.1, h.2.2.1⟩]
    exact hend _ (wp_ite (fun h => absurd h hfail) fun _ => rfl)

/-- **The fleet of a PATCH**: `rest` is what the PATCH asks for then. -/
lemma wp_drains_patchFleet (d : Drive) (fleet : FleetPatch) :
    wp (drainProtocol cfg) (patchFleet cfg d fleet) (fun r m => m = Drainer.joined rest r)
      { todo := fleetWishes cfg d rest (some fleet) } := by
  by_cases hstorm : cfg.stormblock = false
  · refine wp_ite (fun _ => ?_) fun hno => absurd hstorm hno
    cases fleet <;> simp [fleetWishes, hstorm, Drainer.joined]
  · refine wp_ite (fun h => absurd h hstorm) fun _ => ?_
    cases fleet with
    | leave =>
      rw [fleetWishes, if_neg hstorm]
      by_cases hin : d.membership = .fleet
      · rw [if_pos hin, if_pos hin]
        exact wp_mono _ (fun r m hm => hm.trans (Wish.after_start r)) (wp_drains_startDrain nofun)
      · rw [if_neg hin, if_neg hin]
        rfl
    | join =>
      rw [fleetWishes, if_neg hstorm]
      cases d.fleetJoinBlocker with
      | none =>
        refine wp_andThen (wp_mono _ (fun r m hm => ?_) (wp_drains_join _ d _ _))
        subst hm
        cases r <;> rfl
      | some why =>
        by_cases hwhy : why ≠ "already in the fleet"
        · simp [hwhy, Drainer.joined]
        · simp [hwhy, Drainer.joined]

/-- **The drain of a PATCH** is the last that it asks for. -/
lemma wp_drains_patchDrain (d : Drive) (drain : Option Bool) :
    wp (drainProtocol cfg) (patchPart drain (patchDrain cfg d)) (fun _ m => m = {})
      { todo := drainWishes d drain } := by
  rcases drain with _ | _ | _
  · rfl
  · exact wp_ite (fun _ => back_drains_cancelDrain d.id) fun _ => rfl
  · exact wp_mono _ (fun r m hm => hm.trans (Wish.after_last r)) (wp_drains_startDrain nofun)

/-- **A PATCH** asks for the drains of its record. -/
lemma wp_drains_patchDrive (patch : DriveSpecPatch) :
    wp (drainProtocol cfg) (patchDrive cfg id patch) (fun _ m => m = {})
      { serving := .patch patch } := by
  refine wp_op_bind _ (may_free rfl rfl trivial) fun x _ => ?_
  cases x with
  | none => rfl
  | some d =>
    have hnext : (drainProtocol cfg).next { serving := .patch patch }
        (.record (.read .other id)) (some d) = { todo := patch.wishes cfg d } := rfl
    rw [hnext]
    obtain ⟨des, fleet, drain⟩ := patch
    have hdrain : ∀ r : Except String Unit, wp (drainProtocol cfg) (match r with
        | .ok _ => andThen (patchPart drain (patchDrain cfg d)) fun _ => do
          persist cfg
          pure (.ok ())
        | .error why => pure (.error why)) (fun (_ : Except String Unit) m => m = {})
        (Drainer.joined (drainWishes d drain) r) := by
      intro r
      cases r with
      | error why => rfl
      | ok _ =>
        refine wp_andThen (wp_mono _ (fun r m hm => ?_) (wp_drains_patchDrain d drain))
        subst hm
        cases r with
        | error why => rfl
        | ok _ => exact wp_seq _ (wp_drains_persist rfl rfl rfl)
    have hfleet : ∀ r : Except String Unit, wp (drainProtocol cfg) (match r with
        | .ok _ => andThen (patchPart fleet (patchFleet cfg d)) fun _ =>
          andThen (patchPart drain (patchDrain cfg d)) fun _ => do
          persist cfg
          pure (.ok ())
        | .error why => pure (.error why)) (fun (_ : Except String Unit) m => m = {})
        (Drainer.joined (fleetWishes cfg d (drainWishes d drain) fleet) r) := by
      intro r
      cases r with
      | error why => rfl
      | ok _ =>
        refine wp_andThen (wp_mono _ (fun r m hm => ?_)
          (Q := fun r m => m = Drainer.joined (drainWishes d drain) r) ?_)
        · subst hm
          have h := hdrain r
          cases r <;> exact h
        · cases fleet with
          | none => rfl
          | some fleet => exact wp_drains_patchFleet d fleet
    have hpart : wp (drainProtocol cfg) (patchPart des (patchDesignation cfg d))
        (fun r m => m = Drainer.joined (fleetWishes cfg d (drainWishes d drain) fleet) r)
        { todo := DriveSpecPatch.wishes cfg ⟨des, fleet, drain⟩ d } := by
      cases des with
      | none => rfl
      | some des => exact wp_drains_patchDesignation d des
    refine wp_andThen (wp_mono _ (fun r m hm => ?_) hpart)
    subst hm
    have h := hfleet r
    cases r <;> exact h

/-- **Every task keeps to the protocol**: it only asks for drains that it has taken up, and only
writes what came of them. -/
theorem drains_entry (r : Req) (m : Drainer) (h : (drainProtocol cfg).ready r m) :
    wp (drainProtocol cfg) (r.entry cfg) (Ends (drainProtocol cfg)) m := by
  obtain rfl : m = Drainer.of r := h
  have honce : ∀ {q : Work Unit} {m : Drainer}, wp (drainProtocol cfg) q (fun _ m => m = {}) m →
      wp (drainProtocol cfg) (once q) (Ends (drainProtocol cfg)) m :=
    fun hq => wp_seq _ (wp_mono _ (fun _ _ hm => hm ▸ ⟨rfl, rfl⟩) hq)
  by_cases hr : r.ofFleet = true
  · cases r with
    | collect =>
      refine honce (wp_seq _ (wp_when (fun _ => wp_op_bind _ (may_free rfl rfl trivial) fun r _ => ?_)
        fun _ => wp_drains_persist rfl rfl rfl))
      cases r with
      | ok listed => exact ⟨may_free rfl rfl trivial, fun _ _ => wp_drains_persist rfl rfl rfl⟩
      | error why => exact wp_drains_persist rfl rfl rfl
    | fleetTick => exact honce back_drains_fleetTick
    | fleetJoin id formatSlab tier =>
      refine honce (back_op ⟨may_free rfl rfl trivial, fun x => overlooks_drains.next _ x rfl⟩
        fun x => ?_)
      cases x with
      | none => rfl
      | some d =>
        exact wp_op_bind _ (may_free rfl rfl trivial) fun _ _ =>
          wp_ite (fun _ => rfl) fun _ => back_drains_joinAndPersist d formatSlab tier
    | fleetLeave id drain force => exact honce (wp_drains_fleetLeave drain force)
    | startDrain id leave =>
      refine wp_seq _ (wp_when (fun _ => wp_ignore (wp_mono _ (fun _ m hm => ?_)
        (wp_drains_startDrain_route leave))) fun _ => ⟨rfl, rfl⟩)
      subst hm
      exact ⟨rfl, rfl⟩
    | cancelDrain id => exact honce (wp_ignore (back_drains_cancelDrain id))
    | setDesignation id des => exact honce (wp_drains_setDesignation des)
    | patchDrive id patch => exact honce (wp_ignore (wp_drains_patchDrive patch))
    | _ => cases hr
  · have hof : Drainer.of r = {} := by
      cases r <;> first | rfl | exact absurd rfl hr
    rw [hof]
    exact wp_entry overlooks_drains back_drains_stepEnroll ⟨rfl, rfl⟩ (fun _ _ _ _ _ _ => rfl)
      (Bool.not_eq_true _ ▸ hr)

end Entry

/-! ## The records -/

/-- The record says that a drain runs, or is to be tried again. -/
def Drive.drainActive (d : Drive) : Bool :=
  d.drain.any fun r => r.state = "running" || r.state = pending

/-- The change is one of the record of a drain, or ends it with a membership. -/
def DriveUpdate.movesDrain : DriveUpdate → Bool
  | .enrolled .. | .joined _ | .drainStarted _ | .drainPending .. | .drainRefused ..
  | .drainStatus .. | .drainCancelled | .drainDropped => true
  | _ => false

section Records

variable {newV5 : String → Uuid} {cfg : Settings}

/-- No other change touches the record of a drain. -/
lemma drain_apply {u : DriveUpdate} (hu : u.movesDrain = false) (d : Drive) :
    (d.apply u).drain = d.drain := by
  cases u <;> cases hu
  all_goals
    simp only [Drive.apply]
    repeat' split
  all_goals rfl

/-- **No other section touches the record of a drain.** -/
lemma drain_onDrive {o : RecordOp} {e : Env} {d : Drive}
    (hu : ∀ u, o = .change d.id u → u.movesDrain = false) (hdrop : o ≠ .dropPending d.id) :
    (o.onDrive newV5 e d).drain = d.drain := by
  cases o with
  | change id u =>
    simp only [RecordOp.onDrive]
    by_cases hid : d.id = id
    · rw [if_pos hid]
      exact drain_apply (hu u (by rw [hid])) d
    · rw [if_neg hid]
  | recoverOrphans owned =>
    simp only [RecordOp.onDrive, Drive.recovered, Drive.idleOrphan]
    repeat' split
    all_goals rfl
  | designate id des =>
    simp only [RecordOp.onDrive]
    split <;> rfl
  | restoreSystem named =>
    simp only [RecordOp.onDrive, Drive.restoredSystem]
    repeat' split
    all_goals rfl
  | reconcile listed =>
    simp only [RecordOp.onDrive]
    rw [Drive.reconciled_eq]
  | dropPending id =>
    simp only [RecordOp.onDrive]
    rw [if_neg fun hid => hdrop (by rw [hid])]
  | setOvercommit id oc =>
    simp only [RecordOp.onDrive]
    split <;> rfl
  | merge =>
    have hkept := congrArg Drive.drain (Drive.kept_passed newV5 e.observed d)
    exact hkept
  | _ => rfl

/-- No other change puts a drive into the fleet. -/
lemma fleet_of_apply {u : DriveUpdate} (hu : u.enters = false) {d : Drive}
    (h : (d.apply u).membership = .fleet) : d.membership = .fleet := by
  cases u <;> cases hu
  all_goals
    simp only [Drive.apply, Drive.markPending] at h
    (repeat' split at h) <;> first | exact h | cases h

/-- No other section puts a drive into the fleet. -/
lemma fleet_of_onDrive {o : RecordOp} {e : Env} {d : Drive}
    (hu : ∀ u, o = .change d.id u → u.enters = false) (hrec : ∀ listed, o ≠ .reconcile listed)
    (h : (o.onDrive newV5 e d).membership = .fleet) : d.membership = .fleet := by
  cases o with
  | change id u =>
    simp only [RecordOp.onDrive] at h
    by_cases hid : d.id = id
    · rw [if_pos hid] at h
      exact fleet_of_apply (hu u (by rw [hid])) h
    · rw [if_neg hid] at h
      exact h
  | recoverOrphans owned =>
    simp only [RecordOp.onDrive, Drive.recovered, Drive.idleOrphan] at h
    (repeat' split at h) <;> exact h
  | designate id des =>
    simp only [RecordOp.onDrive] at h
    split at h <;> exact h
  | restoreSystem named =>
    simp only [RecordOp.onDrive, Drive.restoredSystem] at h
    (repeat' split at h) <;> exact h
  | reconcile listed => exact absurd rfl (hrec listed)
  | dropPending id =>
    simp only [RecordOp.onDrive] at h
    split at h
    · exact fleet_of_apply rfl h
    · exact h
  | setOvercommit id oc =>
    simp only [RecordOp.onDrive] at h
    split at h <;> exact h
  | merge =>
    have hkept := congrArg Drive.membership (Drive.kept_passed newV5 e.observed d)
    exact hkept.symm.trans h
  | _ => exact h

/-- A task that begins has nothing in hand. -/
lemma drives_of (r : Req) : (Drainer.of r).drives = [] := by
  cases r <;> rfl

/-- A task writes the record of a drive that it has in hand. -/
lemma mem_drives_of_wants {m : Drainer} {id : DriveId} {w : Wish} (h : m.Wants id w) :
    id ∈ m.drives := by
  obtain ⟨htodo, rfl⟩ := h
  have hw : w ∈ m.todo := List.mem_of_mem_head? htodo
  simp only [Drainer.drives, List.mem_append]
  exact .inl (.inl (.inr (List.mem_map_of_mem hw)))

/-- A task follows a drain that it has in hand. -/
lemma mem_drives_of_polls {m : Drainer} {id : DriveId} {thenLeave : Bool}
    (h : m.polls.head? = some (id, thenLeave)) : id ∈ m.drives := by
  have hp : (id, thenLeave) ∈ m.polls := List.mem_of_mem_head? h
  simp only [Drainer.drives, List.mem_append]
  exact .inl (.inr (List.mem_map.mpr ⟨_, hp, rfl⟩))

/-! ## What the engine has said -/

/-- The words of the engine about a drain. -/
def engineWords : List String :=
  ["running", "empty", "stuck", "cancelled"]

/-- The answer to a start. -/
def Op.startedAs : (o : Op) → o.Ans → Option DrainStatus
  | .engine (.startDrain ..), .ok s => some s
  | _, _ => none

/-- The answer to a poll that finds a drain. -/
def Op.polledAs : (o : Op) → o.Ans → Option DrainStatus
  | .engine (.drainStatus ..), .ok found => found
  | _, _ => none

/-- What the task has heard about the drain that it asks for is so. -/
def Drainer.Heard (p : Wish → String → Prop) (m : Drainer) : Prop :=
  ∀ w word, m.todo.head? = some w → m.heard = some word → p w word

/-- What the task has been told about the drain that it follows is so. -/
def Drainer.Said (p : String → Prop) (m : Drainer) : Prop :=
  ∀ word, m.said = some word → p word

variable {p : Wish → String → Prop} {m : Drainer}

lemma heard_of_none (h : m.heard = none) : m.Heard p :=
  fun _ _ _ hword => by rw [h] at hword; cases hword

lemma heard_of_nil (h : m.todo = []) : m.Heard p :=
  fun _ _ hw _ => by rw [h] at hw; cases hw

/-- A task that begins has heard nothing. -/
lemma heard_of (r : Req) : (Drainer.of r).Heard p :=
  heard_of_none (by cases r <;> rfl)

/-- A task that begins has been told nothing. -/
lemma said_of {p : String → Prop} (r : Req) : (Drainer.of r).Said p := by
  cases r <;> exact nofun

lemma heard_refused (hm : m.Heard p) : m.refused.Heard p := by
  unfold Drainer.refused
  split
  · split
    · exact heard_of_nil rfl
    · exact hm
  · exact hm

lemma heard_look (hm : m.Heard p) (id : DriveId) (x : Option Drive) :
    (m.look cfg id x).Heard p := by
  unfold Drainer.look
  repeat' split
  all_goals first
    | exact heard_of_none rfl
    | exact heard_refused hm
    | exact hm

/-- **What a task has heard stays so**, when the engine's answer to a start is. -/
lemma heard_next {o : Op} {a : o.Ans} (hm : m.Heard p) (hrun : ∀ w, p w "running")
    (hstart : ∀ w s, m.todo.head? = some w → o.startedAs a = some s → p w s.state) :
    (m.next cfg o a).Heard p := by
  cases o with
  | record r =>
    cases r with
    | read site id =>
      cases site with
      | approval => exact hm
      | other =>
        simp only [Drainer.next_read, Drainer.read]
        split
        · exact hm
        · exact hm
        · exact heard_look hm id _
    | dueDrains => exact heard_of_none rfl
    | designate id des =>
      simp only [Drainer.next_designate, Drainer.labelled]
      repeat' split
      all_goals first
        | exact heard_of_nil rfl
        | exact hm
    | change id u =>
      cases u with
      | drainStarted => exact heard_of_none rfl
      | drainRefused =>
        simp only [Drainer.next_refused, Drainer.refusalWritten]
        split
        · exact heard_of_none rfl
        · exact hm
      | drainStatus =>
        simp only [Drainer.next_polled, Drainer.polled]
        split <;> exact hm
      | healthPushed =>
        simp only [Drainer.next_marked, Drainer.marked]
        split <;> exact hm
      | _ => exact hm
    | _ => exact hm
  | engine r =>
    cases r with
    | drainStatus path id =>
      simp only [Drainer.next_answered, Drainer.answered]
      split
      · exact hm
      · exact hm
      · next w rest found _ htodo _ =>
        intro w' word _ hword
        obtain ⟨st, hst, rfl⟩ := Option.map_eq_some_iff.mp hword
        have hrunning : st.isRunning = true := (Option.filter_eq_some_iff.mp hst).2
        rw [of_decide_eq_true hrunning]
        exact hrun w'
      · exact heard_refused hm
      · exact hm
    | startDrain path id =>
      simp only [Drainer.next_started, Drainer.started]
      split
      · next w rest st htodo =>
        intro w' word hw' hword
        cases hword
        exact hstart w' st hw' rfl
      · exact heard_refused hm
      · exact hm
    | reportHealth path word id =>
      simp only [Drainer.next_reported, Drainer.reported]
      repeat' split
      all_goals first
        | exact heard_of_none rfl
        | exact hm
    | occupiedSlabs path =>
      simp only [Drainer.next_counted, Drainer.counted]
      repeat' split
      all_goals first
        | exact heard_of_none rfl
        | exact hm
    | listDrives => cases a <;> first | exact hm | exact heard_of_nil rfl
    | setLabels => cases a <;> first | exact hm | exact heard_of_nil rfl
    | addDrive => cases a <;> first | exact hm | exact heard_of_nil rfl
    | formatSlab => cases a <;> first | exact hm | exact heard_of_nil rfl
    | deleteDrive => cases a <;> exact hm
    | _ => exact hm
  | _ => exact hm

lemma said_refused {p : String → Prop} (hm : m.Said p) : m.refused.Said p := by
  unfold Drainer.refused
  repeat' split
  all_goals exact hm

lemma said_look {p : String → Prop} (hm : m.Said p) (id : DriveId) (x : Option Drive) :
    (m.look cfg id x).Said p := by
  unfold Drainer.look
  repeat' split
  all_goals first
    | exact said_refused hm
    | exact hm

/-- **What a task has been told stays so**, when the engine's answer to a poll is. -/
lemma said_next {p : String → Prop} {o : Op} {a : o.Ans} (hm : m.Said p)
    (hpoll : ∀ s, o.polledAs a = some s → p s.state) : (m.next cfg o a).Said p := by
  have hnone : ∀ {m' : Drainer}, m'.said = none → m'.Said p :=
    fun h _ hword => by rw [h] at hword; cases hword
  cases o with
  | record r =>
    cases r with
    | read site id =>
      cases site with
      | approval => exact hm
      | other =>
        simp only [Drainer.next_read, Drainer.read]
        split
        · exact hm
        · exact hm
        · exact said_look hm id _
    | runningDrains => exact hnone rfl
    | designate id des =>
      simp only [Drainer.next_designate, Drainer.labelled]
      repeat' split
      all_goals exact hm
    | change id u =>
      cases u with
      | drainPending => exact hnone rfl
      | drainRefused =>
        simp only [Drainer.next_refused, Drainer.refusalWritten]
        split <;> exact hm
      | drainStatus =>
        simp only [Drainer.next_polled, Drainer.polled]
        split
        · exact hnone rfl
        · exact hm
      | healthPushed =>
        simp only [Drainer.next_marked, Drainer.marked]
        split <;> exact hm
      | _ => exact hm
    | _ => exact hm
  | engine r =>
    cases r with
    | drainStatus path id =>
      simp only [Drainer.next_answered, Drainer.answered]
      split
      · exact hm
      · next found _ _ =>
        intro word hword
        obtain ⟨st, hst, rfl⟩ := Option.map_eq_some_iff.mp hword
        exact hpoll st hst
      · exact hm
      · exact said_refused hm
      · exact hm
    | startDrain path id =>
      simp only [Drainer.next_started, Drainer.started]
      split
      · exact hm
      · exact said_refused hm
      · exact hm
    | reportHealth path word id =>
      simp only [Drainer.next_reported, Drainer.reported]
      repeat' split
      all_goals exact hm
    | occupiedSlabs path =>
      simp only [Drainer.next_counted, Drainer.counted]
      repeat' split
      all_goals exact hm
    | listDrives => cases a <;> exact hm
    | setLabels => cases a <;> exact hm
    | addDrive => cases a <;> exact hm
    | formatSlab => cases a <;> exact hm
    | deleteDrive => cases a <;> exact hm
    | _ => exact hm
  | _ => exact hm

/-- What every task has heard stays so in a turn. -/
lemma heard_turn {ms : List Drainer} {i : Nat} {o : Op} {a : o.Ans} (hms : ∀ m ∈ ms, m.Heard p)
    (hm : ms[i]? = some m) (hrun : ∀ w, p w "running")
    (hstart : ∀ w s, m.todo.head? = some w → o.startedAs a = some s → p w s.state) :
    ∀ n ∈ ms.set i (m.next cfg o a) ++ o.spawned.toList.map Drainer.of, n.Heard p := by
  refine forall_mem_turn hms (heard_next (hms m (List.mem_of_getElem? hm)) hrun hstart) ?_
  intro n hn
  obtain ⟨r, -, rfl⟩ := List.mem_map.mp hn
  exact heard_of r

/-- What every task has been told stays so in a turn. -/
lemma said_turn {ms : List Drainer} {i : Nat} {p : String → Prop} {o : Op} {a : o.Ans}
    (hms : ∀ m ∈ ms, m.Said p) (hm : ms[i]? = some m)
    (hpoll : ∀ s, o.polledAs a = some s → p s.state) :
    ∀ n ∈ ms.set i (m.next cfg o a) ++ o.spawned.toList.map Drainer.of, n.Said p := by
  refine forall_mem_turn hms (said_next (hms m (List.mem_of_getElem? hm)) hpoll) ?_
  intro n hn
  obtain ⟨r, -, rfl⟩ := List.mem_map.mp hn
  exact said_of r

end Records

end StormDrive
