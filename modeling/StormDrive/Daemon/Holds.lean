import StormDrive.Daemon.Sections

set_option relaxedAutoImplicit false
set_option autoImplicit false

/-!
# Which task has a part of a job in hand

A drive's part of a job is taken through its steps by one task: its `run_drive`, or after a restart
its `watch`. `submit` and `resume` have the parts in hand that they are about to start tasks for,
and so has `recover`.

## Main definitions

* `Hold`, `holdTracer` — the parts that a task has in hand, and how they move.
* `holdProtocol` — a task only changes a part that it has in hand.

## Main results

* `holds_entry` — every task keeps to the protocol.
-/

namespace StormDrive

open Interleave Interleave.Prog Work

/-! ## What a task has in hand -/

/-- What a task has to do with the parts of jobs. -/
inductive Hold
  /-- Nothing. -/
  | idle
  /-- It is the recovery, before its section of the jobs. -/
  | recovering
  /-- It serves a request, and has these parts to start tasks for. -/
  | client (l : List (JobId × Nat))
  /-- It has these parts to watch after a restart. -/
  | watching (l : List (JobId × Nat))
  /-- It takes the part through its steps. -/
  | driving (l : List (JobId × Nat))
  deriving DecidableEq

/-- The parts in hand. -/
def Hold.parts : Hold → List (JobId × Nat)
  | idle | recovering => []
  | client l | watching l | driving l => l

/-- One task has been started. -/
def Hold.handed : Hold → Hold
  | client l => client l.tail
  | watching l => watching l.tail
  | m => m

/-- The part is done with. -/
def Hold.released : Hold → Hold
  | watching _ => watching []
  | driving _ => driving []
  | m => m

/-- After the change the task does nothing more with the part but save. -/
def DjUpdate.releases : DjUpdate → Bool
  | .fail _ | .interrupt _ | .finish | .cancel | .watched _ => true
  | _ => false

/-- A task that begins with a request. -/
def Hold.of : Req → Hold
  | .recover => recovering
  | .watch job idx _ _ => watching [(job, idx)]
  | .runDrive job idx | .driveLoop job idx _ _ _ _ => driving [(job, idx)]
  | .formatTask .. | .reattachTask .. | .testTask .. | .firmwareTask .. => idle
  | _ => client []

/-- A task after a poll of its part. -/
def Hold.polled (m : Hold) : Option (Nat × Bool × DjState) → Hold
  | some (_, _, st) => if st = .queued ∨ st = .running then m else m.released
  | none => m.released

/-- A task after an operation. -/
def Hold.next (m : Hold) : (op : Op) → op.Ans → Hold
  | .job .recover, found => .watching (found.1.map fun e => (e.1, e.2.1))
  | .job (.insert j), _ => .client ((runnable j.drives).map fun idx => (j.id, idx))
  | .job (.resume id _), .ok idxs => .client (idxs.map fun idx => (id, idx))
  | .job (.change _ _ u), _ => if u.releases then m.released else m
  | .job (.head ..), none => m.released
  | .job (.poll ..), a => m.polled a
  | .spawn (.watch ..), _ => m.handed
  | .spawn (.runDrive ..), _ => m.handed
  | _, _ => m

/-- How the parts move from task to task. -/
def holdTracer : Tracer Op Op.Ans Req Hold where
  fresh := Hold.of
  next := Hold.next
  child _ := Hold.of

/-- **Who may do what**: a part is changed by the task that has it in hand, a job is recorded,
resumed or cancelled by a request, and the recovery comes first. -/
def Hold.may (m : Hold) : Op → Prop
  | .job (.change job idx u) =>
    match u with
    | .watched _ => m = .watching [(job, idx)]
    | .watchedLast => ∃ l, m = .watching l
    | .fail _ => m = .watching [(job, idx)] ∨ m = .driving [(job, idx)]
    | _ => m = .driving [(job, idx)]
  | .job (.insert j) => m = .client [] ∧ ∀ d ∈ j.drives, d.state ≠ .interrupted
  | .job (.cancel _) | .job (.resume ..) => m = .client []
  | .job .recover => m = .recovering
  | .sync .serve => ∃ l, m = .watching l
  | .spawn (.watch job idx _ _) => ∃ l, m = .watching ((job, idx) :: l)
  | .spawn (.runDrive job idx) => ∃ l, m = .client ((job, idx) :: l)
  | .spawn r => r.jobless = true
  | _ => True

/-- The protocol of the parts. -/
def holdProtocol : Protocol Op Op.Ans Req Hold where
  toTracer := holdTracer
  may := Hold.may
  gives _ _ _ := True
  ready r m := r.jobless = true ∨ m = Hold.of r

/-! ## Every task keeps to the protocol -/

section Entry

variable {cfg : Settings} {α : Type} {Q : α → Hold → Prop} {m : Hold}

/-- What has nothing to do with jobs leaves what is in hand. -/
lemma wp_hold_of_jobless {p : Work α} (hp : Jobless p) (hQ : ∀ a, Q a m) :
    wp holdProtocol p Q m := by
  refine wp_of_only _ hp (fun o ho => ?_) (fun o x ho => ?_) hQ
  · cases o with
    | job o => simp [Op.jobless] at ho
    | sync o => cases o <;> trivial
    | spawn r => cases r <;> first | exact ho | cases ho
    | _ => trivial
  · cases o with
    | job o => simp [Op.jobless] at ho
    | spawn r => cases r <;> first | rfl | cases ho
    | _ => rfl

lemma wp_hold_save {Q : Unit → Hold → Prop} (hQ : Q () m) : wp holdProtocol (save cfg) Q m := by
  unfold save
  split
  · exact ⟨trivial, fun _ _ => ⟨trivial, fun _ _ => hQ⟩⟩
  · exact hQ

section Drive

variable {job : JobId} {idx k : Nat} {steps : List Step} {id : DriveId} {dn un : Bool}
  {step : Step} {d : Drive}

/-- A part that fails is done with. -/
lemma wp_hold_fail {Q : Unit → Hold → Prop} {why : String} (hQ : Q () (.driving [])) :
    wp holdProtocol (fail cfg job idx why) Q (.driving [(job, idx)]) :=
  wp_op_bind _ (.inr rfl) fun _ _ => wp_hold_save hQ

/-- A step changes only the part in hand. -/
lemma wp_hold_runStep {Q : Except String String → Hold → Prop}
    (hQ : ∀ r, Q r (.driving [(job, idx)])) :
    wp holdProtocol (runStep cfg ⟨job, idx, k⟩ d step steps) Q (.driving [(job, idx)]) := by
  refine wp_of_only _ (within_runStep _ d step steps) (fun o ho => ?_) (fun o x ho => ?_) hQ
  · cases o with
    | job o =>
      cases o with
      | change i n u =>
        cases u <;> simp only [Op.withinStep, DjUpdate.withinStep, decide_eq_true_eq,
          Bool.false_eq_true, and_false] at ho
        · rw [ho.1, ho.2.1]
          rfl
        · rw [ho.1, ho.2.1]
          rfl
      | _ => trivial
    | sync o => cases o <;> trivial
    | spawn r => cases r <;> first | exact ho | cases ho
    | _ => trivial
  · cases o with
    | job o =>
      cases o with
      | change i n u =>
        cases u <;> first | rfl | simp [Op.withinStep, DjUpdate.withinStep] at ho
      | _ => first | rfl | simp [Op.withinStep, Op.jobless] at ho
    | spawn r => cases r <;> rfl
    | _ => rfl

/-- A step that is not run lets the part go; after one that is, it is still in hand. -/
lemma wp_hold_approveAndRun {Q : Option (Except String String) → Hold → Prop}
    (hnone : Q none (.driving [])) (hsome : ∀ r, Q (some r) (.driving [(job, idx)])) :
    wp holdProtocol (approveAndRun cfg job idx k steps id dn un step) Q
      (.driving [(job, idx)]) := by
  refine wp_op_bind _ trivial fun r _ => ?_
  cases r with
  | none => exact wp_seq _ (wp_hold_fail hnone)
  | some d =>
    refine wp_seq _ (wp_hold_of_jobless (ofDrive_context d).jobless fun cx => ?_)
    split
    · exact wp_seq _ (wp_hold_fail hnone)
    · refine wp_op_bind _ trivial fun who _ => ?_
      cases who with
      | none => exact wp_seq _ (wp_hold_fail hnone)
      | some who =>
        refine wp_op_bind _ trivial fun r _ => ?_
        cases r with
        | denied why => exact wp_seq _ (wp_hold_fail hnone)
        | unavailable why =>
          exact wp_op_bind _ rfl fun _ _ => wp_seq _ (wp_hold_save hnone)
        | allowed =>
          refine wp_op_bind _ rfl fun _ _ => wp_seq _ (wp_hold_save ?_)
          exact wp_seq _ (wp_hold_runStep hsome)

lemma wp_hold_driveStep :
    wp holdProtocol (driveStep cfg job idx k steps id dn un step) (Ends holdProtocol)
      (.driving [(job, idx)]) := by
  have hend : ∀ (r : Option (Except String String)) (m : Hold),
      (r.isSome = true → m = .driving [(job, idx)]) → wp holdProtocol
      (finishStep cfg job idx steps id dn un step r) (Ends holdProtocol) m := by
    intro r m hm
    rcases r with _ | why | note
    · trivial
    · rw [hm rfl]
      exact wp_seq _ (wp_hold_fail trivial)
    · rw [hm rfl]
      exact wp_op_bind _ rfl fun _ _ => wp_seq _ (wp_hold_save (.inr rfl))
  refine wp_op_bind _ trivial fun r _ => ?_
  cases r with
  | none => exact wp_seq _ (wp_hold_fail trivial)
  | some d =>
    refine wp_op_bind _ rfl fun _ _ => wp_seq _ ?_
    unfold withPermit
    split
    · refine wp_op_bind _ trivial fun _ _ => wp_seq _ (wp_hold_approveAndRun ?_ fun r => ?_)
      · exact wp_op_bind _ trivial fun _ _ => hend none _ (by simp)
      · exact wp_op_bind _ trivial fun _ _ => hend (some r) _ fun _ => rfl
    · refine wp_op_bind _ trivial fun _ _ => wp_seq _ (wp_hold_approveAndRun ?_ fun r => ?_)
      · exact wp_op_bind _ trivial fun _ _ => hend none _ (by simp)
      · exact wp_op_bind _ trivial fun _ _ => hend (some r) _ fun _ => rfl

lemma wp_hold_driveLoop :
    wp holdProtocol (driveLoop cfg job idx steps id dn un) (Ends holdProtocol)
      (.driving [(job, idx)]) := by
  refine wp_op_bind _ trivial fun r _ => ?_
  rcases r with _ | ⟨k, cancelled, st⟩
  · trivial
  · dsimp only
    by_cases hst : st ≠ .queued ∧ st ≠ .running
    · rw [if_pos hst]
      trivial
    · have hlive : st = .queued ∨ st = .running := by
        by_contra hno
        exact hst ⟨fun h => hno (.inl h), fun h => hno (.inr h)⟩
      have hnext : holdProtocol.next (.driving [(job, idx)]) (.job (.poll job idx))
          (some (k, cancelled, st)) = .driving [(job, idx)] := if_pos hlive
      rw [if_neg hst, hnext]
      cases hk : steps[k]? with
      | none => exact wp_op_bind _ rfl fun _ _ => wp_seq _ (wp_hold_save trivial)
      | some step =>
        cases cancelled with
        | true => exact wp_op_bind _ rfl fun _ _ => wp_seq _ (wp_hold_save trivial)
        | false => exact wp_hold_driveStep

end Drive

/-- The tasks of the parts in hand are started. -/
lemma wp_hold_spawnDrives (job : JobId) (idxs : List Nat) {Q : Unit → Hold → Prop}
    (hQ : Q () (.client [])) :
    wp holdProtocol (spawnDrives job idxs) Q (.client (idxs.map fun idx => (job, idx))) := by
  induction idxs with
  | nil => exact hQ
  | cons idx rest ih => exact wp_op_bind _ ⟨_, rfl⟩ fun _ _ => ih

lemma wp_hold_watchAll (l : List (JobId × Nat × DriveId × Step)) {Q : Unit → Hold → Prop}
    (hQ : Q () (.watching [])) :
    wp holdProtocol (watchAll l) Q (.watching (l.map fun e => (e.1, e.2.1))) := by
  induction l with
  | nil => exact hQ
  | cons e rest ih => exact wp_op_bind _ ⟨_, rfl⟩ fun _ _ => ih

/-- The parts of a new job are queued or refused. -/
lemma newDriveJob_state_ne (req : Request) (d : Drive) (cx : Context) :
    (newDriveJob req d cx).state ≠ .interrupted := by
  unfold newDriveJob
  dsimp only
  split <;> simp

lemma wp_hold_newDriveJobs (req : Request) (ds : List Drive) {Q : List DriveJob → Hold → Prop}
    (hQ : ∀ djs, (∀ d ∈ djs, d.state ≠ .interrupted) → Q djs m) :
    wp holdProtocol (newDriveJobs cfg req ds) Q m := by
  induction ds generalizing Q with
  | nil => exact hQ [] (by simp)
  | cons d rest ih =>
    refine wp_seq _ (wp_hold_of_jobless (ofDrive_context d).jobless fun cx => wp_seq _ (ih fun djs h => ?_))
    refine hQ _ fun d' hd' => ?_
    rcases List.mem_cons.mp hd' with rfl | hd'
    · exact newDriveJob_state_ne req d cx
    · exact h d' hd'

lemma wp_hold_submit (req : Request) (selected : List DriveId) (who : Option Requester) :
    wp holdProtocol (submit cfg req selected who) (fun _ _ => True) (.client []) := by
  unfold submit
  split
  · trivial
  · refine wp_op_bind _ trivial fun ds _ => ?_
    refine wp_seq _ (wp_hold_newDriveJobs req ds fun djs hdjs => ?_)
    split
    · trivial
    · refine wp_op_bind _ trivial fun id _ => wp_op_bind _ ⟨rfl, hdjs⟩ fun _ _ => ?_
      exact wp_seq _ (wp_hold_save (wp_hold_spawnDrives _ _ trivial))

lemma wp_hold_resume (id : JobId) (who : Option Requester) :
    wp holdProtocol (resume cfg id who) (fun _ _ => True) (.client []) := by
  refine wp_op_bind _ rfl fun r _ => ?_
  cases r with
  | error why => trivial
  | ok idxs =>
    dsimp only
    split
    · trivial
    · exact wp_seq _ (wp_hold_save (wp_hold_spawnDrives _ _ trivial))

lemma wp_hold_cancel (id : JobId) :
    wp holdProtocol (cancel cfg id) (fun _ _ => True) (.client []) := by
  refine wp_op_bind _ rfl fun found _ => ?_
  unfold Work.when
  split
  · exact wp_hold_save trivial
  · trivial

lemma wp_hold_recover :
    wp holdProtocol (recover cfg) (fun _ _ => True) .recovering := by
  have horphans : ∀ {Q : Unit → Hold → Prop}, Q () .recovering →
      wp holdProtocol (recoverOrphans cfg) Q .recovering := by
    intro Q hQ
    refine wp_op_bind _ trivial fun owned _ => wp_op_bind _ trivial fun found _ => ?_
    split
    · exact hQ
    · refine wp_seq _ (wp_hold_of_jobless (ofDrive_reattachAll found.1).jobless fun _ => ?_)
      exact wp_hold_of_jobless ofDrive_persist.jobless fun _ => hQ
  refine wp_seq _ (horphans (wp_op_bind _ rfl fun found _ => wp_seq _ ?_))
  refine wp_hold_of_jobless (ofDrive_interruptAll found.2).jobless fun _ => wp_seq _ (wp_hold_save ?_)
  exact wp_seq _ (wp_hold_watchAll found.1 ⟨⟨_, rfl⟩, fun _ _ => trivial⟩)

lemma wp_hold_watch (job : JobId) (idx : Nat) (id : DriveId) (step : Step) :
    wp holdProtocol (watch cfg job idx id step) (fun _ _ => True) (.watching [(job, idx)]) := by
  refine wp_op_bind _ trivial fun r _ => ?_
  cases r with
  | none => trivial
  | some d =>
    refine wp_op_bind _ trivial fun _ _ => wp_seq _ ?_
    refine wp_hold_of_jobless (ofDrive_watchWait d step).jobless fun r => ?_
    refine wp_op_bind _ trivial fun _ _ => wp_seq _ ?_
    have hpersist : wp holdProtocol (persist cfg) (fun _ _ => True) (.watching []) :=
      wp_hold_of_jobless ofDrive_persist.jobless fun _ => trivial
    cases r with
    | error why => exact wp_op_bind _ (.inl rfl) fun _ _ => wp_hold_save hpersist
    | ok _ =>
      refine wp_op_bind _ rfl fun dj _ => wp_op_bind _ trivial fun total _ => wp_seq _ ?_
      unfold Work.when
      split
      · exact wp_op_bind _ ⟨_, rfl⟩ fun _ _ => wp_hold_save hpersist
      · exact wp_hold_save hpersist

/-- **Every task keeps to the protocol**: it only changes a part that it has in hand. -/
theorem holds_entry (r : Req) (m : Hold) (h : holdProtocol.ready r m) :
    wp holdProtocol (r.entry cfg) (Ends holdProtocol) m := by
  have hjobless : ∀ p : Work Unit, Jobless p → wp holdProtocol (once p) (Ends holdProtocol) m :=
    fun p hp => wp_seq _ (wp_hold_of_jobless hp fun _ => trivial)
  have hof : r.jobless = false → m = Hold.of r := by
    intro hr
    rcases h with h | h
    · rw [hr] at h
      cases h
    · exact h
  by_cases hr : r.besideJobs = true
  · obtain ⟨p, hp, hjob⟩ := jobless_entry cfg hr
    rw [hp]
    exact hjobless p hjob
  rw [Bool.not_eq_true] at hr
  cases r with
  | driveLoop job idx steps id dn un =>
    rw [hof rfl]
    exact wp_hold_driveLoop
  | runDrive job idx =>
    rw [hof rfl]
    refine wp_op_bind _ trivial fun r _ => ?_
    rcases r with _ | ⟨steps, id, dn, un⟩
    · trivial
    · exact .inr rfl
  | submit req selected who =>
    rw [hof rfl]
    exact wp_seq _ (wp_hold_submit req selected who)
  | cancel id =>
    rw [hof rfl]
    exact wp_seq _ (wp_hold_cancel id)
  | resume id who =>
    rw [hof rfl]
    exact wp_seq _ (wp_hold_resume id who)
  | recover =>
    rw [hof rfl]
    exact wp_seq _ wp_hold_recover
  | watch job idx id step =>
    rw [hof rfl]
    exact wp_seq _ (wp_hold_watch job idx id step)
  | _ => cases hr
end Entry

end StormDrive
