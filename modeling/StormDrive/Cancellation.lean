import StormDrive.Daemon.Sections

set_option relaxedAutoImplicit false
set_option autoImplicit false

/-!
# Cancellation

Whether a cancelled job starts another step. `run_drive` reads the cancellation at the top of its
loop and starts the step after it has waited for a permit, read the drive and asked the apiserver:
a `cancel` in between is not seen.

## Main definitions

* `Turn`, `turns` — the part that a task has polled and is about to start a step of.
* `CancelEffective` — what a cancellation promises, in runs whose steps meet a condition.
* `Uncrossed` — no task is between its poll and the start of a step when its job is cancelled.

## Main results

* `turns_entry` — a step is started only by a task that has polled its part.
* `cancelEffective_of_uncrossed` — a cancellation that crosses no task is effective.
-/

namespace StormDrive

open Interleave Interleave.Prog Work

/-! ## The turns of `run_drive` -/

/-- Where a task of a job stands: the steps of the job, and the part that it has polled, neither
cancelled nor ended and with a step due, and not changed since. -/
structure Turn where
  steps : List Step := []
  due : Option (JobId × Nat) := none

/-- The change only shows a phase. -/
def DjUpdate.isProgress : DjUpdate → Bool
  | .progress .. => true
  | _ => false

/-- A part that a poll found ready for its next step. -/
def Turn.polled (m : Turn) (job : JobId) (idx : Nat) : Option (Nat × Bool × DjState) → Turn
  | some (k, false, st) =>
    if (st = .queued ∨ st = .running) ∧ k < m.steps.length then { m with due := some (job, idx) }
    else m
  | _ => m

/-- A task that begins with a request. -/
def Turn.of : Req → Turn
  | .driveLoop _ _ steps _ _ _ => { steps := steps }
  | _ => {}

/-- A task after an operation. -/
def Turn.next (m : Turn) : (op : Op) → op.Ans → Turn
  | .job (.head ..), some (steps, _) => { m with steps := steps }
  | .job (.poll job idx), a => m.polled job idx a
  | .job (.change _ _ u), _ => if u.isProgress then m else { m with due := none }
  | _, _ => m

/-- The turns of the tasks. -/
def turns : Tracer Op Op.Ans Req Turn where
  fresh := Turn.of
  next := Turn.next
  child _ := Turn.of

/-- A step of a part is started only when the part has been polled for it. -/
def turnProtocol : Protocol Op Op.Ans Req Turn where
  toTracer := turns
  may m
    | .job (.change job idx (.start _)) => m.due = some (job, idx)
    | _ => True
  gives _ _ _ := True
  ready
    | .driveLoop _ _ steps _ _ _, m => m = { steps := steps }
    | _, m => m.due = none

section Turns

variable {cfg : Settings} {α : Type} {Q : α → Turn → Prop} {m : Turn}

/-- What takes no section of the jobs keeps the turn. -/
lemma wp_turn_of_jobless {p : Work α} (hp : Jobless p) (hQ : ∀ a, Q a m) :
    wp turnProtocol p Q m := by
  refine wp_of_only _ hp (fun o ho => ?_) (fun o x ho => ?_) hQ
  · cases o with
    | job o => simp [Op.jobless] at ho
    | _ => trivial
  · cases o with
    | job o => simp [Op.jobless] at ho
    | _ => rfl

/-- A save keeps the turn. -/
lemma wp_turn_save {Q : Unit → Turn → Prop} (hQ : Q () m) : wp turnProtocol (save cfg) Q m := by
  unfold save
  split
  · exact ⟨trivial, fun _ _ => ⟨trivial, fun _ _ => hQ⟩⟩
  · exact hQ

/-- A failure ends the turn. -/
lemma wp_turn_fail {Q : Unit → Turn → Prop} {job : JobId} {idx : Nat} {why : String}
    (hQ : Q () { m with due := none }) : wp turnProtocol (fail cfg job idx why) Q m :=
  ⟨trivial, fun _ _ => wp_turn_save hQ⟩

/-- One step of a job keeps a turn that has ended. -/
lemma wp_turn_runStep {ref : StepRef} {d : Drive} {step : Step} {steps l : List Step}
    {Q : Except String String → Turn → Prop} (hQ : ∀ r, Q r { steps := l }) :
    wp turnProtocol (runStep cfg ref d step steps) Q { steps := l } := by
  refine wp_of_only _ (within_runStep ref d step steps) (fun o ho => ?_) (fun o x ho => ?_) hQ
  · cases o with
    | job o =>
      cases o with
      | change id idx u =>
        cases u <;> simp [Op.withinStep, DjUpdate.withinStep] at ho <;> trivial
      | _ => trivial
    | _ => trivial
  · cases o with
    | job o =>
      cases o with
      | change id idx u => cases u <;> rfl
      | _ => first | rfl | simp [Op.withinStep, Op.jobless] at ho
    | _ => rfl

/-- A turn that ends, whatever comes of it. -/
lemma wp_turn_approveAndRun {job : JobId} {idx k : Nat} {steps : List Step} {id : DriveId}
    {dn un : Bool} {step : Step} {Q : Option (Except String String) → Turn → Prop}
    (hQ : ∀ r, Q r { steps := steps }) :
    wp turnProtocol (approveAndRun cfg job idx k steps id dn un step) Q
      { steps := steps, due := some (job, idx) } := by
  refine wp_op_bind _ trivial fun r _ => ?_
  cases r with
  | none => exact wp_seq _ (wp_turn_fail (hQ _))
  | some d =>
    refine wp_seq _ (wp_turn_of_jobless (ofDrive_context d).jobless fun cx => ?_)
    split
    · exact wp_seq _ (wp_turn_fail (hQ _))
    · refine wp_op_bind _ trivial fun who _ => ?_
      cases who with
      | none => exact wp_seq _ (wp_turn_fail (hQ _))
      | some who =>
        refine wp_op_bind _ trivial fun r _ => ?_
        cases r with
        | denied why => exact wp_seq _ (wp_turn_fail (hQ _))
        | unavailable why =>
          exact wp_op_bind _ trivial fun _ _ => wp_seq _ (wp_turn_save (hQ _))
        | allowed =>
          refine wp_op_bind _ rfl fun _ _ => wp_seq _ (wp_turn_save ?_)
          exact wp_seq _ (wp_turn_runStep fun r => hQ _)

/-- A turn of the loop for a step that is due. -/
lemma wp_turn_driveStep {job : JobId} {idx k : Nat} {steps : List Step} {id : DriveId}
    {dn un : Bool} {step : Step} :
    wp turnProtocol (driveStep cfg job idx k steps id dn un step) (Ends turnProtocol)
      { steps := steps, due := some (job, idx) } := by
  have hend : ∀ (r : Option (Except String String)), wp turnProtocol
      (finishStep cfg job idx steps id dn un step r) (Ends turnProtocol) { steps := steps } := by
    intro r
    rcases r with _ | why | note
    · trivial
    · exact wp_seq _ (wp_turn_fail trivial)
    · exact wp_op_bind _ trivial fun _ _ => wp_seq _ (wp_turn_save rfl)
  refine wp_op_bind _ trivial fun r _ => ?_
  cases r with
  | none => exact wp_seq _ (wp_turn_fail trivial)
  | some d =>
    refine wp_op_bind _ trivial fun _ _ => wp_seq _ ?_
    unfold withPermit
    split
    · refine wp_op_bind _ trivial fun _ _ => wp_seq _ (wp_turn_approveAndRun fun r => ?_)
      exact wp_op_bind _ trivial fun _ _ => hend r
    · refine wp_op_bind _ trivial fun _ _ => wp_seq _ (wp_turn_approveAndRun fun r => ?_)
      exact wp_op_bind _ trivial fun _ _ => hend r

/-- The loop of `run_drive`: a part is polled, and then one of its steps is started. -/
lemma wp_turn_driveLoop {job : JobId} {idx : Nat} {steps : List Step} {id : DriveId}
    {dn un : Bool} :
    wp turnProtocol (driveLoop cfg job idx steps id dn un) (Ends turnProtocol)
      { steps := steps } := by
  refine wp_op_bind _ trivial fun r _ => ?_
  rcases r with _ | ⟨k, cancelled, st⟩
  · trivial
  · dsimp only
    by_cases hst : st ≠ .queued ∧ st ≠ .running
    · rw [if_pos hst]
      trivial
    · rw [if_neg hst]
      cases hk : steps[k]? with
      | none => exact wp_op_bind _ trivial fun _ _ => wp_seq _ (wp_turn_save trivial)
      | some step =>
        cases cancelled with
        | true => exact wp_op_bind _ trivial fun _ _ => wp_seq _ (wp_turn_save trivial)
        | false =>
          have hdue : (st = .queued ∨ st = .running) ∧ k < steps.length := by
            obtain ⟨hlt, -⟩ := List.getElem?_eq_some_iff.mp hk
            refine ⟨?_, hlt⟩
            by_contra hno
            exact hst ⟨fun h => hno (.inl h), fun h => hno (.inr h)⟩
          have hnext : turnProtocol.next { steps := steps } (.job (.poll job idx))
              (some (k, false, st)) = { steps := steps, due := some (job, idx) } := by
            simp [turnProtocol, turns, Turn.next, Turn.polled, hdue]
          rw [hnext]
          exact wp_turn_driveStep

/-- The operation neither reads where a part stands nor starts a step of it. -/
def Op.offTurn : Op → Bool
  | .job (.head ..) | .job (.poll ..) | .job (.change _ _ (.start _)) => false
  | _ => true

/-- Outside a turn, such operations change nothing about it. -/
lemma wp_turn_of_offTurn {p : Work α} (hp : Only (fun o => o.offTurn = true) p)
    (hm : m.due = none) (hQ : ∀ a, Q a m) : wp turnProtocol p Q m := by
  have hself : { m with due := none } = m := by rw [← hm]
  refine wp_of_only _ hp (fun o ho => ?_) (fun o x ho => ?_) hQ
  · cases o with
    | job o =>
      cases o with
      | change id idx u =>
        cases u with
        | start p => simp [Op.offTurn] at ho
        | _ => trivial
      | _ => trivial
    | _ => trivial
  · cases o with
    | job o =>
      cases o with
      | change id idx u => cases u <;> first | rfl | exact hself
      | _ => first | rfl | simp [Op.offTurn] at ho
    | _ => rfl

/-- What takes no section of the jobs takes none of a turn. -/
lemma offTurn_of_jobless {p : Work α} (hp : Jobless p) : Only (fun o => o.offTurn = true) p := by
  refine hp.mono fun o ho => ?_
  cases o with
  | job o => simp [Op.jobless] at ho
  | _ => rfl

lemma offTurn_save : Only (fun o => o.offTurn = true) (save cfg) := by
  unfold save
  exact .ite (.op_bind rfl fun _ => (only_op_iff _).mpr rfl) (only_ret _)

lemma offTurn_spawnDrives (job : JobId) (idxs : List Nat) :
    Only (fun o => o.offTurn = true) (spawnDrives job idxs) := by
  induction idxs with
  | nil => exact only_ret _
  | cons idx rest ih => exact .op_bind rfl fun _ => ih

lemma offTurn_submit (req : Request) (selected : List DriveId) (who : Option Requester) :
    Only (fun o => o.offTurn = true) (submit cfg req selected who) := by
  unfold submit
  split
  · exact only_ret _
  · refine .op_bind rfl fun ds => ?_
    refine Only.bind (offTurn_of_jobless (ofDrive_newDriveJobs req ds).jobless) fun djs => ?_
    refine .ite (only_ret _) (.op_bind rfl fun id => .op_bind rfl fun _ => ?_)
    exact Only.bind offTurn_save fun _ => offTurn_spawnDrives id _

lemma offTurn_resume (id : JobId) (who : Option Requester) :
    Only (fun o => o.offTurn = true) (resume cfg id who) := by
  refine .op_bind rfl fun r => ?_
  cases r with
  | error why => exact only_ret _
  | ok idxs =>
    exact .ite (only_ret _) (Only.bind offTurn_save fun _ => offTurn_spawnDrives id _)

lemma offTurn_recover : Only (fun o => o.offTurn = true) (recover cfg) := by
  have horphans : Only (fun o => o.offTurn = true) (recoverOrphans cfg) := by
    refine .op_bind rfl fun owned => .op_bind rfl fun found => .ite (only_ret _) ?_
    refine Only.bind (offTurn_of_jobless ?_) fun _ => offTurn_of_jobless ofDrive_persist.jobless
    exact (ofDrive_reattachAll found.1).jobless
  refine Only.bind horphans fun _ => .op_bind rfl fun found => ?_
  refine Only.bind (offTurn_of_jobless (ofDrive_interruptAll found.2).jobless) fun _ => ?_
  refine Only.bind offTurn_save fun _ => Only.bind ?_ fun _ => (only_op_iff _).mpr rfl
  induction found.1 with
  | nil => exact only_ret _
  | cons e rest ih => exact .op_bind rfl fun _ => ih

lemma offTurn_watch (job : JobId) (idx : Nat) (id : DriveId) (step : Step) :
    Only (fun o => o.offTurn = true) (watch cfg job idx id step) := by
  refine .op_bind rfl fun r => ?_
  cases r with
  | none => exact only_ret _
  | some d =>
    refine .op_bind rfl fun _ => Only.bind (offTurn_of_jobless (ofDrive_watchWait d step).jobless) fun r =>
      .op_bind rfl fun _ => Only.bind ?_ fun _ => offTurn_of_jobless ofDrive_persist.jobless
    cases r with
    | ok _ =>
      refine .op_bind rfl fun dj => .op_bind rfl fun total => Only.bind ?_ fun _ => offTurn_save
      exact Only.when (.op_bind rfl fun _ => only_ret _)
    | error why => exact .op_bind rfl fun _ => offTurn_save

/-- **A step is started only in a turn**: every task keeps to it. -/
theorem turns_entry (r : Req) (m : Turn) (h : turnProtocol.ready r m) :
    wp turnProtocol (r.entry cfg) (Ends turnProtocol) m := by
  have honce : ∀ p : Work Unit, Only (fun o => o.offTurn = true) p → m.due = none →
      wp turnProtocol (once p) (Ends turnProtocol) m :=
    fun p hp hm => wp_seq _ (wp_turn_of_offTurn hp hm fun _ => trivial)
  by_cases hr : r.besideJobs = true
  · obtain ⟨p, hp, hjob⟩ := jobless_entry cfg hr
    have hm : m.due = none := by
      cases r <;> first | exact h | cases hr
    rw [hp]
    exact honce p (offTurn_of_jobless hjob) hm
  rw [Bool.not_eq_true] at hr
  cases r with
  | driveLoop job idx steps id dn un =>
    obtain rfl : m = { steps := steps } := h
    exact wp_turn_driveLoop
  | runDrive job idx =>
    refine wp_op_bind _ trivial fun r _ => ?_
    rcases r with _ | ⟨steps, id, dn, un⟩
    · trivial
    · have hm : m.due = none := h
      change ({ m with steps := steps } : Turn) = { steps := steps }
      rw [hm]
  | submit req selected who => exact honce _ (offTurn_submit req selected who) h
  | cancel id =>
    exact honce _ (.op_bind rfl fun _ => Only.when offTurn_save) h
  | resume id who => exact honce _ (offTurn_resume id who) h
  | recover => exact honce _ offTurn_recover h
  | watch job idx id step => exact honce _ (offTurn_watch job idx id step) h
  | _ => cases hr

end Turns

/-! ## What a cancellation promises -/

/-- After the step the id does not name the job it named before: another is recorded under it, or
the daemon has restarted. -/
def replaces (id : JobId) : Interleave.Event Op Op.Ans World Req → Bool
  | .turn _ (.job (.insert j)) _ => j.id = id
  | .crash => true
  | _ => false

/-- A step of the job is started. -/
def startsStepOf (id : JobId) : Interleave.Event Op Op.Ans World Req → Bool
  | .turn _ (.job (.change job _ (.start _))) _ => job = id
  | _ => false

section Effective

variable (cfg : Settings) (newV5 : String → Uuid)

/-- **A cancellation is effective**, in runs whose steps meet the condition: after it no step of
the job is started, and a part that it reports as cancelled never runs again. -/
def CancelEffective (ok : Condition Op Op.Ans State World Req Turn) : Prop :=
  ∀ (s : State) (before after : List (Interleave.Event Op Op.Ans World Req))
    (c₁ c₂ c₃ : Config Op Op.Ans State Req Turn) (i : Nat) (id : JobId) (found : Bool),
    Run (daemon cfg newV5) turns ok ⟨s, []⟩ before c₁ →
    ok c₁.state c₁.marks (.turn i (.job (.cancel id)) found) →
    Interleave.Step (daemon cfg newV5) turns c₁ (.turn i (.job (.cancel id)) found) c₂ →
    Run (daemon cfg newV5) turns ok c₂ after c₃ → (∀ e ∈ after, replaces id e = false) →
    (∀ e c₄, Interleave.Step (daemon cfg newV5) turns c₃ e c₄ → startsStepOf id e = false) ∧
      ∀ idx d d', c₂.state.store.jobs.drive id idx = some d → d.state = .cancelled →
        c₃.state.store.jobs.drive id idx = some d' → d'.state ≠ .running

/-- No task has polled a part of a job, found a step due and not started it yet, when the job is
cancelled. -/
def Uncrossed : Condition Op Op.Ans State World Req Turn
  | _, ms, .turn _ (.job (.cancel id)) _ => ∀ m ∈ ms, ∀ idx, m.due ≠ some (id, idx)
  | _, _, _ => True

/-- A cancelled job: its flag is set, the given parts do not run, and no task is about to start a
step of it. -/
structure Cancelled (id : JobId) (still : Nat → Prop) (s : State) (ms : List Turn) : Prop where
  flag : ∀ j, s.store.jobs.get id = some j → j.cancel = true
  idle : ∀ idx, still idx → ∀ d, s.store.jobs.drive id idx = some d → d.state ≠ .running
  undue : ∀ m ∈ ms, ∀ idx, m.due ≠ some (id, idx)

/-- The event of a step that leaves the id to its job. -/
def Retains (id : JobId) : Condition Op Op.Ans State World Req Turn :=
  fun _ _ e => replaces id e = false

variable {cfg newV5} {id : JobId} {still : Nat → Prop}

/-- A change other than a start does not make a part run. -/
lemma DriveJob.apply_state_ne_running {d : DriveJob} {u : DjUpdate} (hu : ∀ p, u ≠ .start p)
    (hd : d.state ≠ .running) : (d.apply u).state ≠ .running := by
  cases u with
  | start p => exact absurd rfl (hu p)
  | progress => exact hd
  | stepDone => exact hd
  | password => exact hd
  | _ => simp [DriveJob.apply]

/-- In a cancelled job no section but a start makes a part run. -/
lemma onPart_state_ne_running {o : JobOp} {idx : Nat} {j : Job} {d : DriveJob}
    (hstart : ∀ k p, o ≠ .change id k (.start p)) (hc : j.cancel = true)
    (hd : d.state ≠ .running) : (o.onPart id idx j d).state ≠ .running := by
  cases o with
  | change i k u =>
    simp only [JobOp.onPart]
    by_cases hi : i = id ∧ k = idx
    · rw [if_pos hi]
      refine DriveJob.apply_state_ne_running (fun p hp => ?_) hd
      subst hp
      exact hstart k p (by rw [hi.1])
    · rw [if_neg hi]
      exact hd
  | cancel i =>
    simp only [JobOp.onPart, DriveJob.cancelled]
    by_cases hi : i = id
    · rw [if_pos hi]
      by_cases hs : d.state = .queued ∨ d.state = .interrupted
      · simp [hs, DriveJob.apply]
      · rw [if_neg hs]
        exact hd
    · rw [if_neg hi]
      exact hd
  | resume i who => simpa [JobOp.onPart, hc] using hd
  | recover =>
    simp only [JobOp.onPart, DriveJob.recovered]
    split
    · simp [DriveJob.apply]
    · exact hd
  | _ => exact hd

/-- A turn that becomes due was polled, and not cancelled then. -/
lemma due_of_next {m : Turn} {o : Op} {a : o.Ans} {idx : Nat}
    (h : (m.next o a).due = some (id, idx)) :
    m.due = some (id, idx) ∨ ∃ k st, ∃ ho : o = .job (.poll id idx),
      (ho ▸ a : Op.Ans (.job (.poll id idx))) = some (k, false, st) := by
  unfold Turn.next at h
  split at h
  · exact .inl h
  · next job idx' a =>
    unfold Turn.polled at h
    split at h
    · next k st =>
      split at h
      · simp only [Option.some.injEq, Prod.mk.injEq] at h
        obtain ⟨rfl, rfl⟩ := h
        exact .inr ⟨k, st, rfl, rfl⟩
      · exact .inl h
    · exact .inl h
  · split at h
    · exact .inl h
    · cases h
  · exact .inl h

/-- **A cancelled job stays cancelled**, in every step that leaves the id to it. -/
theorem keeps_cancelled :
    Keeps (daemon cfg newV5) turnProtocol (Retains id) (Cancelled id still) where
  entry := turns_entry
  start s ms r hJ hr _ := by
    have hof : Turn.of r = {} := by
      cases r <;> first | rfl | simp [daemon, Req.external] at hr
    refine ⟨?_, hJ.flag, hJ.idle, fun m hm idx => ?_⟩
    · change turnProtocol.ready r (Turn.of r)
      rw [hof]
      cases r <;> first | rfl | simp [daemon, Req.external] at hr
    · rcases List.mem_append.mp hm with hm | hm
      · exact hJ.undue m hm idx
      · obtain rfl : m = Turn.of r := List.mem_singleton.mp hm
        simp [hof]
  turn s ms i m o e a s' hJ hm hmay hex hok := by
    have hex : o.exec newV5 e s = some (a, s') := hex
    refine ⟨trivial, fun r _ => ?_, ?_⟩
    · cases r <;> rfl
    · have hmarks : ∀ m' ∈ ms.set i (m.next o a) ++ o.spawned.toList.map Turn.of, ∀ idx,
          m'.due ≠ some (id, idx) := by
        intro m' hm' idx hdue
        rcases List.mem_append.mp hm' with hm' | hm'
        · rcases List.mem_or_eq_of_mem_set hm' with hm' | rfl
          · exact hJ.undue m' hm' idx hdue
          · rcases due_of_next hdue with hdue | ⟨k, st, rfl, ha⟩
            · exact hJ.undue m (List.mem_of_getElem? hm) idx hdue
            · obtain ⟨hex', -⟩ := exec_job hex
              obtain ⟨rfl, -⟩ := Prod.mk.inj (Option.some.inj hex')
              obtain ⟨j, hj, hd⟩ := Option.bind_eq_some_iff.mp ha
              obtain ⟨d, -, hd⟩ := Option.bind_eq_some_iff.mp hd
              simp [hJ.flag j hj] at hd
        · obtain ⟨r, -, rfl⟩ := List.mem_map.mp hm'
          cases r <;> simp [Turn.of] at hdue
      by_cases hjob : ∃ oj, o = .job oj
      · obtain ⟨oj, rfl⟩ := hjob
        obtain ⟨hex', -⟩ := exec_job hex
        have hins : ∀ j', j'.id = id → oj ≠ .insert j' := by
          rintro j' hid rfl
          simp [Retains, replaces, hid] at hok
        refine ⟨fun j' hj' => ?_, fun idx hidx d' hd' => ?_, hmarks⟩
        · rcases get_exec_cases hex' hj' with hoj | ⟨j, hj, rfl⟩
          · exact absurd hoj (hins j' (Jobs.id_of_get hj'))
          · exact JobOp.onJob_cancel (hJ.flag j hj)
        · rcases drive_exec_cases hex' hd' with ⟨j', hoj, hid, -⟩ | ⟨j, d, hj, hd, rfl⟩
          · exact absurd hoj (hins j' hid)
          · refine onPart_state_ne_running (fun k p hoj => ?_) (hJ.flag j hj)
              (hJ.idle idx hidx d ?_)
            · subst hoj
              exact hJ.undue m (List.mem_of_getElem? hm) k hmay
            · rw [Jobs.drive, hj]
              exact hd
      · have hstore : s'.store = s.store := store_eq_of_ne_job (fun oj ho => hjob ⟨oj, ho⟩) hex
        refine ⟨?_, ?_, hmarks⟩
        · rw [hstore]
          exact hJ.flag
        · rw [hstore]
          exact hJ.idle
  world s ms w s' hJ hw _ := by
    have hstore : s'.store = s.store := by
      cases w <;> cases hw <;> rfl
    refine ⟨?_, ?_, hJ.undue⟩
    · rw [hstore]
      exact hJ.flag
    · rw [hstore]
      exact hJ.idle
  crash s ms hJ hok := nomatch hok

/-- A task starts a step of a job only at a turn. -/
lemma due_of_startsStepOf {J : State → List Turn → Prop} {c c' : Config Op Op.Ans State Req Turn}
    {e : Interleave.Event Op Op.Ans World Req} (hc : Good turnProtocol J c)
    (h : Interleave.Step (daemon cfg newV5) turns c e c') (he : startsStepOf id e = true) :
    ∃ m ∈ c.marks, ∃ idx, m.due = some (id, idx) := by
  cases e with
  | turn i o a =>
    obtain ⟨m, hm, hmay⟩ := hc.may h
    cases o with
    | job oj =>
      cases oj with
      | change job idx u =>
        cases u with
        | start p =>
          obtain rfl : job = id := of_decide_eq_true he
          exact ⟨m, List.mem_of_getElem? hm, idx, hmay⟩
        | _ => cases he
      | _ => cases he
    | _ => cases he
  | _ => cases he

/-- Every task of a run keeps to the turns. -/
lemma good_turns {ok : Condition Op Op.Ans State World Req Turn} {s : State}
    {c : Config Op Op.Ans State Req Turn} {es : List (Interleave.Event Op Op.Ans World Req)}
    (h : Run (daemon cfg newV5) turns ok ⟨s, []⟩ es c) :
    Good turnProtocol (fun _ _ => True) c := by
  have hkeeps : Keeps (daemon cfg newV5) turnProtocol ok fun _ _ => True :=
    { entry := turns_entry
      start := fun s ms r _ _ _ => ⟨by cases r <;> rfl, trivial⟩
      turn := fun s ms i m o e a s' _ _ _ _ _ =>
        ⟨trivial, fun r _ => by cases r <;> rfl, trivial⟩
      world := fun _ _ _ _ _ _ _ => trivial
      crash := fun s ms _ _ => ⟨fun r hr => by
        obtain rfl : r = .recover := List.mem_singleton.mp hr
        rfl, trivial⟩ }
  exact hkeeps.run (good_idle trivial) h

/-- **A cancellation that crosses no task is effective.**

**Proof sketch.** Every task keeps to its turns (`turns_entry`), so a step is started only by a task
whose mark has its part due. When the cancellation crosses none, no mark has a part of the job due,
and the flag is set: this holds on (`keeps_cancelled`), since a poll that reads the flag makes no
part due, a resume refuses, and nothing takes the flag back. -/
theorem cancelEffective_of_uncrossed (cfg : Settings) (newV5 : String → Uuid) :
    CancelEffective cfg newV5 Uncrossed := by
  intro s before after c₁ c₂ c₃ i id found hbefore hok hcancel hafter hsame
  have hgood₁ : Good turnProtocol (fun _ _ => True) c₁ := good_turns hbefore
  have hgood₂ : Good turnProtocol (Cancelled id fun idx => ∀ d,
      c₂.state.store.jobs.drive id idx = some d → d.state ≠ .running) c₂ := by
    have hrun := run_append_iff.mpr ⟨c₁, hbefore, .cons hok hcancel (.nil c₂)⟩
    refine ⟨?_, (good_turns hrun).keeps⟩
    cases hcancel with
    | turn _ _ k m env _ s' ht hex =>
      have hex : (Op.job (.cancel id)).exec newV5 env c₁.state = some (found, s') := hex
      obtain ⟨hex', -⟩ := exec_job hex
      refine ⟨fun j' hj' => ?_, fun idx hidx d hd => hidx d hd, fun m' hm' idx => ?_⟩
      · rcases get_exec_cases hex' hj' with hoj | ⟨j, -, rfl⟩
        · cases hoj
        · simp [JobOp.onJob, Job.cancelled]
      · have hm : c₁.marks[i]? = some m := by simp [Config.marks, ht]
        have hsame : c₁.marks.set i m = c₁.marks := set_of_getElem? hm
        have hnext : turns.next m (.job (.cancel id)) found = m := rfl
        have hmem : m' ∈ c₁.marks := by
          rw [← hsame]
          simpa [Config.marks, children, List.map_set, daemon, Op.spawned, hnext] using hm'
        exact hok m' hmem idx
  have hgood₃ := keeps_cancelled.run hgood₂ (hafter.of_events hsame)
  refine ⟨fun e c₄ hstep => ?_, fun idx d d' hd hs hd' => ?_⟩
  · by_contra he
    rw [Bool.not_eq_false] at he
    obtain ⟨m, hm, idx, hdue⟩ := due_of_startsStepOf hgood₃ hstep he
    exact hgood₃.inv.undue m hm idx hdue
  · refine hgood₃.inv.idle idx (fun d'' hd'' => ?_) d' hd'
    rw [hd] at hd''
    cases hd''
    simp [hs]

/-- A job with a sanitize on the fixture's drive is resumed, its task polls the part, the job is
cancelled, and the task goes on to the start of the sanitize. -/
def crossing : List (Move Env World Req) :=
  [.crash] ++ List.replicate 6 (.turn 0 {}) ++ [.start (.resume "j1" none)] ++
    List.replicate 4 (.turn 1 {}) ++ List.replicate 3 (.turn 2 {}) ++
    [.start (.cancel "j1"), .turn 3 {}] ++ List.replicate 10 (.turn 2 {})

/-- The event after `n` others cancels the job, and the one after `k` more starts a step of it. -/
def crossedAt (n k : Nat) (es : List (Interleave.Event Op Op.Ans World Req)) : Bool :=
  match es[n]?, (es.drop (n + 1))[k]? with
  | some (.turn _ (.job (.cancel id)) _), some e =>
    startsStepOf id e && ((es.drop (n + 1)).take k).all fun e => !replaces id e
  | _, _ => false

/-- **A cancellation is not effective in every run**: the task that has polled its part waits for
the lane of its drive, reads the drive and asks the apiserver, and then starts the sanitize of a
part that the cancellation has reported as cancelled. -/
theorem cancelled_part_starts : ¬ CancelEffective {} (fun _ => ⟨0⟩) fun _ _ _ => True := by
  intro heff
  obtain ⟨es, c, hrun, hcheck⟩ : ∃ es c, Run (daemon {} fun _ => ⟨0⟩) turns (fun _ _ _ => True)
      ⟨.testFixture [.sanitize .crypto] (.testFixture .interrupted), []⟩ es c ∧
      crossedAt 16 9 es = true :=
    exists_run_of_moves crossing (by decide +kernel)
  unfold crossedAt at hcheck
  split at hcheck
  · next i id found e hcancel hstart =>
    obtain ⟨hstarts, hsame⟩ := Bool.and_eq_true_iff.mp hcheck
    obtain ⟨c₁, c₂, hbefore, -, hstep, hrest⟩ := hrun.split hcancel
    obtain ⟨c₃, c₄, hafter, -, hlast, -⟩ := hrest.split hstart
    obtain ⟨hno, -⟩ := heff _ _ _ c₁ c₂ c₃ i id found hbefore trivial hstep hafter
      (by simpa using hsame)
    rw [hno e c₄ hlast] at hstarts
    cases hstarts
  · cases hcheck

end Effective

end StormDrive
