import StormDrive.Daemon.Drains
import StormDrive.Interleave.Runs
import StormDrive.Leaving

set_option relaxedAutoImplicit false
set_option autoImplicit false

/-!
# Requests to retire a drive

A drain may be asked for with the wish that the drive leaves the fleet once it is empty. The wish
is a flag of the drain's record (`fleet.rs`), and every request for a drain meets what the requests
before it left there.

## Main definitions

* `Drive.startDrained`, `Drive.requestDrained`, `Drive.drainFollowed`, `Drive.drainStopped` — what
  `start_drain`, `request_drain`, a poll and `cancel_drain` make of a record.
* `Retire.Event`, `Retire.step` — the requests for one drive, and what else befalls its drain.
* `Retire.Kept` — a drive that was asked to leave has the flag.
* `Retire.Agrees` — a request wishes what the requests before it wished, or is allowed to.

## Main results

* `alone_startDrain`, `alone_requestDrain`, `alone_pollDrain`, `alone_cancelDrain` — the programs of
  the daemon do just that to the record.
* `Retire.kept_iff_agrees` — **the flag is kept exactly in the runs whose requests agree**.
* `Retire.wish_lost` — an operator's plain drain takes a failing drive's wish away.

## Implementation notes

Beside the record stands a ghost: whether a request that was taken asked the drive to leave since
the last time the drain was cancelled or dropped or the drive was out of the fleet. A request is
taken when it succeeds or leaves the drain pending; `start_drain` alone, when the engine refuses,
fails and changes nothing.
-/

namespace StormDrive

open Interleave Work

/-! ## What the operations make of a record -/

/-- What the engine answers while a drain is asked for: to the question which drain it has, and to
the request for one. -/
structure DrainAnswers where
  found : Except String (Option DrainStatus)
  started : Except String DrainStatus

/-- The drain that the engine then has: the running one that it found, or the one it started. -/
def DrainAnswers.status (a : DrainAnswers) : Except String DrainStatus :=
  match a.found with
  | .error why => .error why
  | .ok found =>
    match found.filter DrainStatus.isRunning with
    | some s => .ok s
    | none => a.started

namespace Drive

/-- The drain waits for the engine. -/
def drainWaits (d : Drive) : Bool :=
  d.drain.any fun r => r.state = pending

/-- The drive is to leave the fleet when its drain is empty. -/
def willLeave (d : Drive) : Bool :=
  d.drain.any DrainRecord.thenLeave

/-- `start_drain`: what it returns, and the record after it. -/
def startDrained (d : Drive) (reason : String) (thenLeave : Bool) (a : DrainAnswers) :
    Except String Unit × Drive :=
  if d.membership ≠ .fleet then (.error (d.name ++ ": not in the fleet, nothing to drain"), d)
  else if d.drainRuns then (.ok (), d)
  else
    match a.status with
    | .error why => (.error why, d)
    | .ok s =>
      (.ok (), d.apply (.drainStarted
        { state := s.state, reason := reason, thenLeave := thenLeave, errors := s.errors }))

/-- `request_drain`. -/
def requestDrained (d : Drive) (reason : String) (thenLeave : Bool) (a : DrainAnswers) :
    Except String Unit × Drive :=
  match d.startDrained reason thenLeave a with
  | (.ok _, d') => (.ok (), d')
  | (.error why, d') => (.error why, d'.apply (.drainRefused reason thenLeave why))

/-- The drive's turn of `retry_pending_drains`. -/
def drainRetried (d : Drive) (a : DrainAnswers) : Drive :=
  if d.drainDue then
    let record := d.drain.getD {}
    (d.requestDrained record.reason record.thenLeave a).2
  else d

/-- What the status of a poll makes of the record. `deleted`: the engine's answer to the request
to let the drive go. -/
def drainReported (d : Drive) (thenLeave : Bool) (status : DrainStatus)
    (deleted : Except String Unit) : Drive :=
  let d' := d.apply (.drainStatus status.state status.errors)
  if status.state = "running" then d'
  else if status.state = "empty" then
    if thenLeave then
      match deleted with
      | .error _ => d'
      | .ok _ => d'.apply .retired
    else d'.apply .drainEmpty
  else if status.state = "stuck" then d'
  else d'.apply .drainEnded

/-- The drive's turn of `poll_drains`. -/
def drainFollowed (d : Drive) (found : Except String (Option DrainStatus))
    (deleted : Except String Unit) : Drive :=
  if d.drainRuns then
    let record := d.drain.getD {}
    match found with
    | .error _ => d
    | .ok none =>
      d.apply (.drainPending record.thenLeave "the engine has no record of this drain (restarted?)")
    | .ok (some status) => d.drainReported record.thenLeave status deleted
  else d

/-- `cancel_drain`, with the engine's answer. -/
def drainStopped (d : Drive) (answer : Except String Unit) : Drive :=
  match answer with
  | .error _ => d
  | .ok _ => d.apply .drainCancelled

end Drive

/-! ## The flag -/

namespace Drive

variable {d : Drive} {reason : String} {thenLeave : Bool} {a : DrainAnswers}

lemma willLeave_congr {d' : Drive} (h : d'.drain = d.drain) : d'.willLeave = d.willLeave := by
  rw [willLeave, willLeave, h]

/-- A pending record keeps its flag, any other is written with the new one. -/
lemma willLeave_markPending (error : String) :
    (d.markPending reason thenLeave error).willLeave =
      if d.drainWaits then d.willLeave else thenLeave := by
  have hsplit : ∀ d' : Drive,
      (if d'.activity = .draining then { d' with activity := .idle } else d').willLeave =
        d'.willLeave := by
    intro d'
    split <;> rfl
  rw [markPending, hsplit]
  unfold drainWaits willLeave
  cases d.drain with
  | none => rfl
  | some r => by_cases hr : r.state = pending <;> simp [hr]

@[simp] lemma membership_markPending (error : String) :
    (d.markPending reason thenLeave error).membership = d.membership := by
  unfold markPending
  dsimp only
  split <;> rfl

lemma willLeave_drainStarted (r : DrainRecord) :
    (d.apply (.drainStarted r)).willLeave = r.thenLeave := by
  simp only [apply]
  split <;> rfl

@[simp] lemma membership_drainStarted (r : DrainRecord) :
    (d.apply (.drainStarted r)).membership = d.membership := by
  simp only [apply]
  split <;> rfl

/-- `start_drain` succeeds for a drive of the fleet whose drain runs, or whose drain the engine has
then. -/
lemma isOk_startDrained : (d.startDrained reason thenLeave a).1.isOk =
    (decide (d.membership = .fleet) && (d.drainRuns || a.status.isOk)) := by
  unfold startDrained
  by_cases hin : d.membership = .fleet
  · by_cases hrun : d.drainRuns = true
    · simp [hin, hrun, Except.isOk, Except.toBool]
    · rw [if_neg (not_not.mpr hin), if_neg hrun]
      cases a.status <;> simp [hin, hrun, Except.isOk, Except.toBool]
  · simp [hin, Except.isOk, Except.toBool]

@[simp] lemma membership_startDrained :
    (d.startDrained reason thenLeave a).2.membership = d.membership := by
  unfold startDrained
  split
  · rfl
  · split
    · rfl
    · cases a.status with
      | error why => rfl
      | ok st => exact membership_drainStarted _

/-- **The flag after `start_drain`**: a running drain is adopted with the flag that it has. -/
lemma willLeave_startDrained (hin : d.membership = .fleet) :
    (d.startDrained reason thenLeave a).2.willLeave =
      if d.drainRuns || !a.status.isOk then d.willLeave else thenLeave := by
  unfold startDrained
  rw [if_neg (not_not.mpr hin)]
  by_cases hrun : d.drainRuns = true
  · simp [hrun]
  · rw [if_neg hrun]
    cases a.status with
    | error why => simp [Except.isOk, Except.toBool]
    | ok st => simp [hrun, Except.isOk, Except.toBool, willLeave_drainStarted]

/-- A drive that is out of the fleet is left alone. -/
lemma requestDrained_of_out (hin : d.membership ≠ .fleet) :
    (d.requestDrained reason thenLeave a).2 = d := by
  simp [requestDrained, startDrained, hin, apply]

/-- **The flag after `request_drain`**: a pending record that the engine refuses again keeps the
one that it has, too. -/
lemma willLeave_requestDrained (hin : d.membership = .fleet) :
    (d.requestDrained reason thenLeave a).2.willLeave =
      if d.drainRuns || d.drainWaits && !a.status.isOk then d.willLeave else thenLeave := by
  unfold requestDrained startDrained
  rw [if_neg (not_not.mpr hin)]
  by_cases hrun : d.drainRuns = true
  · simp [hrun]
  · rw [if_neg hrun]
    cases a.status with
    | error why =>
      simp [hrun, Except.isOk, Except.toBool, apply, hin, willLeave_markPending]
    | ok st => simp [hrun, Except.isOk, Except.toBool, willLeave_drainStarted]

@[simp] lemma membership_requestDrained :
    (d.requestDrained reason thenLeave a).2.membership = d.membership := by
  have hstart : (d.startDrained reason thenLeave a).2.membership = d.membership :=
    membership_startDrained
  unfold requestDrained
  generalize d.startDrained reason thenLeave a = out at hstart
  obtain ⟨_ | _, d'⟩ := out
  · simp only [apply]
    split
    · rw [membership_markPending]
      exact hstart
    · exact hstart
  · exact hstart

/-- A retry passes the record's own flag back. -/
lemma willLeave_drainRetried : (d.drainRetried a).willLeave = d.willLeave := by
  unfold drainRetried
  split
  · next hdue =>
    have hin : d.membership = .fleet := by
      simp only [drainDue, Bool.and_eq_true, decide_eq_true_eq] at hdue
      exact hdue.1.1
    rw [willLeave_requestDrained hin]
    split
    · rfl
    · unfold willLeave
      cases d.drain <;> rfl
  · rfl

/-- A status changes no flag. -/
lemma willLeave_drainReported (st : DrainStatus) (deleted : Except String Unit) :
    (d.drainReported thenLeave st deleted).willLeave = d.willLeave := by
  have hstatus : (d.apply (.drainStatus st.state st.errors)).willLeave = d.willLeave := by
    simp only [apply, willLeave]
    cases d.drain <;> rfl
  unfold drainReported
  dsimp only
  split
  · exact hstatus
  · split
    · split
      · split
        · exact hstatus
        · exact (willLeave_congr rfl).trans hstatus
      · exact (willLeave_congr rfl).trans hstatus
    · split
      · exact hstatus
      · rw [← hstatus]
        exact willLeave_congr (drain_apply rfl _)

/-- **A poll changes no flag.** -/
lemma willLeave_drainFollowed (found : Except String (Option DrainStatus))
    (deleted : Except String Unit) : (d.drainFollowed found deleted).willLeave = d.willLeave := by
  unfold drainFollowed
  split
  · match found with
    | .error _ => rfl
    | .ok none =>
      simp only [apply, willLeave_markPending]
      split
      · rfl
      · unfold willLeave
        cases d.drain <;> rfl
    | .ok (some st) => exact willLeave_drainReported st deleted
  · rfl

end Drive

/-! ## The programs do just that -/

section Programs

variable {newV5 : String → Uuid} {cfg : Settings} {id : DriveId} {s s' : State} {d : Drive}

/-- The record is read. -/
lemma alone_readDrive_iff {α : Type} {f : Option Drive → Work α} {a : α} :
    Alone (Op.exec newV5) (readDrive .other id >>= f) s a s' ↔
      Alone (Op.exec newV5) (f (s.records.inv id)) s a s' := by
  rw [alone_op_bind_iff]
  constructor
  · rintro ⟨e, x, s₁, hex, h⟩
    cases hex
    exact h
  · intro h
    exact ⟨{}, _, _, rfl, h⟩

/-- The record is changed. -/
lemma alone_changeDrive {α : Type} {u : DriveUpdate} {f : Option Drive → Work α} {a : α}
    (hd : s.records.inv id = some d)
    (h : Alone (Op.exec newV5) (changeDrive id u >>= f) s a s') :
    ∃ s₁, s₁.records.inv id = some (d.apply u) ∧
      Alone (Op.exec newV5) (f (some (d.apply u))) s₁ a s' := by
  obtain ⟨e, x, s₁, hex, hrest⟩ := (alone_op_bind_iff _ _ _ _ _).mp h
  cases hex
  refine ⟨_, ?_, by simpa only [hd, Option.map_some] using hrest⟩
  simp [hd]

/-- The engine answers, and the records are as they were. -/
lemma alone_engine {α : Type} {o : EngineOp} {f : o.Ans → Work α} {a : α}
    (h : Alone (Op.exec newV5) (perform (.engine o) >>= f) s a s') :
    ∃ x s₁, s₁.records = s.records ∧ Alone (Op.exec newV5) (f x) s₁ a s' := by
  obtain ⟨e, x, s₁, hex, hrest⟩ := (alone_op_bind_iff _ _ _ _ _).mp h
  exact ⟨x, s₁, records_eq_of_ne_record (by simp) hex, hrest⟩

/-- The save leaves the record. -/
lemma inv_of_persist {d : Drive} (hd : s.records.inv id = some d)
    (h : Alone (Op.exec newV5) (persist cfg) s () s') : s'.records.inv id = some d := by
  refine inv_of_only_spares h ?_ hd
  unfold persist
  split
  · exact .op_bind trivial fun _ => .op_bind trivial fun _ => Prog.only_ret _
  · exact Prog.only_ret _

/-- The save and what comes after it. -/
lemma alone_persist {α : Type} {f : Unit → Work α} {a : α} {d : Drive}
    (hd : s.records.inv id = some d)
    (h : Alone (Op.exec newV5) (persist cfg >>= f) s a s') :
    ∃ s₁, s₁.records.inv id = some d ∧ Alone (Op.exec newV5) (f ()) s₁ a s' := by
  obtain ⟨⟨⟩, s₁, hp, hf⟩ := (alone_bind_iff _ _ _ _ _).mp h
  exact ⟨s₁, inv_of_persist hd hp, hf⟩

/-- What `start_drain` has done when the engine was asked. -/
lemma alone_startInEngine {reason : String} {thenLeave : Bool} {r : Except String Unit}
    (hd : s.records.inv id = some d)
    (h : Alone (Op.exec newV5) (startInEngine cfg d id reason thenLeave) s r s') :
    ∃ a : DrainAnswers,
      (∃ why, a.status = .error why ∧ r = .error why ∧ s'.records.inv id = some d) ∨
      ∃ st, a.status = .ok st ∧ r = .ok () ∧ s'.records.inv id = some (d.apply (.drainStarted
        { state := st.state, reason := reason, thenLeave := thenLeave, errors := st.errors })) := by
  have hend : ∀ {s₁ : State} (st : DrainStatus), s₁.records.inv id = some d →
      Alone (Op.exec newV5) (do
        let _ ← changeDrive id (.drainStarted
          { state := st.state, reason := reason, thenLeave := thenLeave, errors := st.errors })
        persist cfg
        pure (.ok ())) s₁ r s' →
      r = .ok () ∧ s'.records.inv id = some (d.apply (.drainStarted
        { state := st.state, reason := reason, thenLeave := thenLeave, errors := st.errors })) := by
    intro s₁ st hd₁ h₁
    obtain ⟨s₂, hd₂, h₂⟩ := alone_changeDrive hd₁ h₁
    obtain ⟨s₃, hd₃, h₃⟩ := alone_persist hd₂ h₂
    obtain ⟨rfl, rfl⟩ := (alone_ret_iff _ _ _ _).mp h₃
    exact ⟨rfl, hd₃⟩
  obtain ⟨found, s₁, hrec, h₁⟩ := alone_engine h
  have hd₁ : s₁.records.inv id = some d := hrec ▸ hd
  cases found with
  | error why =>
    obtain ⟨rfl, rfl⟩ := (alone_ret_iff _ _ _ _).mp h₁
    exact ⟨⟨.error why, .error why⟩, .inl ⟨why, rfl, rfl, hd₁⟩⟩
  | ok found =>
    dsimp only at h₁
    cases hrun : found.filter DrainStatus.isRunning with
    | some st =>
      rw [hrun] at h₁
      obtain ⟨hr, hd'⟩ := hend st hd₁ h₁
      exact ⟨⟨.ok found, .ok st⟩, .inr ⟨st, by simp [DrainAnswers.status, hrun], hr, hd'⟩⟩
    | none =>
      rw [hrun] at h₁
      obtain ⟨started, s₂, hrec₂, h₂⟩ := alone_engine h₁
      have hd₂ : s₂.records.inv id = some d := hrec₂ ▸ hd₁
      have hstatus : DrainAnswers.status ⟨.ok found, started⟩ = started := by
        simp [DrainAnswers.status, hrun]
      cases started with
      | error why =>
        obtain ⟨rfl, rfl⟩ := (alone_ret_iff _ _ _ _).mp h₂
        exact ⟨⟨.ok found, .error why⟩, .inl ⟨why, hstatus, rfl, hd₂⟩⟩
      | ok st =>
        obtain ⟨hr, hd'⟩ := hend st hd₂ h₂
        exact ⟨⟨.ok found, .ok st⟩, .inr ⟨st, hstatus, hr, hd'⟩⟩

/-- **`start_drain` does just that to the record.** -/
theorem alone_startDrain {reason : String} {thenLeave : Bool} {r : Except String Unit}
    (hd : s.records.inv id = some d)
    (h : Alone (Op.exec newV5) (startDrain cfg id reason thenLeave) s r s') :
    ∃ a, r = (d.startDrained reason thenLeave a).1 ∧
      s'.records.inv id = some (d.startDrained reason thenLeave a).2 := by
  rw [startDrain_eq, alone_readDrive_iff, hd] at h
  dsimp only at h
  split at h
  · next hin =>
    obtain ⟨rfl, rfl⟩ := (alone_ret_iff _ _ _ _).mp h
    exact ⟨⟨.ok none, .error ""⟩, by simp [Drive.startDrained, hin], by
      simpa [Drive.startDrained, hin] using hd⟩
  next hin =>
  split at h
  · next hrun =>
    obtain ⟨rfl, rfl⟩ := (alone_ret_iff _ _ _ _).mp h
    have hrun' : d.drainRuns = true := hrun
    exact ⟨⟨.ok none, .error ""⟩, by simp [Drive.startDrained, hin, hrun'], by
      simpa [Drive.startDrained, hin, hrun'] using hd⟩
  next hrun =>
  have hrun' : ¬ d.drainRuns = true := hrun
  obtain ⟨a, ⟨why, hstatus, rfl, hd'⟩ | ⟨st, hstatus, rfl, hd'⟩⟩ := alone_startInEngine hd h
  · exact ⟨a, by simp [Drive.startDrained, hin, hrun', hstatus], by
      simpa [Drive.startDrained, hin, hrun', hstatus] using hd'⟩
  · exact ⟨a, by simp [Drive.startDrained, hin, hrun', hstatus], by
      simpa [Drive.startDrained, hin, hrun', hstatus] using hd'⟩

/-- **`request_drain` does just that to the record.** -/
theorem alone_requestDrain {reason : String} {thenLeave : Bool} {r : Except String Unit}
    (hd : s.records.inv id = some d)
    (h : Alone (Op.exec newV5) (requestDrain cfg id reason thenLeave) s r s') :
    ∃ a, r = (d.requestDrained reason thenLeave a).1 ∧
      s'.records.inv id = some (d.requestDrained reason thenLeave a).2 := by
  obtain ⟨r₁, s₁, h₁, h⟩ := (alone_bind_iff _ _ _ _ _).mp h
  obtain ⟨a, rfl, hd₁⟩ := alone_startDrain hd h₁
  refine ⟨a, ?_⟩
  unfold Drive.requestDrained
  generalize d.startDrained reason thenLeave a = out at h hd₁
  obtain ⟨_ | _, d₁⟩ := out
  · next why =>
    obtain ⟨s₂, hd₂, h₂⟩ := alone_changeDrive hd₁ h
    dsimp only at h₂
    obtain ⟨_, s₃, hp, h₃⟩ := (alone_bind_iff _ _ _ _ _).mp h₂
    obtain ⟨rfl, rfl⟩ := (alone_ret_iff _ _ _ _).mp h₃
    obtain ⟨-, hp⟩ | ⟨-, rfl⟩ := alone_when_iff.mp hp
    · exact ⟨rfl, inv_of_persist hd₂ hp⟩
    · exact ⟨rfl, hd₂⟩
  · obtain ⟨rfl, rfl⟩ := (alone_ret_iff _ _ _ _).mp h
    exact ⟨rfl, hd₁⟩

/-- **`cancel_drain` does just that to the record.** -/
theorem alone_cancelDrain {r : Except String Unit} (hd : s.records.inv id = some d)
    (h : Alone (Op.exec newV5) (cancelDrain cfg id) s r s') :
    s'.records.inv id = some (d.drainStopped r) := by
  rw [cancelDrain, alone_readDrive_iff, hd] at h
  obtain ⟨x, s₁, hrec, h₁⟩ := alone_engine h
  have hd₁ : s₁.records.inv id = some d := hrec ▸ hd
  cases x with
  | error why =>
    obtain ⟨rfl, rfl⟩ := (alone_ret_iff _ _ _ _).mp h₁
    exact hd₁
  | ok _ =>
    obtain ⟨s₂, hd₂, h₂⟩ := alone_changeDrive hd₁ h₁
    obtain ⟨s₃, hd₃, h₃⟩ := alone_persist hd₂ h₂
    obtain ⟨rfl, rfl⟩ := (alone_ret_iff _ _ _ _).mp h₃
    exact hd₃

/-- The drive leaves the fleet when the engine lets it go. -/
lemma alone_retire (hd : s.records.inv id = some d)
    (h : Alone (Op.exec newV5) (retire id) s () s') :
    ∃ deleted : Except String Unit, s'.records.inv id = some (match deleted with
      | .error _ => d
      | .ok _ => d.apply .retired) := by
  rw [retire, alone_readDrive_iff, hd] at h
  obtain ⟨x, s₁, hrec, h₁⟩ := alone_engine h
  have hd₁ : s₁.records.inv id = some d := hrec ▸ hd
  refine ⟨x, ?_⟩
  cases x with
  | error why =>
    obtain ⟨-, rfl⟩ := (alone_ret_iff _ _ _ _).mp h₁
    exact hd₁
  | ok _ =>
    obtain ⟨s₂, hd₂, h₂⟩ := alone_changeDrive hd₁ h₁
    obtain ⟨-, rfl⟩ := (alone_ret_iff _ _ _ _).mp h₂
    exact hd₂

/-- What the status of a poll leads to. -/
lemma alone_drainPolled {thenLeave : Bool} {st : DrainStatus} (hid : d.id = id)
    (hd : s.records.inv id = some d)
    (h : Alone (Op.exec newV5) (drainPolled cfg d thenLeave st) s () s') :
    ∃ deleted, s'.records.inv id = some (d.drainReported thenLeave st deleted) := by
  rw [drainPolled, hid] at h
  obtain ⟨s₁, hd₁, h₁⟩ := alone_changeDrive hd h
  unfold Drive.drainReported
  by_cases hrunning : st.state = "running"
  · rw [if_pos hrunning] at h₁
    obtain ⟨-, rfl⟩ := (alone_ret_iff _ _ _ _).mp h₁
    exact ⟨.ok (), by simpa [hrunning] using hd₁⟩
  rw [if_neg hrunning] at h₁
  by_cases hempty : st.state = "empty"
  · rw [if_pos hempty] at h₁
    obtain ⟨⟨⟩, s₂, hleave, hp⟩ := (alone_bind_iff _ _ _ _ _).mp h₁
    cases thenLeave with
    | true =>
      obtain ⟨deleted, hd₂⟩ := alone_retire hd₁ hleave
      exact ⟨deleted, by simpa [hempty] using inv_of_persist hd₂ hp⟩
    | false =>
      obtain ⟨s₃, hd₃, h₃⟩ := alone_changeDrive hd₁ hleave
      obtain ⟨-, rfl⟩ := (alone_ret_iff _ _ _ _).mp h₃
      exact ⟨.ok (), by simpa [hempty] using inv_of_persist hd₃ hp⟩
  rw [if_neg hempty] at h₁
  by_cases hstuck : st.state = "stuck"
  · rw [if_pos hstuck] at h₁
    exact ⟨.ok (), by simpa [hstuck] using inv_of_persist hd₁ h₁⟩
  · rw [if_neg hstuck] at h₁
    obtain ⟨s₂, hd₂, h₂⟩ := alone_changeDrive hd₁ h₁
    obtain ⟨-, rfl⟩ := (alone_ret_iff _ _ _ _).mp h₂
    exact ⟨.ok (), by simpa [hrunning, hempty, hstuck] using hd₂⟩

/-- **A poll does just that to the record** of the drive that it was given. -/
theorem alone_pollDrain (hruns : d.drainRuns = true) (hd : s.records.inv d.id = some d)
    (h : Alone (Op.exec newV5) (pollDrain cfg d) s () s') :
    ∃ found deleted, s'.records.inv d.id = some (d.drainFollowed found deleted) := by
  obtain ⟨found, s₁, hrec, h₁⟩ := alone_engine h
  have hd₁ : s₁.records.inv d.id = some d := hrec ▸ hd
  simp only [Drive.drainFollowed, hruns, if_true]
  match found with
  | .error why =>
    obtain ⟨-, rfl⟩ := (alone_ret_iff _ _ _ _).mp h₁
    exact ⟨.error why, .ok (), hd₁⟩
  | .ok none =>
    obtain ⟨s₂, hd₂, h₂⟩ := alone_changeDrive hd₁ h₁
    obtain ⟨-, rfl⟩ := (alone_ret_iff _ _ _ _).mp h₂
    exact ⟨.ok none, .ok (), hd₂⟩
  | .ok (some st) =>
    obtain ⟨deleted, hd'⟩ := alone_drainPolled rfl hd₁ h₁
    exact ⟨.ok (some st), deleted, hd'⟩

end Programs

/-! ## Runs -/

namespace Retire

/-- A section under the lock of the inventory that touches no drain. -/
structure Elsewhere where
  op : RecordOp
  env : Env
  change : ∀ id u, op = .change id u → u.movesDrain = false
  drop : ∀ id, op ≠ .dropPending id

/-- What happens to the drain of one drive. -/
inductive Event
  /-- `start_drain`: the drain route, `spec.drain`, a leave. -/
  | start (reason : String) (thenLeave : Bool) (a : DrainAnswers)
  /-- `request_drain`: a failing health, the failed designation. -/
  | request (reason : String) (thenLeave : Bool) (a : DrainAnswers)
  /-- The drive's turn of `retry_pending_drains`. -/
  | retry (a : DrainAnswers)
  /-- The drive's turn of `poll_drains`, with the answer to a request to let it go. -/
  | poll (found : Except String (Option DrainStatus)) (deleted : Except String Unit)
  | cancel (answer : Except String Unit)
  /-- `drop_pending_drain`: the drive was reported healthy. -/
  | healthy
  /-- A join, or the worker's enrolment: only of a drive out of the fleet. -/
  | enters (u : DriveUpdate) (hu : u.enters = true)
  /-- Anything else: a leave, the reconciliation with the engine, a discovery pass. -/
  | other (x : Elsewhere)

variable (newV5 : String → Uuid)

/-- The record after an event. -/
def Event.onDrive (d : Drive) : Event → Drive
  | .start reason thenLeave a => (d.startDrained reason thenLeave a).2
  | .request reason thenLeave a => (d.requestDrained reason thenLeave a).2
  | .retry a => d.drainRetried a
  | .poll found deleted => d.drainFollowed found deleted
  | .cancel answer => d.drainStopped answer
  | .healthy => d.apply .drainDropped
  | .enters u _ => if d.membership = .fleet then d else d.apply u
  | .other x => x.op.onDrive newV5 x.env d

/-- The event is a request to leave that is taken: it succeeds, or leaves the drain pending. -/
def Event.asks (d : Drive) : Event → Bool
  | .start reason thenLeave a => thenLeave && (d.startDrained reason thenLeave a).1.isOk
  | .request _ thenLeave _ => thenLeave && d.membership = .fleet
  | _ => false

/-- The event cancels the drain, or drops it, or finds the drive out of the fleet. -/
def Event.ends (d : Drive) : Event → Bool
  | .cancel answer => answer.isOk
  | .healthy => d.drain.any fun r => r.state = pending ∧ r.reason = "health"
  | .enters .. => d.membership ≠ .fleet
  | _ => false

/-- The record, and whether a request that was taken asked the drive to leave since the drain was
last ended or the drive out of the fleet. -/
structure Watched where
  drive : Drive
  asked : Bool := false

/-- What an event does. -/
def step (s : Watched) (e : Event) : Watched where
  drive := e.onDrive newV5 s.drive
  asked := (s.asked || e.asks s.drive) && !e.ends s.drive &&
    (e.onDrive newV5 s.drive).membership = .fleet

/-- A drive that was asked to leave has the flag. -/
def Kept (s : Watched) : Prop :=
  s.asked = true → s.drive.willLeave = true

instance (s : Watched) : Decidable (Kept s) :=
  inferInstanceAs (Decidable (_ → _))

/-- **A request agrees with those before it.** One that only meets the record that is there, as a
running drain or as a pending one that the engine refuses again, wishes no more than the record
has; one whose flag is written wishes what was asked. -/
def Agrees (s : Watched) : Event → Prop
  | .start _ thenLeave a => s.drive.membership = .fleet →
    if s.drive.drainRuns then thenLeave = true → s.drive.willLeave = true
    else a.status.isOk = true → s.asked = true → thenLeave = true
  | .request _ thenLeave a => s.drive.membership = .fleet →
    if s.drive.drainRuns || s.drive.drainWaits && !a.status.isOk then
      thenLeave = true → s.drive.willLeave = true
    else s.asked = true → thenLeave = true
  | _ => True

/-! ### One event -/

variable {newV5} {s : Watched} {e : Event}

/-- The flag stays where an event writes none, asks for nothing, or ends the drain. -/
lemma kept_of_same (hkept : Kept s) (hasks : e.asks s.drive = false)
    (hflag : e.ends s.drive = false → (e.onDrive newV5 s.drive).willLeave = s.drive.willLeave) :
    Kept (step newV5 s e) := by
  intro hasked
  simp only [step, hasks, Bool.or_false, Bool.and_eq_true, Bool.not_eq_true'] at hasked ⊢
  rw [hflag hasked.1.2]
  exact hkept hasked.1.1

/-- A request and the flag that it meets, or writes. -/
lemma kept_of_request {thenLeave : Bool} (hkept : Kept s) (hin : s.drive.membership = .fleet)
    (hends : e.ends s.drive = false)
    (hmember : (e.onDrive newV5 s.drive).membership = s.drive.membership) {meets : Bool}
    (hasks : e.asks s.drive = thenLeave)
    (hflag : (e.onDrive newV5 s.drive).willLeave =
      if meets then s.drive.willLeave else thenLeave) :
    Kept (step newV5 s e) ↔ if meets then thenLeave = true → s.drive.willLeave = true
      else s.asked = true → thenLeave = true := by
  unfold Kept at hkept ⊢
  simp only [step, hasks, hends, hmember, hin, hflag]
  cases meets <;> cases thenLeave <;> cases hasked : s.asked <;> simp_all

/-- A request for a drive that is out of the fleet is not taken. -/
lemma kept_of_out (hin : s.drive.membership ≠ .fleet)
    (hmember : (e.onDrive newV5 s.drive).membership = s.drive.membership) :
    Kept (step newV5 s e) := by
  intro hasked
  simp [step, hmember, hin] at hasked

/-- `start_drain` keeps the flag exactly when the request agrees. -/
lemma kept_start_iff {reason : String} {thenLeave : Bool} {a : DrainAnswers} (hkept : Kept s) :
    Kept (step newV5 s (.start reason thenLeave a)) ↔ Agrees s (.start reason thenLeave a) := by
  have hmember : ((Event.start reason thenLeave a).onDrive newV5 s.drive).membership =
      s.drive.membership := Drive.membership_startDrained
  by_cases hin : s.drive.membership = .fleet
  · have hasks : (Event.start reason thenLeave a).asks s.drive =
        (thenLeave && (s.drive.drainRuns || a.status.isOk)) := by
      rw [Event.asks, Drive.isOk_startDrained, decide_eq_true hin, Bool.true_and]
    have hflag : ((Event.start reason thenLeave a).onDrive newV5 s.drive).willLeave =
        if s.drive.drainRuns || !a.status.isOk then s.drive.willLeave else thenLeave :=
      Drive.willLeave_startDrained hin
    simp only [Agrees, hin, true_imp_iff]
    by_cases htaken : (s.drive.drainRuns || a.status.isOk) = true
    · rw [htaken, Bool.and_true] at hasks
      rw [kept_of_request hkept hin rfl hmember hasks hflag]
      by_cases hrun : s.drive.drainRuns = true
      · simp [hrun]
      · simp_all
    · have hrefused := Bool.eq_false_iff.mpr htaken
      rw [hrefused, Bool.and_false] at hasks
      obtain ⟨hrun, hok⟩ := Bool.or_eq_false_iff.mp hrefused
      have hsame : Kept (step newV5 s (.start reason thenLeave a)) := by
        refine kept_of_same hkept hasks fun _ => ?_
        refine hflag.trans ?_
        simp [hok]
      simp [hsame, hrun, hok]
  · exact iff_of_true (kept_of_out hin hmember)
      fun h => absurd h hin

/-- `request_drain` keeps the flag exactly when the request agrees. -/
lemma kept_request_iff {reason : String} {thenLeave : Bool} {a : DrainAnswers} (hkept : Kept s) :
    Kept (step newV5 s (.request reason thenLeave a)) ↔
      Agrees s (.request reason thenLeave a) := by
  have hmember : ((Event.request reason thenLeave a).onDrive newV5 s.drive).membership =
      s.drive.membership := Drive.membership_requestDrained
  by_cases hin : s.drive.membership = .fleet
  · have hasks : (Event.request reason thenLeave a).asks s.drive = thenLeave := by
      simp [Event.asks, hin]
    rw [kept_of_request hkept hin rfl hmember hasks (Drive.willLeave_requestDrained hin)]
    simp only [Agrees, hin, true_imp_iff]
  · exact iff_of_true (kept_of_out hin hmember)
      fun h => absurd h hin

/-- **One event keeps the flag exactly when it agrees.** -/
lemma kept_step_iff (hkept : Kept s) : Kept (step newV5 s e) ↔ Agrees s e := by
  cases e with
  | start reason thenLeave a => exact kept_start_iff hkept
  | request reason thenLeave a => exact kept_request_iff hkept
  | retry a =>
    exact iff_of_true (kept_of_same hkept rfl fun _ => Drive.willLeave_drainRetried) trivial
  | poll found deleted =>
    exact iff_of_true
      (kept_of_same hkept rfl fun _ => Drive.willLeave_drainFollowed found deleted) trivial
  | cancel answer =>
    refine iff_of_true (kept_of_same hkept rfl fun hends => ?_) trivial
    cases answer with
    | error why => rfl
    | ok _ => cases hends
  | healthy =>
    refine iff_of_true (kept_of_same hkept rfl fun hends => ?_) trivial
    have hsame : s.drive.apply .drainDropped = s.drive := if_neg (Bool.not_eq_true _ ▸ hends)
    exact congrArg Drive.willLeave hsame
  | enters u hu =>
    refine iff_of_true (kept_of_same hkept rfl fun hends => ?_) trivial
    have hin : s.drive.membership = .fleet := by simpa [Event.ends] using hends
    exact congrArg Drive.willLeave (if_pos hin)
  | other x =>
    refine iff_of_true (kept_of_same hkept rfl fun _ => ?_) trivial
    exact Drive.willLeave_congr (drain_onDrive (fun u hu => x.change _ u hu) (x.drop _))

/-- **The flag is kept exactly in the runs whose requests agree.**

**Proof sketch.** By the exactness rule: each event keeps the flag exactly when it agrees. -/
theorem kept_iff_agrees (newV5 : String → Uuid) (d : Drive) (es : List Event) :
    Runs.Throughout (step newV5) Kept ⟨d, false⟩ es ↔
      Runs.Each (step newV5) Agrees ⟨d, false⟩ es :=
  Runs.throughout_iff_each (fun _ _ hkept hok => (kept_step_iff hkept).mpr hok)
    (fun _ h => h) (fun _ _ hkept hno h => hno ((kept_step_iff hkept).mp h)) nofun

/-- A drive of the fleet that fails. -/
def failing : Drive :=
  { Drive.testFixture ⟨⟨7⟩⟩ "sdb" with membership := .fleet, health := ⟨some .failing⟩ }

/-- An operator drains it without asking it to leave; while that runs its health asks for a drain
that retires it; the next poll finds it empty. -/
def adopted : List Event :=
  [.start "operator" false ⟨.ok none, .ok { state := "running" }⟩,
    .request "health" true ⟨.ok none, .error ""⟩,
    .poll (.ok (some { state := "empty" })) (.ok ())]

/-- **Not in every run**: the running drain is adopted without the wish to leave, and the failing
drive stays in the fleet when it is empty. -/
theorem wish_lost : ¬ (∀ (newV5 : String → Uuid) (d : Drive) (es : List Event),
    Runs.Throughout (step newV5) Kept ⟨d, false⟩ es) ∧
    (Runs.after (step fun _ => ⟨0⟩) ⟨failing, false⟩ adopted).asked = true ∧
    (Runs.after (step fun _ => ⟨0⟩) ⟨failing, false⟩ adopted).drive.membership = .fleet :=
  ⟨fun h => absurd (h (fun _ => ⟨0⟩) failing adopted) (by decide), by decide, by decide⟩

end Retire

end StormDrive
