import Mathlib.Data.List.Sigma
import StormDrive.Daemon.Scope

set_option relaxedAutoImplicit false
set_option autoImplicit false

/-!
# The sections under the lock of the jobs

What each section makes of a job and of a drive's part of it, and what the saves keep: said once
here, so that no invariant has to take the sections apart again.

## Main definitions

* `JobOp.onJob`, `JobOp.onPart` — a job, and a part of it, after a section.

## Main results

* `get_exec_cases`, `get_exec_of_get` — the jobs after a section.
* `drive_exec_cases`, `drive_exec_of_drive` — the parts after a section.
* `saved_exec_cases`, `writing_exec_cases` — the files after a section.
-/

namespace StormDrive

open Interleave

/-! ## A job after a section -/

/-- A part that `resume` takes up. -/
def DriveJob.requeued (d : DriveJob) : DriveJob :=
  if d.state = .interrupted then { d with state := .queued, phase := "queued", error := none } else d

/-- A part after `cancel`. -/
def DriveJob.cancelled (d : DriveJob) : DriveJob :=
  if d.state = .queued ∨ d.state = .interrupted then d.apply .cancel else d

/-- A recorded job after a section. -/
def JobOp.onJob (o : JobOp) (id : JobId) (j : Job) : Job :=
  match o with
  | .change i idx u =>
    if i = id then { j with drives := j.drives.modify idx (·.apply u) } else j
  | .cancel i => if i = id then j.cancelled else j
  | .resume i who => if i = id ∧ j.cancel = false then j.resumed who else j
  | .recover => j.recovered
  | _ => j

/-- A part of a recorded job after a section. -/
def JobOp.onPart (o : JobOp) (id : JobId) (idx : Nat) (j : Job) (d : DriveJob) : DriveJob :=
  match o with
  | .change i k u => if i = id ∧ k = idx then d.apply u else d
  | .cancel i => if i = id then d.cancelled else d
  | .resume i _ => if i = id ∧ j.cancel = false then d.requeued else d
  | .recover => d.recovered j
  | _ => d

/-- No section changes the steps of a recorded job. -/
@[simp] lemma JobOp.onJob_steps (o : JobOp) (id : JobId) (j : Job) :
    (o.onJob id j).steps = j.steps := by
  unfold JobOp.onJob
  split
  · split <;> rfl
  · split <;> rfl
  · split <;> rfl
  · rfl
  · rfl

/-- No section takes a cancellation back. -/
lemma JobOp.onJob_cancel {o : JobOp} {id : JobId} {j : Job} (h : j.cancel = true) :
    (o.onJob id j).cancel = true := by
  unfold JobOp.onJob
  split
  · split <;> exact h
  · split
    · rfl
    · exact h
  · split <;> exact h
  · exact h
  · exact h

/-- A job's parts after a section. -/
lemma JobOp.onJob_drives (o : JobOp) (id : JobId) (j : Job) (idx : Nat) :
    (o.onJob id j).drives[idx]? = (j.drives[idx]?).map (o.onPart id idx j) := by
  have hnone : j.drives[idx]? = none → (o.onJob id j).drives[idx]? = none := by
    intro hd
    have hlen : (o.onJob id j).drives.length = j.drives.length := by
      unfold onJob
      split <;> (try split) <;> simp [Job.cancelled, Job.resumed, Job.recovered]
    rw [List.getElem?_eq_none_iff] at hd ⊢
    omega
  cases hd : j.drives[idx]? with
  | none => simp [hnone hd]
  | some d =>
    cases o with
    | change i k u =>
      by_cases hi : i = id
      · by_cases hk : k = idx
        · simp [onJob, onPart, hi, hk, hd]
        · simp [onJob, onPart, hi, hk, hd]
      · simp [onJob, onPart, hi, hd]
    | cancel i =>
      by_cases hi : i = id
      · simp [onJob, onPart, hi, hd, Job.cancelled, DriveJob.cancelled]
      · simp [onJob, onPart, hi, hd]
    | resume i who =>
      by_cases hi : i = id ∧ j.cancel = false
      · simp [onJob, onPart, hi, hd, Job.resumed, DriveJob.requeued]
      · simp [onJob, onPart, hi, hd]
    | recover => simp [onJob, onPart, hd, Job.recovered]
    | _ => simp [onJob, onPart, hd]

/-! ## The jobs after a section -/

section Exec

variable {o : JobOp} {e : Env} {s s' : JobStore} {a : o.Ans} {id : JobId} {j : Job}

/-- A job that is not there is not changed. -/
lemma Jobs.get_update_map (js : Jobs) (id : JobId) (f : Job → Job) (hf : ∀ j, (f j).id = j.id)
    (id' : JobId) :
    (js.update id f hf).get id' = (js.get id').map fun j => if id = id' then f j else j := by
  rw [Jobs.get_update]
  by_cases h : id' = id
  · simp [h]
  · simp [h, Ne.symm h]

/-- A section that neither records nor drops jobs. -/
lemma get_exec_map (h : o.exec e s = some (a, s')) (hins : ∀ j, o ≠ .insert j)
    (hsnap : o ≠ .snapshot) : s'.jobs.get id = (s.jobs.get id).map (o.onJob id) := by
  cases o with
  | insert j => exact absurd rfl (hins j)
  | snapshot => exact absurd rfl hsnap
  | change i idx u =>
    cases h
    exact Jobs.get_update_map _ _ _ _ _
  | cancel i =>
    cases h
    exact Jobs.get_update_map _ _ _ Job.cancelled_id _
  | recover =>
    cases h
    exact Jobs.get_updateAll _ _ Job.recovered_id _
  | resume i who =>
    have hkeep : i ≠ id → (JobOp.resume i who).onJob id = fun j => j := by
      intro hi
      funext j
      simp [JobOp.onJob, hi]
    have hsame : (s.jobs.get i).all Job.cancel = true →
        s.jobs.get id = (s.jobs.get id).map ((JobOp.resume i who).onJob id) := by
      intro hc
      by_cases hi : i = id
      · subst hi
        cases hget : s.jobs.get i with
        | none => rfl
        | some j =>
          rw [hget] at hc
          simp only [Option.all_some] at hc
          simp [JobOp.onJob, hc]
      · rw [hkeep hi]
        exact Option.map_id'.symm
    simp only [JobOp.exec] at h
    split at h
    · next hget =>
      cases h
      exact hsame (by simp [hget])
    · next j' hget =>
      split at h
      · next hc =>
        cases h
        exact hsame (by simp [hget, hc])
      · next hc =>
        cases h
        rw [Jobs.get_update_map]
        by_cases hi : i = id
        · subst hi
          simp [hget, JobOp.onJob, hc]
        · rw [hkeep hi]
          simp [hi]
  | write =>
    simp only [JobOp.exec] at h
    split at h <;> cases h <;> exact Option.map_id'.symm
  | _ =>
    cases h
    exact Option.map_id'.symm

/-- **A job that is there after a section** was recorded by it, or was there before. -/
theorem get_exec_cases (h : o.exec e s = some (a, s')) {j' : Job} (hj : s'.jobs.get id = some j') :
    o = .insert j' ∨ ∃ j, s.jobs.get id = some j ∧ j' = o.onJob id j := by
  by_cases hins : ∃ j, o = .insert j
  · obtain ⟨j, rfl⟩ := hins
    cases h
    rw [Jobs.get_insert] at hj
    split at hj
    · cases hj
      exact .inl rfl
    · exact .inr ⟨j', hj, rfl⟩
  · by_cases hsnap : o = .snapshot
    · subst hsnap
      simp only [JobOp.exec] at h
      split at h
      · cases h
      · cases h
        exact .inr ⟨j', Jobs.get_of_get_prune hj, rfl⟩
    · rw [get_exec_map h (fun j hj => hins ⟨j, hj⟩) hsnap] at hj
      obtain ⟨j, hget, rfl⟩ := Option.map_eq_some_iff.mp hj
      exact .inr ⟨j, hget, rfl⟩

/-- **A job that is there before a section** is there after it, unless it is finished and pruned, or
another is recorded under its id. -/
theorem get_exec_of_get (h : o.exec e s = some (a, s')) (hj : s.jobs.get id = some j)
    (hins : ∀ j', j'.id = id → o ≠ .insert j') (hkeep : o = .snapshot → j.finished = false) :
    s'.jobs.get id = some (o.onJob id j) := by
  by_cases hins' : ∃ j, o = .insert j
  · obtain ⟨j', rfl⟩ := hins'
    cases h
    have hi : id ≠ j'.id := fun hi => hins j' hi.symm rfl
    rw [Jobs.get_insert, if_neg hi, hj]
    rfl
  · by_cases hsnap : o = .snapshot
    · subst hsnap
      simp only [JobOp.exec] at h
      split at h
      · cases h
      · cases h
        exact Jobs.get_prune_of_unfinished hj (hkeep rfl)
    · rw [get_exec_map h (fun j hj => hins' ⟨j, hj⟩) hsnap, hj]
      rfl

/-- **A part that is there after a section** was recorded by it, or was there before. -/
theorem drive_exec_cases (h : o.exec e s = some (a, s')) {idx : Nat} {d' : DriveJob}
    (hd : s'.jobs.drive id idx = some d') :
    (∃ j', o = .insert j' ∧ j'.id = id ∧ j'.drives[idx]? = some d') ∨
      ∃ j d, s.jobs.get id = some j ∧ j.drives[idx]? = some d ∧ d' = o.onPart id idx j d := by
  obtain ⟨j', hj', hd'⟩ := Option.bind_eq_some_iff.mp hd
  rcases get_exec_cases h hj' with hins | ⟨j, hj, rfl⟩
  · exact .inl ⟨j', hins, Jobs.id_of_get hj', hd'⟩
  · rw [JobOp.onJob_drives] at hd'
    obtain ⟨d, hpart, rfl⟩ := Option.map_eq_some_iff.mp hd'
    exact .inr ⟨j, d, hj, hpart, rfl⟩

/-- **A part that is there before a section** is there after it, unless its job is finished and
pruned, or another is recorded under the id. -/
theorem drive_exec_of_drive (h : o.exec e s = some (a, s')) {idx : Nat} {d : DriveJob}
    (hj : s.jobs.get id = some j) (hd : j.drives[idx]? = some d) (hins : ∀ j', j'.id = id → o ≠ .insert j')
    (hkeep : o = .snapshot → j.finished = false) :
    s'.jobs.drive id idx = some (o.onPart id idx j d) := by
  rw [Jobs.drive, get_exec_of_get h hj hins hkeep, Option.bind_some, JobOp.onJob_drives, hd]
  rfl

/-! ## The files after a section -/

/-- The file changes only by a write that goes through, of the snapshot that is being written. -/
theorem saved_exec_cases (h : o.exec e s = some (a, s')) :
    s'.saved = s.saved ∨ o = .write ∧ e.ok = true ∧ s.writing = some s'.saved := by
  cases o with
  | write =>
    simp only [JobOp.exec] at h
    split at h
    · next snap hw =>
      cases h
      by_cases hok : e.ok = true
      · exact .inr ⟨rfl, hok, by simp [hw, hok]⟩
      · exact .inl (by simp [hok])
    · cases h
      exact .inl rfl
  | snapshot =>
    simp only [JobOp.exec] at h
    split at h
    · cases h
    · cases h
      exact .inl rfl
  | resume i who =>
    simp only [JobOp.exec] at h
    split at h
    · cases h
      exact .inl rfl
    · split at h <;> cases h <;> exact .inl rfl
  | _ =>
    cases h
    exact .inl rfl

/-- A snapshot is taken while none is being written, of the jobs as they are then, and is gone when
it has been written. -/
theorem writing_exec_cases (h : o.exec e s = some (a, s')) :
    s'.writing = s.writing ∨
      o = .snapshot ∧ s.writing = none ∧ s'.jobs = s.jobs.prune ∧ s'.writing = some s'.jobs ∨
      o = .write ∧ s'.writing = none ∧ (e.ok = true → s.writing = some s'.saved ∨
        s.writing = none) := by
  cases o with
  | write =>
    simp only [JobOp.exec] at h
    split at h
    · next snap hw =>
      cases h
      exact .inr (.inr ⟨rfl, rfl, fun hok => .inl (by simp [hw, hok])⟩)
    · next hw =>
      cases h
      exact .inl rfl
  | snapshot =>
    simp only [JobOp.exec] at h
    split at h
    · cases h
    · next hw =>
      cases h
      exact .inr (.inl ⟨rfl, hw, rfl, rfl⟩)
  | resume i who =>
    simp only [JobOp.exec] at h
    split at h
    · cases h
      exact .inl rfl
    · split at h <;> cases h <;> exact .inl rfl
  | _ =>
    cases h
    exact .inl rfl

end Exec

/-! ## Lists of parts -/

section Parts

/-- The places of a list's elements that satisfy a condition. -/
def places {α : Type} (p : α → Bool) (l : List α) : List Nat :=
  l.zipIdx.filterMap fun e => if p e.1 then some e.2 else none

lemma mem_places {α : Type} {p : α → Bool} {l : List α} {i : Nat} :
    i ∈ places p l ↔ ∃ a, l[i]? = some a ∧ p a = true := by
  simp only [places, List.mem_filterMap, Option.ite_none_right_eq_some, Option.some.injEq]
  constructor
  · intro h
    obtain ⟨⟨a, k⟩, hmem, hp, rfl⟩ := h
    exact ⟨a, List.mem_zipIdx_iff_getElem?.mp hmem, hp⟩
  · intro h
    obtain ⟨a, hget, hp⟩ := h
    exact ⟨(a, i), List.mem_zipIdx_iff_getElem?.mpr hget, hp, rfl⟩

/-- What a partial map keeps of a list's elements are elements of the list. -/
lemma map_filterMap_sublist {α β γ : Type} {f : α → Option β} {g : β → γ} {h : α → γ}
    (hfg : ∀ a b, f a = some b → g b = h a) (l : List α) :
    ((l.filterMap f).map g).Sublist (l.map h) := by
  induction l with
  | nil => simp
  | cons a l ih =>
    rw [List.filterMap_cons]
    split
    · exact ih.trans (List.sublist_cons_self _ _)
    · next b hb =>
      rw [List.map_cons, List.map_cons, hfg a b hb]
      exact ih.cons_cons _

lemma nodup_places {α : Type} (p : α → Bool) (l : List α) : (places p l).Nodup := by
  have hsub : ((places p l).map id).Sublist (l.zipIdx.map Prod.snd) := by
    refine map_filterMap_sublist (fun e b hb => ?_) _
    obtain ⟨-, hb⟩ := Option.ite_none_right_eq_some.mp hb
    cases hb
    rfl
  rw [List.map_id] at hsub
  exact (List.nodup_zipIdx_map_snd l).sublist hsub

lemma runnable_eq (djs : List DriveJob) :
    runnable djs = places (fun d => decide (d.state = .queued)) djs := by
  simp [runnable, places]

lemma resumable_eq (j : Job) :
    j.resumable = places (fun d => decide (d.state = .interrupted)) j.drives := by
  simp [Job.resumable, places]

/-- The parts that `recover` re-attaches, over all jobs. -/
def Jobs.reattached (js : Jobs) : List (JobId × Nat × DriveId × Step) :=
  js.entries.flatMap fun e => e.2.reattached

/-- What is re-attached: a part on record, at a step that the drive does by itself. -/
lemma mem_reattached {js : Jobs} {e : JobId × Nat × DriveId × Step} (h : e ∈ js.reattached) :
    ∃ j d, js.get e.1 = some j ∧ j.drives[e.2.1]? = some d ∧
      recoverAction d j.steps[d.step]? = .reattach := by
  obtain ⟨⟨id, j⟩, hj, he⟩ := List.mem_flatMap.mp h
  obtain ⟨⟨d, idx⟩, hd, he⟩ := List.mem_filterMap.mp he
  dsimp only at he
  split at he
  · next hact =>
    obtain ⟨s, -, rfl⟩ := Option.map_eq_some_iff.mp he
    have hget : js.get j.id = some j := by
      rw [js.keyed _ hj]
      exact Jobs.get_eq_some_iff.mpr hj
    exact ⟨j, d, hget, List.mem_zipIdx_iff_getElem?.mp hd, hact⟩
  · cases he

/-- Each part is re-attached once. -/
lemma nodup_reattached (js : Jobs) :
    (js.reattached.map fun e => (e.1, e.2.1)).Nodup := by
  have hjob : ∀ j : Job, ((j.reattached.map fun e => (e.1, e.2.1)).Sublist
      (j.drives.zipIdx.map fun e => (j.id, e.2))) := by
    intro j
    refine map_filterMap_sublist (fun e b hb => ?_) _
    split at hb
    · obtain ⟨s, -, rfl⟩ := Option.map_eq_some_iff.mp hb
      rfl
    · cases hb
  rw [Jobs.reattached, List.map_flatMap, List.nodup_flatMap]
  constructor
  · intro e _
    refine List.Nodup.sublist (hjob e.2) ?_
    have hsnd : (e.2.drives.zipIdx.map fun x => (e.2.id, x.2)) =
        (e.2.drives.zipIdx.map Prod.snd).map fun i => (e.2.id, i) := by
      rw [List.map_map]
      rfl
    rw [hsnd]
    exact (List.nodup_zipIdx_map_snd _).map fun a b hab => (Prod.mk.inj hab).2
  · have hpair := (List.pairwise_map.mp js.nodup)
    refine hpair.imp_of_mem fun {a b} ha hb hab => ?_
    intro p hpa hpb
    obtain ⟨x, -, hx⟩ := List.mem_map.mp ((hjob a.2).subset hpa)
    obtain ⟨y, -, hy⟩ := List.mem_map.mp ((hjob b.2).subset hpb)
    refine hab ?_
    rw [← js.keyed a ha, ← js.keyed b hb]
    rw [← hy] at hx
    exact (Prod.mk.inj hx).1

end Parts

/-! ## The operations -/

section Op

variable {newV5 : String → Uuid} {e : Env} {s s' : State}

/-- An operation that is no section of the jobs leaves them. -/
lemma store_eq_of_ne_job {o : Op} {a : o.Ans} (ho : ∀ oj, o ≠ .job oj)
    (h : o.exec newV5 e s = some (a, s')) : s'.store = s.store := by
  cases o with
  | job o => exact absurd rfl (ho o)
  | query o =>
    cases h
    rfl
  | engine o =>
    cases h
    rfl
  | spawn r =>
    cases h
    rfl
  | _ =>
    obtain ⟨out, -, hout⟩ := Option.map_eq_some_iff.mp h
    cases hout
    rfl

/-- What was sent before the last restart stays. -/
lemma sentBefore_exec {o : Op} {a : o.Ans} (h : o.exec newV5 e s = some (a, s')) :
    s'.hw.sentBefore = s.hw.sentBefore := by
  cases o with
  | device o =>
    obtain ⟨⟨a', hw⟩, hex, hout⟩ := Option.map_eq_some_iff.mp h
    cases hout
    cases o with
    | openNode node want access =>
      simp only [DeviceOp.exec] at hex
      split at hex <;> cases hex <;> rfl
    | send dev cmd step =>
      have htook : ∀ hw : Hardware, (hw.took dev cmd step).sentBefore = hw.sentBefore := by
        intro hw
        unfold Hardware.took
        cases cmd <;> rfl
      simp only [DeviceOp.exec] at hex
      split at hex
      · split at hex <;> cases hex
        rfl
      · split at hex
        · cases hex
          exact htook _
        · split at hex <;> cases hex
          rfl
    | await dev =>
      simp only [DeviceOp.exec] at hex
      split at hex
      · split at hex <;> cases hex
        rfl
      · cases hex
        rfl
    | _ =>
      cases hex
      rfl
  | query o =>
    cases h
    rfl
  | engine o =>
    cases h
    rfl
  | spawn r =>
    cases h
    rfl
  | _ =>
    obtain ⟨out, -, hout⟩ := Option.map_eq_some_iff.mp h
    cases hout
    rfl

/-- A section of the jobs changes nothing else. -/
lemma exec_job {o : JobOp} {a : o.Ans} (h : (Op.job o).exec newV5 e s = some (a, s')) :
    o.exec e s.store = some (a, s'.store) ∧ s' = { s with store := s'.store } := by
  obtain ⟨⟨a', st⟩, hex, hout⟩ := Option.map_eq_some_iff.mp h
  cases hout
  exact ⟨hex, rfl⟩

end Op

end StormDrive
