import Mathlib.Data.List.Perm.Basic
import Mathlib.Data.List.Sort
import Mathlib.Data.List.NodupEquivFin
import Mathlib.Data.String.Basic
import Mathlib.Logic.Function.Iterate
import StormDrive.Steps

set_option relaxedAutoImplicit false
set_option autoImplicit false

/-!
# Jobs

The jobs that `worker.rs` keeps: a job, its part for each drive, the changes made to a part under
the lock of the jobs, and what a restart does with a part that was in flight.

## Main definitions

* `DriveJob`, `DjUpdate`, `DriveJob.apply` — a drive's part of a job and its changes.
* `Jobs` — the jobs by id, with `get`, `insert`, `update` and `prune`.
* `recoverAction` — what a restart does with a drive's part.

## Main results

* `Jobs.get_insert`, `Jobs.get_update`, `Jobs.drive_updateDrive` — what a change leaves.
* `Jobs.get_prune_of_unfinished`, `Jobs.get_of_get_prune` — pruning drops finished jobs only.

## Implementation notes

The selection a job was made from, the object that asked for it and its time stamps are left out:
no modelled function reads them.
-/

namespace StormDrive

/-! ## A drive's part of a job -/

/-- Where a drive's part of a job stands. -/
inductive DjState
  | queued | running | done | failed | refused | interrupted | cancelled
  deriving DecidableEq

/-- Nothing more happens to it. -/
def DjState.finished : DjState → Bool
  | queued | running | interrupted => false
  | _ => true

/-- One drive's part of a job. -/
structure DriveJob where
  drive : DriveId
  name : String
  serial : String
  wwn : Option String
  kind : DriveKind
  state : DjState
  /-- Index of the step running or next to run. -/
  step : Nat := 0
  phase : String
  progressPct : Option Nat := none
  error : Option String := none
  /-- One line per finished step. -/
  done : List String := []
  destroyNamed : Bool
  inUseNamed : Bool
  /-- The one-time ATA user password a security erase set. -/
  ataPassword : Option String := none
  deriving DecidableEq

/-- A change to a drive's part, made under the lock of the jobs. -/
inductive DjUpdate
  | progress (pct : Option Nat) (phase : String)
  /-- All steps are done. -/
  | finish
  | cancel
  | fail (why : String)
  | interrupt (why : String)
  /-- A step is about to run. -/
  | start (phase : String)
  /-- A step has run, with its line. -/
  | stepDone (line : String)
  | password (p : Option String)
  /-- A step that went on over a restart has ended, with its line. -/
  | watched (line : String)
  /-- It was the last one. -/
  | watchedLast
  deriving DecidableEq

/-- The part after a change. -/
def DriveJob.apply (d : DriveJob) : DjUpdate → DriveJob
  | .progress pct phase =>
    { d with progressPct := if pct.isSome then pct else d.progressPct, phase := phase }
  | .finish => { d with state := .done, phase := "done", progressPct := none }
  | .cancel => { d with state := .cancelled, phase := "cancelled" }
  | .fail why => { d with state := .failed, phase := "failed", error := some why }
  | .interrupt why => { d with state := .interrupted, phase := "interrupted", error := some why }
  | .start phase => { d with state := .running, phase := phase, progressPct := none }
  | .stepDone line =>
    { d with done := d.done ++ [line], step := d.step + 1, progressPct := none }
  | .password p => { d with ataPassword := p }
  | .watched line =>
    { d with
      done := d.done ++ [line], step := d.step + 1, progressPct := none, state := .interrupted,
      phase := "interrupted",
      error := some
        "stormdrive restarted mid-job; the running step finished — resume to continue" }
  | .watchedLast => { d with state := .done, phase := "done", error := none }

/-- No change moves a part to another drive. -/
@[simp] lemma DriveJob.apply_drive (d : DriveJob) (u : DjUpdate) : (d.apply u).drive = d.drive := by
  cases u <;> rfl

/-- What a change makes of the kept password. -/
def DjUpdate.passwordAfter (u : DjUpdate) (old : Option String) : Option String :=
  match u with
  | .password p => p
  | _ => old

@[simp] lemma DriveJob.apply_ataPassword (d : DriveJob) (u : DjUpdate) :
    (d.apply u).ataPassword = u.passwordAfter d.ataPassword := by
  cases u <;> rfl

/-! ## Jobs -/

/-- The name of a job. -/
abbrev JobId := String

/-- Who asked for a job. -/
structure Requester where
  who : String
  deriving DecidableEq

/-- A job. -/
structure Job where
  id : JobId
  steps : List Step
  destroy : List String := []
  iKnowInUse : List String := []
  drives : List DriveJob
  cancel : Bool := false
  requester : Option Requester := none
  deriving DecidableEq

/-- Nothing more happens to any of its drives. -/
def Job.finished (j : Job) : Bool :=
  j.drives.all fun d => d.state.finished

/-- The jobs, in the order of their ids: each is found under its own. -/
structure Jobs where
  entries : List (JobId × Job)
  nodup : (entries.map Prod.fst).Nodup
  keyed : ∀ e ∈ entries, e.2.id = e.1

namespace Jobs

/-- No jobs. -/
def empty : Jobs := ⟨[], by simp, by simp⟩

/-- The job of an id. -/
def get (js : Jobs) (id : JobId) : Option Job :=
  (js.entries.find? fun e => e.1 = id).map Prod.snd

/-- One drive's part of a job. -/
def drive (js : Jobs) (id : JobId) (idx : Nat) : Option DriveJob :=
  (js.get id).bind fun j => j.drives[idx]?

/-- The order of entries, by id. -/
def keyLe (a b : JobId × Job) : Prop :=
  a.1.toList ≤ b.1.toList

instance : DecidableRel keyLe := fun a b => inferInstanceAs (Decidable (a.1.toList ≤ b.1.toList))

/-- A job is recorded under its id. One that was there is gone. -/
def insert (js : Jobs) (j : Job) : Jobs where
  entries := (js.entries.filter fun e => e.1 ≠ j.id).orderedInsert keyLe (j.id, j)
  nodup := by
    have hperm := (List.perm_orderedInsert keyLe (j.id, j)
      (js.entries.filter fun e => e.1 ≠ j.id)).map Prod.fst
    refine hperm.nodup_iff.mpr (List.nodup_cons.mpr ⟨?_, ?_⟩)
    · intro h
      obtain ⟨e, he, heq⟩ := List.mem_map.mp h
      simp [heq] at he
    · exact js.nodup.sublist (List.filter_sublist.map Prod.fst)
  keyed := by
    intro e he
    rw [(List.perm_orderedInsert keyLe _ _).mem_iff, List.mem_cons] at he
    rcases he with rfl | he
    · rfl
    · exact js.keyed e (List.mem_of_mem_filter he)

/-- A job changes, and keeps its id. -/
def update (js : Jobs) (id : JobId) (f : Job → Job) (hf : ∀ j, (f j).id = j.id) : Jobs where
  entries := js.entries.map fun e => if e.1 = id then (e.1, f e.2) else e
  keyed := by
    intro e he
    obtain ⟨e, hmem, rfl⟩ := List.mem_map.mp he
    have hkey := js.keyed e hmem
    by_cases h : e.1 = id
    · simp [h, hf, hkey]
    · simp [h, hkey]
  nodup := by
    have hfst : (Prod.fst ∘ fun e : JobId × Job => if e.1 = id then (e.1, f e.2) else e) =
        Prod.fst := by
      funext e
      simp only [Function.comp_apply]
      split <;> rfl
    rw [List.map_map, hfst]
    exact js.nodup

/-- One drive's part of a job changes. -/
def updateDrive (js : Jobs) (id : JobId) (idx : Nat) (u : DjUpdate) : Jobs :=
  js.update id (fun j => { j with drives := j.drives.modify idx (·.apply u) }) fun _ => rfl

/-- Every job changes, and keeps its id. -/
def updateAll (js : Jobs) (f : Job → Job) (hf : ∀ j, (f j).id = j.id) : Jobs where
  entries := js.entries.map fun e => (e.1, f e.2)
  nodup := by
    rw [List.map_map]
    exact js.nodup
  keyed := by
    intro e he
    obtain ⟨e, hmem, rfl⟩ := List.mem_map.mp he
    exact (hf _).trans (js.keyed e hmem)

/-- Jobs kept after they finish. -/
def keepJobs : Nat := 64

/-- The first finished job is dropped, when there is one. -/
def dropFinished (js : Jobs) : Jobs where
  entries := js.entries.eraseP fun e => e.2.finished
  nodup := js.nodup.sublist (List.eraseP_sublist.map Prod.fst)
  keyed e he := js.keyed e (List.eraseP_subset he)

/-- The oldest finished jobs beyond the cap are dropped. -/
def prune (js : Jobs) : Jobs :=
  dropFinished^[js.entries.length - keepJobs] js

/-! ### What a change leaves -/

variable {js : Jobs} {id id' : JobId} {j : Job}

/-- A job is found exactly when it is there. -/
lemma get_eq_some_iff : js.get id = some j ↔ (id, j) ∈ js.entries := by
  constructor
  · intro h
    obtain ⟨e, he, rfl⟩ := Option.map_eq_some_iff.mp h
    have hid : e.1 = id := by simpa using List.find?_some he
    have hmem := List.mem_of_find?_eq_some he
    rw [← hid]
    exact hmem
  · intro h
    have hex : (js.entries.find? fun e => e.1 = id).isSome := by
      rw [List.find?_isSome]
      exact ⟨(id, j), h, by simp⟩
    obtain ⟨e, he⟩ := Option.isSome_iff_exists.mp hex
    have hid : e.1 = id := by simpa using List.find?_some he
    have hmem := List.mem_of_find?_eq_some he
    have heq : e = (id, j) := List.inj_on_of_nodup_map js.nodup hmem h hid
    rw [get, he, heq]
    rfl

/-- A job is found under its own id. -/
lemma id_of_get (h : js.get id = some j) : j.id = id :=
  js.keyed _ (get_eq_some_iff.mp h)

/-- **Recording a job** leaves the others. -/
theorem get_insert (js : Jobs) (j : Job) (id' : JobId) :
    (js.insert j).get id' = if id' = j.id then some j else js.get id' := by
  have hmem : ∀ j', (id', j') ∈ (js.insert j).entries ↔
      (id', j') = (j.id, j) ∨ (id', j') ∈ js.entries ∧ id' ≠ j.id := by
    intro j'
    rw [insert, (List.perm_orderedInsert keyLe _ _).mem_iff, List.mem_cons, List.mem_filter]
    simp
  split
  · next h =>
    rw [get_eq_some_iff, hmem]
    exact .inl (by rw [h])
  · next h =>
    ext j'
    rw [get_eq_some_iff, hmem, get_eq_some_iff]
    simp [h]

/-- **A change to one job** leaves the others. -/
theorem get_update (js : Jobs) (id : JobId) (f : Job → Job) (hf : ∀ j, (f j).id = j.id)
    (id' : JobId) :
    (js.update id f hf).get id' = if id' = id then (js.get id').map f else js.get id' := by
  have hmem : ∀ j', (id', j') ∈ (js.update id f hf).entries ↔
      ∃ j, (id', j) ∈ js.entries ∧ j' = if id' = id then f j else j := by
    intro j'
    simp only [update, List.mem_map]
    constructor
    · intro h
      obtain ⟨⟨k, j⟩, he, heq⟩ := h
      dsimp only at heq
      split at heq
      · next hk =>
        cases heq
        exact ⟨j, he, by simp [hk]⟩
      · next hk =>
        cases heq
        exact ⟨j', he, by simp [hk]⟩
    · intro h
      obtain ⟨j, he, rfl⟩ := h
      refine ⟨(id', j), he, ?_⟩
      split <;> simp_all
  ext j'
  rw [get_eq_some_iff, hmem]
  split
  · rw [Option.map_eq_some_iff]
    simp only [get_eq_some_iff]
    exact ⟨fun ⟨a, h1, h2⟩ => ⟨a, h1, h2.symm⟩, fun ⟨a, h1, h2⟩ => ⟨a, h1, h2.symm⟩⟩
  · rw [get_eq_some_iff]
    simp

/-- A change to every job. -/
lemma get_updateAll (js : Jobs) (f : Job → Job) (hf : ∀ j, (f j).id = j.id) (id : JobId) :
    (js.updateAll f hf).get id = (js.get id).map f := by
  ext j'
  rw [get_eq_some_iff, Option.map_eq_some_iff]
  simp only [updateAll, List.mem_map, get_eq_some_iff, Prod.mk.injEq]
  constructor
  · intro h
    obtain ⟨⟨k, j⟩, he, rfl, rfl⟩ := h
    exact ⟨j, he, rfl⟩
  · intro h
    obtain ⟨j, he, rfl⟩ := h
    exact ⟨(id, j), he, rfl, rfl⟩

/-- A change to a drive's part keeps the job. -/
lemma get_updateDrive (js : Jobs) (id : JobId) (idx : Nat) (u : DjUpdate) (id' : JobId) :
    (js.updateDrive id idx u).get id' =
      if id' = id then
        (js.get id').map fun j => { j with drives := j.drives.modify idx (·.apply u) }
      else js.get id' :=
  get_update js id _ _ id'

/-- **A change to one drive's part** leaves the other parts. -/
theorem drive_updateDrive (js : Jobs) (id : JobId) (idx : Nat) (u : DjUpdate) (id' : JobId)
    (idx' : Nat) :
    (js.updateDrive id idx u).drive id' idx' =
      if id' = id ∧ idx' = idx then (js.drive id' idx').map (·.apply u)
      else js.drive id' idx' := by
  unfold drive
  rw [get_updateDrive]
  by_cases hid : id' = id
  · subst hid
    rcases hj : js.get id' with _ | j
    · simp
    · by_cases hidx : idx' = idx
      · simp [hidx]
      · simp [hidx, Ne.symm hidx]
  · simp [hid]

/-- Dropping a finished job leaves the unfinished ones. -/
lemma mem_dropFinished {e : JobId × Job} (h : e ∈ js.entries) (hf : e.2.finished = false) :
    e ∈ js.dropFinished.entries :=
  (List.mem_eraseP_of_neg (by simp [hf])).mpr h

lemma mem_of_mem_dropFinished {e : JobId × Job} (h : e ∈ js.dropFinished.entries) :
    e ∈ js.entries :=
  List.eraseP_subset h

/-- **Pruning keeps every unfinished job**. -/
theorem get_prune_of_unfinished (h : js.get id = some j) (hf : j.finished = false) :
    js.prune.get id = some j := by
  have hiter : ∀ (n : Nat) (js : Jobs), (id, j) ∈ js.entries →
      (id, j) ∈ (dropFinished^[n] js).entries := by
    intro n
    induction n with
    | zero => exact fun _ h => h
    | succ n ih =>
      intro js h
      rw [Function.iterate_succ_apply]
      exact ih _ (mem_dropFinished h hf)
  rw [get_eq_some_iff] at h ⊢
  exact hiter _ js h

/-- **Pruning makes no job up**. -/
theorem get_of_get_prune (h : js.prune.get id = some j) : js.get id = some j := by
  have hiter : ∀ (n : Nat) (js : Jobs), (id, j) ∈ (dropFinished^[n] js).entries →
      (id, j) ∈ js.entries := by
    intro n
    induction n with
    | zero => exact fun _ h => h
    | succ n ih =>
      intro js h
      rw [Function.iterate_succ_apply] at h
      exact mem_of_mem_dropFinished (ih _ h)
  rw [get_eq_some_iff] at h ⊢
  exact hiter _ js h

/-- A job with a part that is not finished is not finished. -/
lemma finished_eq_false {idx : Nat} {d : DriveJob} (hd : j.drives[idx]? = some d)
    (hs : d.state.finished = false) : j.finished = false :=
  List.all_eq_false.mpr ⟨d, List.mem_of_getElem? hd, by simp [hs]⟩

/-- Pruning keeps every part that is not finished. -/
lemma drive_prune_of_unfinished {idx : Nat} {d : DriveJob} (h : js.drive id idx = some d)
    (hs : d.state.finished = false) : js.prune.drive id idx = some d := by
  obtain ⟨j, hj, hd⟩ := Option.bind_eq_some_iff.mp h
  rw [drive, get_prune_of_unfinished hj (finished_eq_false hd hs)]
  exact hd

/-- Pruning makes no part up. -/
lemma drive_of_drive_prune {idx : Nat} {d : DriveJob} (h : js.prune.drive id idx = some d) :
    js.drive id idx = some d := by
  obtain ⟨j, hj, hd⟩ := Option.bind_eq_some_iff.mp h
  rw [drive, get_of_get_prune hj]
  exact hd

end Jobs

/-! ## After a restart -/

/-- What a restart does with a drive's part of a job. -/
inductive Recover
  /-- The drive is still doing it by itself: watch it to the end. -/
  | reattach
  /-- Report and wait for `resume`. -/
  | interrupt (why : String)
  | leave
  deriving DecidableEq

/-- The restart's action for a part, by the step it stands at. -/
def recoverAction (dj : DriveJob) (step : Option Step) : Recover :=
  let again (s : Step) : Recover :=
    .interrupt ("stormdrive restarted during " ++ s.name ++
      "; check the drive, then resume to run it again")
  match dj.state with
  | .running =>
    match step with
    | some (.format bs prot) =>
      if dj.kind ≠ .nvmeSsd then .reattach else again (.format bs prot)
    | some (.sanitize _) => .reattach
    | some (.securityErase _) =>
      .interrupt <| match dj.ataPassword with
        | some p =>
          "stormdrive restarted during an ATA security erase; the drive may still be erasing " ++
            "or locked with the one-time password " ++ p ++
            ". Resume checks it with IDENTIFY and erases again with that password"
        | none =>
          "stormdrive restarted during an ATA security erase, before a password was set; " ++
            "resume to run it"
    | some s => again s
    | none => .leave
  | .queued =>
    .interrupt "stormdrive restarted before this drive's next step; resume to run it"
  | _ => .leave

/-- **What is watched after a restart**: a part that reads running at a sanitize, or at a format
of a drive that is not NVMe. -/
theorem recoverAction_eq_reattach_iff (dj : DriveJob) (step : Option Step) :
    recoverAction dj step = .reattach ↔
      dj.state = .running ∧ ((∃ m, step = some (.sanitize m)) ∨
        dj.kind ≠ .nvmeSsd ∧ ∃ bs prot, step = some (.format bs prot)) := by
  unfold recoverAction
  cases dj.state with
  | running =>
    rcases step with _ | s
    · simp
    · cases s <;> simp
  | _ => simp

end StormDrive
