import StormDrive.Daemon.InHand

set_option relaxedAutoImplicit false
set_option autoImplicit false

/-!
# What is recorded as finished over a restart

A step that a drive does by itself goes on while the daemon restarts, and `watch` records it as
finished when the drive is done. Which step that is, `recover` reads from jobs.json: the step at
which the part reads Running.

## Main definitions

* `NoFalseCompletion` — what is recorded as finished over a restart was sent to a drive before it.
* `SentWhenStopped` — whatever the file shows as going on has been sent when the daemon stops.

## Main results

* `noFalseCompletion_of_sent` — with such restarts, nothing is falsely recorded as finished.
-/

namespace StormDrive

open Interleave

section Property

variable (cfg : Settings) (newV5 : String → Uuid)

/-- **No false completion over a restart**, in runs whose steps meet the condition: a step that a
watch records as finished had its command sent before the restart. -/
def NoFalseCompletion (ok : Condition Op Op.Ans State World Req Hold) : Prop :=
  ∀ (s : State) (es : List (Interleave.Event Op Op.Ans World Req)) (c c' : Config Op Op.Ans State Req Hold)
    (i : Nat) (job : JobId) (idx : Nat) (line : String) (a : Option DriveJob) (d : DriveJob),
    Run (daemon cfg newV5) holdTracer ok ⟨s, []⟩ es c →
    Interleave.Step (daemon cfg newV5) holdTracer c
      (.turn i (.job (.change job idx (.watched line))) a) c' →
    c.state.store.jobs.drive job idx = some d → ⟨job, idx, d.step⟩ ∈ c.state.hw.sentBefore

/-- What jobs reads as going on at a drive by itself has its command among those sent. -/
def AllSent (js : Jobs) (sent : List StepRef) : Prop :=
  ∀ id idx j d, js.get id = some j → j.drives[idx]? = some d →
    recoverAction d j.steps[d.step]? = .reattach → ⟨id, idx, d.step⟩ ∈ sent

/-- The daemon stops only when every part that jobs.json shows Running, at a sanitize or at a format
of a drive that is not NVMe, has had that step's command sent. -/
def SentWhenStopped : Condition Op Op.Ans State World Req Hold
  | s, _, .crash => AllSent s.store.saved s.hw.sent
  | s, ms, e => FreshIds s ms e

end Property

/-! ## The watched parts -/

/-- A part that is watched stands at a step that was sent before the restart, and until its section
the recovery finds no other. -/
structure Sent (s : State) (ms : List Hold) : Prop where
  watched : ∀ l, .watching l ∈ ms → ∀ p ∈ l, ∀ d, s.store.jobs.drive p.1 p.2 = some d →
    ⟨p.1, p.2, d.step⟩ ∈ s.hw.sentBefore
  read : .recovering ∈ ms → AllSent s.store.jobs s.hw.sentBefore

section Section

variable {s s' : State} {ms : List Hold} {i : Nat} {m : Hold} {o : JobOp} {a : o.Ans} {e : Env}

/-- A section leaves the step of a part, unless it ends that step or records another job. -/
lemma step_eq_of_drive_exec {st st' : JobStore} {p : JobId × Nat} {d' : DriveJob}
    (hex : o.exec e st = some (a, st')) (hd' : st'.jobs.drive p.1 p.2 = some d')
    (hins : ∀ j, o = .insert j → p.1 ≠ j.id)
    (hends : ∀ line, o ≠ .change p.1 p.2 (.stepDone line) ∧ o ≠ .change p.1 p.2 (.watched line)) :
    ∃ d, st.jobs.drive p.1 p.2 = some d ∧ d'.step = d.step := by
  rcases drive_exec_cases hex hd' with ⟨j', ho, hid, -⟩ | ⟨j, d, hj, hd, rfl⟩
  · exact absurd hid.symm (hins j' ho)
  · refine ⟨d, by rw [Jobs.drive, hj]; exact hd, ?_⟩
    cases o with
    | change job idx u =>
      simp only [JobOp.onPart]
      by_cases hp : job = p.1 ∧ idx = p.2
      · rw [if_pos hp]
        cases u with
        | stepDone line => exact absurd (by rw [hp.1, hp.2]) (hends line).1
        | watched line => exact absurd (by rw [hp.1, hp.2]) (hends line).2
        | _ => rfl
      · rw [if_neg hp]
    | cancel id =>
      simp only [JobOp.onPart, DriveJob.cancelled]
      split
      · split <;> rfl
      · rfl
    | resume id who =>
      simp only [JobOp.onPart, DriveJob.requeued]
      split
      · split <;> rfl
      · rfl
    | recover =>
      simp only [JobOp.onPart, DriveJob.recovered]
      split <;> rfl
    | _ => rfl

/-- Before the section of the recovery no task changes a job. -/
lemma get_of_get_exec {st st' : JobStore} (hm : m = .idle ∨ m = .recovering)
    (hmay : m.may (.job o)) (hrec : o ≠ .recover) (hex : o.exec e st = some (a, st')) {id : JobId}
    {j : Job} (hj : st'.jobs.get id = some j) : st.jobs.get id = some j := by
  rcases get_exec_cases hex hj with ho | ⟨j', hj', rfl⟩
  · subst ho
    rcases hm with rfl | rfl <;> cases hmay.1
  · have hsame : o.onJob id j' = j' := by
      cases o with
      | change job idx u =>
        cases u <;> rcases hm with rfl | rfl <;> simp [Hold.may] at hmay
      | cancel id => rcases hm with rfl | rfl <;> cases hmay
      | resume id who => rcases hm with rfl | rfl <;> cases hmay
      | recover => exact absurd rfl hrec
      | _ => rfl
    rw [hsame]
    exact hj'

/-- But for the recovery, a section gives no task a part to watch. -/
lemma watching_of_next (hrec : o ≠ .recover) {l : List (JobId × Nat)}
    (h : m.next (.job o) a = .watching l) : ∃ l', m = .watching l' ∧ l ⊆ l' := by
  have hreleased : m.released = .watching l → ∃ l', m = .watching l' ∧ l ⊆ l' := by
    intro h
    cases m with
    | watching l' =>
      cases h
      exact ⟨l', rfl, List.nil_subset _⟩
    | _ => cases h
  cases o with
  | recover => exact absurd rfl hrec
  | insert j => cases h
  | resume id who =>
    cases a with
    | error why => exact ⟨l, h, List.Subset.refl _⟩
    | ok idxs => cases h
  | change job idx u =>
    simp only [Hold.next] at h
    split at h
    · exact hreleased h
    · exact ⟨l, h, List.Subset.refl _⟩
  | head job idx =>
    cases a with
    | none => exact hreleased h
    | some x => exact ⟨l, h, List.Subset.refl _⟩
  | poll job idx =>
    simp only [Hold.next, Hold.polled] at h
    split at h
    · split at h
      · exact ⟨l, h, List.Subset.refl _⟩
      · exact hreleased h
    · exact hreleased h
  | _ => exact ⟨l, h, List.Subset.refl _⟩

/-- The recovery takes up parts whose steps were sent. -/
lemma Sent.recover (hS : Sent s ms) (hrec : .recovering ∈ ms) {a : JobOp.recover.Ans}
    (hst : JobOp.recover.exec e s.store = some (a, s'.store)) {p : JobId × Nat}
    (hp : p ∈ a.1.map fun e => (e.1, e.2.1)) {d' : DriveJob}
    (hd' : s'.store.jobs.drive p.1 p.2 = some d') : ⟨p.1, p.2, d'.step⟩ ∈ s.hw.sentBefore := by
  obtain ⟨rfl, hstore⟩ := Prod.mk.inj (Option.some.inj hst)
  obtain ⟨e, he, rfl⟩ := List.mem_map.mp hp
  obtain ⟨j, d, hj, hd, hact⟩ := mem_reattached he
  have hget : s'.store.jobs.get e.1 = some j.recovered := by
    rw [← hstore]
    exact (Jobs.get_updateAll _ _ Job.recovered_id _).trans (by rw [hj]; rfl)
  have hsame : d.recovered j = d := by rw [DriveJob.recovered, hact]
  rw [Jobs.drive, hget, Option.bind_some] at hd'
  simp only [Job.recovered, List.getElem?_map, hd, Option.map_some, hsame,
    Option.some.injEq] at hd'
  subst hd'
  exact hS.read hrec _ _ j d hj hd hact

/-- **A section keeps the watched parts at their steps.** -/
lemma Sent.job (hS : Sent s ms) (hJ : InHand s ms) (hm : ms[i]? = some m)
    (hmay : m.may (.job o)) (hst : o.exec e s.store = some (a, s'.store))
    (hsent : s'.hw.sentBefore = s.hw.sentBefore) (hok : FreshIds s ms (.turn i (.job o) a)) :
    Sent s' (ms.set i (m.next (.job o) a)) := by
  have hmem : m ∈ ms := List.mem_of_getElem? hm
  have hins : ∀ n ∈ ms, ∀ p ∈ n.parts, ∀ j, o = .insert j → p.1 ≠ j.id := by
    rintro n hn p hp j rfl
    exact hok n hn p hp
  have hstep : ∀ l, .watching l ∈ ms → ∀ p ∈ l, ∀ d', s'.store.jobs.drive p.1 p.2 = some d' →
      (∀ line, o ≠ .change p.1 p.2 (.stepDone line) ∧ o ≠ .change p.1 p.2 (.watched line)) →
      ⟨p.1, p.2, d'.step⟩ ∈ s'.hw.sentBefore := by
    intro l hl p hp d' hd' hends
    obtain ⟨d, hd, heq⟩ := step_eq_of_drive_exec hst hd' (hins _ hl p hp) hends
    rw [hsent, heq]
    exact hS.watched l hl p hp d hd
  constructor
  · suffices hall : ∀ n ∈ ms.set i (m.next (.job o) a), ∀ l, n = .watching l → ∀ p ∈ l, ∀ d,
        s'.store.jobs.drive p.1 p.2 = some d → ⟨p.1, p.2, d.step⟩ ∈ s'.hw.sentBefore from
      fun l hl => hall _ hl l rfl
    refine forall_mem_set (fun l hl p hp d' hd' => ?_) fun j n hj hn l hl p hp d' hd' => ?_
    · by_cases hrec : o = .recover
      · subst hrec
        obtain rfl : m = .recovering := hmay
        cases hl
        rw [hsent]
        exact hS.recover hmem hst hp hd'
      · obtain ⟨l', rfl, hsub⟩ := watching_of_next hrec hl
        refine hstep l' hmem p (hsub hp) d' hd' fun line => ⟨?_, ?_⟩
        · rintro rfl
          cases hmay
        · rintro rfl
          cases hl
          cases hp
    · subst hl
      refine hstep l (List.mem_of_getElem? hn) p hp d' hd' fun line => ⟨?_, ?_⟩
      · rintro rfl
        obtain rfl : m = .driving [p] := hmay
        exact hj (hJ.exclusive.eq_of_mem hn hm hp (List.mem_singleton_self p))
      · rintro rfl
        obtain rfl : m = .watching [p] := hmay
        exact hj (hJ.exclusive.eq_of_mem hn hm hp (List.mem_singleton_self p))
  · intro hrec'
    have hrec : .recovering ∈ ms := by
      rcases List.mem_or_eq_of_mem_set hrec' with h | h
      · exact h
      · rw [← eq_recovering_of_next h.symm]
        exact hmem
    have hquiet : m = .idle ∨ m = .recovering := by
      by_contra hno
      exact hJ.recovering_notMem hm (fun h => hno (.inl h)) (fun h => hno (.inr h)) hrec
    have hne : o ≠ .recover := by
      rintro rfl
      obtain rfl : m = .recovering := hmay
      obtain ⟨k, hk⟩ := List.getElem?_of_mem hrec'
      by_cases hki : k = i
      · subst hki
        have hlt : k < ms.length := (List.getElem?_eq_some_iff.mp hm).1
        rw [List.getElem?_set_self hlt] at hk
        cases hk
      · rw [List.getElem?_set_ne (Ne.symm hki)] at hk
        cases hJ.alone i hm k _ hki hk
    intro id idx j d hj hd hact
    rw [hsent]
    exact hS.read hrec id idx j d (get_of_get_exec hquiet hmay hne hst hj) hd hact

end Section

section Keeps

variable {cfg : Settings} {newV5 : String → Uuid}

/-- What leaves the jobs and what was sent before leaves the watched parts. -/
lemma Sent.of_same {s s' : State} {ms : List Hold} (hS : Sent s ms)
    (hstore : s'.store = s.store) (hsent : s'.hw.sentBefore = s.hw.sentBefore) : Sent s' ms := by
  constructor
  · rw [hstore, hsent]
    exact hS.watched
  · rw [hstore, hsent]
    exact hS.read

/-- A task is added that watches nothing new. -/
lemma Sent.concat {s : State} {ms : List Hold} {child : Hold} (hS : Sent s ms)
    (hrec : child ≠ .recovering) (hwatch : ∀ l, child = .watching l → ∀ p ∈ l, ∃ l',
      .watching l' ∈ ms ∧ p ∈ l') : Sent s (ms ++ [child]) := by
  constructor
  · intro l hl p hp
    rcases List.mem_append.mp hl with hl | hl
    · exact hS.watched l hl p hp
    · obtain ⟨l', hl', hp'⟩ := hwatch l (List.mem_singleton.mp hl).symm p hp
      exact hS.watched l' hl' p hp'
  · intro h
    rcases List.mem_append.mp h with h | h
    · exact hS.read h
    · exact absurd (List.mem_singleton.mp h).symm hrec

/-- **The watched parts stay at steps that were sent**, when the daemon stops only so. -/
theorem keeps_sent :
    Keeps (daemon cfg newV5) holdProtocol SentWhenStopped fun s ms => InHand s ms ∧ Sent s ms := by
  have hfresh : ∀ s ms e, SentWhenStopped s ms e → FreshIds s ms e := by
    intro s ms e h
    cases e with
    | crash => trivial
    | _ => exact h
  refine (keeps_inHand hfresh).and ?_ ?_ ?_ ?_
  · intro s ms r _ hS hr _
    have hof : Hold.of r = .client [] := by
      obtain ⟨-, hext⟩ := Bool.and_eq_true_iff.mp hr
      cases r <;> first | rfl | cases hext
    change Sent s (ms ++ [Hold.of r])
    rw [hof]
    exact hS.concat (by simp) (by simp)
  · intro s ms i m o e a s' hJ hS hm hmay hex hok
    have hex : o.exec newV5 e s = some (a, s') := hex
    have hsent := sentBefore_exec hex
    have hsame : holdProtocol.next m o a = m → o.spawned = none → (∀ oj, o ≠ .job oj) →
        Sent s' (ms.set i (holdProtocol.next m o a) ++
          ((daemon cfg newV5).spawned o).toList.map (holdProtocol.child m)) := by
      intro hnext hspawn hjob
      have hS' : Sent s' ms := hS.of_same (store_eq_of_ne_job hjob hex) hsent
      simpa [daemon, hspawn, hnext, set_of_getElem? hm] using hS'
    cases o with
    | job o =>
      have hnext : holdProtocol.next m (.job o) a = m.next (.job o) a := rfl
      simpa [daemon, Op.spawned, hnext] using
        hS.job hJ hm hmay (exec_job hex).1 hsent (hfresh _ _ _ hok)
    | spawn r =>
      cases hex
      have hmem : m ∈ ms := List.mem_of_getElem? hm
      have hof : Hold.of r ≠ .recovering := by
        cases r with
        | recover => cases hmay
        | _ => simp [Hold.of]
      have hchild : Sent s (ms ++ [Hold.of r]) := by
        refine hS.concat hof fun l hl p hp => ?_
        cases r with
        | watch job idx id step =>
          obtain ⟨l', rfl⟩ := hmay
          cases hl
          exact ⟨_, hmem, by simpa using .inl (List.mem_singleton.mp hp)⟩
        | _ => cases hl
      have hhanded : ∀ l, holdProtocol.next m (.spawn r) () = .watching l →
          ∃ l', m = .watching l' ∧ l ⊆ l' := by
        intro l hl
        cases m with
        | watching l' =>
          refine ⟨l', rfl, ?_⟩
          cases r <;> cases hl <;> first | exact List.Subset.refl _ | exact List.tail_subset _
        | _ => cases r <;> cases hl
      constructor
      · intro l hl p hp
        rcases List.mem_append.mp hl with hl | hl
        · rcases List.mem_or_eq_of_mem_set hl with hl | hl
          · exact hS.watched l hl p hp
          · obtain ⟨l', rfl, hsub⟩ := hhanded l hl.symm
            exact hS.watched l' hmem p (hsub hp)
        · exact hchild.watched l (List.mem_append_right ms hl) p hp
      · intro hrec
        refine hS.read ?_
        rcases List.mem_append.mp hrec with hrec | hrec
        · rcases List.mem_or_eq_of_mem_set hrec with hrec | hrec
          · exact hrec
          · rw [← eq_recovering_of_next hrec.symm]
            exact hmem
        · exact absurd (List.mem_singleton.mp hrec).symm hof
    | sync o => exact hsame rfl rfl (by simp)
    | record o => exact hsame rfl rfl (by simp)
    | device o => exact hsame rfl rfl (by simp)
    | query o => exact hsame rfl rfl (by simp)
    | engine o => exact hsame rfl rfl (by simp)
  · intro s ms w s' _ hS hw _
    refine hS.of_same ?_ ?_
    · cases w <;> cases hw <;> rfl
    · cases w <;> cases hw <;> rfl
  · intro s ms _ _ hok
    refine ⟨fun l hl => ?_, fun _ => hok⟩
    cases List.mem_singleton.mp hl

end Keeps

/-! ## The results -/

section Results

variable {cfg : Settings} {newV5 : String → Uuid}

/-- **Nothing is falsely recorded as finished over a restart**, when the daemon stops only with
every command sent whose step the file shows as going on.

**Proof sketch.** The recovery reads the parts to watch from the file (`Sent.read`), and hands each
to a task of its own. No other task changes the step of a part that is in hand
(`InHand.exclusive`), so the step that a watch records as finished is the one that was read
(`keeps_sent`). -/
theorem noFalseCompletion_of_sent (cfg : Settings) (newV5 : String → Uuid) :
    NoFalseCompletion cfg newV5 SentWhenStopped := by
  intro s es c c' i job idx line a d hrun hstep hd
  have hgood : Good holdProtocol (fun s ms => InHand s ms ∧ Sent s ms) c := by
    refine keeps_sent.run (good_idle ⟨inHand_nil s, ?_, ?_⟩) hrun
    · intro l hl
      cases hl
    · intro hl
      cases hl
  obtain ⟨m, hm, hmay⟩ := hgood.may hstep
  obtain rfl : m = .watching [(job, idx)] := hmay
  exact hgood.inv.2.watched _ (List.mem_of_getElem? hm) _ (List.mem_singleton_self _) d hd

/-- A job with a sanitize is resumed, its task saves the part as Running, and the daemon stops. The
next one finds the drive idle. -/
def stoppedEarly : List (Move Env World Req) :=
  [.crash] ++ List.replicate 6 (.turn 0 {}) ++ [.start (.resume "j1" none)] ++
    List.replicate 4 (.turn 1 {}) ++ List.replicate 15 (.turn 2 {}) ++
    [.crash] ++ List.replicate 7 (.turn 0 {}) ++ List.replicate 5 (.turn 1 {})

/-- The next turn of a thread records a step as finished that was not sent. -/
def falselyFinishes (M : Machine Op Op.Ans State Env World Req) (i : Nat)
    (c : Config Op Op.Ans State Req Hold) : Bool :=
  match M.step holdTracer c (.turn i {}) with
  | some (.turn _ (.job (.change job idx (.watched _))) _, _) =>
    (c.state.store.jobs.drive job idx).any fun d => ⟨job, idx, d.step⟩ ∉ c.state.hw.sentBefore
  | _ => false

/-- **Not every restart is so**: when the daemon stops between the save that shows a sanitize as
Running and its command, the next one watches an idle drive and records the sanitize as finished. -/
theorem unsent_sanitize_recorded :
    ¬ NoFalseCompletion {} (fun _ => ⟨0⟩) fun _ _ _ => True := by
  intro hno
  obtain ⟨es, c, hrun, hcheck⟩ : ∃ es c, Run (daemon {} fun _ => ⟨0⟩) holdTracer
      (fun _ _ _ => True) ⟨.testFixture [.sanitize .crypto] (.testFixture .interrupted), []⟩ es c ∧
      falselyFinishes (daemon {} fun _ => ⟨0⟩) 1 c = true :=
    exists_run_of_moves stoppedEarly (by decide +kernel)
  unfold falselyFinishes at hcheck
  split at hcheck
  · next _ job idx _ a _ hstep =>
    obtain ⟨d, hd, hunsent⟩ := (Option.any_eq_true _ _).mp hcheck
    exact of_decide_eq_true hunsent (hno _ es c _ _ job idx _ a d hrun (step_of_step hstep) hd)
  · cases hcheck

end Results

end StormDrive
