import StormDrive.Daemon.Drains

set_option relaxedAutoImplicit false
set_option autoImplicit false

/-!
# Cancelled drains

Whether a drain that the operator cancelled stays cancelled. The fleet's tick lists the running and
the pending drains first, and asks the engine afterwards: a `cancel_drain` in between is not seen,
and the tick writes the drain down as it found it, or starts it again.

## Main definitions

* `StaysCancelled` — what a cancellation promises, in runs whose steps meet a condition.
* `CancelledApart` — no task has the drive in hand when its drain is cancelled.

## Main results

* `staysCancelled_of_apart` — a drain that no task has in hand stays cancelled.
* `cancelled_drain_restarts` — a drain that the tick has in hand is started again.
-/

namespace StormDrive

open Interleave Interleave.Prog

/-! ## What a cancellation promises -/

/-- A drain of the drive is started. -/
def startsDrainOf (id : DriveId) : Interleave.Event Op Op.Ans World Req → Bool
  | .turn _ (.engine (.startDrain _ id')) _ => id' = id
  | _ => false

/-- The daemon goes on, and nothing new asks for a drain of the drive: no request and no report of
its health takes it up. What the tick lists is nothing new. -/
def Unasked (cfg : Settings) (id : DriveId) : Condition Op Op.Ans State World Req Drainer
  | _, ms, .turn i o a => ∀ m, ms[i]? = some m → id ∈ (Drainer.next cfg m o a).drives →
    id ∈ m.drives ∨ o = .record .runningDrains ∨ o = .record .dueDrains
  | _, _, .crash => False
  | _, _, _ => True

section Cancelled

variable (cfg : Settings) (newV5 : String → Uuid)

/-- **A cancelled drain stays cancelled**, in runs whose steps meet the condition: after the section
of a `cancel_drain`, once that task has returned, no drain of the drive is started as long as
nothing new asks for one. -/
def StaysCancelled (ok : Condition Op Op.Ans State World Req Drainer) : Prop :=
  ∀ (s : State) (before after : List (Interleave.Event Op Op.Ans World Req))
    (c₁ c₂ c₃ c₄ : Config Op Op.Ans State Req Drainer) (i : Nat) (id : DriveId) (a : Option Drive)
    (m : Drainer) (e : Interleave.Event Op Op.Ans World Req),
    Run (daemon cfg newV5) (drainTracer cfg) ok ⟨s, []⟩ before c₁ →
    ok c₁.state c₁.marks (.turn i (.record (.change id .drainCancelled)) a) →
    Interleave.Step (daemon cfg newV5) (drainTracer cfg) c₁
      (.turn i (.record (.change id .drainCancelled)) a) c₂ →
    Run (daemon cfg newV5) (drainTracer cfg) (fun s ms e => ok s ms e ∧ Unasked cfg id s ms e) c₂
      after c₃ →
    c₃.threads[i]? = some ⟨.ret none, m⟩ →
    Interleave.Step (daemon cfg newV5) (drainTracer cfg) c₃ e c₄ → startsDrainOf id e = false

/-- No task has the drive in hand when its drain is cancelled: none has listed it, or has taken it
up to ask for a drain, and not yet written down what came of it. -/
def CancelledApart : Condition Op Op.Ans State World Req Drainer
  | _, ms, .turn _ (.record (.change id .drainCancelled)) _ => ∀ m ∈ ms, id ∉ m.drives
  | _, _, _ => True

/-- A drive whose drain is over: no task has it in hand, and its record asks for none. -/
structure Stopped (id : DriveId) (s : State) (ms : List Drainer) : Prop where
  unheld : ∀ m ∈ ms, id ∉ m.drives
  still : ∀ d, s.records.inv id = some d → d.drainActive = false

variable {cfg newV5} {id : DriveId}

/-! ## One step -/

/-- The tick takes the drives whose drain runs. -/
lemma drainActive_of_mem_running {e : Env} {st st' : Records} {l : List Drive} {d : Drive}
    (hex : RecordOp.exec newV5 .runningDrains e st = some (l, st')) (hd : d ∈ l) :
    st.inv d.id = some d ∧ d.drainActive = true := by
  cases hex
  obtain ⟨hinv, hrun⟩ := Records.mem_listed.mp hd
  refine ⟨hinv, ?_⟩
  obtain ⟨r, hr, hstate⟩ := (Option.any_eq_true _ _).mp hrun
  rw [Drive.drainActive, hr]
  simpa using .inl (of_decide_eq_true hstate)

/-- The tick takes the drives whose drain is pending. -/
lemma drainActive_of_mem_due {e : Env} {st st' : Records} {l : List Drive} {d : Drive}
    (hex : RecordOp.exec newV5 .dueDrains e st = some (l, st')) (hd : d ∈ l) :
    st.inv d.id = some d ∧ d.drainActive = true := by
  cases hex
  obtain ⟨hinv, hdue⟩ := Records.mem_listed.mp hd
  refine ⟨hinv, ?_⟩
  obtain ⟨r, hr, hstate⟩ := (Option.any_eq_true _ _).mp (Bool.and_eq_true_iff.mp hdue).2
  rw [Drive.drainActive, hr]
  simpa using .inr (of_decide_eq_true hstate)

/-- **What the tick lists** of a drive whose drain is over: nothing. -/
lemma not_mem_drives_of_lists {s s' : State} {m : Drainer} {o : Op} {e : Env} {a : o.Ans}
    (ho : o = .record .runningDrains ∨ o = .record .dueDrains)
    (hex : o.exec newV5 e s = some (a, s')) (hm : id ∉ m.drives)
    (hstill : ∀ d, s.records.inv id = some d → d.drainActive = false) :
    id ∉ (Drainer.next cfg m o a).drives := by
  intro hid
  have hlisted : ∀ d : Drive, d.id = id → s.records.inv d.id = some d ∧ d.drainActive = true →
      False := by
    rintro d rfl ⟨hinv, hactive⟩
    rw [hstill d hinv] at hactive
    cases hactive
  simp only [Drainer.drives, List.mem_append, not_or] at hm
  rcases ho with rfl | rfl
  · obtain ⟨hrec, -⟩ := exec_record hex
    simp only [Drainer.next_runningDrains, Drainer.drives, List.mem_append, List.map_map] at hid
    rcases hid with ((hid | hid) | hid) | hid
    · exact hm.1.1.1 hid
    · exact hm.1.1.2 hid
    · obtain ⟨d, hd, hdid⟩ := List.mem_map.mp hid
      exact hlisted d hdid (drainActive_of_mem_running hrec hd)
    · exact hm.2 hid
  · obtain ⟨hrec, -⟩ := exec_record hex
    simp only [Drainer.next_dueDrains, Drainer.drives, List.mem_append, List.map_map] at hid
    rcases hid with ((hid | hid) | hid) | hid
    · exact hm.1.1.1 hid
    · obtain ⟨d, hd, hdid⟩ := List.mem_map.mp hid
      exact hlisted d hdid (drainActive_of_mem_due hrec hd)
    · exact hm.1.2 hid
    · exact hm.2 hid

/-- The section of a cancellation ends the drain on record. -/
lemma drainActive_cancelled (d : Drive) : (d.apply .drainCancelled).drainActive = false := by
  have hdrain : (d.apply .drainCancelled).drain =
      d.drain.map fun r => { r with state := "cancelled" } := by
    simp only [Drive.apply]
    split <;> rfl
  rw [Drive.drainActive, hdrain]
  cases d.drain <;> simp [pending]

/-- A change of the record of a drain that needs no task with the drive in hand leaves a drain that
is over as it is. -/
lemma drainActive_apply {u : DriveUpdate} {m : Drainer} {d : Drive}
    (hmay : m.mayWrite cfg (.record (.change id u))) (hm : id ∉ m.drives)
    (hd : d.drainActive = false) : (d.apply u).drainActive = false := by
  by_cases hu : u.movesDrain = true
  · cases u with
    | enrolled => rfl
    | joined => rfl
    | drainStarted r =>
      obtain ⟨w, hw, -⟩ := hmay
      exact absurd (mem_drives_of_wants hw) hm
    | drainRefused =>
      obtain ⟨w, hw, -⟩ := hmay
      exact absurd (mem_drives_of_wants hw) hm
    | drainPending =>
      obtain ⟨_, hpoll⟩ := hmay
      exact absurd (mem_drives_of_polls hpoll) hm
    | drainStatus =>
      obtain ⟨⟨_, hpoll⟩, -⟩ := hmay
      exact absurd (mem_drives_of_polls hpoll) hm
    | drainCancelled => exact drainActive_cancelled d
    | drainDropped => exact False.elim hmay
    | _ => cases hu
  · rw [Drive.drainActive, drain_apply (Bool.not_eq_true _ ▸ hu)]
    exact hd

/-- **A drain that is over stays over** in a section of a task that does not have the drive in
hand. -/
lemma drainActive_onDrive {o : RecordOp} {m : Drainer} {e : Env} {d : Drive}
    (hmay : m.mayWrite cfg (.record o)) (hm : d.id ∉ m.drives) (hd : d.drainActive = false) :
    (o.onDrive newV5 e d).drainActive = false := by
  by_cases hchange : ∃ u, o = .change d.id u
  · obtain ⟨u, rfl⟩ := hchange
    rw [RecordOp.onDrive, if_pos rfl]
    exact drainActive_apply hmay hm hd
  by_cases hdrop : o = .dropPending d.id
  · subst hdrop
    rw [RecordOp.onDrive, if_pos rfl]
    simp only [Drive.apply]
    split
    · rfl
    · exact hd
  · rw [Drive.drainActive, drain_onDrive (fun u h => absurd ⟨u, h⟩ hchange) hdrop]
    exact hd

/-- **A cancelled drain stays cancelled**, in every step that does not ask for a new one. -/
theorem keeps_stopped :
    Keeps (daemon cfg newV5) (drainProtocol cfg) (Unasked cfg id) (Stopped id) where
  entry := drains_entry
  start s ms r hJ _ _ := by
    refine ⟨rfl, fun m hm => ?_, hJ.still⟩
    rcases List.mem_append.mp hm with hm | hm
    · exact hJ.unheld m hm
    · obtain rfl : m = Drainer.of r := List.mem_singleton.mp hm
      rw [drives_of]
      exact List.not_mem_nil
  turn s ms i m o e a s' hJ hm hmay hex hok := by
    have hex : o.exec newV5 e s = some (a, s') := hex
    have hunheld : id ∉ m.drives := hJ.unheld m (List.mem_of_getElem? hm)
    refine ⟨trivial, fun r _ => rfl, fun m' hm' => ?_, fun d' hd' => ?_⟩
    · rcases List.mem_append.mp hm' with hm' | hm'
      · rcases List.mem_or_eq_of_mem_set hm' with hm' | rfl
        · exact hJ.unheld m' hm'
        · intro hid
          rcases hok m hm hid with hid | hlist
          · exact hunheld hid
          · exact not_mem_drives_of_lists hlist hex hunheld hJ.still hid
      · obtain ⟨r, -, rfl⟩ := List.mem_map.mp hm'
        have hnone : ((drainProtocol cfg).child m r).drives = [] := drives_of r
        rw [hnone]
        exact List.not_mem_nil
    · by_cases hrec : ∃ r, o = .record r
      · obtain ⟨r, rfl⟩ := hrec
        obtain ⟨hex', -⟩ := exec_record hex
        rcases inv_exec_cases hex' hd' with ⟨d, hd, rfl⟩ | ⟨-, primary, paths, rfl⟩
        · have hid : d.id = id := Records.id_of_inv hd
          exact drainActive_onDrive hmay.write (by rw [hid]; exact hunheld) (hJ.still d hd)
        · rfl
      · rw [records_eq_of_ne_record (fun r h => hrec ⟨r, h⟩) hex] at hd'
        exact hJ.still d' hd'
  world s ms w s' hJ hw _ := by
    refine ⟨hJ.unheld, fun d' hd' => ?_⟩
    obtain ⟨d, _, _, _, hd, rfl⟩ := inv_world_cases hw hd'
    exact hJ.still d hd
  crash s ms _ hok := False.elim hok

/-! ## Whole runs -/

/-- A task starts only a drain of a drive that it has in hand. -/
lemma mem_drives_of_startsDrainOf {J : State → List Drainer → Prop}
    {c c' : Config Op Op.Ans State Req Drainer} {e : Interleave.Event Op Op.Ans World Req}
    (hc : Good (drainProtocol cfg) J c)
    (h : Interleave.Step (daemon cfg newV5) (drainTracer cfg) c e c')
    (he : startsDrainOf id e = true) : ∃ m ∈ c.marks, id ∈ m.drives := by
  cases e with
  | turn i o a =>
    obtain ⟨m, hm, hmay⟩ := hc.may h
    cases o with
    | engine r =>
      cases r with
      | startDrain path id' =>
        obtain rfl : id' = id := of_decide_eq_true he
        obtain ⟨w, hw⟩ := hmay.write
        exact ⟨m, List.mem_of_getElem? hm, mem_drives_of_wants hw⟩
      | _ => cases he
    | _ => cases he
  | _ => cases he

/-- Every task of a run keeps to the protocol. -/
lemma good_drains {ok : Condition Op Op.Ans State World Req Drainer} {s : State}
    {c : Config Op Op.Ans State Req Drainer} {es : List (Interleave.Event Op Op.Ans World Req)}
    (h : Run (daemon cfg newV5) (drainTracer cfg) ok ⟨s, []⟩ es c) :
    Good (drainProtocol cfg) (fun _ _ => True) c := by
  have hkeeps : Keeps (daemon cfg newV5) (drainProtocol cfg) ok fun _ _ => True :=
    { entry := drains_entry
      start := fun _ _ _ _ _ _ => ⟨rfl, trivial⟩
      turn := fun _ _ _ _ _ _ _ _ _ _ _ _ _ => ⟨trivial, fun _ _ => rfl, trivial⟩
      world := fun _ _ _ _ _ _ _ => trivial
      crash := fun _ _ _ _ => ⟨fun _ _ => rfl, trivial⟩ }
  exact hkeeps.run (good_idle trivial) h

/-- **A drain that no task has in hand stays cancelled.**

**Proof sketch.** Every task keeps to the protocol (`drains_entry`), so a drain is started only by a
task that has the drive in hand. When the drain is cancelled no task has, and the record asks for no
drain any more. This holds on (`keeps_stopped`): the tick lists only drains that the records ask
for, only a task with the drive in hand writes such a record, and nothing new takes it up. -/
theorem staysCancelled_of_apart (cfg : Settings) (newV5 : String → Uuid) :
    StaysCancelled cfg newV5 CancelledApart := by
  intro s before after c₁ c₂ c₃ c₄ i id a m e hbefore hok hcancel hafter _ hlast
  have hgood₁ : Good (drainProtocol cfg) (fun _ _ => True) c₁ := good_drains hbefore
  have hgood₂ : Good (drainProtocol cfg) (Stopped id) c₂ := by
    have hrun := run_append_iff.mpr ⟨c₁, hbefore, .cons hok hcancel (.nil c₂)⟩
    refine ⟨?_, (good_drains hrun).keeps⟩
    constructor
    · intro m' hm'
      cases hcancel with
      | turn _ _ k m₀ env _ s' ht hex =>
        have hm : c₁.marks[i]? = some m₀ := by simp [Config.marks, ht]
        have hsame : c₁.marks.set i m₀ = c₁.marks := set_of_getElem? hm
        have hnext : (drainTracer cfg).next m₀ (.record (.change id .drainCancelled)) a = m₀ := rfl
        have hmem : m' ∈ c₁.marks := by
          rw [← hsame]
          simpa [Config.marks, children, List.map_set, daemon, Op.spawned, hnext] using hm'
        exact hok m' hmem
    · intro d' hd'
      obtain ⟨env, hex⟩ := hcancel.exec
      have hex : (Op.record (.change id .drainCancelled)).exec newV5 env c₁.state =
          some (a, c₂.state) := hex
      obtain ⟨hrec, -⟩ := exec_record hex
      rcases inv_exec_cases hrec hd' with ⟨d, hd, rfl⟩ | ⟨-, primary, paths, rfl⟩
      · rw [RecordOp.onDrive, if_pos (Records.id_of_inv hd)]
        exact drainActive_cancelled d
      · rfl
  have hgood₃ := keeps_stopped.run hgood₂ (hafter.mono fun _ _ _ h => h.2)
  by_contra he
  rw [Bool.not_eq_false] at he
  obtain ⟨m', hm', hid⟩ := mem_drives_of_startsDrainOf hgood₃ hlast he
  exact hgood₃.inv.unheld m' hm' hid

/-! ## A cancellation that crosses the tick -/

/-- The check of `Unasked`. -/
def unasked (cfg : Settings) (id : DriveId) (_ : State) (ms : List Drainer) :
    Interleave.Event Op Op.Ans World Req → Bool
  | .turn i o a => (ms[i]?).all fun m =>
    !(Drainer.next cfg m o a).drives.contains id || m.drives.contains id
  | .crash => false
  | _ => true

lemma unasked_of_check {s : State} {ms : List Drainer} {e : Interleave.Event Op Op.Ans World Req}
    (h : unasked cfg id s ms e = true) : Unasked cfg id s ms e := by
  cases e with
  | turn i o a =>
    intro m hm hid
    have hall : (!(Drainer.next cfg m o a).drives.contains id || m.drives.contains id) = true := by
      simpa [unasked, hm] using h
    rw [Bool.or_eq_true, Bool.not_eq_true', List.contains_eq_mem, decide_eq_false_iff_not,
      List.contains_eq_mem, decide_eq_true_eq] at hall
    exact .inl (hall.resolve_left fun hno => hno hid)
  | crash => cases h
  | _ => trivial

/-- A host whose only drive is in the fleet, with a drain that the engine has not started. -/
def State.drainPending : State :=
  { State.sole { Drive.testFixture ⟨⟨7⟩⟩ "sdb" with
      membership := .fleet, drain := some { state := pending, reason := "operator" } } with
    sync := { serving := true } }

/-- The tick lists the pending drain, and the operator asks to cancel it. -/
def listedThenCancelled : List (Move Env World Req) :=
  [.start .fleetTick] ++ List.replicate 10 (.turn 0 {}) ++
    [.start (.cancelDrain ⟨⟨7⟩⟩), .turn 1 {}, .turn 1 {}]

/-- The cancellation returns, and the tick goes on with the drain that it has listed. -/
def cancelledThenRetried : List (Move Env World Req) :=
  [.turn 1 {}, .turn 1 {}, .turn 0 {}, .turn 0 {}]

/-- The first task starts a drain of the drive next, and the second has returned. -/
def drainsReturned (id : DriveId) (c : Config Op Op.Ans State Req Drainer) : Bool :=
  (match c.threads[1]? with
    | some (Thread.mk (.ret none) _) => true
    | _ => false) &&
  match (daemon {} fun _ => ⟨0⟩).step (drainTracer {}) c (.turn 0 {}) with
  | some (e, _) => startsDrainOf id e
  | none => false

/-- The second task cancels the drain, returns, and the first then starts it. -/
def cancelCrossed (c₁ : Config Op Op.Ans State Req Drainer) : Bool :=
  match (daemon {} fun _ => ⟨0⟩).step (drainTracer {}) c₁ (.turn 1 {}) with
  | some (.turn 1 (.record (.change id .drainCancelled)) _, c₂) =>
    ((daemon {} fun _ => ⟨0⟩).runChecked (drainTracer {}) (unasked {} id) c₂
      cancelledThenRetried).any fun out => drainsReturned id out.2
  | _ => false

/-- **A cancelled drain does not stay so in every run**: a tick that has listed the pending drain
before the cancellation tries it again after `cancel_drain` has returned. -/
theorem cancelled_drain_restarts : ¬ StaysCancelled {} (fun _ => ⟨0⟩) fun _ _ _ => True := by
  intro hstays
  obtain ⟨es, c₁, hbefore, hcheck⟩ : ∃ es c, Run (daemon {} fun _ => ⟨0⟩) (drainTracer {})
      (fun _ _ _ => True) ⟨State.drainPending, []⟩ es c ∧ cancelCrossed c = true :=
    exists_run_of_moves listedThenCancelled (by decide +kernel)
  unfold cancelCrossed at hcheck
  split at hcheck
  · next id a c₂ hcancel =>
    obtain ⟨⟨after, c₃⟩, hafter, hdrains⟩ := (Option.any_eq_true _ _).mp hcheck
    obtain ⟨hreturned, hstarts⟩ := Bool.and_eq_true_iff.mp hdrains
    split at hreturned
    · next m ht =>
      dsimp only at ht
      split at hstarts
      · next e c₄ hlast =>
        have hrun := (run_of_runChecked hafter).mono fun _ _ _ h =>
          And.intro trivial (unasked_of_check h)
        rw [hstays _ es after c₁ c₂ c₃ c₄ 1 id a m e hbefore trivial (step_of_step hcancel) hrun ht
          (step_of_step hlast)] at hstarts
        cases hstarts
      · cases hstarts
    · cases hreturned
  · cases hcheck

end Cancelled

end StormDrive
