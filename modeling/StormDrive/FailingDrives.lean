import StormDrive.Daemon.Drains

set_option relaxedAutoImplicit false
set_option autoImplicit false

/-!
# Failing drives of the fleet

Whether a drive of the fleet that was reported failing is drained. The record of a report is written
first and the drain is asked for afterwards, and a report is only made on a change: a drive whose
report is on record, and whose drain is not, is not looked at again.

## Main definitions

* `Drive.overlooked` — the drive is on record as failing, and no drain was asked for it.
* `NeverOverlooked` — in runs whose steps meet a condition, a drain is asked for such a drive.
* `Attended` — the steps after which no drive is overlooked.

## Main results

* `neverOverlooked_of_attended` — in runs of such steps no drive is overlooked.
* `failing_drive_overlooked` — a crash between the report and the drain leaves a drive so.
-/

namespace StormDrive

open Interleave Interleave.Prog

/-! ## The property -/

/-- The health that was last reported for the drive is one that asks for a drain. -/
def Drive.markedFailing (d : Drive) : Bool :=
  d.pushedHealth = some "failed" || d.pushedHealth = some "failing"

/-- The states of a drain that was asked for. -/
def askedWords : List String :=
  ["running", pending, "empty", "stuck", "cancelled"]

/-- A drain of the drive was asked for. -/
def Drive.drainAsked (d : Drive) : Bool :=
  d.drain.any fun r => askedWords.contains r.state

/-- The next tick reports the drive as failing, and asks for its drain. -/
def Drive.reportedNext (d : Drive) : Bool :=
  Due.health.holds d && (d.healthWord = "failed" || d.healthWord = "failing")

/-- The drive of the fleet is on record as failing, and no drain was asked for it. -/
def Drive.overlooked (d : Drive) : Bool :=
  d.membership = .fleet && d.markedFailing && !d.drainAsked

section Property

variable (cfg : Settings) (newV5 : String → Uuid)

/-- **A failing drive of the fleet is never forgotten**, in runs whose steps meet the condition:
where every task that has put the drive on record as failing has gone on to its drain, as at the end
of a tick, a drain was asked for, or the next tick asks for one. -/
def NeverOverlooked (ok : Condition Op Op.Ans State World Req Drainer) : Prop :=
  cfg.pushHealth = true → cfg.drainOnFailing = true →
  ∀ (s : State) (es : List (Interleave.Event Op Op.Ans World Req)) (c : Config Op Op.Ans State Req Drainer)
    (id : DriveId) (d : Drive),
    (∀ id d, s.records.inv id = some d → d.overlooked = false) →
    Filed (fun d => d.overlooked = false) s →
    Run (daemon cfg newV5) (drainTracer cfg) ok ⟨s, []⟩ es c →
    (∀ t ∈ c.threads, t.mark.owes = some id → ∃ r, t.prog = .ret r) →
    c.state.records.inv id = some d → d.membership = .fleet → d.markedFailing = true →
    d.drainAsked = true ∨ d.reportedNext = true

/-- **The steps after which no drive is overlooked**:

* The engine answers a start or a poll of a drain with a word that it has.
* The inventory is not copied while a task has put a drive on record as failing and has not come to
  its drain.
* The reconciliation takes back no drive that was put on record as failing while it was out.
* A pending drain is dropped only of a drive that is not on record as failing. -/
def Attended : Condition Op Op.Ans State World Req Drainer
  | _, _, .turn _ (.engine (.startDrain ..)) (.ok st) => st.state ∈ engineWords
  | _, _, .turn _ (.engine (.drainStatus ..)) (.ok (some st)) => st.state ∈ engineWords
  | s, ms, .turn _ (.record .snapshot) _ => ∀ m ∈ ms, ∀ id d, m.owes = some id →
    s.records.inv id = some d → d.overlooked = false
  | s, _, .turn _ (.record (.reconcile listed)) _ => ∀ id d, s.records.inv id = some d →
    d.membership = .out → (listed.any fun sd => sd.matches d) = true → d.markedFailing = true →
    d.drainAsked = true
  | s, _, .turn _ (.record (.dropPending id)) _ => ∀ d, s.records.inv id = some d →
    d.membership = .fleet → d.markedFailing = true →
    (d.drain.any fun r => r.state = pending ∧ r.reason = "health") = false
  | _, _, _ => True

end Property

/-! ## The invariant -/

/-- What the tasks have heard is among the engine's words, and a drive without a drain is on record
as failing only while a task is on the way to its drain. -/
structure Watched (s : State) (ms : List Drainer) : Prop where
  heard : ∀ m ∈ ms, m.Heard fun _ word => word ∈ engineWords
  said : ∀ m ∈ ms, m.Said fun word => word ∈ engineWords
  kept : ∀ id d, s.records.inv id = some d → d.overlooked = true → ∃ m ∈ ms, m.owes = some id
  filed : Filed (fun d => d.overlooked = false) s

section Invariant

variable {cfg : Settings} {newV5 : String → Uuid} {s s' : State} {ms : List Drainer} {i : Nat}
  {m : Drainer} {d d' : Drive}

/-- The change is what comes of a drain that was asked for. -/
def DriveUpdate.settlesDrain : DriveUpdate → Bool
  | .drainStarted _ | .drainRefused .. => true
  | _ => false

/-- The operation is the end of a task's way to the drain of a drive. -/
def Op.settlesDrain (id : DriveId) : (o : Op) → o.Ans → Prop
  | .record (.read .other id'), some d =>
    id' = id ∧ (d.drain.any fun r => r.state = "running") = true
  | .record (.change id' u), _ => id' = id ∧ u.settlesDrain = true
  | _, _ => False

/-- Reading a record does not let go of the drive that a task owes a drain, unless its drain
runs. -/
lemma owes_look (id : DriveId) (x : Option Drive) :
    (m.look cfg id x).owes = m.owes ∨ ∃ d, x = some d ∧
      (d.drain.any fun r => r.state = "running") = true := by
  have hrefused : m.refused.owes = m.owes := by
    unfold Drainer.refused
    repeat' split
    all_goals rfl
  unfold Drainer.look
  repeat' split
  all_goals first
    | exact .inl rfl
    | exact .inl hrefused
    | exact .inr ⟨_, rfl, by assumption⟩

/-- **A task that owes a drain** goes on to it. -/
lemma owes_next {id : DriveId} {o : Op} {a : o.Ans} (hmay : m.May cfg o) (hid : m.owes = some id) :
    (m.next cfg o a).owes = some id ∨ o.settlesDrain id a := by
  have hdrains : o.drains id := hmay.drains id hid
  cases o with
  | record r =>
    cases r with
    | read site id' =>
      cases site with
      | approval => cases hdrains
      | other =>
        simp only [Drainer.next_read, Drainer.read]
        cases m.retiring with
        | some _ => cases a <;> exact .inl hid
        | none =>
          rcases owes_look id' a with hsame | ⟨d, rfl, hrun⟩
          · exact .inl (hsame.trans hid)
          · exact .inr ⟨hdrains, hrun⟩
    | change id' u =>
      cases u with
      | drainStarted r => exact .inr ⟨hdrains, rfl⟩
      | drainRefused => exact .inr ⟨hdrains, rfl⟩
      | drainCancelled => exact .inl hid
      | _ => cases hdrains
    | snapshot => exact .inl hid
    | write => exact .inl hid
    | _ => cases hdrains
  | engine r =>
    cases r with
    | drainStatus path id' =>
      simp only [Drainer.next_answered, Drainer.answered, Drainer.refused]
      repeat' split
      all_goals exact .inl hid
    | startDrain path id' =>
      simp only [Drainer.next_started, Drainer.started, Drainer.refused]
      repeat' split
      all_goals exact .inl hid
    | cancelDrain path id' => exact .inl hid
    | _ => cases hdrains
  | _ => cases hdrains

/-! ### The records -/

/-- A drive of the fleet on record as failing, by its record. -/
lemma overlooked_iff : d.overlooked = true ↔
    d.membership = .fleet ∧ d.markedFailing = true ∧ d.drainAsked = false := by
  simp [Drive.overlooked, and_assoc]

/-- A drive with a drain on record in one of the words is not overlooked. -/
lemma not_overlooked_of_asked {r : DrainRecord} (hr : d.drain = some r)
    (hword : r.state ∈ askedWords) : d.overlooked = false := by
  have hasked : d.drainAsked = true := by
    rw [Drive.drainAsked, hr]
    simpa using hword
  simp [Drive.overlooked, hasked]

/-- A drive out of the fleet is not overlooked. -/
lemma not_overlooked_of_out (h : d.membership = .out) : d.overlooked = false := by
  simp [Drive.overlooked, h]

/-- A drive of which no health was reported is not overlooked. -/
lemma not_overlooked_of_unpushed (h : d.pushedHealth = none) : d.overlooked = false := by
  simp [Drive.overlooked, Drive.markedFailing, h]

/-- What the engine says of a drain that it knows is that it was asked for. -/
lemma mem_askedWords_of_engineWords {word : String} (h : word ∈ engineWords) :
    word ∈ askedWords := by
  simp only [engineWords, askedWords, List.mem_cons, List.not_mem_nil, or_false] at h ⊢
  tauto

/-- A drain that is kept pending was asked for. -/
lemma overlooked_markPending (reason : String) (thenLeave : Bool) (error : String) :
    (d.markPending reason thenLeave error).overlooked = false := by
  obtain ⟨r, hr, hstate⟩ : ∃ r, (d.markPending reason thenLeave error).drain = some r ∧
      r.state = pending := by
    simp only [Drive.markPending]
    split <;> exact ⟨_, rfl, rfl⟩
  exact not_overlooked_of_asked hr (by simp [hstate, askedWords])

/-- A record that says the same of the fleet, of what was pushed and of the drain is overlooked as
before. -/
lemma overlooked_of_same (hpushed : d'.pushed = d.pushed) (hdrain : d'.drain = d.drain) :
    d'.overlooked = d.overlooked := by
  simp only [Drive.pushed, Prod.mk.injEq] at hpushed
  simp only [Drive.overlooked, Drive.markedFailing, Drive.drainAsked, hpushed.1, hpushed.2.2.1,
    hdrain]

/-- A drain that changes its word only was asked for if there is one. -/
lemma overlooked_of_map {f : DrainRecord → DrainRecord} (hpushed : d'.pushed = d.pushed)
    (hdrain : d'.drain = d.drain.map f) (hf : ∀ r, (f r).state ∈ askedWords)
    (h : d'.overlooked = true) : d.overlooked = true := by
  cases hd : d.drain with
  | none =>
    rw [hd] at hdrain
    rw [← overlooked_of_same hpushed (hdrain.trans hd.symm)]
    exact h
  | some r =>
    rw [hd] at hdrain
    rw [not_overlooked_of_asked hdrain (hf r)] at h
    cases h

/-- **A change by a task that keeps to the protocol** makes no drive overlooked, but for the report
that its drain follows. -/
lemma overlooked_apply {id : DriveId} {u : DriveUpdate} {a : Option Drive}
    (hdrain : cfg.drainOnFailing = true) (hmay : m.mayWrite cfg (.record (.change id u)))
    (hheard : m.Heard fun _ word => word ∈ engineWords)
    (hsaid : m.Said fun word => word ∈ engineWords) (h : (d.apply u).overlooked = true) :
    d.overlooked = true ∧ u.settlesDrain = false ∨
      (m.next cfg (.record (.change id u)) a).owes = some id := by
  have hno : ∀ {p : Prop}, (d.apply u).overlooked = false → p := fun hfalse => by
    rw [hfalse] at h
    cases h
  by_cases hu : u.movesDrain = true ∨ u.writesDown = true
  · cases u with
    | enrolled | joined => exact hno (not_overlooked_of_unpushed rfl)
    | left | retired => exact hno (not_overlooked_of_out rfl)
    | labelsPushed | overcommitPushed | thermalPushed => exact .inl ⟨h, rfl⟩
    | healthPushed word =>
      have hmarked : (d.apply (.healthPushed word)).markedFailing = true :=
        (overlooked_iff.mp h).2.1
      have hword : word = "failed" ∨ word = "failing" := by
        simpa [Drive.markedFailing, Drive.apply] using hmarked
      exact .inr (congrArg Drainer.owes (if_pos ⟨hword, hdrain⟩))
    | drainStarted r =>
      obtain ⟨w, ⟨hw, -⟩, hword, -⟩ := hmay
      have hr : (d.apply (.drainStarted r)).drain = some r := by
        simp only [Drive.apply]
        split <;> rfl
      exact hno (not_overlooked_of_asked hr (mem_askedWords_of_engineWords (hheard w _ hw hword)))
    | drainRefused reason thenLeave error =>
      refine hno ?_
      by_cases hin : d.membership = .fleet
      · simp only [Drive.apply, if_pos hin]
        exact overlooked_markPending reason thenLeave error
      · simp only [Drive.apply, if_neg hin]
        simp [Drive.overlooked, hin]
    | drainPending thenLeave error => exact hno (overlooked_markPending _ thenLeave error)
    | drainStatus state errors =>
      have hword : state ∈ askedWords := mem_askedWords_of_engineWords (hsaid state hmay.2)
      exact .inl ⟨overlooked_of_map (pushed_apply rfl) rfl (fun _ => hword) h, rfl⟩
    | drainCancelled =>
      have hr : (d.apply .drainCancelled).drain =
          d.drain.map fun r => { r with state := "cancelled" } := by
        simp only [Drive.apply]
        split <;> rfl
      exact .inl ⟨overlooked_of_map (pushed_apply rfl) hr (fun _ => by simp [askedWords]) h,
        rfl⟩
    | drainDropped => exact False.elim hmay
    | _ => simp [DriveUpdate.movesDrain, DriveUpdate.writesDown] at hu
  · simp only [not_or, Bool.not_eq_true] at hu
    rw [overlooked_of_same (pushed_apply hu.2) (drain_apply hu.1 d)] at h
    refine .inl ⟨h, ?_⟩
    cases u <;> first | rfl | cases hu.1

/-- **A section of a task that keeps to the protocol** makes no drive overlooked, but for the report
that its drain follows. -/
lemma overlooked_onDrive {o : RecordOp} {e : Env} {a : o.Ans} (hdrain : cfg.drainOnFailing = true)
    (hmay : m.mayWrite cfg (.record o)) (hheard : m.Heard fun _ word => word ∈ engineWords)
    (hsaid : m.Said fun word => word ∈ engineWords)
    (hrec : ∀ listed, o = .reconcile listed → d.membership = .out →
      (listed.any fun sd => sd.matches d) = true → d.markedFailing = true → d.drainAsked = true)
    (hdrop : o = .dropPending d.id → d.membership = .fleet → d.markedFailing = true →
      (d.drain.any fun r => r.state = pending ∧ r.reason = "health") = false)
    (h : (o.onDrive newV5 e d).overlooked = true) :
    d.overlooked = true ∧ (∀ u, o = .change d.id u → u.settlesDrain = false) ∨
      (m.next cfg (.record o) a).owes = some d.id := by
  by_cases hchange : ∃ u, o = .change d.id u
  · obtain ⟨u, rfl⟩ := hchange
    rw [RecordOp.onDrive, if_pos rfl] at h
    refine (overlooked_apply (a := a) hdrain hmay hheard hsaid h).imp (fun hboth => ⟨hboth.1, ?_⟩) id
    rintro _ ⟨⟩
    exact hboth.2
  refine .inl ⟨?_, fun u ho => absurd ⟨u, ho⟩ hchange⟩
  have hdrained : o ≠ .dropPending d.id → (o.onDrive newV5 e d).drain = d.drain :=
    drain_onDrive fun u ho => absurd ⟨u, ho⟩ hchange
  by_cases hdropped : o = .dropPending d.id
  · have hsame : o.onDrive newV5 e d = d.apply .drainDropped := by
      subst hdropped
      exact if_pos rfl
    rw [hsame] at h
    cases hpending : d.drain.any fun r => r.state = pending ∧ r.reason = "health" with
    | false =>
      simp only [Drive.apply, hpending] at h
      exact h
    | true =>
      obtain ⟨hin, hmarked, -⟩ := overlooked_iff.mp h
      have hpushed : (d.apply .drainDropped).pushed = d.pushed := pushed_apply rfl
      simp only [Drive.pushed, Prod.mk.injEq] at hpushed
      rw [hpushed.1] at hin
      rw [Drive.markedFailing, hpushed.2.2.1] at hmarked
      rw [hdrop hdropped hin hmarked] at hpending
      cases hpending
  by_cases hreconcile : ∃ listed, o = .reconcile listed
  · obtain ⟨listed, rfl⟩ := hreconcile
    obtain ⟨hin, hmarked, hasked⟩ := overlooked_iff.mp h
    have hpushed : (d.reconciled listed).pushed.2 = d.pushed.2 := pushed_reconciled listed d
    simp only [Drive.pushed, Prod.mk.injEq] at hpushed
    have hmarked : d.markedFailing = true := by
      simpa only [Drive.markedFailing, RecordOp.onDrive, hpushed.2.1] using hmarked
    have hasked : d.drainAsked = false := by
      simpa only [Drive.drainAsked, hdrained hdropped] using hasked
    cases hwas : d.membership with
    | fleet => exact overlooked_iff.mpr ⟨hwas, hmarked, hasked⟩
    | out =>
      have hlisted : (listed.any fun sd => sd.matches d) = true := by
        by_contra hno
        simp [RecordOp.onDrive, Drive.reconciled, hwas, hno] at hin
      rw [hrec listed rfl hwas hlisted hmarked] at hasked
      cases hasked
  · have hmoves : o.moves = false → d.overlooked = true := fun hmoves => by
      rw [← overlooked_of_same (pushed_onDrive hmoves) (hdrained hdropped)]
      exact h
    cases o with
    | change id u =>
      have hid : d.id ≠ id := fun hid => hchange ⟨u, by rw [hid]⟩
      rw [RecordOp.onDrive, if_neg hid] at h
      exact h
    | reconcile listed => exact absurd ⟨listed, rfl⟩ hreconcile
    | _ => exact hmoves rfl

/-! ### One step -/

/-- The answer to a start, in a step that the condition allows. -/
lemma Attended.started {o : Op} {a : o.Ans} (hok : Attended s ms (.turn i o a)) (st : DrainStatus)
    (hst : o.startedAs a = some st) : st.state ∈ engineWords := by
  cases o with
  | engine r =>
    cases r with
    | startDrain path id =>
      cases a with
      | ok st' =>
        cases hst
        exact hok
      | error why => cases hst
    | _ => cases hst
  | _ => cases hst

/-- The answer to a poll, in a step that the condition allows. -/
lemma Attended.polled {o : Op} {a : o.Ans} (hok : Attended s ms (.turn i o a)) (st : DrainStatus)
    (hst : o.polledAs a = some st) : st.state ∈ engineWords := by
  cases o with
  | engine r =>
    cases r with
    | drainStatus path id =>
      cases a with
      | ok found =>
        cases found with
        | some st' =>
          cases hst
          exact hok
        | none => cases hst
      | error why => cases hst
    | _ => cases hst
  | _ => cases hst

/-- **The drives on record as failing** are on the way to their drain after a step, too. -/
lemma Watched.kept_turn {o : Op} {e : Env} {a : o.Ans} (hdrain : cfg.drainOnFailing = true)
    (hJ : Watched s ms) (hm : ms[i]? = some m) (hmay : m.May cfg o)
    (hex : o.exec newV5 e s = some (a, s')) (hok : Attended s ms (.turn i o a)) {id : DriveId}
    (hd' : s'.records.inv id = some d') (h : d'.overlooked = true) :
    ∃ n ∈ ms.set i (m.next cfg o a), n.owes = some id := by
  have hmem : m ∈ ms := List.mem_of_getElem? hm
  by_cases hrec : ∃ r, o = .record r
  · obtain ⟨r, rfl⟩ := hrec
    obtain ⟨hex', -⟩ := exec_record hex
    rcases inv_exec_cases hex' hd' with ⟨d, hd, rfl⟩ | ⟨-, primary, paths, rfl⟩
    · obtain rfl : d.id = id := Records.id_of_inv hd
      have hcases := overlooked_onDrive (a := a) hdrain hmay.write (hJ.heard m hmem)
        (hJ.said m hmem) (fun listed ho => by subst ho; exact hok d.id d hd)
        (fun ho => by subst ho; exact hok d hd) h
      rcases hcases with ⟨hover, hsettles⟩ | hnext
      · refine exists_mem_set hm (fun hid => ?_) (hJ.kept d.id d hd hover)
        refine (owes_next hmay hid).resolve_right fun hends => ?_
        cases r with
        | read site id' =>
          cases site with
          | approval => cases hends
          | other =>
            cases a with
            | none => cases hends
            | some d₀ =>
              obtain ⟨rfl, hrun⟩ := hends
              have hread : s.records.inv d.id = some d₀ := (Prod.mk.inj (Option.some.inj hex')).1
              obtain rfl : d₀ = d := Option.some.inj (hread.symm.trans hd)
              obtain ⟨r, hr, hword⟩ := (Option.any_eq_true _ _).mp hrun
              have hword : r.state = "running" := of_decide_eq_true hword
              rw [not_overlooked_of_asked hr (by simp [hword, askedWords])] at hover
              cases hover
        | change id' u =>
          obtain ⟨rfl, hu⟩ := hends
          rw [hsettles u rfl] at hu
          cases hu
        | _ => cases hends
      · have hlt : i < ms.length := (List.getElem?_eq_some_iff.mp hm).1
        exact ⟨_, List.mem_set hlt _, hnext⟩
    · rw [not_overlooked_of_unpushed rfl] at h
      cases h
  · rw [records_eq_of_ne_record (fun r ho => hrec ⟨r, ho⟩) hex] at hd'
    refine exists_mem_set hm (fun hid => ?_) (hJ.kept id d' hd' h)
    refine (owes_next hmay hid).resolve_right fun hends => ?_
    cases o with
    | record r => exact hrec ⟨r, rfl⟩
    | _ => cases hends

/-- **Every step that the condition allows** leaves no drive overlooked. -/
theorem keeps_watched (hdrain : cfg.drainOnFailing = true) :
    Keeps (daemon cfg newV5) (drainProtocol cfg) Attended Watched where
  entry := drains_entry
  start s ms r hJ _ _ := by
    have hone : ∀ {p : Drainer → Prop}, p (Drainer.of r) → ∀ m ∈ [Drainer.of r], p m :=
      fun hp m hm => List.mem_singleton.mp hm ▸ hp
    refine ⟨rfl, List.forall_mem_append.mpr ⟨hJ.heard, hone (heard_of r)⟩,
      List.forall_mem_append.mpr ⟨hJ.said, hone (said_of r)⟩, fun id d hd h => ?_, hJ.filed⟩
    obtain ⟨m, hm, hid⟩ := hJ.kept id d hd h
    exact ⟨m, List.mem_append_left _ hm, hid⟩
  turn s ms i m o e a s' hJ hm hmay hex hok := by
    have hex : o.exec newV5 e s = some (a, s') := hex
    refine ⟨trivial, fun r _ => rfl, ?_, said_turn hJ.said hm hok.polled, fun id d' hd' h => ?_, ?_⟩
    · exact heard_turn hJ.heard hm (fun _ => by simp [engineWords])
        fun _ st _ hst => hok.started st hst
    · obtain ⟨n, hn, hid⟩ := hJ.kept_turn hdrain hm hmay hex hok hd' h
      exact ⟨n, List.mem_append_left _ hn, hid⟩
    · refine hJ.filed.exec hex fun ho id d hd => ?_
      subst ho
      by_contra hover
      rw [Bool.not_eq_false] at hover
      obtain ⟨n, hn, hid⟩ := hJ.kept id d hd hover
      rw [hok n hn id d hid hd] at hover
      cases hover
  world s ms w s' hJ hw _ := by
    refine ⟨hJ.heard, hJ.said, fun id d' hd' h => ?_, hJ.filed.world hw⟩
    obtain ⟨d, _, _, _, hd, rfl⟩ := inv_world_cases hw hd'
    exact hJ.kept id d hd h
  crash s ms hJ _ := by
    refine ⟨fun r _ => rfl, fun m hm => ?_, fun m hm => ?_, fun id d' hd' h => ?_, hJ.filed.boot⟩
    · obtain ⟨r, -, rfl⟩ := List.mem_map.mp hm
      exact heard_of r
    · obtain ⟨r, -, rfl⟩ := List.mem_map.mp hm
      exact said_of r
    · obtain ⟨d, hd, rfl⟩ := Option.map_eq_some_iff.mp hd'
      have hover : d.overlooked = true := h
      rw [hJ.filed.saved id d hd] at hover
      cases hover

end Invariant

/-! ## Whole runs -/

/-- **No failing drive is forgotten, where the steps are so.**

**Proof sketch.** The invariant (`keeps_watched`): a drive of the fleet that is on record as failing
has a drain on record, or a task is on the way to it. A task that writes such a report goes on to
ask for the drain (`owes_next`), and it writes the drain down, running or pending. A task that has
ended is on the way to nothing. -/
theorem neverOverlooked_of_attended (cfg : Settings) (newV5 : String → Uuid) :
    NeverOverlooked cfg newV5 Attended := by
  intro _ hdrain s es c id d hinv hfiled hrun hended hd hin hmarked
  have hstart : Watched s [] :=
    { heard := by simp
      said := by simp
      kept := fun id d hd h => by
        rw [hinv id d hd] at h
        cases h
      filed := hfiled }
  have hgood : Good (drainProtocol cfg) Watched c :=
    (keeps_watched hdrain).run (good_idle hstart) hrun
  refine .inl ?_
  by_contra hasked
  rw [Bool.not_eq_true] at hasked
  obtain ⟨m, hm, howes⟩ := hgood.inv.kept id d hd (overlooked_iff.mpr ⟨hin, hmarked, hasked⟩)
  obtain ⟨t, ht, rfl⟩ := List.mem_map.mp hm
  obtain ⟨r, hr⟩ := hended t ht howes
  have hwp := hgood.keeps t ht
  rw [hr] at hwp
  have hnone : t.mark.owes = none := by
    cases r with
    | none => exact hwp.2
    | some r =>
      have hready : t.mark = Drainer.of r := hwp
      rw [hready]
      cases r <;> rfl
  rw [hnone] at howes
  cases howes

/-- A host whose only drive is in the fleet, and fails. -/
def State.oneFailing : State :=
  { State.sole { Drive.testFixture ⟨⟨7⟩⟩ "sdb" with
      membership := .fleet, health := ⟨some .failing⟩ } with
    sync := { serving := true } }

/-- The tick reports the drive, the monitor saves the inventory, and the daemon stops before the
tick has come to the drain. -/
def savedBetween : List (Move Env World Req) :=
  [.start .fleetTick] ++ List.replicate 10 (.turn 0 {}) ++
    [.start .collect, .turn 1 { ok := false }, .turn 1 {}, .turn 1 {}, .crash]

/-- The drive of the fleet is on record as failing, no drain was asked for, and the next tick asks
for none. No task is on the way to the drain. -/
def leftFailing (c : Config Op Op.Ans State Req Drainer) : Bool :=
  (c.state.records.inv ⟨⟨7⟩⟩).any (fun d => d.overlooked && !d.reportedNext) &&
    c.marks.all fun m => m.owes = none

/-- **Not in every run**: a crash between the report of a failing drive and its drain leaves it
without one, when the inventory was saved in between. -/
theorem failing_drive_overlooked :
    ¬ NeverOverlooked {} (fun _ => ⟨0⟩) fun _ _ _ => True := by
  intro hnever
  obtain ⟨es, c, hrun, hcheck⟩ : ∃ es c, Run (daemon {} fun _ => ⟨0⟩) (drainTracer {})
      (fun _ _ _ => True) ⟨State.oneFailing, []⟩ es c ∧ leftFailing c = true :=
    exists_run_of_moves savedBetween (by decide +kernel)
  obtain ⟨hany, hfree⟩ := Bool.and_eq_true_iff.mp hcheck
  obtain ⟨d, hd, hleft⟩ := (Option.any_eq_true _ _).mp hany
  obtain ⟨hover, hnext⟩ := Bool.and_eq_true_iff.mp hleft
  obtain ⟨hin, hmarked, hasked⟩ := overlooked_iff.mp hover
  have hinv : ∀ id d, State.oneFailing.records.inv id = some d → d.overlooked = false := by
    intro id d hd
    simp only [State.oneFailing, State.sole] at hd
    split at hd
    · cases hd
      rfl
    · cases hd
  have hfiled : Filed (fun d => d.overlooked = false) State.oneFailing := by
    constructor
    · intro id d hd
      cases hd
    · intro snap id d hsnap
      cases hsnap
  have hended : ∀ t ∈ c.threads, t.mark.owes = some ⟨⟨7⟩⟩ → ∃ r, t.prog = .ret r := by
    intro t ht howes
    have hnone : t.mark.owes = none :=
      of_decide_eq_true (List.all_eq_true.mp hfree t.mark (List.mem_map_of_mem ht))
    rw [hnone] at howes
    cases howes
  have hboth := hnever rfl rfl State.oneFailing es c _ d hinv hfiled hrun hended hd hin hmarked
  rw [hasked] at hboth
  rcases hboth with h | h
  · cases h
  · rw [h] at hnext
    cases hnext

end StormDrive
