import StormDrive.Daemon.Drains

set_option relaxedAutoImplicit false
set_option autoImplicit false

/-!
# Drained drives that are to leave

Whether a drive that is to leave the fleet once it is drained is forgotten there: its record says
that the drain is over, and no later tick does anything about it.

## Main definitions

* `Drive.forgotten` — the drive is to leave the fleet, and nothing retries that.
* `NoneForgotten` — no drive is forgotten, in runs whose steps meet a condition.
* `Retired` — the steps after which none is.

## Main results

* `noneForgotten_of_retired` — in runs of such steps no drive is forgotten.
* `empty_drain_forgotten` — a drain that the engine calls empty at once is forgotten.
-/

namespace StormDrive

open Interleave Interleave.Prog

/-! ## The property -/

/-- The states of a drain that a later tick acts on, and those that an operator has to look at. -/
def keptWords : List String :=
  ["running", pending, "stuck", "cancelled"]

/-- The drive is in the fleet and is to leave it when its drain ends, and its drain has ended. -/
def Drive.forgotten (d : Drive) : Bool :=
  d.membership = .fleet && d.drain.any fun r => r.thenLeave && !keptWords.contains r.state

section Property

variable (cfg : Settings) (newV5 : String → Uuid)

/-- **A drained drive that is to leave is not forgotten**, in runs whose steps meet the condition:
where every task that has found the drive empty and taken it out has ended, as at the end of a tick,
the drive is out of the fleet or its drain is in a state that a later tick acts on, stuck or
cancelled. -/
def NoneForgotten (ok : Condition Op Op.Ans State World Req Drainer) : Prop :=
  ∀ (s : State) (es : List (Interleave.Event Op Op.Ans World Req)) (c : Config Op Op.Ans State Req Drainer)
    (id : DriveId) (d : Drive),
    (∀ id d, s.records.inv id = some d → d.forgotten = false) →
    Filed (fun d => d.forgotten = false) s →
    Run (daemon cfg newV5) (drainTracer cfg) ok ⟨s, []⟩ es c →
    (∀ t ∈ c.threads, t.mark.retiring = some id → ∃ r, t.prog = .ret r) →
    c.state.records.inv id = some d → d.forgotten = false

/-- **The steps after which no drive is forgotten**:

* A start of a drain that is to end in a leave is not answered with `empty`, nor with a word that
  the engine does not have. A poll is answered with a word that it has.
* A poll that finds a drain empty whose record says that the drive leaves has been listed so.
* The engine closes a drive that is retired.
* The reconciliation takes back no drive whose record has such a drain that has ended.
* The inventory is not copied while a drive that was found empty is being taken out. -/
def Retired : Condition Op Op.Ans State World Req Drainer
  | _, ms, .turn i (.engine (.startDrain ..)) (.ok st) => ∀ m w, ms[i]? = some m →
    m.todo.head? = some w → w.thenLeave = true → st.state ∈ keptWords
  | _, _, .turn _ (.engine (.drainStatus ..)) (.ok (some st)) => st.state ∈ engineWords
  | s, ms, .turn i (.record (.change id (.drainStatus "empty" _))) _ => ∀ m d, ms[i]? = some m →
    s.records.inv id = some d → (d.drain.any fun r => r.thenLeave) = true →
    m.polls.head? = some (id, true)
  | s, ms, .turn i (.engine (.deleteDrive ..)) (.error _) => ∀ m id d, ms[i]? = some m →
    m.retiring = some id → s.records.inv id = some d → d.forgotten = false
  | s, _, .turn _ (.record (.reconcile listed)) _ => ∀ id d, s.records.inv id = some d →
    d.membership = .out → (d.reconciled listed).forgotten = false
  | s, ms, .turn _ (.record .snapshot) _ => ∀ m ∈ ms, ∀ id d, m.retiring = some id →
    s.records.inv id = some d → d.forgotten = false
  | _, _, _ => True

end Property

/-! ## The invariant -/

/-- What the tasks have heard is among the engine's words, and every drive whose drain has ended is
being taken out. -/
structure Remembered (s : State) (ms : List Drainer) : Prop where
  heard : ∀ m ∈ ms, m.Heard fun w word => w.thenLeave = true → word ∈ keptWords
  said : ∀ m ∈ ms, m.Said fun word => word ∈ engineWords
  kept : ∀ id d, s.records.inv id = some d → d.forgotten = true → ∃ m ∈ ms, m.retiring = some id
  filed : Filed (fun d => d.forgotten = false) s

section Invariant

variable {cfg : Settings} {newV5 : String → Uuid} {s s' : State} {ms : List Drainer} {i : Nat}
  {m : Drainer} {d : Drive}

/-- The operation ends what a task does to retire a drive. -/
def Op.endsRetirement (id : DriveId) : (o : Op) → o.Ans → Prop
  | .record (.read .other id'), none => id' = id
  | .record (.change id' .retired), _ => id' = id
  | .engine (.deleteDrive _ _ id'), .error _ => id' = id
  | _, _ => False

/-- **A task that retires a drive** goes on with it to the end. -/
lemma retiring_next {id : DriveId} {o : Op} {a : o.Ans} (hmay : m.May cfg o)
    (hid : m.retiring = some id) :
    (m.next cfg o a).retiring = some id ∨ o.endsRetirement id a := by
  have hretires : o.retires id := hmay.retires id hid
  cases o with
  | record r =>
    cases r with
    | read site id' =>
      cases site with
      | approval => cases hretires
      | other =>
        cases a with
        | none => exact .inr hretires
        | some d =>
          simp only [Drainer.next_read, Drainer.read, hid]
          exact .inl trivial
    | change id' u => cases u <;> exact .inr hretires
    | _ => cases hretires
  | engine r =>
    cases r with
    | deleteDrive path force id' =>
      cases a with
      | ok u => exact .inl hid
      | error why => exact .inr hretires
    | _ => cases hretires
  | _ => cases hretires

/-- A drive whose drain has ended, by its record. -/
lemma forgotten_iff : d.forgotten = true ↔
    d.membership = .fleet ∧ ∃ r, d.drain = some r ∧ r.thenLeave = true ∧ r.state ∉ keptWords := by
  simp [Drive.forgotten, Option.any_eq_true]

/-- A drive without a drain is not forgotten. -/
lemma forgotten_of_none (h : d.drain = none) : d.forgotten = false := by
  simp [Drive.forgotten, h]

/-- A drive out of the fleet is not forgotten. -/
lemma forgotten_of_out (h : d.membership = .out) : d.forgotten = false := by
  simp [Drive.forgotten, h]

/-- A drive is forgotten only if it was, when it keeps its drain and does not join. -/
lemma forgotten_of_same {d' : Drive} (hdrain : d'.drain = d.drain)
    (hin : d'.membership = .fleet → d.membership = .fleet) (h : d'.forgotten = true) :
    d.forgotten = true := by
  rw [forgotten_iff] at h ⊢
  rw [hdrain] at h
  exact ⟨hin h.1, h.2⟩

/-- A drain that is kept pending is not forgotten. -/
lemma forgotten_markPending (reason : String) (thenLeave : Bool) (error : String) :
    (d.markPending reason thenLeave error).forgotten = false := by
  have hstate : (d.markPending reason thenLeave error).drain.any (fun r => r.state = pending) =
      true := by
    simp only [Drive.markPending]
    split <;> simp
  rw [← Bool.not_eq_true, forgotten_iff]
  rintro ⟨-, r, hr, -, hno⟩
  rw [hr] at hstate
  have hpending : r.state = pending := of_decide_eq_true hstate
  rw [hpending] at hno
  exact hno (by simp [keptWords])

/-- **A change by a task that keeps to the protocol** makes no drive forgotten, but for the poll
that goes on to retire it. -/
lemma forgotten_apply {id : DriveId} {u : DriveUpdate} {a : Option Drive}
    (hmay : m.mayWrite cfg (.record (.change id u)))
    (hheard : m.Heard fun w word => w.thenLeave = true → word ∈ keptWords)
    (hsaid : m.Said fun word => word ∈ engineWords)
    (hempty : ∀ errors, u = .drainStatus "empty" errors →
      (d.drain.any fun r => r.thenLeave) = true → m.polls.head? = some (id, true))
    (h : (d.apply u).forgotten = true) :
    d.forgotten = true ∧ u ≠ .retired ∨
      (m.next cfg (.record (.change id u)) a).retiring = some id := by
  by_cases hu : u.movesDrain = true
  · cases u with
    | enrolled =>
      rw [forgotten_of_none rfl] at h
      cases h
    | joined =>
      rw [forgotten_of_none rfl] at h
      cases h
    | drainStarted r =>
      obtain ⟨w, ⟨hw, -⟩, hword, hleave⟩ := hmay
      have hdrain : (d.apply (.drainStarted r)).drain = some r := by
        simp only [Drive.apply]
        split <;> rfl
      obtain ⟨-, r', hr', hthen, hno⟩ := forgotten_iff.mp h
      rw [hdrain] at hr'
      cases hr'
      exact absurd (hheard w r.state hw hword (hleave ▸ hthen)) hno
    | drainRefused reason thenLeave error =>
      simp only [Drive.apply] at h
      split at h
      · rw [forgotten_markPending] at h
        cases h
      · exact .inl ⟨h, by simp⟩
    | drainPending thenLeave error =>
      simp only [Drive.apply] at h
      rw [forgotten_markPending] at h
      cases h
    | drainStatus state errors =>
      obtain ⟨-, hword⟩ := hmay
      obtain ⟨-, r', hr', hthen, hno⟩ := forgotten_iff.mp h
      obtain ⟨r, hr, rfl⟩ := Option.map_eq_some_iff.mp hr'
      have hstate : state = "empty" := by
        have hmem := hsaid state hword
        simp only [engineWords, keptWords, List.mem_cons, List.not_mem_nil, or_false,
          not_or] at hmem hno
        exact (hmem.resolve_left hno.1).resolve_right fun hlast =>
          hlast.elim hno.2.2.1 hno.2.2.2
      subst hstate
      have hpoll := hempty errors rfl (by rw [hr]; exact hthen)
      refine .inr ?_
      obtain ⟨rest, hpolls⟩ : ∃ rest, m.polls = (id, true) :: rest := by
        cases hp : m.polls with
        | nil =>
          rw [hp] at hpoll
          cases hpoll
        | cons x rest =>
          rw [hp] at hpoll
          cases hpoll
          exact ⟨rest, rfl⟩
      simp [Drainer.next_polled, Drainer.polled, hpolls]
    | drainCancelled =>
      have hdrain : (d.apply .drainCancelled).drain =
          d.drain.map fun r => { r with state := "cancelled" } := by
        simp only [Drive.apply]
        split <;> rfl
      obtain ⟨-, r', hr', -, hno⟩ := forgotten_iff.mp h
      rw [hdrain] at hr'
      obtain ⟨r, -, rfl⟩ := Option.map_eq_some_iff.mp hr'
      exact absurd (by simp [keptWords]) hno
    | drainDropped => exact False.elim hmay
    | _ => cases hu
  · rw [Bool.not_eq_true] at hu
    by_cases hretired : u = .retired
    · subst hretired
      rw [forgotten_of_out rfl] at h
      cases h
    · refine .inl ⟨forgotten_of_same (drain_apply hu d) (fleet_of_apply ?_) h, hretired⟩
      cases u <;> first | rfl | cases hu

/-- **A section of a task that keeps to the protocol** makes no drive forgotten. -/
lemma forgotten_onDrive {o : RecordOp} {e : Env} {a : o.Ans} (hmay : m.mayWrite cfg (.record o))
    (hheard : m.Heard fun w word => w.thenLeave = true → word ∈ keptWords)
    (hsaid : m.Said fun word => word ∈ engineWords)
    (hempty : ∀ errors, o = .change d.id (.drainStatus "empty" errors) →
      (d.drain.any fun r => r.thenLeave) = true → m.polls.head? = some (d.id, true))
    (hrec : ∀ listed, o = .reconcile listed → d.membership = .out →
      (d.reconciled listed).forgotten = false)
    (h : (o.onDrive newV5 e d).forgotten = true) :
    d.forgotten = true ∧ o ≠ .change d.id .retired ∨
      (m.next cfg (.record o) a).retiring = some d.id := by
  by_cases hchange : ∃ u, o = .change d.id u
  · obtain ⟨u, rfl⟩ := hchange
    rw [RecordOp.onDrive, if_pos rfl] at h
    rcases forgotten_apply (a := a) hmay hheard hsaid
      (fun errors hu => hempty errors (by rw [hu])) h with ⟨hd, hu⟩ | hnext
    · exact .inl ⟨hd, fun ho => hu (by cases ho; rfl)⟩
    · exact .inr hnext
  have hne : o ≠ .change d.id .retired := fun ho => hchange ⟨_, ho⟩
  by_cases hdrop : o = .dropPending d.id
  · subst hdrop
    rw [RecordOp.onDrive, if_pos rfl] at h
    simp only [Drive.apply] at h
    split at h
    · rw [forgotten_of_none rfl] at h
      cases h
    · exact .inl ⟨h, hne⟩
  by_cases hreconcile : ∃ listed, o = .reconcile listed
  · obtain ⟨listed, rfl⟩ := hreconcile
    have h : (d.reconciled listed).forgotten = true := h
    refine .inl ⟨?_, hne⟩
    cases hin : d.membership with
    | out =>
      rw [hrec listed rfl hin] at h
      cases h
    | fleet =>
      refine forgotten_of_same ?_ (fun _ => hin) h
      rw [Drive.reconciled_eq]
  · have hu : ∀ u, o = .change d.id u → False := fun u ho => hchange ⟨u, ho⟩
    refine .inl ⟨forgotten_of_same (drain_onDrive (fun u ho => (hu u ho).elim) hdrop) ?_ h, hne⟩
    exact fleet_of_onDrive (fun u ho => (hu u ho).elim) fun listed ho => hreconcile ⟨listed, ho⟩

/-- The answer to a start, in a step that the condition allows. -/
lemma Retired.started {o : Op} {a : o.Ans} (hok : Retired s ms (.turn i o a))
    (hm : ms[i]? = some m) (w : Wish) (st : DrainStatus) (hw : m.todo.head? = some w)
    (hst : o.startedAs a = some st) (hleave : w.thenLeave = true) : st.state ∈ keptWords := by
  cases o with
  | engine r =>
    cases r with
    | startDrain path id =>
      cases a with
      | ok st' =>
        cases hst
        exact hok m w hm hw hleave
      | error why => cases hst
    | _ => cases hst
  | _ => cases hst

/-- The answer to a poll, in a step that the condition allows. -/
lemma Retired.polled {o : Op} {a : o.Ans} (hok : Retired s ms (.turn i o a)) (st : DrainStatus)
    (hst : o.polledAs a = some st) : st.state ∈ engineWords := by
  cases o with
  | engine r =>
    cases r with
    | drainStatus path id =>
      cases a with
      | ok found =>
        cases found with
        | some st' =>
          cases hst
          exact hok
        | none => cases hst
      | error why => cases hst
    | _ => cases hst
  | _ => cases hst

/-- **The drives whose drain has ended** are being taken out after a step, too. -/
lemma Remembered.kept_turn {o : Op} {e : Env} {a : o.Ans} (hJ : Remembered s ms)
    (hm : ms[i]? = some m) (hmay : m.May cfg o) (hex : o.exec newV5 e s = some (a, s'))
    (hok : Retired s ms (.turn i o a)) {id : DriveId} {d' : Drive}
    (hd' : s'.records.inv id = some d') (h : d'.forgotten = true) :
    ∃ n ∈ ms.set i (m.next cfg o a), n.retiring = some id := by
  have hmem : m ∈ ms := List.mem_of_getElem? hm
  by_cases hrec : ∃ r, o = .record r
  · obtain ⟨r, rfl⟩ := hrec
    obtain ⟨hex', -⟩ := exec_record hex
    rcases inv_exec_cases hex' hd' with ⟨d, hd, rfl⟩ | ⟨-, primary, paths, rfl⟩
    · obtain rfl : d.id = id := Records.id_of_inv hd
      have hcases := forgotten_onDrive (a := a) hmay.write (hJ.heard m hmem) (hJ.said m hmem)
        (fun errors ho => by subst ho; exact hok m d hm hd)
        (fun listed ho => by subst ho; exact hok d.id d hd) h
      rcases hcases with ⟨hforgotten, hne⟩ | hnext
      · refine exists_mem_set hm (fun hid => ?_) (hJ.kept d.id d hd hforgotten)
        refine (retiring_next hmay hid).resolve_right fun hends => ?_
        cases r with
        | read site id' =>
          cases site with
          | approval => cases hends
          | other =>
            cases a with
            | none =>
              obtain rfl : id' = d.id := hends
              have hnone : s.records.inv d.id = none := (Prod.mk.inj (Option.some.inj hex')).1
              rw [hnone] at hd
              cases hd
            | some d => cases hends
        | change id' u =>
          cases u with
          | retired =>
            obtain rfl : id' = d.id := hends
            exact hne rfl
          | _ => cases hends
        | _ => cases hends
      · have hlt : i < ms.length := (List.getElem?_eq_some_iff.mp hm).1
        exact ⟨_, List.mem_set hlt _, hnext⟩
    · rw [forgotten_of_none rfl] at h
      cases h
  · rw [records_eq_of_ne_record (fun r ho => hrec ⟨r, ho⟩) hex] at hd'
    refine exists_mem_set hm (fun hid => ?_) (hJ.kept id d' hd' h)
    refine (retiring_next hmay hid).resolve_right fun hends => ?_
    cases o with
    | record r => exact hrec ⟨r, rfl⟩
    | engine r =>
      cases r with
      | deleteDrive path force id' =>
        cases a with
        | ok u => cases hends
        | error why =>
          rw [hok m id d' hm hid hd'] at h
          cases h
      | _ => cases hends
    | _ => cases hends

/-- **Every step that the condition allows** leaves no drive forgotten. -/
theorem keeps_remembered :
    Keeps (daemon cfg newV5) (drainProtocol cfg) Retired Remembered where
  entry := drains_entry
  start s ms r hJ _ _ := by
    have hone : ∀ {p : Drainer → Prop}, p (Drainer.of r) → ∀ m ∈ [Drainer.of r], p m :=
      fun hp m hm => List.mem_singleton.mp hm ▸ hp
    refine ⟨rfl, List.forall_mem_append.mpr ⟨hJ.heard, hone (heard_of r)⟩,
      List.forall_mem_append.mpr ⟨hJ.said, hone (said_of r)⟩, fun id d hd h => ?_, hJ.filed⟩
    obtain ⟨m, hm, hid⟩ := hJ.kept id d hd h
    exact ⟨m, List.mem_append_left _ hm, hid⟩
  turn s ms i m o e a s' hJ hm hmay hex hok := by
    have hex : o.exec newV5 e s = some (a, s') := hex
    refine ⟨trivial, fun r _ => rfl, ?_, said_turn hJ.said hm hok.polled, fun id d' hd' h => ?_, ?_⟩
    · exact heard_turn hJ.heard hm (fun _ _ => by simp [keptWords]) (hok.started hm)
    · obtain ⟨n, hn, hid⟩ := hJ.kept_turn hm hmay hex hok hd' h
      exact ⟨n, List.mem_append_left _ hn, hid⟩
    · refine hJ.filed.exec hex fun ho id d hd => ?_
      subst ho
      by_contra hforgotten
      rw [Bool.not_eq_false] at hforgotten
      obtain ⟨n, hn, hid⟩ := hJ.kept id d hd hforgotten
      rw [hok n hn id d hid hd] at hforgotten
      cases hforgotten
  world s ms w s' hJ hw _ := by
    refine ⟨hJ.heard, hJ.said, fun id d' hd' h => ?_, hJ.filed.world hw⟩
    obtain ⟨d, _, _, _, hd, rfl⟩ := inv_world_cases hw hd'
    exact hJ.kept id d hd h
  crash s ms hJ _ := by
    refine ⟨fun r _ => rfl, fun m hm => ?_, fun m hm => ?_, fun id d' hd' h => ?_, hJ.filed.boot⟩
    · obtain ⟨r, -, rfl⟩ := List.mem_map.mp hm
      exact heard_of r
    · obtain ⟨r, -, rfl⟩ := List.mem_map.mp hm
      exact said_of r
    · obtain ⟨d, hd, rfl⟩ := Option.map_eq_some_iff.mp hd'
      have hforgotten : d.forgotten = true := h
      rw [hJ.filed.saved id d hd] at hforgotten
      cases hforgotten

end Invariant

/-! ## Whole runs -/

/-- **No drive is forgotten, where the steps are so.**

**Proof sketch.** The invariant (`keeps_remembered`): a drive whose drain has ended is being taken
out, since only the poll that finds it empty writes such a record, and that task goes on to retire
it. It ends there only when the drive is out, for the engine closes it. A task that has ended has no
drive in hand. -/
theorem noneForgotten_of_retired (cfg : Settings) (newV5 : String → Uuid) :
    NoneForgotten cfg newV5 Retired := by
  intro s es c id d hinv hfiled hrun hended hd
  have hstart : Remembered s [] :=
    { heard := by simp
      said := by simp
      kept := fun id d hd h => by
        rw [hinv id d hd] at h
        cases h
      filed := hfiled }
  have hgood : Good (drainProtocol cfg) Remembered c :=
    keeps_remembered.run (good_idle hstart) hrun
  by_contra hforgotten
  rw [Bool.not_eq_false] at hforgotten
  obtain ⟨m, hm, hretiring⟩ := hgood.inv.kept id d hd hforgotten
  obtain ⟨t, ht, rfl⟩ := List.mem_map.mp hm
  obtain ⟨r, hr⟩ := hended t ht hretiring
  have hwp := hgood.keeps t ht
  rw [hr] at hwp
  have hnone : t.mark.drives = [] := by
    cases r with
    | none => exact hwp.1
    | some r =>
      have hready : t.mark = Drainer.of r := hwp
      rw [hready]
      exact drives_of r
  simp [Drainer.drives, hretiring] at hnone

/-- A host whose only drive is in the fleet. -/
def State.oneInFleet : State :=
  { State.sole { Drive.testFixture ⟨⟨7⟩⟩ "sdb" with membership := .fleet } with
    sync := { serving := true } }

/-- The operator asks for a drain that is to end in a leave, the engine answers that the drive is
empty, and then a whole tick runs. -/
def emptyAtOnce : List (Move Env World Req) :=
  [.start (.startDrain ⟨⟨7⟩⟩ true), .turn 0 {}, .turn 0 {},
    .turn 0 { drain := some ⟨"empty", []⟩ }, .turn 0 {}, .turn 0 {}, .turn 0 {},
    .start .fleetTick] ++ List.replicate 12 (.turn 1 {})

/-- The task has ended. -/
def ended (t : Thread Op Op.Ans Req Drainer) : Bool :=
  match t.prog with
  | .ret _ => true
  | _ => false

/-- The drive is forgotten, and every task has ended. -/
def leftEmpty (c : Config Op Op.Ans State Req Drainer) : Bool :=
  (c.state.records.inv ⟨⟨7⟩⟩).any Drive.forgotten && c.threads.all ended

/-- **Not in every run**: a drain that the engine calls empty at once stays so on record, and the
drive in the fleet, at the end of the next tick. -/
theorem empty_drain_forgotten : ¬ NoneForgotten {} (fun _ => ⟨0⟩) fun _ _ _ => True := by
  intro hnone
  obtain ⟨es, c, hrun, hcheck⟩ : ∃ es c, Run (daemon {} fun _ => ⟨0⟩) (drainTracer {})
      (fun _ _ _ => True) ⟨State.oneInFleet, []⟩ es c ∧ leftEmpty c = true :=
    exists_run_of_moves emptyAtOnce (by decide +kernel)
  obtain ⟨hany, hfree⟩ := Bool.and_eq_true_iff.mp hcheck
  obtain ⟨d, hd, hforgotten⟩ := (Option.any_eq_true _ _).mp hany
  have hinv : ∀ id d, State.oneInFleet.records.inv id = some d → d.forgotten = false := by
    intro id d hd
    simp only [State.oneInFleet, State.sole] at hd
    split at hd
    · cases hd
      rfl
    · cases hd
  have hfiled : Filed (fun d => d.forgotten = false) State.oneInFleet := by
    constructor
    · intro id d hd
      cases hd
    · intro snap id d hsnap
      cases hsnap
  have hended : ∀ t ∈ c.threads, t.mark.retiring = some ⟨⟨7⟩⟩ → ∃ r, t.prog = .ret r := by
    intro t ht _
    have hall : ended t = true := List.all_eq_true.mp hfree t ht
    unfold ended at hall
    split at hall
    · next r hr => exact ⟨r, hr⟩
    · cases hall
  rw [hnone State.oneInFleet es c _ d hinv hfiled hrun hended hd] at hforgotten
  cases hforgotten

end StormDrive
