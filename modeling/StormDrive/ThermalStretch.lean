import StormDrive.Interleave.Stretches
import StormDrive.ThermalPass

set_option relaxedAutoImplicit false
set_option autoImplicit false

/-!
# Since when a component is hot

What the tracker keeps of a component between passes (`thermal.rs`, `Tracker::pass`) — since when it
is at its level, its recent readings, the hottest of them — is about the stretch of passes since
which the component is there, or is at its level. A drive's replacement is proposed from that.

## Main definitions

* `Thermal.Node.levelOf` — the level of a component, when there is one.
* `Thermal.readingsOf`, `Thermal.lastTemps` — what the passes of a stretch read of a component.

## Main results

* `Thermal.since_began` — **a component is at its level since the pass with which the stretch
  began**.
* `Thermal.replacement_proposed_iff` — **a drive's replacement is proposed exactly when it has been
  critical in every pass of a stretch that began so long ago**.
* `Thermal.kept_of_stretch` — **the trend is the end of what was read** since the component is there,
  and the hottest reading the highest of it.
-/

namespace StormDrive

namespace Thermal

variable {α : Type} [NatCast α] [Sub α] [LinearOrder α]

/-! ## One happening -/

/-- The last reading of a component in a pass. -/
def lastReading (p : PassInput α) (id : String) : Option (Reading α) :=
  p.readings.reverse.find? fun r => r.id = id

/-- The components of a pass are those of the last readings. -/
lemma get_lastReading (w : WholeTracker α) (p : PassInput α) (id : String) :
    OrderedMap.get (w.next p) id = (lastReading p id).map (w.tracker.component p) := by
  unfold WholeTracker.next lastReading
  induction p.readings using List.reverseRecOn with
  | nil => rfl
  | append_singleton rs r ih =>
    rw [List.map_append, List.map_singleton, OrderedMap.ofList_concat, List.reverse_concat]
    by_cases same : r.id = id
    · subst same
      rw [OrderedMap.get_insert_self, List.find?_cons_of_pos (by simp)]
      rfl
    · rw [OrderedMap.get_insert_of_ne (Ne.symm same), ih,
        List.find?_cons_of_neg (by simpa using same)]

/-- A component of the node. -/
def Node.get (n : Node α) (id : String) : Option (Component α) :=
  OrderedMap.get n.tracker.components id

/-- The level of a component, when there is one. -/
def Node.levelOf (n : Node α) (id : String) : Option Level :=
  (n.get id).map Component.level

lemma Node.get_pass (n : Node α) (p : PassWhole α) (inventory : DriveId → Bool) (kept : Bool)
    (id : String) :
    (n.step (.pass p inventory kept)).get id =
      (lastReading p.toPassInput id).map (n.tracker.tracker.component p.toPassInput) :=
  get_lastReading n.tracker p.toPassInput id

/-- A component that is at the level it was at keeps the time, another has this pass's. -/
lemma sinceUnix_component (w : WholeTracker α) (p : PassInput α) (r : Reading α) :
    (w.tracker.component p r).sinceUnix = (OrderedMap.get w.components r.id).elim p.now fun c =>
      if c.level = (w.tracker.component p r).level then c.sinceUnix else p.now := by
  have known : w.tracker.components r.id = OrderedMap.get w.components r.id := rfl
  simp only [Tracker.component, known]
  cases OrderedMap.get w.components r.id <;> rfl

omit [NatCast α] [Sub α] [LinearOrder α] in
lemma id_of_lastReading {p : PassInput α} {id : String} {r : Reading α}
    (h : lastReading p id = some r) : r.id = id := by
  simpa using List.find?_some h

/-! ## Since when a component is at its level -/

/-- A component came to its level in a pass. -/
lemma pass_of_since {es rest : List (Happening α)} {e : Happening α} {id : String} {l : Level}
    (since : Runs.Since Node.step (fun n => n.levelOf id = some l) {} es e rest) :
    ∃ p inventory kept, e = .pass p inventory kept := by
  have now := since.lasts [] List.nil_prefix
  rw [Runs.after_append] at now
  cases e with
  | pass p inventory kept => exact ⟨p, inventory, kept, rfl⟩
  | restart thermal => cases now
  | forget drive => exact absurd now since.began

/-- **The time that is kept is that of the pass with which the stretch began.** -/
lemma sinceUnix_of_since {es rest : List (Happening α)} {p : PassWhole α}
    {inventory : DriveId → Bool} {kept : Bool} {id : String} {l : Level}
    (since : Runs.Since Node.step (fun n => n.levelOf id = some l) {} es
      (.pass p inventory kept) rest) :
    ∃ c, (Runs.after Node.step {} (es ++ .pass p inventory kept :: rest)).get id = some c ∧
      c.sinceUnix = p.now := by
  refine since.rec_on (Q := fun fs => ∃ c,
    (Runs.after Node.step {} (es ++ .pass p inventory kept :: fs)).get id = some c ∧
      c.sinceUnix = p.now) ?_ ?_
  · -- it was not at this level before
    have now := since.lasts [] List.nil_prefix
    rw [Runs.after_append, Runs.after_cons, Runs.after_nil] at now ⊢
    set n := Runs.after Node.step ({} : Node α) es
    rw [Node.levelOf, Node.get_pass] at now
    rw [Node.get_pass]
    cases hr : lastReading p.toPassInput id with
    | none => simp [hr] at now
    | some r =>
      refine ⟨_, rfl, ?_⟩
      rw [sinceUnix_component, id_of_lastReading hr]
      cases hc : OrderedMap.get n.tracker.components id with
      | none => rfl
      | some c =>
        have level : (n.tracker.tracker.component p.toPassInput r).level = l := by
          simpa [hr] using now
        have other : c.level ≠ l := by
          intro same
          apply since.began
          show (OrderedMap.get n.tracker.components id).map Component.level = some l
          rw [hc, Option.map_some, same]
        simp [level, other]
  · intro fs f _ before now ⟨c, found, unix⟩
    have split : es ++ .pass p inventory kept :: (fs ++ [f]) =
        (es ++ .pass p inventory kept :: fs) ++ [f] := by simp
    rw [split, Runs.after_append, Runs.after_cons, Runs.after_nil] at now ⊢
    set n := Runs.after Node.step ({} : Node α) (es ++ .pass p inventory kept :: fs)
    cases f with
    | restart thermal => cases now
    | forget drive => exact ⟨c, found, unix⟩
    | pass q inventory' kept' =>
      rw [Node.levelOf, Node.get_pass] at now
      rw [Node.get_pass]
      cases hr : lastReading q.toPassInput id with
      | none => simp [hr] at now
      | some r =>
        refine ⟨_, rfl, ?_⟩
        rw [sinceUnix_component, id_of_lastReading hr]
        have here : OrderedMap.get n.tracker.components id = some c := found
        have level : (n.tracker.tracker.component q.toPassInput r).level = l := by
          simpa [hr] using now
        have same : c.level = l := by
          rw [Node.levelOf, found] at before
          exact Option.some.inj before
        simp [here, level, same, unix]

/-- **A component is at its level since the pass with which the stretch began**: it was not there
before, or at another level, and it has been at this one after everything that happened since. -/
theorem since_began (es : List (Happening α)) (id : String) (c : Component α)
    (found : (Runs.after Node.step {} es).get id = some c) :
    ∃ before p inventory kept rest, es = before ++ .pass p inventory kept :: rest ∧
      Runs.Since Node.step (fun n => n.levelOf id = some c.level) {} before
        (.pass p inventory kept) rest ∧
      c.sinceUnix = p.now := by
  have last : (Runs.after Node.step {} es).levelOf id = some c.level := by
    rw [Node.levelOf, found, Option.map_some]
  have first : ¬ ({} : Node α).levelOf id = some c.level := by
    intro held
    cases held
  obtain ⟨before, e, rest, rfl, since⟩ :=
    Runs.exists_since (P := fun n : Node α => n.levelOf id = some c.level) first es last
  obtain ⟨p, inventory, kept, rfl⟩ := pass_of_since since
  obtain ⟨c', found', unix⟩ := sinceUnix_of_since since
  obtain rfl : c = c' := Option.some.inj (found.symm.trans found')
  exact ⟨before, p, inventory, kept, rest, rfl, since, unix⟩

/-! ## The replacement of a drive -/

omit [NatCast α] [Sub α] [LinearOrder α] in
/-- What other drives mean leaves a drive alone. -/
lemma foldl_onDrive_of_ne {d : DriveId} (xs : List (DriveId × DriveState α))
    (s : (DriveId → Option (DriveState α)) × List (Note α)) (other : ∀ x ∈ xs, x.1 ≠ d) :
    (xs.foldl Node.onDrive s).1 d = s.1 d ∧
      ∀ state, .replace d state ∈ (xs.foldl Node.onDrive s).2 ↔ .replace d state ∈ s.2 := by
  induction xs generalizing s with
  | nil => exact ⟨rfl, fun _ => Iff.rfl⟩
  | cons x xs ih =>
    have apart : d ≠ x.1 := Ne.symm (other x (by simp))
    obtain ⟨kept, same⟩ := ih (Node.onDrive s x) fun y mem => other y (by simp [mem])
    constructor
    · rw [List.foldl_cons, kept]
      exact Function.update_of_ne apart ..
    · intro state
      rw [List.foldl_cons, same]
      unfold Node.onDrive
      split_ifs with proposed
      · simp [apart]
      · rfl

omit [NatCast α] [Sub α] [LinearOrder α] in
/-- The drives of a pass: one component's among those of other drives. -/
lemma states_split {p : PassWhole α} {inventory : DriveId → Bool}
    {components : List (String × Component α)} (keys : OrderedMap.Increasing components)
    {id : String} {c : Component α} {d : DriveId} (mem : (id, c) ∈ components)
    (drive : c.driveId = some d) (there : inventory d = true)
    (only : ∀ x ∈ components, x.2.driveId = some d → x.1 = id) :
    ∃ before after, ((Node.driveStates p components).filter fun x => inventory x.1) =
        before ++ (d, DriveState.ofComponent c p.now p.replaceAfter) :: after ∧
      (∀ x ∈ before, x.1 ≠ d) ∧ ∀ x ∈ after, x.1 ≠ d := by
  obtain ⟨first, rest, rfl⟩ := List.append_of_mem mem
  have none : ∀ part : List (String × Component α), part ⊆ first ++ (id, c) :: rest →
      (∀ x ∈ part, x.1 ≠ id) →
      ∀ y ∈ (Node.driveStates p part).filter fun x => inventory x.1, y.1 ≠ d := by
    intro part sub apart y memy same
    obtain ⟨x, memx, made⟩ := List.mem_filterMap.mp (List.mem_of_mem_filter memy)
    obtain ⟨d', drive', rfl⟩ := Option.map_eq_some_iff.mp made
    obtain rfl : d' = d := same
    exact apart x memx (only x (sub memx) drive')
  have sorted := List.pairwise_append.mp keys
  refine ⟨_, _, ?_, none first (List.subset_append_left ..) ?_, none rest ?_ ?_⟩
  · simp [Node.driveStates, drive, there]
  · intro x memx
    exact (sorted.2.2 x memx (id, c) (List.mem_cons_self ..)).ne
  · intro x memx
    simp [memx]
  · intro x memx
    exact ((List.pairwise_cons.mp sorted.2.1).1 x memx).ne'

/-- **A drive's replacement is proposed exactly when it has been critical in every pass of a stretch
that began so long ago.** After a pass over a drive that is in the inventory, the drive's record
proposes to replace it exactly when the stretch of passes since which it is critical, unbroken by a
pass without it or a restart, began at least so long before; and the event log tells of it exactly
when the record did not propose it before. -/
theorem replacement_proposed_iff (es : List (Happening α)) (p : PassWhole α)
    (inventory : DriveId → Bool) (kept : Bool) (id : String) (c : Component α) (d : DriveId)
    (found : (Runs.after Node.step {} (es ++ [.pass p inventory kept])).get id = some c)
    (drive : c.driveId = some d) (there : inventory d = true)
    (only : ∀ id' c', (Runs.after Node.step {} (es ++ [.pass p inventory kept])).get id' = some c' →
      c'.driveId = some d → id' = id) :
    let m := Runs.after Node.step ({} : Node α) es
    let n := Runs.after Node.step ({} : Node α) (es ++ [.pass p inventory kept])
    (((n.thermal d).any DriveState.replaceProposed = true ↔
      ∃ before q inventory' kept' rest,
        es ++ [.pass p inventory kept] = before ++ .pass q inventory' kept' :: rest ∧
        Runs.Since Node.step (fun n => n.levelOf id = some .critical) {} before
          (.pass q inventory' kept') rest ∧
        p.replaceAfter ≤ p.now - q.now) ∧
    ∀ told, n.log = m.log ++ told →
      ((∃ state, .replace d state ∈ told) ↔
        (n.thermal d).any DriveState.replaceProposed = true ∧
        (m.thermal d).any DriveState.replaceProposed = false)) := by
  intro m n
  have step : n = m.step (.pass p inventory kept) := by
    show Runs.after Node.step {} (es ++ [_]) = _
    rw [Runs.after_append]
    rfl
  have keys : OrderedMap.Increasing (m.tracker.next p.toPassInput) :=
    OrderedMap.increasing_ofList _
  have components : n.tracker.components = m.tracker.next p.toPassInput := by
    rw [step]
    rfl
  have lookup : ∀ id' c', n.get id' = some c' ↔ (id', c') ∈ m.tracker.next p.toPassInput := by
    intro id' c'
    rw [Node.get, components]
    exact keys.get_eq_some_iff
  obtain ⟨before, after, split, noneBefore, noneAfter⟩ := states_split (p := p) keys
    ((lookup id c).mp found) drive there fun x mem => only x.1 x.2 ((lookup x.1 x.2).mpr mem)
  have first := foldl_onDrive_of_ne before (m.thermal, []) noneBefore
  have rest := foldl_onDrive_of_ne after
    (Node.onDrive (before.foldl Node.onDrive (m.thermal, []))
      (d, DriveState.ofComponent c p.now p.replaceAfter)) noneAfter
  -- what the record says afterwards
  have state : n.thermal d = some (DriveState.ofComponent c p.now p.replaceAfter) := by
    have folded : n.thermal = (m.onDrives p inventory).1 := by
      rw [step]
      rfl
    rw [folded, Node.onDrives, split, List.foldl_append, List.foldl_cons, rest.1]
    exact Function.update_self ..
  have proposes : (n.thermal d).any DriveState.replaceProposed = true ↔
      c.level = .critical ∧ p.replaceAfter ≤ p.now - c.sinceUnix := by
    simp [state, DriveState.ofComponent]
  constructor
  · rw [proposes]
    constructor
    · rintro ⟨critical, long⟩
      obtain ⟨before, q, inventory', kept', rest, split, since, unix⟩ := since_began _ id c found
      rw [critical] at since
      exact ⟨before, q, inventory', kept', rest, split, since, unix ▸ long⟩
    · rintro ⟨before, q, inventory', kept', rest, split, since, long⟩
      have level := since.last
      rw [← split] at level
      obtain ⟨c', found', unix⟩ := sinceUnix_of_since since
      rw [← split, found] at found'
      obtain rfl : c = c' := Option.some.inj found'
      have critical : some c.level = some .critical := by
        rw [Node.levelOf, found] at level
        exact level
      exact ⟨Option.some.inj critical, unix ▸ long⟩
  · intro told log
    have new : told = (m.tracker.pass p).1.map .alert ++ (m.onDrives p inventory).2 ++
        ((Node.coolingChange m.tracker.cooling (m.tracker.coolingNext p)).map
          Note.cooling).toList := by
      rw [step] at log
      exact List.append_cancel_left log.symm
    have ours : (∃ state, .replace d state ∈ told) ↔ ∃ state, .replace d state ∈
        (Node.onDrive (before.foldl Node.onDrive (m.thermal, []))
          (d, DriveState.ofComponent c p.now p.replaceAfter)).2 := by
      have proposed : ∀ state, .replace d state ∈ told ↔
          .replace d state ∈ (m.onDrives p inventory).2 := by
        intro state
        cases hc : Node.coolingChange m.tracker.cooling (m.tracker.coolingNext p) <;>
          simp [new, hc]
      simp only [proposed, Node.onDrives, split, List.foldl_append, List.foldl_cons, rest.2]
    rw [ours, proposes]
    have quiet : ∀ state, .replace d state ∉ (before.foldl Node.onDrive (m.thermal, [])).2 := by
      intro state
      rw [first.2]
      exact List.not_mem_nil
    simp only [Node.onDrive, first.1, DriveState.ofComponent, decide_eq_true_eq,
      Bool.not_eq_true]
    split_ifs with proposed
    · simp [quiet, proposed]
    · simp only [quiet, exists_false, false_iff]
      exact proposed

/-- A drive at 80 °C for 2000 s is to be replaced. -/
theorem replacement_proposed_hot :
    let n := Runs.after Node.step ({} : Node ℚ)
      ([.pass (.testFixture 1000 80) (fun _ => true) true] ++
        [.pass (.testFixture 3000 80) (fun _ => true) true])
    (n.thermal ⟨⟨0⟩⟩).any DriveState.replaceProposed = true ↔
      ∃ before q inventory kept rest,
        [.pass (.testFixture 1000 80) (fun _ => true) true] ++
          [.pass (.testFixture 3000 80) (fun _ => true) true] =
            before ++ .pass q inventory kept :: rest ∧
        Runs.Since Node.step (fun n => n.levelOf "drive:a" = some .critical) {} before
          (.pass q inventory kept) rest ∧ 1800 ≤ 3000 - q.now := by
  refine (replacement_proposed_iff [.pass (.testFixture 1000 80) (fun _ => true) true]
    (.testFixture 3000 80) (fun _ => true) true "drive:a" _ ⟨⟨0⟩⟩ rfl rfl rfl ?_).1
  intro id c found _
  rw [Runs.after_append, Runs.after_cons, Runs.after_nil, Node.get_pass] at found
  obtain ⟨r, last, -⟩ := Option.map_eq_some_iff.mp found
  have mem : r ∈ (PassWhole.testFixture 3000 80).readings :=
    List.mem_reverse.mp (List.mem_of_find?_eq_some last)
  rw [← id_of_lastReading last, List.mem_singleton.mp mem]

/-! ## What is kept of a component's readings -/

/-- What a pass read of a component, with the time. -/
def readingsIn (p : PassInput α) (id : String) : List (ℕ × α) :=
  p.readings.filterMap fun r => if r.id = id then r.temp.map fun t => (p.now, t) else none

omit [NatCast α] [Sub α] [LinearOrder α] in
lemma foldl_trendOne (p : PassWhole α) (rs : List (Reading α)) (trend : String → List (ℕ × α))
    (id : String) :
    rs.foldl (WholeTracker.trendOne p) trend id =
      (rs.filterMap fun r => if r.id = id then r.temp.map fun t => (p.now, t) else none).foldl
        (pushTrend p.trendLen) (trend id) := by
  induction rs generalizing trend with
  | nil => rfl
  | cons r rs ih =>
    rw [List.foldl_cons, ih]
    unfold WholeTracker.trendOne
    cases ht : r.temp with
    | none => simp [ht]
    | some t =>
      by_cases same : r.id = id
      · simp [ht, same]
      · simp [same, Function.update_of_ne (Ne.symm same)]

omit [NatCast α] [Sub α] [LinearOrder α] in
lemma pushTrend_keepLast (len : ℕ) (l : List (ℕ × α)) (x : ℕ × α) :
    pushTrend len (Ledger.keepLast (max len 1) l) x =
      Ledger.keepLast (max len 1) (l ++ [x]) :=
  Ledger.keepLast_concat _ _ _

omit [NatCast α] [Sub α] [LinearOrder α] in
lemma foldl_pushTrend (len : ℕ) (l xs : List (ℕ × α)) :
    xs.foldl (pushTrend len) (Ledger.keepLast (max len 1) l) =
      Ledger.keepLast (max len 1) (l ++ xs) := by
  induction xs generalizing l with
  | nil => simp
  | cons x xs ih =>
    rw [List.foldl_cons, pushTrend_keepLast, ih, List.append_assoc, List.singleton_append]

/-- What the passes among the happenings read of a component, the oldest first. -/
def readingsOf (id : String) (es : List (Happening α)) : List (ℕ × α) :=
  es.flatMap fun e => match e with
    | .pass p _ _ => readingsIn p.toPassInput id
    | _ => []

/-- The last reading of each of the passes, where it gave a temperature. -/
def lastTemps (id : String) (es : List (Happening α)) : List α :=
  es.filterMap fun e => match e with
    | .pass p _ _ => (lastReading p.toPassInput id).bind Reading.temp
    | _ => none

omit [NatCast α] [Sub α] [LinearOrder α] in
lemma readingsOf_append (id : String) (es fs : List (Happening α)) :
    readingsOf id (es ++ fs) = readingsOf id es ++ readingsOf id fs :=
  List.flatMap_append

omit [NatCast α] [Sub α] [LinearOrder α] in
lemma lastTemps_append (id : String) (es fs : List (Happening α)) :
    lastTemps id (es ++ fs) = lastTemps id es ++ lastTemps id fs :=
  List.filterMap_append

/-- A maximum of temperatures: none of none, and else one of them that none is over. -/
def Hottest (m : Option α) (temps : List α) : Prop :=
  match m with
  | none => temps = []
  | some a => a ∈ temps ∧ ∀ t ∈ temps, t ≤ a

/-- One more temperature: the hottest of a component is the one of before or the reading's. -/
lemma hottest_component (w : WholeTracker α) (p : PassInput α) (r : Reading α) {temps : List α}
    (h : Hottest ((OrderedMap.get w.components r.id).bind Component.max) temps) :
    Hottest (w.tracker.component p r).max (temps ++ r.temp.toList) := by
  have known : (w.tracker.components r.id).bind Component.max =
      (OrderedMap.get w.components r.id).bind Component.max := rfl
  rw [Tracker.component]
  simp only [known]
  cases hm : (OrderedMap.get w.components r.id).bind Component.max with
  | none =>
    rw [hm] at h
    obtain rfl : temps = [] := h
    cases r.temp with
    | none => rfl
    | some t => exact ⟨by simp, by simp⟩
  | some a =>
    rw [hm] at h
    obtain ⟨mem, top⟩ := h
    cases r.temp with
    | none => exact ⟨by simpa using mem, by simpa using top⟩
    | some t =>
      constructor
      · rcases max_choice a t with same | same
        · rw [same]
          simp [mem]
        · rw [same]
          simp
      · intro u hu
        rcases List.mem_append.mp hu with hu | hu
        · exact (top u hu).trans (le_max_left a t)
        · rw [show u = t by simpa using hu]
          exact le_max_right a t

/-- A component that is not there has no trend. -/
def Node.NoTrace (n : Node α) : Prop :=
  ∀ id, n.get id = none → n.tracker.trend id = []

lemma Node.noTrace (es : List (Happening α)) :
    (Runs.after Node.step ({} : Node α) es).NoTrace := by
  apply Runs.keeps (P := fun n : Node α => n.NoTrace)
  · intro n e h id gone
    cases e with
    | restart thermal => rfl
    | forget drive => exact h id gone
    | pass p inventory kept =>
      have gone : OrderedMap.get (n.tracker.next p.toPassInput) id = none := gone
      show n.tracker.trendNext p id = []
      rw [WholeTracker.trendNext, if_neg (by simp [gone])]
  · exact fun id _ => rfl

lemma trend_pass (n : Node α) (p : PassWhole α) (inventory : DriveId → Bool) (kept : Bool)
    {id : String} (there : (n.step (.pass p inventory kept)).get id ≠ none) :
    (n.step (.pass p inventory kept)).tracker.trend id =
      (readingsIn p.toPassInput id).foldl (pushTrend p.trendLen) (n.tracker.trend id) := by
  have there : (OrderedMap.get (n.tracker.next p.toPassInput) id).isSome :=
    Option.isSome_iff_ne_none.mpr there
  show n.tracker.trendNext p id = _
  rw [WholeTracker.trendNext, if_pos there, foldl_trendOne]
  rfl

/-- What is kept of a component, when so much was read of it. -/
structure Node.Kept (n : Node α) (id : String) (len : ℕ) (readings : List (ℕ × α))
    (temps : List α) : Prop where
  trend : n.tracker.trend id = Ledger.keepLast (max len 1) readings
  hottest : Hottest ((n.get id).bind Component.max) temps

/-- **One happening after which the component is there.** -/
lemma Node.Kept.step {n : Node α} {id : String} {len : ℕ} {readings : List (ℕ × α)}
    {temps : List α} (h : n.Kept id len readings temps) (e : Happening α)
    (same : ∀ p inventory kept, e = .pass p inventory kept → p.trendLen = len)
    (there : (n.step e).get id ≠ none) :
    (n.step e).Kept id len (readings ++ readingsOf id [e]) (temps ++ lastTemps id [e]) := by
  cases e with
  | restart thermal => exact absurd rfl there
  | forget drive =>
    have nothing : readingsOf id [(.forget drive : Happening α)] = [] := rfl
    have none : lastTemps id [(.forget drive : Happening α)] = [] := rfl
    rw [nothing, none, List.append_nil, List.append_nil]
    exact ⟨h.trend, h.hottest⟩
  | pass p inventory kept =>
    constructor
    · rw [trend_pass n p inventory kept there, h.trend, same p inventory kept rfl,
        foldl_pushTrend]
      simp [readingsOf]
    · rw [Node.get_pass] at there ⊢
      cases hr : lastReading p.toPassInput id with
      | none => simp [hr] at there
      | some r =>
        have before : Hottest ((OrderedMap.get n.tracker.components r.id).bind Component.max)
            temps := by
          rw [id_of_lastReading hr]
          exact h.hottest
        have temp : lastTemps id [.pass p inventory kept] = r.temp.toList := by
          cases ht : r.temp <;> simp [lastTemps, hr, ht]
        rw [temp]
        exact hottest_component n.tracker p.toPassInput r before

/-- **What is kept of a component's readings is about the stretch since which it is there.** The
trend is the end of all its readings since then, and its hottest is the highest that the passes since
then had for it. -/
theorem kept_of_stretch (es : List (Happening α)) (len : ℕ)
    (same : ∀ p inventory kept, .pass p inventory kept ∈ es → p.trendLen = len) (id : String)
    (c : Component α) (found : (Runs.after Node.step {} es).get id = some c) :
    ∃ before e rest, es = before ++ e :: rest ∧
      Runs.Since Node.step (fun n : Node α => n.get id ≠ none) {} before e rest ∧
      (Runs.after Node.step {} es).tracker.trend id =
        Ledger.keepLast (max len 1) (readingsOf id (e :: rest)) ∧
      Hottest c.max (lastTemps id (e :: rest)) := by
  have first : ¬ ({} : Node α).get id ≠ none := fun there => there rfl
  obtain ⟨before, e, rest, rfl, since⟩ := Runs.exists_since
    (P := fun n : Node α => n.get id ≠ none) first es fun gone => by
      cases found.symm.trans gone
  refine ⟨before, e, rest, rfl, since, ?_⟩
  have kept : (Runs.after Node.step {} (before ++ e :: rest)).Kept id len
      (readingsOf id (e :: rest)) (lastTemps id (e :: rest)) := by
    refine since.rec_on (Q := fun fs => (Runs.after Node.step {} (before ++ e :: fs)).Kept id len
      (readingsOf id (e :: fs)) (lastTemps id (e :: fs))) ?_ ?_
    · have gone : (Runs.after Node.step ({} : Node α) before).get id = none := by
        simpa using since.began
      have nothing : (Runs.after Node.step ({} : Node α) before).Kept id len [] [] := by
        refine ⟨?_, ?_⟩
        · rw [Node.noTrace before id gone]
          exact List.drop_nil.symm
        · rw [gone]
          rfl
      have there := since.lasts [] List.nil_prefix
      rw [Runs.after_append, Runs.after_cons, Runs.after_nil] at there ⊢
      exact nothing.step e (fun p inventory kept eq => same p inventory kept (by simp [eq])) there
    · intro fs f pre _ there ih
      have split : before ++ e :: (fs ++ [f]) = (before ++ e :: fs) ++ [f] := by simp
      rw [split, Runs.after_append, Runs.after_cons, Runs.after_nil] at there ⊢
      rw [← List.cons_append, readingsOf_append, lastTemps_append]
      have mem : f ∈ before ++ e :: rest := by
        have : f ∈ rest := pre.subset (by simp)
        simp [this]
      exact ih.step f (fun p inventory kept eq => same p inventory kept (eq ▸ mem)) there
  refine ⟨kept.trend, ?_⟩
  have hottest := kept.hottest
  rw [found] at hottest
  exact hottest

/-- Two passes over one drive. -/
theorem kept_of_two :
    ∃ before e rest, [.pass (.testFixture 1000 40) (fun _ => true) true,
        .pass (.testFixture 1030 42) (fun _ => true) true] = before ++ e :: rest ∧
      (Runs.after Node.step ({} : Node ℚ) [.pass (.testFixture 1000 40) (fun _ => true) true,
        .pass (.testFixture 1030 42) (fun _ => true) true]).tracker.trend "drive:a" =
          Ledger.keepLast 4 (readingsOf "drive:a" (e :: rest)) := by
  obtain ⟨before, e, rest, split, -, trend, -⟩ := kept_of_stretch (α := ℚ)
    [.pass (.testFixture 1000 40) (fun _ => true) true,
      .pass (.testFixture 1030 42) (fun _ => true) true] 4 (by
        intro p inventory kept mem
        simp only [List.mem_cons, Happening.pass.injEq, List.not_mem_nil, or_false] at mem
        rcases mem with ⟨rfl, -⟩ | ⟨rfl, -⟩ <;> rfl) "drive:a" _ rfl
  exact ⟨before, e, rest, split, trend⟩

end Thermal

end StormDrive
