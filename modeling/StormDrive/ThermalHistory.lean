import Mathlib.Algebra.Order.Field.Rat
import Mathlib.Algebra.Order.Group.Abs
import StormDrive.ThermalPass

set_option relaxedAutoImplicit false
set_option autoImplicit false

/-!
# What the thermal history shows

The history of a node's temperatures and fans is written only when something changed, and at least
once a heartbeat (`thermal.rs`, `Tracker::history_due`). It is what is left of a pass after a
restart, so it has to show what the pass saw.

## Main definitions

* `Thermal.readHistory` — what the lines of the history say of each component and each fan.
* `Thermal.Shown` — what was read is a component's level, and its temperature to a degree.

## Main results

* `Thermal.history_accurate` — **after every pass the history shows every component and every fan**,
  as long as no line of the last heartbeat was lost.
-/

namespace StormDrive

namespace Thermal

variable {α : Type} [NatCast α] [Sub α] [LinearOrder α]

/-! ## Reading the history -/

/-- What is known of the components and of the fans. -/
abbrev Books (α : Type) := Ledger.Book String (Option α × Level) × Ledger.Book String (Option ℕ)

/-- One line read: its points are newer than what was known. -/
def readLine (b : Books α) (l : HistoryLine α) : Books α :=
  (Ledger.read HistoryPoint.id (fun c => (c.temp, c.level)) l.unix b.1 l.components,
    Ledger.read FanPoint.id FanPoint.rpm l.unix b.2 l.fans)

/-- **What the lines of the history say**, the oldest first. -/
def readHistory (lines : List (HistoryLine α)) : Books α :=
  lines.foldl readLine (fun _ => none, fun _ => none)

omit [NatCast α] [Sub α] [LinearOrder α] in
lemma read_points (b : Ledger.Book String (Option α × Level)) (now : ℕ) (cs : List (Component α)) :
    Ledger.read HistoryPoint.id (fun c => (c.temp, c.level)) now b (cs.map Component.point) =
      Ledger.read Component.id (fun c => (c.temp, c.level)) now b cs := by
  simp [Ledger.read, List.foldl_map, Component.point]

omit [NatCast α] [Sub α] [LinearOrder α] in
/-- The line of a pass adds what was due to what was known, whether there is one or not. -/
lemma readHistory_lineOf (p : PassWhole α) (lines : List (HistoryLine α))
    (cs : List (Component α)) (fs : List Fan) :
    readHistory (lines ++ (WholeTracker.lineOf p cs fs).toList) =
      (Ledger.read Component.id (fun c => (c.temp, c.level)) p.now (readHistory lines).1 cs,
        Ledger.read Fan.id Fan.rpm p.now (readHistory lines).2 fs) := by
  unfold WholeTracker.lineOf
  split_ifs with nothing
  · rw [List.isEmpty_iff.mp nothing.1, List.isEmpty_iff.mp nothing.2]
    simp [Ledger.read]
  · have fans : ∀ b : Ledger.Book String (Option ℕ),
        Ledger.read FanPoint.id FanPoint.rpm p.now b (fs.map fun f => ⟨f.id, f.rpm⟩) =
          Ledger.read Fan.id Fan.rpm p.now b fs := by
      intro b
      simp [Ledger.read, List.foldl_map]
    simp only [Option.toList_some, readHistory, List.foldl_append, List.foldl_cons,
      List.foldl_nil, readLine, read_points, fans]

omit [NatCast α] [Sub α] [LinearOrder α] in
lemma lineOf_eq_none {p : PassWhole α} {cs : List (Component α)} {fs : List Fan}
    (h : (WholeTracker.lineOf p cs fs).isNone) : cs = [] ∧ fs = [] := by
  unfold WholeTracker.lineOf at h
  split_ifs at h with nothing
  · exact ⟨List.isEmpty_iff.mp nothing.1, List.isEmpty_iff.mp nothing.2⟩
  · cases h

/-! ## Over a run -/

/-- What a tracker takes to be written is in the history, unless a line of that time was lost. -/
structure Node.Told (n : Node α) : Prop where
  components : Ledger.Known n.tracker.written (readHistory n.lines).1 n.lost
  fans : Ledger.Known n.tracker.fansWritten (readHistory n.lines).2 n.lost

omit [NatCast α] [Sub α] [LinearOrder α] in
lemma Node.told_first : (({} : Node α)).Told :=
  ⟨Ledger.known_nothing _ _, Ledger.known_nothing _ _⟩

/-- **Every happening keeps it**: a look at the components or the fans adds to what is known what it
wrote, or to what is lost. -/
lemma Node.Told.step {n : Node α} (h : n.Told) (e : Happening α) : (n.step e).Told := by
  cases e with
  | restart thermal => exact ⟨Ledger.known_nothing _ _, Ledger.known_nothing _ _⟩
  | forget drive => exact ⟨h.components, h.fans⟩
  | pass p inventory kept =>
    cases kept with
    | true =>
      constructor
      · simp only [Node.step, if_true, true_or]
        simp only [WholeTracker.pass, readHistory_lineOf]
        exact (h.components.kept _).retain _
      · simp only [Node.step, if_true, true_or]
        simp only [WholeTracker.pass, readHistory_lineOf]
        exact (h.fans.kept _).retain _
    | false =>
      by_cases written : (n.tracker.pass p).2.1.isNone
      · have nothing := lineOf_eq_none written
        constructor
        · simp only [Node.step, Bool.false_eq_true, if_false, false_or, if_pos written]
          exact (h.components.same nothing.1).retain _
        · simp only [Node.step, Bool.false_eq_true, if_false, false_or, if_pos written]
          exact (h.fans.same nothing.2).retain _
      · constructor
        · simp only [Node.step, Bool.false_eq_true, if_false, false_or, if_neg written]
          exact (h.components.dropped _).retain _
        · simp only [Node.step, Bool.false_eq_true, if_false, false_or, if_neg written]
          exact (h.fans.dropped _).retain _

/-! ## What it shows -/

/-- What was read is a component's level, and its temperature to a degree. -/
structure Shown (w : Option ℚ × Level) (c : Component ℚ) : Prop where
  level : w.2 = c.level
  read : w.1.isSome = c.temp.isSome
  close : ∀ a b, w.1 = some a → c.temp = some b → |a - b| < 1

/-- What was read is a fan's speed to a tenth of what was written. -/
structure ShownFan (w : Option ℕ) (f : Fan) : Prop where
  read : w.isSome = f.rpm.isSome
  close : ∀ a b, w = some a → f.rpm = some b → (max a b - min a b) * 10 < max a 1

lemma shown_of_near {heartbeat now : ℕ} {w : (Option ℚ × Level) × ℕ} {c : Component ℚ}
    (h : (componentRule heartbeat).Near now w (c.temp, c.level)) : Shown w.1 c := by
  rcases h.alike with same | alike
  · constructor
    · rw [same]
    · rw [same]
    · intro a b ha hb
      rw [same] at ha
      obtain rfl : b = a := Option.some.inj (hb.symm.trans ha)
      simp
  · obtain ⟨⟨t, l⟩, at'⟩ := w
    simp only [componentRule, Bool.or_eq_false_iff, decide_eq_false_iff_not, not_not] at alike
    obtain ⟨level, temp⟩ := alike
    constructor
    · exact level
    · cases t <;> cases hc : c.temp <;> simp_all
    · intro a b ha hb
      obtain rfl : t = some a := ha
      rw [hb] at temp
      simp only [Bool.or_eq_false_iff, decide_eq_false_iff_not, not_le, Nat.cast_one] at temp
      exact abs_sub_lt_iff.mpr temp

lemma shownFan_of_near {heartbeat now : ℕ} {w : Option ℕ × ℕ} {f : Fan}
    (h : (fanRule heartbeat).Near now w f.rpm) : ShownFan w.1 f := by
  rcases h.alike with same | alike
  · constructor
    · rw [same]
    · intro a b ha hb
      rw [same] at ha
      obtain rfl : b = a := Option.some.inj (hb.symm.trans ha)
      simp
  · obtain ⟨r, at'⟩ := w
    constructor
    · cases r <;> cases hf : f.rpm <;> simp_all [fanRule]
    · intro a b ha hb
      obtain rfl : r = some a := ha
      rw [hb] at alike
      exact Nat.lt_of_not_le (of_decide_eq_false alike)

/-- What is read of a component or a fan is no older than a heartbeat. -/
def Recent (heartbeat now at' : ℕ) : Prop := at' = now ∨ now - at' < heartbeat

/-- After a pass what is taken to be written of a component is near it. -/
lemma written_pass (w : WholeTracker α) (p : PassWhole α) {x : String × Component α}
    (mem : x ∈ (w.pass p).2.2.components) :
    ∃ e, (w.pass p).2.2.written x.1 = some e ∧
      (componentRule p.heartbeat).Near p.now e (x.2.temp, x.2.level) := by
  have mem : x ∈ w.next p.toPassInput := mem
  obtain ⟨e, known, near⟩ := Ledger.writeAll_of_mem Component.id
    (fun c : Component α => (c.temp, c.level)) (componentRule p.heartbeat) p.now w.written
    (w.nodup_next p.toPassInput) (List.mem_map_of_mem mem)
  rw [WholeTracker.id_of_mem_next mem] at known
  have here : OrderedMap.get (w.next p.toPassInput) x.1 = some x.2 :=
    (OrderedMap.increasing_ofList _).get_eq_some_iff.mpr mem
  refine ⟨e, ?_, near⟩
  rw [WholeTracker.written_pass, Ledger.retain, if_pos (by rw [here]; rfl)]
  exact known

/-- And what is taken to be written of a fan, the last of its id. -/
lemma fansWritten_pass (w : WholeTracker α) (p : PassWhole α) {before after : List Fan} {f : Fan}
    (split : (w.pass p).2.2.fans = before ++ f :: after) (last : ∀ g ∈ after, g.id ≠ f.id) :
    ∃ e, (w.pass p).2.2.fansWritten f.id = some e ∧
      (fanRule p.heartbeat).Near p.now e f.rpm := by
  rw [WholeTracker.fans_pass] at split
  obtain ⟨e, known, near⟩ := Ledger.writeAll_last Fan.id Fan.rpm (fanRule p.heartbeat) p.now
    w.fansWritten before after f last
  refine ⟨e, ?_, near⟩
  rw [WholeTracker.fansWritten_pass, Ledger.retain, if_pos (by simp [split]), split]
  exact known

/-- **After every pass the history shows every component and every fan.** Over any run of passes,
restarts and drives forgotten, with lines of the history lost on the way: after a pass, if no line
of the last heartbeat was lost, what the lines say of each component is its level and its
temperature to a degree, what they say of each fan is its speed to a tenth, and none of it is older
than a heartbeat. -/
theorem history_accurate (es : List (Happening ℚ)) (p : PassWhole ℚ) (inventory : DriveId → Bool)
    (kept : Bool)
    (whole : ∀ at' ∈ (Runs.after Node.step {} (es ++ [.pass p inventory kept])).lost,
      ¬ Recent p.heartbeat p.now at') :
    let n := Runs.after Node.step {} (es ++ [.pass p inventory kept])
    (∀ x ∈ n.tracker.components, ∃ w, (readHistory n.lines).1 x.1 = some w ∧ Shown w.1 x.2 ∧
      Recent p.heartbeat p.now w.2) ∧
    ∀ before f after, n.tracker.fans = before ++ f :: after → (∀ g ∈ after, g.id ≠ f.id) →
      ∃ w, (readHistory n.lines).2 f.id = some w ∧ ShownFan w.1 f ∧
        Recent p.heartbeat p.now w.2 := by
  intro n
  have told : n.Told := Runs.keeps (fun n e h => h.step e) Node.told_first _
  set m := Runs.after Node.step ({} : Node ℚ) es
  have last : n.tracker = (m.tracker.pass p).2.2 := by
    show (Runs.after Node.step {} (es ++ [.pass p inventory kept])).tracker = _
    rw [Runs.after_append]
    rfl
  rw [last]
  constructor
  · intro x mem
    obtain ⟨e, known, near⟩ := written_pass m.tracker p mem
    have seen : (readHistory n.lines).1 x.1 = some e := by
      refine (told.components x.1 e ?_).resolve_right fun gone => whole e.2 gone near.fresh
      rw [last]
      exact known
    exact ⟨e, seen, shown_of_near near, near.fresh⟩
  · intro before f after split apart
    obtain ⟨e, known, near⟩ := fansWritten_pass m.tracker p split apart
    have seen : (readHistory n.lines).2 f.id = some e := by
      refine (told.fans f.id e ?_).resolve_right fun gone => whole e.2 gone near.fresh
      rw [last]
      exact known
    exact ⟨e, seen, shownFan_of_near near, near.fresh⟩

/-- A line that was lost is made good for a heartbeat later. -/
theorem history_accurate_later :
    let n := Runs.after Node.step {} ([.pass (.testFixture 1000 40) (fun _ => true) false] ++
      [.pass (.testFixture 2000 40) (fun _ => true) true])
    n.lost = [1000] ∧ ∀ x ∈ n.tracker.components, ∃ w, (readHistory n.lines).1 x.1 = some w ∧
      Shown w.1 x.2 ∧ Recent 600 2000 w.2 := by
  have lost : (Runs.after Node.step {} ([.pass (.testFixture 1000 40) (fun _ => true) false] ++
      [.pass (.testFixture 2000 40) (fun _ => true) true])).lost = [1000] := rfl
  refine ⟨lost, (history_accurate [.pass (.testFixture 1000 40) (fun _ => true) false]
    (.testFixture 2000 40) (fun _ => true) true ?_).1⟩
  intro at' mem
  rw [lost] at mem
  obtain rfl := List.mem_singleton.mp mem
  simp [Recent, PassWhole.testFixture]

end Thermal

end StormDrive
