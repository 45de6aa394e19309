import Mathlib.Algebra.Order.Field.Rat
import StormDrive.Interleave.Runs
import StormDrive.Thermal

set_option relaxedAutoImplicit false
set_option autoImplicit false

/-!
# Alerts that are over

What is told of a component's temperature over any number of passes (`thermal.rs`). An alert is
decided from the level before and the level now; a component that is not read, or has no reading,
is not known to have been hot.

## Main definitions

* `Thermal.Seen` — a reading with what the tracker remembers of its component and what was last told.
* `Thermal.Seen.Fair` — an alarm that was told is told to be over, and nothing is told twice.
* `Thermal.Seen.Recalled` — the tracker remembers what was told, or the reading is none of those
  that show that it does not.
* `Thermal.Seen.Stayed` — the same for a component that comes back after an alarm.

## Main results

* `Thermal.fair_iff` — **exactly so far are alarms told to be over**.
* `Thermal.alarm_not_over` — a drive that is hot, not read once, and cool: nobody is told.

## Implementation notes

Beside the tracker stands what was last told of each component.
-/

namespace StormDrive

/-- A level is none, calm or an alarm. -/
lemma Level.cases_of (l : Level) : l = .unknown ∨ l.calm = true ∨ l.alarms = true := by
  cases l <;> decide

lemma Level.alarms_eq_false_of_calm {l : Level} (h : l.calm = true) : l.alarms = false := by
  cases l <;> first | rfl | cases h

namespace Thermal

/-! ## One reading -/

/-- A reading as a pass meets it: what the tracker remembers of the component, what was last told of
it, and its level now. -/
structure Seen where
  before : Level
  told : Option Level
  now : Level
  deriving DecidableEq

namespace Seen

/-- The level that was last told alarms. -/
def alarmTold (s : Seen) : Bool :=
  s.told.any Level.alarms

/-- The reading is told. -/
def tells (s : Seen) : Bool :=
  worthTelling s.before s.now

/-- **An alarm that was told is told to be over** when the component is seen calm, and no alert
repeats the level that was last told. -/
structure Fair (s : Seen) : Prop where
  ends : s.alarmTold = true → s.now.calm = true → s.tells = true
  fresh : s.tells = true → s.told ≠ some s.now

/-- The tracker does not remember what was told, and one of the two is an alarm. -/
def forgotten (s : Seen) : Bool :=
  s.told ≠ some s.before && (s.alarmTold || s.before.alarms)

/-- When the tracker forgot what was told, the reading is missing, or neither at that level nor,
after an alarm that is not remembered as one, calm. -/
def Recalled (s : Seen) : Prop :=
  s.forgotten = true → s.now ≠ .unknown → s.told ≠ some s.now ∧
    (s.alarmTold = true → s.before.alarms = false → s.now.calm = false)

/-- A component that comes back after an alarm was told comes back at another alarm. -/
def Stayed (s : Seen) : Prop :=
  s.before = .unknown → s.alarmTold = true → s.told ≠ some s.now ∧ s.now.calm = false

instance (s : Seen) : Decidable s.Recalled :=
  inferInstanceAs (Decidable (_ → _ → _ ∧ (_ → _ → _)))

instance (s : Seen) : Decidable s.Stayed :=
  inferInstanceAs (Decidable (_ → _ → _ ∧ _))

lemma fair_iff_and (s : Seen) : s.Fair ↔
    (s.alarmTold = true → s.now.calm = true → s.tells = true) ∧
      (s.tells = true → s.told ≠ some s.now) :=
  ⟨fun h => ⟨h.ends, h.fresh⟩, fun h => ⟨h.1, h.2⟩⟩

instance (s : Seen) : Decidable s.Fair :=
  decidable_of_iff _ s.fair_iff_and.symm

/-- A calm reading is told exactly after one that alarmed. -/
lemma tells_of_calm {s : Seen} (h : s.now.calm = true) : s.tells = s.before.alarms := by
  obtain ⟨before, told, now⟩ := s
  cases now <;> cases before <;> first | rfl | cases h

/-- A reading that alarms is told unless the one before was at the same level. -/
lemma tells_of_alarms {s : Seen} (h : s.now.alarms = true) :
    s.tells = true ↔ s.before ≠ s.now := by
  obtain ⟨before, told, now⟩ := s
  change worthTelling before now = true ↔ before ≠ now
  cases now <;> first | (cases h; done) | (cases before <;> decide)

/-- Nothing is told of a reading that is missing. -/
lemma tells_of_unknown {s : Seen} (h : s.now = .unknown) : s.tells = false := by
  obtain ⟨before, told, now⟩ := s
  cases h
  cases before <;> rfl

end Seen

/-- **One reading is fair exactly when it is recalled.**

**Proof sketch.** A missing reading tells nothing. A calm one is told exactly after an alarm, an
alarm exactly when the level before is another one. -/
theorem Seen.fair_iff_recalled (s : Seen) : s.Fair ↔ s.Recalled := by
  rw [fair_iff_and]
  obtain hnone | hcalm | halarm := s.now.cases_of
  · simp [Recalled, hnone, tells_of_unknown hnone, Level.calm]
  · have hquiet := Level.alarms_eq_false_of_calm hcalm
    have hpresent : s.now ≠ .unknown := by
      rintro h
      rw [h] at hcalm
      cases hcalm
    have hdiffer : s.alarmTold = true → s.told ≠ some s.now := by
      intro htold h
      rw [alarmTold, h, Option.any_some, hquiet] at htold
      cases htold
    have hmissed : s.alarmTold = true → s.before.alarms = false → s.told ≠ some s.before := by
      intro htold hbefore h
      rw [alarmTold, h, Option.any_some, hbefore] at htold
      cases htold
    rw [tells_of_calm hcalm]
    constructor
    · rintro ⟨hover, hfresh⟩ hforgot -
      refine ⟨fun h => ?_, fun htold hbefore => absurd (hover htold hcalm) (by simp [hbefore])⟩
      simp only [forgotten, Bool.and_eq_true, Bool.or_eq_true] at hforgot
      exact hforgot.2.elim (fun htold => hdiffer htold h) fun hbefore => hfresh hbefore h
    · intro hrec
      refine ⟨fun htold _ => ?_, fun hbefore h => ?_⟩
      · by_contra hbefore
        have hbefore := Bool.eq_false_iff.mpr hbefore
        have hforgot : s.forgotten = true := by
          simp [forgotten, hmissed htold hbefore, htold]
        rw [(hrec hforgot hpresent).2 htold hbefore] at hcalm
        cases hcalm
      · have hforgot : s.forgotten = true := by
          have hne : s.told ≠ some s.before := by
            rw [h]
            intro heq
            rw [← Option.some.inj heq, hquiet] at hbefore
            cases hbefore
          simp [forgotten, hne, hbefore]
        exact (hrec hforgot hpresent).1 h
  · have hloud : s.now.calm = false := by
      by_contra h
      rw [Level.alarms_eq_false_of_calm (Bool.not_eq_false _ ▸ h)] at halarm
      cases halarm
    have hpresent : s.now ≠ .unknown := by
      rintro h
      rw [h] at halarm
      cases halarm
    rw [tells_of_alarms halarm]
    constructor
    · rintro ⟨-, hfresh⟩ hforgot -
      refine ⟨fun h => hfresh (fun heq => ?_) h, fun _ _ => hloud⟩
      simp only [forgotten, Bool.and_eq_true, decide_eq_true_eq] at hforgot
      exact hforgot.1 (heq ▸ h)
    · intro hrec
      refine ⟨fun _ hcalm => ?_, fun hother h => ?_⟩
      · rw [hloud] at hcalm
        cases hcalm
      · have hforgot : s.forgotten = true := by
          simp [forgotten, alarmTold, h, halarm, Ne.symm hother]
        exact (hrec hforgot hpresent).1 h

/-! ## One pass -/

section Pass

variable {α : Type} [NatCast α] [Sub α] [LE α] [LT α] [DecidableLE α] [DecidableLT α] [Max α]

/-- The tracker, and the level that was last told of each component. -/
structure Watched (α : Type) where
  tracker : Tracker α := {}
  told : String → Option Level := fun _ => none

/-- What was last told, after what one reading tells. -/
def tell (told : String → Option Level) (a : Option (Alert α)) : String → Option Level :=
  match a with
  | none => told
  | some a => Function.update told a.id (some a.now)

/-- The readings of a pass, as they are met one after the other. -/
def observe (t : Tracker α) (p : PassInput α) : (String → Option Level) → List (Reading α) → List Seen
  | _, [] => []
  | told, r :: rest =>
    ⟨t.levelOf r.id, told r.id, t.levelAt p r⟩ :: observe t p (tell told (t.alert p r)) rest

/-- What a pass does: the alerts are told in their order. -/
def Watched.step (w : Watched α) (p : PassInput α) : Watched α where
  tracker := (w.tracker.pass p).2
  told := (w.tracker.pass p).1.foldl (fun told a => tell told (some a)) w.told

/-- The readings that a pass meets. -/
def Watched.seen (w : Watched α) (p : PassInput α) : List Seen :=
  observe w.tracker p w.told p.readings

/-- No component is read twice in the pass. -/
def PassInput.Once (p : PassInput α) : Prop :=
  (p.readings.map Reading.id).Nodup

/-- The tracker remembers the alarm that was last told of a component whose level it knows. -/
def Watched.Remembers (w : Watched α) : Prop :=
  ∀ id, w.tracker.levelOf id ≠ .unknown →
    ((w.told id).any Level.alarms || (w.tracker.levelOf id).alarms) = true →
    w.told id = some (w.tracker.levelOf id)

/-! ### A pass over distinct components -/

/-- What is done for other keys leaves a key. -/
lemma foldl_of_not_mem {β ι : Type} {key : ι → String} {g : (String → β) → ι → String → β}
    (hlocal : ∀ m r id, id ≠ key r → g m r id = m id) {rs : List ι} {id : String}
    (h : id ∉ rs.map key) (m : String → β) : rs.foldl g m id = m id := by
  induction rs generalizing m with
  | nil => rfl
  | cons r rest ih =>
    rw [List.map_cons, List.mem_cons, not_or] at h
    rw [List.foldl_cons, ih h.2, hlocal m r id h.1]

/-- What is done for a key that comes up once. -/
lemma foldl_of_mem {β ι : Type} {key : ι → String} {g : (String → β) → ι → String → β}
    (hlocal : ∀ m r id, id ≠ key r → g m r id = m id)
    (hown : ∀ m m' r, m (key r) = m' (key r) → g m r (key r) = g m' r (key r)) {rs : List ι}
    (hnodup : (rs.map key).Nodup) {r : ι} (h : r ∈ rs) (m : String → β) :
    rs.foldl g m (key r) = g m r (key r) := by
  induction rs generalizing m with
  | nil => cases h
  | cons r' rest ih =>
    rw [List.map_cons, List.nodup_cons] at hnodup
    rw [List.foldl_cons]
    obtain rfl | hrest := List.mem_cons.mp h
    · exact foldl_of_not_mem hlocal hnodup.1 _
    · have hne : key r ≠ key r' := fun heq => hnodup.1 (heq ▸ List.mem_map_of_mem hrest)
      rw [ih hnodup.2 hrest, hown _ m r (hlocal m r' _ hne)]

variable {w : Watched α} {t : Tracker α} {p : PassInput α}

omit [Max α] in
/-- An alert is about its component. -/
lemma tell_of_ne (told : String → Option Level) {r : Reading α} {id : String} (h : id ≠ r.id) :
    tell told (t.alert p r) id = told id := by
  unfold Tracker.alert
  split
  · exact Function.update_of_ne h _ _
  · rfl

omit [Max α] in
/-- What is last told of a component after its reading. -/
lemma tell_self (told : String → Option Level) (r : Reading α) :
    tell told (t.alert p r) r.id =
      if worthTelling (t.levelOf r.id) (t.levelAt p r) then some (t.levelAt p r)
      else told r.id := by
  unfold Tracker.alert
  split
  · exact Function.update_self _ _ _
  · rfl

/-- What was told after a pass, reading by reading. -/
lemma told_step : (w.step p).told =
    p.readings.foldl (fun told r => tell told (w.tracker.alert p r)) w.told := by
  simp only [Watched.step, Tracker.pass, List.foldl_filterMap]
  congr 1
  funext told r
  cases w.tracker.alert p r <;> rfl

omit [Max α] in
/-- A pass that reads no component twice meets each as the pass before left it. -/
lemma observe_of_nodup {told : String → Option Level} {rs : List (Reading α)}
    (h : (rs.map Reading.id).Nodup) :
    observe t p told rs = rs.map fun r => ⟨t.levelOf r.id, told r.id, t.levelAt p r⟩ := by
  induction rs generalizing told with
  | nil => rfl
  | cons r rest ih =>
    rw [List.map_cons, List.nodup_cons] at h
    rw [observe, ih h.2, List.map_cons]
    congr 1
    refine List.map_congr_left fun r' hr' => ?_
    have hne : r'.id ≠ r.id := fun heq => h.1 (heq ▸ List.mem_map_of_mem hr')
    rw [tell_of_ne told hne]

omit [Max α] in
/-- What a pass meets of a component that it reads once. -/
lemma mem_seen_iff (honce : p.Once) (s : Seen) : s ∈ w.seen p ↔
    ∃ r ∈ p.readings, ⟨w.tracker.levelOf r.id, w.told r.id, w.tracker.levelAt p r⟩ = s := by
  rw [Watched.seen, observe_of_nodup honce, List.mem_map]

/-- The level that is remembered of a component that was read. -/
lemma levelOf_of_mem (honce : p.Once) {r : Reading α} (h : r ∈ p.readings) :
    (t.pass p).2.levelOf r.id = t.levelAt p r := by
  have hown := foldl_of_mem (g := fun next r => Function.update next r.id (some (t.component p r)))
    (fun m r' id hne => Function.update_of_ne hne _ _)
    (fun m m' r' _ => by rw [Function.update_self, Function.update_self]) honce h fun _ => none
  rw [Function.update_self] at hown
  simp only [Tracker.levelOf, Tracker.pass, hown]
  rfl

/-- Nothing is remembered of a component that was not read. -/
lemma levelOf_of_not_mem {id : String} (h : id ∉ p.readings.map Reading.id) :
    (t.pass p).2.levelOf id = .unknown := by
  have hnone := foldl_of_not_mem
    (g := fun next r => Function.update next r.id (some (t.component p r)))
    (fun m r' id hne => Function.update_of_ne hne _ _) h fun _ => none
  simp only [Tracker.levelOf, Tracker.pass, hnone]
  rfl

/-- What was last told of a component that was read. -/
lemma told_of_mem (honce : p.Once) {r : Reading α} (h : r ∈ p.readings) :
    (w.step p).told r.id =
      if worthTelling (w.tracker.levelOf r.id) (w.tracker.levelAt p r) then
        some (w.tracker.levelAt p r)
      else w.told r.id := by
  have hlocal : ∀ (m : String → Option Level) (r' : Reading α) (id : String), id ≠ r'.id →
      tell m (w.tracker.alert p r') id = m id := fun m r' id hne => tell_of_ne m hne
  have hown : ∀ (m m' : String → Option Level) (r' : Reading α), m r'.id = m' r'.id →
      tell m (w.tracker.alert p r') r'.id = tell m' (w.tracker.alert p r') r'.id := by
    intro m m' r' heq
    rw [tell_self, tell_self, heq]
  rw [told_step, foldl_of_mem hlocal hown honce h, tell_self]

/-- **The tracker goes on remembering** the alarms of the components that it knows, as long as each
is read once in a pass and every reading is fair. -/
lemma Watched.Remembers.step (hw : w.Remembers) (honce : p.Once)
    (hfair : ∀ s ∈ w.seen p, s.Fair) : (w.step p).Remembers := by
  intro id hknown halarm
  by_cases hread : id ∈ p.readings.map Reading.id
  swap
  · exact absurd (levelOf_of_not_mem hread) hknown
  obtain ⟨r, hr, rfl⟩ := List.mem_map.mp hread
  have hs := hfair _ ((mem_seen_iff honce _).mpr ⟨r, hr, rfl⟩)
  have hnow : (w.step p).tracker.levelOf r.id = w.tracker.levelAt p r := levelOf_of_mem honce hr
  rw [hnow] at hknown halarm ⊢
  rw [told_of_mem honce hr] at halarm ⊢
  split
  · rfl
  · next hquiet =>
    rw [if_neg hquiet] at halarm
    obtain hnone | hcalm | hloud := (w.tracker.levelAt p r).cases_of
    · exact absurd hnone hknown
    · -- a calm reading that is not told comes after no alarm
      rw [Level.alarms_eq_false_of_calm hcalm, Bool.or_false] at halarm
      exact absurd (hs.ends halarm hcalm) hquiet
    · -- an alarm that is not told was there before
      have hsame : w.tracker.levelOf r.id = w.tracker.levelAt p r := by
        by_contra hne
        exact hquiet ((Seen.tells_of_alarms (s := ⟨_, w.told r.id, _⟩) hloud).mpr hne)
      rw [← hsame] at hknown hloud ⊢
      exact hw r.id hknown (by rw [hloud, Bool.or_true])

/-- Where the tracker remembers the alarms of what it knows, a reading is recalled exactly when its
component did not come back from an alarm. -/
lemma Seen.recalled_iff_stayed {s : Seen}
    (h : s.before ≠ .unknown → (s.alarmTold || s.before.alarms) = true → s.told = some s.before) :
    s.Recalled ↔ s.Stayed := by
  have hunknown : s.forgotten = true → s.before = .unknown := by
    intro hforgot
    simp only [forgotten, Bool.and_eq_true, decide_eq_true_eq] at hforgot
    by_contra hknown
    exact hforgot.1 (h hknown hforgot.2)
  constructor
  · intro hrec hbefore htold
    have hforgot : s.forgotten = true := by
      have hne : s.told ≠ some s.before := by
        intro heq
        rw [alarmTold, heq, hbefore] at htold
        cases htold
      simp [forgotten, hne, htold]
    by_cases hnow : s.now = .unknown
    · refine ⟨fun heq => ?_, by rw [hnow]; rfl⟩
      rw [alarmTold, heq, hnow] at htold
      cases htold
    · obtain ⟨hne, hcalm⟩ := hrec hforgot hnow
      exact ⟨hne, hcalm htold (by rw [hbefore]; rfl)⟩
  · intro hstayed hforgot _
    have hbefore := hunknown hforgot
    have htold : s.alarmTold = true := by
      simp only [forgotten, Bool.and_eq_true, Bool.or_eq_true] at hforgot
      refine hforgot.2.resolve_right fun h => ?_
      rw [hbefore] at h
      cases h
    obtain ⟨hne, hcalm⟩ := hstayed hbefore htold
    exact ⟨hne, fun _ _ => hcalm⟩

end Pass

/-! ## Runs of passes -/

section Runs

variable {α : Type} [NatCast α] [Sub α] [LE α] [LT α] [DecidableLE α] [DecidableLT α] [Max α]

/-- Every alarm that was told of a component that the pass reads is told to be over when it is. -/
def AllFair (w : Watched α) (p : PassInput α) : Prop :=
  ∀ s ∈ w.seen p, s.Fair

/-- The tracker remembers what was told of every component, as far as its reading shows. -/
def AllRecalled (w : Watched α) (p : PassInput α) : Prop :=
  ∀ s ∈ w.seen p, s.Recalled

/-- No component comes back from an alarm but at another alarm. -/
def AllStayed (w : Watched α) (p : PassInput α) : Prop :=
  ∀ s ∈ w.seen p, s.Stayed

/-- **Over passes that read no component twice** the alarms are told to be over exactly when no
component comes back from one.

**Proof sketch.** By induction on the passes: the tracker remembers the alarms of the components
that it knows, so that it can only have forgotten one of a component that it does not. -/
lemma fair_iff_stayed {w : Watched α} (hw : w.Remembers) {ps : List (PassInput α)}
    (honce : ∀ p ∈ ps, p.Once) :
    Runs.Each Watched.step AllFair w ps ↔ Runs.Each Watched.step AllStayed w ps := by
  induction ps generalizing w with
  | nil => exact Iff.rfl
  | cons p rest ih =>
    have hp : p.Once := honce p (List.mem_cons_self ..)
    have hiff : AllFair w p ↔ AllStayed w p := by
      refine forall₂_congr fun s hs => ?_
      obtain ⟨r, -, rfl⟩ := (mem_seen_iff hp s).mp hs
      exact (Seen.fair_iff_recalled _).trans (Seen.recalled_iff_stayed (hw r.id))
    rw [Runs.each_cons, Runs.each_cons, ← hiff]
    exact and_congr_right fun hfair =>
      ih (hw.step hp hfair) fun p' hp' => honce p' (List.mem_cons_of_mem _ hp')

/-- **Exactly so far are alarms told to be over**: in the runs of passes in which no reading shows
that the tracker forgot what was told; where each component is read once in a pass, those in which
none comes back from an alarm but at another one. -/
theorem fair_iff (ps : List (PassInput α)) :
    (Runs.Each Watched.step AllFair {} ps ↔ Runs.Each Watched.step AllRecalled {} ps) ∧
      ((∀ p ∈ ps, p.Once) →
        (Runs.Each Watched.step AllFair {} ps ↔ Runs.Each Watched.step AllStayed {} ps)) := by
  refine ⟨?_, fair_iff_stayed fun id hknown _ => absurd rfl hknown⟩
  have heq : (AllFair : Watched α → PassInput α → Prop) = AllRecalled := by
    funext w p
    exact propext (forall₂_congr fun s _ => s.fair_iff_recalled)
  rw [heq]

/-- A pass over one drive, with a warning at 55 °C. -/
def passOver (readings : List (Reading ℚ)) : PassInput ℚ where
  readings := readings
  settings := {}
  cfg := { near := 5, hysteresis := 3, driveDefault := (55, 70) }
  now := 0

/-- A drive with a temperature, if it has one. -/
def driveAt (temp : Option ℚ) : Reading ℚ where
  id := "drive:1"
  cls := .drive
  temp := temp

/-- A drive at 60 °C, without a reading, and at 40 °C. -/
def coolAgain : List (PassInput ℚ) :=
  [passOver [driveAt (some 60)], passOver [driveAt none], passOver [driveAt (some 40)]]

instance (w : Watched ℚ) (p : PassInput ℚ) : Decidable (AllFair w p) :=
  inferInstanceAs (Decidable (∀ s ∈ w.seen p, s.Fair))

/-- **Not in every run**: nobody is told that a drive is cool again when it had no reading in
between. -/
theorem alarm_not_over :
    ¬ ∀ ps : List (PassInput ℚ), Runs.Each Watched.step AllFair {} ps :=
  fun h => absurd (h coolAgain) (by decide +kernel)

end Runs

end Thermal

end StormDrive
