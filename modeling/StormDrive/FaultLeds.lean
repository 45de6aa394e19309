import StormDrive.FailedBays
import StormDrive.Interleave.Runs

set_option relaxedAutoImplicit false
set_option autoImplicit false

/-!
# Fault LEDs

The fault LEDs of the bays with failed RAID set members (`fleet.rs`: `sync_fault_leds`), over fleet
ticks, rescans of the shelves, saves of the inventory and crashes.

## Main definitions

* `State`, `step` — the LEDs that were lit, the shelves that are reported, the bays on record in
  memory and in the saved inventory, and what happens to them call by call.
* `Marks` — **the LEDs mark the failed members and no other bay**.
* `Clean` — a step that keeps the record true.

## Main results

* `marks_of_clean` — in a run of clean steps the LEDs mark the failed members after every tick whose
  calls all succeeded, and no lit bay is forgotten.
* `lit_forgotten` — a bay that is lit, and not yet saved when the process ends, stays lit.

## Implementation notes

The shelves themselves are of any type, and a report under a key is of one of them; which shelf a
key named last is kept beside the state, for the statement. The record is a list without order.
-/

namespace StormDrive

namespace FaultLeds

/-! ## States -/

/-- A tick at its changes: what it read, the changes to come, the change that the enclosure took and
that is not on record yet, and whether all calls succeeded so far. -/
structure Tick where
  arrays : List RaidSet
  drives : Drives
  todo : List (String × Bool)
  taken : Option (String × Bool) := none
  ok : Bool := true

/-- The LEDs that are lit; the shelves that are reported, and the one that each key named last; the
bays on record, in memory and saved; the tick, and what the last one read if it has just ended and
all of its calls succeeded. -/
structure State (Φ : Type) where
  lit : Φ → ℕ → Bool := fun _ _ => false
  shelves : String → Option Φ := fun _ => none
  named : String → Option Φ := fun _ => none
  faultBays : List String := []
  saved : List String := []
  tick : Option Tick := none
  ended : Option (List RaidSet × Drives) := none

/-- What becomes of a call: it is done, it is done and fails all the same, or it fails. -/
inductive Answer
  | done
  | lost
  | failed
  deriving DecidableEq

/-- What can happen. -/
inductive Act (Φ : Type)
  /-- The shelves are read, each under its key. -/
  | rescan (shelves : String → Option Φ)
  /-- A tick reads the RAID sets of the engine, if it lists any, and the inventory. -/
  | list (arrays : Option (List RaidSet)) (drives : Drives)
  /-- The next change is sent to its enclosure. -/
  | set (a : Answer)
  /-- It is recorded. -/
  | record
  | finish
  /-- The inventory is saved. -/
  | save
  | crash

/-- A bay is on record as lit, or not. -/
def change (bays : List String) (c : String × Bool) : List String :=
  if c.2 then c.1 :: bays else bays.filter (· ≠ c.1)

/-- The bays to light, and those to put out. -/
def changes (wanted lit : List String) : List (String × Bool) :=
  ((wanted.filter (· ∉ lit)).map fun k => (k, true)) ++
    (lit.filter (· ∉ wanted)).map fun k => (k, false)

section Step

variable {Φ : Type} [DecidableEq Φ] (parseUuid : String → Option DriveId)

/-- An LED is lit or put out. -/
def State.light (s : State Φ) (p : Φ) (bay : ℕ) (on : Bool) : State Φ :=
  { s with lit := fun q b => if q = p ∧ b = bay then on else s.lit q b }

/-- The next change. -/
def State.set (s : State Φ) (t : Tick) (a : Answer) : State Φ :=
  match t.todo with
  | [] => s
  | (key, on) :: todo =>
    match parseKey key with
    | none => { s with tick := some { t with todo := todo } }
    | some (shelf, bay) =>
      match s.shelves shelf with
      | none => { s with tick := some { t with todo := todo } }
      | some p =>
        match a with
        | .done => { s.light p bay on with
            tick := some { t with todo := todo, taken := some (key, on) } }
        | .lost => { s.light p bay on with tick := some { t with todo := todo, ok := false } }
        | .failed => { s with tick := some { t with todo := todo, ok := false } }

/-- What happens, where `ended` is of this step only. -/
def act (s : State Φ) : Act Φ → State Φ
  | .rescan shelves =>
    { s with shelves := shelves, named := fun key => (shelves key).or (s.named key) }
  | .list (some arrays) drives =>
    match s.tick with
    | some _ => s
    | none => { s with
        tick := some {
          arrays := arrays
          drives := drives
          todo := changes ((failedMemberBays parseUuid arrays drives).map Prod.fst) s.faultBays } }
  | .list none _ => s
  | .set a =>
    match s.tick with
    | some t => if t.taken.isNone then s.set t a else s
    | none => s
  | .record =>
    match s.tick with
    | some t =>
      match t.taken with
      | some c => { s with
          faultBays := change s.faultBays c
          tick := some { t with taken := none } }
      | none => s
    | none => s
  | .finish =>
    match s.tick with
    | some t =>
      if t.todo = [] ∧ t.taken.isNone then
        { s with tick := none, ended := if t.ok then some (t.arrays, t.drives) else none }
      else s
    | none => s
  | .save => { s with saved := s.faultBays }
  | .crash => { s with faultBays := s.saved, tick := none }

def step (s : State Φ) (a : Act Φ) : State Φ := act parseUuid { s with ended := none } a

end Step

/-! ## The promise -/

section Promise

variable {Φ : Type} (parseUuid : String → Option DriveId)

/-- The bays on record, with the change that an enclosure took. -/
def State.record (s : State Φ) : List String :=
  match s.tick.bind (·.taken) with
  | some c => change s.faultBays c
  | none => s.faultBays

/-- **The LEDs mark the failed members and no other bay.** -/
structure Marks (s : State Φ) : Prop where
  /-- After a tick whose calls all succeeded, the LEDs of the failed members' bays are lit. -/
  marked : ∀ arrays drives, s.ended = some (arrays, drives) → ∀ p bay,
    s.lit p bay = true ↔
      ∃ key, s.named key = some p ∧ WantedBay parseUuid arrays drives (key, bay)
  /-- A bay that is lit is on record, or is about to be. -/
  remembered : ∀ p bay, s.lit p bay = true →
    ∃ key, s.named key = some p ∧ bayKey (key, bay) ∈ s.record

/-! ## Clean steps -/

/-- The shelves are reported under one key each; and a shelf with a bay on record under the key that
it had, or not at all, and no other shelf under that key. -/
def KeepsKeys (s : State Φ) (shelves : String → Option Φ) : Prop :=
  (∀ k k' p, shelves k = some p → shelves k' = some p → k = k') ∧
    ∀ k bay, bayKey (k, bay) ∈ s.record →
      (∀ p, shelves k = some p → s.named k = some p) ∧
        ∀ k' p, s.named k = some p → shelves k' = some p → k' = k

/-- **A clean step.** Shelves keep their keys; the drives that share a name with a failed member are
in one place; the shelf of a change is reported, and a call that fails did nothing; and the process
ends when the saved inventory has the bays that are lit. -/
def Clean (s : State Φ) : Act Φ → Prop
  | .rescan shelves => KeepsKeys s shelves
  | .list (some arrays) drives =>
    ∀ a ∈ arrays, ∀ m ∈ a.members, m.state = some "failed" → OnePlace parseUuid drives m.drive
  | .set a => a ≠ .lost ∧ ∀ t, s.tick = some t → ∀ c ∈ t.todo.head?, ∀ place,
      parseKey c.1 = some place → s.shelves place.1 ≠ none
  | .crash => ∀ key, key ∈ s.saved ↔ key ∈ s.record
  | _ => True

end Promise

/-! ## The record and the LEDs -/

/-- **The record is true**: the LEDs that are lit are those of the bays on record, and the shelves
of these are told apart by their keys. -/
structure Recorded {Φ : Type} (lit : Φ → ℕ → Bool) (shelves named : String → Option Φ)
    (R : String → Prop) : Prop where
  lit : ∀ p bay, lit p bay = true ↔ ∃ k, named k = some p ∧ R (bayKey (k, bay))
  bays : ∀ key, R key → ∃ place : String × ℕ, place.2 < 2 ^ 32 ∧ key = bayKey place
  one : ∀ k k' p, shelves k = some p → shelves k' = some p → k = k'
  reported : ∀ k p, shelves k = some p → named k = some p
  apart : ∀ k bay, R (bayKey (k, bay)) → ∀ k' p, named k = some p → shelves k' = some p → k' = k
  keys : ∀ k bay k' bay', R (bayKey (k, bay)) → R (bayKey (k', bay')) →
    ∀ p, named k = some p → named k' = some p → k = k'

section Recorded

variable {Φ : Type} {lit : Φ → ℕ → Bool} {shelves named : String → Option Φ} {R R' : String → Prop}

lemma Recorded.congr (h : Recorded lit shelves named R) (same : ∀ key, R' key ↔ R key) :
    Recorded lit shelves named R' where
  lit p bay := (h.lit p bay).trans (exists_congr fun _ => and_congr_right fun _ => (same _).symm)
  bays key mem := h.bays key ((same key).mp mem)
  one := h.one
  reported := h.reported
  apart k bay mem := h.apart k bay ((same _).mp mem)
  keys k bay k' bay' mem mem' := h.keys k bay k' bay' ((same _).mp mem) ((same _).mp mem')

/-- Shelves that keep their keys are read again. -/
lemma Recorded.rescan (h : Recorded lit shelves named R) {shelves' : String → Option Φ}
    (one : ∀ k k' p, shelves' k = some p → shelves' k' = some p → k = k')
    (keeps : ∀ k bay, R (bayKey (k, bay)) → (∀ p, shelves' k = some p → named k = some p) ∧
      ∀ k' p, named k = some p → shelves' k' = some p → k' = k) :
    Recorded lit shelves' (fun key => (shelves' key).or (named key)) R := by
  -- what a key on record named last, it names still
  have same : ∀ k bay, R (bayKey (k, bay)) → (shelves' k).or (named k) = named k := by
    intro k bay mem
    cases now : shelves' k with
    | none => rw [Option.none_or]
    | some p => rw [Option.some_or, (keeps k bay mem).1 p now]
  refine ⟨fun p bay => ?_, h.bays, one, fun _ p now => ?_, fun k bay mem k' p before now => ?_,
    fun k bay k' bay' mem mem' p before before' => ?_⟩
  · rw [h.lit]
    refine exists_congr fun _ => and_congr_left fun mem => ?_
    rw [same _ bay mem]
  · rw [now, Option.some_or]
  · rw [same k bay mem] at before
    exact (keeps k bay mem).2 k' p before now
  · rw [same k bay mem] at before
    rw [same k' bay' mem'] at before'
    exact h.keys k bay k' bay' mem mem' p before before'

variable [DecidableEq Φ] {k : String} {bay : ℕ} {p : Φ}

/-- A bay of a shelf that is reported is lit, and is on record. -/
lemma Recorded.on (h : Recorded lit shelves named R) (found : shelves k = some p)
    (small : bay < 2 ^ 32) :
    Recorded (fun q b => if q = p ∧ b = bay then true else lit q b) shelves named
      (fun key => key = bayKey (k, bay) ∨ R key) := by
  have here := h.reported k p found
  refine ⟨fun q b => ?_, ?_, h.one, h.reported, ?_, ?_⟩
  · constructor
    · intro shines
      split_ifs at shines with this
      · obtain ⟨rfl, rfl⟩ := this
        exact ⟨k, here, Or.inl rfl⟩
      · obtain ⟨k', at', mem⟩ := (h.lit q b).mp shines
        exact ⟨k', at', Or.inr mem⟩
    · rintro ⟨k', at', same | mem⟩
      · obtain ⟨rfl, rfl⟩ := Prod.mk.inj (bayKey_injective same)
        exact if_pos ⟨Option.some.inj (at'.symm.trans here), rfl⟩
      · split_ifs
        · rfl
        · exact (h.lit q b).mpr ⟨k', at', mem⟩
  · rintro key (rfl | mem)
    · exact ⟨(k, bay), small, rfl⟩
    · exact h.bays key mem
  · rintro k' b (same | mem) k'' q at' now
    · obtain ⟨rfl, rfl⟩ := Prod.mk.inj (bayKey_injective same)
      rw [here] at at'
      rw [← Option.some.inj at'] at now
      exact h.one k'' k' p now found
    · exact h.apart k' b mem k'' q at' now
  · rintro k₁ b₁ k₂ b₂ (same₁ | mem₁) (same₂ | mem₂) q at₁ at₂
    · obtain ⟨rfl, -⟩ := Prod.mk.inj (bayKey_injective same₁)
      exact (Prod.mk.inj (bayKey_injective same₂)).1.symm
    · obtain ⟨rfl, -⟩ := Prod.mk.inj (bayKey_injective same₁)
      exact h.apart k₂ b₂ mem₂ k₁ q at₂ (found.trans (here.symm.trans at₁))
    · obtain ⟨rfl, -⟩ := Prod.mk.inj (bayKey_injective same₂)
      exact (h.apart k₁ b₁ mem₁ k₂ q at₁ (found.trans (here.symm.trans at₂))).symm
    · exact h.keys k₁ b₁ k₂ b₂ mem₁ mem₂ q at₁ at₂

/-- A bay of a shelf that is reported is put out, and is not on record. -/
lemma Recorded.off (h : Recorded lit shelves named R) (found : shelves k = some p) :
    Recorded (fun q b => if q = p ∧ b = bay then false else lit q b) shelves named
      (fun key => R key ∧ key ≠ bayKey (k, bay)) := by
  have here := h.reported k p found
  refine ⟨fun q b => ?_, fun key mem => h.bays key mem.1, h.one, h.reported,
    fun k' b mem => h.apart k' b mem.1,
    fun k₁ b₁ k₂ b₂ mem₁ mem₂ => h.keys k₁ b₁ k₂ b₂ mem₁.1 mem₂.1⟩
  constructor
  · intro shines
    split_ifs at shines with this
    obtain ⟨k', at', mem⟩ := (h.lit q b).mp shines
    refine ⟨k', at', mem, fun same => this ?_⟩
    obtain ⟨rfl, rfl⟩ := Prod.mk.inj (bayKey_injective same)
    exact ⟨Option.some.inj (at'.symm.trans here), rfl⟩
  · rintro ⟨k', at', mem, other⟩
    rw [if_neg]
    · exact (h.lit q b).mpr ⟨k', at', mem⟩
    · rintro ⟨rfl, rfl⟩
      exact other (by rw [h.apart k' b mem k q at' found])

end Recorded

/-! ## The changes of a tick -/

section Changes

variable {bays wanted : List String} {key : String}

lemma mem_change_on {k : String} : key ∈ change bays (k, true) ↔ key = k ∨ key ∈ bays :=
  List.mem_cons

lemma mem_change_off {k : String} : key ∈ change bays (k, false) ↔ key ∈ bays ∧ key ≠ k := by
  have off : change bays (k, false) = bays.filter (· ≠ k) := rfl
  rw [off, List.mem_filter, decide_eq_true_eq]

lemma mem_foldl_on {ks : List String} :
    key ∈ (ks.map fun k => (k, true)).foldl change bays ↔ key ∈ bays ∨ key ∈ ks := by
  induction ks generalizing bays with
  | nil => simp
  | cons k ks ih =>
    rw [List.map_cons, List.foldl_cons, ih, mem_change_on, List.mem_cons]
    tauto

lemma mem_foldl_off {ks : List String} :
    key ∈ (ks.map fun k => (k, false)).foldl change bays ↔ key ∈ bays ∧ key ∉ ks := by
  induction ks generalizing bays with
  | nil => simp
  | cons k ks ih =>
    rw [List.map_cons, List.foldl_cons, ih, mem_change_off, List.mem_cons]
    tauto

/-- After all changes the bays that are wanted are on record. -/
lemma mem_foldl_changes (wanted bays : List String) (key : String) :
    key ∈ (changes wanted bays).foldl change bays ↔ key ∈ wanted := by
  rw [changes, List.foldl_append, mem_foldl_off, mem_foldl_on, List.mem_filter, List.mem_filter,
    decide_eq_true_eq, decide_eq_true_eq]
  tauto

end Changes

/-! ## What runs keep -/

section Invariant

variable {Φ : Type} [DecidableEq Φ] {parseUuid : String → Option DriveId} {s : State Φ} {t : Tick}

/-- The bays that a tick wants to be lit. -/
def Tick.wanted (parseUuid : String → Option DriveId) (t : Tick) : List String :=
  (failedMemberBays parseUuid t.arrays t.drives).map Prod.fst

/-- The drives that share a name with a failed member are in one place. -/
def Distinct (parseUuid : String → Option DriveId) (arrays : List RaidSet) (drives : Drives) :
    Prop :=
  ∀ a ∈ arrays, ∀ m ∈ a.members, m.state = some "failed" → OnePlace parseUuid drives m.drive

/-- What is so of a tick at its changes: they are of bays, and if all calls succeed they make the
record what is wanted. -/
structure Tick.Sound (parseUuid : String → Option DriveId) (t : Tick) (record : List String) :
    Prop where
  distinct : Distinct parseUuid t.arrays t.drives
  bays : ∀ c ∈ t.todo, ∃ place : String × ℕ, place.2 < 2 ^ 32 ∧ c.1 = bayKey place
  result : t.ok = true → ∀ key, key ∈ t.todo.foldl change record ↔ key ∈ t.wanted parseUuid

/-- **What runs keep.** -/
structure Inv (parseUuid : String → Option DriveId) (s : State Φ) : Prop where
  recorded : Recorded s.lit s.shelves s.named (· ∈ s.record)
  tick : ∀ t, s.tick = some t → t.Sound parseUuid s.record
  ended : ∀ arrays drives, s.ended = some (arrays, drives) → Distinct parseUuid arrays drives ∧
    ∀ key, key ∈ s.record ↔ key ∈ (failedMemberBays parseUuid arrays drives).map Prod.fst

omit [DecidableEq Φ] in
/-- From the invariant to the promise: the record is true, and after a tick it is what is wanted. -/
lemma Inv.marks (inv : Inv parseUuid s) : Marks parseUuid s where
  marked arrays drives ended p bay := by
    obtain ⟨distinct, same⟩ := inv.ended arrays drives ended
    rw [inv.recorded.lit]
    refine exists_congr fun key => and_congr_right fun _ => ?_
    rw [same, mem_failedMemberBays_iff distinct]
    constructor
    · rintro ⟨place, wanted, this⟩
      rw [bayKey_injective this]
      exact wanted
    · exact fun wanted => ⟨_, wanted, rfl⟩
  remembered p bay := (inv.recorded.lit p bay).mp

omit [DecidableEq Φ] in
lemma record_of_taken_none (tick : s.tick = some t) (taken : t.taken = none) :
    s.record = s.faultBays := by
  rw [State.record, tick, Option.bind_some, taken]

omit [DecidableEq Φ] in
lemma record_of_tick_none (tick : s.tick = none) : s.record = s.faultBays := by
  rw [State.record, tick]
  rfl

/-- An enclosure takes a change, which is on record from then on. -/
lemma Recorded.change (h : Recorded s.lit s.shelves s.named (· ∈ s.faultBays))
    {place : String × ℕ} {p : Φ} (found : s.shelves place.1 = some p) (small : place.2 < 2 ^ 32)
    (on : Bool) :
    Recorded (s.light p place.2 on).lit s.shelves s.named
      (· ∈ FaultLeds.change s.faultBays (bayKey place, on)) := by
  cases on with
  | true => exact (h.on found small).congr fun key => mem_change_on
  | false => exact (h.off found).congr fun key => mem_change_off

lemma Inv.set (inv : Inv parseUuid s) (ended : s.ended = none) (tick : s.tick = some t)
    (taken : t.taken = none) {a : Answer} (clean : Clean parseUuid s (.set a)) :
    Inv parseUuid (s.set t a) := by
  obtain ⟨answered, visible⟩ := clean
  have sound := inv.tick t tick
  have recorded := inv.recorded
  rw [record_of_taken_none tick taken] at sound recorded
  have still : ∀ arrays drives, s.ended = some (arrays, drives) → False := fun arrays drives some =>
    Option.some_ne_none _ (some.symm.trans ended)
  cases todo : t.todo with
  | nil =>
    rw [State.set, todo]
    exact inv
  | cons c rest =>
    obtain ⟨key, on⟩ := c
    obtain ⟨place, small, rfl⟩ := sound.bays (key, on) (by rw [todo]; exact List.mem_cons_self)
    have read := parseKey_bayKey small
    obtain ⟨p, found⟩ := Option.ne_none_iff_exists'.mp
      (visible t tick (bayKey place, on) (by rw [todo]; rfl) place read)
    have bays : ∀ c ∈ rest, ∃ place : String × ℕ, place.2 < 2 ^ 32 ∧ c.1 = bayKey place :=
      fun c mem => sound.bays c (by rw [todo]; exact List.mem_cons_of_mem _ mem)
    rw [State.set, todo]
    simp only [read, found]
    cases a with
    | done =>
      refine ⟨recorded.change found small on, ?_, fun arrays drives some => (still _ _ some).elim⟩
      rintro t' ⟨⟩
      refine ⟨sound.distinct, bays, fun ok key => ?_⟩
      have result := sound.result ok key
      rw [todo, List.foldl_cons] at result
      exact result
    | lost => exact absurd rfl answered
    | failed =>
      show Inv parseUuid { s with tick := some { t with todo := rest, ok := false } }
      have record : { s with tick := some { t with todo := rest, ok := false } }.record =
        s.faultBays := record_of_taken_none rfl taken
      refine ⟨?_, ?_, fun arrays drives some => (still _ _ some).elim⟩
      · rw [record]
        exact recorded
      rintro t' ⟨⟩
      exact ⟨sound.distinct, bays, fun ok => absurd ok Bool.false_ne_true⟩

/-- **A clean step keeps the invariant.** -/
lemma Inv.act (inv : Inv parseUuid s) (ended : s.ended = none) {a : Act Φ}
    (clean : Clean parseUuid s a) : Inv parseUuid (act parseUuid s a) := by
  cases a with
  | rescan shelves => exact ⟨inv.recorded.rescan clean.1 clean.2, inv.tick, inv.ended⟩
  | list arrays drives =>
    cases arrays with
    | none => exact inv
    | some arrays =>
      rw [FaultLeds.act]
      cases tick : s.tick with
      | some t => exact inv
      | none =>
        have recorded := inv.recorded
        have record := record_of_tick_none tick
        rw [record] at recorded
        refine ⟨recorded, ?_, fun arrays drives some => ?_⟩
        · rintro t ⟨⟩
          refine ⟨clean, fun c mem => ?_, fun _ key => mem_foldl_changes _ _ key⟩
          obtain on | off := List.mem_append.mp mem
          · obtain ⟨key, wanted, rfl⟩ := List.mem_map.mp on
            exact exists_of_mem_failedMemberBays (List.mem_of_mem_filter wanted)
          · obtain ⟨key, lit, rfl⟩ := List.mem_map.mp off
            exact recorded.bays key (List.mem_of_mem_filter lit)
        · exact absurd (some.symm.trans ended) (Option.some_ne_none _)
  | set a =>
    rw [FaultLeds.act]
    cases tick : s.tick with
    | none => exact inv
    | some t =>
      dsimp only
      split_ifs with waits
      · exact inv.set ended tick (Option.isNone_iff_eq_none.mp waits) clean
      · exact inv
  | record =>
    rw [FaultLeds.act]
    cases tick : s.tick with
    | none => exact inv
    | some t =>
      dsimp only
      cases taken : t.taken with
      | none => exact inv
      | some c =>
        have record : s.record = change s.faultBays c := by
          rw [State.record, tick, Option.bind_some, taken]
        have recorded := inv.recorded
        have sound := inv.tick t tick
        rw [record] at recorded sound
        refine ⟨recorded, ?_, fun arrays drives some => ?_⟩
        · rintro t' ⟨⟩
          exact ⟨sound.distinct, sound.bays, sound.result⟩
        · exact absurd (some.symm.trans ended) (Option.some_ne_none _)
  | finish =>
    rw [FaultLeds.act]
    cases tick : s.tick with
    | none => exact inv
    | some t =>
      dsimp only
      split_ifs with done ok
      · have record := record_of_taken_none tick (Option.isNone_iff_eq_none.mp done.2)
        have recorded := inv.recorded
        have sound := inv.tick t tick
        rw [record] at recorded sound
        refine ⟨recorded, nofun, ?_⟩
        rintro arrays drives ⟨⟩
        have result := sound.result ok
        rw [done.1] at result
        exact ⟨sound.distinct, result⟩
      · have record := record_of_taken_none tick (Option.isNone_iff_eq_none.mp done.2)
        have recorded := inv.recorded
        rw [record] at recorded
        exact ⟨recorded, nofun, nofun⟩
      · exact inv
  | save => exact ⟨inv.recorded, inv.tick, inv.ended⟩
  | crash =>
    refine ⟨inv.recorded.congr clean, nofun, fun arrays drives some => ?_⟩
    exact absurd (some.symm.trans ended) (Option.some_ne_none _)

lemma Inv.step (inv : Inv parseUuid s) {a : Act Φ} (clean : Clean parseUuid s a) :
    Inv parseUuid (step parseUuid s a) := by
  have reset : Inv parseUuid { s with ended := none } :=
    ⟨inv.recorded, inv.tick, nofun⟩
  refine reset.act rfl ?_
  cases a with
  | list arrays drives => cases arrays <;> exact clean
  | rescan | set | record | finish | save | crash => exact clean

omit [DecidableEq Φ] in
lemma inv_start : Inv parseUuid ({} : State Φ) := by
  refine ⟨⟨fun _ _ => ?_, ?_, ?_, ?_, ?_, ?_⟩, nofun,
    nofun⟩
  · exact iff_of_false Bool.false_ne_true fun ⟨_, no, _⟩ => nomatch no
  · exact fun _ mem => absurd mem List.not_mem_nil
  · exact nofun
  · exact nofun
  · exact fun _ _ mem => absurd mem List.not_mem_nil
  · exact fun _ _ _ _ mem => absurd mem List.not_mem_nil

end Invariant

/-- **The LEDs mark the failed members and no other bay**, and no lit bay is forgotten, in every
state of a run whose steps are clean.

**Proof sketch.** The LEDs that are lit are those of the bays on record, where a change that an
enclosure took counts as recorded (`Recorded`); a tick whose calls all succeed makes the record what
is wanted (`mem_foldl_changes`), and that is the bays of the members' drives
(`mem_failedMemberBays_iff`). -/
theorem marks_of_clean {Φ : Type} [DecidableEq Φ] (parseUuid : String → Option DriveId)
    (acts : List (Act Φ)) (clean : Runs.Each (step parseUuid) (Clean parseUuid) {} acts) :
    Runs.Throughout (step parseUuid) (Marks parseUuid) {} acts :=
  (Runs.throughout_of_each (fun _ _ inv ok => inv.step ok) inv_start clean).mono
    fun _ inv => inv.marks

/-! ## A bay that is forgotten -/

/-- One shelf is reported. -/
def oneShelf (key : String) : Option Unit := if key = "500a0980" then some () else none

/-- A RAID set whose only member failed in bay 3. -/
def oneFailed : List RaidSet :=
  [⟨some "ds1", none, [{ state := some "failed", labels := some "shelf=500a0980/bay=3" }]⟩]

def noDrives : Drives := ⟨[], List.nodup_nil, fun _ mem => absurd mem List.not_mem_nil⟩

/-- The bay of a failed member is lit and recorded. -/
def lights : List (Act Unit) :=
  [.rescan oneShelf, .list (some oneFailed) noDrives, .set .done, .record]

/-- The process ends before the inventory is saved, and the member is replaced. -/
theorem lit_forgotten : ¬ Runs.Throughout (step fun _ => none) (Marks fun _ => none) {}
    (lights ++ [.crash, .list (some []) noDrives, .finish]) := by
  intro h
  have marked := h.last.marked [] noDrives rfl () 3
  obtain ⟨key, -, a, none, -⟩ := marked.mp (by decide)
  exact absurd none List.not_mem_nil

lemma oneShelf_eq_some {key : String} {p : Unit} (h : oneShelf key = some p) :
    key = "500a0980" := by
  rw [oneShelf] at h
  split_ifs at h with same
  exact same

/-- A tick that lights a bay. -/
theorem lights_marks : Marks (fun _ => none) (Runs.after (step fun _ => none) {}
    (lights ++ [.finish])) := by
  refine (marks_of_clean (fun _ => none) (lights ++ [.finish]) ?_).last
  simp only [lights, List.cons_append, List.nil_append, Runs.each_cons, Runs.each_nil, and_true]
  refine ⟨⟨?_, ?_⟩, ?_, ⟨by decide, ?_⟩, trivial, trivial⟩
  · intro k k' p here here'
    rw [oneShelf_eq_some here, oneShelf_eq_some here']
  · exact fun k bay mem => absurd mem List.not_mem_nil
  · exact fun a _ m _ _ => Or.inr fun d mem => absurd mem List.not_mem_nil
  · rintro t ⟨⟩ c head place read
    have change : c = ("500a0980/3", true) := by
      refine (Option.some.inj (Eq.trans ?_ head)).symm
      decide
    have here : parseKey "500a0980/3" = some ("500a0980", 3) := by decide
    rw [change, here] at read
    rw [← Option.some.inj read]
    exact Option.some_ne_none ()

end FaultLeds

end StormDrive
