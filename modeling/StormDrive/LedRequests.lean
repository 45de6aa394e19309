import StormDrive.Interleave.Runs
import StormDrive.Ses

set_option relaxedAutoImplicit false
set_option autoImplicit false

/-!
# LEDs that are asked for

The LEDs that the specs of Shelf and Drive objects ask for, and what the controller's passes send of
them (`controller.rs`: `drives`, `shelves`; `shelfobj.rs`: `led_actions`).

## Main definitions

* `shelfLed`, `driveLed` — what a pass sends for one LED, and what it remembers.
* `step` — specs that change at any time, and passes that list them and come to the LEDs.
* `AsAsked` — what is promised.
* `Unanswered`, `LastSent`, `Clean` — a pass that has to send a value, and may.

## Main results

* `asAsked_iff` — **each value that is asked for is sent** in exactly the runs whose steps are
  clean.
* `set_again_not_sent` — a value that was refused, and is cleared and set again, is not sent again.

## Implementation notes

A spec has a number that grows when its value changes; an object that is not there asks for nothing.
The LEDs do not see one another, so a step is a step of each. That a drive's LED shows something is
nothing that a pass reads.
-/

namespace StormDrive

namespace LedRequests

open Ses

/-! ## What a pass sends -/

/-- The LEDs of a shelf that its spec asks for. -/
inductive What
  | identify
  | faultLed
  deriving DecidableEq

/-- The enclosure's own element. -/
def enclosure (elements : List Element) : Option Element := do
  let i ← findEnclosureElement elements
  (elements[i]?).filter (·.elementType = etEnclosure)

/-- The enclosure's own LEDs as it reports them: identify, fault requested, fault indicated. -/
def leds (elements : List Element) : Option Bool × Option Bool × Option Bool :=
  match enclosure elements with
  | some e => (some e.ident, some (isSet e.raw.b3 0x02), some (isSet e.raw.b2 0x02))
  | none => (none, none, none)

/-- An LED that is asked for, as it is reported. -/
def What.shown (what : What) (elements : List Element) : Option Bool :=
  match what with
  | .identify => (leds elements).1
  | .faultLed => (leds elements).2.1

/-- What must be sent: what is asked for and not shown yet. -/
def ledAction (want shown : Option Bool) : Option Bool :=
  want.filter fun want => shown.any fun now => now ≠ want

/-- The request that is remembered when the enclosure shows something: none when it caught up. -/
def caughtUp (sent shown : Option Bool) : Option Bool :=
  if sent = shown ∧ shown.isSome then none else sent

/-- A pass at an LED of a shelf: what it sends, and the request that it remembers. -/
def shelfLed (sent want shown : Option Bool) : Option Bool × Option Bool :=
  let sent := caughtUp sent shown
  match ledAction want shown with
  | some on => if sent = some on then (none, sent) else (some on, some on)
  | none => (none, sent)

/-- A pass at the LED of a drive: what it sends, and the value that it applied last. -/
def driveLed (ident want : Option Bool) : Option Bool × Option Bool :=
  match want with
  | some on => if ident = some on then (none, ident) else (some on, some on)
  | none => (none, ident)

/-! ## Runs -/

/-- An LED that a spec can ask for. -/
inductive Led
  | shelf (key : String) (what : What)
  | drive (name : String)
  deriving DecidableEq

/-- What a pass did at an LED: the number of the spec and the value in it, what was shown, what it
sent, and whether that was taken. -/
structure Pass where
  number : ℕ
  asked : Option Bool
  shown : Option Bool
  sent : Option Bool
  taken : Bool

/-- What there is of an LED: its spec and the number of it; the spec that the pass listed; what the
controller remembers; and the passes, the newest first. -/
structure State where
  spec : Option Bool := none
  number : ℕ := 0
  listed : Option (Option Bool × ℕ) := none
  sent : Option Bool := none
  passes : List Pass := []

/-- What can happen. -/
inductive Act
  | setSpec (led : Led) (value : Option Bool)
  /-- A pass lists the Drives, or the Shelves. -/
  | listDrives
  | listShelves
  /-- It comes to the LEDs of a shelf with the report that it has of it. -/
  | shelf (key : String) (elements : List Element) (taken : What → Bool)
  /-- It comes to a drive, if the drive is of this node and is found. -/
  | drive (name : String) (here : Bool) (shown : Option Bool) (taken : Bool)

namespace Led

/-- A pass lists the object of the LED. -/
def Listed : Led → Act → Bool
  | .shelf _ _, .listShelves => true
  | .drive _, .listDrives => true
  | _, _ => false

/-- What a pass that comes to the LED finds: what it shows, and whether a request is taken. -/
def reading : Led → Act → Option (Option Bool × Bool)
  | .shelf key what, .shelf key' elements taken =>
    if key' = key then some (what.shown elements, taken what) else none
  | .drive name, .drive name' here shown taken =>
    if name' = name ∧ here then some (shown, taken) else none
  | _, _ => none

/-- What a pass sends, and what it remembers. -/
def request : Led → Option Bool → Option Bool → Option Bool → Option Bool × Option Bool
  | .shelf _ _, sent, want, shown => shelfLed sent want shown
  | .drive _, sent, want, _ => driveLed sent want

end Led

namespace State

/-- A spec is set to a value. -/
def set (a : State) (value : Option Bool) : State :=
  if value = a.spec then a else { a with spec := value, number := a.number + 1 }

/-- A pass comes to the LED, with what it listed. -/
def pass (a : State) (led : Led) (want : Option Bool) (number : ℕ) (shown : Option Bool)
    (taken : Bool) : State :=
  let r := led.request a.sent want shown
  { a with listed := none, sent := r.2, passes := ⟨number, want, shown, r.1, taken⟩ :: a.passes }

end State

/-- What happens to an LED. -/
def stepLed (led : Led) (a : State) (act : Act) : State :=
  match act with
  | .setSpec led' value => if led' = led then a.set value else a
  | act =>
    match led.reading act, a.listed with
    | some (shown, taken), some (want, number) => a.pass led want number shown taken
    | _, _ => if led.Listed act then { a with listed := some (a.spec, a.number) } else a

/-- What happens to all of them. -/
def step (s : Led → State) (act : Act) : Led → State := fun led => stepLed led (s led) act

/-! ## The promise -/

/-- No pass has read the spec with the number. -/
def Unread (number : ℕ) : List Pass → Prop
  | [] => True
  | q :: _ => q.number ≠ number

instance (number : ℕ) : ∀ passes, Decidable (Unread number passes)
  | [] => isTrue trivial
  | q :: _ => inferInstanceAs (Decidable (q.number ≠ number))

/-- The value of the spec with the number was sent, and no pass has seen it since. -/
def Pending (number : ℕ) (v : Bool) : List Pass → Prop
  | [] => False
  | q :: past => q.number = number ∧ (q.sent.isSome ∨ q.shown ≠ some v ∧ Pending number v past)

/-- **The passes send what is asked for.** -/
def AsAsked : List Pass → Prop
  | [] => True
  | p :: past =>
    (∀ v, p.asked = some v →
      -- a value that was set anew and is not shown is sent
      (Unread p.number past → p.shown ≠ some v → p.sent = some v) ∧
        -- one that was sent and is not answered is not sent again
        (Pending p.number v past → p.sent = none)) ∧ AsAsked past

/-- All LEDs are as they were asked for. -/
def AllAsAsked (s : Led → State) : Prop := ∀ led, AsAsked (s led).passes

/-! ## Clean steps -/

/-- The value is the one that was sent last, and no pass has seen it since. -/
def Unanswered (v : Bool) : List Pass → Prop
  | [] => False
  | q :: past => match q.sent with
    | some u => u = v
    | none => q.shown ≠ some v ∧ Unanswered v past

/-- The value is the one that was sent last. -/
def LastSent (v : Bool) : List Pass → Prop
  | [] => False
  | q :: past => match q.sent with
    | some u => u = v
    | none => LastSent v past

/-- What a pass must not find when it first reads a value that is not shown: for a shelf, that there
is no element that shows one, or that the value is the last request, still unanswered; for a drive,
that the value is the last request. -/
def Led.Blocked (led : Led) (v : Bool) (shown : Option Bool) (passes : List Pass) : Prop :=
  match led with
  | .shelf _ _ => shown = none ∨ Unanswered v passes
  | .drive _ => LastSent v passes

/-- **A clean step**: no pass is blocked that has to send a value. -/
def CleanLed (led : Led) (a : State) (act : Act) : Prop :=
  ∀ shown taken v number, led.reading act = some (shown, taken) → a.listed = some (some v, number) →
    Unread number a.passes → shown ≠ some v → ¬ led.Blocked v shown a.passes

def Clean (s : Led → State) (act : Act) : Prop := ∀ led, CleanLed led (s led) act

/-! ## What a pass remembers -/

/-- What a memory of the value means. -/
def Led.Remembers (led : Led) (v : Bool) (passes : List Pass) : Prop :=
  match led with
  | .shelf _ _ => Unanswered v passes
  | .drive _ => LastSent v passes

section Request

variable {led : Led} {sent want shown : Option Bool} {v : Bool} {passes : List Pass}

/-- A request is forgotten when it is seen. -/
lemma caughtUp_eq_some_iff :
    caughtUp sent shown = some v ↔ sent = some v ∧ shown ≠ some v := by
  rw [caughtUp]
  by_cases seen : sent = shown ∧ shown.isSome
  · rw [if_pos seen]
    refine iff_of_false (Option.some_ne_none v ∘ Eq.symm) fun h => h.2 ?_
    rw [← seen.1, h.1]
  · rw [if_neg seen]
    refine ⟨fun h => ⟨h, fun same => seen ⟨h.trans same.symm, ?_⟩⟩, And.left⟩
    rw [same]
    rfl

lemma ledAction_of_other {now : Bool} (other : now ≠ v) :
    ledAction (some v) (some now) = some v := by
  rw [ledAction, Option.filter_some, Option.any_some, if_pos (decide_eq_true other)]

lemma ledAction_none (want : Option Bool) : ledAction want none = none := by
  cases want <;> rfl

/-- Only what is asked for is to be sent. -/
lemma ledAction_eq_some {on : Bool} (h : ledAction want shown = some on) : want = some on :=
  (Option.filter_eq_some_iff.mp h).1

/-- What is asked for and not shown is sent by a pass that is not blocked. -/
lemma Led.request_of_free (memory : sent = some v ↔ led.Remembers v passes)
    (hidden : shown ≠ some v) (free : ¬ led.Blocked v shown passes) :
    (led.request sent (some v) shown).1 = some v := by
  cases led with
  | shelf key what =>
    obtain ⟨visible, fresh⟩ := not_or.mp free
    obtain ⟨now, rfl⟩ := Option.ne_none_iff_exists'.mp visible
    have other : now ≠ v := fun same => hidden (by rw [same])
    have forgotten : caughtUp sent (some now) ≠ some v :=
      fun h => fresh (memory.mp (caughtUp_eq_some_iff.mp h).1)
    rw [Led.request, shelfLed, ledAction_of_other other]
    dsimp only
    rw [if_neg forgotten]
  | drive name =>
    rw [Led.request, driveLed, if_neg fun h => free (memory.mp h)]

/-- A pass that is blocked sends nothing. -/
lemma Led.request_of_blocked (memory : sent = some v ↔ led.Remembers v passes)
    (hidden : shown ≠ some v) (blocked : led.Blocked v shown passes) :
    (led.request sent (some v) shown).1 = none := by
  cases led with
  | shelf key what =>
    rw [Led.request, shelfLed]
    obtain rfl | unanswered := blocked
    · rw [ledAction_none]
    · have remembered := caughtUp_eq_some_iff.mpr ⟨memory.mpr unanswered, hidden⟩
      cases action : ledAction (some v) shown with
      | none => rfl
      | some on =>
        obtain rfl := Option.some.inj (ledAction_eq_some action)
        dsimp only
        rw [if_pos remembered]
  | drive name =>
    rw [Led.request, driveLed, if_pos (memory.mpr blocked)]

/-- Of a shelf nothing is sent that is shown. -/
lemma shelfLed_of_shown : (shelfLed sent (some v) (some v)).1 = none := by
  have nothing : ledAction (some v) (some v) = none := by
    rw [ledAction, Option.filter_some, Option.any_some, if_neg]
    simp
  rw [shelfLed, nothing]

/-- What is sent was asked for. -/
lemma Led.asked_of_sent {on : Bool} (h : (led.request sent want shown).1 = some on) :
    want = some on := by
  cases led with
  | shelf key what =>
    rw [Led.request, shelfLed] at h
    cases action : ledAction want shown with
    | none =>
      rw [action] at h
      exact absurd h.symm (Option.some_ne_none _)
    | some on' =>
      rw [action] at h
      dsimp only at h
      split at h
      · exact absurd h.symm (Option.some_ne_none _)
      · rw [← Option.some.inj h]
        exact ledAction_eq_some action
  | drive name =>
    cases want with
    | none => exact absurd h.symm (Option.some_ne_none _)
    | some on' =>
      rw [Led.request, driveLed] at h
      split at h
      · exact absurd h.symm (Option.some_ne_none _)
      · exact h

/-- What a pass remembers of its own request, or still of an earlier one. -/
lemma Led.remembers_cons (memory : ∀ v, sent = some v ↔ led.Remembers v passes) (number : ℕ)
    (taken : Bool) (v : Bool) :
    (led.request sent want shown).2 = some v ↔
      led.Remembers v
        (⟨number, want, shown, (led.request sent want shown).1, taken⟩ :: passes) := by
  cases led with
  | shelf key what =>
    have kept : caughtUp sent shown = some v ↔ shown ≠ some v ∧ Unanswered v passes := by
      rw [caughtUp_eq_some_iff, memory, and_comm]
      rfl
    rw [Led.request, Led.Remembers, Unanswered, shelfLed]
    cases ledAction want shown with
    | none => exact kept
    | some on =>
      dsimp only
      by_cases same : caughtUp sent shown = some on
      · rw [if_pos same]
        exact kept
      · rw [if_neg same]
        exact Option.some_inj
  | drive name =>
    cases want with
    | none => exact memory v
    | some on =>
      rw [Led.request, Led.Remembers, LastSent, driveLed]
      split_ifs
      · exact memory v
      · exact Option.some_inj

end Request

/-! ## What runs keep -/

/-- **What runs keep** of an LED: what is remembered, and that a spec with one number has one
value. -/
structure Inv (led : Led) (a : State) : Prop where
  asAsked : AsAsked a.passes
  memory : ∀ v, a.sent = some v ↔ led.Remembers v a.passes
  sent : ∀ q ∈ a.passes, ∀ u, q.sent = some u → q.asked = some u
  read : ∀ q ∈ a.passes, q.number ≤ a.number ∧ (q.number = a.number → q.asked = a.spec)
  listed : ∀ want number, a.listed = some (want, number) →
    number ≤ a.number ∧ (number = a.number → want = a.spec) ∧
      ∀ q ∈ a.passes, q.number = number → q.asked = want

section Invariant

variable {led : Led} {a : State} {v : Bool} {number : ℕ} {passes : List Pass}

/-- What was sent for a spec and was not answered is remembered. -/
lemma Led.remembers_of_pending (led : Led)
    (sent : ∀ q ∈ passes, ∀ u, q.sent = some u → q.asked = some u)
    (same : ∀ q ∈ passes, q.number = number → q.asked = some v)
    (pending : Pending number v passes) : led.Remembers v passes := by
  induction passes with
  | nil => exact pending.elim
  | cons q past ih =>
    obtain ⟨this, before⟩ := pending
    have rest := ih (fun p hp => sent p (List.mem_cons_of_mem _ hp))
      fun p hp => same p (List.mem_cons_of_mem _ hp)
    cases request : q.sent with
    | some u =>
      have value : u = v := Option.some.inj
        ((sent q List.mem_cons_self u request).symm.trans (same q List.mem_cons_self this))
      cases led with
      | shelf key what =>
        rw [Led.Remembers, Unanswered, request]
        exact value
      | drive name =>
        rw [Led.Remembers, LastSent, request]
        exact value
    | none =>
      rw [request] at before
      obtain ⟨hidden, pending⟩ := before.resolve_left Bool.false_ne_true
      cases led with
      | shelf key what =>
        rw [Led.Remembers, Unanswered, request]
        exact ⟨hidden, rest pending⟩
      | drive name =>
        rw [Led.Remembers, LastSent, request]
        exact rest pending

lemma Inv.set (inv : Inv led a) (value : Option Bool) : Inv led (a.set value) := by
  rw [State.set]
  split_ifs with same
  · exact inv
  · refine ⟨inv.asAsked, inv.memory, inv.sent, fun q mem => ?_, fun want number found => ?_⟩
    · have before := (inv.read q mem).1
      exact ⟨Nat.le_succ_of_le before,
        fun now => absurd now (Nat.ne_of_lt (Nat.lt_succ_of_le before))⟩
    · obtain ⟨before, -, read⟩ := inv.listed want number found
      exact ⟨Nat.le_succ_of_le before,
        fun now => absurd now (Nat.ne_of_lt (Nat.lt_succ_of_le before)), read⟩

lemma Inv.list (inv : Inv led a) : Inv led { a with listed := some (a.spec, a.number) } := by
  refine ⟨inv.asAsked, inv.memory, inv.sent, inv.read, fun want number found => ?_⟩
  obtain ⟨rfl, rfl⟩ := Prod.mk.inj (Option.some.inj found)
  exact ⟨Nat.le_refl _, fun _ => rfl, fun q mem => (inv.read q mem).2⟩

/-- A pass sends a value that was set anew, unless it is blocked, and none that waits for its
answer. -/
lemma Inv.asAsked_pass (inv : Inv led a) {want shown : Option Bool} (taken : Bool)
    (listed : a.listed = some (want, number)) :
    AsAsked (a.pass led want number shown taken).passes ↔
      ∀ v, want = some v → Unread number a.passes → shown ≠ some v →
        ¬ led.Blocked v shown a.passes := by
  constructor
  · rintro ⟨now, -⟩ v rfl unread hidden blocked
    have sent := (now v rfl).1 unread hidden
    exact Option.some_ne_none v
      (sent.symm.trans (Led.request_of_blocked (inv.memory v) hidden blocked))
  · intro free
    refine ⟨fun v asked => ⟨fun unread hidden => ?_, fun pending => ?_⟩, inv.asAsked⟩
    · obtain rfl : want = some v := asked
      exact Led.request_of_free (inv.memory v) hidden (free v rfl unread hidden)
    · obtain rfl : want = some v := asked
      have remembered := led.remembers_of_pending inv.sent (inv.listed _ _ listed).2.2 pending
      by_cases hidden : shown = some v
      · subst hidden
        cases led with
        | shelf key what => exact shelfLed_of_shown
        | drive name =>
          -- what a drive's LED shows does not matter to the pass
          have hidden : (none : Option Bool) ≠ some v := nofun
          have silent := Led.request_of_blocked (inv.memory v) hidden remembered
          exact silent
      · refine Led.request_of_blocked (inv.memory v) hidden ?_
        cases led with
        | shelf key what => exact Or.inr remembered
        | drive name => exact remembered

lemma Inv.pass (inv : Inv led a) {want shown : Option Bool} {taken : Bool}
    (listed : a.listed = some (want, number))
    (asAsked : AsAsked (a.pass led want number shown taken).passes) :
    Inv led (a.pass led want number shown taken) := by
  obtain ⟨bound, value, read⟩ := inv.listed want number listed
  refine ⟨asAsked, Led.remembers_cons inv.memory number taken, fun q mem u request => ?_,
    fun q mem => ?_, fun _ _ none => nomatch none⟩
  · obtain rfl | old := List.mem_cons.mp mem
    · exact Led.asked_of_sent request
    · exact inv.sent q old u request
  · obtain rfl | old := List.mem_cons.mp mem
    · exact ⟨bound, value⟩
    · exact inv.read q old

/-- What a step is to an LED: a pass that comes to it with what it listed; or one that only changes
its spec or what is listed of it, or nothing. -/
lemma stepLed_cases (led : Led) (a : State) (act : Act) :
    (∃ shown taken want number, led.reading act = some (shown, taken) ∧
      a.listed = some (want, number) ∧ stepLed led a act = a.pass led want number shown taken) ∨
    ((led.reading act = none ∨ a.listed = none) ∧
      ((∃ value, stepLed led a act = a.set value) ∨ stepLed led a act = a ∨
        stepLed led a act = { a with listed := some (a.spec, a.number) })) := by
  cases act with
  | setSpec led' value =>
    refine Or.inr ⟨Or.inl (by cases led <;> rfl), ?_⟩
    rw [stepLed]
    split_ifs
    · exact Or.inl ⟨value, rfl⟩
    · exact Or.inr (Or.inl rfl)
  | listDrives | listShelves | shelf | drive =>
    simp only [stepLed]
    split
    · rename_i shown taken want number reading listed
      exact Or.inl ⟨shown, taken, want, number, reading, listed, rfl⟩
    · rename_i other
      refine Or.inr ⟨?_, ?_⟩
      · by_contra both
        obtain ⟨reading, listed⟩ := not_or.mp both
        obtain ⟨⟨shown, taken⟩, reading⟩ := Option.ne_none_iff_exists'.mp reading
        obtain ⟨⟨want, number⟩, listed⟩ := Option.ne_none_iff_exists'.mp listed
        exact other shown taken want number reading listed
      · split_ifs
        · exact Or.inr (Or.inr rfl)
        · exact Or.inr (Or.inl rfl)

/-- **A step does as is asked exactly when it is clean.** -/
lemma Inv.asAsked_step (inv : Inv led a) (act : Act) :
    AsAsked (stepLed led a act).passes ↔ CleanLed led a act := by
  obtain ⟨shown, taken, want, number, reading, listed, made⟩ | ⟨quiet, still⟩ :=
    stepLed_cases led a act
  · rw [made, inv.asAsked_pass taken listed]
    constructor
    · intro free shown' taken' v number' reading' listed' unread hidden
      obtain ⟨rfl, rfl⟩ := Prod.mk.inj (Option.some.inj (reading.symm.trans reading'))
      obtain ⟨rfl, rfl⟩ := Prod.mk.inj (Option.some.inj (listed.symm.trans listed'))
      exact free v rfl unread hidden
    · rintro clean v rfl unread hidden
      exact clean shown taken v number reading listed unread hidden
  · refine iff_of_true ?_ fun shown taken v number reading listed => ?_
    · obtain ⟨value, made⟩ | made | made := still
      · rw [made]
        exact (inv.set value).asAsked
      · rw [made]
        exact inv.asAsked
      · rw [made]
        exact inv.asAsked
    · rw [reading, listed] at quiet
      exact absurd quiet (not_or.mpr ⟨Option.some_ne_none _, Option.some_ne_none _⟩)

lemma Inv.step (inv : Inv led a) (act : Act) (clean : CleanLed led a act) :
    Inv led (stepLed led a act) := by
  have asAsked := (inv.asAsked_step act).mpr clean
  obtain ⟨shown, taken, want, number, -, listed, made⟩ | ⟨-, still⟩ := stepLed_cases led a act
  · rw [made] at asAsked ⊢
    exact inv.pass listed asAsked
  · obtain ⟨value, made⟩ | made | made := still
    · rw [made]
      exact inv.set value
    · rw [made]
      exact inv
    · rw [made]
      exact inv.list

lemma inv_start (led : Led) : Inv led {} := by
  refine ⟨trivial, fun v => ?_, nofun, nofun, fun _ _ none => nomatch none⟩
  cases led with
  | shelf key what => exact iff_of_false nofun id
  | drive name => exact iff_of_false nofun id

end Invariant

/-- **Each value that is asked for is sent** in exactly the runs whose steps are clean: whatever is
set, shown and refused.

**Proof sketch.** What a pass remembers is the last request, for a shelf if no pass has seen it
since (`Led.remembers_cons`); a pass sends a value that is not shown unless it remembers it. A
request that waits for its answer is remembered, since its spec has had one value
(`Led.remembers_of_pending`). -/
theorem asAsked_iff (acts : List Act) :
    Runs.Throughout step AllAsAsked (fun _ => {}) acts ↔
      Runs.Each step Clean (fun _ => {}) acts := by
  have kept : ∀ (s : Led → State) act, (∀ led, Inv led (s led)) → Clean s act →
      ∀ led, Inv led (step s act led) :=
    fun _ act inv clean led => (inv led).step act (clean led)
  refine Runs.throughout_iff_each kept (fun _ inv led => (inv led).asAsked) ?_ inv_start
  intro s act inv unclean asAsked
  exact unclean fun led => ((inv led).asAsked_step act).mp (asAsked led)

/-! ## A value that is set again -/

/-- The elements of an enclosure whose locate LED is off. -/
def dark : List Element := [bareElement etEnclosure 0 false ⟨1, 0, 0, 0⟩]

/-- The locate LED of a shelf is asked for, and the request is refused; the spec is cleared, and the
LED asked for again. -/
def setAgain : List Act :=
  let led := Led.shelf "50050cc1" .identify
  let pass := [.listShelves, .shelf "50050cc1" dark fun _ => false]
  .setSpec led (some true) :: pass ++ .setSpec led none :: pass ++ .setSpec led (some true) :: pass

/-- **A value that was refused, and is cleared and set again, is not sent again.** -/
theorem set_again_not_sent :
    ¬ Runs.Throughout step AllAsAsked (fun _ => {}) setAgain := by
  intro h
  have sent := ((h.last (.shelf "50050cc1" .identify)).1 true rfl).1
  exact absurd (sent (by decide) (by decide)) (by decide)

end LedRequests

end StormDrive
