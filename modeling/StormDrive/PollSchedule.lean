import StormDrive.Interleave.Timer
import StormDrive.Poller

set_option relaxedAutoImplicit false
set_option autoImplicit false

/-!
# When drives are polled

The schedule of `poller.rs` over many calls: each present drive has a timer, which a call looks at.

## Main definitions

* `Poller.Call`, `Poller.returned` — a call of `take_due`, and what it returns after others.
* `Poller.OnTime` — **every drive is polled once in an interval**.

## Main results

* `Poller.Schedule.taken` — a call looks at the timer of each present drive, and forgets the others.
* `Poller.onTime` — the schedule is on time, whenever it is called and whatever is present.

## Implementation notes

Times are in nanoseconds, and as large as they come. Calls may also go back in time.
-/

namespace StormDrive

namespace Poller

/-- One call of `take_due`. -/
structure Call where
  now : ℕ
  present : List DriveId

/-- The schedule after a call. -/
def Schedule.call (s : Schedule) (c : Call) : Schedule := (s.takeDue c.now c.present).1

/-- The schedule after calls. -/
def scheduleAfter (interval : ℕ) (calls : List Call) : Schedule :=
  calls.foldl Schedule.call (Schedule.new interval)

/-- What a call returns after others. -/
def returned (interval : ℕ) (before : List Call) (c : Call) : List DriveId :=
  ((scheduleAfter interval before).takeDue c.now c.present).2

/-- When a present drive is due in a call after others. -/
def dueTime (interval : ℕ) (before : List Call) (c : Call) (d : DriveId) : ℕ :=
  Timer.due (phase d interval) ((scheduleAfter interval before).nextDue d) c.now

/-- **Every drive is polled once in an interval.** -/
structure OnTime (interval : ℕ) : Prop where
  /-- A drive that stays is not returned twice for one time, and not earlier than an interval after
  it was returned, less how late that was; nor than an interval after, where it was late by one. -/
  apart : ∀ before c mid c' d, (∀ x ∈ mid, d ∈ x.present) → d ∈ returned interval before c →
    d ∈ returned interval (before ++ c :: mid) c' →
      dueTime interval before c d < dueTime interval (before ++ c :: mid) c' d ∧
        c.now + interval ≤ c'.now + (c.now - dueTime interval before c d) ∧
          (dueTime interval before c d + interval ≤ c.now → c.now + interval ≤ c'.now)
  /-- A drive that comes and stays for an interval is returned in a call that is the first since it
  came, or comes after one less than an interval since it came. -/
  soon : ∀ before c mid c' d, (∀ x ∈ before.getLast?, d ∉ x.present) → d ∈ c.present →
    (∀ x ∈ mid ++ [c'], d ∈ x.present) → c.now + interval ≤ c'.now →
      ∃ pre x post, c :: (mid ++ [c']) = pre ++ x :: post ∧
        d ∈ returned interval (before ++ pre) x ∧ ∀ y ∈ pre, y.now < c.now + interval
  /-- A drive that is not present is not returned, and is forgotten. -/
  forgotten : ∀ before c d, d ∉ c.present →
    d ∉ returned interval before c ∧ (scheduleAfter interval (before ++ [c])).nextDue d = none
  /-- There is no burst of polls that were missed: no drive is returned twice in a call, and after
  it every present drive is due later. -/
  noBurst : ∀ before c, (returned interval before c).Nodup ∧ ∀ d ∈ c.present,
    ∃ t, (scheduleAfter interval (before ++ [c])).nextDue d = some t ∧ c.now < t

/-! ## One call -/

/-- The phase is in the interval. -/
lemma phase_lt {interval : ℕ} (h : sec ≤ interval) (d : DriveId) : phase d interval < interval := by
  have whole : 1 ≤ interval / milli := (Nat.one_le_div_iff (by decide)).mpr
    ((by decide : milli ≤ sec).trans h)
  have bound : d.uuid.bits.toNat % max (interval / milli) 1 % 2 ^ 64 < interval / milli := by
    refine (Nat.mod_le _ _).trans_lt ?_
    rw [max_eq_left whole]
    exact Nat.mod_lt _ whole
  calc
    phase d interval < interval / milli * milli :=
      Nat.mul_lt_mul_of_pos_right bound (by decide)
    _ ≤ interval := Nat.div_mul_le_self _ _

namespace Schedule

/-- A drive's timer is looked at. -/
lemma takeOne_eq (now : ℕ) (s : Schedule × List DriveId) (id : DriveId) :
    takeOne now s id =
      ({ s.1 with
          nextDue := Function.update s.1.nextDue id
            (some (Timer.next s.1.interval (phase id s.1.interval) (s.1.nextDue id) now)) },
        if Timer.due (phase id s.1.interval) (s.1.nextDue id) now ≤ now then s.2 ++ [id]
        else s.2) := by
  by_cases rings : Timer.due (phase id s.1.interval) (s.1.nextDue id) now ≤ now
  · rw [Timer.next, if_pos rings, if_pos rings]
    exact if_pos rings
  · rw [Timer.next, if_neg rings, if_neg rings]
    exact if_neg rings

/-- What looking at the timers of some drives gives. -/
structure Taken (s : Schedule) (now : ℕ) (l : List DriveId) (r : Schedule × List DriveId) :
    Prop where
  interval : r.1.interval = s.interval
  set : ∀ d ∈ l, r.1.nextDue d =
    some (Timer.next s.interval (phase d s.interval) (s.nextDue d) now)
  due : ∀ d ∈ l, (d ∈ r.2 ↔ Timer.due (phase d s.interval) (s.nextDue d) now ≤ now)
  others : ∀ d, d ∉ l → r.1.nextDue d = s.nextDue d ∧ d ∉ r.2
  once : r.2.Nodup

/-- One more drive. If its timer was looked at before, it is due later. -/
lemma Taken.append {s : Schedule} {now : ℕ} {l : List DriveId} {r : Schedule × List DriveId}
    (h : Taken s now l r) (pos : 0 < s.interval) (id : DriveId) :
    Taken s now (l ++ [id]) (takeOne now r id) := by
  rw [takeOne_eq, h.interval]
  by_cases old : id ∈ l
  · -- the timer is set for a later time, and stays
    have later : now < Timer.due (phase id s.interval) (r.1.nextDue id) now := by
      rw [h.set id old]
      exact Timer.now_lt_next pos
    have same : Function.update r.1.nextDue id
        (some (Timer.next s.interval (phase id s.interval) (r.1.nextDue id) now)) =
          r.1.nextDue := by
      rw [Timer.next_of_lt later, Function.update_eq_self_iff, h.set id old]
      rfl
    have mem : ∀ d, d ∈ l ++ [id] ↔ d ∈ l := by
      intro d
      rw [List.mem_append, List.mem_singleton, or_iff_left_iff_imp]
      rintro rfl
      exact old
    rw [same, if_neg (Nat.not_le.mpr later)]
    exact ⟨h.interval, fun d hd => h.set d ((mem d).mp hd), fun d hd => h.due d ((mem d).mp hd),
      fun d hd => h.others d (mt (mem d).mpr hd), h.once⟩
  · obtain ⟨fresh, notIn⟩ := h.others id old
    rw [fresh]
    refine ⟨h.interval, ?_, ?_, ?_, ?_⟩
    · intro d hd
      by_cases here : d = id
      · rw [here]
        exact Function.update_self ..
      · have hd : d ∈ l := (List.mem_append.mp hd).resolve_right (by simpa using here)
        exact (Function.update_of_ne here ..).trans (h.set d hd)
    · intro d hd
      by_cases here : d = id
      · rw [here]
        split
        · next rings => exact iff_of_true (by simp) rings
        · next silent => exact iff_of_false notIn silent
      · have hd : d ∈ l := (List.mem_append.mp hd).resolve_right (by simpa using here)
        rw [← h.due d hd]
        split
        · simp [here]
        · exact Iff.rfl
    · intro d hd
      rw [List.mem_append, List.mem_singleton, not_or] at hd
      obtain ⟨unset, out⟩ := h.others d hd.1
      refine ⟨(Function.update_of_ne hd.2 ..).trans unset, ?_⟩
      split
      · simp [out, hd.2]
      · exact out
    · split
      · exact List.nodup_append'.mpr ⟨h.once, List.nodup_singleton id, by simpa using notIn⟩
      · exact h.once

lemma taken_foldl (s : Schedule) (now : ℕ) (pos : 0 < s.interval) (l : List DriveId) :
    Taken s now l (l.foldl (takeOne now) (s, [])) := by
  induction l using List.reverseRecOn with
  | nil => exact ⟨rfl, nofun, nofun, fun _ _ => ⟨rfl, List.not_mem_nil⟩, List.nodup_nil⟩
  | append_singleton l id ih =>
    rw [List.foldl_append, List.foldl_cons, List.foldl_nil]
    exact ih.append pos id

/-- **A call looks at the timer of each present drive**, and forgets the others. -/
lemma taken (s : Schedule) (now : ℕ) (pos : 0 < s.interval) (present : List DriveId) :
    Taken { s with nextDue := fun id => if id ∈ present then s.nextDue id else none } now present
      (s.takeDue now present) := by
  rw [takeDue]
  exact taken_foldl { s with nextDue := fun id => if id ∈ present then s.nextDue id else none }
    now pos present

variable {s : Schedule} {c : Call} {d : DriveId}

/-- A call sets the timer of a present drive. -/
lemma nextDue_call (pos : 0 < s.interval) (h : d ∈ c.present) :
    (s.call c).nextDue d =
      some (Timer.next s.interval (phase d s.interval) (s.nextDue d) c.now) := by
  have set := (taken s c.now pos c.present).set d h
  dsimp only at set
  rwa [if_pos h] at set

/-- A call returns a present drive whose timer rings. -/
lemma mem_takeDue (pos : 0 < s.interval) (h : d ∈ c.present) :
    d ∈ (s.takeDue c.now c.present).2 ↔
      Timer.due (phase d s.interval) (s.nextDue d) c.now ≤ c.now := by
  have due := (taken s c.now pos c.present).due d h
  dsimp only at due
  rwa [if_pos h] at due

/-- A call forgets a drive that is not present, and does not return it. -/
lemma absent (pos : 0 < s.interval) (h : d ∉ c.present) :
    (s.call c).nextDue d = none ∧ d ∉ (s.takeDue c.now c.present).2 := by
  have others := (taken s c.now pos c.present).others d h
  dsimp only at others
  rwa [if_neg h] at others

lemma interval_call (pos : 0 < s.interval) : (s.call c).interval = s.interval :=
  (taken s c.now pos c.present).interval

end Schedule

/-! ## Many calls -/

variable {interval : ℕ} {before calls : List Call} {c : Call} {d : DriveId}

lemma scheduleAfter_append : scheduleAfter interval (before ++ calls) =
    calls.foldl Schedule.call (scheduleAfter interval before) :=
  List.foldl_append

lemma interval_scheduleAfter (h : sec ≤ interval) (before : List Call) :
    (scheduleAfter interval before).interval = interval := by
  induction before using List.reverseRecOn with
  | nil => exact max_eq_left h
  | append_singleton before c ih =>
    have pos : 0 < (scheduleAfter interval before).interval := by
      rw [ih]
      exact (by decide : 0 < sec).trans_le h
    rw [scheduleAfter_append, List.foldl_cons, List.foldl_nil, Schedule.interval_call pos, ih]

/-- **A drive that stays has its timer looked at by every call.** -/
lemma nextDue_scheduleAfter (h : sec ≤ interval) (before calls : List Call)
    (stays : ∀ x ∈ calls, d ∈ x.present) :
    (scheduleAfter interval (before ++ calls)).nextDue d =
      Timer.looks interval (phase d interval) ((scheduleAfter interval before).nextDue d)
        (calls.map Call.now) := by
  induction calls using List.reverseRecOn with
  | nil => rw [List.append_nil, List.map_nil]; rfl
  | append_singleton calls c ih =>
    have same := interval_scheduleAfter h (before ++ calls)
    have pos : 0 < (scheduleAfter interval (before ++ calls)).interval := by
      rw [same]
      exact (by decide : 0 < sec).trans_le h
    rw [← List.append_assoc, scheduleAfter_append, List.foldl_cons, List.foldl_nil,
      Schedule.nextDue_call pos (stays c (by simp)), same,
      ih fun x hx => stays x (List.mem_append_left _ hx), List.map_append, Timer.looks,
      Timer.looks, List.foldl_append]
    rfl

lemma mem_returned (h : sec ≤ interval) (there : d ∈ c.present) :
    d ∈ returned interval before c ↔ dueTime interval before c d ≤ c.now := by
  have same := interval_scheduleAfter h before
  have pos : 0 < (scheduleAfter interval before).interval := by
    rw [same]
    exact (by decide : 0 < sec).trans_le h
  have mem := Schedule.mem_takeDue (c := c) pos there
  rwa [same] at mem

/-- A drive that was not present in the last call is not on the schedule. -/
lemma nextDue_of_absent (h : sec ≤ interval) (absent : ∀ x ∈ before.getLast?, d ∉ x.present) :
    (scheduleAfter interval before).nextDue d = none := by
  induction before using List.reverseRecOn with
  | nil => rfl
  | append_singleton before c _ =>
    have pos : 0 < (scheduleAfter interval before).interval := by
      rw [interval_scheduleAfter h before]
      exact (by decide : 0 < sec).trans_le h
    have out : d ∉ c.present := absent c (by rw [List.getLast?_concat]; rfl)
    rw [scheduleAfter_append, List.foldl_cons, List.foldl_nil]
    exact (Schedule.absent pos out).1

/-- A drive that is returned is present. -/
lemma present_of_returned (h : sec ≤ interval) (mem : d ∈ returned interval before c) :
    d ∈ c.present := by
  have pos : 0 < (scheduleAfter interval before).interval := by
    rw [interval_scheduleAfter h before]
    exact (by decide : 0 < sec).trans_le h
  by_contra out
  exact (Schedule.absent pos out).2 mem

/-- **A drive that stays is returned an interval later at least.** -/
lemma due_of_returned (h : sec ≤ interval) {mid : List Call} (c' : Call)
    (stays : ∀ x ∈ mid, d ∈ x.present) (mem : d ∈ returned interval before c) :
    dueTime interval before c d + interval ≤ dueTime interval (before ++ c :: mid) c' d ∧
      (dueTime interval before c d + interval ≤ c.now →
        c.now + interval ≤ dueTime interval (before ++ c :: mid) c' d) := by
  have there := present_of_returned h mem
  have rings := (mem_returned h there).mp mem
  have looked := nextDue_scheduleAfter h before (c :: mid)
    (List.forall_mem_cons.mpr ⟨there, stays⟩)
  rw [List.map_cons, Timer.looks, List.foldl_cons] at looked
  obtain ⟨m, hm⟩ := Timer.looks_isSome interval (phase d interval)
    (Timer.next interval (phase d interval) ((scheduleAfter interval before).nextDue d) c.now)
    (mid.map Call.now)
  have due : dueTime interval (before ++ c :: mid) c' d = m := by
    rw [dueTime, looked.trans hm, Timer.due_some]
  have later := Timer.le_of_looks hm
  rw [due]
  exact ⟨(Timer.due_add_le_next rings).trans later,
    fun late => (Timer.now_add_le_next late).trans later⟩

/-- **A drive that comes is returned in the first call at its phase or later.** -/
lemma returned_of_first (h : sec ≤ interval) (absent : ∀ x ∈ before.getLast?, d ∉ x.present)
    {pre post rest : List Call} {x : Call} (split : c :: rest = pre ++ x :: post)
    (stays : ∀ y ∈ c :: rest, d ∈ y.present)
    (early : ∀ y ∈ pre, y.now < c.now + phase d interval)
    (now : c.now + phase d interval ≤ x.now) : d ∈ returned interval (before ++ pre) x := by
  have there : d ∈ x.present := stays x (split ▸ List.mem_append_right pre List.mem_cons_self)
  rw [mem_returned h there, dueTime]
  have unset := nextDue_of_absent h absent
  cases pre with
  | nil =>
    obtain ⟨rfl, -⟩ := List.cons.inj split
    rw [List.append_nil, unset, Timer.due_none]
    exact now
  | cons y pre =>
    obtain ⟨rfl, rest_eq⟩ := List.cons.inj split
    have looked := nextDue_scheduleAfter h before (c :: pre) fun y hy =>
      stays y (split ▸ List.mem_append_left _ hy)
    have later : c.now < Timer.due (phase d interval) none c.now := by
      rw [Timer.due_none]
      exact early c List.mem_cons_self
    have set : Timer.next interval (phase d interval) none c.now = c.now + phase d interval := by
      rw [Timer.next_of_lt later, Timer.due_none]
    have waits : Timer.looks interval (phase d interval) (some (c.now + phase d interval))
        (pre.map Call.now) = some (c.now + phase d interval) := by
      refine Timer.looks_of_lt fun t ht => ?_
      obtain ⟨y, hy, rfl⟩ := List.mem_map.mp ht
      exact early y (List.mem_cons_of_mem c hy)
    rw [unset, List.map_cons, Timer.looks, List.foldl_cons, set] at looked
    rw [looked.trans waits, Timer.due_some]
    exact now

/-- **The schedule is on time**, whenever it is called and whatever is present.

**Proof sketch.** A drive that stays has a timer that every call looks at. One that rang is set an
interval later at least (`due_of_returned`), and one that is new rings in the first call at its
phase or later (`returned_of_first`), which is in the first interval. -/
theorem onTime (interval : ℕ) (h : sec ≤ interval) : OnTime interval where
  apart before c mid c' d stays mem mem' := by
    have rings := (mem_returned h (present_of_returned h mem)).mp mem
    have rings' := (mem_returned h (present_of_returned h mem')).mp mem'
    obtain ⟨later, late⟩ := due_of_returned h c' stays mem
    have pos : 0 < interval := (by decide : 0 < sec).trans_le h
    exact ⟨by omega, by omega, fun behind => (late behind).trans rings'⟩
  soon before c mid c' d absent there stays now := by
    have inPhase := phase_lt h d
    have found : ((c :: (mid ++ [c'])).find? fun x => c.now + phase d interval ≤ x.now).isSome := by
      rw [List.find?_isSome]
      exact ⟨c', by simp, decide_eq_true (by omega)⟩
    obtain ⟨x, hx⟩ := Option.isSome_iff_exists.mp found
    obtain ⟨due, pre, post, split, early⟩ := List.find?_eq_some_iff_append.mp hx
    have early : ∀ y ∈ pre, y.now < c.now + phase d interval := fun y hy => by
      simpa using early y hy
    refine ⟨pre, x, post, split, ?_, fun y hy => ?_⟩
    · exact returned_of_first h absent split (List.forall_mem_cons.mpr ⟨there, stays⟩) early
        (of_decide_eq_true due)
    · have := early y hy
      omega
  forgotten before c d out := by
    refine ⟨fun mem => out (present_of_returned h mem), ?_⟩
    exact nextDue_of_absent h fun x hx => by
      rw [List.getLast?_concat] at hx
      obtain rfl := Option.some.inj hx
      exact out
  noBurst before c := by
    have same := interval_scheduleAfter h before
    have pos : 0 < (scheduleAfter interval before).interval := by
      rw [same]
      exact (by decide : 0 < sec).trans_le h
    refine ⟨(Schedule.taken _ c.now pos c.present).once, fun d there => ?_⟩
    rw [scheduleAfter_append, List.foldl_cons, List.foldl_nil, Schedule.nextDue_call pos there]
    exact ⟨_, rfl, Timer.now_lt_next pos⟩

/-- The default interval. -/
theorem onTime_minute : OnTime (60 * sec) := onTime (60 * sec) (by decide)

end Poller

end StormDrive
