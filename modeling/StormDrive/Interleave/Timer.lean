import Mathlib.Data.Nat.Basic
import Mathlib.Order.Basic

set_option relaxedAutoImplicit false
set_option autoImplicit false

/-!
# A timer that is looked at

A timer that is set for a time, rings when it is looked at then or later, and is set again an
interval behind the time for which it was, or behind now where that has passed too.

## Main definitions

* `Timer.due` — when it is due: a new one after a phase.
* `Timer.next` — for when it is set by a look.
* `Timer.looks` — the timer after some looks.

## Main results

* `Timer.due_add_le_next` — **a timer that rang is due an interval later at least**, and later than
  now.
* `Timer.le_of_looks` — looks put a timer off, and never forward.
* `Timer.looks_of_lt` — looks before it is due leave it.
-/

namespace Timer

variable (interval phase : ℕ)

/-- When the timer is due: one that is not set, at its phase from now on. -/
def due (set : Option ℕ) (now : ℕ) : ℕ := set.getD (now + phase)

/-- For when a look sets the timer. -/
def next (set : Option ℕ) (now : ℕ) : ℕ :=
  if due phase set now ≤ now then
    if due phase set now + interval ≤ now then now + interval else due phase set now + interval
  else due phase set now

/-- The timer after looks at these times. -/
def looks (set : Option ℕ) (times : List ℕ) : Option ℕ :=
  times.foldl (fun set now => some (next interval phase set now)) set

variable {interval phase} {set : Option ℕ} {now : ℕ}

lemma due_none : due phase none now = now + phase := rfl

lemma due_some (t : ℕ) : due phase (some t) now = t := rfl

lemma next_of_lt (h : now < due phase set now) :
    next interval phase set now = due phase set now := by
  rw [next, if_neg (Nat.not_le.mpr h)]

/-- A timer is put off. -/
lemma due_le_next : due phase set now ≤ next interval phase set now := by
  rw [next]
  split
  · split
    · omega
    · omega
  · exact le_rfl

/-- **A timer that rang is due an interval later at least.** -/
lemma due_add_le_next (rings : due phase set now ≤ now) :
    due phase set now + interval ≤ next interval phase set now := by
  rw [next, if_pos rings]
  split
  · omega
  · exact le_rfl

/-- One that rang an interval late or later is due an interval from now. -/
lemma now_add_le_next (late : due phase set now + interval ≤ now) :
    now + interval ≤ next interval phase set now := by
  have rings : due phase set now ≤ now := (Nat.le_add_right _ _).trans late
  rw [next, if_pos rings, if_pos late]

/-- A look leaves the timer due later. -/
lemma now_lt_next (pos : 0 < interval) : now < next interval phase set now := by
  rw [next]
  split
  · split
    · omega
    · omega
  · omega

/-- Looks never put a timer forward. -/
lemma le_of_looks {n m : ℕ} {times : List ℕ}
    (h : looks interval phase (some n) times = some m) : n ≤ m := by
  induction times generalizing n with
  | nil => exact (Option.some.inj h).le
  | cons now times ih =>
    have first : due phase (some n) now ≤ next interval phase (some n) now := due_le_next
    exact first.trans (ih h)

/-- Looks at a timer that is set leave one that is. -/
lemma looks_isSome (interval phase n : ℕ) (times : List ℕ) :
    ∃ m, looks interval phase (some n) times = some m := by
  induction times generalizing n with
  | nil => exact ⟨n, rfl⟩
  | cons now times ih => exact ih _

/-- Looks before it is due leave the timer. -/
lemma looks_of_lt {n : ℕ} {times : List ℕ} (h : ∀ now ∈ times, now < n) :
    looks interval phase (some n) times = some n := by
  induction times with
  | nil => rfl
  | cons now times ih =>
    have same : next interval phase (some n) now = due phase (some n) now :=
      next_of_lt (h now List.mem_cons_self)
    rw [looks, List.foldl_cons, same]
    exact ih fun t ht => h t (List.mem_cons_of_mem now ht)

end Timer
