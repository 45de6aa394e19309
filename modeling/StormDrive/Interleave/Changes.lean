import Mathlib.Data.List.Basic

set_option relaxedAutoImplicit false
set_option autoImplicit false

/-!
# Changes of a value

A value that is observed over and over, and the observations at which it was another one than
before.

## Main definitions

* `Changes.of` — the changes among some observations.

## Main results

* `Changes.of_concat` — one observation more.
* `Changes.last_of` — **who knows the changes knows the value**.
-/

namespace Changes

variable {α : Type*} [DecidableEq α]

/-- The observations that are another value than the one before, where the first is compared with a
value that is known. -/
def of (known : α) : List α → List α
  | [] => []
  | a :: l => if a = known then of known l else a :: of a l

/-- One observation more is a change if it is not the last value. -/
lemma of_concat (known a : α) (l : List α) :
    of known (l ++ [a]) = of known l ++ if a = l.getLastD known then [] else [a] := by
  induction l generalizing known with
  | nil =>
    rw [List.nil_append, of, of, List.getLastD_nil]
    split_ifs <;> rfl
  | cons b l ih =>
    rw [List.cons_append, of, of, List.getLastD_cons]
    by_cases same : b = known
    · rw [if_pos same, if_pos same, ih, same]
    · rw [if_neg same, if_neg same, ih, List.cons_append]

/-- **Who knows the changes knows the value.** -/
lemma last_of (known : α) (l : List α) : (of known l).getLastD known = l.getLastD known := by
  induction l generalizing known with
  | nil => rfl
  | cons b l ih =>
    rw [of, List.getLastD_cons]
    split_ifs with same
    · rw [ih, same]
    · rw [List.getLastD_cons, ih]

end Changes
