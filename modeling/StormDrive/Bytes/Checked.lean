import Mathlib.Algebra.BigOperators.Group.List.Basic
import Mathlib.Algebra.Ring.Nat
import Mathlib.Data.List.Basic

set_option relaxedAutoImplicit false
set_option autoImplicit false

/-!
# Checked arithmetic

Arithmetic on 64-bit numbers in which an overflow is an outcome of its own, beside the errors that a
program reports.

## Main definitions

* `Checked` — a value, an error, or an overflow.
* `Checked.add`, `Checked.sub`, `Checked.mul`, `Checked.div` — the operations on `u64`.
* `Checked.sum`, `Checked.sumSome` — sums, the second up to the first number that is missing.

## Main results

* `Checked.sum_eq`, `Checked.sumSome_eq` — **a sum is out of range exactly when the exact one is**.
-/

/-- Why there is no value. -/
inductive Checked.Fault (E : Type*)
  /-- A sum, difference or product out of range, or a division by zero. -/
  | overflow
  | error (e : E)
  deriving DecidableEq

/-- A value, an error, or an overflow. -/
abbrev Checked (E α : Type*) := Except (Checked.Fault E) α

namespace Checked

variable {E : Type}

def fail {α : Type} (e : E) : Checked E α := .error (.error e)

def add (a b : ℕ) : Checked E ℕ := if a + b < 2 ^ 64 then .ok (a + b) else .error .overflow

def sub (a b : ℕ) : Checked E ℕ := if b ≤ a then .ok (a - b) else .error .overflow

def mul (a b : ℕ) : Checked E ℕ := if a * b < 2 ^ 64 then .ok (a * b) else .error .overflow

def div (a b : ℕ) : Checked E ℕ := if b = 0 then .error .overflow else .ok (a / b)

/-- `u64::div_ceil`. -/
def divCeil (a b : ℕ) : Checked E ℕ :=
  if b = 0 then .error .overflow else .ok (if a % b = 0 then a / b else a / b + 1)

/-- The sum of a list on top of a number. -/
def sumFrom (acc : ℕ) : List ℕ → Checked E ℕ
  | [] => .ok acc
  | a :: l => add acc a >>= fun acc => sumFrom acc l

/-- The sum of a list. -/
def sum (l : List ℕ) : Checked E ℕ := sumFrom 0 l

/-- The sum of a list on top of a number; none as soon as a number is missing. -/
def sumSomeFrom (acc : ℕ) : List (Option ℕ) → Checked E (Option ℕ)
  | [] => .ok (some acc)
  | none :: _ => .ok none
  | some a :: l => add acc a >>= fun acc => sumSomeFrom acc l

/-- The sum of a list, none when a number is missing. -/
def sumSome (l : List (Option ℕ)) : Checked E (Option ℕ) := sumSomeFrom 0 l

/-- The numbers before the first that is missing. -/
def present : List (Option ℕ) → List ℕ
  | [] => []
  | none :: _ => []
  | some a :: l => a :: present l

lemma ok_bind {α β : Type} (a : α) (f : α → Checked E β) : (Except.ok a >>= f) = f a := rfl

lemma add_eq {a b : ℕ} (h : a + b < 2 ^ 64) : (add a b : Checked E ℕ) = .ok (a + b) := if_pos h

lemma sub_eq {a b : ℕ} (h : b ≤ a) : (sub a b : Checked E ℕ) = .ok (a - b) := if_pos h

lemma mul_eq {a b : ℕ} (h : a * b < 2 ^ 64) : (mul a b : Checked E ℕ) = .ok (a * b) := if_pos h

lemma div_eq {a b : ℕ} (h : b ≠ 0) : (div a b : Checked E ℕ) = .ok (a / b) := if_neg h

lemma error_bind {α β : Type} (e : Fault E) (f : α → Checked E β) :
    ((Except.error e : Checked E α) >>= f) = .error e := rfl

/-- A sequence has a value when its parts have. -/
lemma bind_eq_ok_iff {α β : Type} {x : Checked E α} {f : α → Checked E β} {b : β} :
    (x >>= f) = .ok b ↔ ∃ a, x = .ok a ∧ f a = .ok b := by
  cases x with
  | ok a =>
    rw [ok_bind]
    constructor
    · exact fun h => ⟨a, rfl, h⟩
    · rintro ⟨a', same, h⟩
      obtain rfl := Except.ok.inj same
      exact h
  | error e =>
    rw [error_bind]
    exact iff_of_false nofun fun ⟨_, same, _⟩ => absurd same nofun

/-- What comes after a check that it passes. -/
lemma ite_bind_eq_ok_iff {α β : Type} {c : Prop} [Decidable c] {a : α} {e : Fault E}
    {f : α → Checked E β} {b : β} :
    ((if c then .ok a else .error e : Checked E α) >>= f) = .ok b ↔ c ∧ f a = .ok b := by
  by_cases h : c
  · rw [if_pos h, ok_bind]
    exact (and_iff_right h).symm
  · rw [if_neg h, error_bind]
    exact iff_of_false (by rintro ⟨⟩) fun hb => h hb.1

/-- Partial sums are in range when the whole sum is. -/
lemma sumFrom_eq {acc : ℕ} (h : acc < 2 ^ 64) (l : List ℕ) : (sumFrom acc l : Checked E ℕ) =
    if acc + l.sum < 2 ^ 64 then .ok (acc + l.sum) else .error .overflow := by
  induction l generalizing acc with
  | nil => rw [sumFrom, List.sum_nil, Nat.add_zero, if_pos h]
  | cons a l ih =>
    rw [sumFrom, add, List.sum_cons, ← Nat.add_assoc]
    by_cases hacc : acc + a < 2 ^ 64
    · rw [if_pos hacc, ok_bind, ih hacc]
    · have hall : ¬ acc + a + l.sum < 2 ^ 64 := fun h => hacc (by omega)
      rw [if_neg hacc, if_neg hall, error_bind]

/-- **A sum is out of range exactly when the exact one is.** -/
theorem sum_eq (l : List ℕ) : (sum l : Checked E ℕ) =
    if l.sum < 2 ^ 64 then .ok l.sum else .error .overflow := by
  rw [sum, sumFrom_eq (by decide), Nat.zero_add]

lemma sumSomeFrom_eq {acc : ℕ} (h : acc < 2 ^ 64) (l : List (Option ℕ)) :
    (sumSomeFrom acc l : Checked E (Option ℕ)) =
      if acc + (present l).sum < 2 ^ 64 then
        .ok (if l.all Option.isSome then some (acc + (present l).sum) else none)
      else .error .overflow := by
  induction l generalizing acc with
  | nil =>
    rw [sumSomeFrom, present, List.sum_nil, Nat.add_zero, if_pos h]
    rfl
  | cons x l ih =>
    cases x with
    | none =>
      rw [sumSomeFrom, present, List.sum_nil, Nat.add_zero, if_pos h]
      rfl
    | some a =>
      rw [sumSomeFrom, add, present, List.sum_cons, ← Nat.add_assoc]
      by_cases hacc : acc + a < 2 ^ 64
      · rw [if_pos hacc, ok_bind, ih hacc]
        simp
      · have hall : ¬ acc + a + (present l).sum < 2 ^ 64 := fun h => hacc (by omega)
        rw [if_neg hacc, if_neg hall, error_bind]

/-- **A sum is out of range exactly when the exact one is**, up to the first number that is
missing. -/
theorem sumSome_eq (l : List (Option ℕ)) : (sumSome l : Checked E (Option ℕ)) =
    if (present l).sum < 2 ^ 64 then
      .ok (if l.all Option.isSome then some (present l).sum else none)
    else .error .overflow := by
  rw [sumSome, sumSomeFrom_eq (by decide), Nat.zero_add]

end Checked
