import Mathlib.Data.List.Basic
import Mathlib.Data.String.Basic
import Mathlib.Tactic.Ring

set_option relaxedAutoImplicit false
set_option autoImplicit false

/-!
# The order of hexadecimal texts

Texts of lower-case hexadecimal digits in the order of a dictionary, which is how a map with text
keys has them. A text comes before another when it writes the smaller fraction behind a point, and
of two that write one fraction the shorter comes first.

## Main definitions

* `Hexadecimal.IsDigit`, `Hexadecimal.value` — the digits, and the number of a text of them.

## Main results

* `Hexadecimal.value_toDigits` — the digits of a number are those of it.
* `Hexadecimal.lt_iff` — **which of two texts comes first, in terms of their numbers**.
-/

namespace Hexadecimal

/-- The lower-case hexadecimal digits. -/
def IsDigit (c : Char) : Prop := ∃ d < 16, Nat.digitChar d = c

/-- What a digit counts. -/
def digitValue (c : Char) : ℕ := if c.toNat < 97 then c.toNat - 48 else c.toNat - 87

/-- The number of a text of digits. -/
def value : List Char → ℕ
  | [] => 0
  | c :: u => digitValue c * 16 ^ u.length + value u

lemma digitValue_digitChar : ∀ d < 16, digitValue (Nat.digitChar d) = d := by decide

lemma digitChar_lt_iff : ∀ d < 16, ∀ e < 16, Nat.digitChar d < Nat.digitChar e ↔ d < e := by
  decide

lemma IsDigit.digitValue_lt {c : Char} (h : IsDigit c) : digitValue c < 16 := by
  obtain ⟨d, hd, rfl⟩ := h
  rw [digitValue_digitChar d hd]
  exact hd

/-- Digits are in the order of what they count. -/
lemma IsDigit.lt_iff {c c' : Char} (h : IsDigit c) (h' : IsDigit c') :
    c < c' ↔ digitValue c < digitValue c' := by
  obtain ⟨d, hd, rfl⟩ := h
  obtain ⟨e, he, rfl⟩ := h'
  rw [digitChar_lt_iff d hd e he, digitValue_digitChar d hd, digitValue_digitChar e he]

/-- Two digits that count the same are the same. -/
lemma IsDigit.eq_of_digitValue {c c' : Char} (h : IsDigit c) (h' : IsDigit c')
    (same : digitValue c = digitValue c') : c = c' := by
  obtain ⟨d, hd, rfl⟩ := h
  obtain ⟨e, he, rfl⟩ := h'
  rw [digitValue_digitChar d hd, digitValue_digitChar e he] at same
  rw [same]

/-- The number of a text is below the power of its length. -/
lemma value_lt {u : List Char} (h : ∀ c ∈ u, IsDigit c) : value u < 16 ^ u.length := by
  induction u with
  | nil => exact Nat.one_pos
  | cons c u ih =>
    have rest := ih fun x hx => h x (List.mem_cons_of_mem c hx)
    have first := (h c (List.mem_cons_self ..)).digitValue_lt
    calc digitValue c * 16 ^ u.length + value u
        < digitValue c * 16 ^ u.length + 16 ^ u.length := Nat.add_lt_add_left rest _
      _ = (digitValue c + 1) * 16 ^ u.length := by ring
      _ ≤ 16 * 16 ^ u.length := Nat.mul_le_mul_right _ first
      _ = 16 ^ (c :: u).length := by rw [List.length_cons, pow_succ, Nat.mul_comm]

lemma value_append (u v : List Char) : value (u ++ v) = value u * 16 ^ v.length + value v := by
  induction u with
  | nil => rw [List.nil_append, value, Nat.zero_mul, Nat.zero_add]
  | cons c u ih =>
    rw [List.cons_append, value, value, ih, List.length_append, pow_add]
    ring

/-! ## The digits of a number -/

lemma isDigit_of_mem_toDigits {n : ℕ} : ∀ c ∈ Nat.toDigits 16 n, IsDigit c := by
  induction n using Nat.strong_induction_on with
  | _ n ih =>
    intro c hc
    by_cases small : n < 16
    · rw [Nat.toDigits_of_lt_base small, List.mem_singleton] at hc
      exact ⟨n, small, hc.symm⟩
    · rw [Nat.toDigits_of_base_le (by decide) (by omega), List.mem_append,
        List.mem_singleton] at hc
      obtain high | rfl := hc
      · exact ih (n / 16) (by omega) c high
      · exact ⟨n % 16, Nat.mod_lt n (by decide), rfl⟩

/-- **The digits of a number are those of it.** -/
lemma value_toDigits (n : ℕ) : value (Nat.toDigits 16 n) = n := by
  induction n using Nat.strong_induction_on with
  | _ n ih =>
    by_cases small : n < 16
    · rw [Nat.toDigits_of_lt_base small, value, value, digitValue_digitChar n small]
      simp
    · rw [Nat.toDigits_of_base_le (by decide) (by omega), value_append, ih (n / 16) (by omega),
        value, value, digitValue_digitChar _ (Nat.mod_lt n (by decide))]
      simp only [List.length_nil, List.length_cons, pow_zero, pow_one, Nat.zero_add]
      omega

/-! ## The order -/

/-- Where the first digit is smaller, so is the fraction: what follows counts less than one. -/
lemma fraction_lt_of_digit_lt {d e U V p q : ℕ} (hU : U < p) (h : d < e) :
    (d * p + U) * q ≤ (e * q + V) * p ∧ (0 < q → (d * p + U) * q < (e * q + V) * p) := by
  have below : (d * p + U) + 1 ≤ e * p := by
    calc d * p + U + 1 ≤ d * p + p := by omega
      _ = (d + 1) * p := by ring
      _ ≤ e * p := Nat.mul_le_mul_right p h
  have bound : (d * p + U) * q + q ≤ (e * q + V) * p := by
    calc (d * p + U) * q + q = (d * p + U + 1) * q := by ring
      _ ≤ e * p * q := Nat.mul_le_mul_right q below
      _ ≤ e * p * q + V * p := Nat.le_add_right _ _
      _ = (e * q + V) * p := by ring
  omega

/-- **Which of two texts comes first.** As fractions behind a point, the smaller; of two that are
one fraction the shorter.

**Proof sketch.** By induction on the first text. Where the first digits differ the fractions do,
since what follows a digit counts less than one of it (`value_lt`); where they are the same they
cancel. -/
theorem lt_iff {u v : List Char} (hu : ∀ c ∈ u, IsDigit c) (hv : ∀ c ∈ v, IsDigit c) :
    u < v ↔ value u * 16 ^ v.length < value v * 16 ^ u.length ∨
      (value u * 16 ^ v.length = value v * 16 ^ u.length ∧ u.length < v.length) := by
  induction u generalizing v with
  | nil =>
    cases v with
    | nil => simp [value]
    | cons b v =>
      have first : ([] : List Char) < b :: v := List.nil_lt_cons b v
      simp only [first, true_iff, value, Nat.zero_mul, List.length_nil, pow_zero, Nat.mul_one,
        List.length_cons]
      omega
  | cons a u ih =>
    cases v with
    | nil =>
      have last : ¬ a :: u < ([] : List Char) := List.not_lt_nil _
      simp only [last, false_iff, value, Nat.zero_mul, List.length_nil, List.length_cons]
      omega
    | cons b v =>
      have ha := hu a (List.mem_cons_self ..)
      have hb := hv b (List.mem_cons_self ..)
      have hu' : ∀ c ∈ u, IsDigit c := fun c hc => hu c (List.mem_cons_of_mem a hc)
      have hv' : ∀ c ∈ v, IsDigit c := fun c hc => hv c (List.mem_cons_of_mem b hc)
      have rest := ih hu' hv'
      have bu := value_lt hu'
      have bv := value_lt hv'
      have p : 0 < 16 ^ u.length := Nat.pow_pos (by decide)
      have q : 0 < 16 ^ v.length := Nat.pow_pos (by decide)
      rw [List.cons_lt_cons_iff, value, value, List.length_cons, List.length_cons, pow_succ,
        pow_succ, ← Nat.mul_assoc, ← Nat.mul_assoc, Nat.mul_lt_mul_right (by decide),
        Nat.mul_left_inj (by decide), Nat.add_lt_add_iff_right]
      obtain less | same | more := lt_trichotomy (digitValue a) (digitValue b)
      · have first := (fraction_lt_of_digit_lt (V := value v) bu less).2 q
        simp only [(ha.lt_iff hb).mpr less, first, true_or]
      · obtain rfl := ha.eq_of_digitValue hb same
        have cancel : digitValue a * 16 ^ u.length * 16 ^ v.length =
            digitValue a * 16 ^ v.length * 16 ^ u.length := by ring
        rw [Nat.add_mul, Nat.add_mul, cancel, Nat.add_lt_add_iff_left, Nat.add_right_inj, ← rest]
        simp
      · have first := (fraction_lt_of_digit_lt (V := value u) bv more).2 p
        have notLess : ¬ a < b := by
          rw [ha.lt_iff hb]
          omega
        have notSame : a ≠ b := by
          rintro rfl
          exact lt_irrefl _ more
        simp only [notLess, notSame, false_and, or_false, false_iff]
        omega

end Hexadecimal
