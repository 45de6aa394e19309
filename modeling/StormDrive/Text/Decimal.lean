import Mathlib.Data.List.Basic
import Mathlib.Order.Basic
import StormDrive.Text.Hexadecimal

set_option relaxedAutoImplicit false
set_option autoImplicit false

/-!
# Decimal numbers of a fixed width

Numbers that are written with as many decimal digits as a field has, zeros in front. In such a
text the order of a dictionary is the order of the numbers, field by field, which is why names
and times that are to be sorted are written so.

## Main definitions

* `Decimal.fixed` — the last digits of a number, as many as the field has.

## Main results

* `Decimal.fixed_eq` — the digits of a number that fits, behind as many zeros as are missing.
* `Decimal.fixed_append_lt_iff` — **two texts that begin with a field of the same width are in the
  order of the numbers in it, and with equal numbers in the order of what follows**.
-/

namespace Decimal

/-- The last `width` decimal digits of a number. -/
def fixed : ℕ → ℕ → List Char
  | 0, _ => []
  | width + 1, n => fixed width (n / 10) ++ [Nat.digitChar (n % 10)]

/-! ## The digits of a field -/

@[simp] lemma length_fixed (width n : ℕ) : (fixed width n).length = width := by
  induction width generalizing n with
  | zero => rfl
  | succ width ih => rw [fixed, List.length_append, ih, List.length_singleton]

/-- A field has nothing but digits in it. -/
lemma isDigit_of_mem_fixed {width n : ℕ} {c : Char} (h : c ∈ fixed width n) : c.isDigit := by
  induction width generalizing n with
  | zero => exact absurd h List.not_mem_nil
  | succ width ih =>
    rw [fixed, List.mem_append, List.mem_singleton] at h
    obtain high | rfl := h
    · exact ih high
    · rw [Nat.isDigit_digitChar, decide_eq_true_eq]
      exact Nat.mod_lt n (by decide)

/-- Zero is written with zeros. -/
lemma fixed_zero (width : ℕ) : fixed width 0 = List.replicate width '0' := by
  induction width with
  | zero => rfl
  | succ width ih => rw [fixed, Nat.zero_div, ih, List.replicate_succ', Nat.zero_mod]; rfl

/-- **A number that fits is its digits behind as many zeros as are missing.** -/
lemma fixed_eq {width n : ℕ} (pos : 0 < width) (fits : n < 10 ^ width) :
    fixed width n =
      List.replicate (width - (Nat.toDigits 10 n).length) '0' ++ Nat.toDigits 10 n := by
  induction width generalizing n with
  | zero => exact absurd pos (Nat.lt_irrefl 0)
  | succ width ih =>
    by_cases small : n < 10
    · rw [fixed, Nat.div_eq_of_lt small, Nat.mod_eq_of_lt small, fixed_zero,
        Nat.toDigits_of_lt_base small, List.length_singleton, Nat.add_sub_cancel]
    · have rest : n / 10 < 10 ^ width := by
        rw [pow_succ] at fits
        omega
      have more : 0 < width := by
        rcases width with _ | width
        · exact absurd fits small
        · exact Nat.succ_pos width
      have digits := Nat.toDigits_of_base_le (b := 10) (n := n) (by decide) (by omega)
      rw [fixed, ih more rest, digits, List.append_assoc, List.length_append,
        List.length_singleton, Nat.add_sub_add_right]

/-! ## The order -/

/-- Texts of the same length before others: these decide, unless they are the same. -/
lemma append_lt_append_iff {α : Type} [LinearOrder α] {u v s t : List α}
    (h : u.length = v.length) : u ++ s < v ++ t ↔ u < v ∨ (u = v ∧ s < t) := by
  induction u generalizing v with
  | nil =>
    obtain rfl := List.length_eq_zero_iff.mp h.symm
    simp
  | cons a u ih =>
    cases v with
    | nil => exact absurd h (Nat.succ_ne_zero _)
    | cons b v =>
      rw [List.cons_append, List.cons_append, List.cons_lt_cons_iff, List.cons_lt_cons_iff,
        ih (Nat.succ.inj h), List.cons.injEq]
      tauto

/-- Numbers that fit are told apart by their fields. -/
lemma fixed_inj {width m n : ℕ} (hm : m < 10 ^ width) (hn : n < 10 ^ width) :
    fixed width m = fixed width n ↔ m = n := by
  refine ⟨fun same => ?_, fun same => by rw [same]⟩
  induction width generalizing m n with
  | zero =>
    rw [pow_zero] at hm hn
    omega
  | succ width ih =>
    rw [pow_succ] at hm hn
    obtain ⟨high, low⟩ := List.append_inj same (by rw [length_fixed, length_fixed])
    have high := ih (m := m / 10) (n := n / 10) (by omega) (by omega) high
    have low := congrArg Hexadecimal.digitValue (List.singleton_inj.mp low)
    rw [Hexadecimal.digitValue_digitChar _ (by omega),
      Hexadecimal.digitValue_digitChar _ (by omega)] at low
    omega

/-- A field is in the order of its number. -/
lemma fixed_lt_iff {width m n : ℕ} (hm : m < 10 ^ width) (hn : n < 10 ^ width) :
    fixed width m < fixed width n ↔ m < n := by
  induction width generalizing m n with
  | zero =>
    rw [pow_zero] at hm hn
    obtain rfl : m = n := by omega
    simp
  | succ width ih =>
    rw [pow_succ] at hm hn
    have digit := Hexadecimal.digitChar_lt_iff (m % 10) (by omega) (n % 10) (by omega)
    rw [fixed, fixed, append_lt_append_iff (by rw [length_fixed, length_fixed]),
      ih (by omega) (by omega), fixed_inj (by omega) (by omega), List.cons_lt_cons_iff, digit]
    simp only [List.not_lt_nil, and_false, or_false]
    omega

/-- **Two texts that begin with a field of the same width** are in the order of the numbers in it,
and with equal numbers in the order of what follows. -/
lemma fixed_append_lt_iff {width m n : ℕ} {s t : List Char} (hm : m < 10 ^ width)
    (hn : n < 10 ^ width) :
    fixed width m ++ s < fixed width n ++ t ↔ m < n ∨ (m = n ∧ s < t) := by
  rw [append_lt_append_iff (by rw [length_fixed, length_fixed]), fixed_lt_iff hm hn,
    fixed_inj hm hn]

end Decimal
