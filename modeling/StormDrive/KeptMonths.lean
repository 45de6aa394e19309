import StormDrive.History
import StormDrive.Calendar.Iso

set_option relaxedAutoImplicit false
set_option autoImplicit false

/-!
# The months that are kept

The name of a month file is the month of its values, and when a month begins the files whose names
are before the cutoff go. `rfc3339` computes the date of a second with the eras of the calendar,
and `cutoff` a month with a division; both are compared here with the calendar that counts seconds
and months one after another.

## Main results

* `parseInt_fixed` — a field is read back as its number.
* `rfc3339_eq`, `month_eq` — the texts are those of the second and of its month.
* `lt_cutoff_iff` — which names are before the cutoff.
* `months_kept` — **a month file is removed where its month is more than `keep − 1` months before
  the current one, and only there**.

## Implementation notes

From the year 10000 on a year has five digits, and the first seven characters of a time are no
longer its month. A cutoff before the year 0 is a text with a sign.
-/

namespace StormDrive

open Calendar Decimal

/-! ## Fields -/

lemma toList_pushn (s : String) (c : Char) (n : ℕ) :
    (s.pushn c n).toList = s.toList ++ List.replicate n c := by
  rw [String.pushn_eq_repeat_push]
  induction n with
  | zero => rw [Nat.repeat, List.replicate_zero, List.append_nil]
  | succ n ih => rw [Nat.repeat, String.toList_push, ih, List.replicate_succ', List.append_assoc]

/-- A number that fits is written as a field. -/
lemma toList_padded {width n : ℕ} (pos : 0 < width) (fits : n < 10 ^ width) :
    (padded width n).toList = fixed width n := by
  have sign : ¬ (n : ℤ) < 0 := by omega
  have digits : (toString n).toList = Nat.toDigits 10 n := by
    rw [Nat.toString_eq_repr, Nat.toList_repr]
  rw [padded, if_neg sign, Int.natAbs_natCast, String.toList_append, toList_pushn, digits,
    ← String.length_toList, digits, fixed_eq pos fits]
  rfl

/-- A negative number has a sign before its digits. -/
lemma toList_padded_neg (width : ℕ) {n : ℤ} (h : n < 0) :
    ∃ cs, (padded width n).toList = '-' :: cs := by
  rw [padded, if_pos h, String.append_assoc, String.toList_append]
  exact ⟨_, rfl⟩

/-- Each digit of a field counts for ten of the next. -/
lemma foldl_fixed (width a : ℕ) {n : ℕ} (fits : n < 10 ^ width) :
    (fixed width n).foldl (fun n c => n.bind fun n =>
      if c.isDigit then some (n * 10 + (c.toNat - '0'.toNat)) else none) (some a) =
      some (a * 10 ^ width + n) := by
  induction width generalizing n with
  | zero =>
    obtain rfl : n = 0 := Nat.lt_one_iff.mp fits
    rw [fixed, List.foldl_nil, pow_zero, Nat.mul_one, Nat.add_zero]
  | succ width ih =>
    rw [pow_succ] at fits
    have digit : n % 10 < 10 := Nat.mod_lt n (by decide)
    have value : (Nat.digitChar (n % 10)).toNat - '0'.toNat = n % 10 :=
      Nat.toNat_digitChar_sub_48_of_lt_ten digit
    rw [fixed, List.foldl_append, ih (by omega), List.foldl_cons, List.foldl_nil, Option.bind_some,
      Nat.isDigit_digitChar, decide_eq_true digit, if_pos rfl, value, pow_succ, ← Nat.mul_assoc]
    congr 1
    omega

/-- **A field is read back as its number.** -/
lemma parseInt_fixed {width n : ℕ} (fits : n < 10 ^ (width + 1)) :
    parseInt (fixed (width + 1) n) = some (n : ℤ) := by
  have digits : parseDigits (fixed (width + 1) n) = some n := by
    have value := foldl_fixed (width + 1) 0 fits
    rw [Nat.zero_mul, Nat.zero_add] at value
    rw [parseDigits, value]
    intro empty
    exact absurd (congrArg List.length empty) (by rw [length_fixed]; exact Nat.succ_ne_zero width)
  have unsigned {c : Char} {cs : List Char} (h : c.isDigit = false) :
      fixed (width + 1) n ≠ c :: cs := by
    intro same
    have member : c ∈ fixed (width + 1) n := same ▸ List.mem_cons_self
    rw [isDigit_of_mem_fixed member] at h
    exact Bool.false_ne_true h.symm
  rw [parseInt, digits]
  · rfl
  · exact fun cs => unsigned (by decide)
  · exact fun cs => unsigned (by decide)

/-- The sign comes before each digit. -/
lemma not_lt_sign {c : Char} (h : c.isDigit) : ¬ c < '-' := by
  have digit := (Char.isDigit_iff_toNat.mp h).1
  intro before
  exact absurd (digit.trans_lt before) (by decide)

/-- The name of a month begins with a digit. -/
lemma exists_digit_text (m : Month) : ∃ c cs, m.text.toList = c :: cs ∧ c.isDigit := by
  rw [Month.text, String.toList_ofList]
  cases h : fixed 4 m.year with
  | nil => exact absurd (congrArg List.length h) (by rw [length_fixed]; decide)
  | cons c cs => exact ⟨c, _, rfl, isDigit_of_mem_fixed (h ▸ List.mem_cons_self)⟩

/-! ## The date of a second -/

/-- **`rfc3339` is the date and time of a second**, before the year 10000. -/
lemma rfc3339_eq {unix : ℕ} (h : unix < 253402300800) :
    rfc3339 unix = (Moment.after unix).text := by
  have year_lt := Moment.year_lt h
  have number := Moment.number_after unix
  generalize Moment.after unix = t at number year_lt ⊢
  obtain ⟨day, hour, minute, second⟩ := t.of_number number
  obtain ⟨hy, hm, hd⟩ := t.toDate.of_number rfl rfl rfl rfl
  rw [day] at hy hm hd
  have month : t.month < 10 ^ 2 := t.month_le.trans_lt (by decide)
  have hour_lt : t.hour < 10 ^ 2 := t.hour_lt.trans (by decide)
  have minute_lt : t.minute < 10 ^ 2 := t.minute_lt.trans (by decide)
  have second_lt : t.second < 10 ^ 2 := t.second_lt.trans (by decide)
  have text : rfc3339 unix = padded 4 t.year ++ "-" ++ padded 2 t.month ++ "-" ++ padded 2 t.day ++
      "T" ++ padded 2 t.hour ++ ":" ++ padded 2 t.minute ++ ":" ++ padded 2 t.second ++ "Z" := by
    rw [← hy, ← hm, ← hd, ← hour, ← minute, ← second]
    rfl
  apply String.toList_injective
  rw [text, Moment.text]
  simp only [String.toList_append, String.toList_ofList, List.append_assoc,
    toList_padded (by decide : 0 < 4) year_lt, toList_padded (by decide : 0 < 2) month,
    toList_padded (by decide : 0 < 2) t.day_lt, toList_padded (by decide : 0 < 2) hour_lt,
    toList_padded (by decide : 0 < 2) minute_lt, toList_padded (by decide : 0 < 2) second_lt]
  rfl

/-- The name of a month file is the month of the calendar. -/
lemma month_eq {unix : ℕ} (h : unix < 253402300800) :
    month unix = (Moment.after unix).toMonth.text := by
  have name : (fixed 4 (Moment.after unix).year ++
      '-' :: fixed 2 (Moment.after unix).month).length = 7 := by
    rw [List.length_append, List.length_cons, length_fixed, length_fixed]
  rw [month, rfc3339_eq h, Moment.text, Month.text, String.toList_ofList, ← List.cons_append,
    ← List.append_assoc, ← name, List.take_left]

/-! ## The cutoff -/

/-- The cutoff of a month is computed from its number. -/
lemma cutoff_text {m : Month} (hm : m.year < 10000) (keep : ℕ) :
    cutoff m.text keep =
      padded 4 (((m.index : ℤ) - (keep - 1 : ℕ)) / 12) ++ "-" ++
        padded 2 (((m.index : ℤ) - (keep - 1 : ℕ)) % 12 + 1) := by
  have pos := m.month_pos
  have le := m.month_le
  have year : m.text.toList.take 4 = fixed 4 m.year := by
    rw [Month.text, String.toList_ofList, List.take_left' (length_fixed 4 _)]
  have month : (m.text.toList.drop 5).take 2 = fixed 2 m.month := by
    have length : (fixed 4 m.year ++ ['-']).length = 5 := by
      rw [List.length_append, length_fixed, List.length_singleton]
    rw [Month.text, String.toList_ofList, ← List.singleton_append, ← List.append_assoc,
      List.drop_left' length, List.take_of_length_le (by rw [length_fixed])]
  have total : (m.year : ℤ) * 12 + ((m.month : ℤ) - 1) - (keep - 1 : ℕ) =
      (m.index : ℤ) - (keep - 1 : ℕ) := by
    rw [Month.index]
    omega
  rw [cutoff, year, month, parseInt_fixed hm, parseInt_fixed (by omega)]
  simp only [Option.getD_some, total]

/-- **The names before the cutoff are those of the months more than `keep − 1` before.**

**Proof sketch.** As long as the cutoff is not before the year 0 it is the name of the month of its
number. A cutoff before it has a sign, which comes before each digit, so that no name is before it,
and no month is so many before. -/
lemma lt_cutoff_iff {f m : Month} (hf : f.year < 10000) (hm : m.year < 10000) (keep : ℕ) :
    f.text < cutoff m.text keep ↔ f.MoreBefore (keep - 1) m := by
  rw [cutoff_text hm, Month.moreBefore_iff]
  obtain back | early := le_or_gt (keep - 1) m.index
  · obtain ⟨n, hn⟩ := Nat.exists_eq_add_of_le back
    have index : (m.index : ℤ) - (keep - 1 : ℕ) = n := by omega
    have year : n / 12 < 10000 := by
      have := m.month_le
      rw [Month.index] at hn
      omega
    have month : n % 12 + 1 < 10 ^ 2 := (Month.ofIndex n).month_le.trans_lt (by decide)
    have name : padded 4 (n / 12 : ℕ) ++ "-" ++ padded 2 (n % 12 + 1 : ℕ) =
        (Month.ofIndex n).text := by
      apply String.toList_injective
      rw [Month.text, String.toList_append, String.toList_append, String.toList_ofList,
        String.toList_ofList, toList_padded (by decide) year, toList_padded (by decide) month,
        List.append_assoc]
      rfl
    rw [index]
    push_cast at name
    rw [name, Month.text_lt_iff hf year, Month.index_ofIndex]
    omega
  · have before : ((m.index : ℤ) - (keep - 1 : ℕ)) / 12 < 0 := by omega
    obtain ⟨cs, sign⟩ := toList_padded_neg 4 before
    obtain ⟨c, ds, first, digit⟩ := exists_digit_text f
    have notLess : ¬ c < '-' := not_lt_sign digit
    have notSame : c ≠ '-' := by
      rintro rfl
      exact absurd digit (by decide)
    rw [String.lt_iff_toList_lt, first, String.toList_append, String.toList_append, sign,
      List.cons_append, List.cons_append, List.cons_lt_cons_iff]
    simp only [notLess, notSame, false_and, or_false, false_iff]
    omega

/-- **What a directory keeps.** Before the year 10000, `rfc3339` is the date and time of each
second in the Gregorian calendar, and its texts are in the order of the times; and when the
current month is that of `now`, a month file is removed where its month is more than `keep − 1`
months before, unless it cannot be removed, and no other is.

**Proof sketch.** The day of a second is read from its number (`Date.of_number`), the numbers count
the days (`Date.number_next`), and fields of a fixed width are in the order of their numbers. -/
theorem months_kept :
    (∀ unix < 253402300800, rfc3339 unix = (Moment.after unix).text) ∧
    (∀ a < 253402300800, ∀ b < 253402300800, rfc3339 a < rfc3339 b ↔ a < b) ∧
    (∀ unix < 253402300800, month unix = (Moment.after unix).toMonth.text) ∧
    ∀ now < 253402300800, ∀ (keep : ℕ) (files : MonthFiles) (stuck : List String),
      ∀ f ∈ files, ∀ m : Month, m.year < 10000 → f.1 = m.text →
        (f ∉ prune files (cutoff (month now) keep) stuck ↔
          m.MoreBefore (keep - 1) (Moment.after now).toMonth ∧ f.1 ∉ stuck) := by
  refine ⟨fun unix h => rfc3339_eq h, fun a ha b hb => ?_, fun unix h => month_eq h, ?_⟩
  · rw [rfc3339_eq ha, rfc3339_eq hb, Moment.text_after_lt_iff ha hb]
  · intro now hnow keep files stuck f hf m hm name
    have older := lt_cutoff_iff hm (Moment.year_lt hnow) keep
    rw [← name, ← month_eq hnow] at older
    rw [← older, prune, List.mem_filter]
    simp [hf]

/-- The month of the first second of 2026. -/
lemma month_2026 {t : Moment} (h : t.number = 719468 * 86400 + (1767225600 : ℕ)) :
    t.toMonth = ⟨2026, 1, by decide, by decide⟩ := by
  obtain ⟨day, -⟩ := t.of_number h
  obtain ⟨year, month, -⟩ := t.toDate.of_number rfl rfl rfl rfl
  rw [day] at year month
  have hy : t.year = 2026 := Nat.cast_injective (R := ℤ) (year.symm.trans (by decide))
  have hm : t.month = 1 := Nat.cast_injective (R := ℤ) (month.symm.trans (by decide))
  apply Month.index_injective
  simp only [Month.index, hy, hm]

/-- As 2026 begins with two months to be kept, the file of November goes and that of December
stays. -/
theorem november_removed :
    rfc3339 1767225600 = (Moment.after 1767225600).text ∧
    rfc3339 1767225599 < rfc3339 1767225600 ∧
    month 1767225600 = (Moment.after 1767225600).toMonth.text ∧
    ("2025-11", []) ∉ prune [("2025-11", []), ("2025-12", [])]
      (cutoff (month 1767225600) 2) [] ∧
    ("2025-12", []) ∈ prune [("2025-11", []), ("2025-12", [])]
      (cutoff (month 1767225600) 2) [] := by
  have january := month_2026 (Moment.number_after 1767225600)
  refine ⟨months_kept.1 _ (by decide), ?_, months_kept.2.2.1 _ (by decide), ?_, ?_⟩
  · exact (months_kept.2.1 _ (by decide) _ (by decide)).mpr (by decide)
  · refine (months_kept.2.2.2 _ (by decide) _ _ _ _ (by simp) ⟨2025, 11, by decide, by decide⟩
      (by decide) (by decide)).mpr ⟨?_, List.not_mem_nil⟩
    rw [january, Month.moreBefore_iff]
    decide
  · by_contra gone
    have older := ((months_kept.2.2.2 _ (by decide) _ _ _ _ (by simp)
      ⟨2025, 12, by decide, by decide⟩ (by decide) (by decide)).mp gone).1
    rw [january, Month.moreBefore_iff] at older
    exact absurd older (by decide)

end StormDrive
