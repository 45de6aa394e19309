import Mathlib.Data.List.Lex
import Mathlib.Data.String.Basic
import StormDrive.Text.Decimal
import StormDrive.Calendar.Civil

set_option relaxedAutoImplicit false
set_option autoImplicit false

/-!
# Times and months as texts

The texts of ISO 8601 have the year first and each field with a fixed number of digits, so that
texts are in the order of the times.

## Main definitions

* `Calendar.Month.text`, `Calendar.Moment.text` — `2026-10` and `2026-10-04T08:00:00Z`.
* `Calendar.Month.index` — the number of a month.

## Main results

* `Calendar.Moment.text_after_lt_iff` — **the texts of two times are in the order of the times**,
  before the year 10000.
* `Calendar.Month.text_lt_iff` — the texts of two months are in the order of the months.
-/

namespace Calendar

open Decimal

/-- The text of a month. -/
def Month.text (m : Month) : String := String.ofList (fixed 4 m.year ++ '-' :: fixed 2 m.month)

/-- The text of a time, in UTC. -/
def Moment.text (t : Moment) : String :=
  String.ofList (fixed 4 t.year ++ '-' :: (fixed 2 t.month ++ '-' :: (fixed 2 t.day ++ 'T' ::
    (fixed 2 t.hour ++ ':' :: (fixed 2 t.minute ++ ':' :: (fixed 2 t.second ++ ['Z']))))))

/-! ## The order of times -/

/-- The fields of a time, from the longest to the shortest. -/
def Moment.fields (t : Moment) : List ℕ := [t.year, t.month, t.day, t.hour, t.minute, t.second]

/-- The next second has the greater fields. -/
lemma Moment.fields_lt_tick (t : Moment) : t.fields < t.tick.fields := by
  simp only [tick, Date.next, Month.next]
  split_ifs <;> simp [fields, List.cons_lt_cons_iff]

/-- Later times have the greater fields. -/
lemma Moment.strictMono_fields : StrictMono fun n => (Moment.after n).fields :=
  strictMono_nat_of_lt_succ fun n => (Moment.after n).fields_lt_tick

lemma Date.day_lt (d : Date) : d.day < 10 ^ 2 := by
  have le := d.day_le
  unfold daysIn at le
  split_ifs at le <;> omega

/-- Texts of times are in the order of their fields. -/
lemma Moment.text_lt_iff {t u : Moment} (ht : t.year < 10000) (hu : u.year < 10000) :
    t.text < u.text ↔ t.fields < u.fields := by
  have month (t : Moment) : t.month < 10 ^ 2 := by have := t.month_le; omega
  have hour (t : Moment) : t.hour < 10 ^ 2 := by have := t.hour_lt; omega
  have minute (t : Moment) : t.minute < 10 ^ 2 := by have := t.minute_lt; omega
  have second (t : Moment) : t.second < 10 ^ 2 := by have := t.second_lt; omega
  rw [String.lt_iff_toList_lt, text, text, String.toList_ofList, String.toList_ofList,
    fixed_append_lt_iff ht hu, List.cons_lt_cons_iff,
    fixed_append_lt_iff (month t) (month u), List.cons_lt_cons_iff,
    fixed_append_lt_iff t.day_lt u.day_lt, List.cons_lt_cons_iff,
    fixed_append_lt_iff (hour t) (hour u), List.cons_lt_cons_iff,
    fixed_append_lt_iff (minute t) (minute u), List.cons_lt_cons_iff,
    fixed_append_lt_iff (second t) (second u)]
  simp only [fields, List.cons_lt_cons_iff, lt_irrefl, false_or, true_and, and_false, or_false]

/-- The days of the year 10000 and later have the numbers from that of its first day on. -/
lemma Date.le_number {d : Date} (h : 10000 ≤ d.year) : 3652365 ≤ d.number := by
  have later {y : ℤ} (hy : 10000 ≤ y) : 3652425 ≤ daysBefore y := by
    rw [daysBefore]
    omega
  have pos := d.marchDay_le.1
  have month_pos := d.month_pos
  have day_pos := d.day_pos
  rw [number]
  obtain spring | winter : 10000 ≤ d.marchYear ∨ (d.marchYear = 9999 ∧ d.month ≤ 2) := by
    rw [Month.marchYear]
    split_ifs <;> omega
  · have := later spring
    omega
  · have first : daysBefore 9999 = 3652059 := by decide
    rw [winter.1, first, marchDay, Month.marchMonth, daysBeforeMonth]
    omega

/-- The year of a time is below 10000 until the first second of that year. -/
lemma Moment.year_lt {n : ℕ} (h : n < 253402300800) : (Moment.after n).year < 10000 := by
  by_contra late
  have days := Date.le_number (Nat.le_of_not_lt late)
  have seconds := Moment.number_after n
  rw [number] at seconds
  omega

/-- **The texts of two times are in the order of the times**, before the year 10000. -/
theorem Moment.text_after_lt_iff {m n : ℕ} (hm : m < 253402300800) (hn : n < 253402300800) :
    (Moment.after m).text < (Moment.after n).text ↔ m < n := by
  rw [text_lt_iff (year_lt hm) (year_lt hn)]
  exact strictMono_fields.lt_iff_lt

/-! ## The order of months -/

/-- The number of a month, from the January of the year 0 on. -/
def Month.index (m : Month) : ℕ := m.year * 12 + (m.month - 1)

/-- The month of a number. -/
def Month.ofIndex (n : ℕ) : Month := ⟨n / 12, n % 12 + 1, by omega, by omega⟩

@[simp] lemma Month.index_ofIndex (n : ℕ) : (ofIndex n).index = n := by
  simp only [index, ofIndex]
  omega

/-- Two months of one number are the same. -/
lemma Month.index_injective : Function.Injective index := by
  rintro ⟨y, m, pos, le⟩ ⟨y', m', pos', le'⟩ same
  simp only [index] at same
  obtain ⟨rfl, rfl⟩ : y = y' ∧ m = m' := by omega
  rfl

/-- Each month has the number after that of the month before. -/
lemma Month.index_next (m : Month) : m.next.index = m.index + 1 := by
  have pos := m.month_pos
  have le := m.month_le
  rw [next]
  split_ifs with h
  · simp only [index]
    omega
  · simp only [index]
    omega

lemma Month.index_iterate (m : Month) (k : ℕ) : (Month.next^[k] m).index = m.index + k := by
  induction k with
  | zero => rfl
  | succ k ih => rw [Function.iterate_succ_apply', index_next, ih, Nat.add_assoc]

/-- A month that is more than `k` months before another. -/
def Month.MoreBefore (k : ℕ) (m n : Month) : Prop := ∃ j, k < j ∧ Month.next^[j] m = n

lemma Month.moreBefore_iff {k : ℕ} {m n : Month} : MoreBefore k m n ↔ m.index + k < n.index := by
  constructor
  · rintro ⟨j, more, rfl⟩
    rw [index_iterate]
    omega
  · intro less
    refine ⟨n.index - m.index, by omega, index_injective ?_⟩
    rw [index_iterate]
    omega

/-- **The texts of two months are in the order of the months**, before the year 10000. -/
theorem Month.text_lt_iff {m n : Month} (hm : m.year < 10000) (hn : n.year < 10000) :
    m.text < n.text ↔ m.index < n.index := by
  have month (m : Month) : m.month < 10 ^ 2 := by have := m.month_le; omega
  rw [String.lt_iff_toList_lt, text, text, String.toList_ofList, String.toList_ofList,
    fixed_append_lt_iff hm hn, List.cons_lt_cons_iff, fixed_lt_iff (month m) (month n)]
  have := m.month_pos
  have := m.month_le
  have := n.month_pos
  have := n.month_le
  simp only [lt_irrefl, false_or, true_and, index]
  omega

end Calendar
