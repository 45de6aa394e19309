import Mathlib.Data.List.Basic
import Mathlib.Data.Nat.Basic

set_option relaxedAutoImplicit false
set_option autoImplicit false

/-!
# A total that is kept beside a log

Items are appended to a log, and a total of them is kept in memory and in a file. An item is added
to the total in memory once it is in the log; the file is replaced by that total and only then is
the item acknowledged. Saving can fail, and the process can end at any point, and with it the total
in memory, which the next item finds in the file again. Where the file cannot be read, counting
starts anew.

## Main definitions

* `Tally`, `Tally.add`, `Tally.forget` — the totals, one item, and the end of the process.
* `Tally.Sound` — the totals count nothing that is not in the log, and nothing twice.
* `Tally.Counts` — what they count where the file can be read.

## Main results

* `Tally.Sound.add`, `Tally.Sound.forget` — items and restarts keep the totals sound.
* `Tally.Counts.add`, `Tally.Counts.forget` — **the file counts every acknowledged item once**, and
  each total that was given back counts more than the one before.
-/

/-- A total in memory and in a file, with the items in the log, those that were acknowledged, and
the totals that were given back. -/
structure Tally (α β : Type) where
  memory : Option β := none
  filed : Option β := none
  appended : List α := []
  acked : List α := []
  returned : List β := []

namespace Tally

/-- How far an item comes that is in the log. -/
inductive How
  /-- The total is saved and given back. -/
  | acknowledged
  /-- The total cannot be saved. -/
  | unsaved
  /-- The process ends before the total is saved, or after. -/
  | cutBefore
  | cutAfter
  deriving DecidableEq, Repr

variable {α β : Type} (f : β → α → β) (init : β)

/-- The total that an item is added to, where the file can or cannot be read. -/
def current (t : Tally α β) (unread : Bool) : β :=
  t.memory.getD ((if unread then none else t.filed).getD init)

/-- One item. -/
def add (t : Tally α β) (x : α) (unread : Bool) (how : How) : Tally α β :=
  let sum := f (t.current init unread) x
  let t := { t with appended := t.appended ++ [x] }
  match how with
  | .acknowledged =>
    { t with
      memory := some sum, filed := some sum, acked := t.acked ++ [x]
      returned := t.returned ++ [sum] }
  | .unsaved => { t with memory := some sum }
  | .cutBefore => { t with memory := none }
  | .cutAfter => { t with memory := none, filed := some sum }

/-- The process ends. -/
def forget (t : Tally α β) : Tally α β := { t with memory := none }

/-- The total of items, if there is any. -/
def totalOf (xs : List α) : Option β := if xs = [] then none else some (xs.foldl f init)

/-- Every total counts some items of the log in their order. -/
structure Sound (t : Tally α β) : Prop where
  filed : ∃ counted, t.filed = totalOf f init counted ∧ counted.Sublist t.appended
  memory : ∀ sum, t.memory = some sum →
    ∃ counted : List α, sum = counted.foldl f init ∧ counted.Sublist t.appended
  returned : ∀ sum ∈ t.returned,
    ∃ counted : List α, sum = counted.foldl f init ∧ counted.Sublist t.appended

/-- **What the totals count.** The file counts some items of the log in their order, among them all
that were acknowledged, and the total in memory maybe more. The totals that were given back count
the first of them, each more than the one before. -/
structure Counts (t : Tally α β) (counted : List α) : Prop where
  filed : t.filed = totalOf f init counted
  appended : counted.Sublist t.appended
  acked : t.acked.Sublist counted
  memory : ∀ sum, t.memory = some sum → ∃ more, sum = (counted ++ more).foldl f init ∧
    (counted ++ more).Sublist t.appended
  returned : ∃ lengths : List ℕ, t.returned = lengths.map (fun n => (counted.take n).foldl f init) ∧
    lengths.Pairwise (· < ·) ∧ ∀ n ∈ lengths, n ≤ counted.length

variable {f init} {t : Tally α β} {counted : List α}

lemma getD_totalOf (xs : List α) : (totalOf f init xs).getD init = xs.foldl f init := by
  unfold totalOf
  split
  · next none =>
    subst none
    rfl
  · rfl

lemma totalOf_concat (xs : List α) (x : α) :
    totalOf f init (xs ++ [x]) = some (f (xs.foldl f init) x) := by
  rw [totalOf, if_neg (by simp), List.foldl_append]
  rfl

lemma sound_start : Sound f init ({} : Tally α β) where
  filed := ⟨[], rfl, List.Sublist.refl _⟩
  memory sum none := by cases none
  returned sum mem := by cases mem

lemma Sound.forget (h : Sound f init t) : Sound f init t.forget :=
  ⟨h.filed, (fun _ none => by cases none), h.returned⟩

/-- The total that an item is added to counts items of the log. -/
lemma Sound.current (h : Sound f init t) (unread : Bool) :
    ∃ counted : List α, t.current init unread = counted.foldl f init ∧
      counted.Sublist t.appended := by
  unfold Tally.current
  cases kept : t.memory with
  | some sum => exact h.memory sum kept
  | none =>
    cases unread with
    | true => exact ⟨[], rfl, List.nil_sublist _⟩
    | false =>
      obtain ⟨counted, filed, sub⟩ := h.filed
      refine ⟨counted, ?_, sub⟩
      simp only [Option.getD_none, Bool.false_eq_true, if_false]
      rw [filed, getD_totalOf]

/-- **One item keeps the totals sound.** -/
theorem Sound.add (h : Sound f init t) (x : α) (unread : Bool) (how : How) :
    Sound f init (t.add f init x unread how) := by
  obtain ⟨counted, current, sub⟩ := h.current unread
  have grown : ∀ {xs : List α}, xs.Sublist t.appended → xs.Sublist (t.appended ++ [x]) :=
    fun part => part.trans (List.sublist_append_left ..)
  have all : (counted ++ [x]).Sublist (t.appended ++ [x]) := sub.append (List.Sublist.refl _)
  have sum : f (t.current init unread) x = (counted ++ [x]).foldl f init := by
    rw [current, List.foldl_concat]
  have total : some (f (t.current init unread) x) = totalOf f init (counted ++ [x]) := by
    rw [totalOf_concat, current]
  have filed : ∃ xs : List α, t.filed = totalOf f init xs ∧ xs.Sublist (t.appended ++ [x]) := by
    obtain ⟨xs, same, part⟩ := h.filed
    exact ⟨xs, same, grown part⟩
  have returned : ∀ s ∈ t.returned, ∃ xs : List α, s = xs.foldl f init ∧
      xs.Sublist (t.appended ++ [x]) := by
    intro s mem
    obtain ⟨xs, same, part⟩ := h.returned s mem
    exact ⟨xs, same, grown part⟩
  cases how with
  | acknowledged =>
    refine ⟨⟨counted ++ [x], total, all⟩, ?_, ?_⟩
    · rintro _ ⟨⟩
      exact ⟨counted ++ [x], sum, all⟩
    · intro s mem
      rcases List.mem_append.mp mem with mem | last
      · exact returned s mem
      · exact ⟨counted ++ [x], (List.mem_singleton.mp last).trans sum, all⟩
  | unsaved =>
    refine ⟨filed, ?_, returned⟩
    rintro _ ⟨⟩
    exact ⟨counted ++ [x], sum, all⟩
  | cutBefore => exact ⟨filed, (fun _ none => by cases none), returned⟩
  | cutAfter => exact ⟨⟨counted ++ [x], total, all⟩, (fun _ none => by cases none), returned⟩

lemma counts_start : Counts f init ({} : Tally α β) [] where
  filed := rfl
  appended := List.Sublist.refl _
  acked := List.Sublist.refl _
  memory sum none := by cases none
  returned := ⟨[], rfl, List.Pairwise.nil, by simp⟩

/-- The total that an item is added to counts the file's items and maybe more. -/
lemma Counts.current (h : Counts f init t counted) : ∃ more,
    t.current init false = (counted ++ more).foldl f init ∧
      (counted ++ more).Sublist t.appended := by
  unfold Tally.current
  cases kept : t.memory with
  | some sum =>
    obtain ⟨more, rfl, sub⟩ := h.memory sum kept
    exact ⟨more, rfl, sub⟩
  | none =>
    refine ⟨[], ?_, by simpa using h.appended⟩
    simp only [Option.getD_none, Bool.false_eq_true, if_false]
    rw [h.filed, getD_totalOf, List.append_nil]

/-- What the totals that were given back count stays the beginning of what the file counts. -/
lemma Counts.returned_append (h : Counts f init t counted) (more : List α) :
    ∃ lengths : List ℕ,
      t.returned = lengths.map (fun n => ((counted ++ more).take n).foldl f init) ∧
      lengths.Pairwise (· < ·) ∧ ∀ n ∈ lengths, n ≤ counted.length := by
  obtain ⟨lengths, returned, rising, le⟩ := h.returned
  refine ⟨lengths, ?_, rising, le⟩
  rw [returned]
  refine List.map_congr_left fun n mem => ?_
  rw [List.take_append_of_le_length (le n mem)]

lemma Counts.forget (h : Counts f init t counted) : Counts f init t.forget counted :=
  ⟨h.filed, h.appended, h.acked, (fun _ none => by cases none), h.returned⟩

/-- **One item keeps the totals right.** -/
theorem Counts.add (h : Counts f init t counted) (x : α) (how : How) :
    ∃ more, Counts f init (t.add f init x false how) (counted ++ more) := by
  obtain ⟨more, current, sub⟩ := h.current
  have all : (counted ++ (more ++ [x])).Sublist (t.appended ++ [x]) := by
    rw [← List.append_assoc]
    exact sub.append (List.Sublist.refl _)
  have sum : f (t.current init false) x = (counted ++ (more ++ [x])).foldl f init := by
    rw [current, ← List.append_assoc, List.foldl_concat]
  have total : some (f (t.current init false) x) = totalOf f init (counted ++ (more ++ [x])) := by
    rw [← List.append_assoc, totalOf_concat, current]
  have skipped : counted.Sublist (t.appended ++ [x]) :=
    h.appended.trans (List.sublist_append_left ..)
  cases how with
  | acknowledged =>
    obtain ⟨lengths, returned, rising, le⟩ := h.returned_append (more ++ [x])
    refine ⟨more ++ [x], total, all, ?_, ?_, ?_⟩
    · rw [← List.append_assoc]
      exact (h.acked.trans (List.sublist_append_left ..)).append (List.Sublist.refl _)
    · rintro _ ⟨⟩
      exact ⟨[], by rw [List.append_nil]; exact sum, by rw [List.append_nil]; exact all⟩
    · refine ⟨lengths ++ [(counted ++ (more ++ [x])).length], ?_, ?_, ?_⟩
      · rw [List.map_append, ← returned]
        simp only [List.map_cons, List.map_nil, List.take_length]
        rw [← sum]
        rfl
      · refine List.pairwise_append.mpr ⟨rising, List.pairwise_singleton _ _, ?_⟩
        intro n mem m last
        rw [List.mem_singleton.mp last]
        have := le n mem
        simp only [List.length_append, List.length_cons, List.length_nil]
        omega
      · intro n mem
        rcases List.mem_append.mp mem with mem | last
        · exact Nat.le_trans (le n mem) (by simp)
        · exact le_of_eq (List.mem_singleton.mp last)
  | unsaved =>
    refine ⟨[], ?_⟩
    rw [List.append_nil]
    refine ⟨h.filed, skipped, h.acked, ?_, h.returned⟩
    rintro _ ⟨⟩
    exact ⟨more ++ [x], sum, all⟩
  | cutBefore =>
    refine ⟨[], ?_⟩
    rw [List.append_nil]
    exact ⟨h.filed, skipped, h.acked, (fun _ none => by cases none), h.returned⟩
  | cutAfter =>
    obtain ⟨lengths, returned, rising, le⟩ := h.returned_append (more ++ [x])
    refine ⟨more ++ [x], total, all, h.acked.trans (List.sublist_append_left ..),
      (fun _ none => by cases none), lengths, returned, rising, fun n mem => ?_⟩
    exact Nat.le_trans (le n mem) (by simp)

end Tally
