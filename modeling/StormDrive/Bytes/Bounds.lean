import StormDrive.Bytes.Layout
import StormDrive.Bytes.Checked

set_option relaxedAutoImplicit false
set_option autoImplicit false

/-!
# Bounds

An element and a part of a buffer, where asking for what the buffer does not have stops the program.

## Main definitions

* `Bytes.OutOfBounds` — why it stops.
* `Bytes.index`, `Bytes.range` — the element at a position, the part between two.
* `Bytes.part` — the part between two positions, if the buffer has it.
* `Bytes.Reads` — the program ends, with a value or a reported error, and reads only what is there.
-/

namespace Bytes

variable {α : Type}

/-- A buffer of this length was asked for what lies before `stop`. -/
structure OutOfBounds where
  stop : ℕ
  length : ℕ
  deriving DecidableEq

/-- The element at a position. -/
def index (b : List α) (i : ℕ) : Checked OutOfBounds α :=
  match b[i]? with
  | some a => .ok a
  | none => Checked.fail ⟨i + 1, b.length⟩

/-- What lies from `start` to `stop`. -/
def range (b : List α) (start stop : ℕ) : Checked OutOfBounds (List α) :=
  if start ≤ stop ∧ stop ≤ b.length then .ok (slice b start (stop - start))
  else Checked.fail ⟨stop, b.length⟩

/-- What lies from `start` to `stop`, if the buffer has that. -/
def part (b : List α) (start stop : ℕ) : Option (List α) :=
  if start ≤ stop ∧ stop ≤ b.length then some (slice b start (stop - start)) else none

/-- The program ends and has read only what is there. -/
def Reads (c : Checked OutOfBounds α) : Prop := ∃ a, c = .ok a

lemma index_eq {b : List α} {i : ℕ} (h : i < b.length) (a : α) : index b i = .ok (b.getD i a) := by
  rw [index, List.getD_eq_getElem?_getD, List.getElem?_eq_getElem h, Option.getD_some]

lemma index_getElem {b : List α} {i : ℕ} (h : i < b.length) : index b i = .ok b[i] := by
  rw [index, List.getElem?_eq_getElem h]

lemma range_eq {b : List α} {start stop : ℕ} (h : start ≤ stop) (h' : stop ≤ b.length) :
    range b start stop = .ok (slice b start (stop - start)) := if_pos ⟨h, h'⟩

lemma part_eq {b : List α} {start stop : ℕ} (h : start ≤ stop) (h' : stop ≤ b.length) :
    part b start stop = some (slice b start (stop - start)) := if_pos ⟨h, h'⟩

lemma reads_ok (a : α) : Reads (.ok a) := ⟨a, rfl⟩

lemma Reads.bind {β : Type} {c : Checked OutOfBounds β} {f : β → Checked OutOfBounds α}
    (h : Reads c) (h' : ∀ b, c = .ok b → Reads (f b)) : Reads (c >>= f) := by
  obtain ⟨b, rfl⟩ := h
  exact h' b rfl

end Bytes
