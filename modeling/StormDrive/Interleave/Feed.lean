import Mathlib.Data.List.Basic
import Mathlib.Data.List.Pairwise

set_option relaxedAutoImplicit false
set_option autoImplicit false

/-!
# Numbered feeds and their readers

A feed is a list of items with rising numbers, of which old ones may be dropped and to which new
ones are added. A reader asks for the items numbered above the largest number it has seen.

## Main definitions

* `Feed.Rising`, `Feed.above` — rising numbers, and the items above a number.
* `Feed.Reader`, `Feed.Reader.read` — a reader and one request of it.
* `Feed.Reader.Current` — the reader holds every item of the feed that it will not ask for again.

## Main results

* `Feed.Reader.Current.read` — a request keeps the reader current.
* `Feed.Reader.Current.rising`, `Feed.Reader.Current.complete` — **what a current reader gets**:
  with its next request it has every item of the feed, each once and in order.
-/

namespace Feed

variable {α : Type*} (number : α → ℕ)

/-- The numbers rise. -/
def Rising (items : List α) : Prop := items.Pairwise fun a b => number a < number b

/-- The items numbered above `n`. -/
def above (n : ℕ) (items : List α) : List α := items.filter fun a => n < number a

/-- The largest of `n` and the numbers. -/
def largest (n : ℕ) (items : List α) : ℕ := items.foldl (fun m a => max m (number a)) n

variable {number}

lemma Rising.above {items : List α} (h : Rising number items) (n : ℕ) :
    Rising number (above number n items) := h.filter _

lemma Rising.sublist {items kept : List α} (h : Rising number items) (hs : kept.Sublist items) :
    Rising number kept := List.Pairwise.sublist hs h

/-- An item with a larger number than all of them can be added. -/
lemma Rising.concat {items : List α} (h : Rising number items) {a : α}
    (ha : ∀ b ∈ items, number b < number a) : Rising number (items ++ [a]) := by
  refine List.pairwise_append.mpr ⟨h, List.pairwise_singleton _ _, ?_⟩
  intro b hb c hc
  rw [List.mem_singleton] at hc
  rw [hc]
  exact ha b hb

lemma mem_above {n : ℕ} {items : List α} {a : α} :
    a ∈ above number n items ↔ a ∈ items ∧ n < number a := by
  simp [above]

/-- The largest is at least `n` and at least every number. -/
lemma le_largest (n : ℕ) (items : List α) :
    n ≤ largest number n items ∧ ∀ a ∈ items, number a ≤ largest number n items := by
  induction items generalizing n with
  | nil => exact ⟨Nat.le_refl n, by simp⟩
  | cons b items ih =>
    have h := ih (max n (number b))
    have hrec : largest number n (b :: items) = largest number (max n (number b)) items := rfl
    rw [hrec]
    refine ⟨by omega, ?_⟩
    intro a ha
    rcases List.mem_cons.mp ha with rfl | ha
    · omega
    · exact h.2 a ha

/-- A bound of `n` and of every number bounds the largest. -/
lemma largest_lt {n m : ℕ} {items : List α} (hn : n < m) (h : ∀ a ∈ items, number a < m) :
    largest number n items < m := by
  induction items generalizing n with
  | nil => exact hn
  | cons b items ih =>
    have hb : number b < m := h b List.mem_cons_self
    have hmax : max n (number b) < m := by omega
    exact ih hmax fun a ha => h a (List.mem_cons_of_mem b ha)

/-- A reader: the largest number it has seen, and the items it got. -/
structure Reader (α : Type*) where
  seen : ℕ
  got : List α
  deriving DecidableEq

/-- One request: the items above the largest number seen. -/
def Reader.read (number : α → ℕ) (r : Reader α) (items : List α) : Reader α :=
  { seen := largest number r.seen (above number r.seen items)
    got := r.got ++ above number r.seen items }

/-- The reader has in order what it got, and every item of the feed that it will not ask for
again is among it. -/
structure Reader.Current (number : α → ℕ) (r : Reader α) (items : List α) : Prop where
  ordered : Rising number r.got
  seen : ∀ a ∈ r.got, number a ≤ r.seen
  has : ∀ a ∈ items, number a ≤ r.seen → a ∈ r.got

namespace Reader.Current

variable {r : Reader α} {items : List α}

/-- **Each item once and in order**, the next request included. -/
theorem rising (h : Current number r items) (hi : Rising number items) :
    Rising number (r.got ++ above number r.seen items) := by
  refine List.pairwise_append.mpr ⟨h.ordered, hi.above _, ?_⟩
  intro a ha b hb
  have hle := h.seen a ha
  have hlt := (mem_above.mp hb).2
  omega

/-- **Every item of the feed**, the next request included. -/
theorem complete (h : Current number r items) {a : α} (ha : a ∈ items) :
    a ∈ r.got ++ above number r.seen items := by
  by_cases hs : number a ≤ r.seen
  · exact List.mem_append_left _ (h.has a ha hs)
  · exact List.mem_append_right _ (mem_above.mpr ⟨ha, by omega⟩)

/-- A request keeps the reader current. -/
theorem read (h : Current number r items) (hi : Rising number items) :
    Current number (r.read number items) items := by
  have hl := @le_largest _ number r.seen (above number r.seen items)
  refine ⟨h.rising hi, ?_, ?_⟩
  · intro a ha
    rcases List.mem_append.mp ha with ha | ha
    · exact Nat.le_trans (h.seen a ha) hl.1
    · exact hl.2 a ha
  · intro a ha _
    exact h.complete ha

/-- A reader of a feed is current for every part of it. -/
lemma subset (h : Current number r items) {kept : List α} (hs : ∀ a ∈ kept, a ∈ items) :
    Current number r kept :=
  ⟨h.ordered, h.seen, fun a ha => h.has a (hs a ha)⟩

/-- An item above what the reader has seen can be added. -/
lemma concat (h : Current number r items) {a : α} (ha : r.seen < number a) :
    Current number r (items ++ [a]) := by
  refine ⟨h.ordered, h.seen, ?_⟩
  intro b hb hle
  rcases List.mem_append.mp hb with hb | hb
  · exact h.has b hb hle
  · rw [List.mem_singleton] at hb
    rw [hb] at hle
    omega

end Reader.Current

end Feed
