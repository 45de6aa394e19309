import Mathlib.Data.List.Basic

set_option relaxedAutoImplicit false
set_option autoImplicit false

/-!
# Separators

Two ways in which texts that differ are made one: parts joined by a separator that may occur in
them, and runs of a filler of which one is kept.

## Main definitions

* `Separators.Shifted` — a separator of one pair is inside a part of the other.
* `Separators.squash` — a list with one filler for each run of them.
* `Separators.squashPairs`, `Separators.squashLoop` — one pass that halves the pairs of fillers, and
  the passes until there is no pair.

## Main results

* `Separators.join_eq_join_iff` — **pairs are joined to the same list exactly when they are the same
  or shifted**.
* `Separators.squashLoop_eq` — **the passes leave one filler of each run**.
-/

namespace Separators

variable {α β : Type*}

/-! ## Joined parts -/

/-- The first pair's left part ends at a separator inside the left part of the second, and what is
between the two separators begins the first pair's right part. -/
def Shifted (c : α) (p q : List α × List α) : Prop :=
  ∃ x, q.1 = p.1 ++ c :: x ∧ p.2 = x ++ c :: q.2

/-- **Pairs are joined to the same list exactly when they are the same or shifted**. -/
theorem join_eq_join_iff (c : α) (p q : List α × List α) :
    p.1 ++ c :: p.2 = q.1 ++ c :: q.2 ↔ p = q ∨ Shifted c p q ∨ Shifted c q p := by
  constructor
  · intro h
    obtain ⟨x, left, right⟩ | ⟨x, left, right⟩ := List.append_eq_append_iff.mp h
    · cases x with
      | nil =>
        rw [List.append_nil] at left
        rw [List.nil_append] at right
        exact .inl (Prod.ext left.symm (List.cons.inj right).2)
      | cons d x =>
        obtain ⟨rfl, tail⟩ := List.cons.inj right
        exact .inr (.inl ⟨x, left, tail⟩)
    · cases x with
      | nil =>
        rw [List.append_nil] at left
        rw [List.nil_append] at right
        exact .inl (Prod.ext left (List.cons.inj right).2.symm)
      | cons d x =>
        obtain ⟨rfl, tail⟩ := List.cons.inj right
        exact .inr (.inr ⟨x, left, tail⟩)
  · rintro (rfl | ⟨x, left, right⟩ | ⟨x, left, right⟩)
    · rfl
    · rw [left, right, List.append_assoc, List.cons_append]
    · rw [left, right, List.append_assoc, List.cons_append]

/-! ## One filler for a run -/

variable [DecidableEq α] [DecidableEq β]

/-- One filler is kept of each run. -/
def squash (g : α) : List α → List α
  | [] => []
  | a :: l => if a = g ∧ (squash g l).head? = some g then squash g l else a :: squash g l

/-- Each pair of fillers becomes one, from the left. -/
def squashPairs (g : α) : List α → List α
  | [] => []
  | [a] => [a]
  | a :: b :: l =>
    if a = g ∧ b = g then g :: squashPairs g l else a :: squashPairs g (b :: l)

/-- There is a pair of fillers. -/
def HasPair (g : α) (l : List α) : Prop := [g, g] <:+: l

instance (g : α) (l : List α) : Decidable (HasPair g l) :=
  inferInstanceAs (Decidable ([g, g] <:+: l))

/-- Passes while there is a pair, as many as there is fuel for. -/
def squashLoop (g : α) : ℕ → List α → List α
  | 0, l => l
  | n + 1, l => if HasPair g l then squashLoop g n (squashPairs g l) else l

/-- What comes before does not care how many fillers are in the runs behind it. -/
lemma squash_cons_congr {g a : α} {l l' : List α} (h : squash g l = squash g l') :
    squash g (a :: l) = squash g (a :: l') := by
  rw [squash, squash, h]

/-- A filler before a filler goes. -/
lemma squash_filler_cons (g : α) (l : List α) : squash g (g :: g :: l) = squash g (g :: l) := by
  have head : (squash g (g :: l)).head? = some g := by
    rw [squash]
    split_ifs with h
    · exact h.2
    · rfl
  rw [squash, if_pos ⟨rfl, head⟩]

lemma squash_squashPairs (g : α) (l : List α) : squash g (squashPairs g l) = squash g l := by
  induction l using squashPairs.induct g with
  | case1 => rfl
  | case2 a => rfl
  | case3 a b l pair ih =>
    obtain ⟨rfl, rfl⟩ := pair
    rw [squashPairs, if_pos ⟨rfl, rfl⟩, squash_filler_cons]
    exact squash_cons_congr ih
  | case4 a b l pair ih =>
    rw [squashPairs, if_neg pair]
    exact squash_cons_congr ih

/-- A pass makes a list with a pair shorter. -/
lemma length_squashPairs (g : α) (l : List α) :
    (squashPairs g l).length ≤ l.length ∧
      (HasPair g l → (squashPairs g l).length < l.length) := by
  induction l using squashPairs.induct g with
  | case1 => exact ⟨Nat.le_refl _, fun h => absurd (List.infix_nil.mp h) nofun⟩
  | case2 a =>
    refine ⟨Nat.le_refl _, fun h => ?_⟩
    have := h.length_le
    exact absurd this (by simp)
  | case3 a b l pair ih =>
    rw [squashPairs, if_pos pair]
    simp only [List.length_cons]
    omega
  | case4 a b l pair ih =>
    rw [squashPairs, if_neg pair]
    simp only [List.length_cons] at ih ⊢
    refine ⟨by omega, fun h => ?_⟩
    obtain h | h := List.infix_cons_iff.mp h
    · obtain ⟨first, h⟩ := List.cons_prefix_cons.mp h
      obtain ⟨second, -⟩ := List.cons_prefix_cons.mp h
      exact absurd ⟨first.symm, second.symm⟩ pair
    · have := ih.2 h
      omega

/-- Without a pair there is nothing to leave out. -/
lemma squash_of_not_hasPair {g : α} {l : List α} (h : ¬ HasPair g l) : squash g l = l := by
  induction l with
  | nil => rfl
  | cons a l ih =>
    have rest : squash g l = l := ih fun pair => h (pair.trans (List.suffix_cons a l).isInfix)
    rw [squash, rest, if_neg]
    rintro ⟨rfl, head⟩
    obtain ⟨l, rfl⟩ := List.head?_eq_some_iff.mp head
    exact h ⟨[], l, rfl⟩

/-- **The passes leave one filler of each run**, when there is fuel for the length of the list. -/
theorem squashLoop_eq (g : α) (n : ℕ) (l : List α) (fuel : l.length ≤ n) :
    squashLoop g n l = squash g l := by
  induction n generalizing l with
  | zero =>
    rw [List.length_eq_zero_iff.mp (Nat.le_zero.mp fuel)]
    rfl
  | succ n ih =>
    rw [squashLoop]
    by_cases pair : HasPair g l
    · have shorter := (length_squashPairs g l).2 pair
      rw [if_pos pair, ih _ (by omega), squash_squashPairs]
    · rw [if_neg pair, squash_of_not_hasPair pair]

/-- What is left was there, in this order. -/
lemma squash_sublist (g : α) (l : List α) : (squash g l).Sublist l := by
  induction l with
  | nil => exact List.Sublist.refl _
  | cons a l ih =>
    rw [squash]
    split_ifs with h
    · exact ih.cons a
    · exact ih.cons_cons a

/-- Under a renaming that tells the filler apart, its image is the filler. -/
lemma squash_map {f : α → β} {g : α} {l : List α} (apart : ∀ a ∈ l, f a = f g → a = g) :
    squash (f g) (l.map f) = (squash g l).map f := by
  induction l with
  | nil => rfl
  | cons a l ih =>
    have rest := ih fun b hb => apart b (List.mem_cons_of_mem a hb)
    have same : (f a = f g ∧ ((squash g l).map f).head? = some (f g)) ↔
        (a = g ∧ (squash g l).head? = some g) := by
      rw [List.head?_map, Option.map_eq_some_iff]
      constructor
      · rintro ⟨ha, b, hb, e⟩
        have mem : b ∈ l := (squash_sublist g l).subset (List.mem_of_head? hb)
        refine ⟨apart a List.mem_cons_self ha, ?_⟩
        rw [hb, apart b (List.mem_cons_of_mem a mem) e]
      · rintro ⟨rfl, head⟩
        exact ⟨rfl, a, head, rfl⟩
    rw [List.map_cons, squash, squash, rest]
    by_cases h : a = g ∧ (squash g l).head? = some g
    · rw [if_pos h, if_pos (same.mpr h)]
    · rw [if_neg h, if_neg fun h' => h (same.mp h'), List.map_cons]

end Separators
