import Mathlib.Data.List.Forall2
import Mathlib.Order.MinMax

set_option relaxedAutoImplicit false
set_option autoImplicit false

/-!
# Debounced values

A value that follows what is proposed for it: down at once, up only when the same proposal was made
a number of times in a row.

## Main definitions

* `Debounce.step` — one proposal, with the count of the last ones.
* `Debounce.settled` — the value after a history of proposals, without a count.
* `Debounce.Steady` — when so many proposals in a row are above the value, they are all the same.
* `Debounce.lift` — a value that a floor, if there is one, raises.

## Main results

* `Debounce.run_eq_settled` — **the count keeps what the history says**.
* `Debounce.monotone_iff_steady` — **no lower history ever gives a higher value exactly when the
  history is steady**.
* `Debounce.le_settled` — so many proposals at or above a level leave the value there.
* `Debounce.of_rises` — a value rises only after so many proposals above it.
* `Debounce.step_lift` — **a value that is fed back raised by a floor follows the one that is not**,
  but for the moment after the floor came down.

## Implementation notes

Histories are lists with the newest proposal first.
-/

namespace Debounce

variable {α : Type*} [LinearOrder α]

/-- The value, and the proposal that is counted, with its count. -/
structure State (α : Type*) where
  value : α
  pending : Option (α × ℕ)

/-- How often the proposal was made in a row, as far as is counted. -/
def State.met (s : State α) (c : α) : ℕ := s.pending.elim 0 fun e => if e.1 = c then e.2 else 0

/-- One proposal. -/
def step (h : ℕ) (s : State α) (c : α) : State α :=
  if c ≤ s.value then ⟨c, none⟩
  else if h ≤ s.met c + 1 then ⟨c, none⟩
  else ⟨s.value, some (c, s.met c + 1)⟩

/-- The state after a history. -/
def run (h : ℕ) (v : α) : List α → State α
  | [] => ⟨v, none⟩
  | c :: past => step h (run h v past) c

/-- **The value after a history**: the newest proposal if it is not above the value or was made so
many times in a row, otherwise the value as it was. -/
def settled (h : ℕ) (v : α) : List α → α
  | [] => v
  | c :: past =>
    if c ≤ settled h v past ∨ List.replicate h c <+: c :: past then c else settled h v past

/-! ## The count -/

/-- How many of the newest proposals are this one. -/
def streak (c : α) (l : List α) : ℕ := (l.takeWhile (· = c)).length

lemma streak_cons_self (c : α) (l : List α) : streak c (c :: l) = streak c l + 1 := by
  simp [streak]

lemma streak_cons_of_ne {c d : α} (ne : d ≠ c) (l : List α) : streak c (d :: l) = 0 := by
  simp [streak, ne]

/-- A streak is what is repeated at the front. -/
lemma replicate_prefix_iff {h : ℕ} {c : α} {l : List α} :
    List.replicate h c <+: l ↔ h ≤ streak c l := by
  induction h generalizing l with
  | zero => simp
  | succ h ih =>
    cases l with
    | nil => simp [streak]
    | cons d l =>
      rw [List.replicate_succ, List.cons_prefix_cons]
      by_cases same : d = c
      · obtain rfl := same
        rw [streak_cons_self, ih]
        simp
      · rw [streak_cons_of_ne same]
        simp [Ne.symm same]

/-- What is counted after a history: the newest proposal, when the value is below it. -/
def counted (h : ℕ) (v : α) (l : List α) : Option (α × ℕ) :=
  l.head?.bind fun c => if settled h v l < c then some (c, streak c l) else none

/-- **The count keeps what the history says**.

**Proof sketch.** By induction on the history: the count before a proposal above the value is its
streak, since a proposal that was above a smaller value has not been accepted. -/
theorem run_eq_settled (h : ℕ) (v : α) (l : List α) :
    run h v l = ⟨settled h v l, counted h v l⟩ := by
  induction l with
  | nil => rfl
  | cons c past ih =>
    rw [run, ih, step]
    by_cases low : c ≤ settled h v past
    · have now : settled h v (c :: past) = c := if_pos (.inl low)
      simp [low, now, counted]
    · have met : State.met ⟨settled h v past, counted h v past⟩ c = streak c past := by
        cases past with
        | nil => rfl
        | cons d past =>
          simp only [State.met, counted, List.head?_cons, Option.bind_some]
          by_cases same : d = c
          · obtain rfl := same
            simp [lt_of_not_ge low]
          · rw [streak_cons_of_ne same]
            split_ifs <;> simp [same]
      rw [if_neg low, met]
      by_cases often : h ≤ streak c past + 1
      · have now : settled h v (c :: past) = c :=
          if_pos (.inr (replicate_prefix_iff.mpr (by rwa [streak_cons_self])))
        simp [often, now, counted]
      · have now : settled h v (c :: past) = settled h v past := by
          apply if_neg
          rw [not_or, replicate_prefix_iff, streak_cons_self]
          exact ⟨low, often⟩
        simp [often, now, counted, streak_cons_self, lt_of_not_ge low]

/-! ## Rising -/

section Rising

variable {h : ℕ} {v : α} {c : α} {past l m : List α}

/-- The value is the newest proposal or stays. -/
lemma settled_cons (h : ℕ) (v c : α) (past : List α) :
    settled h v (c :: past) = c ∨
      settled h v (c :: past) = settled h v past ∧ settled h v past < c := by
  rw [settled]
  split_ifs with accepted
  · exact .inl rfl
  · exact .inr ⟨rfl, lt_of_not_ge fun low => accepted (.inl low)⟩

/-- **A value rises only after so many proposals above it**, all the same. -/
theorem of_rises (rises : settled h v past < settled h v (c :: past)) :
    h ≤ (c :: past).length ∧ ∀ d ∈ (c :: past).take h, d = c ∧ settled h v past < d := by
  rw [settled] at rises
  split_ifs at rises with accepted
  · have repeated : List.replicate h c <+: c :: past := by
      obtain low | repeated := accepted
      · exact absurd low (not_le_of_gt rises)
      · exact repeated
    refine ⟨by simpa using repeated.length_le, ?_⟩
    intro d mem
    have front : (c :: past).take h = List.replicate h c := by
      have same := List.prefix_iff_eq_take.mp repeated
      rw [List.length_replicate] at same
      exact same.symm
    rw [front] at mem
    obtain rfl := List.eq_of_mem_replicate mem
    exact ⟨rfl, rises⟩
  · exact absurd rises (lt_irrefl _)

/-- So many of the same proposal make it the value. -/
lemma settled_of_replicate (repeated : List.replicate h c <+: c :: past) :
    settled h v (c :: past) = c :=
  if_pos (.inr repeated)

/-! ## Steady histories -/

/-- Whenever so many proposals in a row are above the value, they are all the same. -/
def Steady (h : ℕ) (v : α) : List α → Prop
  | [] => True
  | c :: past =>
    (h ≤ (c :: past).length → (∀ d ∈ (c :: past).take h, settled h v past < d) →
      ∀ d ∈ (c :: past).take h, d = c) ∧ Steady h v past

/-- **So many proposals at or above a level leave the value there**, in a steady history. -/
theorem le_settled {level : α} (steady : Steady h v (c :: past)) (pos : 0 < h)
    (long : h ≤ (c :: past).length) (high : ∀ d ∈ (c :: past).take h, level ≤ d) :
    level ≤ settled h v (c :: past) := by
  have newest : c ∈ (c :: past).take h := by
    obtain ⟨k, rfl⟩ := Nat.exists_eq_succ_of_ne_zero (Nat.ne_of_gt pos)
    exact List.mem_cons_self
  obtain now | ⟨stays, -⟩ := settled_cons h v c past
  · rw [now]
    exact high c newest
  · by_contra under
    rw [stays, not_le] at under
    have same := steady.1 long fun d mem => lt_of_lt_of_le under (high d mem)
    have repeated : List.replicate h c <+: c :: past := by
      rw [List.prefix_iff_eq_take, List.length_replicate]
      exact (List.eq_replicate_iff.mpr ⟨List.length_take_of_le long, same⟩).symm
    have now := settled_of_replicate (v := v) repeated
    rw [stays] at now
    exact absurd (high c newest) (not_le_of_gt (now ▸ under))

/-- What is repeated in the lower list bounds the higher one. -/
lemma take_of_replicate {k : ℕ} (lower : List.Forall₂ (· ≤ ·) l m)
    (repeated : List.replicate k c <+: l) : k ≤ m.length ∧ ∀ d ∈ m.take k, c ≤ d := by
  induction k generalizing l m with
  | zero => simp
  | succ k ih =>
    rw [List.replicate_succ] at repeated
    cases lower with
    | nil => exact absurd repeated.length_le (by simp)
    | @cons b d l m le lower =>
      obtain ⟨rfl, rest⟩ := List.cons_prefix_cons.mp repeated
      obtain ⟨long, high⟩ := ih lower rest
      refine ⟨Nat.succ_le_succ long, ?_⟩
      rintro x (_ | ⟨_, behind⟩)
      · exact le
      · exact high x behind

/-- A bound of the first members, repeated, is below a list. -/
lemma replicate_append_le {k : ℕ} {b : α} (long : k ≤ m.length) (bound : ∀ d ∈ m.take k, b ≤ d) :
    List.Forall₂ (· ≤ ·) (List.replicate k b ++ m.drop k) m := by
  induction k generalizing m with
  | zero => exact List.forall₂_refl m
  | succ k ih =>
    cases m with
    | nil => exact absurd long (Nat.not_succ_le_zero k)
    | cons d m =>
      refine .cons (bound d List.mem_cons_self) (ih (Nat.le_of_succ_le_succ long) ?_)
      intro x mem
      exact bound x (List.mem_cons_of_mem d mem)

/-- A history that is lower everywhere gives no higher value than a steady one. -/
lemma settled_le_of_steady (lower : List.Forall₂ (· ≤ ·) l m) :
    Steady h v m → settled h v l ≤ settled h v m := by
  induction lower with
  | nil =>
    intro _
    exact le_refl _
  | @cons c d l m le lower ih =>
    intro steady
    obtain now | ⟨stays, -⟩ := settled_cons h v d m
    · rw [now]
      obtain low | ⟨low, below⟩ := settled_cons h v c l
      · rwa [low]
      · rw [low]
        exact le_of_lt (lt_of_lt_of_le below le)
    · rw [stays, settled]
      split_ifs with accepted
      · obtain low | repeated := accepted
        · exact le_trans low (ih steady.2)
        · obtain rfl | pos := Nat.eq_zero_or_pos h
          · rw [← stays, settled, if_pos (.inr List.nil_prefix)]
            exact le
          · rw [← stays]
            obtain ⟨long, high⟩ := take_of_replicate (.cons le lower) repeated
            exact le_settled steady pos long high
      · exact ih steady.2

/-- A list that is not empty has a least member. -/
lemma exists_least (c : α) (l : List α) : ∃ b ∈ c :: l, ∀ d ∈ c :: l, b ≤ d := by
  induction l generalizing c with
  | nil => exact ⟨c, List.mem_cons_self, by simp⟩
  | cons d l ih =>
    obtain ⟨b, mem, least⟩ := ih d
    obtain le | le := le_total b c
    · refine ⟨b, List.mem_cons_of_mem c mem, ?_⟩
      rintro x (_ | ⟨_, behind⟩)
      · exact le
      · exact least x behind
    · refine ⟨c, List.mem_cons_self, ?_⟩
      rintro x (_ | ⟨_, behind⟩)
      · exact le_refl c
      · exact le_trans le (least x behind)

/-- **No lower history ever gives a higher value exactly when the history is steady**.

**Proof sketch.** Where a steady history's value stays under a proposal that the lower one accepted,
the last proposals are all at or above it (`le_settled`). Where a history is not steady, the lower
history that repeats the least of the last proposals ends above it. -/
theorem monotone_iff_steady (h : ℕ) (v : α) (m : List α) :
    (∀ l, List.Forall₂ (· ≤ ·) l m → ∀ k, settled h v (l.drop k) ≤ settled h v (m.drop k)) ↔
      Steady h v m := by
  induction m with
  | nil =>
    refine ⟨fun _ => trivial, ?_⟩
    intro _ l lower k
    rw [List.forall₂_nil_right_iff.mp lower]
  | cons c past ih =>
    constructor
    · intro below
      refine ⟨?_, ih.mp fun l lower k => below (c :: l) (.cons (le_refl c) lower) (k + 1)⟩
      intro long high
      by_contra mixed
      simp only [not_forall] at mixed
      obtain ⟨d, mem, ne⟩ := mixed
      have pos : 0 < h := by
        obtain rfl | pos := Nat.eq_zero_or_pos h
        · exact absurd mem List.not_mem_nil
        · exact pos
      obtain ⟨k, rfl⟩ := Nat.exists_eq_succ_of_ne_zero (Nat.ne_of_gt pos)
      rw [List.take_succ_cons] at high mem
      obtain ⟨b, least, isLeast⟩ := exists_least c (past.take k)
      have lower : List.Forall₂ (· ≤ ·) (b :: (List.replicate k b ++ past.drop k))
          (c :: past) := by
        refine .cons (isLeast c List.mem_cons_self)
          (replicate_append_le (Nat.le_of_succ_le_succ long) ?_)
        intro x mem
        exact isLeast x (List.mem_cons_of_mem c mem)
      have now : settled (k + 1) v (b :: (List.replicate k b ++ past.drop k)) = b := by
        apply settled_of_replicate
        rw [List.replicate_succ, List.cons_prefix_cons]
        exact ⟨rfl, List.prefix_append _ _⟩
      have low := below _ lower 0
      rw [List.drop_zero, List.drop_zero, now, settled] at low
      split_ifs at low with accepted
      · obtain under | repeated := accepted
        · exact absurd under (not_le_of_gt (high c List.mem_cons_self))
        · have front := List.prefix_iff_eq_take.mp repeated
          rw [List.length_replicate, List.take_succ_cons] at front
          rw [← front] at mem
          exact ne (List.eq_of_mem_replicate mem)
      · exact absurd low (not_le_of_gt (high b least))
    · intro steady l lower k
      cases lower with
      | cons le lower =>
        cases k with
        | zero => exact settled_le_of_steady (.cons le lower) steady
        | succ k => exact ih.mpr steady.2 _ lower k

end Rising

/-! ## Raised values -/

/-- A value, raised to the floor if there is one. -/
def lift (floor : Option α) (v : α) : α := floor.elim v (max v)

lemma le_lift (floor : Option α) (v : α) : v ≤ lift floor v := by
  cases floor with
  | none => exact le_refl v
  | some x => exact le_max_left v x

lemma floor_le_lift {floor : Option α} {x : α} (mem : x ∈ floor) (v : α) : x ≤ lift floor v := by
  obtain rfl := mem
  exact le_max_right v x

/-- Under the floor, the value does not matter. -/
lemma lift_of_le {floor : Option α} {x v : α} (mem : x ∈ floor) (low : v ≤ x) :
    lift floor v = x := by
  obtain rfl := mem
  exact max_eq_right low

lemma lift_lift (floor : Option α) (v : α) : lift floor (lift floor v) = lift floor v := by
  cases floor with
  | none => rfl
  | some x => exact max_eq_left (le_max_right v x)

/-- A proposal that is made has a count only while it is pending. -/
lemma met_none (v c : α) : State.met ⟨v, none⟩ c = 0 := rfl

lemma met_some (v c d : α) (n : ℕ) : State.met ⟨v, some (d, n)⟩ c = if d = c then n else 0 := rfl

/-- **A value that is fed back raised follows the one that is not**: where the raised value is at
least the other and counts alike above itself, both are the same under the floor after a proposal,
unless the value was raised above the floor and the other, and the proposal is above the floor and
does not stick with the other.

**Proof sketch.** A proposal that is at most the other value or sticks with it is taken by both. One
that is not is taken at once by the raised value if it is at most that, and this is under the floor;
otherwise it is counted by both. -/
theorem step_lift {h : ℕ} {s o : State α} {floor : Option α} {c : α} (le : o.value ≤ s.value)
    (bound : ∀ x ∈ floor, x ≤ s.value) (agree : ∀ k, s.value < k → s.met k = o.met k)
    (calm : c ≤ o.value ∨ (step h o c).value = c ∨ (∃ x ∈ floor, c ≤ x) ∨
      s.value = lift floor o.value) :
    lift floor (step h s c).value = lift floor (step h o c).value ∧
      ∀ k, lift floor (step h o c).value < k → (step h s c).met k = (step h o c).met k := by
  by_cases low : c ≤ o.value
  · have both : step h s c = step h o c := by
      rw [step, step, if_pos low, if_pos (le_trans low le)]
    rw [both]
    exact ⟨rfl, fun _ _ => rfl⟩
  by_cases often : h ≤ o.met c + 1
  · have own : step h o c = ⟨c, none⟩ := by rw [step, if_neg low, if_pos often]
    have both : step h s c = ⟨c, none⟩ := by
      rw [step]
      split_ifs with under counted
      · rfl
      · rfl
      · exact absurd (agree c (lt_of_not_ge under) ▸ often) counted
    rw [own, both]
    exact ⟨rfl, fun _ _ => rfl⟩
  have own : step h o c = ⟨o.value, some (c, o.met c + 1)⟩ := by
    rw [step, if_neg low, if_neg often]
  rw [own] at calm ⊢
  have above : o.value < c := lt_of_not_ge low
  replace calm : (∃ x ∈ floor, c ≤ x) ∨ s.value = lift floor o.value := by
    obtain now | now | now := calm
    · exact absurd now low
    · exact absurd now (ne_of_lt above)
    · exact now
  by_cases under : c ≤ s.value
  · -- the raised value takes it at once, which the floor hides
    have taken : step h s c = ⟨c, none⟩ := by rw [step, if_pos under]
    obtain ⟨x, mem, floored⟩ : ∃ x ∈ floor, c ≤ x := by
      obtain hidden | raised := calm
      · exact hidden
      · cases floor with
        | none =>
          have same : s.value = o.value := raised
          exact absurd (same ▸ under) low
        | some x =>
          refine ⟨x, rfl, ?_⟩
          rw [raised] at under
          exact (le_max_iff.mp under).resolve_left low
    have hidden := lift_of_le mem (le_trans (le_of_lt above) floored)
    rw [taken, hidden, lift_of_le mem floored]
    refine ⟨rfl, ?_⟩
    intro k high
    rw [met_none, met_some, if_neg (ne_of_lt (lt_of_le_of_lt floored high))]
  · have counts : step h s c = ⟨s.value, some (c, o.met c + 1)⟩ := by
      rw [step, if_neg under, agree c (lt_of_not_ge under), if_neg often]
    rw [counts]
    refine ⟨?_, fun _ _ => rfl⟩
    obtain ⟨x, mem, floored⟩ | raised := calm
    · exact absurd (le_trans floored (bound x mem)) under
    · simp only [raised, lift_lift]

end Debounce
