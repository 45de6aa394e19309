import Mathlib.Data.List.Chain
import Mathlib.Data.List.Destutter
import StormDrive.Interleave.Ledger

set_option relaxedAutoImplicit false
set_option autoImplicit false

/-!
# A log that is written when something changed

The recorder of `Ledger` for one value: a list of what was written, the oldest first, to which a
value is added when it is due against the last.

## Main definitions

* `Ledger.note`, `Ledger.noteAll` — one value, and a list of them.

## Main results

* `Ledger.noteAll_near` — **the last that was written is near the last value**.
* `Ledger.isChain_noteAll` — what was written is due each against the one before.
* `Ledger.destutter_noteAll` — **no change is missed**: without repetitions what was written is what
  there was.
-/

namespace Ledger

variable {ν : Type}

/-- A value at a time, written when it is due. -/
def note (r : Rule ν) (l : List (ν × ℕ)) (x : ν × ℕ) : List (ν × ℕ) :=
  if r.due x.2 l.getLast? x.1 then l ++ [x] else l

/-- The values of a list, one behind the other. -/
def noteAll (r : Rule ν) (xs : List (ν × ℕ)) : List (ν × ℕ) := xs.foldl (note r) []

variable {r : Rule ν}

lemma noteAll_concat (xs : List (ν × ℕ)) (x : ν × ℕ) :
    noteAll r (xs ++ [x]) = note r (noteAll r xs) x := by
  simp [noteAll]

/-- What a look at a value does: it is written, being due, or near what was written last. -/
lemma note_cases (l : List (ν × ℕ)) (x : ν × ℕ) :
    (note r l x = l ++ [x] ∧ r.due x.2 l.getLast? x.1 = true) ∨
      ∃ w, note r l x = l ∧ l.getLast? = some w ∧ r.Near x.2 w x.1 := by
  unfold note
  split_ifs with due
  · exact Or.inl ⟨rfl, due⟩
  · right
    cases last : l.getLast? with
    | none => simp [last, Rule.due] at due
    | some w =>
      refine ⟨w, rfl, rfl, Rule.near_of_not_due ?_⟩
      simpa [last] using due

/-- **The last that was written is near the last value.** -/
theorem noteAll_near (xs : List (ν × ℕ)) (x : ν × ℕ) :
    ∃ w, (noteAll r (xs ++ [x])).getLast? = some w ∧ r.Near x.2 w x.1 := by
  rw [noteAll_concat]
  rcases note_cases (r := r) (noteAll r xs) x with ⟨written, -⟩ | ⟨w, same, last, near⟩
  · rw [written]
    exact ⟨x, List.getLast?_concat, r.near_self x.2 x.1⟩
  · rw [same]
    exact ⟨w, last, near⟩

/-- What was written differs from what was written before it, or that was too old. -/
theorem isChain_noteAll (xs : List (ν × ℕ)) :
    (noteAll r xs).IsChain fun a b => r.differs a.1 b.1 = true ∨ r.heartbeat ≤ b.2 - a.2 := by
  induction xs using List.reverseRecOn with
  | nil => exact List.isChain_nil
  | append_singleton xs x ih =>
    rw [noteAll_concat]
    rcases note_cases (r := r) (noteAll r xs) x with ⟨written, due⟩ | ⟨w, same, -, -⟩
    · rw [written]
      refine List.isChain_append.mpr ⟨ih, List.isChain_singleton _, ?_⟩
      intro w last y hy
      obtain rfl := Option.some.inj hy
      rw [Option.mem_def.mp last] at due
      simpa [Rule.due] using due
    · rw [same]
      exact ih

/-! ## No change is missed -/

/-- One more value of a list without repetitions. -/
lemma destutter_concat [DecidableEq ν] (l : List ν) (a : ν) :
    (l ++ [a]).destutter (· ≠ ·) =
      if l.getLast? = some a then l.destutter (· ≠ ·) else l.destutter (· ≠ ·) ++ [a] := by
  have from' : ∀ (l : List ν) (b : ν), (l ++ [a]).destutter' (· ≠ ·) b =
      if (b :: l).getLast? = some a then l.destutter' (· ≠ ·) b
      else l.destutter' (· ≠ ·) b ++ [a] := by
    intro l
    induction l with
    | nil =>
      intro b
      by_cases same : b = a <;> simp [same]
    | cons c l ih =>
      intro b
      rw [List.cons_append]
      by_cases same : b = c
      · rw [List.destutter'_cons_neg _ (not_not.mpr same),
          List.destutter'_cons_neg _ (not_not.mpr same), ih b, List.getLast?_cons_cons, same]
      · rw [List.destutter'_cons_pos _ same, List.destutter'_cons_pos _ same, ih c,
          List.getLast?_cons_cons]
        split_ifs <;> rfl
  cases l with
  | nil => simp
  | cons b l => exact from' l b

/-- **No change is missed**: without repetitions, the values that were written are the values that
there were. -/
theorem destutter_noteAll [DecidableEq ν] (exact' : ∀ u v, r.differs u v = true ↔ u ≠ v)
    (xs : List (ν × ℕ)) :
    ((noteAll r xs).map Prod.fst).destutter (· ≠ ·) = (xs.map Prod.fst).destutter (· ≠ ·) := by
  induction xs using List.reverseRecOn with
  | nil => rfl
  | append_singleton xs x ih =>
    have last : (noteAll r xs).getLast?.map Prod.fst = xs.getLast?.map Prod.fst := by
      rcases List.eq_nil_or_concat xs with rfl | ⟨ys, y, rfl⟩
      · rfl
      · rw [List.concat_eq_append]
        obtain ⟨w, last, near⟩ := noteAll_near (r := r) ys y
        rw [last, List.getLast?_concat]
        rcases near.alike with same | alike
        · exact congrArg some same
        · have same : w.1 = y.1 := by
            by_contra other
            rw [(exact' w.1 y.1).mpr other] at alike
            cases alike
          exact congrArg some same
    rw [noteAll_concat, List.map_append, List.map_singleton, destutter_concat, List.getLast?_map,
      ← last, ← ih]
    rcases note_cases (r := r) (noteAll r xs) x with ⟨written, due⟩ | ⟨w, same, known, near⟩
    · rw [written, List.map_append, List.map_singleton, destutter_concat, List.getLast?_map]
    · have value : w.1 = x.1 := by
        rcases near.alike with same | alike
        · exact same
        · by_contra other
          rw [(exact' w.1 x.1).mpr other] at alike
          cases alike
      rw [same, known, Option.map_some, if_pos (congrArg some value)]

end Ledger
