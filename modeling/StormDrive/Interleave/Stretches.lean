import Mathlib.Data.List.Induction
import StormDrive.Interleave.Runs

set_option relaxedAutoImplicit false
set_option autoImplicit false

/-!
# The stretch of a run since which a property holds

A property of states that holds at the end of a run and not at its beginning came to hold at some
event and held ever since.

## Main definitions

* `Runs.Since` — the property began with an event of the run and lasts over the rest of it.

## Main results

* `Runs.exists_since` — **a property that holds at the end began somewhere**.
* `Runs.Since.rec_on` — the induction over the stretch.
-/

namespace Runs

variable {σ ε : Type*} {step : σ → ε → σ} {P : σ → Prop} {s : σ}

/-- **The property began with an event** of the run, and lasts over the rest of it. -/
structure Since (step : σ → ε → σ) (P : σ → Prop) (s : σ) (before : List ε) (e : ε)
    (rest : List ε) : Prop where
  began : ¬ P (after step s before)
  lasts : ∀ fs, fs <+: rest → P (after step s (before ++ e :: fs))

/-- The property holds at the end of the stretch. -/
lemma Since.last {before rest : List ε} {e : ε} (h : Since step P s before e rest) :
    P (after step s (before ++ e :: rest)) :=
  h.lasts rest (List.prefix_refl rest)

/-- **A property that holds at the end of a run, and not at its beginning, began somewhere.** -/
theorem exists_since (first : ¬ P s) (es : List ε) (last : P (after step s es)) :
    ∃ before e rest, es = before ++ e :: rest ∧ Since step P s before e rest := by
  induction es using List.reverseRecOn with
  | nil => exact absurd last first
  | append_singleton es f ih =>
    by_cases held : P (after step s es)
    · -- it held before the last event: the stretch is one longer
      obtain ⟨before, e, rest, rfl, since⟩ := ih held
      refine ⟨before, e, rest ++ [f], by simp, since.began, ?_⟩
      intro fs pre
      rcases List.prefix_concat_iff.mp pre with rfl | pre
      · simpa using last
      · exact since.lasts fs pre
    · refine ⟨es, f, [], rfl, held, ?_⟩
      intro fs pre
      rw [List.prefix_nil.mp pre]
      exact last

/-- **The induction over a stretch**: what holds when it began, and is kept by each event over which
the property lasts, holds at the end. -/
theorem Since.rec_on {before rest : List ε} {e : ε} (h : Since step P s before e rest)
    {Q : List ε → Prop} (first : Q [])
    (next : ∀ fs f, fs ++ [f] <+: rest → P (after step s (before ++ e :: fs)) →
      P (after step s (before ++ e :: (fs ++ [f]))) → Q fs → Q (fs ++ [f])) : Q rest := by
  have upTo : ∀ fs, fs <+: rest → Q fs := by
    intro fs
    induction fs using List.reverseRecOn with
    | nil => exact fun _ => first
    | append_singleton fs f ih =>
      intro pre
      have shorter : fs <+: rest := (List.prefix_append fs [f]).trans pre
      exact next fs f pre (h.lasts fs shorter) (h.lasts _ pre) (ih shorter)
  exact upTo rest (List.prefix_refl rest)

end Runs
