import Mathlib.Data.List.Basic

set_option relaxedAutoImplicit false
set_option autoImplicit false

/-!
# Runs of a step function

A system whose next state is a function of its state and of what happens, and the runs it makes
over a list of such events. What the environment decides is part of the event.

## Main definitions

* `Runs.after` — the state after a list of events.
* `Runs.Throughout` — a property of every state of a run.
* `Runs.Each` — a condition on every step of a run.

## Main results

* `Runs.throughout_of_each` — **the invariant rule**: what holds at first and is kept by every
  step that meets the condition holds throughout a run whose steps all meet it.
* `Runs.each_of_each` — the same for a property of the steps.
* `Runs.throughout_iff_each` — **the exactness rule**: if moreover a step that does not meet the
  condition ends in a state without the property, then the property holds throughout exactly the
  runs whose steps all meet the condition.
-/

namespace Runs

variable {σ ε : Type*} (step : σ → ε → σ)

/-- The state after a list of events. -/
def after (s : σ) (es : List ε) : σ := es.foldl step s

/-- The property holds in every state of the run, the first and the last included. -/
def Throughout (P : σ → Prop) : σ → List ε → Prop
  | s, [] => P s
  | s, e :: es => P s ∧ Throughout P (step s e) es

/-- Every step of the run meets the condition. -/
def Each (ok : σ → ε → Prop) : σ → List ε → Prop
  | _, [] => True
  | s, e :: es => ok s e ∧ Each ok (step s e) es

variable {step}

@[simp] lemma after_nil (s : σ) : after step s ([] : List ε) = s := rfl

@[simp] lemma after_cons (s : σ) (e : ε) (es : List ε) :
    after step s (e :: es) = after step (step s e) es := rfl

lemma after_append (s : σ) (es fs : List ε) :
    after step s (es ++ fs) = after step (after step s es) fs :=
  List.foldl_append

/-- What every step keeps holds after a run. -/
lemma keeps {P : σ → Prop} (keep : ∀ s e, P s → P (step s e)) {s : σ} (h : P s) (es : List ε) :
    P (after step s es) := by
  induction es generalizing s with
  | nil => exact h
  | cons e es ih => exact ih (keep s e h)

/-- What every event of a kind keeps holds after a run of such events. -/
lemma keeps_of_forall {P : σ → Prop} {ok : ε → Prop} (keep : ∀ s e, P s → ok e → P (step s e))
    {s : σ} (h : P s) {es : List ε} (all : ∀ e ∈ es, ok e) : P (after step s es) := by
  induction es generalizing s with
  | nil => exact h
  | cons e es ih =>
    exact ih (keep s e h (all e (List.mem_cons_self ..))) fun x mem =>
      all x (List.mem_cons_of_mem e mem)

@[simp] lemma throughout_nil {P : σ → Prop} {s : σ} :
    Throughout step P s ([] : List ε) ↔ P s := Iff.rfl

@[simp] lemma throughout_cons {P : σ → Prop} {s : σ} {e : ε} {es : List ε} :
    Throughout step P s (e :: es) ↔ P s ∧ Throughout step P (step s e) es := Iff.rfl

@[simp] lemma each_nil {ok : σ → ε → Prop} {s : σ} :
    Each step ok s ([] : List ε) ↔ True := Iff.rfl

@[simp] lemma each_cons {ok : σ → ε → Prop} {s : σ} {e : ε} {es : List ε} :
    Each step ok s (e :: es) ↔ ok s e ∧ Each step ok (step s e) es := Iff.rfl

instance decidableThroughout {P : σ → Prop} [DecidablePred P] :
    ∀ (s : σ) (es : List ε), Decidable (Throughout step P s es)
  | s, [] => inferInstanceAs (Decidable (P s))
  | s, e :: es =>
    have : Decidable (Throughout step P (step s e) es) := decidableThroughout (step s e) es
    inferInstanceAs (Decidable (P s ∧ Throughout step P (step s e) es))

instance decidableEach {ok : σ → ε → Prop} [∀ s e, Decidable (ok s e)] :
    ∀ (s : σ) (es : List ε), Decidable (Each step ok s es)
  | _, [] => inferInstanceAs (Decidable True)
  | s, e :: es =>
    have : Decidable (Each step ok (step s e) es) := decidableEach (step s e) es
    inferInstanceAs (Decidable (ok s e ∧ Each step ok (step s e) es))

lemma Throughout.first {P : σ → Prop} {s : σ} {es : List ε} (h : Throughout step P s es) :
    P s := by
  cases es with
  | nil => exact h
  | cons e es => exact h.1

lemma Throughout.mono {P Q : σ → Prop} (hPQ : ∀ s, P s → Q s) {s : σ} {es : List ε}
    (h : Throughout step P s es) : Throughout step Q s es := by
  induction es generalizing s with
  | nil => exact hPQ s h
  | cons e es ih => exact ⟨hPQ s h.1, ih h.2⟩

/-- What holds throughout a run holds in the state after it. -/
lemma Throughout.last {P : σ → Prop} {s : σ} {es : List ε} (h : Throughout step P s es) :
    P (after step s es) := by
  induction es generalizing s with
  | nil => exact h
  | cons e es ih => exact ih h.2

lemma Each.mono {ok ok' : σ → ε → Prop} (hok : ∀ s e, ok s e → ok' s e) {s : σ} {es : List ε}
    (h : Each step ok s es) : Each step ok' s es := by
  induction es generalizing s with
  | nil => trivial
  | cons e es ih => exact ⟨hok s e h.1, ih h.2⟩

/-- What is true of every step is true of the steps of a run. -/
lemma each_of_forall {ok : σ → ε → Prop} (h : ∀ s e, ok s e) (s : σ) (es : List ε) :
    Each step ok s es := by
  induction es generalizing s with
  | nil => trivial
  | cons e es ih => exact ⟨h s e, ih _⟩

lemma Each.and {ok ok' : σ → ε → Prop} {s : σ} {es : List ε} (h : Each step ok s es)
    (h' : Each step ok' s es) : Each step (fun s e => ok s e ∧ ok' s e) s es := by
  induction es generalizing s with
  | nil => trivial
  | cons e es ih => exact ⟨⟨h.1, h'.1⟩, ih h.2 h'.2⟩

/-- **The invariant rule.** What holds at first and is kept by every step that meets the condition
holds throughout a run whose steps all meet it. -/
theorem throughout_of_each {ok : σ → ε → Prop} {Inv : σ → Prop}
    (kept : ∀ s e, Inv s → ok s e → Inv (step s e)) {s : σ} {es : List ε} (hs : Inv s)
    (h : Each step ok s es) : Throughout step Inv s es := by
  induction es generalizing s with
  | nil => exact hs
  | cons e es ih => exact ⟨hs, ih (kept s e hs h.1) h.2⟩

/-- **The invariant rule, for steps.** Where the invariant gives a property of every step that meets
the condition, every step of a run whose steps all meet the condition has the property. -/
theorem each_of_each {ok P : σ → ε → Prop} {Inv : σ → Prop}
    (kept : ∀ s e, Inv s → ok s e → Inv (step s e)) (gives : ∀ s e, Inv s → ok s e → P s e)
    {s : σ} {es : List ε} (hs : Inv s) (h : Each step ok s es) : Each step P s es := by
  induction es generalizing s with
  | nil => trivial
  | cons e es ih => exact ⟨gives s e hs h.1, ih (kept s e hs h.1) h.2⟩

/-- **The exactness rule.** An invariant that every step meeting the condition keeps, that gives
the property, and from which every other step loses the property.

**Proof sketch.** One direction is the invariant rule. For the other, follow the run: as long as
the steps meet the condition the invariant is there, and the first step that does not would leave
a state without the property. -/
theorem throughout_iff_each {ok : σ → ε → Prop} {Inv P : σ → Prop}
    (kept : ∀ s e, Inv s → ok s e → Inv (step s e)) (gives : ∀ s, Inv s → P s)
    (lost : ∀ s e, Inv s → ¬ ok s e → ¬ P (step s e)) {s : σ} {es : List ε} (hs : Inv s) :
    Throughout step P s es ↔ Each step ok s es := by
  constructor
  · intro h
    induction es generalizing s with
    | nil => trivial
    | cons e es ih =>
      have hok : ok s e := by
        by_contra hno
        exact lost s e hs hno h.2.first
      exact ⟨hok, ih (kept s e hs hok) h.2⟩
  · intro h
    exact (throughout_of_each kept hs h).mono gives

/-- **The exactness rule, for steps.** Where in a state with the invariant a step has the property
exactly when it meets the condition, the runs whose steps all have the property are those whose
steps all meet the condition. -/
theorem each_iff_each {ok P : σ → ε → Prop} {Inv : σ → Prop}
    (kept : ∀ s e, Inv s → ok s e → Inv (step s e)) (gives : ∀ s e, Inv s → (P s e ↔ ok s e))
    {s : σ} {es : List ε} (hs : Inv s) : Each step P s es ↔ Each step ok s es := by
  induction es generalizing s with
  | nil => exact Iff.rfl
  | cons e es ih =>
    rw [each_cons, each_cons, gives s e hs]
    exact and_congr_right fun h => ih (kept s e hs h)

end Runs
