import StormDrive.Interleave.Debounce
import StormDrive.Poller

set_option relaxedAutoImplicit false
set_option autoImplicit false

/-!
# Hysteresis

How a drive's verdict follows the verdicts on its samples: a worse one has to repeat before it
sticks (`monitor.rs`).

## Main definitions

* `Poller.Damper.along` — the verdict after a history of samples.
* `Poller.Damper.Steady` — when so many verdicts in a row are worse than the drive's, they are all
  the same.

## Main results

* `Poller.Damper.hysteresis_kept` — **exactly a steady history is never overtaken by a better one**, so
  many verdicts at or above a level leave a steady history there, and fewer never change it.
* `Poller.Damper.mixed_never_sticks` — warnings and failures in turn leave the drive good.

## Implementation notes

Histories have their newest verdict first.
-/

namespace StormDrive

/-- The verdicts in the order the source derives. -/
instance : LinearOrder HealthStatus where
  le a b := a.severity ≤ b.severity
  le_refl a := Nat.le_refl a.severity
  le_trans _ _ _ := Nat.le_trans
  le_antisymm a b h h' := by
    have same : a.severity = b.severity := Nat.le_antisymm h h'
    cases a <;> cases b <;> first | rfl | exact absurd same (by decide)
  le_total a b := Nat.le_total a.severity b.severity
  toDecidableLE a b := inferInstanceAs (Decidable (a.severity ≤ b.severity))
  toDecidableEq := inferInstance

namespace Poller

namespace Damper

variable (hysteresis : ℕ) (id : DriveId)

/-- **The verdict after a history**, and what is not believed yet. -/
def along (start : HealthStatus) : List HealthStatus → Damper × HealthStatus
  | [] => (fun _ => none, start)
  | c :: past => (along start past).1.apply hysteresis id (along start past).2 c

/-- Whenever so many verdicts in a row are worse than the drive's, they are all the same. -/
def Steady (start : HealthStatus) (cs : List HealthStatus) : Prop :=
  ∀ c past, c :: past <:+ cs → hysteresis ≤ (c :: past).length →
    (∀ d ∈ (c :: past).take hysteresis, (along hysteresis id start past).2 < d) →
      ∀ d ∈ (c :: past).take hysteresis, d = c

/-! ## A damper debounces -/

/-- A verdict is applied as a proposal is. -/
lemma apply_eq_step (p : Damper) (current c : HealthStatus) :
    (⟨(p.apply hysteresis id current c).2, (p.apply hysteresis id current c).1 id⟩ :
      Debounce.State HealthStatus) = Debounce.step hysteresis ⟨current, p id⟩ c := by
  unfold apply Debounce.step
  by_cases low : c ≤ current
  · have better : c.severity ≤ current.severity := low
    rw [if_pos better, if_pos low]
    simp
  · have worse : ¬ c.severity ≤ current.severity := low
    rw [if_neg worse, if_neg low]
    by_cases often : hysteresis ≤ Debounce.State.met ⟨current, p id⟩ c + 1
    · have met : hysteresis ≤ ((p id).elim 0 fun e => if e.1 = c then e.2 else 0) + 1 := often
      rw [if_pos often]
      simp only [if_pos met, Function.update_self]
    · have few : ¬ hysteresis ≤ ((p id).elim 0 fun e => if e.1 = c then e.2 else 0) + 1 := often
      rw [if_neg often]
      simp only [if_neg few, Function.update_self]
      rfl

lemma along_eq_run (start : HealthStatus) (cs : List HealthStatus) :
    (⟨(along hysteresis id start cs).2, (along hysteresis id start cs).1 id⟩ :
      Debounce.State HealthStatus) = Debounce.run hysteresis start cs := by
  induction cs with
  | nil => rfl
  | cons c past ih => rw [along, apply_eq_step, ih, Debounce.run]

/-- The verdict is what the history says. -/
lemma along_eq_settled (start : HealthStatus) (cs : List HealthStatus) :
    (along hysteresis id start cs).2 = Debounce.settled hysteresis start cs := by
  have same := along_eq_run hysteresis id start cs
  rw [Debounce.run_eq_settled] at same
  exact congrArg Debounce.State.value same

lemma steady_iff (start : HealthStatus) (cs : List HealthStatus) :
    Steady hysteresis id start cs ↔ Debounce.Steady hysteresis start cs := by
  induction cs with
  | nil =>
    refine ⟨fun _ => trivial, ?_⟩
    intro _ c past suffix_
    exact absurd (List.suffix_nil.mp suffix_) nofun
  | cons c past ih =>
    rw [Debounce.Steady, ← ih]
    constructor
    · intro steady
      refine ⟨?_, fun d before behind => steady d before (behind.trans (List.suffix_cons c past))⟩
      rw [← along_eq_settled hysteresis id]
      exact steady c past (List.suffix_refl _)
    · rintro ⟨now, steady⟩ d before behind
      obtain same | behind := List.suffix_cons_iff.mp behind
      · obtain ⟨rfl, rfl⟩ := List.cons.inj same
        rw [along_eq_settled]
        exact now
      · exact steady d before behind

/-! ## What the hysteresis promises -/

/-- **What the hysteresis promises.** Exactly a steady history is never overtaken by one that is
better everywhere; so many verdicts in a row at or above a level leave a steady history there; and a
worse verdict changes nothing unless so many in a row are worse. -/
structure Hysteresis (start : HealthStatus) (cs : List HealthStatus) : Prop where
  monotone : (∀ bs, List.Forall₂ (· ≤ ·) bs cs → ∀ k,
    (along hysteresis id start (bs.drop k)).2 ≤ (along hysteresis id start (cs.drop k)).2) ↔
      Steady hysteresis id start cs
  level : Steady hysteresis id start cs → ∀ level, 0 < hysteresis → hysteresis ≤ cs.length →
    (∀ c ∈ cs.take hysteresis, level ≤ c) → level ≤ (along hysteresis id start cs).2
  few : ∀ c past, cs = c :: past → (along hysteresis id start past).2 < c →
    (hysteresis ≤ cs.length →
      ∃ d ∈ cs.take hysteresis, d ≤ (along hysteresis id start past).2) →
    (along hysteresis id start cs).2 = (along hysteresis id start past).2

/-- **Exactly a steady history is never overtaken by a better one**, so many verdicts at or above a
level leave a steady history there, and fewer never change it.

**Proof sketch.** A damper debounces (`along_eq_settled`), so this is what holds of debounced
values. -/
theorem hysteresis_kept (start : HealthStatus) (cs : List HealthStatus) :
    Hysteresis hysteresis id start cs := by
  refine ⟨?_, ?_, ?_⟩
  · simp only [along_eq_settled, steady_iff]
    exact Debounce.monotone_iff_steady hysteresis start cs
  · intro steady level pos long high
    rw [steady_iff] at steady
    rw [along_eq_settled]
    cases cs with
    | nil => exact absurd long (Nat.not_le_of_gt pos)
    | cons c past => exact Debounce.le_settled steady pos long high
  · rintro c past rfl worse few
    rw [along_eq_settled, along_eq_settled] at *
    obtain now | ⟨stays, -⟩ := Debounce.settled_cons hysteresis start c past
    · have rises : Debounce.settled hysteresis start past <
          Debounce.settled hysteresis start (c :: past) := by
        rwa [now]
      obtain ⟨long, all⟩ := Debounce.of_rises rises
      obtain ⟨d, mem, low⟩ := few long
      exact absurd low (not_le_of_gt (all d mem).2)
    · exact stays

/-- **Warnings and failures in turn never stick**: warnings alone do, although they are better. -/
theorem mixed_never_sticks : ¬ ∀ (hysteresis : ℕ) (id : DriveId) (start : HealthStatus)
    (bs cs : List HealthStatus), 0 < hysteresis → List.Forall₂ (· ≤ ·) bs cs →
      (along hysteresis id start bs).2 ≤ (along hysteresis id start cs).2 := by
  intro claimed
  have overtaken := claimed 3 ⟨⟨0⟩⟩ .good [.warning, .warning, .warning]
    [.warning, .failing, .warning] (by decide) (by decide)
  exact absurd overtaken (by decide)

end Damper

end Poller

end StormDrive
