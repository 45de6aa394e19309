import StormDrive.Interleave.Prog

set_option relaxedAutoImplicit false
set_option autoImplicit false

/-!
# A program in a world that is decided

A program that runs to its end in a world where every operation has one outcome, or none.

## Main definitions

* `Prog.run` — what a program returns from a state, and the state after it.

## Main results

* `Prog.run_bind` — the run of a sequence.
* `Prog.run_keeps` — what each operation keeps, a run keeps.
* `Prog.run_comm` — **what each operation commutes with, a program commutes with**.
-/

namespace Interleave

namespace Prog

variable {Op : Type} {Ans : Op → Type} {State : Type} {α β γ : Type}

/-- Sequences are associative. -/
lemma bind_assoc (p : Prog Op Ans α) (f : α → Prog Op Ans β) (g : β → Prog Op Ans γ) :
    p >>= f >>= g = p >>= fun a => f a >>= g := by
  induction p with
  | ret a => rfl
  | act o k ih =>
    rw [act_bind, act_bind, act_bind]
    congr 1
    funext x
    exact ih x

@[simp] lemma bind_ret (p : Prog Op Ans α) : (p >>= fun a => ret a) = p := by
  induction p with
  | ret a => rfl
  | act o k ih =>
    rw [act_bind]
    congr 1
    funext x
    exact ih x

lemma bind_ret_unit (p : Prog Op Ans Unit) : (p >>= fun _ => ret ()) = p :=
  bind_ret p

variable (exec : (o : Op) → State → Option (Ans o × State))

/-- What the program returns and the state after it, unless it meets an operation without an
outcome. -/
def run : Prog Op Ans α → State → Option (α × State)
  | ret a, s => some (a, s)
  | act o k, s => (exec o s).bind fun r => (k r.1).run r.2

@[simp] lemma run_ret (a : α) (s : State) :
    (ret a : Prog Op Ans α).run exec s = some (a, s) := rfl

@[simp] lemma run_act (o : Op) (k : Ans o → Prog Op Ans α) (s : State) :
    (act o k).run exec s = (exec o s).bind fun r => (k r.1).run exec r.2 := rfl

@[simp] lemma run_op (o : Op) (s : State) :
    (op o : Prog Op Ans (Ans o)).run exec s = exec o s := by
  rw [op, run_act]
  exact Option.bind_fun_some _

/-- **The run of a sequence.** -/
theorem run_bind (p : Prog Op Ans α) (f : α → Prog Op Ans β) (s : State) :
    (p >>= f).run exec s = (p.run exec s).bind fun r => (f r.1).run exec r.2 := by
  induction p generalizing s with
  | ret a => rfl
  | act o k ih =>
    rw [act_bind, run_act, run_act, Option.bind_assoc]
    congr 1
    funext r
    exact ih r.1 r.2

variable {exec}

/-- What each operation of a program keeps, its run keeps. -/
lemma run_keeps {N : Op → Prop} {P : State → Prop}
    (keeps : ∀ o s r, N o → P s → exec o s = some r → P r.2) {p : Prog Op Ans α}
    (hp : Only N p) {s : State} (hs : P s) {r : α × State} (hr : p.run exec s = some r) :
    P r.2 := by
  induction p generalizing s with
  | ret a =>
    obtain rfl := Option.some.inj hr
    exact hs
  | act o k ih =>
    obtain ⟨ho, hk⟩ := (only_act_iff o k).mp hp
    obtain ⟨x, hx, hr⟩ := Option.bind_eq_some_iff.mp hr
    exact ih x.1 (hk x.1) (keeps o s x ho hs hx) hr

/-- **What each operation commutes with, a program commutes with**, from a state with an invariant
that the operations keep.

**Proof sketch.** By induction on the program. -/
theorem run_comm {N : Op → Prop} {P : State → Prop} {φ : State → State}
    (step : ∀ o s, N o → P s → exec o (φ s) = (exec o s).map fun r => (r.1, φ r.2))
    (keeps : ∀ o s r, N o → P s → exec o s = some r → P r.2) {p : Prog Op Ans α}
    (hp : Only N p) {s : State} (hs : P s) :
    p.run exec (φ s) = (p.run exec s).map fun r => (r.1, φ r.2) := by
  induction p generalizing s with
  | ret a => rfl
  | act o k ih =>
    obtain ⟨ho, hk⟩ := (only_act_iff o k).mp hp
    rw [run_act, run_act, step o s ho hs]
    cases hr : exec o s with
    | none => rfl
    | some r => exact ih r.1 (hk r.1) (keeps o s r ho hs hr)

end Prog

end Interleave
