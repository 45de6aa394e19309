import StormDrive.Interleave.Machine

set_option relaxedAutoImplicit false
set_option autoImplicit false

/-!
# A program by itself

A program that runs from its first operation to its end with nothing in between, whatever the
environment answers.

## Main definitions

* `Alone` — the runs of a program by itself: the state before, what it returns, the state after.

## Main results

* `alone_bind_iff` — the runs of a sequence.
* `Alone.keeps` — what every operation of a program keeps, the program keeps.
* `exists_run_of_alone` — a thread of a machine can take every run of its program by itself.
-/

namespace Interleave

open Prog

section Alone

variable {Op : Type} {Ans : Op → Type} {State Env : Type} {α β : Type}
variable {exec : (op : Op) → Env → State → Option (Ans op × State)}

/-- The program runs from the state to its end, with nothing between its operations. -/
inductive Alone (exec : (op : Op) → Env → State → Option (Ans op × State)) :
    Prog Op Ans α → State → α → State → Prop
  | ret (a : α) (s : State) : Alone exec (.ret a) s a s
  | act {op : Op} {k : Ans op → Prog Op Ans α} {s s' s'' : State} (e : Env) (x : Ans op) (a : α)
      (h : exec op e s = some (x, s')) (hk : Alone exec (k x) s' a s'') :
      Alone exec (.act op k) s a s''

@[simp] lemma alone_ret_iff (a b : α) (s s' : State) :
    Alone exec (.ret a : Prog Op Ans α) s b s' ↔ b = a ∧ s' = s := by
  constructor
  · intro h
    cases h
    exact ⟨rfl, rfl⟩
  · rintro ⟨rfl, rfl⟩
    exact .ret _ _

@[simp] lemma alone_act_iff (op : Op) (k : Ans op → Prog Op Ans α) (s s' : State) (a : α) :
    Alone exec (.act op k) s a s' ↔
      ∃ e x s₁, exec op e s = some (x, s₁) ∧ Alone exec (k x) s₁ a s' := by
  constructor
  · intro h
    cases h with
    | act e x _ h hk => exact ⟨e, x, _, h, hk⟩
  · rintro ⟨e, x, s₁, h, hk⟩
    exact .act e x a h hk

/-- **A sequence** runs by itself when its parts do, one after the other. -/
theorem alone_bind_iff (p : Prog Op Ans α) (f : α → Prog Op Ans β) (s s' : State) (b : β) :
    Alone exec (p >>= f) s b s' ↔ ∃ a s₁, Alone exec p s a s₁ ∧ Alone exec (f a) s₁ b s' := by
  induction p generalizing s with
  | ret a => simp
  | act op k ih =>
    rw [act_bind, alone_act_iff]
    simp only [ih, alone_act_iff]
    constructor
    · rintro ⟨e, x, s₁, hex, a, s₂, hp, hf⟩
      exact ⟨a, s₂, ⟨e, x, s₁, hex, hp⟩, hf⟩
    · rintro ⟨a, s₂, ⟨e, x, s₁, hex, hp⟩, hf⟩
      exact ⟨e, x, s₁, hex, a, s₂, hp, hf⟩

/-- One operation by itself. -/
lemma alone_op_iff (op : Op) (s s' : State) (x : Ans op) :
    Alone exec (Prog.op op : Prog Op Ans (Ans op)) s x s' ↔ ∃ e, exec op e s = some (x, s') := by
  simp [Prog.op]

/-- An operation, and what comes after it. -/
lemma alone_op_bind_iff (op : Op) (f : Ans op → Prog Op Ans β) (s s' : State) (b : β) :
    Alone exec (Prog.op op >>= f) s b s' ↔
      ∃ e x s₁, exec op e s = some (x, s₁) ∧ Alone exec (f x) s₁ b s' := by
  rw [op_bind, alone_act_iff]

/-- The rule for a sequence. -/
lemma Alone.seq {p : Prog Op Ans α} {f : α → Prog Op Ans β} {s s₁ s' : State} {a : α} {b : β}
    (hp : Alone exec p s a s₁) (hf : Alone exec (f a) s₁ b s') : Alone exec (p >>= f) s b s' :=
  (alone_bind_iff _ _ _ _ _).mpr ⟨a, s₁, hp, hf⟩

/-- The rule for an operation and what comes after it. -/
lemma Alone.op_seq {op : Op} {f : Ans op → Prog Op Ans β} {s s₁ s' : State} {b : β} (e : Env)
    (x : Ans op) (hex : exec op e s = some (x, s₁)) (hf : Alone exec (f x) s₁ b s') :
    Alone exec (Prog.op op >>= f) s b s' :=
  (alone_op_bind_iff _ _ _ _ _).mpr ⟨e, x, s₁, hex, hf⟩

/-- **What every operation of a program keeps, the program keeps.** -/
theorem Alone.keeps {N : Op → Prop} {J : State → Prop} {p : Prog Op Ans α} {s s' : State} {a : α}
    (h : Alone exec p s a s') (hp : Only N p)
    (hkeep : ∀ op e s x s', N op → J s → exec op e s = some (x, s') → J s') (hJ : J s) : J s' := by
  induction h with
  | ret a s => exact hJ
  | act e x a hex _ ih =>
    obtain ⟨hop, hk⟩ := (only_act_iff _ _).mp hp
    exact ih (hk x) (hkeep _ e _ x _ hop hJ hex)

end Alone

section Machine

variable {Op : Type} {Ans : Op → Type} {State Env World Req Mark : Type}
variable {M : Machine Op Ans State Env World Req} {T : Tracer Op Ans Req Mark}

/-- **A thread can take every run of its program by itself**: the process takes its turns, one after
the other. -/
theorem exists_run_of_alone {p : Prog Op Ans (Option Req)} {s s' : State} {r : Option Req}
    (h : Alone M.exec p s r s') {c : Config Op Ans State Req Mark} {i : Nat} {m : Mark}
    (ht : c.threads[i]? = some ⟨p, m⟩) (hs : c.state = s) :
    ∃ es c' m', Run M T (fun _ _ _ => True) c es c' ∧ c'.state = s' ∧
      c'.threads[i]? = some ⟨.ret r, m'⟩ := by
  induction h generalizing c m with
  | ret a s => exact ⟨[], c, m, .nil c, hs, ht⟩
  | @act op k s s₁ s₂ e x a hex _ ih =>
    subst hs
    have hstep := Step.turn (M := M) (T := T) c i op k m e x s₁ ht hex
    have hlt : i < c.threads.length := (List.getElem?_eq_some_iff.mp ht).1
    have hnext : (c.threads.set i ⟨k x, T.next m op x⟩ ++ children M T m op)[i]? =
        some ⟨k x, T.next m op x⟩ := by
      rw [List.getElem?_append_left (by simpa using hlt), List.getElem?_set_self hlt]
    obtain ⟨es, c', m', hrun, hs', ht'⟩ :=
      ih (c := ⟨s₁, c.threads.set i ⟨k x, T.next m op x⟩ ++ children M T m op⟩) hnext rfl
    exact ⟨_, c', m', .cons trivial hstep hrun, hs', ht'⟩

end Machine

end Interleave
