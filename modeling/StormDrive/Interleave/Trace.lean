import StormDrive.Interleave.Prog

set_option relaxedAutoImplicit false
set_option autoImplicit false

/-!
# Traces of a program

What a program does, operation by operation, for a script of answers, and what it returns.

## Main definitions

* `Prog.Trace` — the operations of a program with their answers, and its value.

## Main results

* `Prog.trace_bind_iff` — **the traces of a sequence**.
* `Prog.trace_okThen_iff` — **the traces of a sequence that succeeds**.
-/

namespace Interleave

namespace Prog

variable {Op : Type} {Ans : Op → Type} {α β : Type}

/-- The program performs these operations, is given these answers, and returns the value. -/
inductive Trace : Prog Op Ans α → List (Σ o, Ans o) → α → Prop
  | ret (a : α) : Trace (ret a) [] a
  | act (o : Op) (k : Ans o → Prog Op Ans α) (x : Ans o) {t : List (Σ o, Ans o)} {a : α} :
      Trace (k x) t a → Trace (act o k) (⟨o, x⟩ :: t) a

@[simp] lemma trace_ret_iff (a b : α) (t : List (Σ o, Ans o)) :
    Trace (ret a : Prog Op Ans α) t b ↔ t = [] ∧ b = a := by
  constructor
  · intro h
    cases h
    exact ⟨rfl, rfl⟩
  · rintro ⟨rfl, rfl⟩
    exact .ret b

lemma trace_act_iff (o : Op) (k : Ans o → Prog Op Ans α) (t : List (Σ o, Ans o)) (a : α) :
    Trace (act o k) t a ↔ ∃ x t', t = ⟨o, x⟩ :: t' ∧ Trace (k x) t' a := by
  constructor
  · intro h
    cases h with
    | act o k x h => exact ⟨x, _, rfl, h⟩
  · rintro ⟨x, t', rfl, h⟩
    exact .act o k x h

/-- The trace of one operation. -/
lemma trace_op_iff (o : Op) (t : List (Σ o, Ans o)) (x : Ans o) :
    Trace (op o : Prog Op Ans (Ans o)) t x ↔ t = [⟨o, x⟩] := by
  rw [op, trace_act_iff]
  constructor
  · rintro ⟨y, t', rfl, h⟩
    obtain ⟨rfl, rfl⟩ := (trace_ret_iff _ _ _).mp h
    rfl
  · rintro rfl
    exact ⟨x, [], rfl, .ret x⟩

/-- **The traces of a sequence** are those of its parts, one after the other. -/
theorem trace_bind_iff (p : Prog Op Ans α) (f : α → Prog Op Ans β) (t : List (Σ o, Ans o)) (b : β) :
    Trace (p >>= f) t b ↔ ∃ a t₁ t₂, t = t₁ ++ t₂ ∧ Trace p t₁ a ∧ Trace (f a) t₂ b := by
  induction p generalizing t with
  | ret a =>
    rw [ret_bind]
    constructor
    · exact fun h => ⟨a, [], t, rfl, .ret a, h⟩
    · rintro ⟨a', t₁, t₂, rfl, h₁, h₂⟩
      obtain ⟨rfl, rfl⟩ := (trace_ret_iff _ _ _).mp h₁
      exact h₂
  | act o k ih =>
    rw [act_bind, trace_act_iff]
    constructor
    · rintro ⟨x, t', rfl, h⟩
      obtain ⟨a, t₁, t₂, rfl, h₁, h₂⟩ := (ih x t').mp h
      exact ⟨a, ⟨o, x⟩ :: t₁, t₂, rfl, .act o k x h₁, h₂⟩
    · rintro ⟨a, t₁, t₂, rfl, h₁, h₂⟩
      obtain ⟨x, t', rfl, h⟩ := (trace_act_iff o k t₁ a).mp h₁
      exact ⟨x, t' ++ t₂, rfl, (ih x _).mpr ⟨a, t', t₂, rfl, h, h₂⟩⟩

/-- The traces of an operation and what follows. -/
lemma trace_op_bind_iff (o : Op) (f : Ans o → Prog Op Ans β) (t : List (Σ o, Ans o)) (b : β) :
    Trace (op o >>= f) t b ↔ ∃ x t', t = ⟨o, x⟩ :: t' ∧ Trace (f x) t' b := by
  rw [op_bind, trace_act_iff]

/-- **The traces of a sequence that succeeds** are those of parts that do. -/
lemma trace_okThen_iff {E : Type} (p : Prog Op Ans (Except E α)) (f : α → Prog Op Ans (Except E β))
    (t : List (Σ o, Ans o)) (b : β) :
    Trace (okThen p f) t (.ok b) ↔
      ∃ a t₁ t₂, t = t₁ ++ t₂ ∧ Trace p t₁ (.ok a) ∧ Trace (f a) t₂ (.ok b) := by
  rw [okThen, trace_bind_iff]
  constructor
  · rintro ⟨r, t₁, t₂, rfl, first, second⟩
    cases r with
    | ok a => exact ⟨a, t₁, t₂, rfl, first, second⟩
    | error e => exact absurd ((trace_ret_iff _ _ _).mp second).2 nofun
  · rintro ⟨a, t₁, t₂, rfl, first, second⟩
    exact ⟨.ok a, t₁, t₂, rfl, first, second⟩

/-- What a trace consists of. -/
lemma Trace.only {N : Op → Prop} {p : Prog Op Ans α} {t : List (Σ o, Ans o)} {a : α}
    (run : Trace p t a) (only : Only N p) : ∀ e ∈ t, N e.1 := by
  induction run with
  | ret a => exact fun _ h => absurd h List.not_mem_nil
  | act o k x rest ih =>
    obtain ⟨here, behind⟩ := (only_act_iff o k).mp only
    exact List.forall_mem_cons.mpr ⟨here, ih (behind x)⟩

end Prog

end Interleave
