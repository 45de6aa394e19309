import Mathlib.Tactic.Basic
import Mathlib.Logic.Basic

set_option relaxedAutoImplicit false
set_option autoImplicit false

/-!
# Programs over atomic operations

A program that asks for one operation after another and goes on with the answer. The operations
are not interpreted here: what an operation does to a shared state, and which answers it can give
there, is said where the program is run.

## Main definitions

* `Prog` — programs, a monad.
* `Performs`, `Returns` — what a program can do, and return, for some answers.
* `Only` — every operation a program can perform is of a kind.
* `Protocol`, `wp` — what a program must do at each mark, and its weakest precondition.

## Main results

* `performs_bind_iff`, `Only.bind` — the operations of a sequence.
* `wp_bind` — the weakest precondition of a sequence.
* `wp_of_only` — a program of operations that a protocol does not look at keeps every mark.
-/

namespace Interleave

/-- A program: it returns, or performs an operation and goes on with the answer. -/
inductive Prog (Op : Type) (Ans : Op → Type) (α : Type) where
  | ret (a : α)
  | act (op : Op) (k : Ans op → Prog Op Ans α)

namespace Prog

variable {Op : Type} {Ans : Op → Type} {α β γ : Type}

/-- One program after another. -/
def bind : Prog Op Ans α → (α → Prog Op Ans β) → Prog Op Ans β
  | ret a, f => f a
  | act op k, f => act op fun x => (k x).bind f

instance : Monad (Prog Op Ans) where
  pure := ret
  bind := bind

/-- The program of one operation. -/
def op (o : Op) : Prog Op Ans (Ans o) :=
  act o ret

@[simp] lemma pure_eq (a : α) : (pure a : Prog Op Ans α) = ret a := rfl

@[simp] lemma ret_bind (a : α) (f : α → Prog Op Ans β) : (ret a : Prog Op Ans α) >>= f = f a := rfl

@[simp] lemma act_bind (o : Op) (k : Ans o → Prog Op Ans α) (f : α → Prog Op Ans β) :
    act o k >>= f = act o fun x => k x >>= f := rfl

@[simp] lemma op_bind (o : Op) (f : Ans o → Prog Op Ans β) : op o >>= f = act o f := rfl

/-- A program whose operations are among those of another kind. -/
def lift {Op' : Type} {Ans' : Op' → Type} (f : Op → Op') (g : ∀ o, Ans' (f o) → Ans o) :
    Prog Op Ans α → Prog Op' Ans' α
  | ret a => ret a
  | act o k => act (f o) fun x => (k (g o x)).lift f g

/-- Go on with the value of a program that succeeds; the error of one that fails is the end. -/
def okThen {E : Type} (p : Prog Op Ans (Except E α)) (f : α → Prog Op Ans (Except E β)) :
    Prog Op Ans (Except E β) :=
  p >>= fun
    | .ok a => f a
    | .error e => ret (.error e)

/-! ## What a program can do -/

/-- The program can perform the operation, for some answers to those before it. -/
inductive Performs (o : Op) : Prog Op Ans α → Prop
  | here (k : Ans o → Prog Op Ans α) : Performs o (act o k)
  | later (o' : Op) (k : Ans o' → Prog Op Ans α) (x : Ans o') : Performs o (k x) →
      Performs o (act o' k)

/-- The program can return the value, for some answers. -/
inductive Returns (a : α) : Prog Op Ans α → Prop
  | here : Returns a (ret a)
  | later (o : Op) (k : Ans o → Prog Op Ans α) (x : Ans o) : Returns a (k x) → Returns a (act o k)

@[simp] lemma performs_ret_iff (o : Op) (a : α) :
    Performs o (ret a : Prog Op Ans α) ↔ False := by
  constructor
  · intro h
    cases h
  · exact False.elim

@[simp] lemma performs_act_iff (o o' : Op) (k : Ans o' → Prog Op Ans α) :
    Performs o (act o' k) ↔ o = o' ∨ ∃ x, Performs o (k x) := by
  constructor
  · intro h
    cases h with
    | here => exact .inl rfl
    | later _ _ x hx => exact .inr ⟨x, hx⟩
  · intro h
    rcases h with rfl | ⟨x, hx⟩
    · exact .here k
    · exact .later o' k x hx

@[simp] lemma returns_ret_iff (a b : α) : Returns a (ret b : Prog Op Ans α) ↔ a = b := by
  constructor
  · intro h
    cases h
    rfl
  · intro h
    subst h
    exact .here

@[simp] lemma returns_act_iff (a : α) (o : Op) (k : Ans o → Prog Op Ans α) :
    Returns a (act o k) ↔ ∃ x, Returns a (k x) := by
  constructor
  · intro h
    cases h with
    | later _ _ x hx => exact ⟨x, hx⟩
  · intro h
    obtain ⟨x, hx⟩ := h
    exact .later o k x hx

/-- **The operations of a sequence** are those of its first program, and those of the second after
something the first can return. -/
theorem performs_bind_iff (o : Op) (p : Prog Op Ans α) (f : α → Prog Op Ans β) :
    Performs o (p >>= f) ↔ Performs o p ∨ ∃ a, Returns a p ∧ Performs o (f a) := by
  induction p with
  | ret a => simp
  | act o' k ih =>
    rw [act_bind, performs_act_iff, performs_act_iff]
    simp only [ih, returns_act_iff]
    constructor
    · intro h
      rcases h with h | ⟨x, h | ⟨a, ha, h⟩⟩
      · exact .inl (.inl h)
      · exact .inl (.inr ⟨x, h⟩)
      · exact .inr ⟨a, ⟨x, ha⟩, h⟩
    · intro h
      rcases h with (h | ⟨x, h⟩) | ⟨a, ⟨x, ha⟩, h⟩
      · exact .inl h
      · exact .inr ⟨x, .inl h⟩
      · exact .inr ⟨x, .inr ⟨a, ha, h⟩⟩

/-- What a sequence returns. -/
lemma returns_bind_iff (b : β) (p : Prog Op Ans α) (f : α → Prog Op Ans β) :
    Returns b (p >>= f) ↔ ∃ a, Returns a p ∧ Returns b (f a) := by
  induction p with
  | ret a => simp
  | act o k ih =>
    rw [act_bind, returns_act_iff]
    simp only [ih, returns_act_iff]
    constructor
    · intro h
      obtain ⟨x, a, ha, hb⟩ := h
      exact ⟨a, ⟨x, ha⟩, hb⟩
    · intro h
      obtain ⟨a, ⟨x, ha⟩, hb⟩ := h
      exact ⟨x, a, ha, hb⟩

/-- Every operation that the program can perform is of the kind. -/
def Only (N : Op → Prop) (p : Prog Op Ans α) : Prop :=
  ∀ o, Performs o p → N o

variable {N : Op → Prop}

@[simp] lemma only_ret (a : α) : Only N (ret a : Prog Op Ans α) := by
  intro o h
  simp at h

@[simp] lemma only_act_iff (o : Op) (k : Ans o → Prog Op Ans α) :
    Only N (act o k) ↔ N o ∧ ∀ x, Only N (k x) := by
  constructor
  · intro h
    exact ⟨h o (.here k), fun x o' hx => h o' (.later o k x hx)⟩
  · intro h o' ho'
    rcases (performs_act_iff _ _ _).mp ho' with rfl | ⟨x, hx⟩
    · exact h.1
    · exact h.2 x o' hx

@[simp] lemma only_op_iff (o : Op) : Only N (op o : Prog Op Ans (Ans o)) ↔ N o := by
  simp [op]

/-- An operation of the kind, and what comes after it. -/
lemma Only.op_bind {o : Op} {f : Ans o → Prog Op Ans α} (ho : N o) (hf : ∀ x, Only N (f x)) :
    Only N (op o >>= f) :=
  (only_act_iff o f).mpr ⟨ho, hf⟩

/-- The operations of a sequence are of the kind when those of its parts are. -/
lemma Only.bind {p : Prog Op Ans α} {f : α → Prog Op Ans β} (hp : Only N p)
    (hf : ∀ a, Only N (f a)) : Only N (p >>= f) := by
  intro o h
  rcases (performs_bind_iff o p f).mp h with h | ⟨a, -, h⟩
  · exact hp o h
  · exact hf a o h

lemma Only.okThen {E : Type} {p : Prog Op Ans (Except E α)} {f : α → Prog Op Ans (Except E β)}
    (hp : Only N p) (hf : ∀ a, Only N (f a)) : Only N (okThen p f) := by
  refine Only.bind hp fun r => ?_
  cases r with
  | ok a => exact hf a
  | error e => exact only_ret _

/-- A wider kind. -/
lemma Only.mono {N' : Op → Prop} {p : Prog Op Ans α} (hp : Only N p) (h : ∀ o, N o → N' o) :
    Only N' p :=
  fun o ho => h o (hp o ho)

/-- One of two programs. -/
lemma Only.ite {c : Prop} [Decidable c] {p q : Prog Op Ans α} (hp : Only N p) (hq : Only N q) :
    Only N (if c then p else q) := by
  by_cases h : c
  · rw [if_pos h]
    exact hp
  · rw [if_neg h]
    exact hq

end Prog

/-! ## Protocols -/

/-- What a thread does over time, as a mark that each operation moves. It is not part of the
program: it says what the thread has done so far. -/
structure Tracer (Op : Type) (Ans : Op → Type) (Req Mark : Type) where
  /-- The mark of a thread that serves a request. -/
  fresh : Req → Mark
  /-- The mark after an operation and its answer. -/
  next : Mark → (op : Op) → Ans op → Mark
  /-- The mark of a thread that one with this mark starts. -/
  child : Mark → Req → Mark

/-- The rules that threads keep: which operations a thread may perform at a mark, which answers
it can rely on there, and the marks at which a request may be served and a thread may end. -/
structure Protocol (Op : Type) (Ans : Op → Type) (Req Mark : Type)
    extends Tracer Op Ans Req Mark where
  may : Mark → Op → Prop
  gives : Mark → (op : Op) → Ans op → Prop
  ready : Req → Mark → Prop
  /-- The marks at which a thread may end. -/
  done : Mark → Prop := fun _ => True

open Prog

section Wp

variable {Op : Type} {Ans : Op → Type} {Req Mark : Type} {α β : Type}
variable (P : Protocol Op Ans Req Mark)

/-- The weakest precondition: from the mark, the program only performs operations that it may
perform, whatever the answers it can get, and returns with the postcondition. -/
def wp : Prog Op Ans α → (α → Mark → Prop) → Mark → Prop
  | .ret a, Q, m => Q a m
  | .act o k, Q, m => P.may m o ∧ ∀ x, P.gives m o x → wp (k x) Q (P.next m o x)

@[simp] lemma wp_ret (a : α) (Q : α → Mark → Prop) (m : Mark) :
    wp P (.ret a) Q m ↔ Q a m := Iff.rfl

@[simp] lemma wp_act (o : Op) (k : Ans o → Prog Op Ans α) (Q : α → Mark → Prop) (m : Mark) :
    wp P (.act o k) Q m ↔ P.may m o ∧ ∀ x, P.gives m o x → wp P (k x) Q (P.next m o x) := Iff.rfl

@[simp] lemma wp_op (o : Op) (Q : Ans o → Mark → Prop) (m : Mark) :
    wp P (Prog.op o) Q m ↔ P.may m o ∧ ∀ x, P.gives m o x → Q x (P.next m o x) := Iff.rfl

/-- **A sequence**: the first program with the second's precondition as postcondition. -/
@[simp] theorem wp_bind (p : Prog Op Ans α) (f : α → Prog Op Ans β) (Q : β → Mark → Prop)
    (m : Mark) : wp P (p >>= f) Q m ↔ wp P p (fun a m' => wp P (f a) Q m') m := by
  induction p generalizing m with
  | ret a => rfl
  | act o k ih =>
    rw [act_bind, wp_act, wp_act]
    refine and_congr_right fun _ => forall_congr' fun x => imp_congr_right fun _ => ?_
    exact ih x _

/-- The rule for a sequence. -/
lemma wp_seq {p : Prog Op Ans α} {f : α → Prog Op Ans β} {Q : β → Mark → Prop} {m : Mark}
    (h : wp P p (fun a m' => wp P (f a) Q m') m) : wp P (p >>= f) Q m :=
  (wp_bind P p f Q m).mpr h

/-- The rule for an operation and what comes after it. -/
lemma wp_op_bind {o : Op} {f : Ans o → Prog Op Ans β} {Q : β → Mark → Prop} {m : Mark}
    (hmay : P.may m o) (h : ∀ x, P.gives m o x → wp P (f x) Q (P.next m o x)) :
    wp P (Prog.op o >>= f) Q m :=
  ⟨hmay, h⟩

/-- A weaker postcondition. -/
lemma wp_mono {p : Prog Op Ans α} {Q Q' : α → Mark → Prop} (h : ∀ a m, Q a m → Q' a m) {m : Mark}
    (hp : wp P p Q m) : wp P p Q' m := by
  induction p generalizing m with
  | ret a => exact h a m hp
  | act o k ih =>
    obtain ⟨hmay, hk⟩ := hp
    exact ⟨hmay, fun x hx => ih x (hk x hx)⟩

/-- **Operations that a protocol does not look at**: a program that performs no others may be run
at the mark, and keeps it. -/
theorem wp_of_only {N : Op → Prop} {p : Prog Op Ans α} {Q : α → Mark → Prop} {m : Mark}
    (hp : Only N p) (hmay : ∀ o, N o → P.may m o) (hnext : ∀ o x, N o → P.next m o x = m)
    (hQ : ∀ a, Q a m) : wp P p Q m := by
  induction p with
  | ret a => exact hQ a
  | act o k ih =>
    have ho : N o := hp o (.here k)
    refine ⟨hmay o ho, fun x _ => ?_⟩
    rw [hnext o x ho]
    exact ih x fun o' h => hp o' (.later o k x h)

/-- A program of operations that a protocol allows at every mark. -/
lemma wp_of_may {N : Op → Prop} {p : Prog Op Ans α} {m : Mark} (hp : Only N p)
    (hmay : ∀ o m', N o → P.may m' o) : wp P p (fun _ _ => True) m := by
  induction p generalizing m with
  | ret a => trivial
  | act o k ih =>
    exact ⟨hmay o m (hp o (.here k)), fun x _ => ih x fun o' h => hp o' (.later o k x h)⟩

end Wp

end Interleave
