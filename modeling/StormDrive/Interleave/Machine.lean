import Mathlib.Data.List.Basic
import StormDrive.Interleave.Prog

set_option relaxedAutoImplicit false
set_option autoImplicit false

/-!
# Threads that interleave

A process that serves requests with threads over one shared state. Each thread runs a program,
one operation at a time, and any thread may be next. The process can be restarted at any point:
its threads are gone then, and so is the part of the state that is not kept.

## Main definitions

* `Machine` — the programs, and what each operation does to the state.
* `Config`, `Step`, `Run` — a state with threads, one step, a run whose steps meet a condition.
* `Machine.step`, `Machine.runMoves`, `Machine.runChecked` — the same, computed along a schedule.
* `Keeps` — what it takes for a protocol and an invariant to be kept by every step.

## Main results

* `Keeps.run` — **the invariant rule**: a kept invariant holds in every configuration of a run.
* `Keeps.may` — a thread only performs operations that it may perform at its mark.
* `exists_run_of_moves` — a schedule that computes gives a run.
-/

namespace Interleave

/-- A process: a program for each request, the meaning of the operations, and what a restart
keeps. A program that ends with a request goes on with it. -/
structure Machine (Op : Type) (Ans : Op → Type) (State Env World Req : Type) where
  entry : Req → Prog Op Ans (Option Req)
  /-- An operation in a state: its answer and the state after, or none while it has to wait. The
  environment decides what the state does not. -/
  exec : (op : Op) → Env → State → Option (Ans op × State)
  /-- The request that an operation starts a thread for. -/
  spawned : Op → Option Req
  /-- Requests that can arrive in a state. -/
  admits : State → Req → Bool
  /-- A change of the state that no thread makes. -/
  world : World → State → Option State
  /-- The state after a restart. -/
  boot : State → State
  /-- The requests that a restart begins with. -/
  starts : List Req

/-- A thread: what is left of its program, and its mark. -/
structure Thread (Op : Type) (Ans : Op → Type) (Req Mark : Type) where
  prog : Prog Op Ans (Option Req)
  mark : Mark

/-- The shared state and the threads. -/
structure Config (Op : Type) (Ans : Op → Type) (State Req Mark : Type) where
  state : State
  threads : List (Thread Op Ans Req Mark)

/-- What happens in one step. -/
inductive Event (Op : Type) (Ans : Op → Type) (World Req : Type) where
  /-- A request arrives. -/
  | start (r : Req)
  /-- The thread at the index performs an operation. -/
  | turn (i : Nat) (op : Op) (a : Ans op)
  /-- The thread at the index goes on with a request. -/
  | jump (i : Nat) (r : Req)
  | world (w : World)
  | crash

/-- One entry of a schedule. -/
inductive Move (Env World Req : Type) where
  | start (r : Req)
  | turn (i : Nat) (e : Env)
  | world (w : World)
  | crash

section Steps

variable {Op : Type} {Ans : Op → Type} {State Env World Req Mark : Type}

/-- The marks of the threads. -/
def Config.marks (c : Config Op Ans State Req Mark) : List Mark :=
  c.threads.map Thread.mark

variable (M : Machine Op Ans State Env World Req) (T : Tracer Op Ans Req Mark)

/-- A thread that serves a request from its start. -/
def serve (r : Req) (m : Mark) : Thread Op Ans Req Mark :=
  ⟨M.entry r, m⟩

/-- The process right after a restart. -/
def restarted (s : State) : Config Op Ans State Req Mark :=
  ⟨M.boot s, M.starts.map fun r => serve M r (T.fresh r)⟩

/-- The threads that an operation starts, by a thread with the mark. -/
def children (m : Mark) (op : Op) : List (Thread Op Ans Req Mark) :=
  (M.spawned op).toList.map fun r => serve M r (T.child m r)

/-- One step: a request arrives, a thread performs its next operation or goes on with a request,
something changes from outside, or the process restarts. -/
inductive Step : Config Op Ans State Req Mark → Event Op Ans World Req →
    Config Op Ans State Req Mark → Prop
  | start (c : Config Op Ans State Req Mark) (r : Req) (h : M.admits c.state r = true) :
      Step c (.start r) { c with threads := c.threads ++ [serve M r (T.fresh r)] }
  | turn (c : Config Op Ans State Req Mark) (i : Nat) (op : Op)
      (k : Ans op → Prog Op Ans (Option Req)) (m : Mark) (e : Env) (a : Ans op) (s : State)
      (ht : c.threads[i]? = some ⟨.act op k, m⟩) (h : M.exec op e c.state = some (a, s)) :
      Step c (.turn i op a)
        ⟨s, c.threads.set i ⟨k a, T.next m op a⟩ ++ children M T m op⟩
  | jump (c : Config Op Ans State Req Mark) (i : Nat) (r : Req) (m : Mark)
      (ht : c.threads[i]? = some ⟨.ret (some r), m⟩) :
      Step c (.jump i r) { c with threads := c.threads.set i (serve M r m) }
  | world (c : Config Op Ans State Req Mark) (w : World) (s : State)
      (h : M.world w c.state = some s) : Step c (.world w) { c with state := s }
  | crash (c : Config Op Ans State Req Mark) :
      Step c .crash (restarted M T c.state)

/-- A condition on a step: the state and the marks before it, and what happens. -/
abbrev Condition (Op : Type) (Ans : Op → Type) (State World Req Mark : Type) :=
  State → List Mark → Event Op Ans World Req → Prop

/-- A run whose steps all meet the condition. -/
inductive Run (ok : Condition Op Ans State World Req Mark) :
    Config Op Ans State Req Mark → List (Event Op Ans World Req) →
    Config Op Ans State Req Mark → Prop
  | nil (c : Config Op Ans State Req Mark) : Run ok c [] c
  | cons {c c' c'' : Config Op Ans State Req Mark} {e : Event Op Ans World Req}
      {es : List (Event Op Ans World Req)} (hok : ok c.state c.marks e) (h : Step M T c e c')
      (hrun : Run ok c' es c'') : Run ok c (e :: es) c''

variable {M T}

/-- A run in two parts. -/
lemma run_append_iff {ok : Condition Op Ans State World Req Mark}
    {c c'' : Config Op Ans State Req Mark} {es es' : List (Event Op Ans World Req)} :
    Run M T ok c (es ++ es') c'' ↔ ∃ c', Run M T ok c es c' ∧ Run M T ok c' es' c'' := by
  induction es generalizing c with
  | nil =>
    constructor
    · intro h
      exact ⟨c, .nil c, h⟩
    · intro h
      obtain ⟨c', hnil, h⟩ := h
      cases hnil
      exact h
  | cons e es ih =>
    constructor
    · intro h
      cases h with
      | cons hok hstep hrun =>
        obtain ⟨c', h1, h2⟩ := ih.mp hrun
        exact ⟨c', .cons hok hstep h1, h2⟩
    · intro h
      obtain ⟨c', h1, h2⟩ := h
      cases h1 with
      | cons hok hstep hrun => exact .cons hok hstep (ih.mpr ⟨c', hrun, h2⟩)

/-- The step of a run at a place of its events. -/
lemma Run.split {ok : Condition Op Ans State World Req Mark}
    {c c' : Config Op Ans State Req Mark} {es : List (Event Op Ans World Req)} {n : Nat}
    {e : Event Op Ans World Req} (h : Run M T ok c es c') (he : es[n]? = some e) :
    ∃ c₁ c₂, Run M T ok c (es.take n) c₁ ∧ ok c₁.state c₁.marks e ∧ Step M T c₁ e c₂ ∧
      Run M T ok c₂ (es.drop (n + 1)) c' := by
  have hn : n < es.length := (List.getElem?_eq_some_iff.mp he).1
  have hcut : es = es.take n ++ e :: es.drop (n + 1) := by
    obtain ⟨_, rfl⟩ := List.getElem?_eq_some_iff.mp he
    rw [List.getElem_cons_drop, List.take_append_drop]
  rw [hcut] at h
  obtain ⟨c₁, h₁, h₂⟩ := run_append_iff.mp h
  cases h₂ with
  | cons hok hstep hrun => exact ⟨c₁, _, h₁, hok, hstep, hrun⟩

/-- What the operation of a step does to the state. -/
lemma Step.exec {c c' : Config Op Ans State Req Mark} {i : Nat} {op : Op} {a : Ans op}
    (h : Step M T c (.turn i op a) c') : ∃ e, M.exec op e c.state = some (a, c'.state) := by
  cases h with
  | turn _ _ _ _ e _ _ _ hs => exact ⟨e, hs⟩

/-- A run under a stronger condition. -/
lemma Run.mono {ok ok' : Condition Op Ans State World Req Mark}
    {c c' : Config Op Ans State Req Mark} {es : List (Event Op Ans World Req)}
    (h : Run M T ok c es c') (himp : ∀ s ms e, ok s ms e → ok' s ms e) : Run M T ok' c es c' := by
  induction h with
  | nil c => exact .nil c
  | cons hok hstep _ ih => exact .cons (himp _ _ _ hok) hstep ih

/-- A run by its events alone. -/
lemma Run.of_events {ok : Condition Op Ans State World Req Mark}
    {c c' : Config Op Ans State Req Mark} {es : List (Event Op Ans World Req)}
    {p : Event Op Ans World Req → Prop} (h : Run M T ok c es c') (hp : ∀ e ∈ es, p e) :
    Run M T (fun _ _ e => p e) c es c' := by
  induction h with
  | nil c => exact .nil c
  | cons _ hstep _ ih =>
    exact .cons (hp _ List.mem_cons_self) hstep (ih fun e he => hp e (List.mem_cons_of_mem _ he))

/-! ## Computed runs -/

variable (M T)

/-- The step that a schedule's entry takes, when it can be taken. -/
def Machine.step (c : Config Op Ans State Req Mark) :
    Move Env World Req → Option (Event Op Ans World Req × Config Op Ans State Req Mark)
  | .start r =>
    if M.admits c.state r then
      some (.start r, { c with threads := c.threads ++ [serve M r (T.fresh r)] })
    else none
  | .turn i e =>
    match c.threads[i]? with
    | none => none
    | some ⟨.ret none, _⟩ => none
    | some ⟨.ret (some r), m⟩ =>
      some (.jump i r, { c with threads := c.threads.set i (serve M r m) })
    | some ⟨.act op k, m⟩ =>
      (M.exec op e c.state).map fun out =>
        (.turn i op out.1,
          ⟨out.2, c.threads.set i ⟨k out.1, T.next m op out.1⟩ ++ children M T m op⟩)
  | .world w => (M.world w c.state).map fun s => (.world w, { c with state := s })
  | .crash => some (.crash, restarted M T c.state)

/-- The run that a schedule takes. -/
def Machine.runMoves (c : Config Op Ans State Req Mark) :
    List (Move Env World Req) → Option (List (Event Op Ans World Req) × Config Op Ans State Req Mark)
  | [] => some ([], c)
  | mv :: mvs =>
    match M.step T c mv with
    | none => none
    | some (e, c') => (Machine.runMoves c' mvs).map fun out => (e :: out.1, out.2)

variable {M T}

/-- A step that computes is a step. -/
lemma step_of_step {c c' : Config Op Ans State Req Mark} {mv : Move Env World Req}
    {e : Event Op Ans World Req} (h : M.step T c mv = some (e, c')) : Step M T c e c' := by
  cases mv with
  | start r =>
    simp only [Machine.step] at h
    split at h
    · next hr =>
      cases h
      exact .start c r hr
    · cases h
  | turn i env =>
    simp only [Machine.step] at h
    split at h
    · cases h
    · cases h
    · next r m ht =>
      cases h
      exact .jump c i r m ht
    · next op k m ht =>
      obtain ⟨⟨a, s⟩, hs, ho⟩ := Option.map_eq_some_iff.mp h
      cases ho
      exact .turn c i op k m env a s ht hs
  | world w =>
    obtain ⟨s, hs, ho⟩ := Option.map_eq_some_iff.mp h
    cases ho
    exact .world c w s hs
  | crash =>
    cases h
    exact .crash c

/-- A run that computes is a run. -/
lemma run_of_runMoves {c c' : Config Op Ans State Req Mark} {mvs : List (Move Env World Req)}
    {es : List (Event Op Ans World Req)} (h : M.runMoves T c mvs = some (es, c')) :
    Run M T (fun _ _ _ => True) c es c' := by
  induction mvs generalizing c es with
  | nil =>
    cases h
    exact .nil _
  | cons mv mvs ih =>
    simp only [Machine.runMoves] at h
    split at h
    · cases h
    · next e c₁ hstep =>
      obtain ⟨⟨es₁, c₂⟩, hrun, ho⟩ := Option.map_eq_some_iff.mp h
      cases ho
      exact .cons trivial (step_of_step hstep) (ih hrun)

variable (M T)

/-- The run that a schedule takes while a check of every step passes. -/
def Machine.runChecked (check : State → List Mark → Event Op Ans World Req → Bool)
    (c : Config Op Ans State Req Mark) :
    List (Move Env World Req) → Option (List (Event Op Ans World Req) × Config Op Ans State Req Mark)
  | [] => some ([], c)
  | mv :: mvs =>
    match M.step T c mv with
    | none => none
    | some (e, c') =>
      if check c.state c.marks e then
        (Machine.runChecked check c' mvs).map fun out => (e :: out.1, out.2)
      else none

variable {M T}

/-- A run that computes under a check is a run whose steps pass it. -/
lemma run_of_runChecked {check : State → List Mark → Event Op Ans World Req → Bool}
    {c c' : Config Op Ans State Req Mark} {mvs : List (Move Env World Req)}
    {es : List (Event Op Ans World Req)} (h : M.runChecked T check c mvs = some (es, c')) :
    Run M T (fun s ms e => check s ms e = true) c es c' := by
  induction mvs generalizing c es with
  | nil =>
    cases h
    exact .nil _
  | cons mv mvs ih =>
    simp only [Machine.runChecked] at h
    split at h
    · cases h
    · next e c₁ hstep =>
      split at h
      · next hcheck =>
        obtain ⟨⟨es₁, c₂⟩, hrun, ho⟩ := Option.map_eq_some_iff.mp h
        cases ho
        exact .cons hcheck (step_of_step hstep) (ih hrun)
      · cases h

/-- **A schedule that computes gives a run**, with what a check of its outcome shows. -/
theorem exists_run_of_moves {c : Config Op Ans State Req Mark} (mvs : List (Move Env World Req))
    {check : List (Event Op Ans World Req) → Config Op Ans State Req Mark → Bool}
    (h : ((M.runMoves T c mvs).any fun out => check out.1 out.2) = true) :
    ∃ es c', Run M T (fun _ _ _ => True) c es c' ∧ check es c' = true := by
  obtain ⟨⟨es, c'⟩, hrun, hcheck⟩ := (Option.any_eq_true _ _).mp h
  exact ⟨es, c', run_of_runMoves hrun, hcheck⟩

end Steps

/-! ## The invariant rule -/

section Keeps

variable {Op : Type} {Ans : Op → Type} {State Env World Req Mark : Type}
variable (M : Machine Op Ans State Env World Req) (P : Protocol Op Ans Req Mark)

/-- Where a program ends: at a mark where its thread may end, or where the request that it goes on
with may be served. -/
def Ends : Option Req → Mark → Prop
  | none, m => P.done m
  | some r, m => P.ready r m

/-- A protocol and an invariant of the state and the marks are kept: every request's program keeps
to the protocol, and every step that the protocol allows keeps the invariant. -/
structure Keeps (ok : Condition Op Ans State World Req Mark) (J : State → List Mark → Prop) :
    Prop where
  entry : ∀ r m, P.ready r m → wp P (M.entry r) (Ends P) m
  start : ∀ s ms r, J s ms → M.admits s r = true → ok s ms (.start r) →
    P.ready r (P.fresh r) ∧ J s (ms ++ [P.fresh r])
  turn : ∀ s ms i m op e a s', J s ms → ms[i]? = some m → P.may m op →
    M.exec op e s = some (a, s') → ok s ms (.turn i op a) →
    P.gives m op a ∧ (∀ r, M.spawned op = some r → P.ready r (P.child m r)) ∧
      J s' (ms.set i (P.next m op a) ++ (M.spawned op).toList.map (P.child m))
  world : ∀ s ms w s', J s ms → M.world w s = some s' → ok s ms (.world w) → J s' ms
  crash : ∀ s ms, J s ms → ok s ms .crash →
    (∀ r ∈ M.starts, P.ready r (P.fresh r)) ∧ J (M.boot s) (M.starts.map P.fresh)

/-- The invariant holds and every thread keeps to the protocol. -/
structure Good (J : State → List Mark → Prop) (c : Config Op Ans State Req Mark) : Prop where
  inv : J c.state c.marks
  keeps : ∀ t ∈ c.threads, wp P t.prog (Ends P) t.mark

/-- Writing what is there. -/
lemma set_of_getElem? {α : Type} {l : List α} {i : Nat} {a : α} (h : l[i]? = some a) :
    l.set i a = l := by
  obtain ⟨hi, rfl⟩ := List.getElem?_eq_some_iff.mp h
  exact List.set_getElem_self hi

/-- What holds of the written element and of the others holds of all. -/
lemma forall_mem_set {α : Type} {l : List α} {i : Nat} {a : α} {p : α → Prop} (ha : p a)
    (hl : ∀ (j : Nat) (b : α), j ≠ i → l[j]? = some b → p b) : ∀ b ∈ l.set i a, p b := by
  intro b hb
  obtain ⟨j, hj⟩ := List.getElem?_of_mem hb
  rw [List.getElem?_set] at hj
  by_cases hij : i = j
  · rw [if_pos hij] at hj
    split at hj
    · cases hj
      exact ha
    · cases hj
  · rw [if_neg hij] at hj
    exact hl j b (Ne.symm hij) hj

/-- What holds of all holds of all after a turn, when it holds of the written element and of the new
ones. -/
lemma forall_mem_turn {α : Type} {l new : List α} {i : Nat} {a : α} {p : α → Prop}
    (hl : ∀ b ∈ l, p b) (ha : p a) (hnew : ∀ b ∈ new, p b) : ∀ b ∈ l.set i a ++ new, p b := by
  intro b hb
  rcases List.mem_append.mp hb with hb | hb
  · exact forall_mem_set ha (fun j c _ hc => hl c (List.mem_of_getElem? hc)) b hb
  · exact hnew b hb

/-- What one element has, one has after the writing, when the written element keeps it. -/
lemma exists_mem_set {α : Type} {l : List α} {i : Nat} {a a' : α} {p : α → Prop}
    (hi : l[i]? = some a) (ha : p a → p a') (h : ∃ b ∈ l, p b) : ∃ b ∈ l.set i a', p b := by
  obtain ⟨b, hb, hp⟩ := h
  obtain ⟨j, hj⟩ := List.getElem?_of_mem hb
  have hlt : i < l.length := (List.getElem?_eq_some_iff.mp hi).1
  by_cases hij : i = j
  · subst hij
    rw [hi] at hj
    cases hj
    exact ⟨a', List.mem_set hlt a', ha hp⟩
  · refine ⟨b, List.mem_of_getElem? (i := j) ?_, hp⟩
    rw [List.getElem?_set_ne hij]
    exact hj

variable {M P} {ok : Condition Op Ans State World Req Mark} {J : State → List Mark → Prop}

/-- **One invariant over another**: what every step keeps where a kept invariant holds. -/
theorem Keeps.and {J' : State → List Mark → Prop} (K : Keeps M P ok J)
    (start : ∀ s ms r, J s ms → J' s ms → M.admits s r = true → ok s ms (.start r) →
      J' s (ms ++ [P.fresh r]))
    (turn : ∀ s ms i m op e a s', J s ms → J' s ms → ms[i]? = some m → P.may m op →
      M.exec op e s = some (a, s') → ok s ms (.turn i op a) →
      J' s' (ms.set i (P.next m op a) ++ (M.spawned op).toList.map (P.child m)))
    (world : ∀ s ms w s', J s ms → J' s ms → M.world w s = some s' → ok s ms (.world w) →
      J' s' ms)
    (crash : ∀ s ms, J s ms → J' s ms → ok s ms .crash → J' (M.boot s) (M.starts.map P.fresh)) :
    Keeps M P ok fun s ms => J s ms ∧ J' s ms where
  entry := K.entry
  start s ms r h hr hok :=
    ⟨(K.start s ms r h.1 hr hok).1, (K.start s ms r h.1 hr hok).2, start s ms r h.1 h.2 hr hok⟩
  turn s ms i m op e a s' h hm hmay hex hok := by
    obtain ⟨hgives, hchild, hJ⟩ := K.turn s ms i m op e a s' h.1 hm hmay hex hok
    exact ⟨hgives, hchild, hJ, turn s ms i m op e a s' h.1 h.2 hm hmay hex hok⟩
  world s ms w s' h hw hok := ⟨K.world s ms w s' h.1 hw hok, world s ms w s' h.1 h.2 hw hok⟩
  crash s ms h hok :=
    ⟨(K.crash s ms h.1 hok).1, (K.crash s ms h.1 hok).2, crash s ms h.1 h.2 hok⟩

/-- A process of which no thread runs yet. -/
lemma good_idle {s : State} (hJ : J s []) : Good P J ⟨s, []⟩ :=
  ⟨hJ, by simp⟩

/-- What one step keeps. -/
lemma Keeps.step (K : Keeps M P ok J) {c c' : Config Op Ans State Req Mark}
    {e : Event Op Ans World Req} (hc : Good P J c) (h : Step M P.toTracer c e c')
    (hok : ok c.state c.marks e) : Good P J c' := by
  cases h with
  | start r hr =>
    obtain ⟨hready, hJ⟩ := K.start _ _ r hc.inv hr hok
    refine ⟨by simpa [Config.marks, serve] using hJ, fun t ht => ?_⟩
    rcases List.mem_append.mp ht with ht | ht
    · exact hc.keeps t ht
    · obtain rfl := List.mem_singleton.mp ht
      exact K.entry r _ hready
  | turn i op k m env a s ht hs =>
    have hm : c.marks[i]? = some m := by simp [Config.marks, ht]
    have hwp : wp P (.act op k) (Ends P) m := hc.keeps _ (List.mem_of_getElem? ht)
    obtain ⟨hmay, hk⟩ := hwp
    obtain ⟨hgives, hchild, hJ⟩ := K.turn _ _ i m op env a s hc.inv hm hmay hs hok
    constructor
    · have hmarks : (Config.mk s (c.threads.set i ⟨k a, P.next m op a⟩ ++
          children M P.toTracer m op)).marks =
          c.marks.set i (P.next m op a) ++ (M.spawned op).toList.map (P.child m) := by
        simp [Config.marks, children, List.map_set, serve, Function.comp_def]
      rw [hmarks]
      exact hJ
    · intro t ht'
      rcases List.mem_append.mp ht' with ht' | ht'
      · rcases List.mem_or_eq_of_mem_set ht' with ht' | rfl
        · exact hc.keeps t ht'
        · exact hk a hgives
      · obtain ⟨r, hr, rfl⟩ := List.mem_map.mp ht'
        exact K.entry r _ (hchild r (Option.mem_toList.mp hr))
  | jump i r m ht =>
    have hready : P.ready r m := hc.keeps _ (List.mem_of_getElem? ht)
    have hm : c.marks[i]? = some m := by simp [Config.marks, ht]
    constructor
    · have hmarks : (Config.mk c.state (c.threads.set i (serve M r m))).marks = c.marks := by
        simp only [Config.marks, List.map_set, serve]
        exact set_of_getElem? hm
      rw [hmarks]
      exact hc.inv
    · intro t ht'
      rcases List.mem_or_eq_of_mem_set ht' with ht' | rfl
      · exact hc.keeps t ht'
      · exact K.entry r m hready
  | world w s hs => exact ⟨K.world _ _ w s hc.inv hs hok, hc.keeps⟩
  | crash =>
    obtain ⟨hready, hJ⟩ := K.crash _ _ hc.inv hok
    refine ⟨by simpa [Config.marks, restarted, serve, Function.comp_def] using hJ, fun t ht => ?_⟩
    obtain ⟨r, hr, rfl⟩ := List.mem_map.mp ht
    exact K.entry r _ (hready r hr)

/-- **The invariant rule**: a kept invariant holds in every configuration of a run. -/
theorem Keeps.run (K : Keeps M P ok J) {c c' : Config Op Ans State Req Mark}
    {es : List (Event Op Ans World Req)} (hc : Good P J c) (h : Run M P.toTracer ok c es c') :
    Good P J c' := by
  induction h with
  | nil c => exact hc
  | cons hok hstep _ ih => exact ih (K.step hc hstep hok)

/-- **A thread performs only what it may**: the operation of a step is allowed at the thread's
mark. -/
theorem Good.may {c c' : Config Op Ans State Req Mark} {i : Nat} {op : Op} {a : Ans op}
    (hc : Good P J c) (h : Step M P.toTracer c (.turn i op a) c') :
    ∃ m, c.marks[i]? = some m ∧ P.may m op := by
  cases h with
  | turn _ _ k m env _ s ht hs =>
    have hwp : wp P (.act op k) (Ends P) m := hc.keeps _ (List.mem_of_getElem? ht)
    exact ⟨m, by simp [Config.marks, ht], hwp.1⟩

end Keeps

/-! ## Marks that exclude one another -/

section Apart

variable {Mark : Type} {R : Mark → Mark → Prop} {ms : List Mark}

/-- The marks of every two threads are related. -/
def Apart (R : Mark → Mark → Prop) (ms : List Mark) : Prop :=
  ∀ (i j : Nat) (m n : Mark), i ≠ j → ms[i]? = some m → ms[j]? = some n → R m n

/-- One thread's mark moves: it has to stay apart from the others. -/
lemma Apart.set (h : Apart R ms) (hsymm : ∀ m n, R m n → R n m) {i : Nat} {m' : Mark}
    (hnew : ∀ (j : Nat) (n : Mark), j ≠ i → ms[j]? = some n → R m' n) : Apart R (ms.set i m') := by
  intro j k m n hjk hj hk
  rw [List.getElem?_set] at hj hk
  split at hj
  · next hij =>
    split at hk
    · next hik => exact absurd (hij.symm.trans hik) hjk
    · next hik =>
      split at hj
      · cases hj
        exact hnew k n (Ne.symm hik) hk
      · cases hj
  · next hij =>
    split at hk
    · next hik =>
      split at hk
      · cases hk
        exact hsymm _ _ (hnew j m (Ne.symm hij) hj)
      · cases hk
    · exact h j k m n hjk hj hk

/-- A thread is added. -/
lemma Apart.concat (h : Apart R ms) (hsymm : ∀ m n, R m n → R n m) {m' : Mark}
    (hnew : ∀ n ∈ ms, R m' n) : Apart R (ms ++ [m']) := by
  intro j k m n hjk hj hk
  have hlast : ∀ (i : Nat) (x : Mark), (ms ++ [m'])[i]? = some x →
      ms[i]? = some x ∨ i = ms.length ∧ x = m' := by
    intro i x hx
    rw [List.getElem?_append] at hx
    split at hx
    · exact .inl hx
    · next hlt =>
      obtain ⟨h0, rfl⟩ := List.getElem?_eq_some_iff.mp hx
      simp only [List.length_singleton] at h0
      exact .inr ⟨by omega, by simp⟩
  rcases hlast j m hj with hj' | ⟨rfl, rfl⟩ <;> rcases hlast k n hk with hk' | ⟨rfl, rfl⟩
  · exact h j k m n hjk hj' hk'
  · exact hsymm _ _ (hnew m (List.mem_of_getElem? hj'))
  · exact hnew n (List.mem_of_getElem? hk')
  · exact absurd rfl hjk

end Apart

/-! ## Things that one thread has in hand -/

section Exclusive

variable {Mark Token : Type} {f : Mark → List Token} {ms : List Mark}

/-- Every token is in the hands of one thread, once. -/
structure Exclusive (f : Mark → List Token) (ms : List Mark) : Prop where
  nodup : ∀ m ∈ ms, (f m).Nodup
  apart : Apart (fun m n => ∀ t ∈ f m, t ∉ f n) ms

lemma exclusive_nil : Exclusive f [] :=
  ⟨by simp, by simp [Apart]⟩

/-- A token is in the hands of one thread. -/
lemma Exclusive.eq_of_mem (h : Exclusive f ms) {i j : Nat} {m n : Mark} {t : Token}
    (hi : ms[i]? = some m) (hj : ms[j]? = some n) (hm : t ∈ f m) (hn : t ∈ f n) : i = j := by
  by_contra hij
  exact h.apart i j m n hij hi hj t hm hn

/-- A thread lets go of tokens, or takes free ones. -/
lemma Exclusive.set (h : Exclusive f ms) {i : Nat} {m m' : Mark} (hi : ms[i]? = some m)
    (hnodup : (f m').Nodup) (hnew : ∀ t ∈ f m', t ∈ f m ∨ ∀ n ∈ ms, t ∉ f n) :
    Exclusive f (ms.set i m') := by
  constructor
  · intro n hn
    rcases List.mem_or_eq_of_mem_set hn with hn | rfl
    · exact h.nodup n hn
    · exact hnodup
  · refine h.apart.set (fun m n hmn t hn hm => hmn t hm hn) fun j n hj hn t ht htn => ?_
    rcases hnew t ht with hm | hfree
    · exact h.apart i j m n (Ne.symm hj) hi hn t hm htn
    · exact hfree n (List.mem_of_getElem? hn) htn

/-- A thread without tokens is added. -/
lemma Exclusive.concat (h : Exclusive f ms) {m' : Mark} (hnodup : (f m').Nodup)
    (hnew : ∀ t ∈ f m', ∀ n ∈ ms, t ∉ f n) : Exclusive f (ms ++ [m']) := by
  constructor
  · intro n hn
    rcases List.mem_append.mp hn with hn | hn
    · exact h.nodup n hn
    · obtain rfl := List.mem_singleton.mp hn
      exact hnodup
  · exact h.apart.concat (fun m n hmn t hn hm => hmn t hm hn) fun n hn t ht => hnew t ht n hn

/-- A thread hands its first token to one that it starts. -/
lemma Exclusive.hand (h : Exclusive f ms) {i : Nat} {m m' child : Mark} {t : Token}
    (hi : ms[i]? = some m) (hm : f m = t :: f m') (hchild : f child = [t]) :
    Exclusive f (ms.set i m' ++ [child]) := by
  have hnodup : (t :: f m').Nodup := hm ▸ h.nodup m (List.mem_of_getElem? hi)
  have hset : Exclusive f (ms.set i m') := by
    refine h.set hi (List.nodup_cons.mp hnodup).2 fun t' ht' => .inl ?_
    rw [hm]
    exact List.mem_cons_of_mem t ht'
  refine hset.concat (by simp [hchild]) fun t' ht' n hn => ?_
  rw [hchild, List.mem_singleton] at ht'
  subst ht'
  obtain ⟨j, hj⟩ := List.getElem?_of_mem hn
  by_cases hij : i = j
  · subst hij
    obtain ⟨hlt, rfl⟩ := List.getElem?_eq_some_iff.mp hj
    rw [List.getElem_set_self]
    exact (List.nodup_cons.mp hnodup).1
  · rw [List.getElem?_set_ne hij] at hj
    exact h.apart i j m n hij hi hj t' (by simp [hm])

end Exclusive

end Interleave
