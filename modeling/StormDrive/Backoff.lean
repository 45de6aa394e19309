import Mathlib.Data.List.Chain
import StormDrive.Retry

set_option relaxedAutoImplicit false
set_option autoImplicit false

/-!
# How long a call can take

The retry loop under a clock: tries that take their time, a timer that is never early, and a peer
that answers as it likes (`retry/src/lib.rs`).

## Main definitions

* `Retry.Try` — what the peer, the timer and the random numbers do around one try.
* `Retry.call` — a call, with its tries.
* `Retry.Bounded` — what is asked of a call.
* `Retry.Fits` — a try after which nothing is out of range.

## Main results

* `Retry.bounded_iff` — **a call is bounded exactly when there is time for it at first, and no sum
  of durations is out of range and no timer late past the deadline after a try**.
* `Retry.bounded_of_moderate` — a call is bounded with an exact timer, a policy with sane delays, and
  servers that ask for sane waits.
* `Retry.long_wait_panics` — a server that asks for the longest wait ends the program.

## Implementation notes

A try ends when it is done, or when its own timeout is over. The timer may be late.
-/

namespace StormDrive

namespace Retry

/-- What the peer, the timer and the random numbers do around one try: how long the try takes
uncut, what is made of it, the random number after it, and how late the timer is. -/
structure Try where
  wants : ℕ
  verdict : Verdict
  random : ℕ
  late : ℕ

/-- A try that was made: its number, when it started and ended, and the verdict. -/
structure Made where
  n : ℕ
  start : ℕ
  done : ℕ
  verdict : Verdict

/-- The time since the call started, and the tries so far, the last one first. -/
structure World where
  now : ℕ
  made : List Made

section Calls

variable (p : Policy) (what : String) (usual : ℕ) (peer : ℕ → Try)

/-- A clock, a timer that is as late as it likes, and any random numbers. -/
def env : Clock (StateM World) where
  elapsed w := (w.now, w)
  sleep d w := ((), { w with now := w.now + d + (peer w.made.length).late })
  random w := ((peer w.made.length).random, w)

/-- When a try is over that starts at `start`. -/
def doneAt (n : ℕ) (start : ℕ) : ℕ :=
  start + min (peer n).wants (Attempt.timeout ⟨n, p.deadline - start⟩ usual)

/-- One try. -/
def attempt (a : Attempt) : StateM World Verdict := fun w =>
  let t := peer a.n
  let done := w.now + min t.wants (a.timeout usual)
  (t.verdict, ⟨done, ⟨a.n, w.now, done, t.verdict⟩ :: w.made⟩)

/-- **A call under a clock**: how it ends, and its tries. -/
def call : Option (Tried Verdict) × World :=
  withBackoff (env peer) p what (attempt usual peer) id ⟨0, []⟩

/-! ## What is asked of a call -/

/-- A try after which another starts at `start` failed transiently, and in between the call waited
as long as it was asked to, or about as long as the policy says. -/
def Waits (start : ℕ) (m : Made) : Prop :=
  ∃ why after d, m.verdict = .retry why after ∧ start = m.done + d + (peer m.n).late ∧
    (∀ a, after = some a → a ≤ d) ∧
    (after = none → p.backoff m.n / 2 ≤ d ∧ d ≤ p.backoff m.n)

/-- **A call is bounded**: it ends without a panic and after as many tries as there may be, starts
none at the deadline or after it, is over soon after the deadline, repeats no try but one that
failed transiently, waits in between, and gives up when the last try failed transiently. -/
structure Bounded (r : Option (Tried Verdict) × World) : Prop where
  returns : r.1.isSome
  tries : r.2.made.length ≤ p.attempts
  starts : ∀ m ∈ r.2.made, m.start < p.deadline
  ends : r.2.now ≤ p.deadline + Duration.fromMillis 100
  waits : r.2.made.IsChain fun later m => Waits p peer later.start m
  gaveUp : ∀ t, r.1 = some t →
    (t.gaveUp.isSome ↔ ∃ m ∈ r.2.made.head?, ∃ why after, m.verdict = .retry why after)

/-- **Nothing is out of range after try `n + 1`**, which starts at `start`: the jitter has a value,
and if there may be another try, the end of the wait has one, and the timer is not late past the
deadline. -/
def Fits (n : ℕ) (start : ℕ) : Prop :=
  ∀ why after, (peer (n + 1)).verdict = .retry why after →
    ∃ j, jitter (peer (n + 1)).random (p.backoff (n + 1)) = some j ∧
      (n + 1 < p.attempts →
        doneAt p usual peer (n + 1) start + delayAfter j after < Duration.limit ∧
        (doneAt p usual peer (n + 1) start + delayAfter j after < p.deadline →
          doneAt p usual peer (n + 1) start + delayAfter j after + (peer (n + 1)).late <
            p.deadline))

/-- Try `n + 1` is made, and starts then: the first one at once, another one after a transient
failure, when there are tries left and the wait is over before the deadline. -/
inductive Begins : ℕ → ℕ → Prop
  | first : Begins 0 0
  | again {n : ℕ} {start : ℕ} {why : String} {after : Option ℕ} {j wake : ℕ} :
      Begins n start → (peer (n + 1)).verdict = .retry why after →
      jitter (peer (n + 1)).random (p.backoff (n + 1)) = some j → n + 1 < p.attempts →
      Duration.add (doneAt p usual peer (n + 1) start) (delayAfter j after) = some wake →
      wake < p.deadline → Begins (n + 1) (wake + (peer (n + 1)).late)

/-! ## One turn of the loop -/

/-- The world after a try. -/
def tried (n : ℕ) (w : World) : World :=
  ⟨doneAt p usual peer (n + 1) w.now,
    ⟨n + 1, w.now, doneAt p usual peer (n + 1) w.now, (peer (n + 1)).verdict⟩ :: w.made⟩

/-- The loop from a world with some tries. -/
def run (n : ℕ) (w : World) : Option (Tried Verdict) × World :=
  loop (env peer) p what (attempt usual peer) id n w

/-- How a call ends with its last try. -/
def finish (n : ℕ) (w : World) (gaveUp : Option Infra) : Option (Tried Verdict) × World :=
  (some ⟨(peer (n + 1)).verdict, n + 1, (tried p usual peer n w).now, gaveUp⟩,
    tried p usual peer n w)

variable {p what usual peer} {n : ℕ} {w : World}

/-- What one turn of the loop comes to: the call ends with this try, or panics, or goes on after a
wait. -/
inductive Turn (p : Policy) (what : String) (usual : ℕ) (peer : ℕ → Try) (n : ℕ) (w : World) :
    Option (Tried Verdict) × World → Prop
  | ends (gaveUp : Option Infra) :
      (gaveUp.isSome ↔ ∃ why after, (peer (n + 1)).verdict = .retry why after) →
      Turn p what usual peer n w (finish p usual peer n w gaveUp)
  | panics (why : String) (after : Option ℕ) :
      (peer (n + 1)).verdict = .retry why after →
      (∀ j, jitter (peer (n + 1)).random (p.backoff (n + 1)) = some j → n + 1 < p.attempts ∧
        Duration.limit ≤ doneAt p usual peer (n + 1) w.now + delayAfter j after) →
      Turn p what usual peer n w (none, tried p usual peer n w)
  | again (why : String) (after : Option ℕ) (j wake : ℕ) :
      (peer (n + 1)).verdict = .retry why after →
      jitter (peer (n + 1)).random (p.backoff (n + 1)) = some j → n + 1 < p.attempts →
      Duration.add (doneAt p usual peer (n + 1) w.now) (delayAfter j after) = some wake →
      wake < p.deadline →
      Turn p what usual peer n w (run p what usual peer (n + 1)
        ⟨wake + (peer (n + 1)).late, (tried p usual peer n w).made⟩)

/-- The sum that is in range. -/
lemma add_eq_some {a b c : ℕ} : Duration.add a b = some c ↔ a + b < Duration.limit ∧ c = a + b := by
  rw [Duration.add]
  split_ifs with fits
  · rw [Option.some.injEq, eq_comm]
    exact ⟨fun h => ⟨fits, h⟩, fun h => h.2⟩
  · exact ⟨nofun, fun h => absurd h.1 fits⟩

lemma add_eq_none {a b : ℕ} : Duration.add a b = none ↔ Duration.limit ≤ a + b := by
  rw [Duration.add]
  split_ifs with fits
  · exact ⟨nofun, fun h => absurd fits (Nat.not_lt_of_le h)⟩
  · exact ⟨fun _ => Nat.le_of_not_lt fits, fun _ => rfl⟩

/-- A turn of the loop after a transient failure. -/
lemma run_retry (len : w.made.length = n) {why : String} {after : Option ℕ}
    (verdict : (peer (n + 1)).verdict = .retry why after) :
    run p what usual peer n w =
      match jitter (peer (n + 1)).random (p.backoff (n + 1)) with
      | none => (none, tried p usual peer n w)
      | some j =>
        if p.attempts ≤ n + 1 then finish p usual peer n w
          (some ⟨what, n + 1, doneAt p usual peer (n + 1) w.now, why⟩)
        else
          match Duration.add (doneAt p usual peer (n + 1) w.now) (delayAfter j after) with
          | none => (none, tried p usual peer n w)
          | some wake =>
            if p.deadline ≤ wake then finish p usual peer n w
              (some ⟨what, n + 1, doneAt p usual peer (n + 1) w.now, why⟩)
            else run p what usual peer (n + 1)
              ⟨doneAt p usual peer (n + 1) w.now + delayAfter j after + (peer (n + 1)).late,
                (tried p usual peer n w).made⟩ := by
  rw [run, loop]
  simp only [bind, StateT.bind, env, attempt, id, List.length_cons, len, finish, tried, doneAt,
    verdict]
  cases jitter (peer (n + 1)).random (p.backoff (n + 1)) with
  | none => rfl
  | some j =>
    dsimp only
    split_ifs with last
    · rfl
    · generalize Duration.add _ (delayAfter j after) = sum
      cases sum with
      | none => rfl
      | some wake =>
        dsimp only
        split_ifs with late
        · rfl
        · rw [run, ← len]
          rfl

/-- **The turns of the loop**. -/
lemma run_turn (len : w.made.length = n) :
    Turn p what usual peer n w (run p what usual peer n w) := by
  cases verdict : (peer (n + 1)).verdict with
  | ok =>
    have ended : run p what usual peer n w = finish p usual peer n w none := by
      rw [run, loop]
      simp only [bind, StateT.bind, env, attempt, verdict, finish, tried, doneAt]
      rfl
    rw [ended]
    exact .ends none (by simp [verdict])
  | fail why =>
    have ended : run p what usual peer n w = finish p usual peer n w none := by
      rw [run, loop]
      simp only [bind, StateT.bind, env, attempt, verdict, finish, tried, doneAt]
      rfl
    rw [ended]
    exact .ends none (by simp [verdict])
  | retry why after =>
    rw [run_retry len verdict]
    have failed : ∃ why after, (peer (n + 1)).verdict = .retry why after := ⟨why, after, verdict⟩
    split
    · rename_i none_
      exact .panics why after verdict fun j some_ => absurd (none_.symm.trans some_) (by simp)
    · rename_i j jittered
      split_ifs with last
      · exact .ends _ ⟨fun _ => failed, fun _ => rfl⟩
      · split
        · rename_i out
          refine .panics why after verdict fun j' jittered' => ?_
          obtain rfl := Option.some.inj (jittered.symm.trans jittered')
          exact ⟨Nat.lt_of_not_le last, add_eq_none.mp out⟩
        · rename_i wake within
          split_ifs with late
          · exact .ends _ ⟨fun _ => failed, fun _ => rfl⟩
          · have sum := (add_eq_some.mp within).2
            rw [← sum]
            exact .again why after j wake verdict jittered (Nat.lt_of_not_le last) within
              (Nat.lt_of_not_le late)

/-! ## Whole calls -/

/-- The loop is under way: the tries so far were made as they should, and the next one starts in
time. -/
structure Inv (p : Policy) (usual : ℕ) (peer : ℕ → Try) (n : ℕ) (w : World) : Prop where
  len : w.made.length = n
  left : n < p.attempts
  begins : Begins p usual peer n w.now
  early : w.now < p.deadline
  starts : ∀ m ∈ w.made, m.start < p.deadline
  waits : w.made.IsChain fun later m => Waits p peer later.start m
  next : ∀ m ∈ w.made.head?, Waits p peer w.now m

/-- A try that starts in time is over soon after the deadline. -/
lemma doneAt_le (early : w.now < p.deadline) :
    doneAt p usual peer n w.now ≤ p.deadline + Duration.fromMillis 100 := by
  have cut : min (peer n).wants (Attempt.timeout ⟨n, p.deadline - w.now⟩ usual) ≤
      max (min usual (p.deadline - w.now)) (Duration.fromMillis 100) := Nat.min_le_right _ _
  have left : min usual (p.deadline - w.now) ≤ p.deadline - w.now := Nat.min_le_right _ _
  rw [doneAt]
  omega

/-- The tries up to one that starts in time. -/
lemma Inv.tried (h : Inv p usual peer n w) :
    (∀ m ∈ (tried p usual peer n w).made, m.start < p.deadline) ∧
      (tried p usual peer n w).made.IsChain fun later m => Waits p peer later.start m :=
  ⟨List.forall_mem_cons.mpr ⟨h.early, h.starts⟩, List.isChain_cons.mpr ⟨h.next, h.waits⟩⟩

/-- A call that ends with a try is bounded. -/
lemma Inv.ends (h : Inv p usual peer n w) {gaveUp : Option Infra}
    (failed : gaveUp.isSome ↔ ∃ why after, (peer (n + 1)).verdict = .retry why after) :
    Bounded p peer (finish p usual peer n w gaveUp) where
  returns := rfl
  tries := by
    show w.made.length + 1 ≤ p.attempts
    rw [h.len]
    exact h.left
  starts := h.tried.1
  ends := doneAt_le h.early
  waits := h.tried.2
  gaveUp := by
    rintro t ended
    obtain rfl := Option.some.inj ended
    rw [failed]
    constructor
    · exact fun ⟨why, after, verdict⟩ => ⟨_, rfl, why, after, verdict⟩
    · rintro ⟨m, last, why, after, verdict⟩
      obtain rfl := Option.some.inj last
      exact ⟨why, after, verdict⟩

/-- What the loop waits is what it was asked to, or what the policy says. -/
lemma delayAfter_bounds {j : ℕ} {after : Option ℕ} {random : ℕ}
    (jittered : jitter random (p.backoff n) = some j) :
    (∀ a, after = some a → a ≤ delayAfter j after) ∧
      (after = none → p.backoff n / 2 ≤ delayAfter j after ∧ delayAfter j after ≤ p.backoff n) := by
  constructor
  · rintro a rfl
    exact Nat.le_max_right _ _
  · rintro rfl
    exact jitter_bounds jittered

/-- **Another turn keeps the invariant**. -/
lemma Inv.again (h : Inv p usual peer n w) {why : String} {after : Option ℕ}
    {j wake : ℕ} (verdict : (peer (n + 1)).verdict = .retry why after)
    (jittered : jitter (peer (n + 1)).random (p.backoff (n + 1)) = some j)
    (left : n + 1 < p.attempts)
    (sum : Duration.add (doneAt p usual peer (n + 1) w.now) (delayAfter j after) = some wake)
    (early : wake < p.deadline) (fits : Fits p usual peer n w.now) :
    Inv p usual peer (n + 1) ⟨wake + (peer (n + 1)).late, (Retry.tried p usual peer n w).made⟩ := by
  obtain ⟨j', jittered', after_⟩ := fits why after verdict
  obtain rfl := Option.some.inj (jittered.symm.trans jittered')
  have woken := (add_eq_some.mp sum).2
  refine ⟨congrArg (· + 1) h.len, left, h.begins.again verdict jittered left sum early, ?_,
    h.tried.1, h.tried.2, ?_⟩
  · have inTime := (after_ left).2
    rw [← woken] at inTime
    exact inTime early
  · intro m last
    obtain rfl := Option.some.inj last
    exact ⟨why, after, delayAfter j after, verdict, by rw [woken], delayAfter_bounds jittered⟩

/-- **A loop under way ends as it should**, where nothing is out of range after any try. -/
lemma bounded_run (h : Inv p usual peer n w)
    (fits : ∀ n start, Begins p usual peer n start → Fits p usual peer n start) :
    Bounded p peer (run p what usual peer n w) := by
  induction tries : p.attempts - n using Nat.strong_induction_on generalizing n w with
  | _ k ih =>
    have turn : Turn p what usual peer n w (run p what usual peer n w) := run_turn h.len
    generalize run p what usual peer n w = r at turn
    cases turn with
    | ends gaveUp failed => exact h.ends failed
    | panics why after verdict out =>
      obtain ⟨j, jittered, after_⟩ := fits n w.now h.begins why after verdict
      obtain ⟨left, beyond⟩ := out j jittered
      exact absurd (after_ left).1 (Nat.not_lt_of_le beyond)
    | again why after j wake verdict jittered left sum early =>
      exact ih (p.attempts - (n + 1)) (by omega)
        (h.again verdict jittered left sum early (fits n w.now h.begins)) rfl

/-- Every try is among those of the call, with its start. -/
lemma starts_run (len : w.made.length = n) {start : ℕ}
    (mem : start = w.now ∨ ∃ m ∈ w.made, m.start = start) :
    ∃ m ∈ (run p what usual peer n w).2.made, m.start = start := by
  have here : ∃ m ∈ (tried p usual peer n w).made, m.start = start := by
    obtain rfl | ⟨m, there, same⟩ := mem
    · exact ⟨_, List.mem_cons_self, rfl⟩
    · exact ⟨m, List.mem_cons_of_mem _ there, same⟩
  induction tries : p.attempts - n using Nat.strong_induction_on generalizing n w with
  | _ k ih =>
    have turn : Turn p what usual peer n w (run p what usual peer n w) := run_turn len
    generalize run p what usual peer n w = r at turn
    cases turn with
    | ends gaveUp failed => exact here
    | panics why after verdict out => exact here
    | again why after j wake verdict jittered left sum early =>
      obtain ⟨m, there, same⟩ := here
      exact ih (p.attempts - (n + 1)) (by omega) (congrArg (· + 1) len) (.inr ⟨m, there, same⟩)
        ⟨m, List.mem_cons_of_mem _ there, same⟩ rfl

variable (what) in
/-- A try that begins is made by the call. -/
lemma begins_run {start : ℕ} (begins : Begins p usual peer n start) :
    ∃ w, w.now = start ∧ w.made.length = n ∧
      call p what usual peer = run p what usual peer n w := by
  induction begins with
  | first => exact ⟨⟨0, []⟩, rfl, rfl, rfl⟩
  | @again n start why after j wake begins verdict jittered left sum early ih =>
    obtain ⟨w, rfl, len, same⟩ := ih
    refine ⟨⟨wake + (peer (n + 1)).late, (tried p usual peer n w).made⟩, rfl,
      congrArg (· + 1) len, ?_⟩
    rw [same, run_retry len verdict, jittered]
    dsimp only
    rw [if_neg (Nat.not_le_of_lt left), sum]
    dsimp only
    rw [if_neg (Nat.not_le_of_lt early), (add_eq_some.mp sum).2]

/-- **A call is bounded exactly when there is time for it at first, and after no try a sum of
durations is out of range or the timer late past the deadline**.

**Proof sketch.** Follow the loop. As long as nothing is out of range, every try starts in time, for
the loop goes on only when the wait is over before the deadline; and each turn leaves fewer tries. A
try that begins is made, so that a start at the deadline shows, and after it the program panics as
soon as something is out of range. -/
theorem bounded_iff (p : Policy) (what : String) (usual : ℕ) (peer : ℕ → Try)
    (some_try : 0 < p.attempts) :
    Bounded p peer (call p what usual peer) ↔
      0 < p.deadline ∧ ∀ n start, Begins p usual peer n start → Fits p usual peer n start := by
  constructor
  · intro bounded
    have inTime : ∀ {n start}, Begins p usual peer n start → start < p.deadline := by
      intro n start begins
      obtain ⟨w, rfl, len, same⟩ := begins_run what begins
      have made : ∃ m ∈ (run p what usual peer n w).2.made, m.start = w.now :=
        starts_run len (.inl rfl)
      obtain ⟨m, mem, start⟩ := made
      rw [← start]
      exact bounded.starts m (same ▸ mem)
    refine ⟨inTime .first, fun n start begins why after verdict => ?_⟩
    obtain ⟨w, rfl, len, same⟩ := begins_run what begins
    have returns := bounded.returns
    rw [same, run_retry len verdict] at returns
    cases jittered : jitter (peer (n + 1)).random (p.backoff (n + 1)) with
    | none => rw [jittered] at returns; exact absurd returns Bool.false_ne_true
    | some j =>
      refine ⟨j, rfl, fun left => ?_⟩
      rw [jittered] at returns
      dsimp only at returns
      rw [if_neg (Nat.not_le_of_lt left)] at returns
      cases sum : Duration.add (doneAt p usual peer (n + 1) w.now) (delayAfter j after) with
      | none => rw [sum] at returns; exact absurd returns Bool.false_ne_true
      | some wake =>
        obtain ⟨within, woken⟩ := add_eq_some.mp sum
        refine ⟨within, fun early => ?_⟩
        rw [← woken] at early ⊢
        exact inTime (begins.again verdict jittered left sum early)
  · rintro ⟨time, fits⟩
    exact bounded_run ⟨rfl, some_try, .first, time, fun _ mem => absurd mem List.not_mem_nil,
      List.isChain_nil, fun _ none_ => absurd none_ nofun⟩ fits

/-! ## Peers that ask for moderate waits -/

/-- Half of less than `2^64` nanoseconds has a jitter. -/
lemma jitter_of_lt {random d : ℕ} (short : d < 2 ^ 64) : ∃ j, jitter random d = some j := by
  rw [jitter]
  split_ifs with zero full
  · exact ⟨_, rfl⟩
  · omega
  · exact ⟨_, rfl⟩

/-- With an exact timer every try begins in time. -/
lemma Begins.early (time : 0 < p.deadline) (exact_ : ∀ n, (peer n).late = 0) {start : ℕ}
    (begins : Begins p usual peer n start) : start < p.deadline := by
  cases begins with
  | first => exact time
  | again begins verdict jittered left sum early =>
    rw [exact_, Nat.add_zero]
    exact early

/-- **A call is bounded when the timer is exact, the policy's delays and its deadline are sane, and
no server asks for a wait of more than `2^63` seconds**. -/
theorem bounded_of_moderate (some_try : 0 < p.attempts) (time : 0 < p.deadline)
    (short : p.maxDelay < 2 ^ 64) (room : p.deadline ≤ 2 ^ 62 * 10 ^ 9)
    (exact_ : ∀ n, (peer n).late = 0)
    (moderate : ∀ n why a, (peer n).verdict = .retry why (some a) → a ≤ 2 ^ 63 * 10 ^ 9) :
    Bounded p peer (call p what usual peer) := by
  refine bounded_run ⟨rfl, some_try, .first, time, fun _ mem => absurd mem List.not_mem_nil,
    List.isChain_nil, fun _ none_ => absurd none_ nofun⟩ fun n start begins why after verdict => ?_
  obtain ⟨j, jittered⟩ : ∃ j, jitter (peer (n + 1)).random (p.backoff (n + 1)) = some j :=
    jitter_of_lt (Nat.lt_of_le_of_lt (backoff_le p _) short)
  have small : j < 2 ^ 64 := Nat.lt_of_le_of_lt (jitter_bounds jittered).2
    (Nat.lt_of_le_of_lt (backoff_le p _) short)
  have wait : delayAfter j after ≤ 2 ^ 63 * 10 ^ 9 := by
    cases after with
    | none =>
      rw [delayAfter]
      omega
    | some a =>
      have asked := moderate (n + 1) why a verdict
      rw [delayAfter]
      omega
  have late : doneAt p usual peer (n + 1) start ≤ p.deadline + Duration.fromMillis 100 :=
    doneAt_le (w := ⟨start, []⟩) (begins.early time exact_)
  rw [Duration.fromMillis] at late
  refine ⟨j, jittered, fun _ => ⟨?_, fun early => ?_⟩⟩
  · rw [Duration.limit]
    omega
  · rw [exact_, Nat.add_zero]
    exact early

end Calls

/-- A peer that answers at once. -/
def prompt : ℕ → Try := fun _ => ⟨10 ^ 6, .ok, 0, 0⟩

/-- A call of the engine that is answered at once is bounded. -/
theorem prompt_bounded : 0 < Policy.engine.attempts ∧
    Bounded .engine prompt (call .engine "stormblock" (Duration.fromSecs 5) prompt) :=
  ⟨by decide, (bounded_iff .engine _ _ prompt (by decide)).mpr
    ⟨by decide, fun _ _ _ _ _ verdict => nomatch verdict⟩⟩

/-- A peer that, after a second, is too busy for as long as a header can say. -/
def busy : ℕ → Try := fun _ =>
  ⟨10 ^ 9, .retry "HTTP 429" (retryAfter (some "18446744073709551615")), 0, 0⟩

/-- **A server that asks for the longest wait ends the program**: the sum of the time so far and of
the wait is out of range. -/
theorem long_wait_panics :
    ¬ Bounded .engine busy (call .engine "stormblock" (Duration.fromSecs 5) busy) := by
  intro bounded
  have longest : retryAfter (some "18446744073709551615") =
      some (Duration.fromSecs (2 ^ 64 - 1)) := by
    decide +kernel
  have verdict : (busy (0 + 1)).verdict =
      .retry "HTTP 429" (some (Duration.fromSecs (2 ^ 64 - 1))) :=
    congrArg (Verdict.retry "HTTP 429") longest
  have jittered : jitter (busy (0 + 1)).random (Policy.engine.backoff (0 + 1)) =
      some 125000000 := by
    decide
  have out : Duration.add (doneAt .engine (Duration.fromSecs 5) busy (0 + 1) 0)
      (delayAfter 125000000 (some (Duration.fromSecs (2 ^ 64 - 1)))) = none := by
    decide
  have panics : run .engine "stormblock" (Duration.fromSecs 5) busy 0 ⟨0, []⟩ =
      (none, tried .engine (Duration.fromSecs 5) busy 0 ⟨0, []⟩) := by
    rw [run_retry (n := 0) (w := ⟨0, []⟩) rfl verdict, jittered]
    dsimp only
    rw [if_neg (by decide), out]
  have first : call .engine "stormblock" (Duration.fromSecs 5) busy =
      run .engine "stormblock" (Duration.fromSecs 5) busy 0 ⟨0, []⟩ := rfl
  have returns := bounded.returns
  rw [first, panics] at returns
  exact Bool.false_ne_true returns

end Retry

end StormDrive
