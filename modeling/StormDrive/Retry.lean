import Mathlib.Algebra.Ring.Nat
import StormDrive.Text

set_option relaxedAutoImplicit false
set_option autoImplicit false

/-!
# Calls that are tried again

The one helper for every call that leaves the daemon (`retry/src/lib.rs`): a bounded number of
tries, a backoff with jitter between them, and a deadline for the whole.

## Main definitions

* `Retry.Policy`, `Retry.Verdict` — how hard to try, and what is made of one try.
* `Retry.withBackoff` — the loop, over any monad that has a clock, a timer and random numbers.
* `Retry.classifyError`, `Retry.classifyStatus`, `Retry.retryAfter` — the verdict on a request.

## Implementation notes

A `Duration` is its number of nanoseconds, and is less than `2^64` seconds. A call that panics, as
the sum of two durations does when it is out of range, has no value. Logging is left out.
-/

namespace StormDrive

namespace Retry

/-! ## Durations -/

namespace Duration

/-- No duration is as long as this. -/
def limit : ℕ := 2 ^ 64 * 10 ^ 9

def fromSecs (secs : ℕ) : ℕ := secs * 10 ^ 9

def fromMillis (millis : ℕ) : ℕ := millis * 10 ^ 6

/-- The sum, unless it is out of range. -/
def add (a b : ℕ) : Option ℕ := if a + b < limit then some (a + b) else none

/-- The product, or the longest duration. -/
def saturatingMul (a : ℕ) (k : ℕ) : ℕ := min (a * k) (limit - 1)

end Duration

/-! ## Policies and verdicts -/

/-- How hard to try. -/
structure Policy where
  name : String
  /-- Tries in all, the first included. -/
  attempts : ℕ
  /-- The delay after the first failure, before jitter. -/
  base : ℕ
  /-- The longest delay between two tries, before jitter. -/
  maxDelay : ℕ
  /-- The whole operation: no try starts after it. -/
  deadline : ℕ

/-- The engine's ordinary calls. -/
def Policy.engine : Policy :=
  ⟨"engine", 4, Duration.fromMillis 250, Duration.fromSecs 4, Duration.fromSecs 30⟩

/-- The engine's volume placement walk. -/
def Policy.engineSlow : Policy :=
  ⟨"engine-slow", 3, Duration.fromSecs 1, Duration.fromSecs 5, Duration.fromSecs 100⟩

/-- The engine's slab format. -/
def Policy.engineFormat : Policy :=
  ⟨"engine-format", 4, Duration.fromMillis 250, Duration.fromSecs 4, Duration.fromSecs (20 * 60)⟩

/-- The apiserver. -/
def Policy.kube : Policy :=
  ⟨"kube", 3, Duration.fromMillis 200, Duration.fromSecs 2, Duration.fromSecs 20⟩

/-- What the base delay is multiplied by after try `n`. -/
def factor (n : ℕ) : ℕ := if n - 1 < 32 then 2 ^ (n - 1) else 2 ^ 32 - 1

/-- The delay after failed try `n` (1-based), before jitter. -/
def Policy.backoff (p : Policy) (n : ℕ) : ℕ :=
  min (Duration.saturatingMul p.base (factor n)) p.maxDelay

/-- What a try is told about itself: its number, and what is left of the deadline. -/
structure Attempt where
  n : ℕ
  remaining : ℕ

/-- A try's own timeout: `usual`, cut to what is left of the deadline. -/
def Attempt.timeout (a : Attempt) (usual : ℕ) : ℕ :=
  max (min usual a.remaining) (Duration.fromMillis 100)

/-- What the classifier makes of one try. -/
inductive Verdict where
  | ok
  /-- A real answer: final, never retried. -/
  | fail (why : String)
  /-- Transient: try again, not before `after`. -/
  | retry (why : String) (after : Option ℕ)
  deriving DecidableEq

/-- Gave up on a transient failure. -/
structure Infra where
  what : String
  attempts : ℕ
  elapsed : ℕ
  last : String
  deriving DecidableEq

/-- The last try's result, how many tries it took, and why the policy ran out, if it did. -/
structure Tried (R : Type) where
  result : R
  attempts : ℕ
  elapsed : ℕ
  gaveUp : Option Infra

/-! ## The loop -/

/-- Equal jitter: somewhere in `[d/2, d]`. The half is cut to 64 bits, where one more than it may be
out of range. -/
def jitter (random : ℕ) (d : ℕ) : Option ℕ :=
  let half := d / 2
  let span := half % 2 ^ 64
  if span = 0 then some half
  else if span + 1 = 2 ^ 64 then none
  else some (half + random % (span + 1))

/-- The delay after a try: the jittered backoff, and a `Retry-After` is a floor. -/
def delayAfter (jittered : ℕ) (after : Option ℕ) : ℕ :=
  match after with
  | some a => max jittered a
  | none => jittered

/-- What a call needs of its surroundings: how long ago it started, a timer, and random numbers. -/
structure Clock (m : Type → Type) where
  elapsed : m ℕ
  sleep : ℕ → m Unit
  random : m ℕ

section Loop

variable {m : Type → Type} [Monad m] {R : Type}

/-- The loop after `n` tries. It has no value where the program panics. -/
def loop (env : Clock m) (p : Policy) (what : String) (op : Attempt → m R) (classify : R → Verdict)
    (n : ℕ) : m (Option (Tried R)) := do
  let elapsed ← env.elapsed
  let result ← op ⟨n + 1, p.deadline - elapsed⟩
  let elapsed ← env.elapsed
  match classify result with
  | .ok => return some ⟨result, n + 1, elapsed, none⟩
  | .fail _ => return some ⟨result, n + 1, elapsed, none⟩
  | .retry why after =>
    let random ← env.random
    match jitter random (p.backoff (n + 1)) with
    | none => return none
    | some jittered =>
      let delay := delayAfter jittered after
      let gaveUp := Tried.mk result (n + 1) elapsed (some ⟨what, n + 1, elapsed, why⟩)
      if _last : p.attempts ≤ n + 1 then return some gaveUp
      else
        match Duration.add elapsed delay with
        | none => return none
        | some wake =>
          if p.deadline ≤ wake then return some gaveUp
          else
            env.sleep delay
            loop env p what op classify (n + 1)
  termination_by p.attempts - n

/-- Run `op` under the policy; `classify` judges each try. -/
def withBackoff (env : Clock m) (p : Policy) (what : String) (op : Attempt → m R)
    (classify : R → Verdict) : m (Option (Tried R)) :=
  loop env p what op classify 0

end Loop

/-! ## Verdicts on requests -/

/-- Whether a request is safe to send twice. -/
inductive Idempotent where
  | yes
  | no
  deriving DecidableEq

/-- A transport error: what it says of itself. -/
structure TransportError where
  connect : Bool
  timeout : Bool
  request : Bool
  body : Bool
  why : String
  deriving DecidableEq

/-- A transport error: transient or an answer. -/
def classifyError (e : TransportError) (idem : Idempotent) : Verdict :=
  let maybeSent := e.timeout || e.request || e.body
  if e.connect || (idem = .yes && maybeSent) then .retry e.why none
  else if maybeSent then .fail (e.why ++ " (not retried: the write may have been applied)")
  else .fail e.why

/-- An HTTP status: 2xx/3xx ok, 408/5xx transient (idempotent only), 429 transient, other 4xx a real
answer. -/
def classifyStatus (code : ℕ) (retryAfter : Option ℕ) (idem : Idempotent) : Verdict :=
  let http := "HTTP " ++ toString code
  if 200 ≤ code ∧ code ≤ 399 then .ok
  else if code = 429 then .retry http retryAfter
  else if (code = 408 ∨ (500 ≤ code ∧ code ≤ 599)) ∧ idem = .yes then .retry http retryAfter
  else .fail http

/-- `parse::<u64>`. -/
def parseU64 (s : String) : Option ℕ :=
  let digits := match s.toList with
    | '+' :: cs => cs
    | cs => cs
  if digits ≠ [] ∧ digits.all Char.isDigit then
    some (digits.foldl (fun n c => n * 10 + (c.toNat - '0'.toNat)) 0) |>.filter (· < 2 ^ 64)
  else none

/-- `Retry-After` in seconds. -/
def retryAfter (header : Option String) : Option ℕ :=
  (header.bind fun v => parseU64 (Text.trim v)).map Duration.fromSecs

/-- The answer to a request: its status, and its `Retry-After`. -/
structure Response where
  status : ℕ
  retryAfter : Option String
  deriving DecidableEq

/-- A request's error or its answer. -/
def classifyResponse (r : Except TransportError Response) (idem : Idempotent) : Verdict :=
  match r with
  | .ok resp => classifyStatus resp.status (retryAfter resp.retryAfter) idem
  | .error e => classifyError e idem

/-! ## Bounds -/

lemma backoff_le (p : Policy) (n : ℕ) : p.backoff n ≤ p.maxDelay := Nat.min_le_right _ _

/-- The jitter is at least half of the delay, and at most all of it. -/
lemma jitter_bounds {random : ℕ} {d j : ℕ} (jittered : jitter random d = some j) :
    d / 2 ≤ j ∧ j ≤ d := by
  rw [jitter] at jittered
  split_ifs at jittered with zero full
  · obtain rfl := Option.some.inj jittered
    exact ⟨Nat.le_refl _, Nat.div_le_self d 2⟩
  · obtain rfl := Option.some.inj jittered
    refine ⟨Nat.le_add_right _ _, ?_⟩
    have cut : d / 2 % 2 ^ 64 ≤ d / 2 := Nat.mod_le _ _
    have drawn : random % (d / 2 % 2 ^ 64 + 1) < d / 2 % 2 ^ 64 + 1 :=
      Nat.mod_lt _ (Nat.succ_pos _)
    calc d / 2 + random % (d / 2 % 2 ^ 64 + 1)
        ≤ d / 2 + d / 2 := Nat.add_le_add_left (Nat.le_trans (Nat.le_of_lt_succ drawn) cut) _
      _ = d / 2 * 2 := (Nat.mul_two _).symm
      _ ≤ d := Nat.div_mul_le_self d 2

/-- Every number of seconds that a header can give is a duration. -/
lemma retryAfter_lt {header : Option String} {d : ℕ} (given : retryAfter header = some d) :
    d < Duration.limit := by
  rw [retryAfter, Option.map_eq_some_iff] at given
  obtain ⟨secs, parsed, rfl⟩ := given
  obtain ⟨v, -, parsed⟩ := Option.bind_eq_some_iff.mp parsed
  have small : secs < 2 ^ 64 := by
    rw [parseU64] at parsed
    split_ifs at parsed with digits
    rw [Option.filter_eq_some_iff] at parsed
    exact of_decide_eq_true parsed.2
  exact Nat.mul_lt_mul_of_pos_right small (by decide)

end Retry

end StormDrive
