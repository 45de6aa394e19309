import StormDrive.Interleave.Trace
import StormDrive.Retry

set_option relaxedAutoImplicit false
set_option autoImplicit false

/-!
# Calls of the engine

How a request goes out to the engine: with one credential after another, and again after a
transient failure (`stormblock.rs`).

## Main definitions

* `StormBlock.sendAdminOnce`, `StormBlock.sendOnce` — one try of a call, with its credentials.
* `StormBlock.call` — a call: the tries under a policy.
* `StormBlock.deleteDrive` — closing a drive.
* `StormBlock.Safe` — what is asked of the requests that go out.

## Main results

* `StormBlock.safe_iff` — **nothing that may have been applied is sent again unless it may be, and
  a close that says that it worked did, exactly when no absent drive is found after tries that did
  not reach the engine**.
* `StormBlock.never_closed` — an absent drive counts as closed after a refused connection.

## Implementation notes

The clock, the timer, the token files and the engine are operations, whose answers are free. Which
URL is asked, and with which body, does not change between the sends of a call, and is left out. A
request can always be cloned, as its body is JSON or none.
-/

namespace StormDrive

namespace StormBlock

open Interleave Retry

/-! ## One try -/

/-- What a call asks of its surroundings. -/
inductive Op where
  | elapsed
  | sleep (d : ℕ)
  | random
  | adminToken
  | kubeToken
  | cachedToken
  | reloadToken
  | send (bearer : Option String) (timeout : ℕ)

/-- What comes of sending a request. -/
abbrev Outcome : Type := Except TransportError Response

abbrev Ans : Op → Type
  | .elapsed => ℕ
  | .sleep _ => Unit
  | .random => ℕ
  | .adminToken => Option String
  | .kubeToken => Option String
  | .cachedToken => Option String
  | .reloadToken => Option String
  | .send _ _ => Outcome

abbrev Io : Type → Type := Prog Op Ans

/-- The clock, the timer and the random numbers of a call. -/
def env : Clock Io where
  elapsed := Prog.op Op.elapsed
  sleep d := Prog.op (Op.sleep d)
  random := Prog.op Op.random

/-- The request goes out. -/
def send (bearer : Option String) (timeout : ℕ) : Io Outcome := Prog.op (Op.send bearer timeout)

def readAdminToken : Io (Option String) := Prog.op Op.adminToken

def readKubeToken : Io (Option String) := Prog.op Op.kubeToken

def cachedToken : Io (Option String) := Prog.op Op.cachedToken

def reloadToken : Io (Option String) := Prog.op Op.reloadToken

/-- The node token for an ordinary call. -/
def bearer : Io (Option String) := do
  match ← cachedToken with
  | some t => return some t
  | none => reloadToken

/-- One more credential, unless there is none or it is there already. -/
def push (out : List (String × String)) (who : String) : Option String → List (String × String)
  | none => out
  | some t => if out.any fun have_ => have_.2 = t then out else out ++ [(who, t)]

/-- What a destructive call presents, in order. -/
def adminBearers : Io (List (String × String)) := do
  let admin ← readAdminToken
  let kube ← readKubeToken
  let node ← bearer
  return push (push (push [] "admin token" admin) "kubernetes bearer" kube) "node token" node

/-- A status that refuses the credential. -/
def refuses (status : ℕ) : Bool := status = 401 || status = 403

/-- Each credential in turn until one is not refused; `last` is the last refusal. -/
def cascade (timeout : ℕ) : List (String × String) → Option Response → Io Outcome
  | [], some last => return .ok last
  | [], none => send none timeout
  | (_, t) :: rest, _ => do
    match ← send (some t) timeout with
    | .error e => return .error e
    | .ok resp => if refuses resp.status then cascade timeout rest (some resp) else return .ok resp

/-- A destructive verb, one try. -/
def sendAdminOnce (timeout : ℕ) : Io Outcome := do
  cascade timeout (← adminBearers) none

/-- An ordinary engine call, one try. A 401 re-reads the token and, when it changed, sends again. -/
def sendOnce (timeout : ℕ) : Io Outcome := do
  let used ← bearer
  match ← send used timeout with
  | .error e => return .error e
  | .ok resp =>
    if resp.status ≠ 401 then return .ok resp
    else
      let fresh ← reloadToken
      if fresh.isSome ∧ fresh ≠ used then send fresh timeout else return .ok resp

/-! ## Calls -/

/-- Which credentials and policy an engine call uses. -/
inductive Call where
  | ordinary
  | admin
  | slow
  | format

def Call.policy : Call → Policy × ℕ
  | .ordinary => (.engine, Duration.fromSecs 5)
  | .admin => (.engine, Duration.fromSecs 5)
  | .slow => (.engineSlow, Duration.fromSecs 30)
  | .format => (.engineFormat, Duration.fromSecs (15 * 60))

def Call.once : Call → ℕ → Io Outcome
  | .admin => sendAdminOnce
  | .format => sendAdminOnce
  | .ordinary => sendOnce
  | .slow => sendOnce

/-- Why a call has no answer. -/
inductive CallError where
  | panicked
  | infra (i : Infra)
  | transport (e : TransportError)
  | status (code : ℕ)

/-- Every engine call goes through here. The answer, and the number of tries it took. -/
def call (how : Call) (what : String) (idem : Idempotent) :
    Io (Except CallError (Response × ℕ)) := do
  let (policy, usual) := how.policy
  let tried ← withBackoff env policy what (fun a => how.once (a.timeout usual))
    fun r => classifyResponse r idem
  match tried with
  | none => return .error .panicked
  | some t =>
    match t.gaveUp, t.result with
    | some infra, _ => return .error (.infra infra)
    | none, .error e => return .error (.transport e)
    | none, .ok resp => return .ok (resp, t.attempts)

/-- The response, unless its status is an error. -/
def errorForStatus (resp : Response) : Except CallError Response :=
  if 400 ≤ resp.status ∧ resp.status ≤ 599 then .error (.status resp.status) else .ok resp

/-- Whether a drive is closed. Closing a closed drive is a 404, and a 404 after more than one try
means that an earlier one closed it. -/
def closedBy : Except CallError (Response × ℕ) → Except CallError Unit
  | .error e => .error e
  | .ok (resp, tries) =>
    if resp.status = 404 ∧ 1 < tries then .ok ()
    else (errorForStatus resp).map fun _ => ()

/-- Close a drive. -/
def deleteDrive (what : String) : Io (Except CallError Unit) := do
  return closedBy (← call .admin what .yes)

/-! ## What goes out -/

/-- What came of the requests that were sent, in order. -/
def sends : List (Σ o, Ans o) → List Outcome :=
  List.filterMap fun
    | ⟨.send _ _, outcome⟩ => some outcome
    | _ => none

/-- The credential was refused. -/
def Refused : Outcome → Prop
  | .ok resp => refuses resp.status
  | .error _ => False

/-- The engine may have applied the request: it is not so that no connection was made, that the
credential was refused or that there were too many requests. -/
def MayApply : Outcome → Prop
  | .ok resp => ¬ refuses resp.status ∧ resp.status ≠ 429
  | .error e => e.connect = false

/-- The failure is transient. -/
def Retryable (idem : Idempotent) (o : Outcome) : Prop :=
  ∃ why after, classifyResponse o idem = .retry why after

/-- Every request that is sent again was refused, or failed transiently. -/
def RepeatsOnly (idem : Idempotent) (outcomes : List Outcome) : Prop :=
  ∀ o ∈ outcomes.dropLast, Refused o ∨ Retryable idem o

/-- No request that may have been applied is sent again. -/
def AtMostOnce (outcomes : List Outcome) : Prop := ∀ o ∈ outcomes.dropLast, ¬ MayApply o

/-- The engine answered with success, or it knows no such drive after an earlier request that may
have closed it. -/
def Closed (outcomes : List Outcome) : Prop :=
  ∃ resp, outcomes.getLast? = some (.ok resp) ∧
    ((200 ≤ resp.status ∧ resp.status ≤ 399) ∨
      resp.status = 404 ∧ ∃ o ∈ outcomes.dropLast, MayApply o)

/-- The engine knows no such drive, after an earlier request was not just refused its credential,
but none may have been applied; or it gave no status that a server gives. -/
def Slips (outcomes : List Outcome) : Prop :=
  ∃ resp, outcomes.getLast? = some (.ok resp) ∧
    ((resp.status = 404 ∧ (∃ o ∈ outcomes.dropLast, ¬ Refused o) ∧
        ∀ o ∈ outcomes.dropLast, ¬ MayApply o) ∨
      resp.status < 200 ∨ 599 < resp.status)

/-- A request of the engine: any call, or closing a drive. -/
inductive Request where
  | call (how : Call) (idem : Idempotent)
  | delete

def Request.idem : Request → Idempotent
  | .call _ idem => idem
  | .delete => .yes

/-- What a request runs; whether it has an answer is told. -/
def Request.program (what : String) : Request → Io (Except CallError Unit)
  | .call how idem => do
    match ← StormBlock.call how what idem with
    | .error e => return .error e
    | .ok _ => return .ok ()
  | .delete => deleteDrive what

/-- **What is asked of the requests that go out**: one is sent again only after it was refused or
failed transiently, and if it must not be repeated, never after it may have been applied; and a
drive is closed only if the engine closed it. -/
structure Safe (req : Request) (outcomes : List Outcome) (r : Except CallError Unit) : Prop where
  repeats : RepeatsOnly req.idem outcomes
  once : req.idem = .no → AtMostOnce outcomes
  closed : req = .delete → r = .ok () → Closed outcomes

/-! ## One try sends until it is not refused -/

@[simp] lemma sends_nil : sends [] = [] := rfl

@[simp] lemma sends_append (t u : List (Σ o, Ans o)) : sends (t ++ u) = sends t ++ sends u :=
  List.filterMap_append

@[simp] lemma sends_send (b : Option String) (timeout : ℕ) (o : Outcome) (t : List (Σ o, Ans o)) :
    sends (⟨.send b timeout, o⟩ :: t) = o :: sends t := rfl

/-- A try ends with its result, and every earlier request of it was refused. -/
def OneTry (outcomes : List Outcome) (r : Outcome) : Prop :=
  ∃ pre, outcomes = pre ++ [r] ∧ ∀ o ∈ pre, Refused o

lemma OneTry.single (r : Outcome) : OneTry [r] r :=
  ⟨[], rfl, fun _ mem => absurd mem List.not_mem_nil⟩

lemma OneTry.cons {o r : Outcome} {outcomes : List Outcome} (refused : Refused o)
    (h : OneTry outcomes r) : OneTry (o :: outcomes) r := by
  obtain ⟨pre, rfl, all⟩ := h
  exact ⟨o :: pre, rfl, List.forall_mem_cons.mpr ⟨refused, all⟩⟩

/-- A cascade of credentials is one try, unless there are none left after a refusal. -/
lemma cascade_sends {timeout : ℕ} {bearers : List (String × String)} {last : Option Response}
    {t : List (Σ o, Ans o)} {r : Outcome} (h : Prog.Trace (cascade timeout bearers last) t r) :
    OneTry (sends t) r ∨ sends t = [] ∧ ∃ l, last = some l ∧ r = .ok l := by
  induction bearers generalizing last t with
  | nil =>
    cases last with
    | none =>
      obtain rfl := (Prog.trace_op_iff _ _ _).mp h
      exact .inl (.single r)
    | some l =>
      obtain ⟨rfl, rfl⟩ := (Prog.trace_ret_iff _ _ _).mp h
      exact .inr ⟨rfl, l, rfl, rfl⟩
  | cons b rest ih =>
    rw [cascade, send, Prog.trace_op_bind_iff] at h
    obtain ⟨o, t', rfl, h⟩ := h
    cases o with
    | error e =>
      obtain ⟨rfl, rfl⟩ := (Prog.trace_ret_iff _ _ _).mp h
      exact .inl (.single _)
    | ok resp =>
      by_cases refused : refuses resp.status
      · simp only [refused, if_true] at h
        obtain one | ⟨none_, l, same, rfl⟩ := ih h
        · exact .inl (one.cons refused)
        · obtain rfl := Option.some.inj same
          rw [sends_send, none_]
          exact .inl (.single _)
      · simp only [refused] at h
        obtain ⟨rfl, rfl⟩ := (Prog.trace_ret_iff _ _ _).mp h
        exact .inl (.single _)

/-- Reading a token sends nothing. -/
lemma bearer_sends {t : List (Σ o, Ans o)} {b : Option String} (h : Prog.Trace bearer t b) :
    sends t = [] := by
  rw [bearer, cachedToken, Prog.trace_op_bind_iff] at h
  obtain ⟨cached, t', rfl, h⟩ := h
  cases cached with
  | none =>
    obtain rfl := (Prog.trace_op_iff _ _ _).mp h
    rfl
  | some token =>
    obtain ⟨rfl, rfl⟩ := (Prog.trace_ret_iff _ _ _).mp h
    rfl

lemma sendAdminOnce_sends {timeout : ℕ} {t : List (Σ o, Ans o)} {r : Outcome}
    (h : Prog.Trace (sendAdminOnce timeout) t r) : OneTry (sends t) r := by
  rw [sendAdminOnce, Prog.trace_bind_iff] at h
  obtain ⟨bearers, t₁, t₂, rfl, read, h⟩ := h
  have silent : sends t₁ = [] := by
    rw [adminBearers, readAdminToken, Prog.trace_op_bind_iff] at read
    obtain ⟨admin, t', rfl, read⟩ := read
    rw [readKubeToken, Prog.trace_op_bind_iff] at read
    obtain ⟨kube, t', rfl, read⟩ := read
    rw [Prog.trace_bind_iff] at read
    obtain ⟨node, u₁, u₂, rfl, asked, done⟩ := read
    obtain ⟨rfl, rfl⟩ := (Prog.trace_ret_iff _ _ _).mp done
    have none_ : sends u₁ = [] := bearer_sends asked
    rw [List.append_nil]
    exact none_
  rw [sends_append, silent, List.nil_append]
  obtain one | ⟨-, l, none_, -⟩ := cascade_sends h
  · exact one
  · exact nomatch none_

lemma sendOnce_sends {timeout : ℕ} {t : List (Σ o, Ans o)} {r : Outcome}
    (h : Prog.Trace (sendOnce timeout) t r) : OneTry (sends t) r := by
  rw [sendOnce, Prog.trace_bind_iff] at h
  obtain ⟨used, t₁, t₂, rfl, read, h⟩ := h
  rw [sends_append, bearer_sends read, List.nil_append]
  rw [send, Prog.trace_op_bind_iff] at h
  obtain ⟨o, t', rfl, h⟩ := h
  cases o with
  | error e =>
    obtain ⟨rfl, rfl⟩ := (Prog.trace_ret_iff _ _ _).mp h
    exact .single _
  | ok resp =>
    by_cases refused : resp.status = 401
    · simp only [refused, ne_eq, not_true_eq_false, if_false] at h
      rw [reloadToken, Prog.trace_op_bind_iff] at h
      obtain ⟨fresh, t', rfl, h⟩ := h
      have no : Refused (.ok resp) := by simp [Refused, refuses, refused]
      split_ifs at h with other
      · obtain rfl := (Prog.trace_op_iff _ _ _).mp h
        exact (OneTry.single r).cons no
      · obtain ⟨rfl, rfl⟩ := (Prog.trace_ret_iff _ _ _).mp h
        exact .single _
    · simp only [refused, ne_eq, not_false_eq_true, if_true] at h
      obtain ⟨rfl, rfl⟩ := (Prog.trace_ret_iff _ _ _).mp h
      exact .single _

/-- **A try ends with its result, and every earlier request of it was refused**. -/
lemma once_sends {how : Call} {timeout : ℕ} {t : List (Σ o, Ans o)} {r : Outcome}
    (h : Prog.Trace (how.once timeout) t r) : OneTry (sends t) r := by
  cases how with
  | ordinary => exact sendOnce_sends h
  | admin => exact sendAdminOnce_sends h
  | slow => exact sendOnce_sends h
  | format => exact sendAdminOnce_sends h

/-! ## Tries follow transient failures -/

section Tries

variable {p : Policy} {what : String} {how : Call} {usual : ℕ} {idem : Idempotent} {n : ℕ}
  {t : List (Σ o, Ans o)} {r : Option (Tried Outcome)}

/-- The loop of a call after some tries. -/
def tries (p : Policy) (what : String) (how : Call) (usual : ℕ) (idem : Idempotent) (n : ℕ) :
    Io (Option (Tried Outcome)) :=
  loop env p what (fun a => how.once (a.timeout usual)) (fun r => classifyResponse r idem) n

/-- **One turn of the loop**: a try, after which the call is over, or goes on if the try failed
transiently. -/
lemma tries_cases (h : Prog.Trace (tries p what how usual idem n) t r) :
    ∃ outcomes result, OneTry outcomes result ∧
      ((¬ Retryable idem result ∧ sends t = outcomes ∧
          ∃ elapsed, r = some ⟨result, n + 1, elapsed, none⟩) ∨
        (Retryable idem result ∧ sends t = outcomes ∧
          ∀ tried, r = some tried → tried.gaveUp.isSome) ∨
        (Retryable idem result ∧ n + 1 < p.attempts ∧
          ∃ t', Prog.Trace (tries p what how usual idem (n + 1)) t' r ∧
            sends t = outcomes ++ sends t')) := by
  rw [tries, loop, env, Prog.trace_op_bind_iff] at h
  obtain ⟨start, t, rfl, h⟩ := h
  rw [Prog.trace_bind_iff] at h
  obtain ⟨result, t₁, t₂, rfl, once, h⟩ := h
  rw [Prog.trace_op_bind_iff] at h
  obtain ⟨elapsed, t₂, rfl, h⟩ := h
  refine ⟨sends t₁, result, once_sends once, ?_⟩
  have sent : ∀ t₂, sends (⟨.elapsed, start⟩ :: (t₁ ++ ⟨.elapsed, elapsed⟩ :: t₂)) =
      sends t₁ ++ sends t₂ := fun t₂ => sends_append t₁ (⟨.elapsed, elapsed⟩ :: t₂)
  rw [sent]
  cases verdict : classifyResponse result idem with
  | ok =>
    simp only [verdict] at h
    obtain ⟨rfl, rfl⟩ := (Prog.trace_ret_iff _ _ _).mp h
    exact .inl ⟨by simp [Retryable, verdict], List.append_nil _, elapsed, rfl⟩
  | fail why =>
    simp only [verdict] at h
    obtain ⟨rfl, rfl⟩ := (Prog.trace_ret_iff _ _ _).mp h
    exact .inl ⟨by simp [Retryable, verdict], List.append_nil _, elapsed, rfl⟩
  | retry why after =>
    have retryable : Retryable idem result := ⟨why, after, verdict⟩
    simp only [verdict] at h
    rw [Prog.trace_op_bind_iff] at h
    obtain ⟨random, t₂, rfl, h⟩ := h
    have silent : sends (⟨.random, random⟩ :: t₂) = sends t₂ := rfl
    rw [silent]
    split at h
    · obtain ⟨rfl, rfl⟩ := (Prog.trace_ret_iff _ _ _).mp h
      exact .inr (.inl ⟨retryable, List.append_nil _, by simp⟩)
    · split_ifs at h with last
      · obtain ⟨rfl, rfl⟩ := (Prog.trace_ret_iff _ _ _).mp h
        refine .inr (.inl ⟨retryable, List.append_nil _, ?_⟩)
        rintro tried same
        obtain rfl := Option.some.inj same
        rfl
      · split at h
        · obtain ⟨rfl, rfl⟩ := (Prog.trace_ret_iff _ _ _).mp h
          exact .inr (.inl ⟨retryable, List.append_nil _, by simp⟩)
        · split_ifs at h with late
          · obtain ⟨rfl, rfl⟩ := (Prog.trace_ret_iff _ _ _).mp h
            refine .inr (.inl ⟨retryable, List.append_nil _, ?_⟩)
            rintro tried same
            obtain rfl := Option.some.inj same
            rfl
          · rw [Prog.trace_op_bind_iff] at h
            obtain ⟨slept, t₃, rfl, h⟩ := h
            exact .inr (.inr ⟨retryable, Nat.lt_of_not_le last, t₃, h, rfl⟩)

/-- A refusal is not transient. -/
lemma not_refused_of_retryable {o : Outcome} (retryable : Retryable idem o) : ¬ Refused o := by
  obtain ⟨why, after, verdict⟩ := retryable
  cases o with
  | error e => exact id
  | ok resp =>
    intro refused
    have status : resp.status = 401 ∨ resp.status = 403 := by
      simpa [Refused, refuses] using refused
    rw [classifyResponse, classifyStatus] at verdict
    obtain status | status := status
    all_goals simp [status] at verdict

/-- A status that is transient is an error that a server gives, and not that something is absent. -/
lemma status_of_retryable {resp : Response} (retryable : Retryable idem (.ok resp)) :
    400 ≤ resp.status ∧ resp.status ≤ 599 ∧ resp.status ≠ 404 := by
  obtain ⟨why, after, verdict⟩ := retryable
  rw [classifyResponse, classifyStatus] at verdict
  split_ifs at verdict with success busy transient
  · omega
  · obtain ⟨status, -⟩ := transient
    omega

/-- What may not be repeated is repeated only when it was not applied. -/
lemma not_mayApply_of_retryable {o : Outcome} (retryable : Retryable .no o) : ¬ MayApply o := by
  obtain ⟨why, after, verdict⟩ := retryable
  cases o with
  | error e =>
    intro applied
    have unsent : e.connect = false := applied
    rw [classifyResponse, classifyError, unsent] at verdict
    simp only [reduceCtorEq, decide_false, Bool.false_and, Bool.or_false, Bool.false_eq_true,
      if_false] at verdict
    split_ifs at verdict
  | ok resp =>
    rintro ⟨-, other⟩
    rw [classifyResponse, classifyStatus] at verdict
    simp only [other, reduceCtorEq, and_false, if_false] at verdict
    split_ifs at verdict

lemma not_mayApply_of_refused {o : Outcome} (refused : Refused o) : ¬ MayApply o := by
  cases o with
  | error e => exact absurd refused id
  | ok resp => exact fun applied => applied.1 refused

/-- **The requests of a call**: all but the last were refused or failed transiently. The last one
has the answer, and there was more than one try exactly when one before it was not just refused; or
it failed transiently, and the call gave up. -/
lemma tries_sends (h : Prog.Trace (tries p what how usual idem n) t r) :
    ∃ pre last, sends t = pre ++ [last] ∧ (∀ o ∈ pre, Refused o ∨ Retryable idem o) ∧
      ((¬ Retryable idem last ∧ ∃ made elapsed, r = some ⟨last, made, elapsed, none⟩ ∧
          n + 1 ≤ made ∧ (n + 1 < made ↔ ∃ o ∈ pre, ¬ Refused o)) ∨
        (Retryable idem last ∧ ∀ tried, r = some tried → tried.gaveUp.isSome)) := by
  induction left : p.attempts - n using Nat.strong_induction_on generalizing n t with
  | _ k ih =>
    obtain ⟨outcomes, result, ⟨pre, rfl, refused⟩, cases_⟩ := tries_cases h
    have repeats : ∀ o ∈ pre, Refused o ∨ Retryable idem o := fun o mem => .inl (refused o mem)
    obtain ⟨final, sent, elapsed, ended⟩ | ⟨retryable, sent, gaveUp⟩ |
      ⟨retryable, more, t', rest, sent⟩ := cases_
    · refine ⟨pre, result, sent, repeats, .inl ⟨final, n + 1, elapsed, ended, Nat.le_refl _, ?_⟩⟩
      constructor
      · exact fun lt => absurd lt (Nat.lt_irrefl _)
      · rintro ⟨o, mem, not_⟩
        exact absurd (refused o mem) not_
    · exact ⟨pre, result, sent, repeats, .inr ⟨retryable, gaveUp⟩⟩
    · obtain ⟨pre', last, sent', repeats', ending⟩ := ih (p.attempts - (n + 1)) (by omega) rest rfl
      refine ⟨pre ++ result :: pre', last, ?_, ?_, ?_⟩
      · rw [sent, sent']
        simp
      · intro o mem
        obtain mem | mem := List.mem_append.mp mem
        · exact repeats o mem
        · obtain rfl | mem := List.mem_cons.mp mem
          · exact .inr retryable
          · exact repeats' o mem
      · obtain ⟨final, made, elapsed, ended, many, -⟩ | gaveUp := ending
        · refine .inl ⟨final, made, elapsed, ended, by omega, ?_⟩
          constructor
          · exact fun _ => ⟨result, by simp, not_refused_of_retryable retryable⟩
          · exact fun _ => by omega
        · exact .inr gaveUp

end Tries

/-! ## Calls -/

section Calls

variable {what : String} {t : List (Σ o, Ans o)}

/-- **The requests of a call, and its answer**. -/
lemma call_sends {how : Call} {idem : Idempotent} {r : Except CallError (Response × ℕ)}
    (h : Prog.Trace (call how what idem) t r) :
    ∃ pre last, sends t = pre ++ [last] ∧ (∀ o ∈ pre, Refused o ∨ Retryable idem o) ∧
      ((∃ resp made, last = .ok resp ∧ r = .ok (resp, made) ∧
          (1 < made ↔ ∃ o ∈ pre, ¬ Refused o)) ∨
        ((∃ e, r = .error e) ∧ ∀ resp, last = .ok resp → Retryable idem last)) := by
  rw [call, Prog.trace_bind_iff] at h
  obtain ⟨tried, t₁, t₂, rfl, run, h⟩ := h
  obtain ⟨pre, last, sent, repeats, ending⟩ := tries_sends run
  have same : sends (t₁ ++ t₂) = pre ++ [last] ∧
      ((∃ resp made, last = .ok resp ∧ r = .ok (resp, made) ∧
          (1 < made ↔ ∃ o ∈ pre, ¬ Refused o)) ∨
        ((∃ e, r = .error e) ∧ ∀ resp, last = .ok resp → Retryable idem last)) := by
    obtain ⟨final, made, elapsed, rfl, -, many⟩ | ⟨retryable, gaveUp⟩ := ending
    · cases last with
      | error e =>
        obtain ⟨rfl, rfl⟩ := (Prog.trace_ret_iff _ _ _).mp h
        rw [List.append_nil]
        exact ⟨sent, .inr ⟨⟨_, rfl⟩, nofun⟩⟩
      | ok resp =>
        obtain ⟨rfl, rfl⟩ := (Prog.trace_ret_iff _ _ _).mp h
        rw [List.append_nil]
        exact ⟨sent, .inl ⟨resp, made, rfl, rfl, many⟩⟩
    · cases tried with
      | none =>
        obtain ⟨rfl, rfl⟩ := (Prog.trace_ret_iff _ _ _).mp h
        rw [List.append_nil]
        exact ⟨sent, .inr ⟨⟨_, rfl⟩, fun _ _ => retryable⟩⟩
      | some tried =>
        obtain ⟨infra, some_⟩ := Option.isSome_iff_exists.mp (gaveUp tried rfl)
        simp only [some_] at h
        obtain ⟨rfl, rfl⟩ := (Prog.trace_ret_iff _ _ _).mp h
        rw [List.append_nil]
        exact ⟨sent, .inr ⟨⟨_, rfl⟩, fun _ _ => retryable⟩⟩
  exact ⟨pre, last, same.1, repeats, same.2⟩

/-- The answers after which closing a drive says that it worked. -/
lemma closedBy_iff (resp : Response) (tries : ℕ) : closedBy (.ok (resp, tries)) = .ok () ↔
    (resp.status = 404 ∧ 1 < tries) ∨ ¬ (400 ≤ resp.status ∧ resp.status ≤ 599) := by
  rw [closedBy, errorForStatus]
  split_ifs with absent error
  · exact ⟨fun _ => .inl absent, fun _ => rfl⟩
  · refine ⟨nofun, fun h => ?_⟩
    obtain absent' | fine := h
    · exact absurd absent' absent
    · exact absurd error fine
  · exact ⟨fun _ => .inr error, fun _ => rfl⟩

/-- **A drive is closed exactly when the requests do not slip**. -/
lemma delete_closed {r : Except CallError Unit} (h : Prog.Trace (deleteDrive what) t r) :
    (∀ o ∈ (sends t).dropLast, Refused o ∨ Retryable .yes o) ∧
      ((r = .ok () → Closed (sends t)) ↔ ¬ Slips (sends t)) := by
  rw [deleteDrive, Prog.trace_bind_iff] at h
  obtain ⟨answer, t₁, t₂, rfl, run, h⟩ := h
  obtain ⟨pre, last, sent, repeats, ending⟩ := call_sends run
  obtain ⟨rfl, rfl⟩ := (Prog.trace_ret_iff _ _ _).mp h
  have before : (pre ++ [last]).dropLast = pre := List.dropLast_concat
  rw [List.append_nil, sent, before]
  refine ⟨repeats, ?_⟩
  rw [Closed, Slips, before, List.getLast?_concat]
  obtain ⟨resp, made, rfl, rfl, many⟩ | ⟨⟨e, rfl⟩, transient⟩ := ending
  · rw [closedBy_iff, many]
    constructor
    · rintro closed ⟨_, same, slip⟩
      obtain rfl := Except.ok.inj (Option.some.inj same)
      obtain ⟨absent, other, none_⟩ | odd := slip
      · obtain ⟨_, same, success | ⟨-, o, mem, applied⟩⟩ := closed (.inl ⟨absent, other⟩)
        · obtain rfl := Except.ok.inj (Option.some.inj same)
          omega
        · exact none_ o mem applied
      · obtain ⟨_, same, success | ⟨absent, -⟩⟩ := closed (.inr (by omega))
        · obtain rfl := Except.ok.inj (Option.some.inj same)
          omega
        · obtain rfl := Except.ok.inj (Option.some.inj same)
          omega
    · rintro slips closed
      refine ⟨resp, rfl, ?_⟩
      obtain ⟨absent, other⟩ | success := closed
      · refine .inr ⟨absent, ?_⟩
        by_contra none_
        refine slips ⟨resp, rfl, .inl ⟨absent, other, fun o mem applied => ?_⟩⟩
        exact none_ ⟨o, mem, applied⟩
      · refine .inl ?_
        by_contra odd
        exact slips ⟨resp, rfl, .inr (by omega)⟩
  · constructor
    · rintro - ⟨resp, same, slip⟩
      obtain rfl := Option.some.inj same
      obtain ⟨least, most, other⟩ := status_of_retryable (transient resp rfl)
      omega
    · exact fun _ same => nomatch same

/-- **Nothing that may have been applied is sent again unless it may be, and a close that says that
it worked did, exactly when no absent drive is found after tries that did not reach the engine**.

**Proof sketch.** A try sends again only what was refused, and the loop only what failed
transiently; for a request that must not be repeated these are the ones that were not applied. A
drive counts as closed when its last request has no error status, or when it is absent after more
than one try, which is when an earlier request was not just refused. -/
theorem safe_iff (req : Request) (what : String) (t : List (Σ o, Ans o))
    (r : Except CallError Unit) (run : Prog.Trace (req.program what) t r) :
    Safe req (sends t) r ↔ ¬ (req = .delete ∧ Slips (sends t)) := by
  cases req with
  | call how idem =>
    rw [Request.program, Prog.trace_bind_iff] at run
    obtain ⟨answer, t₁, t₂, rfl, run, rest⟩ := run
    obtain ⟨pre, last, sent, repeats, -⟩ := call_sends run
    have silent : t₂ = [] := by
      cases answer with
      | error e => exact ((Prog.trace_ret_iff _ _ _).mp rest).1
      | ok answer => exact ((Prog.trace_ret_iff _ _ _).mp rest).1
    rw [silent, List.append_nil, sent]
    have before : (pre ++ [last]).dropLast = pre := List.dropLast_concat
    refine iff_of_true ⟨?_, ?_, nofun⟩ nofun
    · rw [RepeatsOnly, before]
      exact repeats
    · rintro rfl
      rw [AtMostOnce, before]
      intro o mem
      obtain refused | retryable := repeats o mem
      · exact not_mayApply_of_refused refused
      · exact not_mayApply_of_retryable retryable
  | delete =>
    obtain ⟨repeats, closed⟩ := delete_closed run
    constructor
    · exact fun safe slips => closed.mp (safe.closed rfl) slips.2
    · exact fun fine => ⟨repeats, nofun, fun _ => closed.mpr fun slips => fine ⟨rfl, slips⟩⟩

end Calls

/-! ## A drive that was never closed -/

/-- A try of a destructive verb without any credential. -/
def without (timeout : ℕ) (o : Outcome) : List (Σ o, Ans o) :=
  [⟨.adminToken, none⟩, ⟨.kubeToken, none⟩, ⟨.cachedToken, none⟩, ⟨.reloadToken, none⟩,
    ⟨.send none timeout, o⟩]

lemma trace_without (timeout : ℕ) (o : Outcome) :
    Prog.Trace (Call.admin.once timeout) (without timeout o) o := by
  show Prog.Trace (sendAdminOnce timeout) (without timeout o) o
  rw [sendAdminOnce, Prog.trace_bind_iff]
  refine ⟨[], (without timeout o).take 4, [⟨.send none timeout, o⟩], rfl, ?_,
    (Prog.trace_op_iff _ _ _).mpr rfl⟩
  rw [adminBearers, readAdminToken, Prog.trace_op_bind_iff]
  refine ⟨none, _, rfl, ?_⟩
  rw [readKubeToken, Prog.trace_op_bind_iff]
  refine ⟨none, _, rfl, ?_⟩
  rw [Prog.trace_bind_iff]
  refine ⟨none, [⟨.cachedToken, none⟩, ⟨.reloadToken, none⟩], [], rfl, ?_, .ret _⟩
  rw [bearer, cachedToken, Prog.trace_op_bind_iff]
  exact ⟨none, _, rfl, (Prog.trace_op_iff _ _ _).mpr rfl⟩

/-- The last try of a close, after `n` others: it starts at once, and takes no time. -/
def lastTry (n : ℕ) (o : Outcome) : List (Σ o, Ans o) :=
  let timeout := Attempt.timeout ⟨n + 1, Policy.engine.deadline⟩ (Duration.fromSecs 5)
  ⟨.elapsed, 0⟩ :: (without timeout o ++ [⟨.elapsed, 0⟩])

lemma trace_lastTry (what : String) (n : ℕ) (o : Outcome) (final : ¬ Retryable .yes o) :
    Prog.Trace (tries .engine what .admin (Duration.fromSecs 5) .yes n) (lastTry n o)
      (some ⟨o, n + 1, 0, none⟩) := by
  rw [tries, loop, env, Prog.trace_op_bind_iff]
  refine ⟨0, _, rfl, ?_⟩
  rw [Prog.trace_bind_iff]
  refine ⟨o, _, _, rfl, trace_without _ o, ?_⟩
  rw [Prog.trace_op_bind_iff]
  refine ⟨0, [], rfl, ?_⟩
  cases verdict : classifyResponse o .yes with
  | ok => exact .ret _
  | fail why => exact .ret _
  | retry why after => exact absurd ⟨why, after, verdict⟩ final

/-- A connection that is refused. -/
def refusedConnection : Outcome := .error ⟨true, false, true, false, "connection refused"⟩

/-- The answer of an engine that knows no such drive. -/
def absent : Outcome := .ok ⟨404, none⟩

/-- A close that is refused a connection, and then finds no drive. -/
def refusedThenAbsent : List (Σ o, Ans o) :=
  ⟨.elapsed, 0⟩ :: (without (Duration.fromSecs 5) refusedConnection ++
    ⟨.elapsed, 0⟩ :: ⟨.random, 0⟩ :: ⟨.sleep 125000000, ()⟩ :: lastTry 1 absent)

lemma trace_refusedThenAbsent (what : String) :
    Prog.Trace (tries .engine what .admin (Duration.fromSecs 5) .yes 0) refusedThenAbsent
      (some ⟨absent, 2, 0, none⟩) := by
  rw [tries, loop, env, Prog.trace_op_bind_iff]
  refine ⟨0, _, rfl, ?_⟩
  rw [Prog.trace_bind_iff]
  refine ⟨refusedConnection, without (Duration.fromSecs 5) refusedConnection, _, rfl,
    trace_without _ _, ?_⟩
  rw [Prog.trace_op_bind_iff]
  refine ⟨0, _, rfl, ?_⟩
  show Prog.Trace (Prog.op Op.random >>= _) _ _
  rw [Prog.trace_op_bind_iff]
  refine ⟨0, _, rfl, ?_⟩
  show Prog.Trace (Prog.op (Op.sleep 125000000) >>= _) _ _
  rw [Prog.trace_op_bind_iff]
  exact ⟨(), _, rfl, trace_lastTry what 1 absent (by rintro ⟨why, after, h⟩; exact nomatch h)⟩

/-- A close whose tries end with an answer. -/
lemma trace_delete {what : String} {t : List (Σ o, Ans o)} {resp : Response} {made elapsed : ℕ}
    (h : Prog.Trace (tries .engine what .admin (Duration.fromSecs 5) .yes 0) t
      (some ⟨.ok resp, made, elapsed, none⟩)) :
    Prog.Trace (deleteDrive what) t (closedBy (.ok (resp, made))) := by
  rw [deleteDrive, Prog.trace_bind_iff]
  refine ⟨.ok (resp, made), t, [], (List.append_nil t).symm, ?_, .ret _⟩
  rw [call, Prog.trace_bind_iff]
  exact ⟨_, t, [], (List.append_nil t).symm, h, .ret _⟩

/-- The engine closes the drive. -/
def gone : Outcome := .ok ⟨204, none⟩

/-- A close that works at once is safe. -/
theorem gone_safe : Prog.Trace (Request.delete.program "stormblock") (lastTry 0 gone) (.ok ()) ∧
    (Safe .delete (sends (lastTry 0 gone)) (.ok ()) ↔
      ¬ (Request.delete = .delete ∧ Slips (sends (lastTry 0 gone)))) := by
  have final : ¬ Retryable .yes gone := by
    rintro ⟨why, after, verdict⟩
    exact nomatch verdict
  have run : Prog.Trace (Request.delete.program "stormblock") (lastTry 0 gone) (.ok ()) :=
    trace_delete (trace_lastTry "stormblock" 0 gone final)
  exact ⟨run, safe_iff .delete "stormblock" (lastTry 0 gone) (.ok ()) run⟩

/-- **An absent drive counts as closed after a refused connection**, though no request had reached
the engine before. -/
theorem never_closed :
    Prog.Trace (deleteDrive "stormblock") refusedThenAbsent (.ok ()) ∧
      ¬ Safe .delete (sends refusedThenAbsent) (.ok ()) := by
  refine ⟨trace_delete (trace_refusedThenAbsent "stormblock"), fun safe => ?_⟩
  obtain ⟨resp, last, success | ⟨-, o, mem, applied⟩⟩ := safe.closed rfl rfl
  · have same : absent = .ok resp := Option.some.inj last
    obtain rfl := Except.ok.inj same
    exact absurd success (by decide)
  · obtain rfl : o = refusedConnection := List.mem_singleton.mp mem
    exact Bool.noConfusion applied

end StormBlock

end StormDrive
