import Mathlib.Algebra.Ring.Nat
import Mathlib.Data.Set.Function
import StormDrive.Interleave.Expiring
import StormDrive.Interleave.Runs
import StormDrive.Text

set_option relaxedAutoImplicit false
set_option autoImplicit false

/-!
# Who may change a drive

The gate in front of the API: who a caller is, whether the apiserver allows what is asked, and the
cache of its answers (`kubeauth.rs`).

## Main definitions

* `KubeAuth.Gate.check`, `KubeAuth.Gate.checkRead` — what a write and a read need: an answer at
  once, or a review of the caller.
* `KubeAuth.Gate.uncached` — the answer that a review gives.
* `KubeAuth.World`, `KubeAuth.step` — the cache, the reviews on their way, and what happens to them.
* `KubeAuth.NeverMixes` — every answer of every run is one that a review of the very caller gave
  within the last minute.

## Main results

* `KubeAuth.neverMixes_iff` — **the cache never mixes callers exactly when no two of their
  certificates are written as one text**.
* `KubeAuth.groups_run_together` — a group named `dev,storage-admins` passes for two groups.

## Implementation notes

The apiserver is two functions of time, so that it may change its mind. A review asks it at moments
of its own, and its answer is back some time later; in between other calls are made. How long a
review may take is a parameter. Logging is left out.
-/

namespace StormDrive

namespace KubeAuth

/-! ## Callers and what they ask -/

/-- A user, as the apiserver knows one. -/
structure KubeUser where
  username : String
  groups : List String
  uid : Option String
  deriving DecidableEq

/-- The subject of a client certificate. -/
structure ClientIdentity where
  cn : String
  groups : List String
  deriving DecidableEq

def ClientIdentity.user (c : ClientIdentity) : KubeUser := ⟨c.cn, c.groups, none⟩

/-- Who asked for a write, as the gate established it. -/
structure Requester where
  who : String
  user : Option KubeUser
  deriving DecidableEq

def Requester.kube (u : KubeUser) : Requester := ⟨"kubernetes:" ++ u.username, some u⟩

def Requester.adminToken : Requester := ⟨"admin-token", none⟩

def Requester.cert (c : ClientIdentity) : Requester := ⟨"cert:" ++ c.cn, some c.user⟩

/-- What a caller presented. -/
structure Credential where
  bearer : Option String
  cert : Option ClientIdentity
  deriving DecidableEq

/-- The bearer without the white space around it, unless nothing is left. -/
def Credential.token (cred : Credential) : Option String :=
  (cred.bearer.map Text.trim).filter (· ≠ "")

/-- A resource of `storage.storm.io`, a verb and a name. -/
structure Access where
  resource : String
  verb : String
  name : Option String
  deriving DecidableEq

/-- The gate's answer for one request. -/
inductive Decision where
  | allowed (r : Requester)
  | auditOnly (r : Requester) (why : String)
  | refused (code : ℕ) (who why : String)
  deriving DecidableEq

/-- What the apiserver makes of a caller and an access. -/
inductive Review where
  | allowed (u : KubeUser)
  | denied (u : KubeUser) (why : String)
  | unauthenticated (why : String)

/-- The apiserver, at each moment: whose a bearer is, and whether a user may do what is asked. An
error is that it could not be asked. -/
structure KubeApi where
  tokenReview : ℕ → String → Except String (Option KubeUser)
  accessReview : ℕ → KubeUser → Access → Except String (Bool × String)

/-! ## The gate -/

structure Gate where
  kube : Option KubeApi
  adminToken : Option String
  enforce : Bool
  anonymous : Bool

/-- Equal in time independent of where the first difference is. -/
def same (a b : String) : Bool :=
  let a := a.toUTF8.data.toList
  let b := b.toUTF8.data.toList
  a.length == b.length && (a.zip b).foldl (fun acc p => acc ||| (p.1 ^^^ p.2)) 0 == 0

def Gate.isAdmin (g : Gate) (bearer : String) : Bool := g.adminToken.any (same bearer)

/-- Why a user is not allowed. -/
def denied (u : KubeUser) (access : Access) (why : String) : String :=
  u.username ++ " may not " ++ access.verb ++ " " ++ access.resource ++ ".storage.storm.io" ++
    (if why = "" then "" else ": " ++ why)

/-- How a check goes on: with an answer, or with a review under a key of the cache, of a bearer or
a certificate, and with the answer that depends on it. -/
inductive Plan where
  | decided (d : Decision)
  | reviewed (key : String) (bearer : Option String) (cert : Option ClientIdentity)
      (rest : Except String Review → Decision)

/-- The certificate's name in the cache. -/
def certKey (c : ClientIdentity) : String := "c:" ++ c.cn ++ "|" ++ Text.join "," c.groups

/-- May this caller read? -/
def Gate.checkRead (g : Gate) (cred : Credential) (access : Access) : Plan :=
  match cred.token with
  | some bearer =>
    if g.isAdmin bearer then .decided (.allowed .adminToken)
    else .reviewed ("b:" ++ bearer) (some bearer) none fun
      | .ok (.allowed u) => .allowed (.kube u)
      | .ok (.denied u why) => .refused 403 ("kubernetes:" ++ u.username) (denied u access why)
      | .ok (.unauthenticated why) => .refused 401 "unknown-bearer" why
      | .error e => .refused 503 "unknown-bearer" e
  | none =>
    match cred.cert with
    | some c => .decided (.allowed (.cert c))
    | none =>
      if g.anonymous then .decided (.allowed ⟨"anonymous", none⟩)
      else .decided (.refused 401 "none" ("a credential is required: Authorization: Bearer " ++
        "<token>, or a client certificate from the node CA"))

/-- A refusal, which an audit lets through. -/
def Gate.refuse (g : Gate) (code : ℕ) (who why : String) : Decision :=
  if g.enforce then .refused code who why else .auditOnly ⟨who, none⟩ why

/-- The answer to a write after the review: `who` is named where no user is known, and the requester
is made of the user. -/
def Gate.afterReview (g : Gate) (access : Access) (who : String)
    (asRequester : KubeUser → Requester) : Except String Review → Decision
  | .error e => g.refuse 503 who e
  | .ok (.allowed u) => .allowed (asRequester u)
  | .ok (.denied u why) =>
    let r := asRequester u
    if g.enforce then .refused 403 r.who (denied u access why)
    else .auditOnly r (denied u access why)
  | .ok (.unauthenticated why) => g.refuse 401 who why

/-- May this caller make this write? A bearer wins over a certificate. -/
def Gate.check (g : Gate) (cred : Credential) (access : Access) : Plan :=
  match cred.token, cred.cert with
  | some b, _ =>
    if g.isAdmin b then .decided (.allowed .adminToken)
    else .reviewed ("b:" ++ b) (some b) none (g.afterReview access "unknown-bearer" .kube)
  | none, some c =>
    .reviewed (certKey c) none (some c) (g.afterReview access ("cert:" ++ c.cn) fun _ => .cert c)
  | none, none => .decided (g.refuse 401 "none"
      ("a storage-admin bearer is required to " ++ access.verb ++ " " ++ access.resource))

/-! ## Reviews -/

/-- Whose the bearer is, and then whether that user may do it. -/
def review (kube : KubeApi) (t₁ t₂ : ℕ) (bearer : String) (access : Access) :
    Except String Review := do
  let some user ← kube.tokenReview t₁ bearer
    | return .unauthenticated "the apiserver does not recognise the bearer"
  let (allowed, why) ← kube.accessReview t₂ user access
  return if allowed then .allowed user else .denied user why

/-- A review of the caller whose questions the apiserver answers at the moments `t₁` and `t₂`. -/
def asked (kube : KubeApi) (t₁ t₂ : ℕ) (bearer : Option String) (cert : Option ClientIdentity)
    (access : Access) : Except String Review :=
  (match bearer, cert with
    | some b, _ => review kube t₁ t₂ b access
    | none, some c => (kube.accessReview t₂ c.user access).map fun
        | (true, _) => .allowed c.user
        | (false, why) => .denied c.user why
    | none, none => .ok (.unauthenticated "no credential")).mapError
  fun e => "cannot review the caller: " ++ e

/-- The review where there is no apiserver. -/
def unreviewable (cert : Option ClientIdentity) : Review :=
  .unauthenticated (match cert with
    | some _ => "no apiserver is configured to review the client certificate's user"
    | none => "not the admin token, and no apiserver is configured to review it")

/-- A call of the gate. -/
structure Call where
  write : Bool
  cred : Credential
  access : Access
  deriving DecidableEq

def Gate.plan (g : Gate) (call : Call) : Plan :=
  if call.write then g.check call.cred call.access else g.checkRead call.cred call.access

/-- The answer to a call when the review of its caller, should it need one, says so. -/
def Gate.answer (g : Gate) (call : Call) (review : Except String Review) : Decision :=
  match g.plan call with
  | .decided d => d
  | .reviewed _ _ _ rest => rest review

/-- **The answer of an uncached review** whose questions are answered at the moments `t₁` and
`t₂`. -/
def Gate.uncached (g : Gate) (t₁ t₂ : ℕ) (call : Call) : Decision :=
  match g.plan call with
  | .decided d => d
  | .reviewed _ bearer cert rest => rest <|
    match g.kube with
    | none => .ok (unreviewable cert)
    | some kube => asked kube t₁ t₂ bearer cert call.access

/-! ## The cache -/

/-- A minute, in nanoseconds. -/
def cacheTtl : ℕ := 60 * 10 ^ 9

/-- Caller, resource, verb and name. -/
abbrev CacheKey : Type := String × Access

/-- A review on its way: for which call, and since when. -/
structure Pending where
  call : Call
  since : ℕ
  deriving DecidableEq

/-- An answer of the gate: to which call, and when. -/
structure Answer where
  moment : ℕ
  call : Call
  decision : Decision

/-- The clock, the cache, the reviews on their way, and the answers so far. -/
structure World where
  now : ℕ
  cache : Expiring.Cache CacheKey Review
  waiting : List Pending
  answered : List Answer

def World.init : World := ⟨0, Expiring.empty, [], []⟩

/-- What happens: time passes, a call is made, a review comes back with the apiserver's answers of
two moments. -/
inductive Event where
  | pass (d : ℕ)
  | call (c : Call)
  | back (p : Pending) (t₁ t₂ : ℕ)

def World.answer (w : World) (call : Call) (d : Decision) : World :=
  { w with answered := ⟨w.now, call, d⟩ :: w.answered }

/-- What is known of the caller without asking the apiserver. -/
def Gate.known (g : Gate) (w : World) (key : CacheKey) (cert : Option ClientIdentity) :
    Option Review :=
  match g.kube with
  | none => some (unreviewable cert)
  | some _ => Expiring.lookup cacheTtl w.now w.cache key

/-- A call gets its answer, or a review of the caller is sent for. -/
def Gate.called (g : Gate) (w : World) (call : Call) : World :=
  match g.plan call with
  | .decided d => w.answer call d
  | .reviewed key _ cert rest =>
    match g.known w (key, call.access) cert with
    | some r => w.answer call (rest (.ok r))
    | none => { w with waiting := ⟨call, w.now⟩ :: w.waiting }

/-- What a review says goes into the cache, unless it failed, and the call gets its answer. -/
def World.returned (w : World) (key : CacheKey) (call : Call)
    (rest : Except String Review → Decision) : Except String Review → World
  | .error e => w.answer call (rest (.error e))
  | .ok r =>
    { w with cache := Expiring.store cacheTtl w.now w.cache key r }.answer call (rest (.ok r))

/-- A review is back. -/
def Gate.back (g : Gate) (w : World) (p : Pending) (t₁ t₂ : ℕ) : World :=
  match g.plan p.call, g.kube with
  | .reviewed key bearer cert rest, some kube =>
    { w with waiting := w.waiting.erase p }.returned (key, p.call.access) p.call rest
      (asked kube t₁ t₂ bearer cert p.call.access)
  | _, _ => w

/-- The apiserver answers after it was asked, and a review takes no longer than `longest`. -/
def OnTime (longest : ℕ) (w : World) (p : Pending) (t₁ t₂ : ℕ) : Prop :=
  p ∈ w.waiting ∧ p.since ≤ t₁ ∧ t₁ ≤ t₂ ∧ t₂ ≤ w.now ∧ w.now ≤ p.since + longest

instance (longest : ℕ) (w : World) (p : Pending) (t₁ t₂ : ℕ) :
    Decidable (OnTime longest w p t₁ t₂) :=
  inferInstanceAs (Decidable (_ ∧ _))

def step (g : Gate) (longest : ℕ) (w : World) : Event → World
  | .pass d => { w with now := w.now + d }
  | .call c => g.called w c
  | .back p t₁ t₂ => if OnTime longest w p t₁ t₂ then g.back w p t₁ t₂ else w

/-! ## Never mixed up -/

/-- The answer is one that a review of the very caller and access gave, no longer ago than a
minute. -/
def Fresh (g : Gate) (longest : ℕ) (a : Answer) : Prop :=
  ∃ t₁ t₂ t, t₁ ≤ t₂ ∧ t₂ ≤ t ∧ t ≤ t₁ + longest ∧ t ≤ a.moment ∧ a.moment < t + cacheTtl ∧
    a.decision = g.uncached t₁ t₂ a.call

/-- A failure of the apiserver is never cached: a review that fails leaves the cache as it was. -/
def FailureUncached (g : Gate) (longest : ℕ) (w : World) : Event → Prop
  | .back p t₁ t₂ => ∀ key bearer cert rest kube e, g.plan p.call = .reviewed key bearer cert rest →
      g.kube = some kube → asked kube t₁ t₂ bearer cert p.call.access = .error e →
      (step g longest w (.back p t₁ t₂)).cache = w.cache
  | _ => True

/-- A call is made with no certificate but one of these. -/
def Event.By (callers : Set ClientIdentity) : Event → Prop
  | .call c => ∀ i ∈ c.cred.cert, i ∈ callers
  | _ => True

/-- **The cache never mixes these callers**: in every run, whatever the gate and the apiserver and
however the calls and the reviews follow each other, every answer is fresh and no failure is
cached. -/
def NeverMixes (callers : Set ClientIdentity) : Prop :=
  ∀ (g : Gate) (longest : ℕ) (es : List Event), (∀ e ∈ es, e.By callers) →
    Runs.Each (step g longest) (FailureUncached g longest) .init es ∧
      ∀ a ∈ (Runs.after (step g longest) .init es).answered, Fresh g longest a

/-! ## Keys -/

/-- A review is of a bearer or of the certificate that was presented, and its key says of which. -/
lemma plan_reviewed {g : Gate} {call : Call} {key : String} {bearer : Option String}
    {cert : Option ClientIdentity} {rest : Except String Review → Decision}
    (planned : g.plan call = .reviewed key bearer cert rest) :
    (∃ b, key = "b:" ++ b ∧ bearer = some b ∧ cert = none) ∨
      ∃ c, call.cred.cert = some c ∧ key = certKey c ∧ bearer = none ∧ cert = some c := by
  rw [Gate.plan] at planned
  split_ifs at planned with write
  · rw [Gate.check] at planned
    split at planned
    · rename_i b _
      split_ifs at planned with admin
      obtain ⟨rfl, rfl, rfl, -⟩ := Plan.reviewed.inj planned
      exact .inl ⟨b, rfl, rfl, rfl⟩
    · rename_i c _ presented
      obtain ⟨rfl, rfl, rfl, -⟩ := Plan.reviewed.inj planned
      exact .inr ⟨c, presented, rfl, rfl, rfl⟩
    · exact nomatch planned
  · rw [Gate.checkRead] at planned
    split at planned
    · rename_i b _
      split_ifs at planned with admin
      obtain ⟨rfl, rfl, rfl, -⟩ := Plan.reviewed.inj planned
      exact .inl ⟨b, rfl, rfl, rfl⟩
    · split at planned
      · exact nomatch planned
      · split_ifs at planned

/-- The key of a bearer is no certificate's key. -/
lemma bearer_ne_certKey (b : String) (c : ClientIdentity) : "b:" ++ b ≠ certKey c := by
  intro same
  have chars := congrArg String.toList same
  simp [certKey, String.toList_append] at chars

lemma bearer_inj {b b' : String} (same : "b:" ++ b = "b:" ++ b') : b = b' := by
  have chars := congrArg String.toList same
  rw [String.toList_append, String.toList_append] at chars
  exact String.toList_inj.mp (List.append_cancel_left chars)

/-- **A key names one caller**, where the certificates' keys do. -/
lemma same_caller {callers : Set ClientIdentity} (inj : Set.InjOn certKey callers) {g : Gate}
    {call call' : Call} {key : String} {bearer bearer' : Option String}
    {cert cert' : Option ClientIdentity} {rest rest' : Except String Review → Decision}
    (mine : ∀ i ∈ call.cred.cert, i ∈ callers) (theirs : ∀ i ∈ call'.cred.cert, i ∈ callers)
    (planned : g.plan call = .reviewed key bearer cert rest)
    (planned' : g.plan call' = .reviewed key bearer' cert' rest') :
    bearer = bearer' ∧ cert = cert' := by
  obtain ⟨b, rfl, rfl, rfl⟩ | ⟨c, presented, rfl, rfl, rfl⟩ := plan_reviewed planned
  · obtain ⟨b', same, rfl, rfl⟩ | ⟨c', _, same, _⟩ := plan_reviewed planned'
    · exact ⟨congrArg some (bearer_inj same), rfl⟩
    · exact absurd same (bearer_ne_certKey b c')
  · obtain ⟨b', same, _⟩ | ⟨c', presented', same, rfl, rfl⟩ := plan_reviewed planned'
    · exact absurd same.symm (bearer_ne_certKey b' c)
    · exact ⟨rfl, congrArg some (inj (mine c presented) (theirs c' presented') same)⟩

/-! ## Runs -/

section Runs

variable {callers : Set ClientIdentity} {g : Gate} {longest : ℕ} {w : World}

/-- A value of the cache is the answer of a review of a caller with this key. -/
def FromReview (callers : Set ClientIdentity) (g : Gate) (longest now : ℕ) (key : CacheKey) (t : ℕ)
    (r : Review) : Prop :=
  ∃ call bearer cert rest kube t₁ t₂, (∀ i ∈ call.cred.cert, i ∈ callers) ∧
    g.plan call = .reviewed key.1 bearer cert rest ∧ g.kube = some kube ∧
    asked kube t₁ t₂ bearer cert key.2 = .ok r ∧ t₁ ≤ t₂ ∧ t₂ ≤ t ∧ t ≤ t₁ + longest ∧ t ≤ now

/-- The cache holds the answers of reviews, and every answer so far is fresh. -/
structure Inv (callers : Set ClientIdentity) (g : Gate) (longest : ℕ) (w : World) : Prop where
  cached : Expiring.Holds (FromReview callers g longest w.now) w.cache
  waiting : ∀ p ∈ w.waiting, ∀ i ∈ p.call.cred.cert, i ∈ callers
  fresh : ∀ a ∈ w.answered, Fresh g longest a

lemma Inv.init : Inv callers g longest .init :=
  ⟨Expiring.holds_empty, fun _ mem => absurd mem List.not_mem_nil,
    fun _ mem => absurd mem List.not_mem_nil⟩

/-- A fresh answer keeps the invariant. -/
lemma Inv.answer (h : Inv callers g longest w) {call : Call} {d : Decision}
    (fresh : Fresh g longest ⟨w.now, call, d⟩) : Inv callers g longest (w.answer call d) :=
  ⟨h.cached, h.waiting, List.forall_mem_cons.mpr ⟨fresh, h.fresh⟩⟩

/-- An answer for which no review is made is always fresh. -/
lemma fresh_at_once {call : Call} {d : Decision} {now : ℕ}
    (same : d = g.uncached now now call) : Fresh g longest ⟨now, call, d⟩ :=
  ⟨now, now, now, Nat.le_refl _, Nat.le_refl _, Nat.le_add_right _ _, Nat.le_refl _,
    Nat.lt_add_of_pos_right (by decide), same⟩

/-- **A call keeps the invariant**: what is found in the cache is the answer of a review of the very
caller. -/
lemma Inv.called (inj : Set.InjOn certKey callers) (h : Inv callers g longest w) {call : Call}
    (mine : ∀ i ∈ call.cred.cert, i ∈ callers) : Inv callers g longest (g.called w call) := by
  rw [Gate.called]
  split
  · rename_i d planned
    exact h.answer (fresh_at_once (by rw [Gate.uncached, planned]))
  · rename_i key bearer cert rest planned
    split
    · rename_i r known
      refine h.answer ?_
      rw [Gate.known] at known
      cases apiserver : g.kube with
      | none =>
        rw [apiserver] at known
        obtain rfl := Option.some.inj known
        exact fresh_at_once (by rw [Gate.uncached, planned, apiserver])
      | some kube =>
        rw [apiserver] at known
        obtain ⟨t, ⟨call', bearer', cert', rest', kube', t₁, t₂, theirs, planned', same, found,
          le₁, le₂, le₃, le₄⟩, young⟩ := h.cached.lookup known
        obtain rfl := Option.some.inj (apiserver.symm.trans same)
        obtain ⟨rfl, rfl⟩ := same_caller inj mine theirs planned planned'
        refine ⟨t₁, t₂, t, le₁, le₂, le₃, le₄, ?_, ?_⟩
        · show w.now < t + cacheTtl
          omega
        · rw [Gate.uncached, planned, apiserver]
          exact congrArg (fun r => rest r) found.symm
    · exact ⟨h.cached, List.forall_mem_cons.mpr ⟨mine, h.waiting⟩, h.fresh⟩

/-- **A review that is back keeps the invariant**: its answer is fresh, and goes into the cache
under the key of its caller. -/
lemma Inv.back (h : Inv callers g longest w) {p : Pending} {t₁ t₂ : ℕ}
    (onTime : OnTime longest w p t₁ t₂) : Inv callers g longest (g.back w p t₁ t₂) := by
  obtain ⟨mem, le₁, le₂, le₃, le₄⟩ := onTime
  have took : w.now ≤ t₁ + longest := by omega
  have positive : w.now < w.now + cacheTtl := Nat.lt_add_of_pos_right (by decide)
  rw [Gate.back]
  split
  · rename_i key bearer cert rest kube planned apiserver
    have fresh : Fresh g longest
        ⟨w.now, p.call, rest (asked kube t₁ t₂ bearer cert p.call.access)⟩ :=
      ⟨t₁, t₂, w.now, le₂, le₃, took, Nat.le_refl _, positive,
        by rw [Gate.uncached, planned, apiserver]⟩
    have left : ∀ q ∈ w.waiting.erase p, ∀ i ∈ q.call.cred.cert, i ∈ callers :=
      fun q there => h.waiting q (List.mem_of_mem_erase there)
    cases result : asked kube t₁ t₂ bearer cert p.call.access with
    | error e =>
      rw [result] at fresh
      exact Inv.answer (w := { w with waiting := w.waiting.erase p })
        ⟨h.cached, left, h.fresh⟩ fresh
    | ok r =>
      rw [result] at fresh
      have new : FromReview callers g longest w.now (key, p.call.access) w.now r :=
        ⟨p.call, bearer, cert, rest, kube, t₁, t₂, h.waiting p mem, planned, apiserver, result, le₂,
          le₃, took, Nat.le_refl _⟩
      exact Inv.answer (w := { w with
          waiting := w.waiting.erase p
          cache := Expiring.store cacheTtl w.now w.cache (key, p.call.access) r })
        ⟨h.cached.store new, left, h.fresh⟩ fresh
  · exact h

/-- Every step keeps the invariant. -/
lemma Inv.step (inj : Set.InjOn certKey callers) (h : Inv callers g longest w) {e : Event}
    (mine : e.By callers) : Inv callers g longest (step g longest w e) := by
  cases e with
  | pass d =>
    refine ⟨h.cached.mono ?_, h.waiting, h.fresh⟩
    rintro key t r ⟨call, bearer, cert, rest, kube, t₁, t₂, theirs, planned, apiserver, found, le₁,
      le₂, le₃, le₄⟩
    exact ⟨call, bearer, cert, rest, kube, t₁, t₂, theirs, planned, apiserver, found, le₁, le₂, le₃,
      Nat.le_add_right_of_le le₄⟩
  | call c => exact h.called inj mine
  | back p t₁ t₂ =>
    rw [KubeAuth.step]
    split_ifs with onTime
    · exact h.back onTime
    · exact h

/-- A review that fails leaves the cache as it was. -/
lemma failure_uncached (g : Gate) (longest : ℕ) (w : World) (e : Event) :
    FailureUncached g longest w e := by
  cases e with
  | pass d => trivial
  | call c => trivial
  | back p t₁ t₂ =>
    intro key bearer cert rest kube e planned apiserver failed
    rw [KubeAuth.step]
    split_ifs with onTime
    · rw [Gate.back, planned, apiserver]
      dsimp only
      rw [failed]
      rfl
    · rfl

end Runs

/-! ## Two certificates with one key -/

section Mixed

variable (c : ClientIdentity)

/-- An apiserver that allows everything to one certificate's user, and nothing to anyone else. -/
def onlyFor : KubeApi where
  tokenReview _ _ := .ok none
  accessReview _ u _ := .ok (u = c.user, "")

/-- The gate in front of it. -/
def gateFor : Gate := ⟨some (onlyFor c), none, true, false⟩

/-- A write with a certificate. -/
def write : Call := ⟨true, ⟨none, some c⟩, ⟨"drives", "update", none⟩⟩

/-- The first caller is reviewed, and then the second one calls. -/
def mixedRun (c' : ClientIdentity) : List Event :=
  [.call (write c), .back ⟨write c, 0⟩ 0 0, .call (write c')]

lemma plan_write (g : Gate) : g.plan (write c) = .reviewed (certKey c) none (some c)
    (g.afterReview (write c).access ("cert:" ++ c.cn) fun _ => .cert c) := rfl

/-- The world after the first review. -/
lemma reviewed_first :
    Runs.after (step (gateFor c) 0) .init [.call (write c), .back ⟨write c, 0⟩ 0 0] =
      ⟨0, Expiring.store cacheTtl 0 Expiring.empty (certKey c, (write c).access) (.allowed c.user),
        [], [⟨0, write c, .allowed (.cert c)⟩]⟩ := by
  have sent : step (gateFor c) 0 .init (.call (write c)) =
      { World.init with waiting := [⟨write c, 0⟩] } := rfl
  have allowed : asked (onlyFor c) 0 0 none (some c) (write c).access = .ok (.allowed c.user) := by
    simp [asked, onlyFor, Except.map, Except.mapError]
  rw [Runs.after_cons, sent, Runs.after_cons, Runs.after_nil, step, if_pos, Gate.back, plan_write]
  · show World.returned _ _ _ _ (asked (onlyFor c) 0 0 none (some c) (write c).access) = _
    rw [allowed]
    simp [World.returned, World.answer, World.init, Gate.afterReview]
  · exact ⟨List.mem_singleton_self _, Nat.le_refl _, Nat.le_refl _, Nat.le_refl _, Nat.le_refl _⟩

/-- **The second caller is let in with the first one's review**. -/
lemma second_let_in {c c' : ClientIdentity} (same : certKey c = certKey c') :
    ⟨0, write c', .allowed (.cert c')⟩ ∈
      (Runs.after (step (gateFor c) 0) .init (mixedRun c c')).answered := by
  have found : (gateFor c).known (Runs.after (step (gateFor c) 0) .init
      [.call (write c), .back ⟨write c, 0⟩ 0 0]) (certKey c', (write c').access) (some c') =
        some (.allowed c.user) := by
    rw [reviewed_first, ← same]
    exact Expiring.lookup_store (by decide)
  have run : mixedRun c c' = [.call (write c), .back ⟨write c, 0⟩ 0 0] ++ [.call (write c')] := rfl
  rw [run, Runs.after_append, Runs.after_cons, Runs.after_nil, step, Gate.called, plan_write]
  dsimp only
  rw [found, reviewed_first]
  exact List.mem_cons_self

/-- The second caller's own review refuses it. -/
lemma second_refused {c c' : ClientIdentity} (other : c ≠ c') (t₁ t₂ : ℕ) :
    (gateFor c).uncached t₁ t₂ (write c') ≠ .allowed (.cert c') := by
  have users : c'.user ≠ c.user := by
    intro same
    obtain ⟨cn, groups, _⟩ := KubeUser.mk.inj same
    exact other (by cases c; cases c'; simp_all)
  simp [Gate.uncached, plan_write, gateFor, asked, onlyFor, users, Except.map, Except.mapError,
    Gate.afterReview]

/-- Two certificates with one key are mixed up. -/
lemma mixed {callers : Set ClientIdentity} {c c' : ClientIdentity} (mem : c ∈ callers)
    (mem' : c' ∈ callers) (same : certKey c = certKey c') (other : c ≠ c') :
    ¬ NeverMixes callers := by
  intro never
  have mine : ∀ e ∈ mixedRun c c', e.By callers := by
    simp [mixedRun, Event.By, write, mem, mem']
  obtain ⟨t₁, t₂, t, -, -, -, -, -, fresh⟩ :=
    (never (gateFor c) 0 (mixedRun c c') mine).2 _ (second_let_in same)
  exact second_refused other t₁ t₂ fresh.symm

end Mixed

/-- **The cache never mixes callers exactly when no two of their certificates are written as one
text**.

**Proof sketch.** Every value of the cache is the answer of a review of a caller with its key, and
where keys name callers, that is the very caller of the call that finds it. Otherwise the first of
two certificates with one key is reviewed, and its answer is given to the second. -/
theorem neverMixes_iff (callers : Set ClientIdentity) :
    NeverMixes callers ↔ Set.InjOn certKey callers := by
  constructor
  · intro never c mem c' mem' same
    by_contra other
    exact mixed mem mem' same other never
  · intro inj g longest es mine
    refine ⟨Runs.each_of_forall (failure_uncached g longest) _ es, ?_⟩
    have inv : ∀ (es : List Event) (w : World), (∀ e ∈ es, e.By callers) →
        Inv callers g longest w → Inv callers g longest (Runs.after (step g longest) w es) := by
      intro es
      induction es with
      | nil => exact fun w _ h => h
      | cons e es ih =>
        intro w mine h
        exact ih _ (fun e' mem => mine e' (List.mem_cons_of_mem e mem))
          (h.step inj (mine e List.mem_cons_self))
    exact (inv es .init mine .init).fresh

/-- **A group named `dev,storage-admins` passes for two groups**: the answer to the one certificate
is given to the other. -/
theorem groups_run_together : ¬ NeverMixes Set.univ :=
  mixed (Set.mem_univ ⟨"alice", ["dev", "storage-admins"]⟩)
    (Set.mem_univ ⟨"alice", ["dev,storage-admins"]⟩) (by decide) (by decide)

end KubeAuth

end StormDrive
