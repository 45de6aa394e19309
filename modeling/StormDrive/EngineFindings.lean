import StormDrive.Hysteresis
import StormDrive.Interleave.Runs
import StormDrive.Monitor

set_option relaxedAutoImplicit false
set_option autoImplicit false

/-!
# Findings of the engine

A drive's verdict has two writers (`monitor.rs`): the samples of the drive, damped, and what the
engine reports of the drive's slabs, which is not damped. The stored verdict is what the damper gets
back as the drive's.

## Main definitions

* `EngineFindings.World.step` — a sample is looked at and judged, and the engine's report comes in.
* `EngineFindings.Apart` — what a judged sample stores is the finding and the drive's own verdict.
* `EngineFindings.Calm` — the finding stands while a sample is judged, and none went away since the
  last one that hid a better verdict of the drive's own.

## Main results

* `EngineFindings.apart_of_calm` — **in calm runs findings stay apart from the drive's own verdict**.
* `EngineFindings.finding_leaks` — a finding that came and went has one warning believed at once.

## Implementation notes

Beside the daemon's state stands the verdict that the damper alone would hold. What history says of
a drive that has not been sampled yet is part of the event.
-/

namespace StormDrive

namespace EngineFindings

/-! ## The two writers -/

/-- The engine left the drive's slabs unused. -/
structure Finding where
  severity : HealthStatus
  roles : List String
  message : String
  deriving DecidableEq

/-- What came of asking a drive. -/
inductive Outcome
  | sampled (s : Monitor.Sample)
  | timedOut
  | stillStuck

namespace Outcome

/-- The sample that is judged. -/
def sample (timeout : ℕ) : Outcome → Monitor.Sample
  | sampled s => s
  | timedOut =>
    { kernelOk := false
      messages := ["health read did not answer within " ++ toString timeout ++ " s"] }
  | stillStuck =>
    { kernelOk := false, messages := ["health read still hung from an earlier poll"] }

def answered : Outcome → Bool
  | sampled _ => true
  | _ => false

end Outcome

/-- The health report of the drive. -/
structure Health where
  status : Option HealthStatus
  mediaErrors : ℕ
  collected : Bool
  messages : List String
  notCollected : Option String
  deriving DecidableEq

/-- What is read of the drive before its sample is judged. -/
structure Look where
  out : Outcome
  prev : Option ℕ
  current : HealthStatus
  engine : Option Finding
  ack : Option Monitor.HealthAck

/-- The drive, the damper, the sample that is being judged, and the verdict that a damper alone
would hold. -/
structure World where
  health : Health
  finding : Option Finding
  ack : Option Monitor.HealthAck
  damper : Poller.Damper
  looking : Option Look
  own : Poller.Damper × HealthStatus

/-- What happens: a sample comes in, it is judged, the engine reports, someone acknowledges. -/
inductive Event
  | look (out : Outcome)
  | judge (baseline : Option ℕ)
  | engine (f : Option Finding)
  | acknowledge (ack : Monitor.HealthAck)

/-- What the monitor is configured with. -/
structure Config where
  thresholds : Monitor.MonitorConfig
  hysteresis : ℕ
  timeout : ℕ

/-- The verdict that is stored; `unknown` when there is none. -/
def Health.verdict (h : Health) : HealthStatus := h.status.getD .unknown

/-- A verdict, raised to the finding's. -/
def worst (f : Option Finding) (s : HealthStatus) : HealthStatus :=
  Debounce.lift (f.map Finding.severity) s

namespace World

variable (cfg : Config) (id : DriveId) (w : World)

/-- The drive is read. -/
def look (out : Outcome) : World :=
  if w.looking.isSome then w
  else { w with
    looking := some
      { out := out
        prev := if w.health.collected then some w.health.mediaErrors else none
        current := w.health.verdict
        engine := w.finding
        ack := w.ack } }

end World

/-- The verdict on the sample; the first one grows from the last kept record. -/
def Look.verdict (cfg : Config) (l : Look) (baseline : Option ℕ) : Monitor.Verdict :=
  let prev := match l.prev with
    | some p => some p
    | none => if l.out.answered then baseline else none
  Monitor.evaluateAcked cfg.thresholds (l.out.sample cfg.timeout) prev l.ack

namespace World

variable (cfg : Config) (id : DriveId) (w : World)

/-- **The sample is judged and the verdict stored**. -/
def judge (baseline : Option ℕ) : World :=
  match w.looking with
  | none => w
  | some l =>
    let (candidate, why) := l.verdict cfg baseline
    let (damper, effective) := w.damper.apply cfg.hysteresis id l.current candidate
    let effective := worst l.engine effective
    let why := why ++ (l.engine.map Finding.message).toList
    let sample := l.out.sample cfg.timeout
    { w with
      health :=
        if l.out.answered then
          { status := some effective
            mediaErrors := sample.mediaErrors
            collected := true
            messages := why
            notCollected := none }
        else
          { w.health with
            status := some effective
            messages := why
            notCollected := sample.messages.head? }
      damper := damper
      looking := none
      own := w.own.1.apply cfg.hysteresis id w.own.2 candidate }

/-- **The engine reports**. -/
def engine (f : Option Finding) : World :=
  if f = w.finding then w
  else
    let messages := match w.finding with
      | some old => w.health.messages.filter (· ≠ old.message)
      | none => w.health.messages
    { w with
      health := match f with
        | some nf =>
          { w.health with
            status := if w.health.verdict < nf.severity then some nf.severity else w.health.status
            messages := messages ++ [nf.message] }
        | none => { w.health with messages := messages }
      finding := f }

def step (w : World) : Event → World
  | .look out => w.look out
  | .judge baseline => w.judge cfg id baseline
  | .engine f => w.engine f
  | .acknowledge ack => { w with ack := some ack }

/-- A daemon that starts with a drive as it was kept, without a finding. -/
def first (health : Health) (ack : Option Monitor.HealthAck) : World where
  health := health
  finding := none
  ack := ack
  damper := fun _ => none
  looking := none
  own := (fun _ => none, health.verdict)

end World

/-! ## What is promised, and when it holds -/

/-- What an answered sample stores is the worse of the finding, as it is then, and the verdict that
the damper alone would hold. -/
def Apart (cfg : Config) (id : DriveId) (w : World) : Event → Prop
  | .judge baseline => ∀ l, w.looking = some l → l.out.answered = true →
      (w.judge cfg id baseline).health.status =
        some (worst w.finding (w.judge cfg id baseline).own.2)
  | _ => True

/-- The finding is as severe when the sample is judged as it was when the drive was read; and the
verdict on the sample is not worse than the drive's own or sticks with it, or it is not worse than
the finding's, or the stored verdict is no worse than those two. -/
def Calm (cfg : Config) (id : DriveId) (w : World) : Event → Prop
  | .judge baseline => ∀ l, w.looking = some l →
      l.engine.map Finding.severity = w.finding.map Finding.severity ∧
      ((l.verdict cfg baseline).1 ≤ w.own.2 ∨
        (w.own.1.apply cfg.hysteresis id w.own.2 (l.verdict cfg baseline).1).2 =
          (l.verdict cfg baseline).1 ∨
        (∃ f, l.engine = some f ∧ (l.verdict cfg baseline).1 ≤ f.severity) ∨
        l.current = worst l.engine w.own.2)
  | _ => True

/-! ## The invariant -/

/-- A verdict and what is counted against it. -/
def stateOf (id : DriveId) (v : HealthStatus) (p : Poller.Damper) : Debounce.State HealthStatus :=
  ⟨v, p id⟩

/-- A verdict that is fed back is at least the drive's own and the finding's, and what is worse than
it is counted as against the drive's own. -/
structure Raised (id : DriveId) (w : World) (v : HealthStatus) (f : Option Finding) : Prop where
  own : w.own.2 ≤ v
  finding : ∀ g ∈ f, g.severity ≤ v
  counts : ∀ k, v < k →
    (stateOf id v w.damper).met k = (stateOf id w.own.2 w.own.1).met k

/-- It is so of the stored verdict, and of the one that was read. -/
structure Sound (id : DriveId) (w : World) : Prop where
  stored : Raised id w w.health.verdict w.finding
  looked : ∀ l, w.looking = some l → Raised id w l.current l.engine

lemma sound_first (id : DriveId) (health : Health) (ack : Option Monitor.HealthAck) :
    Sound id (World.first health ack) := by
  refine ⟨⟨le_refl health.verdict, ?_, fun _ _ => rfl⟩, ?_⟩
  · intro g mem
    exact absurd mem (Option.not_mem_none g)
  · intro l is
    exact absurd is nofun

/-- What is counted against a verdict is against a worse one too. -/
lemma Raised.mono {id : DriveId} {w : World} {u v : HealthStatus} {f g : Option Finding}
    (h : Raised id w u f) (le : u ≤ v) (finding : ∀ x ∈ g, x.severity ≤ v) : Raised id w v g :=
  ⟨le_trans h.own le, finding, fun k above => h.counts k (lt_of_le_of_lt le above)⟩

section Steps

variable {cfg : Config} {id : DriveId} {w : World}

lemma Sound.look (inv : Sound id w) (out : Outcome) : Sound id (w.look out) := by
  unfold World.look
  split_ifs with busy
  · exact inv
  all_goals
    refine ⟨⟨inv.stored.own, inv.stored.finding, inv.stored.counts⟩, ?_⟩
    intro l is
    obtain rfl := Option.some.inj is
    exact ⟨inv.stored.own, inv.stored.finding, inv.stored.counts⟩

lemma Sound.engine (inv : Sound id w) (f : Option Finding) : Sound id (w.engine f) := by
  unfold World.engine
  split_ifs with same
  · exact inv
  · refine ⟨?_, fun l is => ?_⟩
    · cases f with
      | none => exact ⟨inv.stored.own, nofun, inv.stored.counts⟩
      | some nf =>
        by_cases raises : w.health.verdict < nf.severity
        · simp only [if_pos raises]
          have raised := inv.stored.mono (g := some nf) (le_of_lt raises) (by simp)
          exact ⟨raised.own, raised.finding, raised.counts⟩
        · simp only [if_neg raises]
          have raised := inv.stored.mono (g := some nf) (le_refl _) (by simpa using raises)
          exact ⟨raised.own, raised.finding, raised.counts⟩
    · have looked := inv.looked l is
      exact ⟨looked.own, looked.finding, looked.counts⟩

/-- What is stored when a sample is judged. -/
lemma judge_verdict {baseline : Option ℕ} {l : Look} (is : w.looking = some l) :
    (w.judge cfg id baseline).health.status = some (worst l.engine
      (w.damper.apply cfg.hysteresis id l.current (l.verdict cfg baseline).1).2) := by
  simp only [World.judge, is]
  split_ifs
  · rfl
  · rfl

/-- Where the drive's own verdict is, and what is counted against it, once a sample is judged. -/
lemma judge_own {baseline : Option ℕ} {l : Look} (is : w.looking = some l) :
    stateOf id (w.judge cfg id baseline).own.2 (w.judge cfg id baseline).own.1 =
      Debounce.step cfg.hysteresis (stateOf id w.own.2 w.own.1) (l.verdict cfg baseline).1 := by
  simp only [World.judge, is]
  exact Poller.Damper.apply_eq_step cfg.hysteresis id w.own.1 w.own.2 _

/-- What the damper makes of the verdict that is fed back. -/
lemma judge_fed {baseline : Option ℕ} {l : Look} (is : w.looking = some l) :
    stateOf id (w.damper.apply cfg.hysteresis id l.current (l.verdict cfg baseline).1).2
        (w.judge cfg id baseline).damper =
      Debounce.step cfg.hysteresis (stateOf id l.current w.damper) (l.verdict cfg baseline).1 := by
  simp only [World.judge, is]
  exact Poller.Damper.apply_eq_step cfg.hysteresis id w.damper l.current _

lemma judge_rest {baseline : Option ℕ} {l : Look} (is : w.looking = some l) :
    (w.judge cfg id baseline).finding = w.finding ∧
      (w.judge cfg id baseline).looking = none := by
  simp only [World.judge, is, and_self]

/-- **A calm sample is stored as the finding and the drive's own verdict**.

**Proof sketch.** The verdict that is fed back is the drive's own, raised by the finding, so both
follow the sample alike (`Debounce.step_lift`). -/
lemma Sound.judge (inv : Sound id w) {baseline : Option ℕ} {l : Look} (is : w.looking = some l)
    (calm : Calm cfg id w (.judge baseline)) :
    (w.judge cfg id baseline).health.status =
        some (worst w.finding (w.judge cfg id baseline).own.2) ∧
      Sound id (w.judge cfg id baseline) := by
  obtain ⟨steady, calm⟩ := calm l is
  have raised := inv.looked l is
  have bound : ∀ x ∈ l.engine.map Finding.severity, x ≤ l.current := by
    intro x severe
    obtain ⟨f, mem, rfl⟩ := Option.mem_map.mp severe
    exact raised.finding f mem
  have quiet : (l.verdict cfg baseline).1 ≤ w.own.2 ∨
      (Debounce.step cfg.hysteresis (stateOf id w.own.2 w.own.1) (l.verdict cfg baseline).1).value =
        (l.verdict cfg baseline).1 ∨
      (∃ x ∈ l.engine.map Finding.severity, (l.verdict cfg baseline).1 ≤ x) ∨
      l.current = Debounce.lift (l.engine.map Finding.severity) w.own.2 := by
    obtain better | sticks | ⟨f, found, hidden⟩ | stands := calm
    · exact .inl better
    · refine .inr (.inl ?_)
      rw [stateOf, ← Poller.Damper.apply_eq_step]
      exact sticks
    · exact .inr (.inr (.inl ⟨f.severity, by rw [found]; rfl, hidden⟩))
    · exact .inr (.inr (.inr stands))
  obtain ⟨same, counts⟩ :=
    Debounce.step_lift (s := stateOf id l.current w.damper) raised.own bound raised.counts quiet
  rw [← judge_fed is, ← judge_own is] at same counts
  have stored : (w.judge cfg id baseline).health.status =
      some (worst w.finding (w.judge cfg id baseline).own.2) := by
    rw [judge_verdict is, worst, worst, ← steady]
    exact congrArg some same
  refine ⟨stored, ?_, ?_⟩
  · have verdict : (w.judge cfg id baseline).health.verdict =
        worst w.finding (w.judge cfg id baseline).own.2 := by
      rw [Health.verdict, stored, Option.getD_some]
    rw [verdict, (judge_rest is).1]
    refine ⟨Debounce.le_lift _ _, ?_, ?_⟩
    · intro g mem
      exact Debounce.floor_le_lift (Option.mem_map.mpr ⟨g, mem, rfl⟩) _
    · intro k above
      rw [worst, ← steady] at above
      exact counts k above
  · intro l' now
    rw [(judge_rest is).2] at now
    exact absurd now nofun

/-- A calm step keeps the invariant. -/
lemma Sound.step (inv : Sound id w) {e : Event} (calm : Calm cfg id w e) :
    Sound id (w.step cfg id e) := by
  cases e with
  | look out => exact inv.look out
  | judge baseline =>
    cases is : w.looking with
    | none =>
      have idle : w.judge cfg id baseline = w := by rw [World.judge, is]
      rw [World.step, idle]
      exact inv
    | some l => exact (inv.judge is calm).2
  | engine f => exact inv.engine f
  | acknowledge ack =>
    refine ⟨⟨inv.stored.own, inv.stored.finding, inv.stored.counts⟩, fun l is => ?_⟩
    have looked := inv.looked l is
    exact ⟨looked.own, looked.finding, looked.counts⟩

lemma Sound.apart (inv : Sound id w) {e : Event} (calm : Calm cfg id w e) : Apart cfg id w e := by
  cases e with
  | judge baseline =>
    intro l is _
    exact (inv.judge is calm).1
  | _ => trivial

end Steps

/-- **In calm runs findings stay apart from the drive's own verdict**. -/
theorem apart_of_calm (cfg : Config) (id : DriveId) (health : Health)
    (ack : Option Monitor.HealthAck) (es : List Event)
    (calm : Runs.Each (World.step cfg id) (Calm cfg id) (World.first health ack) es) :
    Runs.Each (World.step cfg id) (Apart cfg id) (World.first health ack) es :=
  Runs.each_of_each (fun _ _ inv ok => inv.step ok) (fun _ _ inv ok => inv.apart ok)
    (sound_first id health ack) calm

/-- A drive that was good. -/
def goodHealth : Health := ⟨some .good, 0, true, [], none⟩

/-- The engine took the disk and could not use it. -/
def unusedSlabs : Finding := ⟨.failing, ["data"], "the engine took this disk and could not use it"⟩

/-- The configuration with its defaults. -/
def defaults : Config := ⟨{}, 3, 10⟩

def cool : Outcome := .sampled { kernelOk := true, temperatureC := some 30 }

def warm : Outcome := .sampled { kernelOk := true, temperatureC := some 60 }

/-- A finding comes and stays while good samples are judged. -/
theorem finding_stays_apart : Runs.Each (World.step defaults ⟨⟨1⟩⟩) (Apart defaults ⟨⟨1⟩⟩)
    (World.first goodHealth none) [.engine (some unusedSlabs), .look cool, .judge none] := by
  apply apart_of_calm
  refine ⟨trivial, trivial, ?_, trivial⟩
  intro l is
  obtain rfl := Option.some.inj is
  exact ⟨rfl, .inl (by decide)⟩

/-- **A finding that came and went has one warning believed at once**. -/
theorem finding_leaks : ¬ Runs.Each (World.step defaults ⟨⟨1⟩⟩) (Apart defaults ⟨⟨1⟩⟩)
    (World.first goodHealth none)
    [.engine (some unusedSlabs), .engine none, .look warm, .judge none] := by
  intro apart
  have stored := apart.2.2.2.1 _ rfl rfl
  exact absurd stored (by decide)

end EngineFindings

end StormDrive
