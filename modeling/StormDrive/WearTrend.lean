import StormDrive.Interleave.LedgerLog
import StormDrive.Interleave.Runs

set_option relaxedAutoImplicit false
set_option autoImplicit false

/-!
# The wear trend of a drive

What the monitor keeps of a drive's wear and media errors over time (`monitor.rs`, `apply_outcome`,
and `inventory.rs`, `record_trend`): a sample whenever one of the two changed and at least once a
day, the newest of them, and from them the days to its rated endurance.

## Main definitions

* `Wear.due`, `Wear.recordTrend` — whether a sample goes into the trend, and the trend with it.
* `Wear.Drive`, `Wear.observe` — what is kept of a drive, and what one sample does to it.

## Main results

* `Wear.trend_faithful` — **the trend is the end of a log that misses no change**, and it ends with
  the drive's wear as it is.

## Implementation notes

The fit of a line through the trend is done in floating point; it is the parameter `project`, the
days that are left by it.
-/

namespace StormDrive

namespace Wear

/-- A sample in the trend of a drive. -/
structure TrendSample where
  unixSecs : ℕ
  wearPct : Option ℕ
  mediaErrors : ℕ
  deriving DecidableEq

/-- How many samples a trend holds. -/
def maxTrendSamples : ℕ := 512

lemma maxTrendSamples_pos : 0 < maxTrendSamples := Nat.succ_pos _

/-- How often an unchanged reading is still recorded: once a day. -/
def trendHeartbeatSecs : ℕ := 86400

/-- A sample goes into the trend when it is the first, differs from the last, or that is a day
old. -/
def due (last : Option TrendSample) (s : TrendSample) : Bool :=
  match last with
  | none => true
  | some l => l.wearPct ≠ s.wearPct || l.mediaErrors ≠ s.mediaErrors ||
      trendHeartbeatSecs ≤ s.unixSecs - l.unixSecs

/-- `Inventory::record_trend`: at the end of the trend, which drops its oldest beyond the bound. -/
def recordTrend (trend : List TrendSample) (s : TrendSample) : List TrendSample :=
  (trend ++ [s]).drop ((trend ++ [s]).length - maxTrendSamples)

/-- What is kept of a drive: its trend, the days left by it, and what was told of that. -/
structure Drive where
  trend : List TrendSample := []
  projection : Option ℕ := none
  told : List ℕ := []

variable (project : List TrendSample → ℕ → Option ℕ) (warn : ℕ)

/-- **One sample of a drive that answered.** The days left are told when they fall under the
warning. -/
def observe (d : Drive) (s : TrendSample) : Drive :=
  if due d.trend.getLast? s then
    let trend := recordTrend d.trend s
    let p := project trend s.unixSecs
    { trend := trend
      projection := p
      told := match p with
        | some days =>
          if days < warn ∧ d.projection.all fun was => warn ≤ was then d.told ++ [days]
          else d.told
        | none => d.told }
  else d

/-- What one collection brought of a drive. -/
structure Outcome where
  answered : Bool
  ssd : Bool
  sample : TrendSample

/-- A trend is kept of drives that wear: of the solid state ones, and of those that tell it. -/
def Outcome.trended (o : Outcome) : Bool :=
  o.answered && (o.ssd || o.sample.wearPct.isSome)

/-- One collection of a drive, of which only an answer is a sample. -/
def applyOutcome (d : Drive) (o : Outcome) : Drive :=
  if o.trended then observe project warn d o.sample else d

/-- The samples that the collections brought. -/
def samplesOf (outcomes : List Outcome) : List TrendSample :=
  (outcomes.filter Outcome.trended).map Outcome.sample

/-! ## As a log -/

/-- When a sample is due, as a rule. -/
def rule : Ledger.Rule (Option ℕ × ℕ) where
  differs u v := u ≠ v
  heartbeat := trendHeartbeatSecs

/-- A sample as an entry of a log. -/
def entry (s : TrendSample) : (Option ℕ × ℕ) × ℕ := ((s.wearPct, s.mediaErrors), s.unixSecs)

lemma due_eq (last : Option TrendSample) (s : TrendSample) :
    due last s = rule.due s.unixSecs (last.map entry) (s.wearPct, s.mediaErrors) := by
  cases last with
  | none => rfl
  | some l =>
    simp only [due, rule, entry, Ledger.Rule.due, Option.map_some]
    by_cases wear : l.wearPct = s.wearPct
    · by_cases media : l.mediaErrors = s.mediaErrors
      · simp only [wear, media, ne_eq, not_true_eq_false, decide_false, Bool.or_self]
        rfl
      · simp [wear, media]
    · simp [wear]

/-- **After any samples the trend is the end of the log of them.** -/
lemma trend_eq (samples : List TrendSample) :
    (Runs.after (observe project warn) {} samples).trend.map entry =
      Ledger.keepLast maxTrendSamples (Ledger.noteAll rule (samples.map entry)) := by
  induction samples using List.reverseRecOn with
  | nil => rfl
  | append_singleton samples s ih =>
    rw [Runs.after_append, List.map_append, List.map_singleton, Ledger.noteAll_concat]
    set d := Runs.after (observe project warn) {} samples
    have last : d.trend.getLast?.map entry =
        (Ledger.noteAll rule (samples.map entry)).getLast? := by
      rw [← List.getLast?_map, ih, Ledger.getLast?_keepLast maxTrendSamples_pos]
    show (observe project warn d s).trend.map entry = Ledger.keepLast maxTrendSamples
      (Ledger.note rule (Ledger.noteAll rule (samples.map entry)) (entry s))
    unfold observe Ledger.note
    show List.map entry (if _ then _ else _ : Drive).trend = Ledger.keepLast _
      (if rule.due s.unixSecs _ (s.wearPct, s.mediaErrors) then _ else _)
    rw [due_eq, last]
    split_ifs with due
    · rw [← Ledger.keepLast_concat, ← ih]
      simp [recordTrend]
    · exact ih

lemma after_applyOutcome (d : Drive) (outcomes : List Outcome) :
    Runs.after (applyOutcome project warn) d outcomes =
      Runs.after (observe project warn) d (samplesOf outcomes) := by
  induction outcomes generalizing d with
  | nil => rfl
  | cons o os ih =>
    rw [Runs.after_cons, ih, applyOutcome]
    unfold samplesOf
    rw [List.filter_cons]
    split_ifs with trended
    · rw [List.map_cons, Runs.after_cons]
    · rfl

/-- The newest of the trend, after at least one sample. -/
lemma newest_of_trend (samples : List TrendSample) {s : TrendSample}
    (newest : samples.getLast? = some s) :
    ∃ l, (Runs.after (observe project warn) {} samples).trend.getLast? = some l ∧
      l.wearPct = s.wearPct ∧ l.mediaErrors = s.mediaErrors ∧
      (l.unixSecs = s.unixSecs ∨ s.unixSecs - l.unixSecs < trendHeartbeatSecs) := by
  obtain ⟨before, rfl⟩ := List.getLast?_eq_some_iff.mp newest
  obtain ⟨w, last, near⟩ := Ledger.noteAll_near (r := rule) (before.map entry) (entry s)
  have kept : (Runs.after (observe project warn) {} (before ++ [s])).trend.getLast?.map entry =
      some w := by
    rw [← List.getLast?_map, trend_eq, Ledger.getLast?_keepLast maxTrendSamples_pos,
      List.map_append]
    exact last
  obtain ⟨l, hl, rfl⟩ := Option.map_eq_some_iff.mp kept
  have same : (l.wearPct, l.mediaErrors) = (s.wearPct, s.mediaErrors) := by
    rcases near.alike with same | alike
    · exact same
    · exact not_not.mp (of_decide_eq_false alike)
  exact ⟨l, hl, congrArg Prod.fst same, congrArg Prod.snd same, near.fresh⟩

/-- **The trend is the end of a log that misses no change.** After any collections of a drive,
answered or not: there is a log of all that was recorded, which without repetitions is what the
samples showed, each entry differing from the one before or a day after it; the trend is its newest
512 entries; and its last entry has the wear and the media errors of the last sample, and is less
than a day older or as new. -/
theorem trend_faithful (outcomes : List Outcome) :
    let d := Runs.after (applyOutcome project warn) {} outcomes
    let samples := samplesOf outcomes
    ∃ log : List ((Option ℕ × ℕ) × ℕ),
      (log.map Prod.fst).destutter (· ≠ ·) =
        (samples.map fun s => (s.wearPct, s.mediaErrors)).destutter (· ≠ ·) ∧
      (log.IsChain fun a b => a.1 ≠ b.1 ∨ trendHeartbeatSecs ≤ b.2 - a.2) ∧
      d.trend.map entry = Ledger.keepLast maxTrendSamples log ∧
      ∀ s, samples.getLast? = some s →
        ∃ l, d.trend.getLast? = some l ∧ l.wearPct = s.wearPct ∧ l.mediaErrors = s.mediaErrors ∧
          (l.unixSecs = s.unixSecs ∨ s.unixSecs - l.unixSecs < trendHeartbeatSecs) := by
  intro d samples
  have observed : d = Runs.after (observe project warn) {} samples :=
    after_applyOutcome project warn {} outcomes
  refine ⟨Ledger.noteAll rule (samples.map entry), ?_, ?_, ?_, ?_⟩
  · rw [Ledger.destutter_noteAll (fun u v => by simp [rule]), List.map_map]
    rfl
  · refine (Ledger.isChain_noteAll _).imp ?_
    intro a b apart
    exact apart.imp_left of_decide_eq_true
  · rw [observed, trend_eq]
  · intro s newest
    rw [observed]
    exact newest_of_trend project warn samples newest

end Wear

end StormDrive
