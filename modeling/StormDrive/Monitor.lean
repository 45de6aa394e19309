import StormDrive.Counters
import StormDrive.Drive
import StormDrive.LogPages

set_option relaxedAutoImplicit false
set_option autoImplicit false

/-!
# Health verdicts

The verdict on one sample of a drive, and what an acknowledgement of a warning changes in it
(`monitor.rs`).

## Main definitions

* `Monitor.Sample`, `Monitor.HealthAck` — a sample, and what was acknowledged.
* `Monitor.evaluateAcked`, `Monitor.evaluate` — the verdict and its reasons.
* `Monitor.Sample.ack` — the acknowledgement of a sample.
* `Monitor.AckMeaning` — what an acknowledgement hides and what it does not.

## Main results

* `Monitor.ackMeaning` — **an acknowledgement hides the warning of the sample that was acknowledged,
  for as long as its code and its counters stand, and nothing else**.
* `Monitor.acknowledged_is_good` — the acknowledged sample itself is judged as if it did not warn.

## Implementation notes

A temperature and a limit are whole degrees, which `f64` has exactly. Where a limit comes from is
left out, as the verdict does not look at it. A map from names is a function.
-/

namespace StormDrive

namespace Monitor

/-! ## Samples -/

/-- What the configuration says of health. -/
structure MonitorConfig where
  tempWarnC : ℤ := 55
  tempCritC : ℤ := 70
  spareWarnPct : ℕ := 20
  spareCritPct : ℕ := 10
  wearWarnPct : ℕ := 80
  wearCritPct : ℕ := 95

/-- What a SAS or SATA drive says itself, with the code behind its warning. -/
structure SmartCounters extends StormDrive.SmartCounters where
  ie : Option LogSense.IeCode

/-- The counters that an acknowledgement records, by name. -/
def SmartCounters.named (c : SmartCounters) : List (String × Option ℕ) :=
  ([.grownDefects, .reallocatedSectors, .pendingSectors, .offlineUncorrectable,
      .reportedUncorrectable, .crcErrors].map fun k : SmartCounter => (k.name, c.sectors k)) ++
    [ErrorPage.read, .write, .verify].flatMap fun page =>
      [(page.name ++ "_corrected", (c.errors page).bind fun e => e .corrected),
        (page.name ++ "_uncorrected", (c.errors page).bind fun e => e .uncorrected)]

def SmartCounters.counters (c : SmartCounters) (k : String) : Option ℕ := (c.named.lookup k).join

/-- One look at a drive, as far as the verdict goes. -/
structure Sample where
  temperatureC : Option ℤ := none
  tempLimits : Option LogSense.TempLimits := none
  mediaErrors : ℕ := 0
  availableSparePct : Option ℕ := none
  wearPct : Option ℕ := none
  criticalWarning : UInt8 := 0
  kernelOk : Bool
  messages : List String := []
  smart : Option SmartCounters := none

/-- Someone looked at a drive's warning and accepted it: who, when, and what it stood at. -/
structure HealthAck where
  by_ : String
  atUnix : ℕ
  ie : Option LogSense.IeCode
  counters : String → Option ℕ

/-- The counters that bring an acknowledged warning back. -/
def ackWatched : List String :=
  ["grown_defects", "reallocated_sectors", "pending_sectors", "offline_uncorrectable",
    "reported_uncorrectable", "crc_errors", "read_uncorrected", "write_uncorrected",
    "verify_uncorrected"]

/-- The acknowledgement of what a drive's last sample says. -/
def Sample.ack (s : Sample) (by_ : String) (atUnix : ℕ) : HealthAck where
  by_ := by_
  atUnix := atUnix
  ie := s.smart.bind (·.ie)
  counters k := s.smart.bind fun sm => sm.counters k

/-! ## The verdict -/

/-- A reason to think worse of a drive: how badly, and why. -/
abbrev Complaint : Type := HealthStatus × String

/-- A verdict with its reasons. -/
abbrev Verdict : Type := HealthStatus × List String

/-- The verdict after a complaint. -/
def worsen (v : Verdict) (c : Complaint) : Verdict :=
  (if v.1.severity < c.1.severity then c.1 else v.1, if v.2.contains c.2 then v.2 else v.2 ++ [c.2])

/-- A complaint that is raised or not. -/
def complain (raised : Bool) (status : HealthStatus) (why : String) : List Complaint :=
  if raised then [(status, why)] else []

/-- A count of sectors warns when it is not zero, and more than what was accepted. -/
def sectorComplaints (ack : Option HealthAck) (k : String) (n : Option ℕ) (what : String) :
    List Complaint :=
  match n with
  | none => []
  | some n =>
    let accepted := (ack.bind fun a => a.counters k).any fun accepted => n ≤ accepted
    complain (0 < n && !accepted) .warning (toString n ++ what)

/-- A counter grew since it was acknowledged. -/
def grownWhy (k : String) (accepted n : ℕ) (by_ : String) : String :=
  String.map (fun c => if c = '_' then ' ' else c) k ++ " " ++ toString accepted ++ " → " ++
    toString n ++ " since " ++ by_ ++ " acknowledged"

/-- The watched counters that grew since they were acknowledged. -/
def growthComplaints (ack : Option HealthAck) (sm : SmartCounters) : List Complaint :=
  match ack with
  | none => []
  | some a => ackWatched.flatMap fun k =>
    match a.counters k, sm.counters k with
    | some accepted, some n => complain (accepted < n) .warning (grownWhy k accepted n a.by_)
    | _, _ => []

/-- The drive's warning, unless its code was acknowledged. -/
def ieComplaints (ack : Option HealthAck) (sm : SmartCounters) : List Complaint :=
  match sm.ieWarning with
  | none => []
  | some w => complain (ack.all fun a => a.ie ≠ sm.ie) .warning w

/-- What the drive says itself. -/
def smartComplaints (ack : Option HealthAck) (smart : Option SmartCounters) : List Complaint :=
  match smart with
  | none => []
  | some sm =>
    (sm.predictedFailure.toList.map fun why => (.failing, why)) ++
      ieComplaints ack sm ++
      sectorComplaints ack "pending_sectors" (sm.sectors .pendingSectors)
        " sector(s) pending reallocation" ++
      sectorComplaints ack "offline_uncorrectable" (sm.sectors .offlineUncorrectable)
        " offline-uncorrectable sector(s)" ++
      growthComplaints ack sm

/-- What an NVMe controller warns of. -/
def criticalComplaints (w : UInt8) : List Complaint :=
  complain (w &&& 0x08 ≠ 0) .failed "NVMe: media in read-only mode" ++
    complain (w &&& 0x04 ≠ 0) .failing "NVMe: reliability degraded" ++
    complain (w &&& 0x01 ≠ 0) .failing "NVMe: spare below threshold" ++
    complain (w &&& 0x10 ≠ 0) .warning "NVMe: volatile backup failed" ++
    complain (w &&& 0x02 ≠ 0) .warning "NVMe: temperature over threshold"

def spareComplaints (cfg : MonitorConfig) (spare : Option ℕ) : List Complaint :=
  match spare with
  | none => []
  | some spare =>
    let why (limit : ℕ) := "available spare " ++ toString spare ++ "% ≤ " ++ toString limit ++ "%"
    if spare ≤ cfg.spareCritPct then [(.failing, why cfg.spareCritPct)]
    else complain (spare ≤ cfg.spareWarnPct) .warning (why cfg.spareWarnPct)

def wearComplaints (cfg : MonitorConfig) (wear : Option ℕ) : List Complaint :=
  match wear with
  | none => []
  | some wear =>
    let why (limit : ℕ) := "wear " ++ toString wear ++ "% ≥ " ++ toString limit ++ "%"
    if cfg.wearCritPct ≤ wear then [(.failing, why cfg.wearCritPct)]
    else complain (cfg.wearWarnPct ≤ wear) .warning (why cfg.wearWarnPct)

/-- A plausible limit. -/
def saneLimit (v : Option ℤ) : Option ℤ := v.filter fun v => 0 < v ∧ v ≤ 150

/-- A drive's warning and critical limits: its own, else the configured ones; the warning is under
the critical one. -/
def driveTempLimits (cfg : MonitorConfig) (own : Option LogSense.TempLimits) : ℤ × ℤ :=
  let warn := saneLimit (own.bind (·.warnC))
  let crit := saneLimit (own.bind (·.critC))
  let warn := match warn, crit with
    | some w, some c => if c ≤ w then none else some w
    | w, _ => w
  let critC := crit.getD cfg.tempCritC
  let warnC := match warn with
    | none => if crit.isSome && critC - 5 < cfg.tempWarnC then critC - 5 else cfg.tempWarnC
    | some w => w
  (if critC ≤ warnC then critC - 5 else warnC, critC)

def temperatureComplaints (cfg : MonitorConfig) (s : Sample) : List Complaint :=
  match s.temperatureC with
  | none => []
  | some t =>
    let (w, c) := driveTempLimits cfg s.tempLimits
    if c ≤ t then
      [(.warning, "temperature " ++ toString t ++ "°C ≥ critical " ++ toString c ++ "°C")]
    else complain (w ≤ t) .warning
      ("temperature " ++ toString t ++ "°C ≥ warn " ++ toString w ++ "°C")

def mediaComplaints (prev : Option ℕ) (now : ℕ) : List Complaint :=
  match prev with
  | none => []
  | some prev => complain (prev < now) .warning
      ("media errors growing: " ++ toString prev ++ " → " ++ toString now)

/-- All complaints about a drive that the kernel can use, in order. -/
def complaints (cfg : MonitorConfig) (s : Sample) (prev : Option ℕ) (ack : Option HealthAck) :
    List Complaint :=
  smartComplaints ack s.smart ++ criticalComplaints s.criticalWarning ++
    spareComplaints cfg s.availableSparePct ++ wearComplaints cfg s.wearPct ++
    temperatureComplaints cfg s ++ mediaComplaints prev s.mediaErrors

/-- The verdict on a sample, with the drive's acknowledged warning. -/
def evaluateAcked (cfg : MonitorConfig) (s : Sample) (prev : Option ℕ) (ack : Option HealthAck) :
    Verdict :=
  if s.kernelOk then (complaints cfg s prev ack).foldl worsen (.good, s.messages)
  else worsen (.good, s.messages) (.failed, "device unusable (kernel state / command failure)")

/-- The verdict on a sample. -/
def evaluate (cfg : MonitorConfig) (s : Sample) (prev : Option ℕ) : Verdict :=
  evaluateAcked cfg s prev none

/-! ## What an acknowledgement means -/

/-- The drive's own report without its warning and its pending and offline-uncorrectable sectors. -/
def SmartCounters.unwarned (sm : SmartCounters) : SmartCounters :=
  { sm with
    ieWarning := none
    sectors := fun k =>
      if k = .pendingSectors ∨ k = .offlineUncorrectable then none else sm.sectors k }

/-- The sample without the drive's warning, its pending and its offline-uncorrectable sectors. -/
def Sample.unwarned (s : Sample) : Sample := { s with smart := s.smart.map SmartCounters.unwarned }

/-- One verdict is at least as bad as a status. -/
def AtLeast (status : HealthStatus) (v : Verdict) : Prop := status.severity ≤ v.1.severity

/-- **What an acknowledgement hides and what it does not.** A predicted failure always counts; so
does a warning with another code, and a watched counter that is past what was recorded. Whoever
acknowledged a sample, one with the same report of the drive is judged as that sample without its
warning and its bad sectors, whatever its temperature, spare, wear, critical warning and kernel
state are. -/
structure AckMeaning (cfg : MonitorConfig) (s : Sample) (prev : Option ℕ) (ack : HealthAck) :
    Prop where
  predicted : ∀ sm why, s.smart = some sm → sm.predictedFailure = some why →
    AtLeast .failing (evaluateAcked cfg s prev (some ack))
  otherCode : ∀ sm w, s.smart = some sm → sm.ieWarning = some w → ack.ie ≠ sm.ie →
    AtLeast .warning (evaluateAcked cfg s prev (some ack))
  grown : ∀ sm k accepted n, s.smart = some sm → k ∈ ackWatched → ack.counters k = some accepted →
    sm.counters k = some n → accepted < n → AtLeast .warning (evaluateAcked cfg s prev (some ack))
  uncovered : ∀ (s₀ : Sample) (by_ : String) (atUnix : ℕ), ack = s₀.ack by_ atUnix →
    s.smart = s₀.smart → evaluateAcked cfg s prev (some ack) = evaluate cfg s.unwarned prev

/-! ## Complaints and verdicts -/

section Verdicts

variable {v : Verdict} {c : Complaint} {cs : List Complaint} {status : HealthStatus}

lemma le_worsen (v : Verdict) (c : Complaint) :
    v.1.severity ≤ (worsen v c).1.severity ∧ c.1.severity ≤ (worsen v c).1.severity := by
  rw [worsen]
  dsimp only
  split_ifs with worse
  · exact ⟨Nat.le_of_lt worse, Nat.le_refl _⟩
  · exact ⟨Nat.le_refl _, Nat.le_of_not_lt worse⟩

lemma le_foldl_worsen (cs : List Complaint) (v : Verdict) :
    v.1.severity ≤ (cs.foldl worsen v).1.severity := by
  induction cs generalizing v with
  | nil => exact Nat.le_refl _
  | cons c cs ih => exact Nat.le_trans (le_worsen v c).1 (ih (worsen v c))

/-- Every complaint counts. -/
lemma le_foldl_worsen_of_mem (mem : c ∈ cs) (v : Verdict) :
    c.1.severity ≤ (cs.foldl worsen v).1.severity := by
  induction cs generalizing v with
  | nil => exact absurd mem List.not_mem_nil
  | cons d cs ih =>
    obtain rfl | behind := List.mem_cons.mp mem
    · exact Nat.le_trans (le_worsen v c).2 (le_foldl_worsen cs _)
    · exact ih behind _

/-- Nothing is worse than failed. -/
lemma severity_le_failed (status : HealthStatus) :
    status.severity ≤ HealthStatus.failed.severity := by
  cases status <;> decide

/-- A drive that the kernel cannot use has failed, and any other is as bad as each complaint. -/
lemma atLeast_of_mem {cfg : MonitorConfig} {s : Sample} {prev : Option ℕ} {ack : Option HealthAck}
    (mem : c ∈ smartComplaints ack s.smart) : AtLeast c.1 (evaluateAcked cfg s prev ack) := by
  rw [AtLeast, evaluateAcked]
  split_ifs with usable
  · refine le_foldl_worsen_of_mem ?_ _
    simp only [complaints, List.append_assoc]
    exact List.mem_append_left _ mem
  · exact Nat.le_trans (severity_le_failed c.1) (le_worsen _ (.failed, _)).2

end Verdicts

/-- The named counter of a watched name is the sector count of that name. -/
lemma counters_sectors (sm : SmartCounters) :
    sm.counters "pending_sectors" = sm.sectors .pendingSectors ∧
      sm.counters "offline_uncorrectable" = sm.sectors .offlineUncorrectable := ⟨rfl, rfl⟩

/-- What a drive says itself, on the sample that was acknowledged, is the failure that it predicts:
neither its warning nor its sectors count, and no counter has grown. -/
lemma smartComplaints_acked (s : Sample) (by_ : String) (atUnix : ℕ) :
    smartComplaints (some (s.ack by_ atUnix)) s.smart = smartComplaints none s.unwarned.smart := by
  cases report : s.smart with
  | none => rw [Sample.unwarned, report]; rfl
  | some sm =>
    have same : ∀ k, (s.ack by_ atUnix).counters k = sm.counters k := by
      intro k
      rw [Sample.ack, report]
      rfl
    have code : (s.ack by_ atUnix).ie = sm.ie := by rw [Sample.ack, report]; rfl
    have ie : ieComplaints (some (s.ack by_ atUnix)) sm = [] := by
      rw [ieComplaints]
      cases sm.ieWarning with
      | none => rfl
      | some w => simp [complain, code]
    have sectors : ∀ k n what, sm.counters k = n →
        sectorComplaints (some (s.ack by_ atUnix)) k n what = [] := by
      intro k n what count
      rw [← count, sectorComplaints.eq_def, Option.bind_some, same]
      cases sm.counters k with
      | none => rfl
      | some n => simp [complain]
    have growth : growthComplaints (some (s.ack by_ atUnix)) sm = [] := by
      rw [growthComplaints, List.flatMap_eq_nil_iff]
      intro k _
      rw [same]
      cases sm.counters k with
      | none => rfl
      | some n => simp [complain]
    rw [smartComplaints, ie, sectors _ _ _ (counters_sectors sm).1,
      sectors _ _ _ (counters_sectors sm).2, growth, Sample.unwarned, report]
    rfl

/-- **An acknowledgement hides the warning of the sample that was acknowledged, for as long as its
code and its counters stand, and nothing else**.

**Proof sketch.** The verdict is as bad as each complaint, and a predicted failure, a warning with
another code and a counter that has grown are complaints. Of the report that was acknowledged only
a predicted failure is left, as of the report without the warning and the sectors; every other
complaint is the same in both. -/
theorem ackMeaning (cfg : MonitorConfig) (s : Sample) (prev : Option ℕ) (ack : HealthAck) :
    AckMeaning cfg s prev ack := by
  refine ⟨?_, ?_, ?_, ?_⟩
  · intro sm why report predicted
    refine atLeast_of_mem (c := (.failing, why)) ?_
    simp [smartComplaints, report, predicted]
  · intro sm w report warning other
    refine atLeast_of_mem (c := (.warning, w)) ?_
    simp [smartComplaints, ieComplaints, report, warning, complain, other]
  · intro sm k accepted n report watched recorded now grew
    have mem : (.warning, grownWhy k accepted n ack.by_) ∈ growthComplaints (some ack) sm := by
      refine List.mem_flatMap.mpr ⟨k, watched, ?_⟩
      simp [recorded, now, complain, grew]
    refine atLeast_of_mem (c := (.warning, grownWhy k accepted n ack.by_)) ?_
    rw [report, smartComplaints]
    exact List.mem_append_right _ mem
  · rintro s₀ by_ atUnix rfl report
    have smart := smartComplaints_acked s₀ by_ atUnix
    have same : s.unwarned.smart = s₀.unwarned.smart := by
      rw [Sample.unwarned, Sample.unwarned, report]
    rw [evaluate, evaluateAcked, evaluateAcked, complaints, complaints, report, smart, ← same]
    rfl

/-- A drive that warns of a vendor's own code. -/
def warned : Sample where
  kernelOk := true
  smart := some ⟨⟨none, some "the drive reports a vendor-specific warning 97h (ASC 0Bh/97h)",
    fun _ => none, fun _ => none⟩, some ⟨0x0B, 0x97⟩⟩

/-- **A sample like the acknowledged one, but for its temperature, is not judged as without an
acknowledgement**: its warning is hidden. -/
theorem acknowledged_is_good :
    evaluateAcked {} { warned with temperatureC := some 30 } none (some (warned.ack "alice" 1)) ≠
      evaluate {} { warned with temperatureC := some 30 } none := by
  intro same
  exact absurd (congrArg Prod.fst same) (by decide +kernel)

end Monitor

end StormDrive
