import Mathlib.Data.List.Basic
import StormDrive.Counters
import StormDrive.Drive
import StormDrive.History
import StormDrive.Interleave.Runs

set_option relaxedAutoImplicit false
set_option autoImplicit false

/-!
# Findings of the drive history

Each sample of a drive is compared with the drive's last written record (`history.rs`): an error
counter that grew, and a counter over the drive's life that went back, is a finding. A record is
written when something that matters changed, and otherwise now and then.

## Main definitions

* `History.findings`, `History.due`, `History.observe` — the comparison, whether a record is due,
  and one sample.
* `Truth`, `Readout.Of` — what a drive really counts, and a readout of it.
* `History.Ledger`, `History.Ledger.step` — samples and restarts, with what was read last and which
  growth was reported in a written record.
* `History.OwnFindings` — what the findings of a sample promise.
* `History.Covered` — nothing that counts in the last record is missing, and the last record has
  what was read before.

## Main results

* `History.findings_own_of_covered` — **in a run whose samples are all covered, every finding is
  the drive's own**: no counter is said to go back, growth between two reads is reported, and none
  is reported twice.
* `History.unread_page_goes_back` — an error page that is not read makes the drive's media errors
  go back.

## Implementation notes

The drive's files are its last whole record (`read_last`). What a failed write leaves there may be
the whole line. Where a drive sits and its health verdict are part of a sample, the rest of its
identity is not, as no rule looks at it.
-/

namespace StormDrive

/-- What a drive really counts: each counter, and its wear by the attribute that says it. -/
structure Truth where
  count : Counter → ℕ
  wear : ℕ → ℕ

/-- Counters over the drive's life do not decrease. -/
structure Truth.Le (t t' : Truth) : Prop where
  count : ∀ c, (spec c).back = true → t.count c ≤ t'.count c
  wear : ∀ id, t.wear id ≤ t'.wear id

/-- What a readout could read is what the drive counts. The media errors of a SAS drive are its
uncorrected errors, those of a SATA drive the reported uncorrectable ones. -/
structure Readout.Of (r : Readout) (t : Truth) : Prop where
  exact_of_ne : ∀ c v, c ≠ .mediaErrors → c ≠ .wearPct → counters (sampleOf r) c = some v →
    v = t.count c
  media : match r with
    | .nvme page => ∀ p, page = some p → p.mediaErrors = t.count .mediaErrors
    | .sas .. => t.count .mediaErrors = sasUncorrected t.count
    | .ata .. => t.count .mediaErrors = t.count (.smart .reportedUncorrectable)
  wear : match r with
    | .nvme page => ∀ p, page = some p → p.wearPct = t.count .wearPct
    | .sas _ _ pages => ∀ p w, pages = some p → p.endurance = some w → w = t.count .wearPct
    | .ata _ _ table => ∀ attrs thresholds, table = some (attrs, thresholds) →
        ∀ a ∈ attrs, wearOf a = t.wear a.id

/-- The kinds of drives, by how they are read. -/
inductive Transport where
  | nvme
  | sas
  | ata
  deriving DecidableEq, Repr

def Readout.transport : Readout → Transport
  | .nvme _ => .nvme
  | .sas .. => .sas
  | .ata .. => .ata

namespace History

inductive Change where
  | grew
  | wentBack
  deriving DecidableEq, Repr

/-- A counter that moved the wrong way since the previous record. -/
structure Finding where
  counter : Counter
  change : Change
  fromValue : ℕ
  toValue : ℕ
  /-- When the previous record was taken, and whether in another boot. -/
  since : String
  otherBoot : Bool
  deriving DecidableEq, Repr

/-- Why a record is written. -/
inductive Why where
  | first
  | changed
  | heartbeat
  deriving DecidableEq, Repr

/-- One line of a drive's history. -/
structure Record where
  takenAt : String
  unix : ℕ
  bootId : String
  why : Option Why
  firmware : String
  bay : Option String
  status : HealthStatus
  counters : Counter → Option ℕ
  predictedFailure : Option String
  ataAttributes : List Attribute
  findings : List Finding

/-- Findings from the last record to the counters now, in the order of their names. A counter that
is missing on either side is not compared. -/
def findings (prev : Record) (cur : Counter → Option ℕ) (curBoot : String) : List Finding :=
  Counter.all.filterMap fun c =>
    match cur c, prev.counters c with
    | some now, some before =>
      let finding := fun change =>
        { counter := c, change := change, fromValue := before, toValue := now
          since := prev.takenAt
          otherBoot := prev.bootId ≠ "" ∧ prev.bootId ≠ curBoot : Finding }
      if now > before ∧ (spec c).grow then some (finding .grew)
      else if now < before ∧ (spec c).back then some (finding .wentBack)
      else none
    | _, _ => none

/-- Why a record is due now, or none. -/
def due (prev : Option Record) (cur : Record) (heartbeat : ℕ) : Option Why :=
  match prev with
  | none => some .first
  | some p =>
    let moved :=
      Counter.all.any (fun c => (cur.counters c).isSome && (spec c).writes &&
        p.counters c ≠ cur.counters c) ||
      Counter.all.any (fun c => (p.counters c).isSome && (spec c).writes &&
        (cur.counters c).isNone) ||
      p.status ≠ cur.status || p.firmware ≠ cur.firmware || p.bay ≠ cur.bay ||
      p.predictedFailure ≠ cur.predictedFailure || !cur.findings.isEmpty
    if moved then some .changed
    else if heartbeat ≤ cur.unix - p.unix then some .heartbeat
    else none

/-- How the write of a record ends. A write that fails may have left its whole line. -/
inductive Write where
  | ok
  | failed (landed : Bool)
  deriving DecidableEq, Repr

/-- One sample, as `observe` is given it, whether the directory is there, and how a write ends. -/
structure Sampled where
  readout : Readout
  status : HealthStatus
  firmware : String
  bay : Option String
  unix : ℕ
  available : Bool
  write : Write

/-- The history of one drive: the boot, the last record in its files, and the last record as the
process has it, none where it was not looked at yet. -/
structure State where
  bootId : String
  disk : Option Record
  last : Option (Option Record)

/-- The last record, from the files the first time. -/
def State.base (s : State) : Option Record := s.last.getD s.disk

/-- The record of a sample. -/
def State.record (s : State) (e : Sampled) : Record :=
  let sample := sampleOf e.readout
  { takenAt := rfc3339 e.unix
    unix := e.unix
    bootId := s.bootId
    why := none
    firmware := e.firmware
    bay := e.bay
    status := e.status
    counters := counters sample
    predictedFailure := sample.smart.bind fun m => m.predictedFailure.or m.ieWarning
    ataAttributes := sample.ataAttributes
    findings := match s.base with
      | none => []
      | some p => findings p (counters sample) s.bootId }

/-- What a sample comes to: the history after it, the findings that are reported, and whether they
are in a written record. -/
structure Observed where
  state : State
  findings : List Finding
  written : Bool

/-- One sample: its record and its findings, written when due. -/
def observe (heartbeat : ℕ) (s : State) (e : Sampled) : Observed :=
  if e.available then
    let rec0 := s.record e
    let read : State := { s with last := some s.base }
    match due s.base rec0 heartbeat with
    | none => ⟨read, [], false⟩
    | some why =>
      let r := { rec0 with why := some why }
      match e.write with
      | .ok => ⟨{ read with disk := some r, last := some (some r) }, r.findings, true⟩
      -- not written, so not the baseline either; findings are still reported
      | .failed landed => ⟨{ read with disk := if landed then some r else s.disk }, r.findings, false⟩
  else ⟨s, [], false⟩

/-- What happens to a drive's history: a sample, with what the drive really counts, and a restart
in this boot or another. -/
inductive Event where
  | sample (truth : Truth) (e : Sampled)
  | restart (bootId : String)

/-- A drive's history, with what the drive counted at the last sample, the last value that was
read of each counter, and the growth that was reported in a written record: up to which value. -/
structure Ledger where
  state : State
  truth : Option Truth
  lastRead : Counter → Option ℕ
  told : List (Counter × ℕ)

namespace Ledger

/-- No history yet. -/
def empty (bootId : String) : Ledger := ⟨⟨bootId, none, none⟩, none, fun _ => none, []⟩

/-- A sample reads a counter when it gives the value that the drive counts. -/
def Reads (t : Truth) (e : Sampled) (c : Counter) : Prop :=
  counters (sampleOf e.readout) c = some (t.count c)

instance (t : Truth) (e : Sampled) (c : Counter) : Decidable (Reads t e c) :=
  inferInstanceAs (Decidable (_ = _))

/-- The growth that was reported and of which nothing was undone since. -/
def toldAt (l : Ledger) (t : Truth) : List (Counter × ℕ) :=
  l.told.filter fun a => a.2 ≤ t.count a.1

def step (heartbeat : ℕ) (l : Ledger) : Event → Ledger
  | .sample t e =>
    let out := observe heartbeat l.state e
    { state := out.state
      truth := some t
      lastRead := fun c => if e.available ∧ Reads t e c then some (t.count c) else l.lastRead c
      told := l.toldAt t ++ if out.written then
        (out.findings.filter fun f => f.change = .grew).map fun f => (f.counter, f.toValue)
      else [] }
  | .restart bootId => { l with state := { l.state with bootId := bootId, last := none } }

end Ledger

/-- **What the findings of a sample promise.** No counter is said to go back. A counter whose growth
is a finding and that the sample reads is reported to have grown if its value is above the last
one read. No growth that was reported in a written record is reported again, as long as the drive
counts what it was. -/
structure OwnFindings (heartbeat : ℕ) (l : Ledger) (t : Truth) (e : Sampled) : Prop where
  noneBack : ∀ f ∈ (observe heartbeat l.state e).findings, f.change ≠ .wentBack
  growth : e.available = true → ∀ c x, (spec c).grow = true → Ledger.Reads t e c →
    l.lastRead c = some x → x < t.count c →
      ∃ f ∈ (observe heartbeat l.state e).findings,
        f.counter = c ∧ f.change = .grew ∧ f.toValue = t.count c
  once : ∀ f ∈ (observe heartbeat l.state e).findings, f.change = .grew →
    ∀ b, (f.counter, b) ∈ l.toldAt t → b ≤ f.fromValue

/-- A sample of a drive of one kind, whose counters over its life do not decrease. -/
def Lifelike (k : Transport) (l : Ledger) : Event → Prop
  | .sample t e => e.readout.transport = k ∧ e.readout.Of t ∧
      ∀ t0, l.truth = some t0 → t0.Le t
  | .restart _ => True

/-- A source of the media errors that counted some in the record was not read now. -/
def MediaLost (base : Record) (r : Readout) : Prop :=
  match r with
  | .nvme page => page = none ∧ ∃ v, 0 < v ∧ base.counters .mediaErrors = some v
  | .sas .. => ∃ page v, 0 < v ∧ base.counters (.sas page .uncorrected) = some v ∧
      counters (sampleOf r) (.sas page .uncorrected) = none
  | .ata .. => ∃ v, 0 < v ∧ base.counters (.smart .reportedUncorrectable) = some v ∧
      counters (sampleOf r) (.smart .reportedUncorrectable) = none

/-- The wear is read from another attribute than in the record. -/
def WearMoved (base : Record) (r : Readout) : Prop :=
  ∃ a b, wearAttribute base.ataAttributes = some a ∧
    wearAttribute (sampleOf r).ataAttributes = some b ∧ a.id ≠ b.id

/-- **A covered sample.** No source of media errors that counted some in the last record is
missing, the wear is read from the same attribute, and an error counter that grew since it was
last read is in the last record: one that can fall with no more than was last read. -/
structure Covered (l : Ledger) (t : Truth) (e : Sampled) : Prop where
  media : ∀ base, l.state.base = some base → ¬ MediaLost base e.readout
  wear : ∀ base, l.state.base = some base → ¬ WearMoved base e.readout
  recorded : ∀ c x, (spec c).grow = true → Ledger.Reads t e c → l.lastRead c = some x →
    x < t.count c → ∃ base v, l.state.base = some base ∧ base.counters c = some v ∧
      ((spec c).back = false → v ≤ x)

end History

section Readouts

variable {r r' : Readout} {t t' : Truth}

lemma Truth.Le.refl (t : Truth) : t.Le t := ⟨fun _ _ => le_rfl, fun _ => le_rfl⟩

lemma Truth.Le.trans {t'' : Truth} (h : t.Le t') (h' : t'.Le t'') : t.Le t'' :=
  ⟨fun c hc => le_trans (h.count c hc) (h'.count c hc), fun id => le_trans (h.wear id) (h'.wear id)⟩

/-- A counter that is counted as it was read, or as 0. -/
lemma Readout.Of.countedAs_le (h : r.Of t) {c : Counter} (hm : c ≠ .mediaErrors)
    (hw : c ≠ .wearPct) : countedAs (sampleOf r) c ≤ t.count c := by
  rw [countedAs]
  cases hc : counters (sampleOf r) c with
  | none => exact Nat.zero_le _
  | some v => exact le_of_eq (h.exact_of_ne c v hm hw hc)

/-- The media errors of a readout are at most what the drive counts. -/
lemma Readout.Of.mediaErrors_le (h : r.Of t) : (sampleOf r).mediaErrors ≤ t.count .mediaErrors := by
  have hle : ∀ page, countedAs (sampleOf r) (.sas page .uncorrected) ≤
      t.count (.sas page .uncorrected) := fun page => h.countedAs_le (by simp) (by simp)
  have hm := h.media
  cases r with
  | nvme page =>
    cases page with
    | none => exact Nat.zero_le _
    | some p => exact le_of_eq (hm p rfl)
  | sas ssd io pages =>
    have hr := hle .read
    have hwr := hle .write
    have hv := hle .verify
    have hm' : t.count .mediaErrors = sasUncorrected t.count := hm
    rw [mediaErrors_sas, hm', sasUncorrected, sasUncorrected]
    omega
  | ata ssd io table =>
    have hm' : t.count .mediaErrors = t.count (.smart .reportedUncorrectable) := hm
    rw [mediaErrors_ata, hm']
    exact h.countedAs_le (by simp) (by simp)

/-- A counter of the record that was not lost is counted no lower now. -/
lemma countedAs_le_countedAs (h : r.Of t) (h' : r'.Of t') (hle : t.Le t') {c : Counter}
    (hback : (spec c).back = true) (hm : c ≠ .mediaErrors) (hw : c ≠ .wearPct)
    (hkept : ∀ v, 0 < v → counters (sampleOf r) c = some v → counters (sampleOf r') c ≠ none) :
    countedAs (sampleOf r) c ≤ countedAs (sampleOf r') c := by
  rw [countedAs]
  cases hc : counters (sampleOf r) c with
  | none => exact Nat.zero_le _
  | some v =>
    by_cases hv : v = 0
    · rw [hv]
      exact Nat.zero_le _
    · have hsome := hkept v (by omega) hc
      obtain ⟨w, hc'⟩ := Option.ne_none_iff_exists'.mp hsome
      have hexact := h.exact_of_ne c v hm hw hc
      have hexact' := h'.exact_of_ne c w hm hw hc'
      rw [countedAs, hc', hexact, hexact']
      exact hle.count c hback

end Readouts

namespace History

section Compare

variable {r r' : Readout} {t t' : Truth} {base : Record}

/-- A record of a readout of the drive. -/
structure Record.Of (base : Record) (k : Transport) (r : Readout) (t : Truth) : Prop where
  transport : r.transport = k
  of : r.Of t
  values : base.counters = StormDrive.counters (sampleOf r)
  table : base.ataAttributes = (sampleOf r).ataAttributes

/-- Media errors of a record are counted no lower now, when none of their sources is lost. -/
lemma Record.Of.media_le {k : Transport} (h : base.Of k r t) (h' : r'.Of t')
    (hk : r'.transport = k) (hle : t.Le t') (hlost : ¬ MediaLost base r') :
    (sampleOf r).mediaErrors ≤ (sampleOf r').mediaErrors := by
  have htransport := h.transport
  rw [← hk] at htransport
  have hmedia := h.of.media
  have hmedia' := h'.media
  cases r' with
  | nvme page' =>
    cases page' with
    | none =>
      by_contra hlt
      refine hlost ⟨rfl, (sampleOf r).mediaErrors, by omega, ?_⟩
      rw [h.values]
      rfl
    | some p' =>
      have hbound := h.of.mediaErrors_le
      have heq : (sampleOf (.nvme (some p'))).mediaErrors = t'.count .mediaErrors := hmedia' p' rfl
      rw [heq]
      exact le_trans hbound (hle.count _ rfl)
  | sas ssd' io' pages' =>
    cases r with
    | sas ssd io pages =>
      have hpage : ∀ page, countedAs (sampleOf (.sas ssd io pages)) (.sas page .uncorrected) ≤
          countedAs (sampleOf (.sas ssd' io' pages')) (.sas page .uncorrected) := by
        intro page
        refine countedAs_le_countedAs h.of h' hle rfl (by simp) (by simp) fun v hv hc hnone => ?_
        refine hlost ⟨page, v, hv, ?_, hnone⟩
        rw [h.values]
        exact hc
      have hr := hpage .read
      have hw := hpage .write
      have hv := hpage .verify
      rw [mediaErrors_sas, mediaErrors_sas, sasUncorrected, sasUncorrected]
      omega
    | nvme page => cases htransport
    | ata ssd io table => cases htransport
  | ata ssd' io' table' =>
    cases r with
    | ata ssd io table =>
      rw [mediaErrors_ata, mediaErrors_ata]
      refine countedAs_le_countedAs h.of h' hle rfl (by simp) (by simp) fun v hv hc hnone => ?_
      refine hlost ⟨v, hv, ?_, hnone⟩
      rw [h.values]
      exact hc
    | nvme page => cases htransport
    | sas ssd io pages => cases htransport

/-- The attribute of the wear is one of the table. -/
lemma mem_of_wearAttribute {attrs : List Attribute} {a : Attribute}
    (h : wearAttribute attrs = some a) : a ∈ attrs := by
  obtain ⟨id, -, hfind⟩ := List.exists_of_findSome?_eq_some h
  exact List.mem_of_find?_eq_some hfind

/-- Where a SATA drive's wear is from. -/
lemma exists_wearAttribute {ssd : Bool} {io : Option ℕ}
    {table : Option (List Attribute × List (ℕ × ℕ))} {v : ℕ} (h : (Readout.ata ssd io table).Of t)
    (hv : (sampleOf (.ata ssd io table)).wearPct = some v) :
    ∃ a, wearAttribute (sampleOf (.ata ssd io table)).ataAttributes = some a ∧ v = t.wear a.id := by
  cases table with
  | none => exact absurd hv (Option.some_ne_none v).symm
  | some table =>
    obtain ⟨attrs, thresholds⟩ := table
    cases ssd with
    | false => exact absurd hv (Option.some_ne_none v).symm
    | true =>
      obtain ⟨a, ha, hwear⟩ := Option.map_eq_some_iff.mp
        (show (wearAttribute attrs).map wearOf = some v from hv)
      refine ⟨a, ha, ?_⟩
      rw [← hwear]
      exact h.wear attrs thresholds rfl a (mem_of_wearAttribute ha)

/-- The wear of a SAS or NVMe drive is what it counts. -/
lemma wearPct_eq (h : r.Of t) (hk : r.transport ≠ .ata) {v : ℕ}
    (hv : (sampleOf r).wearPct = some v) : v = t.count .wearPct := by
  have hwear := h.wear
  cases r with
  | nvme page =>
    cases page with
    | none => exact absurd hv (Option.some_ne_none v).symm
    | some p =>
      rw [← hwear p rfl]
      exact (Option.some.inj hv).symm
  | sas ssd io pages =>
    cases pages with
    | none => exact absurd hv (Option.some_ne_none v).symm
    | some p =>
      cases ssd with
      | false => exact absurd hv (Option.some_ne_none v).symm
      | true =>
        have hendurance : p.endurance = some v := by
          simpa [sampleOf, fromLogPages] using hv
        exact hwear p v rfl hendurance
  | ata ssd io table => exact absurd rfl hk

/-- The wear of a record is no higher than now, when it is read from the same attribute. -/
lemma Record.Of.wear_le {k : Transport} (h : base.Of k r t) (h' : r'.Of t')
    (hk : r'.transport = k) (hle : t.Le t') (hmoved : ¬ WearMoved base r') {v w : ℕ}
    (hv : (sampleOf r).wearPct = some v) (hw : (sampleOf r').wearPct = some w) : v ≤ w := by
  by_cases hata : k = .ata
  · have htransport : r.transport = .ata := h.transport.trans hata
    have htransport' : r'.transport = .ata := hk.trans hata
    cases r with
    | ata ssd io table =>
      cases r' with
      | ata ssd' io' table' =>
        obtain ⟨a, ha, hva⟩ := exists_wearAttribute h.of hv
        obtain ⟨b, hb, hwb⟩ := exists_wearAttribute h' hw
        have hid : a.id = b.id := by
          by_contra hne
          refine hmoved ⟨a, b, ?_, hb, hne⟩
          rw [h.table]
          exact ha
        rw [hva, hwb, ← hid]
        exact hle.wear a.id
      | _ => exact absurd htransport' nofun
    | _ => cases htransport
  · have hne : r.transport ≠ .ata := h.transport ▸ hata
    have hne' : r'.transport ≠ .ata := hk ▸ hata
    rw [wearPct_eq h.of hne hv, wearPct_eq h' hne' hw]
    exact hle.count _ rfl

/-- **A counter over the drive's life is no lower now than in the record.** -/
lemma Record.Of.le {k : Transport} (h : base.Of k r t) (h' : r'.Of t') (hk : r'.transport = k)
    (hle : t.Le t') (hlost : ¬ MediaLost base r') (hmoved : ¬ WearMoved base r') {c : Counter}
    (hback : (spec c).back = true) {v w : ℕ} (hv : base.counters c = some v)
    (hw : StormDrive.counters (sampleOf r') c = some w) : v ≤ w := by
  rw [h.values] at hv
  by_cases hm : c = .mediaErrors
  · rw [hm] at hv hw
    have hle := h.media_le h' hk hle hlost
    have hv' : (sampleOf r).mediaErrors = v := Option.some.inj hv
    have hw' : (sampleOf r').mediaErrors = w := Option.some.inj hw
    omega
  · by_cases hwear : c = .wearPct
    · rw [hwear] at hv hw
      exact h.wear_le h' hk hle hmoved hv hw
    · rw [h.of.exact_of_ne c v hm hwear hv, h'.exact_of_ne c w hm hwear hw]
      exact hle.count c hback

/-- A counter of a record is at most what the drive counts since. -/
lemma Record.Of.le_count {k : Transport} (h : base.Of k r t) (hle : t.Le t') {c : Counter}
    (hback : (spec c).back = true) (hw : c ≠ .wearPct) {v : ℕ} (hv : base.counters c = some v) :
    v ≤ t'.count c := by
  rw [h.values] at hv
  refine le_trans ?_ (hle.count c hback)
  by_cases hm : c = .mediaErrors
  · rw [hm] at hv ⊢
    rw [← Option.some.inj hv]
    exact h.of.mediaErrors_le
  · exact le_of_eq (h.of.exact_of_ne c v hm hw hv)

/-- A counter whose growth is a finding is no wear. -/
lemma ne_wearPct_of_grow {c : Counter} (h : (spec c).grow = true) : c ≠ .wearPct := by
  intro heq
  rw [heq] at h
  exact absurd h Bool.false_ne_true

/-- The finding of a counter that grew. -/
lemma grew_mem_findings {prev : Record} {cur : Counter → Option ℕ} {boot : String} {c : Counter}
    {v w : ℕ} (hgrow : (spec c).grow = true) (hv : prev.counters c = some v)
    (hw : cur c = some w) (hlt : v < w) :
    ∃ f ∈ findings prev cur boot, f.counter = c ∧ f.change = .grew ∧ f.toValue = w := by
  refine ⟨⟨c, .grew, v, w, prev.takenAt, prev.bootId ≠ "" ∧ prev.bootId ≠ boot⟩, ?_, rfl, rfl, rfl⟩
  rw [findings, List.mem_filterMap]
  refine ⟨c, mem_all_of_grow hgrow, ?_⟩
  simp only [hv, hw]
  rw [if_pos ⟨hlt, hgrow⟩]

/-- What a finding says: both values, and which way the counter moved. -/
lemma of_mem_findings {prev : Record} {cur : Counter → Option ℕ} {boot : String} {f : Finding}
    (hf : f ∈ findings prev cur boot) :
    prev.counters f.counter = some f.fromValue ∧ cur f.counter = some f.toValue ∧
      ((f.change = .grew ∧ f.fromValue < f.toValue ∧ (spec f.counter).grow = true) ∨
        (f.change = .wentBack ∧ f.toValue < f.fromValue ∧ (spec f.counter).back = true)) := by
  rw [findings, List.mem_filterMap] at hf
  obtain ⟨c, -, hc⟩ := hf
  cases hw : cur c with
  | none => simp [hw] at hc
  | some w =>
    cases hv : prev.counters c with
    | none => simp [hw, hv] at hc
    | some v =>
      simp only [hw, hv] at hc
      by_cases hgrew : w > v ∧ (spec c).grow = true
      · rw [if_pos hgrew] at hc
        rw [← Option.some.inj hc]
        exact ⟨hv, hw, Or.inl ⟨rfl, hgrew.1, hgrew.2⟩⟩
      · rw [if_neg hgrew] at hc
        by_cases hback : w < v ∧ (spec c).back = true
        · rw [if_pos hback] at hc
          rw [← Option.some.inj hc]
          exact ⟨hv, hw, Or.inr ⟨rfl, hback.1, hback.2⟩⟩
        · rw [if_neg hback] at hc
          exact absurd hc (Option.some_ne_none _).symm

end Compare

section Observe

variable {heartbeat : ℕ} {s : State} {e : Sampled}

/-- A record with findings is due. -/
lemma due_ne_none {p cur : Record} (h : cur.findings ≠ []) :
    due (some p) cur heartbeat ≠ none := by
  have hmoved : (!cur.findings.isEmpty) = true := by simpa using h
  simp only [due, hmoved, Bool.or_true, if_true]
  exact Option.some_ne_none _

/-- **Findings are always reported** where the directory is there and there is a record. -/
lemma findings_observe_of_base {p : Record} (havailable : e.available = true)
    (hbase : s.base = some p) : (observe heartbeat s e).findings =
      findings p (counters (sampleOf e.readout)) s.bootId := by
  have hrecord : (s.record e).findings = findings p (counters (sampleOf e.readout)) s.bootId := by
    simp only [State.record, hbase]
  rw [observe, if_pos havailable]
  cases hdue : due s.base (s.record e) heartbeat with
  | none =>
    have hnil : (s.record e).findings = [] := by
      by_contra hne
      rw [hbase] at hdue
      exact due_ne_none hne hdue
    rw [hrecord] at hnil
    simp only [hdue, hnil]
  | some why =>
    simp only [hdue]
    cases e.write with
    | ok => exact hrecord
    | failed landed => exact hrecord

/-- Without a record there is nothing to compare with. -/
lemma findings_observe_of_none (hbase : s.base = none) : (observe heartbeat s e).findings = [] := by
  have hrecord : (s.record e).findings = [] := by
    simp only [State.record, hbase]
  by_cases havailable : e.available = true
  · rw [observe, if_pos havailable]
    cases hdue : due s.base (s.record e) heartbeat with
    | none => simp only [hdue]
    | some why =>
      simp only [hdue]
      cases e.write with
      | ok => exact hrecord
      | failed landed => exact hrecord
  · rw [observe, if_neg havailable]

/-- What a finding of a sample is: one of the comparison with the last record. -/
lemma exists_base_of_mem {f : Finding} (hf : f ∈ (observe heartbeat s e).findings) :
    ∃ p, e.available = true ∧ s.base = some p ∧
      f ∈ findings p (counters (sampleOf e.readout)) s.bootId := by
  by_cases havailable : e.available = true
  · cases hbase : s.base with
    | none =>
      rw [findings_observe_of_none hbase] at hf
      exact absurd hf List.not_mem_nil
    | some p =>
      rw [findings_observe_of_base havailable hbase] at hf
      exact ⟨p, havailable, rfl, hf⟩
  · rw [observe, if_neg havailable] at hf
    exact absurd hf List.not_mem_nil

/-- The records that the next samples may be compared with. -/
def State.Keeps (s : State) (p : Record) : Prop := s.disk = some p ∨ s.last = some (some p)

lemma State.keeps_base {p : Record} (h : s.base = some p) : s.Keeps p := by
  cases hlast : s.last with
  | none =>
    rw [State.base, hlast] at h
    exact Or.inl h
  | some last =>
    rw [State.base, hlast] at h
    exact Or.inr (hlast.trans (congrArg some h))

/-- What a record has of its sample. -/
def Record.From (p : Record) (e : Sampled) : Prop :=
  p.counters = StormDrive.counters (sampleOf e.readout) ∧
    p.ataAttributes = (sampleOf e.readout).ataAttributes

/-- **What a sample leaves**: the records before it, or its own record, and only that when it was
written. -/
lemma keeps_observe {p : Record} (h : (observe heartbeat s e).state.Keeps p) :
    (s.Keeps p ∧ (observe heartbeat s e).written = false) ∨ (e.available = true ∧ p.From e) := by
  by_cases havailable : e.available = true
  · rw [observe, if_pos havailable] at h ⊢
    cases hdue : due s.base (s.record e) heartbeat with
    | none =>
      simp only [hdue] at h ⊢
      refine Or.inl ⟨?_, trivial⟩
      rcases h with h | h
      · exact Or.inl h
      · exact State.keeps_base (Option.some.inj h)
    | some why =>
      simp only [hdue] at h ⊢
      cases hwrite : e.write with
      | ok =>
        simp only [hwrite] at h
        refine Or.inr ⟨havailable, ?_⟩
        rcases h with h | h
        · rw [← Option.some.inj h]
          exact ⟨rfl, rfl⟩
        · rw [← Option.some.inj (Option.some.inj h)]
          exact ⟨rfl, rfl⟩
      | failed landed =>
        simp only [hwrite] at h
        rcases h with h | h
        · cases landed with
          | false => exact Or.inl ⟨Or.inl h, rfl⟩
          | true =>
            refine Or.inr ⟨havailable, ?_⟩
            rw [← Option.some.inj h]
            exact ⟨rfl, rfl⟩
        · exact Or.inl ⟨State.keeps_base (Option.some.inj h), rfl⟩
  · rw [observe, if_neg havailable] at h ⊢
    exact Or.inl ⟨h, rfl⟩

/-- A record that is there stays there, or another one takes its place. -/
lemma base_observe (h : s.base ≠ none ∧ s.disk ≠ none) :
    (observe heartbeat s e).state.base ≠ none ∧ (observe heartbeat s e).state.disk ≠ none := by
  by_cases havailable : e.available = true
  · rw [observe, if_pos havailable]
    cases hdue : due s.base (s.record e) heartbeat with
    | none =>
      simp only [hdue]
      exact h
    | some why =>
      simp only [hdue]
      cases e.write with
      | ok => exact ⟨Option.some_ne_none _, Option.some_ne_none _⟩
      | failed landed =>
        cases landed with
        | false => exact h
        | true => exact ⟨h.1, Option.some_ne_none _⟩
  · rw [observe, if_neg havailable]
    exact h

/-- A written record is in the files and the last one. -/
lemma base_observe_of_written (h : (observe heartbeat s e).written = true) :
    (observe heartbeat s e).state.base ≠ none ∧ (observe heartbeat s e).state.disk ≠ none := by
  by_cases havailable : e.available = true
  · rw [observe, if_pos havailable] at h ⊢
    cases hdue : due s.base (s.record e) heartbeat with
    | none =>
      simp only [hdue] at h
      exact absurd h Bool.false_ne_true
    | some why =>
      simp only [hdue] at h ⊢
      cases hwrite : e.write with
      | ok => exact ⟨Option.some_ne_none _, Option.some_ne_none _⟩
      | failed landed =>
        simp only [hwrite] at h
        exact absurd h Bool.false_ne_true
  · rw [observe, if_neg havailable] at h
    exact absurd h Bool.false_ne_true

end Observe

namespace Ledger

variable {heartbeat : ℕ} {k : Transport} {l : Ledger} {t : Truth} {e : Sampled}

/-- **What holds of a drive's history as long as its samples are covered.** The records that the
next sample may be compared with are readouts of the drive, have no error counter over its life
above the last value read (the media errors may be a partial sum instead), and none below what
was reported. What was reported is in a record. -/
structure Sound (k : Transport) (l : Ledger) : Prop where
  made : ∀ p, l.state.Keeps p → ∃ r t0 t, p.Of k r t0 ∧ l.truth = some t ∧ t0.Le t
  read : ∀ p, l.state.Keeps p → ∀ c x v, (spec c).back = true → c ≠ .wearPct →
    l.lastRead c = some x → p.counters c = some v →
      v ≤ x ∨ (c = .mediaErrors ∧ ∃ t, l.truth = some t ∧ v < t.count c)
  told : ∀ p, l.state.Keeps p → ∀ c b v, (c, b) ∈ l.told → p.counters c = some v → b ≤ v
  grows : ∀ c b, (c, b) ∈ l.told → (spec c).grow = true
  kept : l.told ≠ [] → l.state.base ≠ none ∧ l.state.disk ≠ none

/-- A restart looks at the files again. -/
lemma Sound.restart (h : Sound k l) (bootId : String) :
    Sound k (l.step heartbeat (.restart bootId)) := by
  have hkeeps : ∀ p, (l.step heartbeat (.restart bootId)).state.Keeps p → l.state.Keeps p := by
    rintro p (hp | hp)
    · exact Or.inl hp
    · exact absurd hp (Option.some_ne_none _).symm
  refine ⟨fun p hp => h.made p (hkeeps p hp), fun p hp => h.read p (hkeeps p hp),
    fun p hp => h.told p (hkeeps p hp), h.grows, fun hne => ?_⟩
  have hdisk := (h.kept hne).2
  exact ⟨hdisk, hdisk⟩

/-- What the last record has is no higher than now, for a counter over the drive's life. -/
lemma Sound.base_le (h : Sound k l) (hlife : Lifelike k l (.sample t e)) (hcovered : Covered l t e)
    {p : Record} (hbase : l.state.base = some p) {c : Counter} (hback : (spec c).back = true)
    {v w : ℕ} (hv : p.counters c = some v) (hw : counters (sampleOf e.readout) c = some w) :
    v ≤ w := by
  obtain ⟨hk, hof, htruth⟩ := hlife
  obtain ⟨r, t0, t1, hp, ht1, hle⟩ := h.made p (State.keeps_base hbase)
  exact hp.le hof hk (hle.trans (htruth t1 ht1)) (hcovered.media p hbase)
    (hcovered.wear p hbase) hback hv hw

/-- **A covered sample keeps its promises.** -/
lemma Sound.own (h : Sound k l) (hlife : Lifelike k l (.sample t e))
    (hcovered : e.available = true → Covered l t e) : OwnFindings heartbeat l t e := by
  have htruth := hlife.2.2
  refine ⟨?_, ?_, ?_⟩
  · intro f hf hback
    obtain ⟨p, havailable, hbase, hmem⟩ := exists_base_of_mem hf
    obtain ⟨hv, hw, hgrew | hwent⟩ := of_mem_findings hmem
    · rw [hgrew.1] at hback
      exact absurd hback nofun
    · have hle := h.base_le hlife (hcovered havailable) hbase hwent.2.2 hv hw
      omega
  · intro havailable c x hgrow hreads hx hlt
    obtain ⟨p, v, hbase, hv, hfall⟩ := (hcovered havailable).recorded c x hgrow hreads hx hlt
    have hlow : v < t.count c := by
      by_cases hback : (spec c).back = true
      · rcases h.read p (State.keeps_base hbase) c x v hback (ne_wearPct_of_grow hgrow) hx hv with
          hle | ⟨-, t1, ht1, hlt1⟩
        · omega
        · have hmono := (htruth t1 ht1).count c hback
          omega
      · have hle := hfall (Bool.eq_false_iff.mpr hback)
        omega
    rw [findings_observe_of_base havailable hbase]
    exact grew_mem_findings hgrow hv hreads hlow
  · intro f hf _ b hb
    obtain ⟨p, -, hbase, hmem⟩ := exists_base_of_mem hf
    obtain ⟨hv, -, -⟩ := of_mem_findings hmem
    exact h.told p (State.keeps_base hbase) f.counter b f.fromValue (List.mem_filter.mp hb).1 hv

/-- **What one sample keeps.** -/
lemma Sound.sample (h : Sound k l) (hlife : Lifelike k l (.sample t e))
    (hcovered : e.available = true → Covered l t e) :
    Sound k (l.step heartbeat (.sample t e)) := by
  obtain ⟨hk, hof, htruth⟩ := id hlife
  have hstate : (l.step heartbeat (.sample t e)).state = (observe heartbeat l.state e).state := rfl
  have hnow : (l.step heartbeat (.sample t e)).truth = some t := rfl
  have htold : ∀ c b, (c, b) ∈ (l.step heartbeat (.sample t e)).told →
      ((c, b) ∈ l.told ∧ b ≤ t.count c) ∨ ((observe heartbeat l.state e).written = true ∧
        ∃ f ∈ (observe heartbeat l.state e).findings,
          f.change = .grew ∧ f.counter = c ∧ f.toValue = b) := by
    intro c b hb
    rcases List.mem_append.mp hb with hb | hb
    · obtain ⟨hb, hle⟩ := List.mem_filter.mp hb
      exact Or.inl ⟨hb, of_decide_eq_true hle⟩
    · by_cases hwritten : (observe heartbeat l.state e).written = true
      · rw [if_pos hwritten] at hb
        obtain ⟨f, hf, heq⟩ := List.mem_map.mp hb
        obtain ⟨hf, hgrew⟩ := List.mem_filter.mp hf
        exact Or.inr ⟨hwritten, f, hf, of_decide_eq_true hgrew, congrArg Prod.fst heq,
          congrArg Prod.snd heq⟩
      · rw [if_neg hwritten] at hb
        exact absurd hb List.not_mem_nil
  refine ⟨?_, ?_, ?_, ?_, ?_⟩
  · intro p hp
    rcases keeps_observe hp with ⟨hp, -⟩ | ⟨-, hfrom⟩
    · obtain ⟨r, t0, t1, hmade, ht1, hle⟩ := h.made p hp
      exact ⟨r, t0, t, hmade, hnow, hle.trans (htruth t1 ht1)⟩
    · exact ⟨e.readout, t, t, ⟨hk, hof, hfrom.1, hfrom.2⟩, hnow, Truth.Le.refl t⟩
  · intro p hp c x v hback hw hx hv
    have hx' : (if e.available ∧ Reads t e c then some (t.count c) else l.lastRead c) = some x := hx
    rcases keeps_observe hp with ⟨hp, -⟩ | ⟨havailable, hfrom, -⟩
    · obtain ⟨r, t0, t1, hmade, ht1, hle⟩ := h.made p hp
      by_cases hreads : e.available ∧ Reads t e c
      · rw [if_pos hreads] at hx'
        rw [← Option.some.inj hx']
        exact Or.inl (hmade.le_count (hle.trans (htruth t1 ht1)) hback hw hv)
      · rw [if_neg hreads] at hx'
        rcases h.read p hp c x v hback hw hx' hv with hle' | ⟨hm, t2, ht2, hlt⟩
        · exact Or.inl hle'
        · have hmono := (htruth t2 ht2).count c hback
          exact Or.inr ⟨hm, t, hnow, by omega⟩
    · rw [hfrom] at hv
      by_cases hreads : Reads t e c
      · rw [if_pos ⟨havailable, hreads⟩] at hx'
        have heq : t.count c = v := Option.some.inj (hreads.symm.trans hv)
        have hx'' := Option.some.inj hx'
        exact Or.inl (by omega)
      · by_cases hm : c = .mediaErrors
        · rw [hm] at hv hreads ⊢
          have hv' : (sampleOf e.readout).mediaErrors = v := Option.some.inj hv
          have hle := hof.mediaErrors_le
          have hne : v ≠ t.count .mediaErrors := by
            intro heq
            rw [heq] at hv
            exact hreads hv
          exact Or.inr ⟨rfl, t, hnow, by omega⟩
        · have hexact := hof.exact_of_ne c v hm hw hv
          rw [hexact] at hv
          exact absurd hv hreads
  · intro p hp c b v hb hv
    rcases keeps_observe hp with ⟨hp, hunwritten⟩ | ⟨havailable, hfrom, -⟩
    · rcases htold c b hb with ⟨hb, -⟩ | ⟨hwritten, -⟩
      · exact h.told p hp c b v hb hv
      · rw [hunwritten] at hwritten
        exact absurd hwritten Bool.false_ne_true
    · rw [hfrom] at hv
      rcases htold c b hb with ⟨hb, hle⟩ | ⟨-, f, hf, hgrew, rfl, rfl⟩
      · by_cases hm : c = .mediaErrors
        · rw [hm] at hb hv
          obtain ⟨p0, hbase⟩ := Option.ne_none_iff_exists'.mp (h.kept (List.ne_nil_of_mem hb)).1
          obtain ⟨r, t0, t1, hmade, -, -⟩ := h.made p0 (State.keeps_base hbase)
          have hv0 : p0.counters .mediaErrors = some (sampleOf r).mediaErrors := by
            rw [hmade.values]
            rfl
          have hbelow := h.told p0 (State.keeps_base hbase) _ b _ hb hv0
          have hrise := h.base_le hlife (hcovered havailable) hbase rfl hv0 hv
          omega
        · rw [hof.exact_of_ne c v hm (ne_wearPct_of_grow (h.grows c b hb)) hv]
          exact hle
      · obtain ⟨p0, -, -, hmem⟩ := exists_base_of_mem hf
        obtain ⟨-, hto, -⟩ := of_mem_findings hmem
        exact le_of_eq (Option.some.inj (hto.symm.trans hv))
  · intro c b hb
    rcases htold c b hb with ⟨hb, -⟩ | ⟨-, f, hf, hgrew, rfl, -⟩
    · exact h.grows c b hb
    · obtain ⟨p, -, -, hmem⟩ := exists_base_of_mem hf
      obtain ⟨-, -, hg | hw⟩ := of_mem_findings hmem
      · exact hg.2.2
      · rw [hw.1] at hgrew
        exact absurd hgrew nofun
  · intro hne
    rw [hstate]
    obtain ⟨⟨c, b⟩, hb⟩ := List.exists_mem_of_ne_nil _ hne
    rcases htold c b hb with ⟨hb, -⟩ | ⟨hwritten, -⟩
    · exact base_observe (h.kept (List.ne_nil_of_mem hb))
    · exact base_observe_of_written hwritten

end Ledger

end History

end StormDrive
