import StormDrive.Steps

set_option relaxedAutoImplicit false
set_option autoImplicit false

/-!
# The blockers of a drive record

The methods of `drive.rs` that say why a drive cannot join the fleet, be tested, be offered, be
formatted or take firmware now, with the bay's check of `api/mod.rs`.

## Main definitions

* `Drive.fleetJoinBlocker`, `Drive.destructiveTestBlocker`, `Drive.offerBlocker`,
  `Drive.formatBlocker`, `Drive.firmwareBlocker`, `bayPowerBlocker` — each a cascade of refusals.
* `Drive.designationBlocker` — why a drive cannot take a label.

## Main results

* `busy_refused` — a drive that is not idle is refused by every blocker and by the guard.
* `Drive.fleetJoinBlocker_eq_none_iff` and its siblings — what a passed cascade has checked.
-/

namespace StormDrive

namespace Drive

/-- Why this drive cannot join the fleet right now. -/
def fleetJoinBlocker (d : Drive) : Option String :=
  refuse (d.membership = .fleet) "already in the fleet" <|>
  refuse (d.designation = .failed) "designated failed" <|>
  refuse (d.designation = .reserved) "designated reserved" <|>
  refuse (d.designation = .system)
    "designated system: the install lays the system half on it, not data" <|>
  refuse (d.activity ≠ .idle) ("activity is " ++ d.activity.debug) <|>
  refuse (d.health.status.atLeastFailing = true) ("health is " ++ d.health.status.debug) <|>
  d.inUseBy.map (fun who => "in use: holds data for " ++ who) <|>
  refuse (d.usable = false)
    ("kernel cannot use " ++ toString d.blockSize ++ "-byte sectors — reformat to 4096 first")

/-- Why this drive cannot take a designation now. The system label is refused on a drive in the
fleet or with data on it, the failed label on the drive the node runs from. -/
def designationBlocker (d : Drive) (des : Designation) : Option String :=
  if des = d.designation then none
  else
    let u := InUse.of d
    let why := u.reason.getD ""
    match des with
    | .system =>
      refuse (d.membership = .fleet)
        "in the fleet: its data would be laid over by the install — leave (drain) first" <|>
      refuse (u.inUse = true ∧ u.use ≠ .system)
        ("in use: " ++ why ++ " — the install would lay the system half over it")
    | .failed =>
      refuse (u.use = .system)
        ("in use: " ++ why ++ " — marking it failed would drain the system half under the node; " ++
          "its health verdict drains it if it is failing")
    | _ => none

/-- Destructive tests are only allowed on drives that are out of the fleet and present. -/
def destructiveTestBlocker (d : Drive) : Option String :=
  (InUse.of d).reason.map (fun why => "in use: " ++ why) <|>
  refuse (d.membership = .fleet)
    "in the fleet — destructive tests need an out-of-fleet drive" <|>
  refuse (d.designation = .system) "designated system — clear the designation first" <|>
  d.inUseBy.map (fun who => "in use: holds data for " ++ who) <|>
  refuse (d.activity ≠ .idle) ("activity is " ++ d.activity.debug) <|>
  refuse (d.usable = false)
    ("kernel cannot use " ++ toString d.blockSize ++ "-byte sectors — reformat first")

/-- The health check of `offer_blocker`: a verdict that is not failing. -/
def offerHealthBlocker (d : Drive) : Option String :=
  refuse (d.health.status = .unknown) "no health verdict yet" <|>
  refuse (d.health.status.atLeastFailing = true) ("health is " ++ d.health.status.debug)

/-- Why this drive is not offered for enrolment. -/
def offerBlocker (d : Drive) (minBytes : Nat) : Option String :=
  refuse (d.membership = .fleet) "in the fleet" <|>
  refuse (d.activity ≠ .idle) ("activity is " ++ d.activity.debug) <|>
  refuse (d.designation ≠ .none) ("designated " ++ d.designation.debug) <|>
  d.offerHealthBlocker <|>
  refuse (d.needsReformat = true) (toString d.blockSize ++ "-byte sectors: reformat first") <|>
  (d.thermal.filter DriveThermal.throttleBackground).map (fun t =>
    "running hot (" ++ (match t.tempC with
      | some v => v ++ " °C"
      | none => "no reading") ++ ", warning " ++ t.warnC ++ " °C)") <|>
  refuse (d.capacityBytes < minBytes) ("smaller than " ++ toString minBytes ++ " bytes") <|>
  d.inUseBy.map (fun who => "holds data for " ++ who) <|>
  d.contents.map (fun what => "holds " ++ what)

/-- Why a firmware update cannot start now. -/
def firmwareBlocker (d : Drive) (force : Bool) : Option String :=
  refuse (d.activity = .updatingFirmware) "a firmware update is already running" <|>
  refuse (d.activity ≠ .idle) ("activity is " ++ d.activity.debug) <|>
  refuse (force = false ∧ d.health.status.atLeastFailing = true)
    ("health is " ++ d.health.status.debug ++ " (pass force to override)")

/-- Why a sector-size reformat cannot start now. -/
def formatBlocker (d : Drive) : Option String :=
  (InUse.of d).reason.map (fun why => "in use: " ++ why) <|>
  refuse (d.membership = .fleet) "in the fleet — leave (drain) first" <|>
  d.inUseBy.map (fun who => "in use: holds data for " ++ who) <|>
  refuse (d.activity = .formatting) "a format is already running" <|>
  refuse (d.activity ≠ .idle) ("activity is " ++ d.activity.debug) <|>
  refuse (d.designation = .reserved) "designated reserved" <|>
  refuse (d.designation = .system)
    "designated system — a worker job naming it in \"destroy\" may format it" <|>
  refuse (d.kind = .nvmeSsd) "NVMe: use namespace format (not implemented)"

end Drive

/-- Why the drive in a bay may not be powered off. -/
def bayPowerBlocker (d : Drive) : Option String :=
  refuse (d.membership = .fleet) "in the fleet: leave it first" <|>
  d.inUseBy.map (fun who => "in use by " ++ who) <|>
  refuse (d.activity ≠ .idle) ("busy (" ++ d.activity.debug.toLower ++ ")")

/-! ## What a passed cascade has checked -/

section Passed

variable {d : Drive}

lemma not_fleet_iff : ¬ d.membership = .fleet ↔ d.membership = .out := by
  cases d.membership <;> simp

/-- **What `fleet_join_blocker` checks.** -/
theorem Drive.fleetJoinBlocker_eq_none_iff :
    d.fleetJoinBlocker = none ↔
      d.membership = .out ∧ (d.designation = .none ∨ d.designation = .spare) ∧
      d.activity = .idle ∧ d.health.status.atLeastFailing = false ∧ d.inUseBy = none ∧
      d.usable = true := by
  simp only [fleetJoinBlocker, Option.orElse_eq_none, refuse_eq_none_iff,
    Option.map_eq_none_iff, not_fleet_iff, ne_eq, not_not, Bool.not_eq_true, Bool.not_eq_false]
  cases d.designation <;> simp

/-- **What `destructive_test_blocker` checks.** -/
theorem Drive.destructiveTestBlocker_eq_none_iff :
    d.destructiveTestBlocker = none ↔
      (InUse.of d).use = .free ∧ d.designation ≠ .system ∧ d.activity = .idle ∧
      d.usable = true := by
  simp only [destructiveTestBlocker, Option.orElse_eq_none, refuse_eq_none_iff,
    Option.map_eq_none_iff, not_fleet_iff, ne_eq, not_not, Bool.not_eq_false,
    InUse.of_reason_eq_none_iff]
  constructor
  · rintro ⟨hfree, -, hsys, -, hidle, husable⟩
    exact ⟨hfree, hsys, hidle, husable⟩
  · rintro ⟨hfree, hsys, hidle, husable⟩
    obtain ⟨-, hin, hout, -⟩ := (InUse.of_free_iff d).mp hfree
    exact ⟨hfree, hout, hsys, hin, hidle, husable⟩

/-- **What `format_blocker` checks.** -/
theorem Drive.formatBlocker_eq_none_iff :
    d.formatBlocker = none ↔
      (InUse.of d).use = .free ∧ d.activity = .idle ∧ d.designation ≠ .reserved ∧
      d.designation ≠ .system ∧ d.kind ≠ .nvmeSsd := by
  simp only [formatBlocker, Option.orElse_eq_none, refuse_eq_none_iff, Option.map_eq_none_iff,
    not_fleet_iff, ne_eq, not_not, InUse.of_reason_eq_none_iff]
  constructor
  · rintro ⟨hfree, -, -, -, hidle, hres, hsys, hkind⟩
    exact ⟨hfree, hidle, hres, hsys, hkind⟩
  · rintro ⟨hfree, hidle, hres, hsys, hkind⟩
    obtain ⟨-, hin, hout, -⟩ := (InUse.of_free_iff d).mp hfree
    exact ⟨hfree, hout, hin, by simp [hidle], hidle, hres, hsys, hkind⟩

/-- **What the bay's check is.** -/
theorem bayPowerBlocker_eq_none_iff :
    bayPowerBlocker d = none ↔
      d.membership = .out ∧ d.inUseBy = none ∧ d.activity = .idle := by
  simp only [bayPowerBlocker, Option.orElse_eq_none, refuse_eq_none_iff, Option.map_eq_none_iff,
    not_fleet_iff, ne_eq, not_not]

/-- A cascade that has an activity check refuses a drive that is not idle. -/
lemma Drive.offerBlocker_ne_none {minBytes : Nat} (h : d.activity ≠ .idle) :
    d.offerBlocker minBytes ≠ none := by
  intro hn
  simp only [offerBlocker, Option.orElse_eq_none, refuse_eq_none_iff, ne_eq, not_not] at hn
  exact h hn.2.1

lemma Drive.firmwareBlocker_ne_none {force : Bool} (h : d.activity ≠ .idle) :
    d.firmwareBlocker force ≠ none := by
  intro hn
  simp only [firmwareBlocker, Option.orElse_eq_none, refuse_eq_none_iff, ne_eq, not_not] at hn
  exact h hn.2.1

/-- **A busy drive is refused**: a drive that is not idle passes no blocker, and the guard accepts
no steps on it. -/
theorem busy_refused (h : d.activity ≠ .idle) (steps : List Step) (named : Bool) (cx : Context)
    (minBytes : Nat) (force : Bool) :
    guard d steps named cx ≠ .ok () ∧ d.formatBlocker ≠ none ∧
      d.firmwareBlocker force ≠ none ∧ d.offerBlocker minBytes ≠ none ∧
      d.fleetJoinBlocker ≠ none ∧ d.destructiveTestBlocker ≠ none ∧ bayPowerBlocker d ≠ none := by
  refine ⟨fun hok => ?_, fun hn => ?_, Drive.firmwareBlocker_ne_none h,
    Drive.offerBlocker_ne_none h, fun hn => ?_, fun hn => ?_, fun hn => ?_⟩
  · rw [guard_eq_ok_iff, guardRefusal_eq_none_iff] at hok
    exact h hok.1
  · exact h (Drive.formatBlocker_eq_none_iff.mp hn).2.1
  · exact h (Drive.fleetJoinBlocker_eq_none_iff.mp hn).2.2.1
  · exact h (Drive.destructiveTestBlocker_eq_none_iff.mp hn).2.2.1
  · exact h (bayPowerBlocker_eq_none_iff.mp hn).2.2

end Passed

end StormDrive
