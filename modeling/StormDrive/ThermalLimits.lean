import Mathlib.Algebra.Order.Field.Rat
import Mathlib.Tactic.NormNum
import StormDrive.Thermal

set_option relaxedAutoImplicit false
set_option autoImplicit false

/-!
# Whose limit a limit is

The limits of a component come from the device, a setting and its class (`thermal.rs`). The warning
and the critical limit are picked one by one, and a warning that is then not below the critical one
is put under it.

## Main definitions

* `Thermal.Honoured` — the device's limits come first, a setting may lower them, and the class is last.
* `Thermal.Fits` — the warning limit of the device, or of a setting below it, is below the critical
  limit that comes from somewhere else.

## Main results

* `Thermal.honoured_iff` — **the order is kept exactly where the warning limit fits**.
* `Thermal.class_overrides_device` — a device that gives only its warning limit loses it to its
  class.

## Implementation notes

Temperatures are rational numbers here.
-/

namespace StormDrive

namespace Thermal

/-! ## What is promised -/

/-- **The order of the sources is kept.** -/
structure Honoured (device : DeviceLimits ℚ) (set : LimitSetting ℚ) (l : Limits ℚ) : Prop where
  ordered : l.warn < l.crit
  /-- A limit that the device plausibly gives is never raised. -/
  warnNotRaised : ∀ w, device.sane.warn = some w → l.warn ≤ w
  critNotRaised : ∀ c, device.sane.crit = some c → l.crit ≤ c
  /-- A setting below the device's limit takes effect. -/
  warnSet : ∀ w s, device.sane.warn = some w → set.warn = some s → s < w → l.warn = s
  critSet : ∀ c s, device.sane.crit = some c → set.crit = some s → s < c → l.crit = s
  /-- With no setting at all the device's own limit is the effective one. -/
  warnOwn : set = {} → ∀ w, device.sane.warn = some w → l.warn = w
  critOwn : set = {} → ∀ c, device.sane.crit = some c → l.crit = c

/-- **The warning limit of the device, or of a setting below it, fits** under the critical limit
that has another source: a setting, or the class where nothing else gives one. -/
structure Fits (device : DeviceLimits ℚ) (set : LimitSetting ℚ) (base : ℚ × ℚ) : Prop where
  lowered : ∀ w s, device.sane.warn = some w → set.warn = some s → s < w →
    (∀ c, set.crit = some c → s < c) ∧
      (set.crit = none → device.sane.crit = none → s < base.2)
  own : set = {} → ∀ w, device.sane.warn = some w → device.sane.crit = none → w < base.2

/-! ## Picking one limit -/

variable {d s b : ℚ} {set : Option ℚ}

/-- A limit of the device is not raised. -/
lemma pick_le : (pick (some d) set b).1 ≤ d := by
  cases set with
  | none => exact le_refl d
  | some s =>
    rw [pick]
    split
    · next h => exact h.le
    · exact le_refl d

lemma pick_of_lt (h : s < d) : (pick (some d) (some s) b).1 = s := by
  rw [pick, if_pos h]

/-- Limits that are plausible together are the right way round. -/
lemma sane_lt {device : DeviceLimits ℚ} {w c : ℚ} (hw : device.sane.warn = some w)
    (hc : device.sane.crit = some c) : w < c := by
  unfold DeviceLimits.sane at hw hc
  cases hfw : device.warn.filter believable with
  | none => simp [hfw] at hw
  | some w' =>
    cases hfc : device.crit.filter believable with
    | none => simp [hfw, hfc] at hc
    | some c' =>
      simp only [hfw, hfc] at hw hc
      by_cases h : c' ≤ w'
      · simp [h] at hw
      · rw [if_neg h] at hw hc
        cases hw
        cases hc
        exact not_le.mp h

/-! ## Both together -/

@[simp] lemma underCritical_crit (warn crit : ℚ × LimitSource) :
    (underCritical warn crit).crit = crit.1 := by
  unfold underCritical
  split <;> rfl

/-- The warning limit is below the critical one. -/
lemma underCritical_lt (warn crit : ℚ × LimitSource) : (underCritical warn crit).warn < crit.1 := by
  have hgap : (0 : ℚ) < (derivedGap : ℚ) := by norm_num [derivedGap]
  unfold underCritical
  split
  · exact sub_lt_self crit.1 hgap
  · next h => exact lt_of_not_ge h

/-- A warning limit is the effective one exactly when it is below the critical. -/
lemma underCritical_warn_eq_iff (warn crit : ℚ × LimitSource) :
    (underCritical warn crit).warn = warn.1 ↔ warn.1 < crit.1 := by
  constructor
  · intro h
    exact h ▸ underCritical_lt warn crit
  · intro h
    rw [underCritical, if_neg (not_le.mpr h)]

/-- The warning limit is not raised. -/
lemma underCritical_warn_le (warn crit : ℚ × LimitSource) :
    (underCritical warn crit).warn ≤ warn.1 := by
  by_cases h : crit.1 ≤ warn.1
  · exact (underCritical_lt warn crit).le.trans h
  · exact ((underCritical_warn_eq_iff warn crit).mpr (not_le.mp h)).le

variable {device : DeviceLimits ℚ} {setting : Option (LimitSetting ℚ)} {base : ℚ × ℚ} {w : ℚ}

/-- The critical limit is picked by itself. -/
lemma resolve_crit : (resolve device setting base).crit =
    (pick device.sane.crit (setting.getD {}).crit base.2).1 :=
  underCritical_crit _ _

/-- The limits where the device gives its own warning limit. -/
lemma resolve_of_warn (hw : device.sane.warn = some w) : resolve device setting base =
    underCritical (pick (some w) (setting.getD {}).warn base.1)
      (pick device.sane.crit (setting.getD {}).crit base.2) := by
  simp [resolve, hw]

/-- What a warning limit under the device's own has to be below. -/
lemma lt_resolve_crit_iff (hw : device.sane.warn = some w) (hs : s ≤ w) :
    s < (resolve device setting base).crit ↔
      (∀ c, (setting.getD {}).crit = some c → s < c) ∧
        ((setting.getD {}).crit = none → device.sane.crit = none → s < base.2) := by
  rw [resolve_crit]
  cases hd : device.sane.crit with
  | none => cases hc : (setting.getD {}).crit <;> simp [pick]
  | some d =>
    have hsd : s < d := hs.trans_lt (sane_lt hw hd)
    cases hc : (setting.getD {}).crit with
    | none => simp [pick, hsd]
    | some c =>
      by_cases hcd : c < d
      · simp [pick, hcd]
      · simp [pick, hcd, hsd, hsd.trans_le (not_lt.mp hcd)]

/-- **The order of the sources is kept exactly where the warning limit fits.**

**Proof sketch.** The critical limit is picked by itself, so that only the warning limit can be
lost, to being put under the critical. It is not exactly when it is below it. -/
theorem honoured_iff (device : DeviceLimits ℚ) (setting : Option (LimitSetting ℚ)) (base : ℚ × ℚ) :
    Honoured device (setting.getD {}) (resolve device setting base) ↔
      Fits device (setting.getD {}) base := by
  have hordered : (resolve device setting base).warn < (resolve device setting base).crit := by
    rw [resolve_crit]
    exact underCritical_lt _ _
  constructor
  · intro h
    refine ⟨fun w s hw hs hlt => ?_, fun hset w hw hd => ?_⟩
    · rw [← lt_resolve_crit_iff hw hlt.le, ← h.warnSet w s hw hs hlt]
      exact hordered
    · have hbelow : w < (resolve device setting base).crit := by
        have hown := h.warnOwn hset w hw
        rwa [hown] at hordered
      exact ((lt_resolve_crit_iff hw le_rfl).mp hbelow).2 (by rw [hset]) hd
  · intro h
    -- a picked warning limit is lost only to the critical one
    have heffective : ∀ w s, device.sane.warn = some w →
        (pick (some w) (setting.getD {}).warn base.1).1 = s →
        s < (resolve device setting base).crit → (resolve device setting base).warn = s := by
      intro w s hw hpick hlt
      rw [resolve_crit] at hlt
      rw [resolve_of_warn hw, ← hpick, underCritical_warn_eq_iff, hpick]
      exact hlt
    refine
      { ordered := hordered
        warnNotRaised := fun w hw => ?_
        critNotRaised := fun c hc => ?_
        warnSet := fun w s hw hs hlt => ?_
        critSet := fun c s hc hs hlt => ?_
        warnOwn := fun hset w hw => ?_
        critOwn := fun hset c hc => ?_ }
    · rw [resolve_of_warn hw]
      exact (underCritical_warn_le _ _).trans pick_le
    · rw [resolve_crit, hc]
      exact pick_le
    · refine heffective w s hw (by rw [hs, pick_of_lt hlt]) ?_
      exact (lt_resolve_crit_iff hw hlt.le).mpr (h.lowered w s hw hs hlt)
    · rw [resolve_crit, hc, hs, pick_of_lt hlt]
    · refine heffective w w hw (by rw [hset]; rfl) ((lt_resolve_crit_iff hw le_rfl).mpr ?_)
      refine ⟨fun c hc => ?_, fun _ hd => h.own hset w hw hd⟩
      rw [hset] at hc
      cases hc
    · rw [resolve_crit, hc, hset]
      rfl

/-- **Not for every device**: one that gives only its warning limit, of 75 °C, is warned about at
65 °C, because its class is critical at 70 °C. -/
theorem class_overrides_device :
    ¬ ∀ (device : DeviceLimits ℚ) (setting : Option (LimitSetting ℚ)) (base : ℚ × ℚ),
      (setting.getD {}).validate.isOk = true → base.1 < base.2 →
        Honoured device (setting.getD {}) (resolve device setting base) := by
  intro h
  have hown := (h ⟨some 75, none⟩ none (55, 70) (by decide +kernel) (by norm_num)).warnOwn rfl 75
    (by decide +kernel)
  exact absurd hown (by decide +kernel)

end Thermal

end StormDrive
