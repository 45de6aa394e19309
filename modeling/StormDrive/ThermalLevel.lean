import Mathlib.Algebra.Order.Field.Rat
import StormDrive.Interleave.Latch
import StormDrive.Thermal

set_option relaxedAutoImplicit false
set_option autoImplicit false

/-!
# The level of a temperature

A temperature is at one of the levels of `thermal.rs`, which are latched bands over its limits.

## Main definitions

* `Thermal.Limits.bands` — the bands of a component's limits.
* `Thermal.Steadies` — **the level follows the temperature without flapping**.

## Main results

* `Thermal.level_eq_settle` — a level is that of a latched band.
* `Thermal.level_steadies` — the levels are steady, whatever the limits, the margin and the
  hysteresis.

## Implementation notes

Temperatures are rational numbers. Nothing is asked of the limits: the bands may overlap, or come
in the wrong order.
-/

namespace StormDrive

namespace Thermal

open Latch

/-- The limit at which a level is entered; the lowest two have none. -/
def Limits.limitOf (l : Limits ℚ) (near : ℚ) : Level → Option ℚ
  | .critical => some l.crit
  | .warning => some l.warn
  | .near => some (l.warn - near)
  | _ => none

/-- The band of a level from its limit on. -/
def bandAt (hyst : ℚ) (at' : Level) (limit : ℚ) : Band Level ℚ := ⟨at', limit, limit - hyst⟩

/-- The bands of a component's limits. -/
def Limits.bands (l : Limits ℚ) (near hyst : ℚ) : List (Band Level ℚ) :=
  [bandAt hyst .critical l.crit, bandAt hyst .warning l.warn, bandAt hyst .near (l.warn - near)]

/-- The level after a run of readings. -/
def levels (l : Limits ℚ) (near hyst : ℚ) (prev : Level) (ts : List ℚ) : Level :=
  ts.foldl (fun p t => level p (some t) l near hyst) prev

/-- **The level follows the temperature without flapping.** -/
structure Steadies (l : Limits ℚ) (near hyst : ℚ) : Prop where
  /-- A higher temperature is at no lower level. -/
  monotone : ∀ prev t t', t ≤ t' →
    level prev (some t) l near hyst ≤ level prev (some t') l near hyst
  /-- A higher level before leads to no lower one. -/
  monotonePrev : ∀ prev prev' t, prev ≤ prev' → level prev t l near hyst ≤ level prev' t l near hyst
  /-- The same reading again changes nothing. -/
  again : ∀ prev t, level (level prev t l near hyst) t l near hyst = level prev t l near hyst
  /-- A level that was entered is not left downwards by readings that never fall to `hyst` under
  its limit. -/
  latched : ∀ at' limit, l.limitOf near at' = some limit → ∀ prev, at' ≤ prev → ∀ ts : List ℚ,
    (∀ t ∈ ts, limit - hyst < t) → at' ≤ levels l near hyst prev ts
  /-- A reading at a limit or above is at its level at least. -/
  reached : ∀ at' limit, l.limitOf near at' = some limit → ∀ prev t, limit ≤ t →
    at' ≤ level prev (some t) l near hyst

variable {l : Limits ℚ} {near hyst : ℚ}

/-- A level is that of a latched band. -/
lemma level_eq_settle (prev : Level) (t : ℚ) :
    level prev (some t) l near hyst = settle .ok (l.bands near hyst) prev t := by
  simp only [level, Limits.bands, settle, Band.Held, bandAt, decide_eq_true_eq]
  exact if_congr Iff.rfl rfl (if_congr Iff.rfl rfl (if_congr Iff.rfl rfl rfl))

/-- The bands go from critical down to near. -/
lemma descending_bands : Descending .ok (l.bands near hyst) := by
  simp only [Descending, Limits.bands, bandAt, List.pairwise_cons, List.mem_cons, List.not_mem_nil,
    or_false, forall_eq_or_imp, forall_eq]
  refine ⟨⟨?_, ?_, ?_⟩, ⟨?_, ?_⟩, ?_, ?_, .nil⟩ <;> first | decide | exact nofun

/-- Each limit has its band. -/
lemma bandAt_mem {at' : Level} {limit : ℚ} (h : l.limitOf near at' = some limit) :
    bandAt hyst at' limit ∈ l.bands near hyst := by
  cases at' with
  | unknown => exact absurd h nofun
  | ok => exact absurd h nofun
  | near =>
    obtain rfl := Option.some.inj h
    exact List.mem_of_getElem? (i := 2) rfl
  | warning =>
    obtain rfl := Option.some.inj h
    exact List.mem_of_getElem? (i := 1) rfl
  | critical =>
    obtain rfl := Option.some.inj h
    exact List.mem_cons_self

lemma levels_eq_run (prev : Level) (ts : List ℚ) :
    levels l near hyst prev ts = run .ok (l.bands near hyst) prev ts := by
  simp only [levels, run, level_eq_settle]

/-- **Levels are steady**: whatever the limits, the margin of the band below and the hysteresis.

**Proof sketch.** A level is that of a latched band (`level_eq_settle`), and the laws are those of
`Latch`. A reading that is missing is at the lowest level, whatever was before. -/
theorem level_steadies (l : Limits ℚ) (near hyst : ℚ) : Steadies l near hyst where
  monotone prev t t' h := by
    rw [level_eq_settle, level_eq_settle]
    exact settle_mono descending_bands h
  monotonePrev prev prev' t h := by
    cases t with
    | none => exact le_refl Level.unknown
    | some t =>
      rw [level_eq_settle, level_eq_settle]
      exact settle_mono_prev descending_bands h
  again prev t := by
    cases t with
    | none => rfl
    | some t =>
      rw [level_eq_settle, level_eq_settle]
      exact settle_settle descending_bands
  latched at' limit h prev hp ts above := by
    rw [levels_eq_run]
    exact le_run descending_bands (bandAt_mem h) hp above
  reached at' limit h prev t ht := by
    have mem : bandAt hyst at' limit ∈ l.bands near hyst := bandAt_mem h
    rw [level_eq_settle]
    exact le_settle_of_held descending_bands mem (Or.inl ht)

end Thermal

end StormDrive
