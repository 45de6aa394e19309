import Mathlib.Data.Nat.Notation
import Mathlib.Logic.Function.Basic

set_option relaxedAutoImplicit false
set_option autoImplicit false

/-!
# Caches that expire

A cache holds for each key at most one value with the time at which it was put there, and gives a
value back for a fixed time. Old values are thrown away whenever one is put in.

## Main definitions

* `Expiring.Cache` — a cache, with `Expiring.lookup` and `Expiring.store`.
* `Expiring.Holds` — every value of the cache has a property, given its key and its time.

## Main results

* `Expiring.Holds.store` — **a store keeps what holds of every value** if it holds of the new one.
* `Expiring.Holds.lookup` — **what is found has the property**, at a time that is not too long ago.
-/

namespace Expiring

variable {κ ρ : Type*}

/-- For each key the value there is, and when it was put there. -/
abbrev Cache (κ ρ : Type*) : Type _ := κ → Option (ℕ × ρ)

/-- Nothing is in the cache. -/
def empty : Cache κ ρ := fun _ => none

/-- A value is still given back. -/
def young (ttl now : ℕ) (entry : ℕ × ρ) : Bool := now - entry.1 < ttl

/-- The value that is found for a key. -/
def lookup (ttl now : ℕ) (cache : Cache κ ρ) (k : κ) : Option ρ :=
  ((cache k).filter (young ttl now)).map Prod.snd

/-- The cache without its old values. -/
def retain (ttl now : ℕ) (cache : Cache κ ρ) : Cache κ ρ := fun k =>
  (cache k).filter (young ttl now)

/-- The cache after a value is put in. -/
def store [DecidableEq κ] (ttl now : ℕ) (cache : Cache κ ρ) (k : κ) (r : ρ) : Cache κ ρ :=
  Function.update (retain ttl now cache) k (some (now, r))

/-- Every value has the property, given its key and the time at which it was put there. -/
def Holds (P : κ → ℕ → ρ → Prop) (cache : Cache κ ρ) : Prop :=
  ∀ k t r, cache k = some (t, r) → P k t r

section Holds

variable {P : κ → ℕ → ρ → Prop} {cache : Cache κ ρ} {ttl now : ℕ} {k : κ} {r : ρ}

lemma holds_empty : Holds P (empty : Cache κ ρ) := fun _ _ _ found => nomatch found

lemma Holds.mono {Q : κ → ℕ → ρ → Prop} (h : Holds P cache) (weaker : ∀ k t r, P k t r → Q k t r) :
    Holds Q cache :=
  fun k t r found => weaker k t r (h k t r found)

/-- A store keeps what holds of every value, if it holds of the new one. -/
lemma Holds.store [DecidableEq κ] (h : Holds P cache) (new : P k now r) :
    Holds P (store ttl now cache k r) := by
  intro k' t r' found
  by_cases same : k' = k
  · subst same
    rw [Expiring.store, Function.update_self, Option.some.injEq, Prod.mk.injEq] at found
    obtain ⟨rfl, rfl⟩ := found
    exact new
  · rw [Expiring.store, Function.update_of_ne same, retain, Option.filter_eq_some_iff] at found
    exact h k' t r' found.1

/-- What is found has the property, at a time that is not too long ago. -/
lemma Holds.lookup (h : Holds P cache) (found : lookup ttl now cache k = some r) :
    ∃ t, P k t r ∧ now - t < ttl := by
  rw [Expiring.lookup, Option.map_eq_some_iff] at found
  obtain ⟨⟨t, r'⟩, entry, rfl⟩ := found
  rw [Option.filter_eq_some_iff] at entry
  exact ⟨t, h k t r' entry.1, of_decide_eq_true entry.2⟩

/-- What was just put in is found. -/
lemma lookup_store [DecidableEq κ] (positive : 0 < ttl) :
    Expiring.lookup ttl now (Expiring.store ttl now cache k r) k = some r := by
  simp [Expiring.lookup, Expiring.store, young, Option.filter, positive]

/-- Nothing is found where nothing is. -/
@[simp] lemma lookup_empty : Expiring.lookup ttl now (empty : Cache κ ρ) k = none := rfl

end Holds

end Expiring
