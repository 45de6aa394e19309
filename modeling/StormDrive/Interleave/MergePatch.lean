import Mathlib.Logic.Function.Basic

set_option relaxedAutoImplicit false
set_option autoImplicit false

/-!
# Merge patches

A document that is changed by merging patches into it: a member of the patch replaces that of the
document, a null takes it away, and what the patch does not have stays. Documents are records of
members, and maps of such records.

## Main definitions

* `MergePatch.merge` — a patch is merged into a record.
* `MergePatch.mergeAll` — a patch is merged into a map of records.

## Main results

* `MergePatch.mergeAll_again` — **a patch that is merged again changes nothing**.
* `MergePatch.mergeAll_self` — a document merged into itself is the same.
-/

namespace MergePatch

variable {ι κ υ : Type*} [DecidableEq υ] (null : υ)

/-- A patch is merged into a record. -/
def merge (target patch : κ → Option υ) (k : κ) : Option υ :=
  match patch k with
  | none => target k
  | some v => if v = null then none else some v

/-- A patch is merged into a map of records, each as a record of its own. A record that is not
there yet is made. -/
def mergeAll (target patch : ι → Option (κ → Option υ)) (i : ι) : Option (κ → Option υ) :=
  match patch i with
  | none => target i
  | some p => some (merge null ((target i).getD fun _ => none) p)

variable {null}

section Record

variable {target patch : κ → Option υ} {k : κ}

lemma merge_of_none (h : patch k = none) : merge null target patch k = target k := by
  rw [merge, h]

lemma merge_of_some {v : υ} (h : patch k = some v) (hv : v ≠ null) :
    merge null target patch k = some v := by
  rw [merge, h]
  exact if_neg hv

/-- No null is stored. -/
lemma merge_ne_null (htarget : ∀ k, target k ≠ some null) (k : κ) :
    merge null target patch k ≠ some null := by
  unfold merge
  split
  · exact htarget k
  · split
    · simp
    · rename_i hv
      exact fun heq => hv (Option.some.inj heq)

/-- Merging again changes nothing. -/
lemma merge_again : merge null (merge null target patch) patch = merge null target patch := by
  funext k
  cases h : patch k with
  | none => rw [merge_of_none h]
  | some v => rw [merge, merge, h]

/-- A record without nulls that is merged into itself is the same. -/
lemma merge_self (h : ∀ k, target k ≠ some null) : merge null target target = target := by
  funext k
  unfold merge
  split
  · rfl
  · rename_i v hv
    rw [if_neg fun hnull => h k (by rw [hv, hnull]), hv]

end Record

section Map

variable {target patch : ι → Option (κ → Option υ)} {i : ι}

lemma mergeAll_of_none (h : patch i = none) : mergeAll null target patch i = target i := by
  rw [mergeAll, h]

lemma mergeAll_of_some {p : κ → Option υ} (h : patch i = some p) :
    mergeAll null target patch i = some (merge null ((target i).getD fun _ => none) p) := by
  rw [mergeAll, h]

/-- **A patch that is merged again changes nothing.** -/
theorem mergeAll_again :
    mergeAll null (mergeAll null target patch) patch = mergeAll null target patch := by
  funext i
  cases h : patch i with
  | none => rw [mergeAll_of_none h]
  | some p =>
    rw [mergeAll_of_some h, mergeAll_of_some h, Option.getD_some, merge_again]

/-- A document without nulls that is merged into itself is the same. -/
theorem mergeAll_self (h : ∀ i r, target i = some r → ∀ k, r k ≠ some null) :
    mergeAll null target target = target := by
  funext i
  cases hi : target i with
  | none => rw [mergeAll_of_none hi, hi]
  | some r => rw [mergeAll_of_some hi, hi, Option.getD_some, merge_self (h i r hi)]

end Map

end MergePatch
