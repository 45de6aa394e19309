import Mathlib.Data.List.Sort
import StormDrive.Bytes.Checked

set_option relaxedAutoImplicit false
set_option autoImplicit false

/-!
# Sampled regions

The offsets of the regions that a sampled test looks at (`drivetest.rs`).

## Main definitions

* `DriveTest.sampleOffsets` — the offsets, in checked arithmetic.
* `DriveTest.samples` — the same without the checks.

## Main results

* `DriveTest.sampleOffsets_eq` — **no number goes out of range**.
* `DriveTest.Sampled` — the regions are apart, on whole MiB, and end before the drive does.
-/

/-! ## Lists in checked arithmetic -/

namespace Checked

/-- A list of computations that all have values. -/
lemma mapM_ok {E α β : Type} {l : List α} {f : α → Checked E β} {g : α → β}
    (values : ∀ a ∈ l, f a = .ok (g a)) : l.mapM f = .ok (l.map g) := by
  induction l with
  | nil => rfl
  | cons a l ih =>
    rw [List.mapM_cons, values a List.mem_cons_self,
      ih fun b h => values b (List.mem_cons_of_mem a h)]
    rfl

end Checked

namespace StormDrive

namespace DriveTest

/-- MIB. -/
def mib : ℕ := 2 ^ 20

/-- `Vec::dedup`: of equal neighbours the first stays. -/
def dedup : List ℕ → List ℕ
  | [] => []
  | [a] => [a]
  | a :: b :: l => if a = b then dedup (b :: l) else a :: dedup (b :: l)

/-- Offsets for sampled tests: the first MiB, the last full MiB, and an even spread between. -/
def sampleOffsets (capacity regions : ℕ) : Checked String (List ℕ) := do
  if capacity < mib then pure []
  else do
    let room ← Checked.sub capacity mib
    let whole ← Checked.div room mib
    let last ← Checked.mul whole mib
    let between ←
      if 2 < regions ∧ 0 < last then do
        let parts ← Checked.sub regions 1
        let step ← Checked.div last parts
        ((List.range (parts - 1)).map (· + 1)).mapM fun i => do
          let at' ← Checked.mul i step
          let whole ← Checked.div at' mib
          Checked.mul whole mib
      else pure []
    pure (dedup ((0 :: last :: between).mergeSort (· ≤ ·)))

/-- Where the last region begins. -/
def lastSample (capacity : ℕ) : ℕ := (capacity - mib) / mib * mib

/-- The regions between the first and the last. -/
def between (capacity regions : ℕ) : List ℕ :=
  if 2 < regions ∧ 0 < lastSample capacity then
    ((List.range (regions - 1 - 1)).map (· + 1)).map fun i =>
      i * (lastSample capacity / (regions - 1)) / mib * mib
  else []

/-- The offsets. -/
def samples (capacity regions : ℕ) : List ℕ :=
  if capacity < mib then []
  else dedup ((0 :: lastSample capacity :: between capacity regions).mergeSort (· ≤ ·))

/-- **No number goes out of range**. -/
lemma sampleOffsets_eq {capacity : ℕ} (fits : capacity < 2 ^ 64) (regions : ℕ) :
    sampleOffsets capacity regions = .ok (samples capacity regions) := by
  have size : mib = 2 ^ 20 := rfl
  unfold sampleOffsets samples
  by_cases small : capacity < mib
  · rw [if_pos small, if_pos small]
    rfl
  · have below : lastSample capacity ≤ capacity - mib := Nat.div_mul_le_self _ _
    have room := Checked.sub_eq (E := String) (a := capacity) (b := mib) (by omega)
    have whole := Checked.div_eq (E := String) (a := capacity - mib) (b := mib) (by omega)
    have last : (Checked.mul ((capacity - mib) / mib) mib : Checked String ℕ) =
        .ok (lastSample capacity) := Checked.mul_eq (lt_of_le_of_lt below (by omega))
    rw [if_neg small, if_neg small]
    rw [room, Checked.ok_bind, whole, Checked.ok_bind, last, Checked.ok_bind]
    by_cases spread : 2 < regions ∧ 0 < lastSample capacity
    · have parts := Checked.sub_eq (E := String) (a := regions) (b := 1) (by omega)
      have step := Checked.div_eq (E := String) (a := lastSample capacity) (b := regions - 1)
        (by omega)
      have each : ∀ i ∈ (List.range (regions - 1 - 1)).map (· + 1),
          (do
            let at' ← Checked.mul i (lastSample capacity / (regions - 1))
            let whole ← Checked.div at' mib
            Checked.mul whole mib : Checked String ℕ) =
          .ok (i * (lastSample capacity / (regions - 1)) / mib * mib) := by
        intro i h
        obtain ⟨j, mem, rfl⟩ := List.mem_map.mp h
        have within : (j + 1) * (lastSample capacity / (regions - 1)) ≤ lastSample capacity :=
          (Nat.mul_le_mul_right _ (by have := List.mem_range.mp mem; omega)).trans
            (Nat.mul_div_le (lastSample capacity) (regions - 1))
        have rounded : (j + 1) * (lastSample capacity / (regions - 1)) / mib * mib ≤
            lastSample capacity := (Nat.div_mul_le_self _ _).trans within
        have first := Checked.mul_eq (E := String) (a := j + 1)
          (b := lastSample capacity / (regions - 1)) (by omega)
        have second := Checked.div_eq (E := String)
          (a := (j + 1) * (lastSample capacity / (regions - 1))) (b := mib) (by omega)
        rw [first, Checked.ok_bind, second, Checked.ok_bind]
        exact Checked.mul_eq (by omega)
      rw [if_pos spread, between, if_pos spread, parts, Checked.ok_bind, step, Checked.ok_bind,
        Checked.mapM_ok each]
      rfl
    · rw [if_neg spread, between, if_neg spread]
      rfl

/-! ## Where they lie -/

lemma mem_dedup {l : List ℕ} {a : ℕ} : a ∈ dedup l ↔ a ∈ l := by
  induction l using dedup.induct with
  | case1 => rfl
  | case2 b => rfl
  | case3 b l ih =>
    rw [dedup, if_pos rfl, ih, List.mem_cons, List.mem_cons, List.mem_cons, or_self_left]
  | case4 b c l ne ih => rw [dedup, if_neg ne, List.mem_cons, ih, List.mem_cons (a := a) (b := b)]

/-- Sorted offsets without equal neighbours go up. -/
lemma dedup_increases {l : List ℕ} (sorted : l.Pairwise (· ≤ ·)) : (dedup l).Pairwise (· < ·) := by
  induction l using dedup.induct with
  | case1 => exact .nil
  | case2 b => exact List.pairwise_singleton _ _
  | case3 b l ih =>
    rw [dedup, if_pos rfl]
    exact ih (List.pairwise_cons.mp sorted).2
  | case4 b c l ne ih =>
    obtain ⟨first, rest⟩ := List.pairwise_cons.mp sorted
    rw [dedup, if_neg ne]
    refine List.pairwise_cons.mpr ⟨fun a h => ?_, ih rest⟩
    have near : b ≤ c := first c List.mem_cons_self
    obtain rfl | later := List.mem_cons.mp (mem_dedup.mp h)
    · omega
    · have far : c ≤ a := (List.pairwise_cons.mp rest).1 a later
      omega

/-- What holds of the regions of a drive. -/
structure Sampled (capacity : ℕ) (l : List ℕ) : Prop where
  increases : l.Pairwise (· < ·)
  whole : ∀ o ∈ l, mib ∣ o
  within : ∀ o ∈ l, o + mib ≤ capacity
  some : l ≠ [] ↔ mib ≤ capacity

lemma mem_samples {capacity regions o : ℕ} (large : ¬ capacity < mib) :
    o ∈ samples capacity regions ↔
      o = 0 ∨ o = lastSample capacity ∨ o ∈ between capacity regions := by
  rw [samples, if_neg large, mem_dedup, List.mem_mergeSort, List.mem_cons, List.mem_cons]

/-- **The regions are apart, on whole MiB, and end before the drive does**; there is none only on a
drive of less than 1 MiB. -/
lemma sampled (capacity regions : ℕ) : Sampled capacity (samples capacity regions) := by
  by_cases small : capacity < mib
  · rw [samples, if_pos small]
    exact ⟨.nil, nofun, nofun, iff_of_false (fun h => h rfl) (by omega)⟩
  · have below : lastSample capacity ≤ capacity - mib := Nat.div_mul_le_self _ _
    refine ⟨?_, ?_, ?_, ?_⟩
    · rw [samples, if_neg small]
      exact dedup_increases (List.pairwise_mergeSort' _ _)
    · intro o h
      obtain rfl | rfl | h := (mem_samples small).mp h
      · exact ⟨0, rfl⟩
      · exact Nat.dvd_mul_left _ _
      · unfold between at h
        split_ifs at h
        · obtain ⟨i, -, rfl⟩ := List.mem_map.mp h
          exact Nat.dvd_mul_left _ _
        · exact absurd h nofun
    · intro o h
      obtain rfl | rfl | h := (mem_samples small).mp h
      · omega
      · omega
      · unfold between at h
        split_ifs at h with spread
        · obtain ⟨i, one, rfl⟩ := List.mem_map.mp h
          obtain ⟨j, mem, rfl⟩ := List.mem_map.mp one
          have within : (j + 1) * (lastSample capacity / (regions - 1)) ≤ lastSample capacity :=
            (Nat.mul_le_mul_right _ (by have := List.mem_range.mp mem; omega)).trans
              (Nat.mul_div_le (lastSample capacity) (regions - 1))
          have rounded := Nat.div_mul_le_self
            ((j + 1) * (lastSample capacity / (regions - 1))) mib
          omega
        · exact absurd h nofun
    · refine iff_of_true (List.ne_nil_of_mem ((mem_samples small).mpr (.inl rfl))) (by omega)

end DriveTest

end StormDrive
