import Mathlib.Data.List.Sort

set_option relaxedAutoImplicit false
set_option autoImplicit false

/-!
# Sorting by a key

A stable sort keeps items with the same key in their order. What it gives is determined by that:
two lists sorted by the key, with the same items in the same order under each key, are the same.

## Main definitions

* `StableSort.byKey` — a list sorted by a key.

## Main results

* `StableSort.filter_byKey` — the items under one key keep their order.
* `StableSort.eq_of_filter_eq` — **sorted lists that agree under each key are the same**.
* `StableSort.byKey_congr` — sorting gives the same for lists that agree under each key.
-/

namespace StableSort

variable {α κ : Type*} [LinearOrder κ] (key : α → κ)

/-- Sort by a key, items with the same key in the order they had. -/
def byKey (l : List α) : List α := l.insertionSort fun a b => key a ≤ key b

variable {key}

lemma perm_byKey (l : List α) : (byKey key l).Perm l := List.perm_insertionSort _ l

lemma pairwise_byKey (l : List α) : (byKey key l).Pairwise fun a b => key a ≤ key b := by
  have : Std.Total fun a b : α => key a ≤ key b := ⟨fun a b => le_total (key a) (key b)⟩
  have : IsTrans α fun a b => key a ≤ key b := ⟨fun _ _ _ => le_trans⟩
  exact List.pairwise_insertionSort _ l

/-- Items are in the order of their images' keys, sorted before or after. -/
lemma map_byKey {β : Type*} (f : β → α) (l : List β) :
    (byKey (fun b => key (f b)) l).map f = byKey key (l.map f) :=
  List.map_insertionSort _ _ f _ fun _ _ _ _ => Iff.rfl

/-- Inserting an item puts it before those with its key. -/
lemma filter_orderedInsert (k : κ) (a : α) (l : List α) :
    (l.orderedInsert (fun a b => key a ≤ key b) a).filter (fun b => key b = k) =
      (a :: l).filter fun b => key b = k := by
  induction l with
  | nil => rfl
  | cons b l ih =>
    rw [List.orderedInsert_cons]
    by_cases hab : key a ≤ key b
    · rw [if_pos hab]
    · rw [if_neg hab, List.filter_cons, ih]
      by_cases hb : key b = k
      · have ha : ¬ key a = k := fun ha => hab (by rw [ha, hb])
        simp [hb, ha]
      · simp [List.filter_cons, hb]

/-- Items with one key keep their order. -/
lemma filter_byKey (k : κ) (l : List α) :
    (byKey key l).filter (fun a => key a = k) = l.filter fun a => key a = k := by
  induction l with
  | nil => rfl
  | cons a l ih =>
    show ((byKey key l).orderedInsert _ a).filter _ = _
    rw [filter_orderedInsert, List.filter_cons, ih, List.filter_cons]

/-- **Sorted lists that agree under each key are the same.** -/
theorem eq_of_filter_eq {l m : List α} (hl : l.Pairwise fun a b => key a ≤ key b)
    (hm : m.Pairwise fun a b => key a ≤ key b)
    (h : ∀ k, l.filter (fun a => key a = k) = m.filter fun a => key a = k) : l = m := by
  induction l generalizing m with
  | nil =>
    refine (List.eq_nil_iff_forall_not_mem.mpr fun a ha => ?_).symm
    have hmem : a ∈ m.filter fun b => key b = key a := List.mem_filter.mpr ⟨ha, by simp⟩
    rw [← h (key a)] at hmem
    exact absurd hmem List.not_mem_nil
  | cons a l ih =>
    cases m with
    | nil =>
      have hmem : a ∈ (a :: l).filter fun b => key b = key a :=
        List.mem_filter.mpr ⟨List.mem_cons_self, by simp⟩
      rw [h (key a)] at hmem
      exact absurd hmem List.not_mem_nil
    | cons b m =>
      obtain ⟨hla, hl'⟩ := List.pairwise_cons.mp hl
      obtain ⟨hmb, hm'⟩ := List.pairwise_cons.mp hm
      -- each of the two first items is in the other list
      have hab : key a ≤ key b := by
        have hmem : b ∈ (b :: m).filter fun c => key c = key b :=
          List.mem_filter.mpr ⟨List.mem_cons_self, by simp⟩
        rw [← h (key b)] at hmem
        rcases List.mem_cons.mp (List.mem_filter.mp hmem).1 with heq | hmem
        · rw [heq]
        · exact hla b hmem
      have hba : key b ≤ key a := by
        have hmem : a ∈ (a :: l).filter fun c => key c = key a :=
          List.mem_filter.mpr ⟨List.mem_cons_self, by simp⟩
        rw [h (key a)] at hmem
        rcases List.mem_cons.mp (List.mem_filter.mp hmem).1 with heq | hmem
        · rw [heq]
        · exact hmb a hmem
      have hkey : key b = key a := le_antisymm hba hab
      have hfirst := h (key a)
      rw [List.filter_cons_of_pos (by simp), List.filter_cons_of_pos (by simp [hkey])] at hfirst
      have heq : a = b := (List.cons.inj hfirst).1
      rw [heq, ih hl' hm' fun k => ?_]
      have hk := h k
      rw [heq, List.filter_cons, List.filter_cons] at hk
      by_cases hbk : key b = k
      · simpa [hbk] using hk
      · simpa [hbk] using hk

/-- In a list whose items have different keys at most one item is under each key, whatever their
order. -/
lemma filter_eq_of_perm {l m : List α} (h : l.Perm m) (hl : (l.map key).Nodup) (k : κ) :
    l.filter (fun a => key a = k) = m.filter fun a => key a = k := by
  have hperm := h.filter fun a => key a = k
  have hnodup : ((l.filter fun a => key a = k).map key).Nodup :=
    hl.sublist (List.filter_sublist.map key)
  have hkey : ∀ a ∈ l.filter fun a => key a = k, key a = k := fun a ha => by
    simpa using (List.mem_filter.mp ha).2
  revert hperm hnodup hkey
  generalize l.filter (fun a => key a = k) = lk
  intro hperm hnodup hkey
  match lk with
  | [] => exact (List.nil_perm.mp hperm).symm
  | [a] => exact (List.singleton_perm.mp hperm).symm ▸ rfl
  | a :: b :: rest =>
    exfalso
    rw [List.map_cons, List.map_cons, List.nodup_cons, hkey a (by simp), hkey b (by simp)] at hnodup
    exact hnodup.1 List.mem_cons_self

/-- Sorting gives the same for lists that agree under each key. -/
theorem byKey_congr {l m : List α}
    (h : ∀ k, l.filter (fun a => key a = k) = m.filter fun a => key a = k) :
    byKey key l = byKey key m :=
  eq_of_filter_eq (pairwise_byKey l) (pairwise_byKey m) fun k => by
    rw [filter_byKey, filter_byKey, h k]

end StableSort
