import Mathlib.Data.List.Nodup

set_option relaxedAutoImplicit false
set_option autoImplicit false

/-!
# Searching an unordered map

A map whose entries come in an order that nothing fixes, and the first entry of a kind. Where a kind
of entry is looked for, and another kind if there is none, the result does not depend on the order
exactly when the kind that is found has one entry.

## Main definitions

* `Unordered.Order` — an order of the keys of a map.
* `Unordered.pick`, `Unordered.pickFirst` — the first entry of a kind, and of the first kind that
  there is.
* `Unordered.Unambiguous` — the first kind that there is has one entry.

## Main results

* `Unordered.pickFirst_same_iff` — **the entry that is found does not depend on the order exactly
  when it is unambiguous**.
-/

namespace Unordered

variable {κ α : Type*}

/-- An order in which a map can be gone through: each of its keys once. -/
structure Order (m : κ → Option α) (ks : List κ) : Prop where
  nodup : ks.Nodup
  mem : ∀ k, k ∈ ks ↔ (m k).isSome

/-- The first entry of a kind. -/
def pick (m : κ → Option α) (ks : List κ) (p : α → Bool) : Option α := (ks.filterMap m).find? p

/-- The first entry of the first kind that there is. -/
def pickFirst (m : κ → Option α) (ks : List κ) (ps : List (α → Bool)) : Option α :=
  ps.findSome? (pick m ks)

/-- There is an entry of the kind. -/
def Matched (m : κ → Option α) (p : α → Bool) : Prop := ∃ k a, m k = some a ∧ p a

/-- All entries of the kind are the same. -/
def Unique (m : κ → Option α) (p : α → Bool) : Prop :=
  ∀ k a k' a', m k = some a → m k' = some a' → p a → p a' → a = a'

/-- All entries of the first kind that there is are the same. -/
def Unambiguous (m : κ → Option α) : List (α → Bool) → Prop
  | [] => True
  | p :: ps => (Matched m p → Unique m p) ∧ (¬ Matched m p → Unambiguous m ps)

variable {m : κ → Option α} {ks ks' : List κ} {p : α → Bool} {ps : List (α → Bool)} {a : α} {k : κ}

/-- Any key can come first. -/
lemma Order.exists_first [DecidableEq κ] (order : Order m ks) (entry : m k = some a) :
    ∃ ks', Order m (k :: ks') := by
  refine ⟨ks.erase k, List.nodup_cons.mpr ⟨?_, order.nodup.erase k⟩, fun k' => ?_⟩
  · exact fun mem => (order.nodup.mem_erase_iff.mp mem).1 rfl
  · rw [List.mem_cons, order.nodup.mem_erase_iff, ← order.mem k']
    constructor
    · rintro (rfl | ⟨-, mem⟩)
      · exact (order.mem k').mpr (by rw [entry]; rfl)
      · exact mem
    · intro mem
      by_cases same : k' = k
      · exact .inl same
      · exact .inr ⟨same, mem⟩

/-- What is picked is an entry of the kind. -/
lemma pick_spec (found : pick m ks p = some a) : ∃ k, m k = some a ∧ p a := by
  obtain ⟨k, -, entry⟩ := List.mem_filterMap.mp (List.mem_of_find?_eq_some found)
  exact ⟨k, entry, List.find?_some found⟩

/-- Something is picked exactly when there is an entry of the kind. -/
lemma pick_eq_none_iff (order : Order m ks) : pick m ks p = none ↔ ¬ Matched m p := by
  rw [pick, List.find?_eq_none]
  constructor
  · rintro none_ ⟨k, a, entry, kind⟩
    have mem : k ∈ ks := (order.mem k).mpr (by rw [entry]; rfl)
    exact none_ a (List.mem_filterMap.mpr ⟨k, mem, entry⟩) kind
  · intro unmatched a mem kind
    obtain ⟨k, -, entry⟩ := List.mem_filterMap.mp mem
    exact unmatched ⟨k, a, entry, kind⟩

/-- The entry of a key that comes first is picked. -/
lemma pick_first (entry : m k = some a) (kind : p a) : pick m (k :: ks) p = some a := by
  rw [pick, List.filterMap_cons_some entry, List.find?_cons_of_pos kind]

/-- Where all entries of the kind are the same, that one is picked. -/
lemma pick_of_unique (order : Order m ks) (unique : Unique m p) (entry : m k = some a)
    (kind : p a) : pick m ks p = some a := by
  cases found : pick m ks p with
  | none => exact absurd ⟨k, a, entry, kind⟩ ((pick_eq_none_iff order).mp found)
  | some b =>
    obtain ⟨k', entry', kind'⟩ := pick_spec found
    rw [unique k' b k a entry' entry kind' kind]

/-- The first kind that there is, and the entries of the kinds behind it. -/
lemma pickFirst_cons :
    pickFirst m ks (p :: ps) =
      match pick m ks p with
      | some a => some a
      | none => pickFirst m ks ps := by
  rw [pickFirst, List.findSome?_cons]
  cases pick m ks p <;> rfl

/-- **The entry that is found does not depend on the order exactly when it is unambiguous**.

**Proof sketch.** By induction on the kinds. A kind without entries is passed over in every order.
Of a kind with two different entries each is found when its key comes first. -/
theorem pickFirst_same_iff [DecidableEq κ] (some_order : ∃ ks, Order m ks) :
    (∀ ks ks', Order m ks → Order m ks' → pickFirst m ks ps = pickFirst m ks' ps) ↔
      Unambiguous m ps := by
  induction ps with
  | nil => exact ⟨fun _ => trivial, fun _ _ _ _ _ => rfl⟩
  | cons p ps ih =>
    rw [Unambiguous]
    by_cases matched : Matched m p
    · constructor
      · refine fun same => ⟨fun _ k a k' a' entry entry' kind kind' => ?_,
          fun h => absurd matched h⟩
        obtain ⟨ks, order⟩ := some_order
        obtain ⟨ks₁, order₁⟩ := order.exists_first entry
        obtain ⟨ks₂, order₂⟩ := order.exists_first entry'
        have found := same _ _ order₁ order₂
        rw [pickFirst_cons, pickFirst_cons, pick_first entry kind,
          pick_first entry' kind'] at found
        exact Option.some.inj found
      · rintro ⟨unique, -⟩ ks ks' order order'
        obtain ⟨k, a, entry, kind⟩ := matched
        have one := unique ⟨k, a, entry, kind⟩
        rw [pickFirst_cons, pickFirst_cons, pick_of_unique order one entry kind,
          pick_of_unique order' one entry kind]
    · have passed : ∀ ks, Order m ks → pickFirst m ks (p :: ps) = pickFirst m ks ps := by
        intro ks order
        rw [pickFirst_cons, (pick_eq_none_iff order).mpr matched]
      rw [and_iff_right fun h => absurd h matched, imp_iff_right matched, ← ih]
      constructor
      · intro same ks ks' order order'
        rw [← passed ks order, ← passed ks' order']
        exact same ks ks' order order'
      · intro same ks ks' order order'
        rw [passed ks order, passed ks' order']
        exact same ks ks' order order'

end Unordered
