import Mathlib.Data.List.Nodup
import Mathlib.Logic.Function.Basic

set_option relaxedAutoImplicit false
set_option autoImplicit false

/-!
# Mirrors of a collection

A collection of items, each with a key, is told to somebody who keeps a copy: an item that came, one
that changed, a key that went. The teller keeps of each item no more than its key and a fingerprint.

## Main definitions

* `Mirror.Note`, `Mirror.follow` — what is told, and the copy that it leads to.
* `Mirror.index` — the items of a collection by their keys.
* `Mirror.news`, `Mirror.gone` — what is told of a collection, against the fingerprints of another.

## Main results

* `Mirror.follow_news`, `Mirror.follow_gone` — what the copy has of a key afterwards.
* `Mirror.added_mem_iff`, `Mirror.modified_mem_iff`, `Mirror.deleted_mem_iff` — what is told.
* `Mirror.follow_diff` — **a copy of one collection becomes one of the next**; what it held beside
  the collection stays until the collection has its key.
-/

namespace Mirror

variable {κ ν φ : Type*} [DecidableEq κ]

/-- What is told of a collection. -/
inductive Note (κ ν : Type*)
  | added (v : ν)
  | modified (v : ν)
  | deleted (k : κ)
  deriving DecidableEq

variable (key : ν → κ)

/-- The copy after one note. -/
def Note.apply (held : κ → Option ν) : Note κ ν → κ → Option ν
  | added v | modified v => Function.update held (key v) (some v)
  | deleted k => Function.update held k none

/-- The copy after some notes. -/
def follow (held : κ → Option ν) (notes : List (Note κ ν)) : κ → Option ν :=
  notes.foldl (Note.apply key) held

/-- The items of a collection by their keys. -/
def index (l : List ν) (k : κ) : Option ν := l.find? fun v => key v = k

/-- What is told of an item, when `old` is known of its key. -/
def note [DecidableEq φ] (print : ν → φ) (old : Option φ) (v : ν) : Option (Note κ ν) :=
  match old with
  | none => some (.added v)
  | some p => if p = print v then none else some (.modified v)

/-- What is told of the items of a collection, when `seen` is known of the keys. -/
def news [DecidableEq φ] (print : ν → φ) (seen : κ → Option φ) (l : List ν) : List (Note κ ν) :=
  l.filterMap fun v => note print (seen (key v)) v

/-- What is told of the keys that are known. -/
def gone (known : List κ) (l : List ν) : List (Note κ ν) :=
  (known.filter fun k => k ∉ l.map key).map .deleted

variable {key}

/-! ## Items by their keys -/

@[simp] lemma index_nil (k : κ) : index key ([] : List ν) k = none := rfl

lemma index_cons (v : ν) (l : List ν) (k : κ) :
    index key (v :: l) k = if key v = k then some v else index key l k := by
  rw [index, List.find?_cons]
  by_cases same : key v = k
  · simp [same]
  · simp [same, index]

lemma index_eq_none_iff {l : List ν} {k : κ} : index key l k = none ↔ k ∉ l.map key := by
  simp [index]

lemma key_of_index {l : List ν} {k : κ} {v : ν} (h : index key l k = some v) : key v = k := by
  simpa using List.find?_some h

lemma mem_of_index {l : List ν} {k : κ} {v : ν} (h : index key l k = some v) : v ∈ l :=
  List.mem_of_find?_eq_some h

/-- Among items with different keys an item is found by its key. -/
lemma index_eq_some_iff {l : List ν} (distinct : (l.map key).Nodup) {k : κ} {v : ν} :
    index key l k = some v ↔ v ∈ l ∧ key v = k := by
  constructor
  · exact fun h => ⟨mem_of_index h, key_of_index h⟩
  · rintro ⟨mem, rfl⟩
    induction l with
    | nil => exact absurd mem List.not_mem_nil
    | cons w l ih =>
      rw [List.map_cons, List.nodup_cons] at distinct
      rw [index_cons]
      obtain rfl | mem := List.mem_cons.mp mem
      · exact if_pos rfl
      · rw [if_neg, ih distinct.2 mem]
        intro same
        rw [same] at distinct
        exact distinct.1 (List.mem_map_of_mem mem)

/-! ## What the copy has -/

section Follow

variable [DecidableEq φ] {print : ν → φ} {seen : κ → Option φ}

@[simp] lemma follow_nil (held : κ → Option ν) : follow key held [] = held := rfl

lemma follow_append (held : κ → Option ν) (m n : List (Note κ ν)) :
    follow key held (m ++ n) = follow key (follow key held m) n := List.foldl_append

/-- What the copy has of a key after the note about an item. -/
lemma follow_note (held : κ → Option ν) (v : ν) (k : κ) :
    follow key held (note print (seen (key v)) v).toList k =
      if key v = k ∧ seen k ≠ some (print v) then some v else held k := by
  by_cases same : key v = k
  · subst same
    cases known : seen (key v) with
    | none => simp [note, follow, Note.apply]
    | some p =>
      by_cases still : p = print v
      · simp [note, still]
      · simp [note, still, follow, Note.apply]
  · rw [if_neg fun both => same both.1]
    have other : k ≠ key v := Ne.symm same
    cases known : seen (key v) with
    | none => simp [note, follow, Note.apply, other]
    | some p =>
      by_cases still : p = print v
      · simp [note, still]
      · simp [note, still, follow, Note.apply, other]

omit [DecidableEq κ] in
lemma news_cons (v : ν) (l : List ν) :
    news key print seen (v :: l) =
      (note print (seen (key v)) v).toList ++ news key print seen l := by
  rw [news, List.filterMap_cons]
  cases note (κ := κ) print (seen (key v)) v with
  | none => rfl
  | some n => rfl

omit [DecidableEq κ] in
/-- When nothing is known, every item is new. -/
lemma news_none (l : List ν) : news key print (fun _ => none) l = l.map .added := by
  show l.filterMap (some ∘ Note.added) = l.map .added
  rw [List.filterMap_eq_map]

/-- What the copy has of a key after the notes about the items. -/
lemma follow_news {l : List ν} (distinct : (l.map key).Nodup) (held : κ → Option ν) (k : κ) :
    follow key held (news key print seen l) k =
      match index key l k with
      | none => held k
      | some v => if seen k = some (print v) then held k else some v := by
  induction l generalizing held with
  | nil => rfl
  | cons v l ih =>
    rw [List.map_cons, List.nodup_cons] at distinct
    rw [news_cons, follow_append, ih distinct.2, index_cons]
    by_cases same : key v = k
    · subst same
      rw [index_eq_none_iff.mpr distinct.1, if_pos rfl, follow_note]
      dsimp only
      by_cases still : seen (key v) = some (print v)
      · rw [if_pos still, if_neg fun both => both.2 still]
      · rw [if_neg still, if_pos ⟨rfl, still⟩]
    · rw [if_neg same, follow_note, if_neg fun both => same both.1]

/-- What the copy has of a key after the notes about keys that went. -/
lemma follow_gone (known : List κ) (l : List ν) (held : κ → Option ν) (k : κ) :
    follow key held (gone key known l) k =
      if k ∈ known ∧ k ∉ l.map key then none else held k := by
  induction known generalizing held with
  | nil => simp [gone]
  | cons n known ih =>
    by_cases here : n ∈ l.map key
    · have skip : gone key (n :: known) l = gone key known l := by
        rw [gone, List.filter_cons_of_neg (by simpa using here)]
        rfl
      rw [skip, ih]
      refine if_congr ?_ rfl rfl
      rw [List.mem_cons]
      constructor
      · exact fun h => ⟨Or.inr h.1, h.2⟩
      · rintro ⟨rfl | old, out⟩
        · exact absurd here out
        · exact ⟨old, out⟩
    · have told : gone key (n :: known) l = .deleted n :: gone key known l := by
        rw [gone, List.filter_cons_of_pos (by simpa using here)]
        rfl
      rw [told]
      show follow key (Function.update held n none) (gone key known l) k = _
      rw [ih]
      by_cases same : k = n
      · subst same
        rw [Function.update_self, ite_self, if_pos ⟨List.mem_cons_self, here⟩]
      · rw [Function.update_of_ne same]
        refine if_congr ?_ rfl rfl
        rw [List.mem_cons]
        exact ⟨fun h => ⟨Or.inr h.1, h.2⟩, fun h => ⟨h.1.resolve_left same, h.2⟩⟩

/-- **A copy of one collection becomes one of the next.** What it held beside the collection stays
until the collection has its key.

**Proof sketch.** Of a key of the next collection the copy has the item that is told, or the same
item still: prints that agree are of one item. A key of the first collection alone is told to be
gone. -/
theorem follow_diff {prev l : List ν} {known : List κ} (distinct : (l.map key).Nodup)
    (hseen : ∀ k, seen k = (index key prev k).map print)
    (hknown : ∀ k, k ∈ known ↔ k ∈ prev.map key)
    (apart : ∀ v ∈ prev, ∀ w ∈ l, key v = key w → print v = print w → v = w)
    {held beside : κ → Option ν} (h : ∀ k, held k = (index key prev k).or (beside k)) (k : κ) :
    follow key held (news key print seen l ++ gone key known l) k =
      (index key l k).or (if k ∈ prev.map key then none else beside k) := by
  rw [follow_append, follow_gone, follow_news distinct]
  cases now : index key l k with
  | none =>
    have out := index_eq_none_iff.mp now
    by_cases old : k ∈ prev.map key
    · rw [if_pos ⟨(hknown k).mpr old, out⟩, if_pos old]
      rfl
    · rw [if_neg fun both => old ((hknown k).mp both.1), if_neg old, h, index_eq_none_iff.mpr old]
  | some w =>
    have still : k ∈ l.map key := by
      by_contra out
      rw [index_eq_none_iff.mpr out] at now
      exact absurd now (by simp)
    rw [if_neg fun both => both.2 still]
    dsimp only
    split
    · rename_i known
      rw [hseen] at known
      obtain ⟨v, before, print⟩ := Option.map_eq_some_iff.mp known
      have keys : key v = key w := (key_of_index before).trans (key_of_index now).symm
      have same := apart v (mem_of_index before) w (mem_of_index now) keys print
      rw [h, before, same]
      rfl
    · rfl

end Follow

/-! ## What is told -/

section Told

variable [DecidableEq φ] {print : ν → φ} {seen : κ → Option φ} {known : List κ} {l : List ν}

omit [DecidableEq κ] in
lemma note_eq_added {old : Option φ} {v w : ν} :
    note (κ := κ) print old w = some (.added v) ↔ old = none ∧ w = v := by
  cases old with
  | none => simp [note]
  | some p => by_cases same : p = print w <;> simp [note, same]

omit [DecidableEq κ] in
lemma note_eq_modified {old : Option φ} {v w : ν} :
    note (κ := κ) print old w = some (.modified v) ↔ (∃ p, old = some p ∧ p ≠ print w) ∧ w = v := by
  cases old with
  | none => simp [note]
  | some p => by_cases same : p = print w <;> simp [note, same]

omit [DecidableEq κ] in
lemma note_ne_deleted {old : Option φ} {w : ν} {k : κ} :
    note print old w ≠ some (.deleted k) := by
  cases old with
  | none => simp [note]
  | some p => by_cases same : p = print w <;> simp [note, same]

omit [DecidableEq κ] in
lemma mem_news_iff {n : Note κ ν} :
    n ∈ news key print seen l ↔ ∃ w ∈ l, note print (seen (key w)) w = some n :=
  List.mem_filterMap

lemma mem_gone_iff {n : Note κ ν} :
    n ∈ gone key known l ↔ ∃ k, n = .deleted k ∧ k ∈ known ∧ k ∉ l.map key := by
  rw [gone, List.mem_map]
  constructor
  · rintro ⟨k, mem, rfl⟩
    rw [List.mem_filter] at mem
    exact ⟨k, rfl, mem.1, of_decide_eq_true mem.2⟩
  · rintro ⟨k, rfl, old, out⟩
    exact ⟨k, List.mem_filter.mpr ⟨old, decide_eq_true out⟩, rfl⟩

/-- An item is told to be new when nothing is known of its key. -/
lemma added_mem_iff {v : ν} :
    .added v ∈ news key print seen l ++ gone key known l ↔ v ∈ l ∧ seen (key v) = none := by
  rw [List.mem_append, mem_news_iff, mem_gone_iff]
  constructor
  · rintro (⟨w, mem, told⟩ | ⟨k, same, -⟩)
    · obtain ⟨old, rfl⟩ := note_eq_added.mp told
      exact ⟨mem, old⟩
    · cases same
  · rintro ⟨mem, old⟩
    exact Or.inl ⟨v, mem, note_eq_added.mpr ⟨old, rfl⟩⟩

/-- And to be another when another fingerprint is known of it. -/
lemma modified_mem_iff {v : ν} :
    .modified v ∈ news key print seen l ++ gone key known l ↔
      v ∈ l ∧ ∃ p, seen (key v) = some p ∧ p ≠ print v := by
  rw [List.mem_append, mem_news_iff, mem_gone_iff]
  constructor
  · rintro (⟨w, mem, told⟩ | ⟨k, same, -⟩)
    · obtain ⟨old, rfl⟩ := note_eq_modified.mp told
      exact ⟨mem, old⟩
    · cases same
  · rintro ⟨mem, old⟩
    exact Or.inl ⟨v, mem, note_eq_modified.mpr ⟨old, rfl⟩⟩

/-- A key is told to be gone when it was known and no item has it. -/
lemma deleted_mem_iff {k : κ} :
    .deleted k ∈ news key print seen l ++ gone key known l ↔ k ∈ known ∧ k ∉ l.map key := by
  rw [List.mem_append, mem_news_iff, mem_gone_iff]
  constructor
  · rintro (⟨w, -, told⟩ | ⟨k', same, both⟩)
    · exact absurd told note_ne_deleted
    · cases same
      exact both
  · exact fun both => Or.inr ⟨k, rfl, both⟩

end Told

end Mirror
