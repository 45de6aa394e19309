import Mathlib.Data.List.Basic
import Mathlib.Data.List.Induction
import Mathlib.Order.Lattice

set_option relaxedAutoImplicit false
set_option autoImplicit false

/-!
# Maps in the order of their keys

A map as the list of its entries, in the order of the keys.

## Main definitions

* `OrderedMap.insert` — an entry, instead of the one with its key.
* `OrderedMap.Increasing` — the keys increase.
* `OrderedMap.get` — the value of a key.
* `OrderedMap.ofList` — the entries of a list inserted one behind the other.

## Main results

* `OrderedMap.mem_insert_of_ne`, `OrderedMap.mem_insert_self` — what is in the map afterwards.
* `OrderedMap.increasing_insert` — **the keys still increase**.
* `OrderedMap.Increasing.eq_of_key` — so that a key has one entry.
* `OrderedMap.mem_ofList_iff` — **of the entries of a list, each key keeps its last**.
-/

namespace OrderedMap

variable {κ ν : Type} [LinearOrder κ]

/-- The map with an entry, instead of the one that its key had. -/
def insert (k : κ) (v : ν) : List (κ × ν) → List (κ × ν)
  | [] => [(k, v)]
  | x :: m =>
    if k < x.1 then (k, v) :: x :: m
    else if k = x.1 then (k, v) :: m
    else x :: insert k v m

lemma insert_nil (k : κ) (v : ν) : insert k v [] = [(k, v)] := rfl

lemma insert_cons (k : κ) (v : ν) (x : κ × ν) (m : List (κ × ν)) :
    insert k v (x :: m) = if k < x.1 then (k, v) :: x :: m
      else if k = x.1 then (k, v) :: m else x :: insert k v m := rfl

/-- The keys increase. -/
def Increasing (m : List (κ × ν)) : Prop := m.Pairwise fun x y => x.1 < y.1

lemma mem_of_mem_insert {k : κ} {v : ν} {m : List (κ × ν)} {x : κ × ν} (h : x ∈ insert k v m) :
    x = (k, v) ∨ x ∈ m := by
  induction m with
  | nil => exact Or.inl (List.mem_singleton.mp h)
  | cons y m ih =>
    rw [insert_cons] at h
    split_ifs at h with before same
    · exact List.mem_cons.mp h
    · obtain new | old := List.mem_cons.mp h
      · exact Or.inl new
      · exact Or.inr (List.mem_cons_of_mem _ old)
    · obtain rfl | behind := List.mem_cons.mp h
      · exact Or.inr (List.mem_cons_self ..)
      · exact (ih behind).imp_right (List.mem_cons_of_mem _)

lemma mem_insert_self (k : κ) (v : ν) (m : List (κ × ν)) : (k, v) ∈ insert k v m := by
  induction m with
  | nil => exact List.mem_singleton.mpr rfl
  | cons y m ih =>
    rw [insert_cons]
    split_ifs
    · exact List.mem_cons_self ..
    · exact List.mem_cons_self ..
    · exact List.mem_cons_of_mem _ ih

/-- An entry with another key stays. -/
lemma mem_insert_of_ne {k : κ} {v : ν} {m : List (κ × ν)} {x : κ × ν} (mem : x ∈ m)
    (other : x.1 ≠ k) : x ∈ insert k v m := by
  induction m with
  | nil => exact absurd mem List.not_mem_nil
  | cons y m ih =>
    rw [insert_cons]
    split_ifs with before same
    · exact List.mem_cons_of_mem _ mem
    · obtain rfl | behind := List.mem_cons.mp mem
      · exact absurd same.symm other
      · exact List.mem_cons_of_mem _ behind
    · obtain rfl | behind := List.mem_cons.mp mem
      · exact List.mem_cons_self ..
      · exact List.mem_cons_of_mem _ (ih behind)

/-- **The keys still increase**. -/
lemma increasing_insert {m : List (κ × ν)} (h : Increasing m) (k : κ) (v : ν) :
    Increasing (insert k v m) := by
  induction m with
  | nil => exact List.pairwise_singleton _ _
  | cons y m ih =>
    obtain ⟨first, rest⟩ := List.pairwise_cons.mp h
    rw [insert_cons]
    split_ifs with before same
    · apply List.pairwise_cons.mpr
      refine ⟨?_, h⟩
      intro x mem
      obtain rfl | behind := List.mem_cons.mp mem
      · exact before
      · exact before.trans (first x behind)
    · refine List.pairwise_cons.mpr ⟨?_, rest⟩
      intro x mem
      show k < x.1
      rw [same]
      exact first x mem
    · refine List.pairwise_cons.mpr ⟨?_, ih rest⟩
      intro x mem
      obtain rfl | old := mem_of_mem_insert mem
      · exact lt_of_le_of_ne (not_lt.mp before) (Ne.symm same)
      · exact first x old

/-- A key has one entry. -/
lemma Increasing.eq_of_key {m : List (κ × ν)} (h : Increasing m) {x y : κ × ν} (hx : x ∈ m)
    (hy : y ∈ m) (same : x.1 = y.1) : x = y := by
  induction m with
  | nil => exact absurd hx List.not_mem_nil
  | cons z m ih =>
    obtain ⟨first, rest⟩ := List.pairwise_cons.mp h
    obtain rfl | behindx := List.mem_cons.mp hx
    · obtain rfl | behindy := List.mem_cons.mp hy
      · rfl
      · exact absurd same (first y behindy).ne
    · obtain rfl | behindy := List.mem_cons.mp hy
      · exact absurd same (first x behindx).ne'
      · exact ih rest behindx behindy

/-- The value that a key has. -/
def get (m : List (κ × ν)) (k : κ) : Option ν := (m.find? fun x => x.1 = k).map Prod.snd

/-- An entry that is put in is found. -/
lemma get_insert_self (k : κ) (v : ν) (m : List (κ × ν)) : get (insert k v m) k = some v := by
  induction m with
  | nil => simp [get, insert_nil]
  | cons x m ih =>
    rw [insert_cons]
    split_ifs with before same
    · simp [get]
    · simp [get]
    · have other : ¬ x.1 = k := fun eq => same eq.symm
      rw [get, List.find?_cons_of_neg (by simpa using other)]
      exact ih

/-- And the others are found as before. -/
lemma get_insert_of_ne {k k' : κ} (other : k' ≠ k) (v : ν) (m : List (κ × ν)) :
    get (insert k v m) k' = get m k' := by
  induction m with
  | nil => simp [get, insert_nil, other.symm]
  | cons x m ih =>
    rw [insert_cons]
    split_ifs with before same
    · rw [get, List.find?_cons_of_neg (by simpa using other.symm)]
      rfl
    · have apart : ¬ x.1 = k' := fun eq => other (eq.symm.trans same.symm)
      rw [get, get, List.find?_cons_of_neg (by simpa using other.symm),
        List.find?_cons_of_neg (by simpa using apart)]
    · by_cases here : x.1 = k'
      · simp [get, here]
      · rw [get, get, List.find?_cons_of_neg (by simpa using here),
          List.find?_cons_of_neg (by simpa using here)]
        exact ih

lemma Increasing.get_eq_some_iff {m : List (κ × ν)} (h : Increasing m) {k : κ} {v : ν} :
    get m k = some v ↔ (k, v) ∈ m := by
  constructor
  · intro found
    obtain ⟨x, hx, rfl⟩ := Option.map_eq_some_iff.mp found
    have key : x.1 = k := by simpa using List.find?_some hx
    rw [← key]
    exact List.mem_of_find?_eq_some hx
  · intro mem
    have some : (m.find? fun x => x.1 = k).isSome := by
      rw [List.find?_isSome]
      exact ⟨(k, v), mem, decide_eq_true rfl⟩
    obtain ⟨x, hx⟩ := Option.isSome_iff_exists.mp some
    have key : x.1 = k := by simpa using List.find?_some hx
    have same : x = (k, v) := h.eq_of_key (List.mem_of_find?_eq_some hx) mem key
    rw [get, hx, same]
    rfl

/-- The map of entries that are inserted one behind the other. -/
def ofList (l : List (κ × ν)) : List (κ × ν) := l.foldl (fun m x => insert x.1 x.2 m) []

lemma ofList_concat (l : List (κ × ν)) (x : κ × ν) :
    ofList (l ++ [x]) = insert x.1 x.2 (ofList l) := by
  rw [ofList, List.foldl_append]
  rfl

/-- What is looked up in it is the last value of the key. -/
lemma get_ofList (l : List (κ × ν)) :
    get (ofList l) =
      l.foldl (fun (f : κ → Option ν) x => Function.update f x.1 (some x.2)) fun _ => none := by
  induction l using List.reverseRecOn with
  | nil => rfl
  | append_singleton l x ih =>
    rw [ofList_concat, List.foldl_append]
    funext k
    by_cases same : k = x.1
    · subst same
      simp [get_insert_self]
    · simp [get_insert_of_ne same, ih, Function.update_of_ne same]

lemma increasing_ofList (l : List (κ × ν)) : Increasing (ofList l) := by
  induction l using List.reverseRecOn with
  | nil => exact List.Pairwise.nil
  | append_singleton l x ih =>
    rw [ofList_concat]
    exact increasing_insert ih x.1 x.2

/-- **Of the entries of a list, each key keeps its last.** -/
lemma mem_ofList_iff {l : List (κ × ν)} {y : κ × ν} :
    y ∈ ofList l ↔ (l.filter fun x => x.1 = y.1).getLast? = some y := by
  induction l using List.reverseRecOn with
  | nil => simp [ofList]
  | append_singleton l x ih =>
    rw [ofList_concat, List.filter_append]
    by_cases key : x.1 = y.1
    · have here : [x].filter (fun z => z.1 = y.1) = [x] := by simp [key]
      rw [here, List.getLast?_concat]
      constructor
      · intro mem
        have same := (increasing_insert (increasing_ofList l) x.1 x.2).eq_of_key
          (mem_insert_self x.1 x.2 _) mem key
        rw [← same]
      · intro same
        obtain rfl := Option.some.inj same
        exact mem_insert_self x.1 x.2 _
    · have here : [x].filter (fun z => z.1 = y.1) = [] := by simp [key]
      rw [here, List.append_nil, ← ih]
      constructor
      · intro mem
        obtain rfl | old := mem_of_mem_insert mem
        · exact absurd rfl key
        · exact old
      · intro mem
        exact mem_insert_of_ne mem (Ne.symm key)

/-- A key of the list is one of the map. -/
lemma exists_mem_ofList {l : List (κ × ν)} {x : κ × ν} (h : x ∈ l) :
    ∃ v, (x.1, v) ∈ ofList l := by
  have some : ((l.filter fun y => y.1 = x.1).getLast?).isSome := by
    rw [List.getLast?_isSome]
    exact List.ne_nil_of_mem (List.mem_filter.mpr ⟨h, decide_eq_true rfl⟩)
  obtain ⟨y, hy⟩ := Option.isSome_iff_exists.mp some
  have key : y.1 = x.1 := of_decide_eq_true (List.mem_filter.mp (List.mem_of_getLast? hy)).2
  refine ⟨y.2, mem_ofList_iff.mpr ?_⟩
  rw [hy, ← key]

/-- An entry of the map is one of the list. -/
lemma mem_of_mem_ofList {l : List (κ × ν)} {y : κ × ν} (h : y ∈ ofList l) : y ∈ l :=
  (List.mem_filter.mp (List.mem_of_getLast? (mem_ofList_iff.mp h))).1

/-- The keys are those of before and the new one. -/
lemma mem_keys_insert_iff {k k' : κ} {v : ν} {m : List (κ × ν)} :
    k' ∈ (insert k v m).map Prod.fst ↔ k' = k ∨ k' ∈ m.map Prod.fst := by
  constructor
  · intro h
    obtain ⟨x, mem, rfl⟩ := List.mem_map.mp h
    obtain rfl | old := mem_of_mem_insert mem
    · exact Or.inl rfl
    · exact Or.inr (List.mem_map_of_mem old)
  · intro h
    by_cases same : k' = k
    · rw [same]
      exact List.mem_map_of_mem (mem_insert_self k v m)
    · obtain ⟨x, mem, rfl⟩ := List.mem_map.mp (h.resolve_left same)
      exact List.mem_map_of_mem (mem_insert_of_ne mem same)

/-- What is left out by its key is so whatever its value is. -/
lemma filter_insert_of_not (p : κ → Bool) {k : κ} (no : p k = false) (v : ν) (m : List (κ × ν)) :
    (insert k v m).filter (fun x => p x.1) = m.filter fun x => p x.1 := by
  induction m with
  | nil => simp [insert_nil, no]
  | cons x m ih =>
    rw [insert_cons]
    split_ifs with before same
    · simp [no]
    · simp [← same, no]
    · rw [List.filter_cons, List.filter_cons, ih]

/-- With one key there is at most one entry. -/
lemma Increasing.length_le_one {m : List (κ × ν)} (h : Increasing m) {k : κ}
    (one : ∀ x ∈ m, x.1 = k) : m.length ≤ 1 := by
  match m, h with
  | [], _ => exact Nat.zero_le 1
  | [_], _ => exact le_refl 1
  | x :: y :: m, h =>
    have lt := (List.pairwise_cons.mp h).1 y (List.mem_cons_self ..)
    rw [one x (by simp), one y (by simp)] at lt
    exact absurd lt (lt_irrefl k)

/-- The last entry has the greatest key. -/
lemma Increasing.le_getLast {m : List (κ × ν)} (h : Increasing m) {x : κ × ν}
    (last : m.getLast? = some x) : ∀ y ∈ m, y.1 ≤ x.1 := by
  obtain ⟨init, rfl⟩ := List.getLast?_eq_some_iff.mp last
  intro y mem
  obtain mem | mem := List.mem_append.mp mem
  · exact ((List.pairwise_append.mp h).2.2 y mem x (List.mem_singleton_self x)).le
  · rw [List.mem_singleton.mp mem]

/-- The map with an entry for a key that has none (`entry(k).or_insert(v)`). -/
def insertNew (k : κ) (v : ν) (m : List (κ × ν)) : List (κ × ν) :=
  if m.any fun x => x.1 = k then m else insert k v m

lemma increasing_insertNew {m : List (κ × ν)} (h : Increasing m) (k : κ) (v : ν) :
    Increasing (insertNew k v m) := by
  rw [insertNew]
  split_ifs
  · exact h
  · exact increasing_insert h k v

/-- An entry stays, and there is a new one just for a key that had none. -/
lemma mem_insertNew_iff {k : κ} {v : ν} {m : List (κ × ν)} {y : κ × ν} :
    y ∈ insertNew k v m ↔ y ∈ m ∨ (y = (k, v) ∧ ∀ x ∈ m, x.1 ≠ k) := by
  rw [insertNew]
  split_ifs with old
  · obtain ⟨x, mem, key⟩ := List.any_eq_true.mp old
    constructor
    · exact Or.inl
    · rintro (mem' | ⟨-, fresh⟩)
      · exact mem'
      · exact absurd (of_decide_eq_true key) (fresh x mem)
  · have fresh : ∀ x ∈ m, x.1 ≠ k := by
      intro x mem key
      exact old (List.any_eq_true.mpr ⟨x, mem, decide_eq_true key⟩)
    constructor
    · intro mem
      obtain rfl | old := mem_of_mem_insert mem
      · exact Or.inr ⟨rfl, fresh⟩
      · exact Or.inl old
    · rintro (mem | ⟨rfl, -⟩)
      · exact mem_insert_of_ne mem (fresh y mem)
      · exact mem_insert_self k v m

/-- New entries with one value for several keys: each key that had none has it afterwards. -/
lemma mem_foldl_insertNew_iff {v : ν} {ks : List κ} {m : List (κ × ν)} {y : κ × ν} :
    y ∈ ks.foldl (fun m k => insertNew k v m) m ↔
      y ∈ m ∨ (y.2 = v ∧ y.1 ∈ ks ∧ ∀ x ∈ m, x.1 ≠ y.1) := by
  induction ks generalizing m with
  | nil => simp
  | cons k ks ih =>
    rw [List.foldl_cons, ih, mem_insertNew_iff]
    constructor
    · rintro ((mem | ⟨rfl, fresh⟩) | ⟨value, mem, fresh⟩)
      · exact Or.inl mem
      · exact Or.inr ⟨rfl, List.mem_cons_self .., fresh⟩
      · refine Or.inr ⟨value, List.mem_cons_of_mem k mem, ?_⟩
        intro x old
        exact fresh x (mem_insertNew_iff.mpr (Or.inl old))
    · rintro (mem | ⟨value, mem, fresh⟩)
      · exact Or.inl (Or.inl mem)
      · by_cases key : y.1 = k
        · refine Or.inl (Or.inr ⟨Prod.ext key value, ?_⟩)
          rw [← key]
          exact fresh
        · refine Or.inr ⟨value, (List.mem_cons.mp mem).resolve_left key, ?_⟩
          intro x mem'
          obtain old | ⟨rfl, -⟩ := mem_insertNew_iff.mp mem'
          · exact fresh x old
          · exact Ne.symm key

lemma increasing_foldl_insertNew {m : List (κ × ν)} (h : Increasing m) (v : ν) (ks : List κ) :
    Increasing (ks.foldl (fun m k => insertNew k v m) m) := by
  induction ks generalizing m with
  | nil => exact h
  | cons k ks ih => exact ih (increasing_insertNew h k v)

/-- The keys are those of the list. -/
lemma mem_keys_ofList_iff {l : List (κ × ν)} {k : κ} :
    k ∈ (ofList l).map Prod.fst ↔ k ∈ l.map Prod.fst := by
  constructor
  · intro h
    obtain ⟨y, mem, rfl⟩ := List.mem_map.mp h
    have last := List.mem_of_getLast? (mem_ofList_iff.mp mem)
    exact List.mem_map_of_mem (List.mem_of_mem_filter last)
  · intro h
    obtain ⟨x, mem, rfl⟩ := List.mem_map.mp h
    have ne : (l.filter fun y => y.1 = x.1) ≠ [] :=
      List.ne_nil_of_mem (List.mem_filter.mpr ⟨mem, decide_eq_true rfl⟩)
    obtain ⟨y, last⟩ := Option.ne_none_iff_exists'.mp (mt List.getLast?_eq_none_iff.mp ne)
    have key : y.1 = x.1 := by simpa using List.of_mem_filter (List.mem_of_getLast? last)
    rw [← key]
    refine List.mem_map_of_mem (mem_ofList_iff.mpr ?_)
    rw [key]
    exact last

end OrderedMap
