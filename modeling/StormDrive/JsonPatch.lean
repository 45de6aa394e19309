import Mathlib.Data.List.Nodup
import StormDrive.JobRequest

set_option relaxedAutoImplicit false
set_option autoImplicit false

/-!
# JSON merge patches

The apiserver changes an object by a patch that is merged into it, member by member and down through
the objects in it: a null takes a member away, what is no object replaces it, and what the patch does
not name stays.

## Main definitions

* `Json.merge` — the document after a patch.
* `Json.Shows` — a document has all that a patch says.
* `Json.Proper` — no object of the document has a name twice.

## Main results

* `Json.index_merge` — what is under a name after a patch.
* `Json.shows_merge` — **a document shows the patch that was merged into it last**.
* `Json.Shows.filter` — and then each part of it.
-/

namespace StormDrive

namespace Json

/-- The members of a document, none where it is no object. -/
def members : Json → List (String × Json)
  | obj ms => ms
  | _ => []

def isNull : Json → Bool
  | null => true
  | _ => false

lemma eq_null_of_isNull {v : Json} (h : v.isNull = true) : v = null := by
  cases v with
  | null => rfl
  | _ => cases h

/-- A value under a name, in the place of what was there. A null is not kept. -/
def place (ms : List (String × Json)) (k : String) (v : Json) : List (String × Json) :=
  ms.filter (fun m => m.1 ≠ k) ++ if v.isNull then [] else [(k, v)]

mutual

/-- The document after a patch. -/
def merge (target : Json) : Json → Json
  | obj patch => obj (mergeMembers target.members patch)
  | null => null
  | bool b => bool b
  | num text => num text
  | str s => str s
  | arr values => arr values

/-- The members after those of a patch, one after the other. -/
def mergeMembers (ms : List (String × Json)) : List (String × Json) → List (String × Json)
  | [] => ms
  | (k, v) :: patch => mergeMembers (place ms k (merge ((obj ms).index k) v)) patch

end

mutual

/-- The document has all that the patch says. -/
def Shows (doc : Json) : Json → Prop
  | obj patch => ShowsMembers doc patch
  | null => doc = null
  | bool b => doc = bool b
  | num text => doc = num text
  | str s => doc = str s
  | arr values => doc = arr values

/-- The document has what each member says. -/
def ShowsMembers (doc : Json) : List (String × Json) → Prop
  | [] => True
  | (k, v) :: patch => Shows (doc.index k) v ∧ ShowsMembers doc patch

end

mutual

/-- No object of the document has a name twice. -/
def Proper : Json → Prop
  | obj ms => ProperMembers ms
  | null | bool _ | num _ | str _ | arr _ => True

/-- No name is there twice, and the values are so too. -/
def ProperMembers : List (String × Json) → Prop
  | [] => True
  | (k, v) :: ms => k ∉ ms.map Prod.fst ∧ Proper v ∧ ProperMembers ms

end

@[simp] lemma proper_str (s : String) : (str s).Proper := by
  rw [Proper]
  trivial

@[simp] lemma proper_bool (b : Bool) : (bool b).Proper := by
  rw [Proper]
  trivial

lemma properMembers_iff {ms : List (String × Json)} :
    ProperMembers ms ↔ (ms.map Prod.fst).Nodup ∧ ∀ m ∈ ms, m.2.Proper := by
  induction ms with
  | nil => simp [ProperMembers]
  | cons m ms ih =>
    rw [ProperMembers, ih, List.map_cons, List.nodup_cons, List.forall_mem_cons]
    tauto

lemma ProperMembers.place {ms : List (String × Json)} (h : ProperMembers ms) (k : String) {v : Json}
    (hv : v.Proper) : ProperMembers (place ms k v) := by
  rw [properMembers_iff] at h ⊢
  have names : ((ms.filter fun m => m.1 ≠ k).map Prod.fst).Nodup :=
    h.1.sublist (List.filter_sublist.map _)
  have values : ∀ m ∈ ms.filter fun m => m.1 ≠ k, m.2.Proper := fun m mem =>
    h.2 m (List.mem_of_mem_filter mem)
  unfold Json.place
  split_ifs
  · rw [List.append_nil]
    exact ⟨names, values⟩
  · rw [List.map_append, List.forall_mem_append]
    refine ⟨List.nodup_append.mpr ⟨names, List.pairwise_singleton _ _, ?_⟩, values, ?_⟩
    · intro a mem b single
      obtain rfl := List.mem_singleton.mp single
      obtain ⟨m, kept, rfl⟩ := List.mem_map.mp mem
      simpa using List.of_mem_filter kept
    · intro m single
      obtain rfl := List.mem_singleton.mp single
      exact hv

/-! ## What is under a name -/

lemma index_obj (ms : List (String × Json)) (k : String) :
    (obj ms).index k = ((ms.reverse.find? fun m => m.1 = k).map Prod.snd).getD null := rfl

lemma index_members (v : Json) (k : String) : (obj v.members).index k = v.index k := by
  cases v with
  | obj ms => rfl
  | _ => rfl

lemma index_place (ms : List (String × Json)) (k : String) (v : Json) (k' : String) :
    (obj (place ms k v)).index k' = if k' = k then v else (obj ms).index k' := by
  have others : (ms.filter fun m => m.1 ≠ k).reverse.find? (fun m => m.1 = k') =
      if k' = k then none else ms.reverse.find? fun m => m.1 = k' := by
    rw [← List.filter_reverse, List.find?_filter]
    split_ifs with same
    · rw [List.find?_eq_none]
      intro m _
      simp [same]
    · congr 1
      funext m
      by_cases name : m.1 = k'
      · simp [name, same]
      · simp [name]
  by_cases gone : v.isNull
  · rw [place, if_pos gone, List.append_nil, index_obj, others, eq_null_of_isNull gone]
    split_ifs
    · rfl
    · rfl
  · rw [place, if_neg gone, index_obj, List.reverse_append, List.reverse_singleton,
      List.singleton_append, List.find?_cons, others]
    by_cases same : k' = k
    · simp [same]
    · have other : ¬ k = k' := fun h => same h.symm
      simp [same, other, index_obj]

lemma index_mergeMembers_of_not_mem {patch : List (String × Json)} {k : String}
    (h : k ∉ patch.map Prod.fst) (ms : List (String × Json)) :
    (obj (mergeMembers ms patch)).index k = (obj ms).index k := by
  induction patch generalizing ms with
  | nil => rfl
  | cons m patch ih =>
    rw [List.map_cons, List.mem_cons, not_or] at h
    rw [mergeMembers, ih h.2, index_place, if_neg h.1]

/-- What the patch does not name stays. -/
lemma index_merge {patch : List (String × Json)} {k : String} (h : k ∉ patch.map Prod.fst)
    (target : Json) : (merge target (obj patch)).index k = target.index k := by
  rw [merge, index_mergeMembers_of_not_mem h, index_members]

/-! ## The last patch is shown -/

/-- Members that are merged one after the other are all shown, if each value is. -/
lemma shows_mergeMembers {patch : List (String × Json)} (proper : ProperMembers patch)
    (each : ∀ m ∈ patch, m.2.Proper → ∀ target, Shows (merge target m.2) m.2)
    (ms : List (String × Json)) : ShowsMembers (obj (mergeMembers ms patch)) patch := by
  induction patch generalizing ms with
  | nil => trivial
  | cons m patch ih =>
    rw [ProperMembers] at proper
    rw [mergeMembers, ShowsMembers]
    refine ⟨?_, ih proper.2.2 (fun m' mem => each m' (List.mem_cons_of_mem _ mem)) _⟩
    rw [index_mergeMembers_of_not_mem proper.1, index_place, if_pos rfl]
    exact each m (List.mem_cons_self ..) proper.2.1 _

lemma sizeOf_lt_of_mem {ms : List (String × Json)} {m : String × Json} (h : m ∈ ms) :
    sizeOf m.2 < sizeOf (obj ms) := by
  have inside := List.sizeOf_lt_of_mem h
  have whole : sizeOf m = 1 + sizeOf m.1 + sizeOf m.2 := Prod.mk.sizeOf_spec ..
  have outer : sizeOf (obj ms) = 1 + sizeOf ms := obj.sizeOf_spec ms
  omega

/-- **A document shows the patch that was merged into it last.** -/
theorem shows_merge (patch : Json) (proper : patch.Proper) (target : Json) :
    Shows (merge target patch) patch := by
  -- by the size of the patch, an object being larger than what is in it
  induction h : sizeOf patch using Nat.strong_induction_on generalizing patch target with
  | _ n ih =>
    subst h
    cases patch with
    | obj ms =>
      rw [merge, Shows]
      rw [Proper] at proper
      refine shows_mergeMembers proper ?_ _
      intro m mem proper' target'
      exact ih _ (sizeOf_lt_of_mem mem) m.2 proper' target' rfl
    | _ => rw [merge, Shows]

lemma index_of_mem {ms : List (String × Json)} (names : (ms.map Prod.fst).Nodup)
    {m : String × Json} (h : m ∈ ms) : (obj ms).index m.1 = m.2 := by
  have found : ms.reverse.find? (fun x => x.1 = m.1) = some m := by
    cases result : ms.reverse.find? (fun x => x.1 = m.1) with
    | none =>
      have not := List.find?_eq_none.mp result m (List.mem_reverse.mpr h)
      simp at not
    | some x =>
      have mem := List.mem_reverse.mp (List.mem_of_find?_eq_some result)
      have name : x.1 = m.1 := by simpa using List.find?_some result
      obtain rfl : x = m := List.inj_on_of_nodup_map names mem h name
      rfl
  rw [index_obj, found]
  rfl

lemma showsMembers_iff {doc : Json} {patch : List (String × Json)} :
    ShowsMembers doc patch ↔ ∀ m ∈ patch, Shows (doc.index m.1) m.2 := by
  induction patch with
  | nil => simp [ShowsMembers]
  | cons m patch ih => rw [ShowsMembers, ih, List.forall_mem_cons]

/-- A document shows itself. -/
lemma shows_self (v : Json) (proper : v.Proper) : Shows v v := by
  induction h : sizeOf v using Nat.strong_induction_on generalizing v with
  | _ n ih =>
    subst h
    cases v with
    | obj ms =>
      rw [Proper, properMembers_iff] at proper
      rw [Shows, showsMembers_iff]
      intro m mem
      rw [index_of_mem proper.1 mem]
      exact ih _ (sizeOf_lt_of_mem mem) m.2 (proper.2 m mem) rfl
    | _ => rw [Shows]

/-! ## A part of a patch -/

lemma showsMembers_filter {doc : Json} {patch : List (String × Json)} (p : String × Json → Bool)
    (h : ShowsMembers doc patch) : ShowsMembers doc (patch.filter p) := by
  rw [showsMembers_iff] at h ⊢
  exact fun m mem => h m (List.mem_of_mem_filter mem)

/-- A document that shows a patch shows each part of it. -/
lemma Shows.filter {doc : Json} {patch : List (String × Json)} (h : Shows doc (obj patch))
    (p : String × Json → Bool) : Shows doc (obj (patch.filter p)) := by
  rw [Shows] at h ⊢
  exact showsMembers_filter p h

end Json

end StormDrive
