import StormDrive.Enclosure
import Mathlib.Algebra.Order.BigOperators.Group.List
import Mathlib.Data.List.Nodup
import Mathlib.Data.List.Pairwise

set_option relaxedAutoImplicit false
set_option autoImplicit false

/-!
# Bays

Whether the report of an enclosure has each attached address in the bay of its slot, and the status
element of that slot under the bay.

## Main definitions

* `ShelfReport.Maps` — it has.
* `Spot.shown` — the number that a slot gets.
* `Enclosure.Fine` — the additional page has element indexes, or there is nothing attached; and no
  two slots get one number.

## Main results

* `joinAll_indexed` — with element indexes, what the join of the pages gives.
* `mapped_iff` — **the bays are mapped right exactly for fine enclosures**.
* `bays_mapped_wrong` — a drive whose descriptor has no element index is in no bay, and a slot whose
  descriptor is not valid can get the number of another.
-/

namespace StormDrive

namespace Ses

open Bytes

/-! ## What is to hold -/

/-- The report has each attached address in the bay of its slot and the status element of the slot
under that bay, and no two slots have one bay. -/
structure ShelfReport.Maps (rep : ShelfReport) (e : Enclosure) : Prop where
  bay : ∀ kind i s, Spot.slot kind i s ∈ e.spots → ∀ a ∈ s.addresses, ∀ text,
    normalizeSas text = hexText a → rep.bayOf text = some s.number.toNat
  element : ∀ p kind i s, e.spots[p]? = some (.slot kind i s) → s.addresses ≠ [] →
    findSlotElement rep.elements s.number.toNat = some p
  status : ∀ p : ℕ, (rep.elements[p]?).map (·.raw) = (e.spots[p]?).map Spot.status
  apart : ∀ (p q : ℕ) x y, rep.elements[p]? = some x → rep.elements[q]? = some y →
    x.isSingleSlot = true → y.isSingleSlot = true → x.bay = y.bay → p = q

/-- There is a report, and it has. -/
def Enclosure.Mapped (e : Enclosure) : Prop :=
  ∃ rep, assemble e.esps e.pages = some rep ∧ rep.Maps e

/-- The descriptor of a slot is valid. -/
def Slot.isValid (s : Slot) : Bool :=
  match s.contents with
  | .invalid _ => false
  | .phys _ _ => true

/-- The number that a slot gets: its own where the additional page has it or it is a device slot,
else its index among the slots of its type. -/
def Spot.shown (indexed : Bool) : Spot → Option ℕ
  | .slot kind i s =>
    some (if (indexed && s.isValid) || kind = .device then s.number.toNat else i)
  | _ => none

/-- The additional page has element indexes, or there is nothing attached; and no two slots get one
number. -/
def Enclosure.Fine (e : Enclosure) : Prop :=
  (e.indexed = true ∨ ∀ sp ∈ e.spots, sp.addresses = []) ∧
    (e.spots.filterMap (Spot.shown e.indexed)).Nodup

/-! ## Texts of addresses -/

lemma exists_of_mem_hexText {b : List UInt8} {c : Char} (h : c ∈ (hexText b).toList) :
    ∃ n < 16, c = Uuid.hexDigit n := by
  rw [hexText, String.toList_ofList] at h
  obtain ⟨x, -, mem⟩ := List.mem_flatMap.mp h
  have range := x.toNat_lt
  obtain rfl | mem := List.mem_cons.mp mem
  · exact ⟨x.toNat / 16, by omega, rfl⟩
  · exact ⟨x.toNat % 16, by omega, List.mem_singleton.mp mem⟩

lemma trimStartMatches_eq_self {letter : Char} {cs : List Char} (h : letter ∉ cs) :
    trimStartMatches letter cs = cs := by
  match cs with
  | [] => rfl
  | [a] => rfl
  | a :: b :: rest =>
    have other : b ≠ letter := by
      intro same
      exact h (by rw [same]; exact List.mem_cons_of_mem _ (List.mem_cons_self ..))
    rw [trimStartMatches, if_neg]
    rw [Bool.and_eq_true, decide_eq_true_eq]
    exact fun both => other (of_decide_eq_true both.2)

lemma hexDigit_plain : ∀ n < 16, Text.isWhitespace (Uuid.hexDigit n) = false ∧
    Uuid.hexDigit n ≠ 'x' ∧ Uuid.hexDigit n ≠ 'X' ∧
    (Uuid.hexDigit n).toLower = Uuid.hexDigit n := by decide

/-- An address in lower-case digits is as it is compared. -/
lemma normalizeSas_hexText (b : List UInt8) : normalizeSas (hexText b) = hexText b := by
  have plain {c : Char} (mem : c ∈ (hexText b).toList) : Text.isWhitespace c = false ∧
      c ≠ 'x' ∧ c ≠ 'X' ∧ c.toLower = c := by
    obtain ⟨n, small, rfl⟩ := exists_of_mem_hexText mem
    exact hexDigit_plain n small
  have trimmed : Text.trim (hexText b) = hexText b :=
    Text.trim_eq_self fun c mem => (plain mem).1
  have lower : (hexText b).toList.map Char.toLower = (hexText b).toList :=
    (List.map_congr_left fun c mem => (plain mem).2.2.2).trans (List.map_id _)
  rw [normalizeSas, trimmed, trimStartMatches_eq_self fun mem => (plain mem).2.1 rfl,
    trimStartMatches_eq_self fun mem => (plain mem).2.2.1 rfl, lower, String.ofList_toList]

lemma hexText_injective {b c : List UInt8} (h : hexText b = hexText c) : b = c := by
  have digits : b.flatMap hexByte = c.flatMap hexByte := by
    have lists := congrArg String.toList h
    rwa [hexText, hexText, String.toList_ofList, String.toList_ofList] at lists
  clear h
  induction b generalizing c with
  | nil =>
    cases c with
    | nil => rfl
    | cons y c => exact absurd digits (List.cons_ne_nil _ _).symm
  | cons x b ih =>
    cases c with
    | nil => exact absurd digits (List.cons_ne_nil _ _)
    | cons y c =>
      obtain ⟨high, rest⟩ := List.cons.inj digits
      obtain ⟨low, others⟩ := List.cons.inj rest
      have hx := x.toNat_lt
      have hy := y.toNat_lt
      have quot := Uuid.hexDigit_injective _ (by omega) _ (by omega) high
      have rem := Uuid.hexDigit_injective _ (by omega) _ (by omega) low
      have same : x.toNat = y.toNat := by omega
      rw [UInt8.toNat_inj.mp same, ih others]

/-! ## Positions in a list -/

section Lists

variable {α : Type}

/-- An element that is taken is found by the number of those before it. -/
lemma getElem?_positions {p : α → Bool} {a : α} (taken : p a = true) (pre post : List α) :
    (positions p (pre ++ a :: post))[pre.countP p]? = some pre.length := by
  have front : ((pre.zipIdx.filter fun x => p x.1).map (·.2)).length = pre.countP p := by
    rw [List.length_map, ← List.countP_eq_length_filter]
    conv_rhs => rw [← List.zipIdx_map_fst 0 pre, List.countP_map]
    rfl
  rw [positions, List.zipIdx_append, List.filter_append, List.map_append,
    List.getElem?_append_right (by rw [front]), front, Nat.sub_self, List.zipIdx_cons,
    List.filter_cons, if_pos taken, Nat.zero_add]
  rfl

lemma modify_append_cons (f : α → α) (a : α) (pre post : List α) :
    (pre ++ a :: post).modify pre.length f = pre ++ f a :: post := by
  induction pre with
  | nil => rfl
  | cons b pre ih => exact congrArg (b :: ·) ih

lemma getElem?_append_cons (a : α) (pre post : List α) :
    (pre ++ a :: post)[pre.length]? = some a := by
  rw [List.getElem?_append_right (Nat.le_refl _), Nat.sub_self]
  rfl

/-- The only element that is taken is found first. -/
lemma findIdx?_of_only {p : α → Bool} {l : List α} {n : ℕ} {a : α} (here : l[n]? = some a)
    (taken : p a = true) (only : ∀ (m : ℕ) b, l[m]? = some b → p b = true → m = n) :
    l.findIdx? p = some n := by
  obtain ⟨within, rfl⟩ := List.getElem?_eq_some_iff.mp here
  rw [List.findIdx?_eq_some_iff_getElem]
  refine ⟨within, taken, ?_⟩
  intro j before other
  exact absurd (only j _ (List.getElem?_eq_getElem _) other) (Nat.ne_of_lt before)

/-- No two elements of a list have one image. -/
lemma nodup_filterMap_iff {β : Type} {f : α → Option β} {l : List α} :
    (l.filterMap f).Nodup ↔ ∀ (p q : ℕ) (a b : α) (c : β), l[p]? = some a → l[q]? = some b →
      f a = some c → f b = some c → p = q := by
  rw [List.Nodup, List.pairwise_filterMap, List.pairwise_iff_getElem]
  constructor
  · intro h p q a b c hp hq ha hb
    obtain ⟨hpl, rfl⟩ := List.getElem?_eq_some_iff.mp hp
    obtain ⟨hql, rfl⟩ := List.getElem?_eq_some_iff.mp hq
    obtain lt | eq | gt := Nat.lt_trichotomy p q
    · exact absurd rfl (h p q hpl hql lt c ha c hb)
    · exact eq
    · exact absurd rfl (h q p hql hpl gt c hb c ha)
  · intro h p q hpl hql lt c ha d hb same
    subst same
    exact absurd (h p q _ _ c (List.getElem?_eq_getElem hpl) (List.getElem?_eq_getElem hql) ha hb)
      (Nat.ne_of_lt lt)

end Lists

/-! ## The elements of spots -/

/-- The texts of the addresses in a slot. -/
def Slot.texts (s : Slot) : List String := s.phys.map fun p => hexText p.address

namespace Spot

/-- The element of a spot, once the array slots have their numbers. -/
def numbered (sp : Spot) : Element := sp.element.numbered

/-- The element of a spot, once its descriptor is joined. -/
def joined : Spot → Element
  | .slot kind i s =>
    match s.contents with
    | .invalid _ => (Spot.slot kind i s).numbered
    | .phys _ _ =>
      match s.texts.head? with
      | some a => { (Spot.slot kind i s).numbered with
          bay := some s.number.toNat, sasAddress := some a }
      | none => { (Spot.slot kind i s).numbered with bay := some s.number.toNat }
  | sp => sp.numbered

/-- The bays, once the addresses of a spot are put there. -/
def fill (m : List (ℕ × List String)) : Spot → List (ℕ × List String)
  | .slot _ _ s => if s.texts = [] then m else OrderedMap.insert s.number.toNat s.texts m
  | _ => m

/-- A spot is a slot. -/
def isSlotSpot : Spot → Bool
  | .slot _ _ _ => true
  | _ => false

lemma elementType_numbered (e : Element) : e.numbered.elementType = e.elementType := by
  unfold Element.numbered
  split_ifs <;> rfl

lemma overall_numbered (e : Element) : e.numbered.overall = e.overall := by
  unfold Element.numbered
  split_ifs <;> rfl

lemma raw_numbered (e : Element) : e.numbered.raw = e.raw := by
  unfold Element.numbered
  split_ifs <;> rfl

lemma overall_eq (sp : Spot) : sp.numbered.overall = !sp.individual := by
  rw [numbered, overall_numbered, element, overall_decodeElement]
  cases sp <;> rfl

lemma type_eq (sp : Spot) : sp.numbered.elementType = sp.place.1 := by
  rw [numbered, elementType_numbered, element, elementType_decodeElement]

lemma raw_eq (sp : Spot) : sp.numbered.raw = sp.status := by
  rw [numbered, raw_numbered, element, raw_decodeElement]

/-- The single slots are the elements of the slots. -/
lemma isSingleSlot_eq (sp : Spot) : sp.numbered.isSingleSlot = sp.isSlotSpot := by
  rw [Element.isSingleSlot, overall_eq, type_eq]
  cases sp with
  | overall t b => rfl
  | slot kind i s => cases kind <;> rfl
  | other t notSlot i o => exact notSlot

/-- Without a number from the additional page a device slot has the one of its status, and an array
slot its index. -/
lemma bay_slot (kind : SlotKind) (i : ℕ) (s : Slot) :
    (slot kind i s).numbered.bay = (slot kind i s).shown false := by
  cases kind <;> rfl

end Spot

/-! ## The join with element indexes -/

section Join

variable {slotPositions individuals : List ℕ}

/-- The element of the index is the one that a descriptor is about. -/
lemma positionOf_of_index {ei : UInt8} {n : ℕ} {bay : Option ℕ} {addrs : List String} {el : Element}
    {pre post : List Element} (index : individuals[ei.toNat]? = some pre.length)
    (slot : isSlot el.elementType = true) :
    positionOf slotPositions individuals (pre ++ el :: post) n ⟨some ei, bay, addrs⟩ =
      some pre.length := by
  have taken : (((pre ++ el :: post)[pre.length]?).any fun e => isSlot e.elementType) = true := by
    rw [getElem?_append_cons, Option.any_some, slot]
  rw [positionOf, Option.bind_some, index, Option.filter_some, if_pos taken, Option.some_or]

/-- A descriptor with an index and a number changes its element only. -/
lemma joinOne_of_index {ei : UInt8} {n b : ℕ} {addrs : List String} {el : Element}
    {pre post : List Element} {m : List (ℕ × List String)}
    (index : individuals[ei.toNat]? = some pre.length) (slot : isSlot el.elementType = true) :
    joinOne slotPositions individuals (pre ++ el :: post, m) (⟨some ei, some b, addrs⟩, n) =
      (pre ++ (match addrs.head? with
          | some a => { el with bay := some b, sasAddress := some a }
          | none => { el with bay := some b }) :: post,
        if addrs = [] then m else OrderedMap.insert b addrs m) := by
  rw [joinOne, positionOf_of_index index slot]
  dsimp only
  rw [modify_append_cons, getElem?_append_cons]
  cases addrs with
  | nil => rfl
  | cons a addrs =>
    dsimp only [List.head?_cons]
    rw [modify_append_cons]
    rfl

/-- The descriptors of the spots that are still to come are joined one after the other. -/
lemma foldl_joinOne_indexed {all : List Spot} (pre todo : List Spot)
    (found : individuals = positions (fun e => !e.overall) (all.map Spot.numbered))
    (split : all = pre ++ todo)
    (fits : ∀ pre sp post, all = pre ++ sp :: post → sp.described = true →
      pre.countP Spot.individual < 256) (n : ℕ) (m : List (ℕ × List String)) :
    ((addressedFrom (pre.countP Spot.individual) todo).zipIdx n).foldl
        (joinOne slotPositions individuals)
        (pre.map Spot.joined ++ todo.map Spot.numbered, m) =
      (all.map Spot.joined, todo.foldl Spot.fill m) := by
  induction todo generalizing pre n m with
  | nil =>
    rw [List.append_nil] at split
    rw [split, List.map_nil, List.append_nil]
    rfl
  | cons sp todo ih =>
    have next : all = (pre ++ [sp]) ++ todo := by
      rw [split, List.append_assoc, List.singleton_append]
    have moved : pre.map Spot.joined ++ sp.joined :: todo.map Spot.numbered =
        (pre ++ [sp]).map Spot.joined ++ todo.map Spot.numbered := by
      rw [List.map_append, List.append_assoc]
      rfl
    have count : (pre ++ [sp]).countP Spot.individual =
        pre.countP Spot.individual + if sp.individual then 1 else 0 := by
      rw [List.countP_append, List.countP_singleton]
    rw [List.map_cons]
    have rest := ih (pre ++ [sp]) next
    rw [← moved, count] at rest
    cases sp with
    | overall t b => exact rest n m
    | other t notSlot i o => exact rest n m
    | slot kind i s =>
      rw [addressedFrom, Slot.addressed, List.foldl_cons, Spot.fill, Slot.texts, Slot.phys]
      rw [Spot.joined, Slot.texts, Slot.phys] at rest
      rcases contents : s.contents with body | ⟨notAll, l⟩
      · rw [contents] at rest
        exact rest n m
      · rw [contents] at rest
        have small := fits pre _ todo split rfl
        have index : individuals[(UInt8.ofNat (pre.countP Spot.individual)).toNat]? =
            some (pre.map Spot.joined).length := by
          have counted : (pre.map Spot.numbered).countP (fun e => !e.overall) =
              pre.countP Spot.individual := by
            rw [List.countP_map]
            congr 1
            funext sp
            rw [Function.comp_apply, Spot.overall_eq, Bool.not_not]
          rw [UInt8.toNat_ofNat', Nat.mod_eq_of_lt small, found, split, List.map_append,
            List.map_cons, ← counted, List.length_map]
          have here := getElem?_positions (p := fun e : Element => !e.overall)
            (a := (Spot.slot kind i s).numbered) (by rw [Spot.overall_eq]; rfl)
            (pre.map Spot.numbered) (todo.map Spot.numbered)
          rwa [List.length_map] at here
        have slot : isSlot (Spot.slot kind i s).numbered.elementType = true := by
          rw [Spot.type_eq]
          cases kind <;> rfl
        dsimp only [Option.toList_some, List.singleton_append, List.zipIdx_cons, List.foldl_cons]
        rw [joinOne_of_index index slot]
        exact rest (n + 1) _

end Join

/-- **With element indexes** each element is joined with its descriptor, and each bay is filled. -/
lemma joinAll_indexed (e : Enclosure) (indexed : e.indexed = true) :
    joinAll (e.spots.map Spot.numbered) (parseAdditional e.additional) =
      (e.spots.map Spot.joined, e.spots.foldl Spot.fill []) := by
  rw [joinAll, parseAdditional_indexed e indexed]
  exact foldl_joinOne_indexed [] e.spots rfl rfl (e.indexes_fit indexed) 0 []

/-! ## The bays that are filled -/

/-- A descriptor fills one bay at most. -/
lemma slots_joinOne (slotPositions individuals : List ℕ)
    (s : List Element × List (ℕ × List String)) (x : SlotAddress × ℕ) :
    (joinOne slotPositions individuals s x).2 = s.2 ∨
      ∃ b, (joinOne slotPositions individuals s x).2 =
        OrderedMap.insert b x.1.sasAddresses s.2 := by
  rw [joinOne]
  cases positionOf slotPositions individuals s.1 x.2 x.1 with
  | none => exact Or.inl rfl
  | some p =>
    dsimp only
    by_cases empty : x.1.sasAddresses = []
    · rw [if_pos empty]
      exact Or.inl rfl
    · rw [if_neg empty]
      exact Or.inr ⟨_, rfl⟩

/-- The bays are in order, and each has what some descriptor has. -/
lemma slots_joinAll (elements : List Element) (addrs : List SlotAddress) :
    OrderedMap.Increasing (joinAll elements addrs).2 ∧
      ∀ x ∈ (joinAll elements addrs).2, ∃ sa ∈ addrs, x.2 = sa.sasAddresses := by
  rw [joinAll]
  apply List.foldlRecOn (motive := fun s : List Element × List (ℕ × List String) =>
    OrderedMap.Increasing s.2 ∧ ∀ x ∈ s.2, ∃ sa ∈ addrs, x.2 = sa.sasAddresses)
  · exact ⟨List.Pairwise.nil, nofun⟩
  · rintro s ⟨increasing, known⟩ y among
    obtain same | ⟨b, put⟩ := slots_joinOne
      (positions Element.isSingleSlot elements) (positions (fun e => !e.overall) elements) s y
    · rw [same]
      exact ⟨increasing, known⟩
    · rw [put]
      refine ⟨OrderedMap.increasing_insert increasing b _, ?_⟩
      intro x mem
      obtain rfl | old := OrderedMap.mem_of_mem_insert mem
      · exact ⟨y.1, List.fst_mem_of_mem_zipIdx among, rfl⟩
      · exact known x old

/-- A bay that is filled has the addresses of a slot with its number. -/
lemma exists_of_mem_fill {sps : List Spot} {m : List (ℕ × List String)} {x : ℕ × List String}
    (mem : x ∈ sps.foldl Spot.fill m) :
    x ∈ m ∨ ∃ kind i s, Spot.slot kind i s ∈ sps ∧ x = (s.number.toNat, s.texts) := by
  induction sps generalizing m with
  | nil => exact Or.inl mem
  | cons sp sps ih =>
    obtain here | ⟨kind, i, s, among, same⟩ := ih mem
    · cases sp with
      | overall t b => exact Or.inl here
      | other t notSlot i o => exact Or.inl here
      | slot kind i s =>
        rw [Spot.fill] at here
        split_ifs at here
        · exact Or.inl here
        · obtain new | old := OrderedMap.mem_of_mem_insert here
          · exact Or.inr ⟨kind, i, s, List.mem_cons_self .., new⟩
          · exact Or.inl old
    · exact Or.inr ⟨kind, i, s, List.mem_cons_of_mem _ among, same⟩

/-- A slot with addresses fills its bay, when only it has its number. -/
lemma mem_fill {sps : List Spot} {m : List (ℕ × List String)} {x : ℕ × List String}
    (only : ∀ kind i s, Spot.slot kind i s ∈ sps → s.number.toNat = x.1 → s.texts = x.2)
    (full : x.2 ≠ [])
    (h : x ∈ m ∨ ∃ kind i s, Spot.slot kind i s ∈ sps ∧ x = (s.number.toNat, s.texts)) :
    x ∈ sps.foldl Spot.fill m := by
  induction sps generalizing m with
  | nil =>
    obtain mem | ⟨kind, i, s, among, -⟩ := h
    · exact mem
    · exact absurd among List.not_mem_nil
  | cons sp sps ih =>
    apply ih fun kind i s among => only kind i s (List.mem_cons_of_mem _ among)
    obtain mem | ⟨kind, i, s, among, rfl⟩ := h
    · left
      cases sp with
      | overall t b => exact mem
      | other t notSlot i o => exact mem
      | slot kind i s =>
        rw [Spot.fill]
        split_ifs with empty
        · exact mem
        · by_cases same : s.number.toNat = x.1
          · have texts := only kind i s (List.mem_cons_self ..) same
            rw [same, texts]
            exact OrderedMap.mem_insert_self _ _ m
          · exact OrderedMap.mem_insert_of_ne mem fun eq => same eq.symm
    · obtain rfl | behind := List.mem_cons.mp among
      · left
        rw [Spot.fill, if_neg full]
        exact OrderedMap.mem_insert_self _ _ m
      · exact Or.inr ⟨kind, i, s, behind, rfl⟩

/-! ## Reports -/

/-- The report of an enclosure is what the join of its pages gives. -/
lemma exists_report (e : Enclosure) : ∃ rep, assemble e.esps e.pages = some rep ∧
    (rep.elements, rep.slots) =
      joinAll (e.spots.map Spot.numbered) (parseAdditional e.additional) := by
  obtain ⟨cfg, configured, places⟩ := places_config e
  obtain ⟨page, read, elements⟩ := elements_status e places
  obtain ⟨esp, esps, answers⟩ := List.exists_cons_of_ne_nil e.answers
  have key : ∃ key, (cfg.logicalId.or (e.esps.head?.bind (·.serial))).or
      (e.esps.head?.map (·.scsiId)) = some key := by
    rw [answers, List.head?_cons, Option.map_some, ← Option.isSome_iff_exists, Option.isSome_or]
    exact Bool.or_true _
  obtain ⟨key, keyed⟩ := key
  have mapped : page.elements.map Element.numbered = e.spots.map Spot.numbered := by
    rw [elements, List.map_map]
    rfl
  have config : parseConfiguration e.pages.config = some cfg := configured
  have status : parseStatus cfg e.pages.status = some page := read
  rw [assemble, config, Option.bind_some, status, Option.bind_some]
  dsimp only [Parts.pages]
  rw [mapped, keyed, Option.map_some]
  exact ⟨_, rfl, rfl⟩

/-- The element of a spot in the report. -/
def Spot.reported (indexed : Bool) (sp : Spot) : Element :=
  if indexed then sp.joined else sp.numbered

namespace Spot

/-- The join changes the bay and the address of an element, and nothing else. -/
lemma exists_reported (indexed : Bool) (sp : Spot) :
    ∃ b a, sp.reported indexed = { sp.numbered with bay := b, sasAddress := a } := by
  rw [reported]
  split_ifs
  · cases sp with
    | overall t b => exact ⟨_, _, rfl⟩
    | other t notSlot i o => exact ⟨_, _, rfl⟩
    | slot kind i s =>
      rw [joined]
      cases s.contents with
      | invalid body => exact ⟨_, _, rfl⟩
      | phys notAll l => cases s.texts.head? <;> exact ⟨_, _, rfl⟩
  · exact ⟨_, _, rfl⟩

lemma isSingleSlot_reported (indexed : Bool) (sp : Spot) :
    (sp.reported indexed).isSingleSlot = sp.isSlotSpot := by
  obtain ⟨b, a, same⟩ := sp.exists_reported indexed
  rw [← isSingleSlot_eq, same]
  rfl

lemma raw_reported (indexed : Bool) (sp : Spot) : (sp.reported indexed).raw = sp.status := by
  obtain ⟨b, a, same⟩ := sp.exists_reported indexed
  rw [← raw_eq, same]

/-- The bay of a slot is the number that it gets. -/
lemma bay_reported {indexed : Bool} {sp : Spot} (slot : sp.isSlotSpot = true) :
    (sp.reported indexed).bay = sp.shown indexed := by
  cases sp with
  | overall t b => exact absurd slot Bool.false_ne_true
  | other t notSlot i o => exact absurd slot Bool.false_ne_true
  | slot kind i s =>
    rw [reported]
    cases indexed with
    | false => exact bay_slot kind i s
    | true =>
      rw [if_pos rfl, joined, shown, Slot.isValid]
      cases s.contents with
      | invalid body => exact bay_slot kind i s
      | phys notAll l => cases s.texts.head? <;> rfl

end Spot

/-- A spot is known by the number of its slot. -/
lemma Enclosure.eq_of_number (e : Enclosure) {sp sp' : Spot} (h : sp ∈ e.spots)
    (h' : sp' ∈ e.spots) {b : UInt8} (number : sp.number = some b) (number' : sp'.number = some b) :
    sp = sp' := by
  obtain ⟨p, at_p⟩ := List.getElem?_of_mem h
  obtain ⟨q, at_q⟩ := List.getElem?_of_mem h'
  have same := nodup_filterMap_iff.mp e.numbers_nodup p q sp sp' b at_p at_q number number'
  rw [same, at_q] at at_p
  exact (Option.some.inj at_p).symm

/-- It is known by each address that is attached. -/
lemma Enclosure.eq_of_address (e : Enclosure) {sp sp' : Spot} (h : sp ∈ e.spots)
    (h' : sp' ∈ e.spots) {a : List UInt8} (mem : a ∈ sp.addresses) (mem' : a ∈ sp'.addresses) :
    sp = sp' := by
  by_contra ne
  have apart := (List.nodup_flatMap.mp e.addresses_nodup).2
  have symm : Std.Symm (Function.onFun List.Disjoint Spot.addresses) :=
    ⟨fun _ _ disjoint => List.Disjoint.symm disjoint⟩
  exact apart.forall h h' ne mem mem'

lemma Slot.texts_eq (s : Slot) : s.texts = s.addresses.map hexText := by
  rw [texts, addresses, List.map_map]
  rfl

lemma Slot.mem_texts {s : Slot} {a : List UInt8} : hexText a ∈ s.texts ↔ a ∈ s.addresses := by
  rw [s.texts_eq]
  constructor
  · intro mem
    obtain ⟨b, among, same⟩ := List.mem_map.mp mem
    rw [← hexText_injective same]
    exact among
  · exact List.mem_map_of_mem

/-! ## Enclosures whose bays are mapped right -/

section Report

variable {e : Enclosure} {rep : ShelfReport}

/-- Where there is nothing attached, nothing is found without element indexes. -/
lemma parseAdditional_eq_nil (unindexed : e.indexed = false)
    (bare : ∀ sp ∈ e.spots, sp.addresses = []) : parseAdditional e.additional = [] := by
  rw [List.eq_nil_iff_forall_not_mem]
  intro sa mem
  obtain ⟨kind, i, s, among, fewer⟩ := length_of_mem_unindexed e unindexed mem
  have none : s.phys = [] := List.map_eq_nil_iff.mp (bare _ among)
  rw [none] at fewer
  exact absurd fewer (Nat.not_lt_zero _)

/-- The elements of the report. -/
lemma elements_report (made : (rep.elements, rep.slots) =
      joinAll (e.spots.map Spot.numbered) (parseAdditional e.additional))
    (known : e.indexed = true ∨ ∀ sp ∈ e.spots, sp.addresses = []) :
    rep.elements = e.spots.map (Spot.reported e.indexed) := by
  cases indexed : e.indexed with
  | true =>
    rw [joinAll_indexed e indexed] at made
    exact (Prod.mk.inj made).1
  | false =>
    have bare := known.resolve_left (by rw [indexed]; exact Bool.false_ne_true)
    rw [parseAdditional_eq_nil indexed bare] at made
    exact (Prod.mk.inj made).1

/-- An address that is attached is in the bay of its slot. -/
lemma bayOf_report (slots : rep.slots = e.spots.foldl Spot.fill []) {kind : SlotKind} {i : ℕ}
    {s : Slot} (among : Spot.slot kind i s ∈ e.spots) {a : List UInt8} (mem : a ∈ s.addresses)
    {text : String} (spelled : normalizeSas text = hexText a) :
    rep.bayOf text = some s.number.toNat := by
  have here : (s.number.toNat, s.texts) ∈ rep.slots := by
    rw [slots]
    have full : s.texts ≠ [] := List.ne_nil_of_mem (Slot.mem_texts.mpr mem)
    refine mem_fill ?_ full (Or.inr ⟨kind, i, s, among, rfl⟩)
    intro kind' i' s' among' number
    have same := e.eq_of_number among' among (b := s.number)
      (congrArg some (UInt8.toNat_inj.mp number)) rfl
    obtain ⟨-, -, rfl⟩ := Spot.slot.inj same
    rfl
  rw [ShelfReport.bayOf, spelled]
  cases found : rep.slots.find? fun x => x.2.contains (hexText a) with
  | none =>
    have missing := List.find?_eq_none.mp found _ here
    exact absurd (List.contains_iff_mem.mpr (Slot.mem_texts.mpr mem)) missing
  | some x =>
    have inside := List.mem_of_find?_eq_some found
    rw [slots] at inside
    obtain nothing | ⟨kind', i', s', among', rfl⟩ := exists_of_mem_fill inside
    · exact absurd nothing List.not_mem_nil
    · have taken := List.find?_some found
      have shared := Slot.mem_texts.mp (List.contains_iff_mem.mp taken)
      have same := e.eq_of_address among' among shared mem
      obtain ⟨-, -, rfl⟩ := Spot.slot.inj same
      rfl

/-- A report of a fine enclosure. -/
lemma maps_of_fine (made : (rep.elements, rep.slots) =
      joinAll (e.spots.map Spot.numbered) (parseAdditional e.additional)) (fine : e.Fine) :
    rep.Maps e := by
  obtain ⟨known, distinct⟩ := fine
  have elements := elements_report made known
  rw [nodup_filterMap_iff] at distinct
  -- there are element indexes where something is attached
  have attached {kind : SlotKind} {i : ℕ} {s : Slot} (among : Spot.slot kind i s ∈ e.spots)
      (some : s.addresses ≠ []) : e.indexed = true :=
    known.resolve_right fun bare => some (bare _ among)
  constructor
  · intro kind i s among a mem text spelled
    rw [joinAll_indexed e (attached among (List.ne_nil_of_mem mem))] at made
    exact bayOf_report (Prod.mk.inj made).2 among mem spelled
  · intro p kind i s here some
    have indexed := attached (List.mem_of_getElem? here) some
    have valid : s.isValid = true := by
      rw [Slot.addresses, Slot.phys] at some
      rw [Slot.isValid]
      cases contents : s.contents with
      | invalid body =>
        rw [contents] at some
        exact absurd rfl some
      | phys notAll l => rfl
    have shown : (Spot.slot kind i s).shown e.indexed = Option.some s.number.toNat := by
      rw [Spot.shown, indexed, valid]
      rfl
    have at_p : rep.elements[p]? = Option.some ((Spot.slot kind i s).reported e.indexed) := by
      rw [elements, List.getElem?_map, here]
      rfl
    have single : ((Spot.slot kind i s).reported e.indexed).isSingleSlot = true :=
      Spot.isSingleSlot_reported _ _
    refine findIdx?_of_only at_p ?_ ?_
    · rw [Bool.and_eq_true, Spot.bay_reported rfl, shown, decide_eq_true_eq]
      exact ⟨single, rfl⟩
    · intro m x at_m taken
      rw [elements, List.getElem?_map] at at_m
      obtain ⟨sp, among, rfl⟩ := Option.map_eq_some_iff.mp at_m
      rw [Bool.and_eq_true, decide_eq_true_eq] at taken
      have slot : sp.isSlotSpot = true := by
        rw [← sp.isSingleSlot_reported e.indexed]
        exact taken.1
      rw [Spot.bay_reported slot] at taken
      exact distinct m p _ _ _ among here taken.2 shown
  · intro p
    rw [elements, List.getElem?_map, Option.map_map]
    congr 1
    funext sp
    exact sp.raw_reported e.indexed
  · intro p q x y at_p at_q slot_x slot_y same
    rw [elements, List.getElem?_map] at at_p at_q
    obtain ⟨a, ha, rfl⟩ := Option.map_eq_some_iff.mp at_p
    obtain ⟨b, hb, rfl⟩ := Option.map_eq_some_iff.mp at_q
    rw [Spot.isSingleSlot_reported] at slot_x slot_y
    rw [Spot.bay_reported slot_x, Spot.bay_reported slot_y] at same
    cases shown : a.shown e.indexed with
    | none =>
      cases a with
      | slot kind i s => cases shown
      | overall t b => exact absurd slot_x Bool.false_ne_true
      | other t notSlot i o => exact absurd slot_x Bool.false_ne_true
    | some n => exact distinct p q a b n ha hb shown (same ▸ shown)

end Report

/-! ## Without element indexes -/

section Lost

variable {e : Enclosure} {rep : ShelfReport}

/-- What is in a bay is in an entry of it. -/
lemma exists_of_bayOf {a : List UInt8} {b : ℕ} (h : rep.bayOf (hexText a) = some b) :
    ∃ x ∈ rep.slots, x.1 = b ∧ hexText a ∈ x.2 := by
  rw [ShelfReport.bayOf, normalizeSas_hexText] at h
  obtain ⟨x, found, rfl⟩ := Option.map_eq_some_iff.mp h
  have taken := List.find?_some found
  exact ⟨x, List.mem_of_find?_eq_some found, rfl, List.contains_iff_mem.mp taken⟩

/-- Where the bays are mapped right without element indexes, a slot with something attached is
followed by one with more phys. -/
lemma exists_longer (made : (rep.elements, rep.slots) =
      joinAll (e.spots.map Spot.numbered) (parseAdditional e.additional)) (maps : rep.Maps e)
    (unindexed : e.indexed = false) {kind : SlotKind} {i : ℕ} {s : Slot}
    (among : Spot.slot kind i s ∈ e.spots) (attached : s.addresses ≠ []) :
    ∃ kind' i' s', Spot.slot kind' i' s' ∈ e.spots ∧ s.phys.length < s'.phys.length := by
  obtain ⟨increasing, known⟩ :=
    slots_joinAll (e.spots.map Spot.numbered) (parseAdditional e.additional)
  rw [← made] at increasing known
  have found {a : List UInt8} (mem : a ∈ s.addresses) :
      ∃ x ∈ rep.slots, x.1 = s.number.toNat ∧ hexText a ∈ x.2 :=
    exists_of_bayOf (maps.bay kind i s among a mem _ (normalizeSas_hexText a))
  obtain ⟨first, mem⟩ := List.exists_mem_of_ne_nil _ attached
  obtain ⟨x, inside, number, -⟩ := found mem
  have all : s.texts ⊆ x.2 := by
    intro text listed
    rw [s.texts_eq] at listed
    obtain ⟨a, other, rfl⟩ := List.mem_map.mp listed
    obtain ⟨y, inside', number', here⟩ := found other
    rw [increasing.eq_of_key inside inside' (number.trans number'.symm)]
    exact here
  have distinct : s.texts.Nodup := by
    rw [s.texts_eq]
    exact ((List.nodup_flatMap.mp e.addresses_nodup).1 _ among).map fun a b => hexText_injective
  obtain ⟨sa, read, same⟩ := known x inside
  obtain ⟨kind', i', s', among', fewer⟩ := length_of_mem_unindexed e unindexed read
  have room := (distinct.subperm all).length_le
  rw [same, Slot.texts, List.length_map] at room
  exact ⟨kind', i', s', among', room.trans_lt fewer⟩

/-- **Without element indexes nothing may be attached**. -/
lemma bare_of_maps (made : (rep.elements, rep.slots) =
      joinAll (e.spots.map Spot.numbered) (parseAdditional e.additional)) (maps : rep.Maps e)
    (unindexed : e.indexed = false) : ∀ sp ∈ e.spots, sp.addresses = [] := by
  intro sp mem
  by_contra attached
  -- there would be slots with ever more phys
  have more (k : ℕ) : ∃ sp ∈ e.spots, sp.addresses ≠ [] ∧ k ≤ sp.addresses.length := by
    induction k with
    | zero => exact ⟨sp, mem, attached, Nat.zero_le _⟩
    | succ k ih =>
      obtain ⟨sp, mem, attached, long⟩ := ih
      cases sp with
      | overall t b => exact absurd rfl attached
      | other t notSlot i o => exact absurd rfl attached
      | slot kind i s =>
        obtain ⟨kind', i', s', mem', longer⟩ := exists_longer made maps unindexed mem attached
        rw [Spot.addresses, Slot.addresses, List.length_map] at long
        have lengths : (Spot.slot kind' i' s').addresses.length = s'.phys.length :=
          List.length_map _
        refine ⟨_, mem', ?_, by omega⟩
        apply List.ne_nil_of_length_pos
        omega
  obtain ⟨sp, mem, -, long⟩ := more (((e.spots.map fun sp => sp.addresses.length).sum) + 1)
  have bound := List.le_sum_of_mem (List.mem_map_of_mem (f := fun sp => sp.addresses.length) mem)
  omega

end Lost

/-! ## Exactly when -/

/-- Bays that are mapped right are those of a fine enclosure. -/
lemma fine_of_mapped {e : Enclosure} (mapped : e.Mapped) : e.Fine := by
  obtain ⟨rep, assembled, made⟩ := exists_report e
  obtain ⟨rep', assembled', maps⟩ := mapped
  obtain rfl : rep = rep' := Option.some.inj (assembled.symm.trans assembled')
  have known : e.indexed = true ∨ ∀ sp ∈ e.spots, sp.addresses = [] := by
    cases indexed : e.indexed with
    | true => exact Or.inl rfl
    | false => exact Or.inr (bare_of_maps made maps indexed)
  refine ⟨known, ?_⟩
  rw [nodup_filterMap_iff]
  intro p q a b n at_p at_q shown_a shown_b
  have slot {sp : Spot} (shown : sp.shown e.indexed = some n) : sp.isSlotSpot = true := by
    cases sp with
    | slot kind i s => rfl
    | overall t b => exact absurd shown nofun
    | other t notSlot i o => exact absurd shown nofun
  have elements := elements_report made known
  have element {r : ℕ} {sp : Spot} (here : e.spots[r]? = some sp) :
      rep.elements[r]? = some (sp.reported e.indexed) := by
    rw [elements, List.getElem?_map, here]
    rfl
  apply maps.apart p q _ _ (element at_p) (element at_q)
  · rw [Spot.isSingleSlot_reported, slot shown_a]
  · rw [Spot.isSingleSlot_reported, slot shown_b]
  · rw [Spot.bay_reported (slot shown_a), Spot.bay_reported (slot shown_b), shown_a, shown_b]

/-- **The bays are mapped right exactly for fine enclosures**: the additional page has element
indexes, or there is nothing attached, and no two slots get one number.
**Proof sketch.** With element indexes each descriptor is joined with its own element, so that the
report has the numbers that the slots get, and finding a slot by its number needs these to differ.
Without them the phys are looked for two bytes behind where they are, so that a slot loses at least
one address; a slot with the most phys cannot have got all of its own from any other. -/
theorem mapped_iff (e : Enclosure) : e.Mapped ↔ e.Fine := by
  constructor
  · exact fine_of_mapped
  · intro fine
    obtain ⟨rep, assembled, made⟩ := exists_report e
    exact ⟨rep, assembled, maps_of_fine made fine⟩

/-! ## Two enclosures -/

/-- A drive with one phy. -/
def drivePhy : Phy where
  lead := List.replicate 12 0
  address := [0x50, 0x00, 0xC5, 0x00, 0xB8, 0x53, 0x8D, 0x01]
  rest := List.replicate 8 0
  length_lead := rfl
  length_address := rfl
  length_rest := rfl
  attached := rfl

/-- Array slots and nothing else. -/
def slotGroup (l : List Slot) (fits : l.length < 256) : Group where
  overall := ⟨1, 0, 0, 0⟩
  text := []
  members := .slots .array l
  text_fits := Nat.zero_lt_succ _
  count_fits := fits

/-- The parts of an enclosure with such slots. -/
def slotParts (indexed : Bool) (l : List Slot) (fits : l.length < 256) : Parts where
  generation := 7
  flags := 0
  subs := [⟨0x10, 0, [], [slotGroup l fits], Nat.zero_lt_succ _, (by decide : 1 < 256)⟩]
  indexed := indexed

/-- One slot with a drive in it, in an additional page without element indexes. -/
def oneDrive : Enclosure where
  toParts := slotParts false [⟨0, ⟨1, 0, 0, 0⟩, .phys false [drivePhy]⟩] (by decide)
  esps := [⟨"0:0:17:0", none⟩]
  answers := List.cons_ne_nil _ _
  primary := List.cons_ne_nil _ _
  subs_fit := by decide
  status_fits := by decide
  bodies_fit := by decide
  additional_fits := by decide
  indexes_fit := nofun
  numbers_nodup := by decide
  addresses_nodup := by decide

/-- Two slots: the first is numbered 1 and has a drive in it, the second is numbered 2 and empty,
with a descriptor that is not valid. -/
def twoSlotParts : Parts :=
  slotParts true [⟨1, ⟨1, 0, 0, 0⟩, .phys false [drivePhy]⟩,
    ⟨2, ⟨5, 0, 0, 0⟩, .invalid [0, 0, 0, 2]⟩] (by decide)

/-- Their enclosure. -/
def twoSlots : Enclosure where
  toParts := twoSlotParts
  esps := [⟨"0:0:17:0", none⟩]
  answers := List.cons_ne_nil _ _
  primary := List.cons_ne_nil _ _
  subs_fit := by decide
  status_fits := by decide
  bodies_fit := by decide
  additional_fits := by decide
  indexes_fit := by
    intro _ pre sp post split _
    have len := congrArg List.length split
    have short : pre.countP Spot.individual ≤ pre.length := List.countP_le_length
    rw [List.length_append] at len
    have three : twoSlotParts.spots.length = 3 := rfl
    omega
  numbers_nodup := by decide
  addresses_nodup := by decide

/-- Without element indexes the drive is in no bay; with them, the second slot gets the number of
the first. -/
theorem bays_mapped_wrong : ¬ oneDrive.Mapped ∧ ¬ twoSlots.Mapped := by
  constructor
  · intro mapped
    have bare := (fine_of_mapped mapped).1.resolve_left Bool.false_ne_true
    exact absurd (bare (.slot .array 0 ⟨0, ⟨1, 0, 0, 0⟩, .phys false [drivePhy]⟩)
      (List.mem_cons_of_mem _ (List.mem_cons_self ..))) (List.cons_ne_nil _ _)
  · intro mapped
    have distinct := (fine_of_mapped mapped).2
    exact absurd distinct (by decide)

end Ses

end StormDrive
