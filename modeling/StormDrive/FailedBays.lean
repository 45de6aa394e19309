import Mathlib.Data.List.Basic
import StormDrive.Discovery
import StormDrive.Drive
import StormDrive.OrderedMap

set_option relaxedAutoImplicit false
set_option autoImplicit false

/-!
# The bays of failed RAID set members

Which bays hold a failed member of an engine RAID set (`fleet.rs`: `failed_member_bays`), and the
texts that bays are known by.

## Main definitions

* `failedMemberBays` — the bays with a failed member, each with why.
* `bayKey`, `parseKey` — a bay as a text, and the text read back.
* `Names`, `WantedBay` — the drives that a member names, and the bays that are to be marked.
* `OnePlace` — the drives that share a name with a member are in one place.

## Main results

* `parseKey_bayKey` — a bay is read back.
* `mem_failedMemberBays_iff` — **the bays that are found are those that are wanted**, where the
  drives that share a name with a member are in one place.

## Implementation notes

The drives come in any order. How a uuid is read is a parameter.
-/

namespace StormDrive

namespace FaultLeds

/-! ## Texts -/

/-- The digits behind a sign. -/
def unsigned : List Char → List Char
  | '+' :: cs => cs
  | cs => cs

/-- `parse::<u32>`. -/
def parseU32 (cs : List Char) : Option ℕ :=
  let digits := unsigned cs
  if digits ≠ [] ∧ digits.all Char.isDigit then
    some (Nat.ofDigitChars 10 digits 0) |>.filter (· < 2 ^ 32)
  else none

/-- The parts before and after the last `c`. -/
def rsplitOnce (c : Char) (cs : List Char) : Option (List Char × List Char) :=
  (splitOnce c cs.reverse).map fun p => (p.2.reverse, p.1.reverse)

/-- A bay as a text: the key of its shelf, and its number. -/
def bayKey (place : String × ℕ) : String := place.1 ++ "/" ++ toString place.2

def parseKey (key : String) : Option (String × ℕ) := do
  let (shelf, bay) ← rsplitOnce '/' key.toList
  return (String.ofList shelf, ← parseU32 bay)

/-! ## Members -/

/-- A member's drive as the engine names it. -/
structure MemberDrive where
  uuid : Option String := none
  wwn : Option String := none
  serial : Option String := none

/-- A member of a RAID set. -/
structure Member where
  state : Option String
  drive : MemberDrive := {}
  labels : Option String := none
  index : Option ℕ := none

structure RaidSet where
  name : Option String
  id : Option String
  members : List Member

/-- The drives of the inventory, in some order: each once, and the bays are 32-bit numbers. -/
structure Drives where
  list : List Drive
  nodup : (list.map (·.id)).Nodup
  bays : ∀ d ∈ list, ∀ b, d.location.bay = some b → b < 2 ^ 32

/-- A text that is not empty. -/
def given (s : Option String) : Option String := s.filter (· ≠ "")

/-- A drive has the WWN of a member's, or its serial. -/
def sharesName (m : MemberDrive) (d : Drive) : Bool :=
  (given m.wwn).any (fun w => d.wwid.any fun x => Text.eqIgnoreAsciiCase x w) ||
    (given m.serial).any fun s => s = d.serial

/-- Where a drive is. -/
def placeOf (d : Drive) : Option (String × ℕ) := do
  return (← (← d.location.shelf).key, ← d.location.bay)

/-- Where the labels of a member say that it is. -/
def labelled (labels : Option String) : Option (String × ℕ) := do
  let parts := (← labels).toList.splitOn '/'
  let get (k : String) := parts.findSome? fun kv => stripPrefix (k ++ "=") (String.ofList kv)
  return (String.ofList (← get "shelf"), ← parseU32 (← get "bay"))

section Bays

variable (parseUuid : String → Option DriveId)

/-- Our drive of a member: the one with its uuid, else one with its WWN or serial. -/
def ours (drives : Drives) (m : MemberDrive) : Option Drive :=
  ((m.uuid.bind parseUuid).bind fun u => drives.list.find? fun d => d.id = u).or
    (drives.list.find? (sharesName m))

/-- Where a member is. -/
def memberPlace (drives : Drives) (m : Member) : Option (String × ℕ) :=
  ((ours parseUuid drives m.drive).bind placeOf).or (labelled m.labels)

/-- Why the bay of a member is marked. -/
def why (drives : Drives) (a : RaidSet) (m : Member) : String :=
  let name := ((given a.name).or a.id).getD "?"
  let slot := (m.index.map toString).getD "?"
  let who := (((ours parseUuid drives m.drive).map fun d => d.name ++ " (" ++ d.serial ++ ")").or
    m.drive.serial).getD ""
  Text.trim ("RAID set " ++ name ++ " slot " ++ slot ++ " failed " ++ who)

/-- The bays holding a failed member, each with why, in the order of their texts. -/
def failedMemberBays (arrays : List RaidSet) (drives : Drives) : List (String × String) :=
  OrderedMap.ofList <| arrays.flatMap fun a => a.members.filterMap fun m =>
    if m.state = some "failed" then
      (memberPlace parseUuid drives m).map fun place => (bayKey place, why parseUuid drives a m)
    else none

/-! ## What is wanted -/

/-- The drive has the uuid, the WWN, or the serial of a member. -/
def ByUuid (m : MemberDrive) (d : Drive) : Prop := m.uuid.bind parseUuid = some d.id

def ByWwn (m : MemberDrive) (d : Drive) : Prop :=
  ∃ w x, given m.wwn = some w ∧ d.wwid = some x ∧ Text.eqIgnoreAsciiCase x w

def BySerial (m : MemberDrive) (d : Drive) : Prop := given m.serial = some d.serial

/-- A member names the drives with its uuid, else those with its WWN, else those with its serial. -/
def Names (drives : Drives) (m : MemberDrive) (d : Drive) : Prop :=
  d ∈ drives.list ∧ (ByUuid parseUuid m d ∨ (∀ d' ∈ drives.list, ¬ ByUuid parseUuid m d') ∧
    (ByWwn m d ∨ (∀ d' ∈ drives.list, ¬ ByWwn m d') ∧ BySerial m d))

/-- The bays of a member: those of the drives that it names, else the one of its labels. -/
def BayOf (drives : Drives) (m : Member) (place : String × ℕ) : Prop :=
  (∃ d, Names parseUuid drives m.drive d ∧ placeOf d = some place) ∨
    (∀ d, Names parseUuid drives m.drive d → placeOf d = none) ∧ labelled m.labels = some place

/-- The bays of the failed members. -/
def WantedBay (arrays : List RaidSet) (drives : Drives) (place : String × ℕ) : Prop :=
  ∃ a ∈ arrays, ∃ m ∈ a.members, m.state = some "failed" ∧ BayOf parseUuid drives m place

/-- A drive has the uuid of a member, or the drives with its WWN or its serial are in one place. -/
def OnePlace (drives : Drives) (m : MemberDrive) : Prop :=
  (∃ d ∈ drives.list, ByUuid parseUuid m d) ∨
    ∀ d ∈ drives.list, ∀ d' ∈ drives.list, sharesName m d → sharesName m d' →
      placeOf d = placeOf d'

end Bays

/-! ## Texts are read back -/

section Texts

lemma unsigned_of_digits {cs : List Char} (digits : ∀ c ∈ cs, c.isDigit = true) :
    unsigned cs = cs := by
  rw [unsigned.eq_def]
  split
  · exact absurd (digits '+' List.mem_cons_self) (by decide)
  · rfl

lemma parseU32_toDigits {n : ℕ} (small : n < 2 ^ 32) : parseU32 (Nat.toDigits 10 n) = some n := by
  have digits : ∀ c ∈ Nat.toDigits 10 n, c.isDigit = true := fun c mem =>
    Nat.isDigit_of_mem_toDigits (by decide) (by decide) mem
  have read : Nat.ofDigitChars 10 (Nat.toDigits 10 n) 0 = n := Nat.ofDigitChars_ten_toDigits
  rw [parseU32, unsigned_of_digits digits,
    if_pos ⟨Nat.toDigits_ne_nil, List.all_eq_true.mpr digits⟩, read, Option.filter_some,
    if_pos (decide_eq_true small)]

lemma splitOnce_append {c : Char} (l r : List Char) (no : c ∉ l) :
    splitOnce c (l ++ c :: r) = some (l, r) := by
  have other : ∀ d ∈ l, decide (d ≠ c) = true := fun d mem =>
    decide_eq_true fun same => no (same ▸ mem)
  have here : decide (c ≠ c) = false := decide_eq_false (not_not.mpr rfl)
  rw [splitOnce, List.dropWhile_append_of_pos other, List.dropWhile_cons, here,
    List.takeWhile_append_of_pos other, List.takeWhile_cons, here]
  simp

/-- The last separator is the one before a part without any. -/
lemma rsplitOnce_append {c : Char} (l r : List Char) (no : c ∉ r) :
    rsplitOnce c (l ++ c :: r) = some (l, r) := by
  have back : (l ++ c :: r).reverse = r.reverse ++ c :: l.reverse := by simp
  rw [rsplitOnce, back, splitOnce_append _ _ (by simpa using no), Option.map_some,
    List.reverse_reverse, List.reverse_reverse]

lemma bayKey_toList (place : String × ℕ) :
    (bayKey place).toList = place.1.toList ++ '/' :: Nat.toDigits 10 place.2 := by
  simp [bayKey]

lemma rsplitOnce_bayKey (place : String × ℕ) :
    rsplitOnce '/' (bayKey place).toList = some (place.1.toList, Nat.toDigits 10 place.2) := by
  rw [bayKey_toList]
  refine rsplitOnce_append _ _ fun mem => ?_
  exact absurd (Nat.isDigit_of_mem_toDigits (by decide) (by decide) mem) (by decide)

/-- A bay is read back. -/
lemma parseKey_bayKey {place : String × ℕ} (small : place.2 < 2 ^ 32) :
    parseKey (bayKey place) = some place := by
  rw [parseKey, rsplitOnce_bayKey]
  show (parseU32 (Nat.toDigits 10 place.2)).bind
    (fun bay => some (String.ofList place.1.toList, bay)) = some place
  rw [parseU32_toDigits small, Option.bind_some, String.ofList_toList]

/-- Bays with one text are one bay. -/
lemma bayKey_injective : Function.Injective bayKey := by
  intro p q same
  have parts : (p.1.toList, Nat.toDigits 10 p.2) = (q.1.toList, Nat.toDigits 10 q.2) := by
    apply Option.some.inj
    rw [← rsplitOnce_bayKey, ← rsplitOnce_bayKey, same]
  obtain ⟨shelf, digits⟩ := Prod.mk.inj parts
  have bay : p.2 = q.2 := by
    rw [← Nat.ofDigitChars_ten_toDigits (n := p.2), digits, Nat.ofDigitChars_ten_toDigits]
  exact Prod.ext (String.toList_inj.mp shelf) bay

end Texts

/-! ## The bays that are found -/

section Found

variable {parseUuid : String → Option DriveId} {arrays : List RaidSet} {drives : Drives}
  {m : MemberDrive} {d d' : Drive}

/-- A drive is once among the drives. -/
lemma Drives.eq_of_id (drives : Drives) (hd : d ∈ drives.list) (hd' : d' ∈ drives.list)
    (same : d.id = d'.id) : d = d' :=
  List.inj_on_of_nodup_map drives.nodup hd hd' same

lemma sharesName_iff : sharesName m d = true ↔ ByWwn m d ∨ BySerial m d := by
  rw [sharesName, Bool.or_eq_true, Option.any_eq_true, Option.any_eq_true]
  refine or_congr ⟨?_, ?_⟩ ⟨?_, fun found => ⟨d.serial, found, decide_eq_true rfl⟩⟩
  · rintro ⟨w, wwn, shares⟩
    obtain ⟨x, wwid, same⟩ := Option.any_eq_true _ _ |>.mp shares
    exact ⟨w, x, wwn, wwid, same⟩
  · rintro ⟨w, x, wwn, wwid, same⟩
    exact ⟨w, wwn, Option.any_eq_true _ _ |>.mpr ⟨x, wwid, same⟩⟩
  · rintro ⟨x, found, same⟩
    rw [BySerial, found, of_decide_eq_true same]

/-- A drive that a member names by its uuid is our drive of it. -/
lemma ours_of_byUuid (hd : d ∈ drives.list) (h : ByUuid parseUuid m d) :
    ours parseUuid drives m = some d := by
  have there : (drives.list.find? fun d' => d'.id = d.id).isSome :=
    List.find?_isSome.mpr ⟨d, hd, decide_eq_true rfl⟩
  obtain ⟨d', found⟩ := Option.isSome_iff_exists.mp there
  have same : d'.id = d.id := by simpa using List.find?_some found
  rw [ours, h, Option.bind_some, found,
    drives.eq_of_id (List.mem_of_find?_eq_some found) hd same, Option.some_or]

/-- Where no drive has the uuid, it is the first with the WWN or the serial. -/
lemma ours_of_not_byUuid (none : ∀ d ∈ drives.list, ¬ ByUuid parseUuid m d) :
    ours parseUuid drives m = drives.list.find? (sharesName m) := by
  have nobody : ((m.uuid.bind parseUuid).bind fun u => drives.list.find? fun d => d.id = u) =
      Option.none := by
    rw [Option.bind_eq_none_iff]
    intro u uuid
    rw [List.find?_eq_none]
    intro d hd same
    exact none d hd (uuid.trans (congrArg some (of_decide_eq_true same).symm))
  rw [ours, nobody, Option.none_or]

/-- If we have a drive of a member, it names one. -/
lemma exists_names (h : (ours parseUuid drives m).isSome) :
    ∃ d, Names parseUuid drives m d := by
  by_cases byUuid : ∃ d ∈ drives.list, ByUuid parseUuid m d
  · obtain ⟨d, hd, this⟩ := byUuid
    exact ⟨d, hd, Or.inl this⟩
  · have none : ∀ d ∈ drives.list, ¬ ByUuid parseUuid m d := fun d hd h => byUuid ⟨d, hd, h⟩
    rw [ours_of_not_byUuid none] at h
    obtain ⟨d, found⟩ := Option.isSome_iff_exists.mp h
    have hd := List.mem_of_find?_eq_some found
    by_cases byWwn : ∃ d ∈ drives.list, ByWwn m d
    · obtain ⟨d', hd', this⟩ := byWwn
      exact ⟨d', hd', Or.inr ⟨none, Or.inl this⟩⟩
    · have noWwn : ∀ d ∈ drives.list, ¬ ByWwn m d := fun d hd h => byWwn ⟨d, hd, h⟩
      have bySerial := (sharesName_iff.mp (List.find?_some found)).resolve_left (noWwn d hd)
      exact ⟨d, hd, Or.inr ⟨none, Or.inr ⟨noWwn, bySerial⟩⟩⟩

/-- The drives that a member names are where our drive of it is. -/
lemma Names.placeOf_eq (one : OnePlace parseUuid drives m) (h : Names parseUuid drives m d) :
    (ours parseUuid drives m).bind placeOf = placeOf d := by
  obtain ⟨hd, byUuid | ⟨none, byName⟩⟩ := h
  · rw [ours_of_byUuid hd byUuid, Option.bind_some]
  · have shares : sharesName m d = true := by
      rw [sharesName_iff]
      exact byName.imp_right And.right
    have there : (drives.list.find? (sharesName m)).isSome :=
      List.find?_isSome.mpr ⟨d, hd, shares⟩
    obtain ⟨d', found⟩ := Option.isSome_iff_exists.mp there
    obtain ⟨u, hu, byUuid⟩ | same := one
    · exact absurd byUuid (none u hu)
    · rw [ours_of_not_byUuid none, found, Option.bind_some]
      exact same d' (List.mem_of_find?_eq_some found) d hd (List.find?_some found) shares

/-- A member is in its bay. -/
lemma memberPlace_eq_some_iff {m : Member} (one : OnePlace parseUuid drives m.drive)
    {place : String × ℕ} :
    memberPlace parseUuid drives m = some place ↔ BayOf parseUuid drives m place := by
  rw [memberPlace, BayOf]
  cases at' : (ours parseUuid drives m.drive).bind placeOf with
  | none =>
    have nowhere : ∀ d, Names parseUuid drives m.drive d → placeOf d = none := fun d names =>
      (names.placeOf_eq one).symm.trans at'
    rw [Option.none_or]
    constructor
    · exact fun label => Or.inr ⟨nowhere, label⟩
    · rintro (⟨d, names, there⟩ | ⟨-, label⟩)
      · exact absurd (there.symm.trans (nowhere d names)) (Option.some_ne_none place)
      · exact label
  | some here =>
    have somewhere : (ours parseUuid drives m.drive).isSome := by
      cases mine : ours parseUuid drives m.drive with
      | none =>
        rw [mine] at at'
        exact absurd at'.symm (Option.some_ne_none here)
      | some d => rfl
    obtain ⟨d, names⟩ := exists_names somewhere
    have there := (names.placeOf_eq one).symm.trans at'
    rw [Option.some_or]
    constructor
    · exact fun same => Or.inl ⟨d, names, there.trans same⟩
    · rintro (⟨d', names', there'⟩ | ⟨nowhere, -⟩)
      · exact at'.symm.trans ((names'.placeOf_eq one).trans there')
      · exact absurd (there.symm.trans (nowhere d names)) (Option.some_ne_none here)

/-- **The bays that are found are those that are wanted**, where the drives that share a name with a
member are in one place. -/
lemma mem_failedMemberBays_iff (one : ∀ a ∈ arrays, ∀ m ∈ a.members, m.state = some "failed" →
    OnePlace parseUuid drives m.drive) {key : String} :
    key ∈ (failedMemberBays parseUuid arrays drives).map Prod.fst ↔
      ∃ place, WantedBay parseUuid arrays drives place ∧ key = bayKey place := by
  rw [failedMemberBays, OrderedMap.mem_keys_ofList_iff, List.mem_map]
  constructor
  · rintro ⟨x, mem, rfl⟩
    obtain ⟨a, ha, mem⟩ := List.mem_flatMap.mp mem
    obtain ⟨m, hm, made⟩ := List.mem_filterMap.mp mem
    split_ifs at made with failed
    obtain ⟨place, there, rfl⟩ := Option.map_eq_some_iff.mp made
    have bay := (memberPlace_eq_some_iff (one a ha m hm failed)).mp there
    exact ⟨place, ⟨a, ha, m, hm, failed, bay⟩, rfl⟩
  · rintro ⟨place, ⟨a, ha, m, hm, failed, bay⟩, rfl⟩
    have there := (memberPlace_eq_some_iff (one a ha m hm failed)).mpr bay
    refine ⟨(bayKey place, why parseUuid drives a m), ?_, rfl⟩
    refine List.mem_flatMap.mpr ⟨a, ha, List.mem_filterMap.mpr ⟨m, hm, ?_⟩⟩
    rw [if_pos failed, there]
    rfl

lemma parseU32_lt {cs : List Char} {n : ℕ} (h : parseU32 cs = some n) : n < 2 ^ 32 := by
  rw [parseU32] at h
  split_ifs at h
  exact of_decide_eq_true (Option.filter_eq_some_iff.mp h).2

lemma mem_of_ours (h : ours parseUuid drives m = some d) : d ∈ drives.list := by
  rw [ours, Option.or_eq_some_iff] at h
  obtain byUuid | ⟨-, byName⟩ := h
  · obtain ⟨u, -, found⟩ := Option.bind_eq_some_iff.mp byUuid
    exact List.mem_of_find?_eq_some found
  · exact List.mem_of_find?_eq_some byName

lemma bay_of_placeOf {place : String × ℕ} (h : placeOf d = some place) :
    d.location.bay = some place.2 := by
  obtain ⟨shelf, -, rest⟩ := Option.bind_eq_some_iff.mp h
  obtain ⟨key, -, rest⟩ := Option.bind_eq_some_iff.mp rest
  obtain ⟨bay, found, made⟩ := Option.bind_eq_some_iff.mp rest
  rw [found, ← Option.some.inj made]

lemma labelled_lt {labels : Option String} {place : String × ℕ}
    (h : labelled labels = some place) : place.2 < 2 ^ 32 := by
  obtain ⟨text, -, rest⟩ := Option.bind_eq_some_iff.mp h
  obtain ⟨shelf, -, rest⟩ := Option.bind_eq_some_iff.mp rest
  obtain ⟨digits, -, rest⟩ := Option.bind_eq_some_iff.mp rest
  obtain ⟨bay, read, made⟩ := Option.bind_eq_some_iff.mp rest
  rw [← Option.some.inj made]
  exact parseU32_lt read

/-- The number of a bay that is found is a 32-bit number. -/
lemma memberPlace_lt {m : Member} {place : String × ℕ}
    (h : memberPlace parseUuid drives m = some place) : place.2 < 2 ^ 32 := by
  rw [memberPlace, Option.or_eq_some_iff] at h
  obtain mine | ⟨-, label⟩ := h
  · obtain ⟨d, found, there⟩ := Option.bind_eq_some_iff.mp mine
    exact drives.bays d (mem_of_ours found) _ (bay_of_placeOf there)
  · exact labelled_lt label

/-- What is found are texts of bays. -/
lemma exists_of_mem_failedMemberBays {key : String}
    (h : key ∈ (failedMemberBays parseUuid arrays drives).map Prod.fst) :
    ∃ place : String × ℕ, place.2 < 2 ^ 32 ∧ key = bayKey place := by
  rw [failedMemberBays, OrderedMap.mem_keys_ofList_iff] at h
  obtain ⟨x, mem, rfl⟩ := List.mem_map.mp h
  obtain ⟨a, ha, mem⟩ := List.mem_flatMap.mp mem
  obtain ⟨m, hm, made⟩ := List.mem_filterMap.mp mem
  split_ifs at made
  obtain ⟨place, there, rfl⟩ := Option.map_eq_some_iff.mp made
  exact ⟨place, memberPlace_lt there, rfl⟩

end Found

end FaultLeds

end StormDrive
