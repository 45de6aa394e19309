import StormDrive.Drive
import StormDrive.Text.Separators

set_option relaxedAutoImplicit false
set_option autoImplicit false

/-!
# Telling drives apart

A drive is known by its WWID, or without one by model and serial: its id is a UUID of that text, and
its history is kept in a directory with a name made of it.

## Main definitions

* `historyKey`, `sanitize` — the name of the directory.
* `Different` — two drives with other WWIDs, or without one and with another model or serial.
* `ToldApart` — what tells them apart does not get lost between the separators, in replaced
  characters, or behind the first 120.

## Main results

* `told_apart_iff` — **different drives have different ids and directories exactly when they are
  told apart**.
* `separator_in_model` — two models of which one ends where the separator of the other stands have
  one id.

## Implementation notes

A UUID has 128 bits, and no function from texts to it is injective; what is asked of `newV5` is that
it tells the two texts apart that it is given.
-/

namespace StormDrive

open Separators

/-! ## The name of the directory -/

/-- A character that a directory name keeps. -/
def keptInName (c : Char) : Bool := c.isAlphanum || c = '.' || c = '-'

/-- A text as a part of a directory name. -/
def sanitize (s : String) : String :=
  let out := (Text.trim s).toList.map fun c => if keptInName c then c else '_'
  String.ofList ((squashLoop '_' out.length out).take 120)

/-- The WWID that a drive is known by: one that is not blank. -/
def Drive.knownWwid (d : Drive) : Option String :=
  (d.wwid.map Text.trim).filter fun w => w ≠ ""

/-- `history::key`: the drive's directory. -/
def historyKey (d : Drive) : String :=
  match d.knownWwid with
  | some w => "wwn-" ++ sanitize w
  | none => "serial-" ++ sanitize d.model ++ "-" ++ sanitize d.serial

/-- The identity of a drive. -/
def Drive.deriveId (newV5 : String → Uuid) (d : Drive) : DriveId :=
  DriveId.derive newV5 d.wwid d.model d.serial

/-- The text that the identity is derived from, by what the drive is known by. -/
lemma deriveKey_eq (d : Drive) :
    DriveId.deriveKey d.wwid d.model d.serial =
      match d.knownWwid with
      | some w => w
      | none => Text.trim d.model ++ ":" ++ Text.trim d.serial := by
  unfold DriveId.deriveKey Drive.knownWwid
  cases d.wwid with
  | none => rfl
  | some w =>
    by_cases blank : Text.trim w = ""
    · simp [blank, Option.filter]
    · simp [blank, Option.filter]

/-! ## When drives are different, and told apart -/

/-- The drives have other WWIDs, or none and another model or serial, where a serial is known. -/
def Different (a b : Drive) : Prop :=
  a.knownWwid ≠ b.knownWwid ∨
    a.knownWwid = none ∧ b.knownWwid = none ∧
      (Text.trim a.model ≠ Text.trim b.model ∨ Text.trim a.serial ≠ Text.trim b.serial) ∧
      ¬ (Text.trim a.serial = "" ∧ Text.trim b.serial = "")

/-- The places of a text in a directory name: a character that is kept, or one for a run of those
that are not. -/
@[irreducible] def namePlaces (s : String) : List (Option Char) :=
  (squash none ((Text.trim s).toList.map fun c => if keptInName c then some c else none)).take 120

/-- The trimmed characters of model and serial. -/
def Drive.parts (d : Drive) : List Char × List Char :=
  ((Text.trim d.model).toList, (Text.trim d.serial).toList)

/-- The places of model and serial. -/
def Drive.placeParts (d : Drive) : List (Option Char) × List (Option Char) :=
  (namePlaces d.model, namePlaces d.serial)

/-- Nothing that tells the drives apart gets lost. Two WWIDs differ in one of the first 120 places;
no WWID is the other drive's model and serial with a colon between; and without WWIDs, neither pair
of model and serial is the other with a colon shifted, and the first 120 places of the models and
serials are neither the same nor the same with a hyphen shifted. -/
def ToldApart (a b : Drive) : Prop :=
  match a.knownWwid, b.knownWwid with
  | some v, some w => namePlaces v ≠ namePlaces w
  | some v, none => v ≠ Text.trim b.model ++ ":" ++ Text.trim b.serial
  | none, some w => w ≠ Text.trim a.model ++ ":" ++ Text.trim a.serial
  | none, none =>
    ¬ Shifted ':' a.parts b.parts ∧ ¬ Shifted ':' b.parts a.parts ∧
      a.placeParts ≠ b.placeParts ∧ ¬ Shifted (some '-') a.placeParts b.placeParts ∧
      ¬ Shifted (some '-') b.placeParts a.placeParts

/-! ## What the texts keep -/

/-- How a place is written. -/
def writePlace (p : Option Char) : Char := p.getD '_'

/-- A place holds no other character than one that is kept. -/
def Kept (ps : List (Option Char)) : Prop := ∀ c, some c ∈ ps → keptInName c = true

lemma kept_namePlaces (s : String) : Kept (namePlaces s) := by
  intro c hc
  unfold namePlaces at hc
  have mem := (squash_sublist none _).subset (List.mem_of_mem_take hc)
  obtain ⟨d, -, h⟩ := List.mem_map.mp mem
  split_ifs at h with kept
  · rw [← Option.some.inj h]
    exact kept

/-- Kept places joined by a place that is kept. -/
lemma Kept.join {ps qs : List (Option Char)} {c : Char} (hp : Kept ps) (hq : Kept qs)
    (hc : keptInName c = true) : Kept (ps ++ some c :: qs) := by
  intro d hd
  obtain h | h := List.mem_append.mp hd
  · exact hp d h
  · obtain h | h := List.mem_cons.mp h
    · rw [Option.some.inj h]
      exact hc
    · exact hq d h

/-- A sanitized text is written place by place. -/
lemma sanitize_toList (s : String) : (sanitize s).toList = (namePlaces s).map writePlace := by
  have write : ((Text.trim s).toList.map fun c => if keptInName c then c else '_') =
      ((Text.trim s).toList.map fun c => if keptInName c then some c else none).map writePlace := by
    rw [List.map_map]
    refine List.map_congr_left fun c _ => ?_
    by_cases kept : keptInName c = true <;> simp [kept, writePlace]
  have apart : ∀ p ∈ (Text.trim s).toList.map (fun c => if keptInName c then some c else none),
      writePlace p = writePlace none → p = none := by
    intro p hp same
    obtain ⟨c, -, rfl⟩ := List.mem_map.mp hp
    by_cases kept : keptInName c = true
    · rw [if_pos kept] at same
      have : c = '_' := same
      rw [this] at kept
      exact absurd kept (by decide)
    · rw [if_neg kept]
  have filler := squash_map apart
  rw [← write] at filler
  rw [sanitize, String.toList_ofList, squashLoop_eq _ _ _ (Nat.le_refl _), namePlaces,
    List.map_take, ← filler]
  rfl

/-- What is written tells namePlaces with kept characters apart. -/
lemma map_writePlace_inj {ps qs : List (Option Char)} (hp : Kept ps) (hq : Kept qs)
    (h : ps.map writePlace = qs.map writePlace) : ps = qs := by
  induction ps generalizing qs with
  | nil => exact (List.map_eq_nil_iff.mp h.symm).symm
  | cons p ps ih =>
    cases qs with
    | nil => exact absurd h nofun
    | cons q qs =>
      obtain ⟨head, tail⟩ := List.cons.inj h
      have rest := ih (fun c hc => hp c (List.mem_cons_of_mem p hc))
        (fun c hc => hq c (List.mem_cons_of_mem q hc)) tail
      rw [rest]
      congr 1
      cases p with
      | none =>
        cases q with
        | none => rfl
        | some d =>
          have : d = '_' := head.symm
          exact absurd (hq d List.mem_cons_self) (by rw [this]; decide)
      | some c =>
        cases q with
        | none =>
          have : c = '_' := head
          exact absurd (hp c List.mem_cons_self) (by rw [this]; decide)
        | some d => exact congrArg some head

/-- Texts are sanitized to the same exactly when their places are. -/
lemma sanitize_eq_iff (s t : String) : sanitize s = sanitize t ↔ namePlaces s = namePlaces t := by
  constructor
  · intro h
    refine map_writePlace_inj (kept_namePlaces s) (kept_namePlaces t) ?_
    rw [← sanitize_toList, ← sanitize_toList, h]
  · intro h
    apply String.toList_inj.mp
    rw [sanitize_toList, sanitize_toList, h]

/-- The directories of drives without a WWID are the same exactly when their places are the same, or
the same with a hyphen shifted. -/
lemma serial_key_eq_iff (a b : Drive) :
    "serial-" ++ sanitize a.model ++ "-" ++ sanitize a.serial =
        "serial-" ++ sanitize b.model ++ "-" ++ sanitize b.serial ↔
      a.placeParts = b.placeParts ∨ Shifted (some '-') a.placeParts b.placeParts ∨
        Shifted (some '-') b.placeParts a.placeParts := by
  rw [← join_eq_join_iff]
  have kept : ∀ d : Drive, Kept (d.placeParts.1 ++ some '-' :: d.placeParts.2) := by
    intro d
    dsimp only [Drive.placeParts]
    exact Kept.join (kept_namePlaces d.model) (kept_namePlaces d.serial) (by decide)
  have written : ∀ d : Drive, ("serial-" ++ sanitize d.model ++ "-" ++ sanitize d.serial).toList =
      "serial-".toList ++ (d.placeParts.1 ++ some '-' :: d.placeParts.2).map writePlace := by
    intro d
    have hyphen : "-".toList = [writePlace (some '-')] := rfl
    rw [String.toList_append, String.toList_append, String.toList_append, hyphen, sanitize_toList,
      sanitize_toList, List.map_append, List.map_cons, List.append_assoc, List.append_assoc,
      Drive.placeParts]
    rfl
  constructor
  · intro h
    have h := congrArg String.toList h
    rw [written, written] at h
    exact map_writePlace_inj (kept a) (kept b) (List.append_cancel_left h)
  · intro h
    apply String.toList_inj.mp
    rw [written, written, h]

/-- The texts of drives without a WWID are the same exactly when models and serials are the same, or
the same with a colon shifted. -/
lemma serial_text_eq_iff (a b : Drive) :
    Text.trim a.model ++ ":" ++ Text.trim a.serial =
        Text.trim b.model ++ ":" ++ Text.trim b.serial ↔
      a.parts = b.parts ∨ Shifted ':' a.parts b.parts ∨ Shifted ':' b.parts a.parts := by
  rw [← join_eq_join_iff]
  have written : ∀ d : Drive, (Text.trim d.model ++ ":" ++ Text.trim d.serial).toList =
      d.parts.1 ++ ':' :: d.parts.2 := by
    intro d
    simp only [String.toList_append, Drive.parts, List.append_assoc]
    rfl
  rw [← written, ← written]
  exact String.toList_inj.symm

/-- A directory of a WWID is not one of a serial. -/
lemma wwn_ne_serial (s t u : String) : "wwn-" ++ s ≠ "serial-" ++ t ++ "-" ++ u := by
  intro h
  have first := congrArg (fun v : String => v.toList.take 1) h
  simp only [String.append_assoc, String.toList_append] at first
  exact absurd first (by simp)

/-! ## Different drives -/

/-- **Different drives have different ids and directories exactly when they are told apart.** -/
theorem told_apart_iff (newV5 : String → Uuid) (a b : Drive) (different : Different a b)
    (v5 : newV5 (DriveId.deriveKey a.wwid a.model a.serial) =
        newV5 (DriveId.deriveKey b.wwid b.model b.serial) →
      DriveId.deriveKey a.wwid a.model a.serial = DriveId.deriveKey b.wwid b.model b.serial) :
    (a.deriveId newV5 ≠ b.deriveId newV5 ∧ historyKey a ≠ historyKey b) ↔ ToldApart a b := by
  have id_eq : a.deriveId newV5 = b.deriveId newV5 ↔
      DriveId.deriveKey a.wwid a.model a.serial = DriveId.deriveKey b.wwid b.model b.serial := by
    constructor
    · exact fun h => v5 (DriveId.mk.inj h)
    · exact fun h => congrArg (fun k => DriveId.mk (newV5 k)) h
  rw [ne_eq, id_eq, deriveKey_eq, deriveKey_eq]
  unfold historyKey ToldApart
  unfold Different at different
  cases ha : a.knownWwid with
  | some v =>
    cases hb : b.knownWwid with
    | some w =>
      have names : "wwn-" ++ sanitize v = "wwn-" ++ sanitize w ↔ namePlaces v = namePlaces w := by
        rw [String.append_right_inj, sanitize_eq_iff]
      dsimp only
      constructor
      · exact fun h same => h.2 (names.mpr same)
      · intro apart
        refine ⟨fun same => apart ?_, fun same => apart (names.mp same)⟩
        rw [same]
    | none =>
      dsimp only
      exact ⟨fun h => h.1, fun h => ⟨h, wwn_ne_serial _ _ _⟩⟩
  | none =>
    cases hb : b.knownWwid with
    | some w =>
      dsimp only
      exact ⟨fun h => h.1 ∘ Eq.symm, fun h => ⟨h ∘ Eq.symm, (wwn_ne_serial _ _ _).symm⟩⟩
    | none =>
      rw [ha, hb] at different
      have parts : a.parts ≠ b.parts := by
        obtain h | ⟨-, -, other, -⟩ := different
        · exact absurd rfl h
        · intro same
          obtain ⟨model, serial⟩ := Prod.mk.inj same
          obtain h | h := other
          · exact h (String.toList_inj.mp model)
          · exact h (String.toList_inj.mp serial)
      dsimp only
      rw [ne_eq, serial_text_eq_iff, serial_key_eq_iff]
      constructor
      · rintro ⟨id, directory⟩
        exact ⟨fun h => id (.inr (.inl h)), fun h => id (.inr (.inr h)),
          fun h => directory (.inl h), fun h => directory (.inr (.inl h)),
          fun h => directory (.inr (.inr h))⟩
      · rintro ⟨colon, colon', same, hyphen, hyphen'⟩
        constructor
        · rintro (h | h | h)
          · exact parts h
          · exact colon h
          · exact colon' h
        · rintro (h | h | h)
          · exact same h
          · exact hyphen h
          · exact hyphen' h

/-- A UUID that numbers the characters of the text. -/
def spelledUuid (text : String) : Uuid :=
  ⟨BitVec.ofNat 128 (text.toList.foldl (fun n c => 256 * n + c.toNat) 0)⟩

/-- Two drives with other WWIDs are told apart. -/
theorem told_apart_wwids :
    let a := { Drive.testFixture ⟨⟨1⟩⟩ "sda" with wwid := some "naa.5000c500a1b2c3d4" }
    let b := { Drive.testFixture ⟨⟨2⟩⟩ "sdb" with wwid := some "naa.5000c500a1b2c3d5" }
    a.deriveId spelledUuid ≠ b.deriveId spelledUuid ∧ historyKey a ≠ historyKey b := by
  intro a b
  refine (told_apart_iff spelledUuid a b (.inl (by decide +kernel)) ?_).mpr ?_
  · intro same
    exact absurd same (by decide +kernel)
  · show namePlaces "naa.5000c500a1b2c3d4" ≠ namePlaces "naa.5000c500a1b2c3d5"
    decide +kernel

/-- A drive with this model and serial, and no WWID. -/
def unnumbered (model serial : String) : Drive :=
  { Drive.testFixture ⟨⟨1⟩⟩ "sda" with model := model, serial := serial }

/-- **A colon in a model or serial makes two drives one**: whatever the UUIDs are. -/
theorem separator_in_model :
    Different (unnumbered "A" "B:C") (unnumbered "A:B" "C") ∧
      ∀ newV5, (unnumbered "A" "B:C").deriveId newV5 = (unnumbered "A:B" "C").deriveId newV5 := by
  constructor
  · refine .inr ⟨rfl, rfl, .inl ?_, ?_⟩
    · decide
    · decide
  · intro newV5
    exact congrArg (fun text => DriveId.mk (newV5 text)) (by decide)

end StormDrive
