import StormDrive.Drive
import StormDrive.Bytes.Layout
import StormDrive.Bytes.Checked

set_option relaxedAutoImplicit false
set_option autoImplicit false

/-!
# SCSI

The answers of a SCSI drive, and the parameter lists of MODE SELECT that ask it for another block
length, built from what its MODE SENSE(10) returned (`scsi.rs`).

## Main definitions

* `Sense`, `ScsiError` — why a command failed.
* `parseModeSense10`, `modeSelect10List`, `modeSelect6List` — the drive's block descriptor, and the
  lists that send it back with another length.
* `AsksLength` — the list is a header with the one descriptor that it announces, which holds the
  length and no count.

## Main results

* `modeSelect10List_asks` — **the list asks for the new length and nothing else**, whatever the
  drive returned.

## Implementation notes

A `u32` is a natural number; `be 4` takes it modulo `2 ^ 32`.
-/

namespace StormDrive

namespace Scsi

open Bytes

/-! ## Errors -/

/-- Which byte of the CDB or of the parameter list an ILLEGAL REQUEST is about. -/
structure FieldPointer where
  inCdb : Bool
  bit : Option ℕ
  byte : ℕ
  deriving DecidableEq

/-- Sense data. -/
structure Sense where
  key : ℕ
  asc : ℕ
  ascq : ℕ
  progress : Option ℕ := none
  field : Option FieldPointer := none
  deriving DecidableEq

/-- Why a command failed. -/
inductive ScsiError
  | io (text : String)
  | sense (s : Sense)
  | transport (status host driver : ℕ)
  | short (n : ℕ)
  | unsupported (text : String)
  deriving DecidableEq

/-- A number in lower-case hexadecimal digits. -/
def hex (n : ℕ) : String := String.ofList (Nat.toDigits 16 n)

/-- At least two hexadecimal digits. -/
def hex2 (n : ℕ) : String := if n < 16 then "0" ++ hex n else hex n

namespace Sense

def isIllegalRequest (s : Sense) : Bool := s.key = 5

def isFormatInProgress (s : Sense) : Bool := s.key = 2 && s.asc = 4 && s.ascq = 4

def isUnitAttention (s : Sense) : Bool := s.key = 6

def keyName (s : Sense) : String :=
  match s.key with
  | 0x0 => "no sense"
  | 0x1 => "recovered error"
  | 0x2 => "not ready"
  | 0x3 => "medium error"
  | 0x4 => "hardware error"
  | 0x5 => "illegal request"
  | 0x6 => "unit attention"
  | 0x7 => "data protect"
  | 0x8 => "blank check"
  | 0xB => "aborted command"
  | 0xD => "volume overflow"
  | 0xE => "miscompare"
  | _ => "reserved"

end Sense

/-- A field pointer in words. -/
def FieldPointer.text (p : FieldPointer) : String :=
  (if p.inCdb then "cdb" else "parameter list") ++ " byte " ++ toString p.byte ++
    match p.bit with
    | some b => " bit " ++ toString b
    | none => ""

/-- Sense data in words. -/
def Sense.text (s : Sense) : String :=
  s.keyName ++ " (key 0x" ++ hex s.key ++ ", asc/ascq 0x" ++ hex2 s.asc ++ "/0x" ++ hex2 s.ascq ++
    (match s.field with
      | some p => ", field pointer: " ++ p.text
      | none => "") ++ ")"

/-- An error in words. -/
def ScsiError.text : ScsiError → String
  | .io text => text
  | .sense s => s.text
  | .transport status host driver =>
    "scsi status 0x" ++ hex2 status ++ ", host 0x" ++ hex2 host ++ ", driver 0x" ++ hex2 driver
  | .short n => "short response (" ++ toString n ++ " bytes)"
  | .unsupported text => text

/-- The drive says that it will not do this. -/
def ScsiError.isIllegalRequest : ScsiError → Bool
  | .sense s => s.isIllegalRequest
  | _ => false

/-! ## READ CAPACITY(16) -/

/-- A READ CAPACITY(16) response, decoded. -/
structure Capacity where
  lastLba : ℕ
  blockLen : ℕ
  /-- Protection type in use (0 = none). -/
  protType : ℕ
  deriving DecidableEq

namespace Capacity

def blocks (c : Capacity) : ℕ := (c.lastLba + 1) % 2 ^ 64

def bytes (c : Capacity) : Checked String ℕ := Checked.mul c.blocks c.blockLen

end Capacity

def parseReadCapacity16 (raw : List UInt8) : Except ScsiError Capacity :=
  if raw.length < 16 then .error (.short raw.length)
  else
    let flags := (raw.getD 12 0).toNat
    .ok ⟨ofBe (slice raw 0 8), ofBe (slice raw 8 4),
      if flags % 2 = 1 then flags / 2 % 8 + 1 else 0⟩

/-! ## Block descriptors -/

/-- The header of a MODE SENSE(10) response, with its block descriptors. -/
structure ModeHeader10 where
  mediumType : UInt8
  deviceSpecific : UInt8
  longLba : Bool
  blockDescriptor : Option (List UInt8)
  deriving DecidableEq

/-- LONGLBA of a mode parameter list. -/
def longLbaBit (raw : List UInt8) : Bool := raw.getD 4 0 &&& 0x01 ≠ 0

/-- BLOCK DESCRIPTOR LENGTH of a mode parameter list. -/
def descriptorLength (raw : List UInt8) : ℕ := ofBe (slice raw 6 2)

def parseModeSense10 (raw : List UInt8) : Except ScsiError ModeHeader10 :=
  if raw.length < 8 then .error (.short raw.length)
  else
    let bdLen := descriptorLength raw
    let bd :=
      if 0 < bdLen ∧ 8 + bdLen ≤ raw.length then some (slice raw 8 bdLen) else none
    .ok ⟨raw.getD 2 0, raw.getD 3 0, longLbaBit raw, bd⟩

/-- The descriptor is long and the drive returned one. -/
def ModeHeader10.hasLong (h : ModeHeader10) : Bool :=
  h.longLba && h.blockDescriptor.any fun bd => 16 ≤ bd.length

/-- The header of a list with one descriptor of `bdLen` bytes, and room for that. -/
def selectHeader (h : ModeHeader10) (long : Bool) (bdLen : ℕ) : List UInt8 :=
  let v := List.replicate (8 + bdLen) 0
  let v := put v 2 [h.mediumType]
  let v := put v 4 [if long then 1 else 0]
  put v 7 [UInt8.ofNat bdLen]

/-- The MODE SELECT(10) parameter list that sets a new block length. -/
def modeSelect10List (h : ModeHeader10) (blockLen : ℕ) (long : Bool) : List UInt8 :=
  let long := long && h.hasLong
  let bdLen := if long then 16 else 8
  let v := selectHeader h long bdLen
  let own := h.blockDescriptor.getD []
  let v := if own.length = bdLen then put v 8 own else v
  if long then put (put v 8 (List.replicate 8 0)) 20 (be 4 blockLen)
  else put (put v 8 (List.replicate 4 0)) 13 ((be 4 blockLen).drop 1)

/-- The MODE SELECT(6) parameter list, with the short descriptor. -/
def modeSelect6List (h : ModeHeader10) (blockLen : ℕ) : List UInt8 :=
  let ten := modeSelect10List h blockLen false
  put (put (List.replicate 4 0) 1 [h.mediumType]) 3 [8] ++ slice ten 8 8

/-- The block length in a block descriptor. -/
def descriptorBlockLength (bd : List UInt8) (longLba : Bool) : Option ℕ :=
  if longLba then
    if 16 ≤ bd.length then some (ofBe (slice bd 12 4)) else none
  else if 8 ≤ bd.length then some (ofBe (slice bd 5 3))
  else none

/-! ## What a list asks for -/

/-- The list is a header with the one descriptor that it announces, which holds the length, and a
count of zero. -/
structure AsksLength (v : List UInt8) (blockLen : ℕ) : Prop where
  one : descriptorLength v = if longLbaBit v then 16 else 8
  whole : v.length = 8 + descriptorLength v
  length : descriptorBlockLength (v.drop 8) (longLbaBit v) = some blockLen
  count : slice v 8 (if longLbaBit v then 8 else 4) =
    List.replicate (if longLbaBit v then 8 else 4) 0

/-- The descriptor that is sent back: the drive's own when it has the length, else zeros. -/
def ownDescriptor (h : ModeHeader10) (bdLen : ℕ) : List UInt8 :=
  let own := h.blockDescriptor.getD []
  if own.length = bdLen then own else List.replicate bdLen 0

lemma length_ownDescriptor (h : ModeHeader10) (bdLen : ℕ) :
    (ownDescriptor h bdLen).length = bdLen := by
  unfold ownDescriptor
  dsimp only
  split_ifs with same
  · exact same
  · exact List.length_replicate

/-- The header, and the descriptor that is sent back laid over the room for it. -/
lemma sent_back (h : ModeHeader10) (bdLen : ℕ) (header : List UInt8) (eight : header.length = 8) :
    (if (h.blockDescriptor.getD []).length = bdLen then
        put (header ++ List.replicate bdLen 0) 8 (h.blockDescriptor.getD [])
      else header ++ List.replicate bdLen 0) = header ++ ownDescriptor h bdLen := by
  unfold ownDescriptor
  dsimp only
  split_ifs with same
  · rw [put_append (by omega), eight, Nat.sub_self, put, List.take_zero, List.drop_eq_nil_of_le,
      List.append_nil, List.nil_append]
    rw [List.length_replicate]
    omega
  · rfl

/-- **The list, byte by byte**: the header, a count of zero, what is kept of the descriptor, and the
length. -/
lemma modeSelect10List_eq (h : ModeHeader10) (blockLen : ℕ) (long : Bool) :
    modeSelect10List h blockLen long =
      if long && h.hasLong then
        [0, 0, h.mediumType, 0, 1, 0, 0, 16] ++
          (List.replicate 8 0 ++ (slice (ownDescriptor h 16) 8 4 ++ be 4 blockLen))
      else
        [0, 0, h.mediumType, 0, 0, 0, 0, 8] ++
          (List.replicate 4 0 ++ (slice (ownDescriptor h 8) 4 1 ++ be 3 blockLen)) := by
  unfold modeSelect10List
  dsimp only
  by_cases form : (long && h.hasLong) = true
  · have header : selectHeader h true 16 =
        [0, 0, h.mediumType, 0, 1, 0, 0, 16] ++ List.replicate 16 0 := rfl
    have whole := put_put (ownDescriptor h 16) (List.replicate 8 0) (be 4 blockLen) 4
      (by simp [length_ownDescriptor])
    rw [form]
    simp only [if_true]
    rw [header, sent_back h 16 _ rfl, put_append (by simp), put_append (by simp)]
    simpa using whole
  · have header : selectHeader h false 8 =
        [0, 0, h.mediumType, 0, 0, 0, 0, 8] ++ List.replicate 8 0 := rfl
    have three : (be 4 blockLen).drop 1 = be 3 blockLen := drop_be 3 1 blockLen
    have whole := put_put (ownDescriptor h 8) (List.replicate 4 0) (be 3 blockLen) 1
      (by simp [length_ownDescriptor])
    rw [Bool.not_eq_true] at form
    rw [form]
    simp only [Bool.false_eq_true, if_false]
    rw [header, sent_back h 8 _ rfl, put_append (by simp), put_append (by simp), three]
    simpa using whole

/-- A list in the long form asks for its length. -/
lemma asksLength_long {m : UInt8} {kept : List UInt8} {blockLen : ℕ} (four : kept.length = 4)
    (fits : blockLen < 2 ^ 32) :
    AsksLength ([0, 0, m, 0, 1, 0, 0, 16] ++ (List.replicate 8 0 ++ (kept ++ be 4 blockLen)))
      blockLen := by
  have bit : longLbaBit ([0, 0, m, 0, 1, 0, 0, 16] ++
      (List.replicate 8 0 ++ (kept ++ be 4 blockLen))) = true := by
    show decide ((1 : UInt8) &&& 1 ≠ 0) = true
    decide
  have announced : descriptorLength ([0, 0, m, 0, 1, 0, 0, 16] ++
      (List.replicate 8 0 ++ (kept ++ be 4 blockLen))) = 16 := rfl
  refine ⟨?_, ?_, ?_, ?_⟩
  · rw [announced, bit, if_pos rfl]
  · rw [announced]
    simp [four]
  · have field : slice (List.replicate 8 0 ++ (kept ++ be 4 blockLen)) 12 4 = be 4 blockLen := by
      rw [slice_append_right (by simp), slice_append_right (by simp [four]), List.length_replicate,
        four]
      exact List.take_of_length_le (by simp)
    have behind : ∀ rest, ([0, 0, m, 0, 1, 0, 0, 16] ++ rest).drop 8 = rest := fun _ => rfl
    rw [bit, behind, descriptorBlockLength, if_pos rfl, if_pos (by simp [four]), field,
      ofBe_be_of_lt fits]
  · rw [bit, slice_append_right (by simp), slice_append_left (by simp)]
    exact slice_replicate (Nat.le_refl _)

/-- A list in the short form asks for its length. -/
lemma asksLength_short {m : UInt8} {kept : List UInt8} {blockLen : ℕ} (one : kept.length = 1)
    (fits : blockLen < 2 ^ 24) :
    AsksLength ([0, 0, m, 0, 0, 0, 0, 8] ++ (List.replicate 4 0 ++ (kept ++ be 3 blockLen)))
      blockLen := by
  have bit : longLbaBit ([0, 0, m, 0, 0, 0, 0, 8] ++
      (List.replicate 4 0 ++ (kept ++ be 3 blockLen))) = false := by
    show decide ((0 : UInt8) &&& 1 ≠ 0) = false
    decide
  have announced : descriptorLength ([0, 0, m, 0, 0, 0, 0, 8] ++
      (List.replicate 4 0 ++ (kept ++ be 3 blockLen))) = 8 := rfl
  refine ⟨?_, ?_, ?_, ?_⟩
  · rw [announced, bit]
    rfl
  · rw [announced]
    simp [one]
  · have field : slice (List.replicate 4 0 ++ (kept ++ be 3 blockLen)) 5 3 = be 3 blockLen := by
      rw [slice_append_right (by simp), slice_append_right (by simp [one]), List.length_replicate,
        one]
      exact List.take_of_length_le (by simp)
    have behind : ∀ rest, ([0, 0, m, 0, 0, 0, 0, 8] ++ rest).drop 8 = rest := fun _ => rfl
    rw [bit, behind, descriptorBlockLength, if_neg nofun, if_pos (by simp [one]), field,
      ofBe_be_of_lt fits]
  · rw [bit, slice_append_right (by simp), slice_append_left (by simp)]
    exact slice_replicate (Nat.le_refl _)

/-- Whatever the drive returned, the list asks for its length. -/
lemma asksLength_modeSelect10List (h : ModeHeader10) {blockLen : ℕ} (long : Bool)
    (fits : blockLen < 2 ^ 24) : AsksLength (modeSelect10List h blockLen long) blockLen := by
  rw [modeSelect10List_eq]
  split_ifs with form
  · exact asksLength_long (length_slice (by simp [length_ownDescriptor])) (by omega)
  · exact asksLength_short (length_slice (by simp [length_ownDescriptor])) fits

/-- The list carries LONGLBA exactly when it is long. -/
lemma longLbaBit_modeSelect10List (h : ModeHeader10) (blockLen : ℕ) (long : Bool) :
    longLbaBit (modeSelect10List h blockLen long) = (long && h.hasLong) := by
  rw [modeSelect10List_eq]
  split_ifs with form
  · rw [form]
    show decide ((1 : UInt8) &&& 1 ≠ 0) = true
    decide
  · rw [Bool.not_eq_true] at form
    rw [form]
    show decide ((0 : UInt8) &&& 1 ≠ 0) = false
    decide

/-- The form for drives that reject MODE SELECT(10) has the short descriptor behind its header. -/
lemma modeSelect6List_eq (h : ModeHeader10) (blockLen : ℕ) :
    modeSelect6List h blockLen =
      [0, h.mediumType, 0, 8] ++ (modeSelect10List h blockLen false).drop 8 := by
  have eight : ((modeSelect10List h blockLen false).drop 8).length = 8 := by
    rw [modeSelect10List_eq]
    simp [length_slice, length_ownDescriptor]
  rw [modeSelect6List, slice, List.take_of_length_le (Nat.le_of_eq eight)]
  rfl

/-- The drive returned a long descriptor: it says so, and the answer holds what it announces. -/
def returnsLong (raw : List UInt8) : Prop :=
  longLbaBit raw = true ∧ 16 ≤ descriptorLength raw ∧ 8 + descriptorLength raw ≤ raw.length

/-- A header that has a long descriptor is of an answer that returned one. -/
lemma returnsLong_of_hasLong {raw : List UInt8} {h : ModeHeader10}
    (parsed : parseModeSense10 raw = .ok h) (long : h.hasLong = true) : returnsLong raw := by
  unfold parseModeSense10 at parsed
  split_ifs at parsed with short
  obtain rfl := Except.ok.inj parsed
  simp only [ModeHeader10.hasLong, Bool.and_eq_true] at long
  obtain ⟨bit, long⟩ := long
  split_ifs at long with held
  · rw [Option.any_some, decide_eq_true_eq, length_slice held.2] at long
    exact ⟨bit, long, held.2⟩
  · exact absurd long nofun

/-- **The list asks for the new length and nothing else**, whatever the drive returned: the header
and the one descriptor it announces, with the length and no count; long only where the drive
returned a long one; and the short descriptor is the same in the form for drives that reject
this one. -/
theorem modeSelect10List_asks (raw : List UInt8) (h : ModeHeader10) (blockLen : ℕ) (long : Bool)
    (parsed : parseModeSense10 raw = .ok h) (fits : blockLen < 2 ^ 24) :
    AsksLength (modeSelect10List h blockLen long) blockLen ∧
      (longLbaBit (modeSelect10List h blockLen long) = true → long = true ∧ returnsLong raw) ∧
      modeSelect6List h blockLen =
        [0, h.mediumType, 0, 8] ++ (modeSelect10List h blockLen false).drop 8 := by
  refine ⟨asksLength_modeSelect10List h long fits, ?_, modeSelect6List_eq h blockLen⟩
  rw [longLbaBit_modeSelect10List, Bool.and_eq_true]
  exact fun ⟨asked, has⟩ => ⟨asked, returnsLong_of_hasLong parsed has⟩

/-- What a drive of 10 TB returns: the header, and a long descriptor with its count and 512. -/
def longAnswer : List UInt8 :=
  [0, 0x16, 0, 0x10, 1, 0, 0, 16] ++ be 8 19532873728 ++ be 8 512

/-- A drive that returns a long descriptor is asked for 4096 in the long form. -/
theorem longAnswer_asks :
    AsksLength (modeSelect10List ⟨0, 0x10, true, some (be 8 19532873728 ++ be 8 512)⟩ 4096 true)
      4096 :=
  (modeSelect10List_asks longAnswer _ 4096 true (by decide +kernel) (by decide)).1

end Scsi

end StormDrive
