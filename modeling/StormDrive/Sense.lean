import StormDrive.Scsi
import StormDrive.Bytes.Records

set_option relaxedAutoImplicit false
set_option autoImplicit false

/-!
# Sense data

The reader of sense data (`scsi.rs`), which comes in a fixed format and as a list of descriptors.

## Main definitions

* `parseSense` — the reader.
* `SenseData` — what a drive has to say, apart from the format it says it in.
* `FixedFormat`, `DescriptorFormat` — the encodings of it.

## Main results

* `parseSense_same` — **sense data means the same in both formats**, and the reader stays inside
  whatever it is given.
-/

namespace StormDrive

namespace Scsi

open Bytes

/-! ## The reader -/

/-- The field pointer in the sense-key-specific bytes. -/
def FieldPointer.fromSks (a b c : UInt8) : Option FieldPointer :=
  if a &&& 0x80 ≠ 0 then
    some ⟨a &&& 0x40 ≠ 0, if a &&& 0x08 ≠ 0 then some (a &&& 0x07).toNat else none, ofBe [b, c]⟩
  else none

/-- The progress in the sense-key-specific bytes. -/
def progressOf (key : ℕ) (a b c : UInt8) : Option ℕ :=
  if a &&& 0x80 ≠ 0 ∧ (key = 0x0 ∨ key = 0x2) then some (ofBe [b, c]) else none

/-- The fixed format. -/
def parseFixed (raw : List UInt8) : Checked OutOfBounds (Option Sense) :=
  if raw.length < 14 then .ok none
  else do
    let key := ((← index raw 2) &&& 0x0F).toNat
    let asc ← index raw 12
    let ascq ← index raw 13
    if 18 ≤ raw.length then
      let a ← index raw 15
      let b ← index raw 16
      let c ← index raw 17
      return some ⟨key, asc.toNat, ascq.toNat, progressOf key a b c,
        if key = 0x5 then FieldPointer.fromSks a b c else none⟩
    else return some ⟨key, asc.toNat, ascq.toNat, none, none⟩

/-- One descriptor: the progress and the field pointer after it. -/
def senseDescriptor (raw : List UInt8) (key i len : ℕ) (found : Option ℕ × Option FieldPointer) :
    Checked OutOfBounds (ForInStep (Option ℕ × Option FieldPointer)) := do
  let kind ← index raw i
  if kind = 0x02 ∧ 6 ≤ len ∧ i + 2 + len ≤ raw.length then
    let a ← index raw (i + 4)
    let b ← index raw (i + 5)
    let c ← index raw (i + 6)
    return .yield ((progressOf key a b c).or found.1,
      if key = 0x5 then FieldPointer.fromSks a b c else found.2)
  else return .yield found

/-- The descriptor format. -/
def parseDescriptors (raw : List UInt8) : Checked OutOfBounds (Option Sense) :=
  if raw.length < 8 then .ok none
  else do
    let key := ((← index raw 1) &&& 0x0F).toNat
    let asc ← index raw 2
    let ascq ← index raw 3
    let addLen := (← index raw 7).toNat
    let stop := min (8 + addLen) raw.length
    let found ← forRecords 1 raw stop (senseDescriptor raw key) 8 (none, none)
    return some ⟨key, asc.toNat, ascq.toNat, found.1, found.2⟩

/-- The sense data of a drive, in either format. -/
def parseSense (raw : List UInt8) : Checked OutOfBounds (Option Sense) :=
  if raw.isEmpty then .ok none
  else do
    let code := (← index raw 0) &&& 0x7F
    if code = 0x70 ∨ code = 0x71 then parseFixed raw
    else if code = 0x72 ∨ code = 0x73 then parseDescriptors raw
    else return none

/-! ## What is said -/

/-- What a drive has to say: its sense key, the additional code with its qualifier, and the three
sense-key-specific bytes. -/
structure SenseData where
  key : ℕ
  asc : UInt8
  ascq : UInt8
  sks : UInt8 × UInt8 × UInt8
  key_lt : key < 16

namespace SenseData

/-- What it means. -/
def sense (d : SenseData) : Sense where
  key := d.key
  asc := d.asc.toNat
  ascq := d.ascq.toNat
  progress := progressOf d.key d.sks.1 d.sks.2.1 d.sks.2.2
  field := if d.key = 0x5 then FieldPointer.fromSks d.sks.1 d.sks.2.1 d.sks.2.2 else none

end SenseData

/-- Sense data in the fixed format, with whatever else that has room for. -/
structure FixedFormat (d : SenseData) where
  bytes : List UInt8
  long : 18 ≤ bytes.length
  code : bytes.getD 0 0 &&& 0x7F = 0x70 ∨ bytes.getD 0 0 &&& 0x7F = 0x71
  key : (bytes.getD 2 0 &&& 0x0F).toNat = d.key
  asc : bytes.getD 12 0 = d.asc
  ascq : bytes.getD 13 0 = d.ascq
  sks : (bytes.getD 15 0, bytes.getD 16 0, bytes.getD 17 0) = d.sks

/-- The sense-key-specific descriptor, with its reserved bytes. -/
def sksDescriptor (sks reserved : UInt8 × UInt8 × UInt8) : Record 1 where
  head := [0x02]
  data := [reserved.1, reserved.2.1, sks.1, sks.2.1, sks.2.2, reserved.2.2]
  length_head := rfl
  length_data := by
    show 6 < 256
    omega

/-- Sense data in the descriptor format: the header, the sense-key-specific descriptor among others,
and whatever the buffer has behind them. -/
structure DescriptorFormat (d : SenseData) where
  header : List UInt8
  before : List (Record 1)
  after : List (Record 1)
  reserved : UInt8 × UInt8 × UInt8
  behind : List UInt8
  length_header : header.length = 8
  code : header.getD 0 0 &&& 0x7F = 0x72 ∨ header.getD 0 0 &&& 0x7F = 0x73
  key : (header.getD 1 0 &&& 0x0F).toNat = d.key
  asc : header.getD 2 0 = d.asc
  ascq : header.getD 3 0 = d.ascq
  others : ∀ r ∈ before ++ after, r.head ≠ [0x02]
  addLen : (header.getD 7 0).toNat =
    ((before ++ sksDescriptor d.sks reserved :: after).flatMap Record.bytes).length

namespace DescriptorFormat

variable {d : SenseData} (f : DescriptorFormat d)

/-- The descriptors, in order. -/
def descriptors : List (Record 1) := f.before ++ sksDescriptor d.sks f.reserved :: f.after

def bytes : List UInt8 := f.header ++ (f.descriptors.flatMap Record.bytes ++ f.behind)

lemma getD_header {i : ℕ} (h : i < 8) : f.bytes.getD i 0 = f.header.getD i 0 := by
  rw [List.getD_eq_getElem?_getD, List.getD_eq_getElem?_getD, bytes,
    List.getElem?_append_left (by rw [f.length_header]; exact h)]

lemma length_bytes : f.bytes.length =
    8 + (f.descriptors.flatMap Record.bytes).length + f.behind.length := by
  rw [bytes, List.length_append, List.length_append, f.length_header]
  omega

lemma drop_header : f.bytes.drop 8 = f.descriptors.flatMap Record.bytes ++ f.behind :=
  List.drop_left' f.length_header

end DescriptorFormat

/-! ## One format -/

lemma parseFixed_eq {raw : List UInt8} (long : 18 ≤ raw.length) : parseFixed raw =
    .ok (some ⟨(raw.getD 2 0 &&& 0x0F).toNat, (raw.getD 12 0).toNat, (raw.getD 13 0).toNat,
      progressOf (raw.getD 2 0 &&& 0x0F).toNat (raw.getD 15 0) (raw.getD 16 0) (raw.getD 17 0),
      if (raw.getD 2 0 &&& 0x0F).toNat = 0x5 then
        FieldPointer.fromSks (raw.getD 15 0) (raw.getD 16 0) (raw.getD 17 0)
      else none⟩) := by
  rw [parseFixed, if_neg (by omega), index_eq (by omega) 0, Checked.ok_bind,
    index_eq (by omega) 0, Checked.ok_bind, index_eq (by omega) 0, Checked.ok_bind,
    if_pos long, index_eq (by omega) 0, Checked.ok_bind, index_eq (by omega) 0, Checked.ok_bind,
    index_eq (by omega) 0, Checked.ok_bind]
  rfl

/-- The fixed format says what the drive has to say. -/
lemma parseSense_fixed {d : SenseData} (f : FixedFormat d) :
    parseSense f.bytes = .ok (some d.sense) := by
  have long := f.long
  have some : f.bytes.isEmpty = false := by
    rw [List.isEmpty_eq_false_iff, ← List.length_pos_iff]
    omega
  have first : f.bytes.getD 15 0 = d.sks.1 := congrArg (·.1) f.sks
  have second : f.bytes.getD 16 0 = d.sks.2.1 := congrArg (·.2.1) f.sks
  have third : f.bytes.getD 17 0 = d.sks.2.2 := congrArg (·.2.2) f.sks
  rw [parseSense, some, index_eq (by omega) 0]
  simp only [Bool.false_eq_true, if_false]
  rw [Checked.ok_bind, if_pos f.code, parseFixed_eq long, f.key, f.asc, f.ascq, first, second,
    third]
  rfl

/-- What a descriptor adds. -/
def afterDescriptor (raw : List UInt8) (key : ℕ) (found : Option ℕ × Option FieldPointer)
    (r : ℕ × ℕ) : Option ℕ × Option FieldPointer :=
  let a := raw.getD (r.1 + 4) 0
  let b := raw.getD (r.1 + 5) 0
  let c := raw.getD (r.1 + 6) 0
  if raw.getD r.1 0 = 0x02 ∧ 6 ≤ r.2 ∧ r.1 + 2 + r.2 ≤ raw.length then
    ((progressOf key a b c).or found.1,
      if key = 0x5 then FieldPointer.fromSks a b c else found.2)
  else found

/-- A descriptor whose header is there is read without leaving the buffer. -/
lemma senseDescriptor_eq {raw : List UInt8} {r : ℕ × ℕ} (key : ℕ) (h : r.1 < raw.length)
    (found : Option ℕ × Option FieldPointer) :
    senseDescriptor raw key r.1 r.2 found = .ok (.yield (afterDescriptor raw key found r)) := by
  rw [senseDescriptor, index_eq h 0, Checked.ok_bind, afterDescriptor]
  by_cases sks : raw.getD r.1 0 = 0x02 ∧ 6 ≤ r.2 ∧ r.1 + 2 + r.2 ≤ raw.length
  · rw [if_pos sks, if_pos sks, index_eq (by omega) 0, Checked.ok_bind, index_eq (by omega) 0,
      Checked.ok_bind, index_eq (by omega) 0, Checked.ok_bind]
    rfl
  · rw [if_neg sks, if_neg sks]
    rfl

/-- The walk of the descriptors ends, inside the buffer. -/
lemma forRecords_senseDescriptor {raw : List UInt8} {stop : ℕ} (key : ℕ)
    (fits : stop ≤ raw.length) :
    forRecords 1 raw stop (senseDescriptor raw key) 8 (none, none) =
      .ok ((recordsAt 1 raw stop 8).foldl (afterDescriptor raw key) (none, none)) := by
  rw [forRecords_eq fits]
  refine forIn_eq_foldl (fun r mem found => ?_) _
  have before := lt_of_mem_recordsAt mem
  exact senseDescriptor_eq key (by omega) found

lemma parseDescriptors_eq {raw : List UInt8} (long : 8 ≤ raw.length) : parseDescriptors raw =
    .ok (some (let key := (raw.getD 1 0 &&& 0x0F).toNat
      let found := (recordsAt 1 raw (min (8 + (raw.getD 7 0).toNat) raw.length) 8).foldl
        (afterDescriptor raw key) (none, none)
      ⟨key, (raw.getD 2 0).toNat, (raw.getD 3 0).toNat, found.1, found.2⟩)) := by
  rw [parseDescriptors, if_neg (by omega), index_eq (by omega) 0, Checked.ok_bind,
    index_eq (by omega) 0, Checked.ok_bind, index_eq (by omega) 0, Checked.ok_bind,
    index_eq (by omega) 0, Checked.ok_bind]
  dsimp only
  rw [forRecords_senseDescriptor _ (Nat.min_le_right ..)]
  rfl

/-- Other descriptors add nothing. -/
lemma foldl_others {raw : List UInt8} {key off : ℕ} {rs : List (Record 1)} {rest : List UInt8}
    (written : raw.drop off = rs.flatMap Record.bytes ++ rest)
    (others : ∀ r ∈ rs, r.head ≠ [0x02]) (found : Option ℕ × Option FieldPointer) :
    (layout off rs).foldl (afterDescriptor raw key) found = found := by
  induction rs generalizing off with
  | nil => rfl
  | cons r rs ih =>
    rw [List.flatMap_cons, List.append_assoc] at written
    have kind : raw.getD off 0 = r.head.getD 0 0 := by
      rw [← Nat.add_zero off, getD_of_drop written, r.getD_head _ Nat.one_pos]
    have other : raw.getD off 0 ≠ 0x02 := by
      obtain ⟨head, one⟩ := List.length_eq_one_iff.mp r.length_head
      intro same
      refine others r (List.mem_cons_self ..) ?_
      rw [kind, one] at same
      rw [one]
      exact congrArg (fun b : UInt8 => [b]) same
    have none : afterDescriptor raw key found (off, r.data.length) = found := by
      rw [afterDescriptor, if_neg (fun h => other h.1)]
    rw [layout, List.foldl_cons, none]
    exact ih (drop_of_drop written) fun r h => others r (List.mem_cons_of_mem _ h)

/-- The sense-key-specific descriptor adds what its bytes say. -/
lemma afterDescriptor_sks {raw : List UInt8} {key off : ℕ} {sks reserved : UInt8 × UInt8 × UInt8}
    {rest : List UInt8} (written : raw.drop off = (sksDescriptor sks reserved).bytes ++ rest) :
    afterDescriptor raw key (none, none) (off, (sksDescriptor sks reserved).data.length) =
      (progressOf key sks.1 sks.2.1 sks.2.2,
        if key = 0x5 then FieldPointer.fromSks sks.1 sks.2.1 sks.2.2 else none) := by
  have kind : raw.getD off 0 = 0x02 := by rw [← Nat.add_zero off, getD_of_drop written]; rfl
  have first : raw.getD (off + 4) 0 = sks.1 := by rw [getD_of_drop written]; rfl
  have second : raw.getD (off + 5) 0 = sks.2.1 := by rw [getD_of_drop written]; rfl
  have third : raw.getD (off + 6) 0 = sks.2.2 := by rw [getD_of_drop written]; rfl
  have six : (sksDescriptor sks reserved).data.length = 6 := rfl
  have long : off + 8 ≤ raw.length := by
    have length := congrArg List.length written
    rw [List.length_drop, List.length_append, Record.length_bytes, Record.size, six] at length
    omega
  rw [afterDescriptor, kind, first, second, third, six,
    if_pos ⟨rfl, Nat.le_refl _, by dsimp only; omega⟩, Option.or_none]

/-- The descriptors say what the drive has to say, at whatever position the one is that says it. -/
lemma foldl_descriptors {d : SenseData} (f : DescriptorFormat d) :
    (layout 8 f.descriptors).foldl (afterDescriptor f.bytes d.key) (none, none) =
      (d.sense.progress, d.sense.field) := by
  have start := f.drop_header
  rw [DescriptorFormat.descriptors, List.flatMap_append, List.append_assoc] at start
  have middle : f.bytes.drop (8 + (f.before.flatMap Record.bytes).length) =
      (sksDescriptor d.sks f.reserved).bytes ++ (f.after.flatMap Record.bytes ++ f.behind) := by
    rw [← List.drop_drop, start, List.drop_left' rfl, List.flatMap_cons, List.append_assoc]
  rw [DescriptorFormat.descriptors, layout_append, List.foldl_append,
    foldl_others start (fun r h => f.others r (List.mem_append_left _ h)), layout, List.foldl_cons,
    afterDescriptor_sks middle,
    foldl_others (drop_of_drop middle) fun r h => f.others r (List.mem_append_right _ h)]
  rfl

/-- The descriptor format says what the drive has to say. -/
lemma parseSense_descriptor {d : SenseData} (f : DescriptorFormat d) :
    parseSense f.bytes = .ok (some d.sense) := by
  have long := f.length_bytes
  have some : f.bytes.isEmpty = false := by
    rw [List.isEmpty_eq_false_iff, ← List.length_pos_iff]
    omega
  have fixed : ¬ (f.bytes.getD 0 0 &&& 0x7F = 0x70 ∨ f.bytes.getD 0 0 &&& 0x7F = 0x71) := by
    rw [f.getD_header (by omega)]
    obtain code | code := f.code <;> rw [code] <;> decide
  have code : f.bytes.getD 0 0 &&& 0x7F = 0x72 ∨ f.bytes.getD 0 0 &&& 0x7F = 0x73 := by
    rw [f.getD_header (by omega)]
    exact f.code
  have stop : min (8 + (f.bytes.getD 7 0).toNat) f.bytes.length =
      8 + (f.descriptors.flatMap Record.bytes).length := by
    rw [f.getD_header (by omega), f.addLen, DescriptorFormat.descriptors, Nat.min_eq_left]
    rw [long, DescriptorFormat.descriptors]
    omega
  have key : (f.bytes.getD 1 0 &&& 0x0F).toNat = d.key := by
    rw [f.getD_header (by omega), f.key]
  rw [parseSense, some, index_eq (by omega) 0]
  simp only [Bool.false_eq_true, if_false]
  rw [Checked.ok_bind, if_neg fixed, if_pos code, parseDescriptors_eq (by omega)]
  dsimp only
  rw [stop, recordsAt_flatMap f.drop_header rfl, key, foldl_descriptors, f.getD_header (by omega),
    f.getD_header (by omega), f.asc, f.ascq]
  rfl

/-! ## Both formats -/

/-- Whatever it is given, the reader ends and stays inside. -/
lemma reads_parseSense (raw : List UInt8) : Reads (parseSense raw) := by
  unfold parseSense
  split_ifs with empty
  · exact reads_ok _
  · have some : 0 < raw.length := List.length_pos_iff.mpr (by simpa using empty)
    rw [index_eq some 0, Checked.ok_bind]
    dsimp only
    split_ifs with fixed descriptors
    · by_cases long : 18 ≤ raw.length
      · exact ⟨_, parseFixed_eq long⟩
      · unfold parseFixed
        split_ifs with short
        · exact reads_ok _
        · rw [index_eq (by omega) 0, Checked.ok_bind, index_eq (by omega) 0, Checked.ok_bind,
            index_eq (by omega) 0, Checked.ok_bind]
          exact reads_ok _
    · by_cases long : 8 ≤ raw.length
      · exact ⟨_, parseDescriptors_eq long⟩
      · rw [parseDescriptors, if_pos (by omega)]
        exact reads_ok _
    · exact reads_ok _

/-- **Sense data means the same in both formats**: what the drive has to say, whatever else the
fixed format holds, and wherever the sense-key-specific descriptor is among others; and whatever it
is given, the reader ends and stays inside.

**Proof sketch.** In the descriptor format the walk meets the descriptors that were written. Those
of another kind leave what was found, so that before the one that counts nothing is found, and what
it gives is kept to the end. -/
theorem parseSense_same (d : SenseData) (fixed : FixedFormat d) (descriptors : DescriptorFormat d) :
    parseSense fixed.bytes = parseSense descriptors.bytes ∧
      parseSense fixed.bytes = .ok (some d.sense) ∧ ∀ raw, Reads (parseSense raw) := by
  refine ⟨?_, parseSense_fixed fixed, reads_parseSense⟩
  rw [parseSense_fixed, parseSense_descriptor]

/-- A drive that formats, with an information descriptor before the one with its progress. -/
example : DescriptorFormat ⟨0x2, 0x04, 0x04, (0x80, 0x40, 0x00), by decide⟩ where
  header := [0x72, 0x02, 0x04, 0x04, 0, 0, 0, 20]
  before := [⟨[0x00], 0x80 :: List.replicate 9 0, rfl, by decide⟩]
  after := []
  reserved := (0, 0, 0)
  behind := []
  length_header := rfl
  code := .inl rfl
  key := rfl
  asc := rfl
  ascq := rfl
  others := by simp
  addLen := rfl

end Scsi

end StormDrive
