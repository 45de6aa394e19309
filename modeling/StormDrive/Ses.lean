import StormDrive.Bytes.Layout

set_option relaxedAutoImplicit false
set_option autoImplicit false

/-!
# SES pages

The status page of an enclosure (`ses.rs`), read against the types of its configuration page, and
the elements in it.

## Main definitions

* `Status` — the four bytes of an element.
* `Element`, `decodeElement` — what they say, as far as the type allows.
* `parseStatus` — the elements of the page, in order.
* `findSlotElement`, `findEnclosureElement` — the element of a bay, or of the enclosure.

## Main results

* `elementAt_of_parseStatus` — **the element at a position is decoded from the bytes at its
  offset**.

## Implementation notes

The readings of sensors, names and thresholds are no fields of an element, as nothing here looks at
them. A `u32` is a natural number.
-/

namespace StormDrive

namespace Ses

open Bytes

/-! ## Elements -/

def pageConfig : UInt8 := 0x01
def pageStatus : UInt8 := 0x02
def pageAdditional : UInt8 := 0x0A

def etDeviceSlot : UInt8 := 0x01
def etPowerSupply : UInt8 := 0x02
def etCooling : UInt8 := 0x03
def etTemperature : UInt8 := 0x04
def etEscElectronics : UInt8 := 0x07
def etEnclosure : UInt8 := 0x0E
def etVoltage : UInt8 := 0x12
def etCurrent : UInt8 := 0x13
def etArrayDeviceSlot : UInt8 := 0x17
def etSasExpander : UInt8 := 0x18
def etSasConnector : UInt8 := 0x19

/-- A slot of either kind. -/
def isSlot (t : UInt8) : Bool := t = etDeviceSlot || t = etArrayDeviceSlot

/-- The four bytes of an element. -/
structure Status where
  b0 : UInt8
  b1 : UInt8
  b2 : UInt8
  b3 : UInt8
  deriving DecidableEq

namespace Status

/-- The bytes of an element, in order. -/
def bytes (s : Status) : List UInt8 := [s.b0, s.b1, s.b2, s.b3]

/-- The four bytes at an offset. -/
def ofBytes (raw : List UInt8) (off : ℕ) : Status :=
  ⟨raw.getD off 0, raw.getD (off + 1) 0, raw.getD (off + 2) 0, raw.getD (off + 3) 0⟩

end Status

/-- A bit of a byte is set. -/
def isSet (b mask : UInt8) : Bool := b &&& mask ≠ 0

/-- How an element is. -/
inductive ElementStatus
  | unsupported
  | ok
  | critical
  | noncritical
  | unrecoverable
  | notInstalled
  | unknown
  | notAvailable
  | noAccessAllowed
  | reserved
  deriving DecidableEq

def ElementStatus.fromCode (c : UInt8) : ElementStatus :=
  match (c &&& 0x0F).toNat with
  | 0 => .unsupported
  | 1 => .ok
  | 2 => .critical
  | 3 => .noncritical
  | 4 => .unrecoverable
  | 5 => .notInstalled
  | 6 => .unknown
  | 7 => .notAvailable
  | 8 => .noAccessAllowed
  | _ => .reserved

/-- One element of the enclosure. -/
structure Element where
  elementType : UInt8
  /-- Its index within its type. -/
  index : ℕ
  /-- The overall element of the type, whose index means nothing. -/
  overall : Bool
  status : ElementStatus
  predictedFailure : Bool
  disabled : Bool
  swapped : Bool
  ident : Bool := false
  fault : Bool := false
  /-- The bay of a slot. -/
  bay : Option ℕ := none
  /-- What sits in the bay. -/
  sasAddress : Option String := none
  flags : List String := []
  raw : Status
  deriving DecidableEq

/-- The texts of the bits that are set. -/
def flagsOf (bits : List (Bool × String)) : List String := (bits.filter (·.1)).map (·.2)

/-- What the four bytes say of any element. -/
def bareElement (t : UInt8) (index : ℕ) (overall : Bool) (b : Status) : Element where
  elementType := t
  index := index
  overall := overall
  status := .fromCode b.b0
  predictedFailure := isSet b.b0 0x40
  disabled := isSet b.b0 0x20
  swapped := isSet b.b0 0x10
  raw := b

/-- What the four bytes say of an element of a type. -/
def decodeElement (t : UInt8) (index : ℕ) (overall : Bool) (b : Status) : Element :=
  let e := bareElement t index overall b
  if t = etDeviceSlot || t = etArrayDeviceSlot then
    { e with
      ident := isSet b.b2 0x02
      fault := isSet b.b3 0x20 || isSet b.b3 0x40
      bay := if t = etDeviceSlot && !overall then some b.b1.toNat else none
      flags := flagsOf [(isSet b.b2 0x40, "do not remove"), (isSet b.b3 0x10, "device off"),
        (isSet b.b2 0x08, "ready to insert"), (isSet b.b2 0x04, "remove requested"),
        (isSet b.b3 0x0F, "bypassed")] }
  else if t = etPowerSupply then
    { e with
      ident := isSet b.b1 0x80
      fault := isSet b.b3 0x40
      flags := flagsOf [(isSet b.b2 0x08, "dc overvoltage"), (isSet b.b2 0x04, "dc undervoltage"),
        (isSet b.b2 0x02, "dc overcurrent"), (isSet b.b3 0x80, "hot swap"),
        (isSet b.b3 0x10, "off"), (isSet b.b3 0x08, "overtemp failure"),
        (isSet b.b3 0x04, "temp warning"),
        (isSet b.b3 0x02, "ac fail"), (isSet b.b3 0x01, "dc fail")] }
  else if t = etCooling then
    { e with
      ident := isSet b.b1 0x80
      fault := isSet b.b3 0x40
      flags := flagsOf [(isSet b.b3 0x10, "off")] }
  else if t = etTemperature then
    { e with
      ident := isSet b.b1 0x80
      fault := isSet b.b1 0x40
      flags := flagsOf [(isSet b.b3 0x08, "overtemp failure"),
        (isSet b.b3 0x04, "overtemp warning"), (isSet b.b3 0x02, "undertemp failure"),
        (isSet b.b3 0x01, "undertemp warning")] }
  else if t = etVoltage then
    { e with
      ident := isSet b.b1 0x80
      fault := isSet b.b1 0x40
      flags := flagsOf [(isSet b.b1 0x08, "warn over"), (isSet b.b1 0x04, "warn under"),
        (isSet b.b1 0x02, "crit over"), (isSet b.b1 0x01, "crit under")] }
  else if t = etCurrent then
    { e with
      ident := isSet b.b1 0x80
      fault := isSet b.b1 0x40
      flags := flagsOf [(isSet b.b1 0x08, "warn over"), (isSet b.b1 0x02, "crit over")] }
  else if t = etEnclosure then
    { e with
      ident := isSet b.b1 0x80
      fault := isSet b.b2 0x02 || isSet b.b3 0x02
      flags := flagsOf [(isSet b.b2 0x02, "failure indicated"),
        (isSet b.b2 0x01, "warning indicated"), (isSet b.b3 0x02, "failure requested"),
        (isSet b.b3 0x01, "warning requested")] }
  else if t = etEscElectronics || t = etSasExpander || t = etSasConnector then
    { e with
      ident := isSet b.b1 0x80
      fault := isSet b.b3 0x40 }
  else e

/-! ## The status page -/

/-- A type of elements, as the configuration page has it. -/
structure TypeHeader where
  elementType : UInt8
  count : ℕ
  subenclosure : ℕ
  text : String
  deriving DecidableEq

/-- What is kept of the configuration page. -/
structure Configuration where
  generation : ℕ
  logicalId : Option String := none
  vendor : String := ""
  product : String := ""
  revision : String := ""
  types : List TypeHeader := []
  deriving DecidableEq

/-- Which element comes at each position of the status page: its type, its index, and whether it is
the overall element of the type. -/
abbrev Place : Type := UInt8 × ℕ × Bool

/-- The elements of a type: the overall element, then the others. -/
def TypeHeader.places (th : TypeHeader) : List Place :=
  (List.range (th.count + 1)).map fun i => (th.elementType, i - 1, i = 0)

/-- The elements of the enclosure, in the order of its pages. -/
def Configuration.places (cfg : Configuration) : List Place := cfg.types.flatMap TypeHeader.places

/-- The elements from an offset on, as far as the page goes. -/
def readElements (raw : List UInt8) (stop : ℕ) : ℕ → List Place → List Element
  | _, [] => []
  | off, p :: ps =>
    if off + 4 ≤ stop then
      decodeElement p.1 p.2.1 p.2.2 (.ofBytes raw off) :: readElements raw stop (off + 4) ps
    else []

/-- The status page. -/
structure StatusPage where
  generation : ℕ
  invop : Bool
  info : Bool
  noncritical : Bool
  critical : Bool
  unrecoverable : Bool
  elements : List Element

def parseStatus (cfg : Configuration) (raw : List UInt8) : Option StatusPage :=
  if raw.length < 8 || raw.getD 0 0 ≠ pageStatus then none
  else
    let flags := raw.getD 1 0
    let stop := min (ofBe (slice raw 2 2) + 4) raw.length
    some
      { generation := ofBe (slice raw 4 4)
        invop := isSet flags 0x10
        info := isSet flags 0x08
        noncritical := isSet flags 0x04
        critical := isSet flags 0x02
        unrecoverable := isSet flags 0x01
        elements := readElements raw stop 8 cfg.places }

/-- Where the element at a position is in the page. -/
def elementOffset (n : ℕ) : ℕ := 8 + n * 4

/-- The position of the slot with a bay. -/
def findSlotElement (elements : List Element) (bay : ℕ) : Option ℕ :=
  elements.findIdx? fun e => !e.overall && isSlot e.elementType && e.bay = some bay

/-- The position of the enclosure's own element. -/
def findEnclosureElement (elements : List Element) : Option ℕ :=
  (elements.findIdx? fun e => e.elementType = etEnclosure && !e.overall).or
    (elements.findIdx? fun e => e.elementType = etEnclosure)

/-! ## Elements and their places -/

lemma readElements_getElem? {raw : List UInt8} {stop : ℕ} {ps : List Place} {off n : ℕ}
    {e : Element} (h : (readElements raw stop off ps)[n]? = some e) :
    off + n * 4 + 4 ≤ stop ∧ ∃ p, ps[n]? = some p ∧
      e = decodeElement p.1 p.2.1 p.2.2 (.ofBytes raw (off + n * 4)) := by
  induction ps generalizing off n with
  | nil => exact absurd h nofun
  | cons p ps ih =>
    rw [readElements] at h
    split_ifs at h with room
    · cases n with
      | zero => exact ⟨by omega, p, rfl, by rw [Nat.zero_mul]; exact (Option.some.inj h).symm⟩
      | succ n =>
        obtain ⟨within, q, place, same⟩ := ih h
        have back : off + (n + 1) * 4 = off + 4 + n * 4 := by omega
        rw [back]
        exact ⟨within, q, place, same⟩
    · exact absurd h nofun

/-- The type of an element is the one that it was read for. -/
lemma elementType_decodeElement (t : UInt8) (index : ℕ) (overall : Bool) (b : Status) :
    (decodeElement t index overall b).elementType = t := by
  unfold decodeElement
  dsimp only
  split_ifs <;> rfl

lemma overall_decodeElement (t : UInt8) (index : ℕ) (overall : Bool) (b : Status) :
    (decodeElement t index overall b).overall = overall := by
  unfold decodeElement
  dsimp only
  split_ifs <;> rfl

/-- Its bytes are kept. -/
lemma raw_decodeElement (t : UInt8) (index : ℕ) (overall : Bool) (st : Status) :
    (decodeElement t index overall st).raw = st := by
  unfold decodeElement
  dsimp only
  split_ifs <;> rfl

/-- **The element at a position is decoded from the bytes at its offset**, which are in the page. -/
lemma elementAt_of_parseStatus {cfg : Configuration} {raw : List UInt8} {page : StatusPage} {n : ℕ}
    {e : Element} (parsed : parseStatus cfg raw = some page) (h : page.elements[n]? = some e) :
    8 ≤ raw.length ∧ elementOffset n + 4 ≤ raw.length ∧ ∃ p, cfg.places[n]? = some p ∧
      e = decodeElement p.1 p.2.1 p.2.2 (.ofBytes raw (elementOffset n)) := by
  unfold parseStatus at parsed
  split_ifs at parsed with bad
  obtain rfl := Option.some.inj parsed
  obtain ⟨within, p, place, same⟩ := readElements_getElem? h
  rw [Bool.or_eq_true, decide_eq_true_eq, not_or] at bad
  refine ⟨by omega, ?_, p, place, same⟩
  rw [elementOffset]
  omega

end Ses

end StormDrive
