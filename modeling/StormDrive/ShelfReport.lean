import StormDrive.Ses
import StormDrive.Drive
import StormDrive.OrderedMap

set_option relaxedAutoImplicit false
set_option autoImplicit false

/-!
# The report of a shelf

What one enclosure says in three pages, put together (`ses.rs`): the configuration page, the status
page, and the additional page, which has the SAS address and the number of each slot.

## Main definitions

* `parseConfiguration` — the types of elements, in page order.
* `parseAdditional` — the slots that the additional page describes.
* `assemble` — the report: each element with its bay, and the addresses of each bay.
* `ShelfReport.bayOf` — the bay of an address.

## Implementation notes

The pages with names, thresholds and a help text change nothing of what is looked at here, and are
left out with the fields that they fill. A `u32` is a natural number, and a `BTreeMap` a list in the
order of its keys.
-/

namespace StormDrive

namespace Ses

open Bytes

/-! ## Text in pages -/

/-- A byte goes on a character. -/
def isContinuation (b : UInt8) : Bool := 0x80 ≤ b && b ≤ 0xBF

/-- How many bytes the character has that begins with a byte; 0 if none does. -/
def utf8Width (lead : UInt8) : ℕ :=
  if lead < 0x80 then 1
  else if 0xC2 ≤ lead && lead ≤ 0xDF then 2
  else if 0xE0 ≤ lead && lead ≤ 0xEF then 3
  else if 0xF0 ≤ lead && lead ≤ 0xF4 then 4
  else 0

/-- A byte may come second: no character is written longer than it has to be, none is a surrogate,
and none is past the last one. -/
def isSecond (lead b : UInt8) : Bool :=
  if lead = 0xE0 then 0xA0 ≤ b && b ≤ 0xBF
  else if lead = 0xED then 0x80 ≤ b && b ≤ 0x9F
  else if lead = 0xF0 then 0x90 ≤ b && b ≤ 0xBF
  else if lead = 0xF4 then 0x80 ≤ b && b ≤ 0x8F
  else isContinuation b

/-- How many bytes behind the first are of the same character, whole or not. -/
def utf8Behind (lead : UInt8) : List UInt8 → ℕ
  | [] => 0
  | second :: rest =>
    if 2 ≤ utf8Width lead && isSecond lead second then
      1 + ((rest.takeWhile isContinuation).take (utf8Width lead - 2)).length
    else 0

/-- The code point that bytes give. -/
def utf8Value (lead : UInt8) (behind : List UInt8) : ℕ :=
  let first := match utf8Width lead with
    | 2 => lead.toNat % 0x20
    | 3 => lead.toNat % 0x10
    | 4 => lead.toNat % 0x08
    | _ => lead.toNat
  behind.foldl (fun v b => v * 0x40 + b.toNat % 0x40) first

/-- The characters of bytes, with a replacement character for each run that is none. -/
def fromUtf8Lossy : List UInt8 → List Char
  | [] => []
  | lead :: rest =>
    let behind := utf8Behind lead rest
    (if behind + 1 = utf8Width lead then Char.ofNat (utf8Value lead (rest.take behind))
      else Char.ofNat 0xFFFD) :: fromUtf8Lossy (rest.drop behind)
termination_by b => b.length
decreasing_by
  simp only [List.length_drop, List.length_cons]
  omega

/-- A text field of a page. -/
def textOf (b : List UInt8) : String := Text.trim (String.ofList (fromUtf8Lossy b))

/-- The two digits of a byte. -/
def hexByte (b : UInt8) : List Char := [Uuid.hexDigit (b.toNat / 16), Uuid.hexDigit (b.toNat % 16)]

/-- Bytes in lower-case hexadecimal digits. -/
def hexText (b : List UInt8) : String := String.ofList (b.flatMap hexByte)

/-! ## The configuration page -/

/-- What the first enclosure descriptor says of the enclosure. -/
def Configuration.identified (cfg : Configuration) (d : List UInt8) : Configuration :=
  { cfg with
    logicalId := if (slice d 0 8).any (· ≠ 0) then some (hexText (slice d 0 8)) else cfg.logicalId
    vendor := textOf (slice d 8 8)
    product := textOf (slice d 16 16)
    revision := textOf (slice d 32 4) }

/-- One enclosure descriptor: the offset goes past it, and its types are counted. -/
def readEnclosure (raw : List UInt8) (s : ℕ × ℕ × Configuration) (i : ℕ) :
    Option (ℕ × ℕ × Configuration) :=
  let off := s.1
  if raw.length < off + 4 then none
  else
    let nTypes := (raw.getD (off + 2) 0).toNat
    let descLen := (raw.getD (off + 3) 0).toNat
    let cfg :=
      if i = 0 && 36 ≤ descLen && off + 4 + descLen ≤ raw.length then
        s.2.2.identified (slice raw (off + 4) descLen)
      else s.2.2
    some (off + 4 + descLen, s.2.1 + nTypes, cfg)

/-- A type descriptor header, with the length of its text. -/
structure RawHeader where
  elementType : UInt8
  count : UInt8
  subenclosure : UInt8
  textLen : ℕ

/-- The type descriptor headers. -/
def readHeaders (raw : List UInt8) : ℕ → ℕ → Option (List RawHeader)
  | 0, _ => some []
  | n + 1, off =>
    if raw.length < off + 4 then none
    else
      (readHeaders raw n (off + 4)).map fun headers =>
        ⟨raw.getD off 0, raw.getD (off + 1) 0, raw.getD (off + 2) 0,
          (raw.getD (off + 3) 0).toNat⟩ :: headers

/-- The types, with their texts. -/
def readTexts (raw : List UInt8) : ℕ → List RawHeader → List TypeHeader
  | _, [] => []
  | off, h :: headers =>
    { elementType := h.elementType
      count := h.count.toNat
      subenclosure := h.subenclosure.toNat
      text :=
        if 0 < h.textLen && off + h.textLen ≤ raw.length then textOf (slice raw off h.textLen)
        else "" } :: readTexts raw (off + h.textLen) headers

def parseConfiguration (raw : List UInt8) : Option Configuration :=
  if raw.length < 8 || raw.getD 0 0 ≠ pageConfig then none
  else
    let secondaries := (raw.getD 1 0).toNat
    let start : Configuration := { generation := ofBe (slice raw 4 4) }
    ((List.range (secondaries + 1)).foldlM (readEnclosure raw) (8, 0, start)).bind fun s =>
      (readHeaders raw s.2.1 s.1).map fun headers =>
        { s.2.2 with types := readTexts raw (s.1 + s.2.1 * 4) headers }

/-! ## The additional page -/

/-- A slot, as the additional page describes it. -/
structure SlotAddress where
  elementIndex : Option UInt8
  bay : Option ℕ
  /-- The addresses of the phys of the device in it. -/
  sasAddresses : List String
  deriving DecidableEq

/-- The addresses of phys one behind the other, as far as the descriptor goes. -/
def phyAddresses (raw : List UInt8) (stop : ℕ) : ℕ → ℕ → List String
  | 0, _ => []
  | n + 1, p =>
    if stop < p + 28 then []
    else
      let sas := slice raw (p + 12) 8
      (if sas.any (· ≠ 0) then [hexText sas] else []) ++ phyAddresses raw stop n (p + 28)

/-- The slot of a descriptor, from where its index is past. -/
def slotAddressAt (raw : List UInt8) (bodyEnd p : ℕ) (eip : Bool) (elementIndex : Option UInt8) :
    Option SlotAddress :=
  if p + 4 ≤ bodyEnd then
    let nPhys := (raw.getD p 0).toNat
    if raw.getD (p + 1) 0 >>> 6 = 0 then
      some ⟨elementIndex, if eip then some (raw.getD (p + 3) 0).toNat else none,
        phyAddresses raw bodyEnd nPhys (p + 4)⟩
    else none
  else none

/-- What the descriptor at an offset gives; none where the walk stops. -/
def descriptorAt (raw : List UInt8) (stop off : ℕ) : Option (Option SlotAddress) :=
  let b0 := raw.getD off 0
  let dlen := (raw.getD (off + 1) 0).toNat
  let eip := isSet b0 0x10
  let bodyStart := off + 2
  let bodyEnd := min (bodyStart + dlen) stop
  if !isSet b0 0x80 && b0 &&& 0x0F = 0x06 && bodyStart < bodyEnd then
    if eip then
      if bodyEnd < bodyStart + 2 then none
      else
        some (slotAddressAt raw bodyEnd (bodyStart + 2) eip (some (raw.getD (bodyStart + 1) 0)))
    else some (slotAddressAt raw bodyEnd bodyStart eip none)
  else some none

/-- The slots of the descriptors from an offset on. -/
def additionalFrom (raw : List UInt8) (stop off : ℕ) : List SlotAddress :=
  if off + 2 ≤ stop then
    match descriptorAt raw stop off with
    | none => []
    | some found =>
      found.toList ++
        if raw.getD (off + 1) 0 = 0 then []
        else additionalFrom raw stop (off + 2 + (raw.getD (off + 1) 0).toNat)
  else []
termination_by stop - off

def parseAdditional (raw : List UInt8) : List SlotAddress :=
  if raw.length < 8 || raw.getD 0 0 ≠ pageAdditional then []
  else additionalFrom raw (min (ofBe (slice raw 2 2) + 4) raw.length) 8

/-! ## The report -/

/-- One SES processor of a shelf. -/
structure EspPath where
  scsiId : String
  serial : Option String
  deriving DecidableEq

/-- The pages that an enclosure answers with. -/
structure RawPages where
  config : List UInt8
  status : List UInt8
  additional : Option (List UInt8)

/-- What is known about a shelf. -/
structure ShelfReport where
  key : String
  esps : List EspPath
  generation : ℕ
  critical : Bool
  noncritical : Bool
  unrecoverable : Bool
  info : Bool
  elements : List Element
  /-- The addresses that are seen in each bay. -/
  slots : List (ℕ × List String)

/-- An array device slot has no number in its status: it is numbered by its index. -/
def Element.numbered (e : Element) : Element :=
  if e.elementType = etArrayDeviceSlot && !e.overall && e.bay.isNone then
    { e with bay := some e.index }
  else e

/-- A single slot, of either kind. -/
def Element.isSingleSlot (e : Element) : Bool := !e.overall && isSlot e.elementType

/-- The positions of the elements that a predicate takes. -/
def positions {α : Type} (p : α → Bool) (l : List α) : List ℕ :=
  (l.zipIdx.filter fun x => p x.1).map (·.2)

/-- The element that a descriptor is about: the one of its index if that is a slot, else the slot
that comes as late among the slots. -/
def positionOf (slotPositions individuals : List ℕ) (elements : List Element) (n : ℕ)
    (sa : SlotAddress) : Option ℕ :=
  ((sa.elementIndex.bind fun ei => individuals[ei.toNat]?).filter fun p =>
    (elements[p]?).any fun e => isSlot e.elementType).or slotPositions[n]?

/-- One descriptor, put to its element and to the bays. -/
def joinOne (slotPositions individuals : List ℕ) (s : List Element × List (ℕ × List String))
    (x : SlotAddress × ℕ) : List Element × List (ℕ × List String) :=
  let sa := x.1
  match positionOf slotPositions individuals s.1 x.2 sa with
  | none => s
  | some p =>
    let elements := match sa.bay with
      | some b => s.1.modify p fun e => { e with bay := some b }
      | none => s.1
    let bay := ((elements[p]?).bind (·.bay)).getD x.2
    let elements := match sa.sasAddresses.head? with
      | some a => elements.modify p fun e => { e with sasAddress := some a }
      | none => elements
    (elements,
      if sa.sasAddresses = [] then s.2 else OrderedMap.insert bay sa.sasAddresses s.2)

/-- All descriptors, put to the elements. -/
def joinAll (elements : List Element) (addrs : List SlotAddress) :
    List Element × List (ℕ × List String) :=
  addrs.zipIdx.foldl
    (joinOne (positions Element.isSingleSlot elements) (positions (fun e => !e.overall) elements))
    (elements, [])

def assemble (esps : List EspPath) (pages : RawPages) : Option ShelfReport :=
  (parseConfiguration pages.config).bind fun cfg =>
    (parseStatus cfg pages.status).bind fun status =>
      let elements := status.elements.map Element.numbered
      let joined := match pages.additional with
        | some a => joinAll elements (parseAdditional a)
        | none => (elements, [])
      let first := esps.head?
      ((cfg.logicalId.or (first.bind (·.serial))).or (first.map (·.scsiId))).map fun key =>
        { key := key
          esps := esps
          generation := status.generation
          critical := status.critical
          noncritical := status.noncritical
          unrecoverable := status.unrecoverable
          info := status.info
          elements := joined.1
          slots := joined.2 }

/-- A text without the prefixes of a zero and a letter. -/
def trimStartMatches (letter : Char) : List Char → List Char
  | a :: b :: rest =>
    if a = '0' && b = letter then trimStartMatches letter rest else a :: b :: rest
  | cs => cs

def normalizeSas (s : String) : String :=
  String.ofList
    ((trimStartMatches 'X' (trimStartMatches 'x' (Text.trim s).toList)).map Char.toLower)

def ShelfReport.bayOf (rep : ShelfReport) (sasAddress : String) : Option ℕ :=
  let want := normalizeSas sasAddress
  (rep.slots.find? fun x => x.2.contains want).map (·.1)

end Ses

end StormDrive
