import Mathlib.Data.Rat.Defs
import StormDrive.Discovery
import StormDrive.SesControl
import StormDrive.SesReads

set_option relaxedAutoImplicit false
set_option autoImplicit false

/-!
# A shelf from all its pages

The report of a shelf with all pages (`assemble` of `ses.rs`): names, attributes and thresholds of
the elements, their bays, the shelf itself and its position.

## Main definitions

* `SesReads.assemble` — the report, where a look outside a page or a list stops the program.
* `SesReads.SafeToRead` — what is promised for all pages.

## Main results

* `SesReads.assemble_eq` — it comes to an answer, that of the three pages with the rest beside it.
* `SesReads.safeToRead` — **the pages of every enclosure are safe to read**, and so is what is
  written back: every element is inside the status page that a control page is made of.

## Implementation notes

A threshold is a rational number. The time of the report is left out.
-/

namespace StormDrive

namespace SesReads

open Bytes Ses

/-! ## Elements with all that is known -/

/-- The limits of a sensor. -/
structure Thresholds where
  unit : String
  highCritical : Option ℚ
  highWarning : Option ℚ
  lowWarning : Option ℚ
  lowCritical : Option ℚ
  deriving DecidableEq

/-- The limits that four bytes are for a type of sensors. -/
def decodeThresholds (elementType : UInt8) (b : Status) : Option Thresholds :=
  let limits (unit : String) (f : ℕ → ℚ) : Option Thresholds :=
    let limit (v : UInt8) : Option ℚ := if v = 0 then none else some (f v.toNat)
    if b = ⟨0, 0, 0, 0⟩ then none
    else some ⟨unit, limit b.b0, limit b.b1, limit b.b2, limit b.b3⟩
  if elementType = etTemperature then limits "°C" fun v => v - 20
  else if elementType = etVoltage || elementType = etCurrent then
    limits "% of nominal" fun v => v / 2
  else none

/-- An element with its names and limits. -/
structure Element extends Ses.Element where
  typeName : String
  name : Option String := none
  attributes : List (String × String) := []
  thresholds : Option Thresholds := none

def elementTypeName (t : UInt8) : String :=
  (["unspecified", "device slot", "power supply", "cooling", "temperature", "door",
    "audible alarm", "esc electronics", "scc electronics", "nonvolatile cache",
    "invalid operation reason", "uninterruptible power supply", "display", "key pad", "enclosure",
    "scsi port/transceiver", "language", "communication port", "voltage", "current",
    "scsi target port", "scsi initiator port", "simple subenclosure", "array device slot",
    "sas expander", "sas connector"][t.toNat]?).getD "vendor specific"

/-- A vendor's own types. -/
def vendorTypeName (vendor : String) (t : UInt8) : Option String :=
  if vendor = "NETAPP" && t = 0x83 then some "iom expander"
  else if vendor = "NETAPP" && t = 0x85 then some "iom ethernet"
  else none

/-- One `K=V` of a descriptor, put to the others. -/
def addAttribute (out : List (String × String)) (part : List Char) : List (String × String) :=
  match splitOnce '=' part with
  | none => out
  | some (k, v) =>
    let k := Text.trim (String.ofList k)
    let v := Text.trim (String.ofList v)
    if k ≠ "" && v ≠ "" then OrderedMap.insert k v out else out

/-- The attributes in a text of the form `K=V;K=V`. -/
def parseAttributes (text : String) : List (String × String) :=
  if !text.toList.contains '=' || !text.toList.contains ';' then []
  else (text.toList.splitOn ';').foldl addAttribute []

/-- The elements put together with what a page has for each, as far as the shorter goes. -/
def updateZip {β : Type} (f : Element → β → Element) : List Element → List β → List Element
  | e :: es, b :: bs => f e b :: updateZip f es bs
  | es, _ => es

def Element.named (e : Element) (name : Option String) : Element :=
  { e with
    attributes := match name with
      | some n => parseAttributes n
      | none => e.attributes
    name := name }

def Element.limited (e : Element) (b : Status) : Element :=
  if !e.overall then { e with thresholds := decodeThresholds e.elementType b } else e

/-- The type as the vendor calls it. -/
def Element.called (vendor : String) (e : Element) : Element :=
  match vendorTypeName vendor e.elementType with
  | some n => { e with typeName := n }
  | none => e

/-- An array device slot has no number in its status: it is numbered by its index. -/
def Element.numbered (e : Element) : Element := { e with toElement := e.toElement.numbered }

/-! ## Where a shelf is -/

/-- The large front shelf of a server. -/
def knownBackplane (identity : String) : Bool :=
  Text.startsWith identity "DP BP" || Text.startsWith identity "DELL BP"

def positionInEnclosure (behindExpander : Bool) (bayName identity : String) : Position :=
  if behindExpander && !knownBackplane identity then .external
  else
    let words := bayName ++ " " ++ identity
    if ["rear", "Rear", "REAR"].any (Text.contains words) then .rear
    else if ["internal", "Internal", "INTERNAL", "M.2", "BOSS"].any (Text.contains words) then
      .internal
    else .front

/-- The elements of a type but the overall one. -/
def individual (elements : List Element) (t : UInt8) : List Element :=
  elements.filter fun e => e.elementType = t && !e.overall

/-- The position that all named slots agree on, else that of the enclosure's name. -/
def reportPosition (behind : Bool) (elements : List Element) (identity : String) : Position :=
  let slots := individual elements etArrayDeviceSlot ++ individual elements etDeviceSlot
  let named := (slots.filterMap (·.name)).map fun n => positionInEnclosure behind n identity
  let byEnclosure := positionInEnclosure behind
    (((individual elements etEnclosure).findSome? (·.name)).getD "") identity
  match named with
  | [] => byEnclosure
  | first :: rest => if rest.all (· = first) then first else byEnclosure

/-! ## The report -/

/-- One SES processor of a shelf. -/
structure EspPath extends Ses.EspPath where
  sasAddress : Option String
  behindExpander : Bool

/-- The pages that an enclosure answers with. -/
structure RawPages extends Ses.RawPages where
  descriptors : Option (List UInt8)
  help : Option (List UInt8)
  thresholds : Option (List UInt8)

/-- What is known about a shelf. -/
structure ShelfReport where
  key : String
  shelf : Shelf
  esps : List EspPath
  generation : ℕ
  critical : Bool
  noncritical : Bool
  unrecoverable : Bool
  info : Bool
  elements : List Element
  slots : List (ℕ × List String)
  helpText : Option String
  statusRaw : List UInt8

/-- The element that a descriptor is about: the one of its index if that is a slot, else the slot
that comes as late among the slots. -/
def positionOf (slotPositions individuals : List ℕ) (elements : List Element) (n : ℕ)
    (sa : SlotAddress) : Checked OutOfBounds (Option ℕ) :=
  match sa.elementIndex.bind fun ei => individuals[ei.toNat]? with
  | none => .ok slotPositions[n]?
  | some p => do
    let e ← index elements p
    return if isSlot e.elementType then some p else slotPositions[n]?

/-- The element at a position is changed. -/
def change (elements : List Element) (p : ℕ) (f : Ses.Element → Ses.Element) :
    Checked OutOfBounds (List Element) := do
  let _ ← index elements p
  return elements.modify p fun e => { e with toElement := f e.toElement }

/-- The bay that a descriptor has goes to its element. -/
def setBay (sa : SlotAddress) (elements : List Element) (p : ℕ) :
    Checked OutOfBounds (List Element) :=
  match sa.bay with
  | some b => change elements p fun e => { e with bay := some b }
  | none => .ok elements

/-- And so does its first address. -/
def setAddress (sa : SlotAddress) (elements : List Element) (p : ℕ) :
    Checked OutOfBounds (List Element) :=
  match sa.sasAddresses.head? with
  | some a => change elements p fun e => { e with sasAddress := some a }
  | none => .ok elements

/-- One descriptor, put to its element and to the bays. -/
def joinOne (slotPositions individuals : List ℕ) (s : List Element × List (ℕ × List String))
    (x : SlotAddress × ℕ) : Checked OutOfBounds (List Element × List (ℕ × List String)) := do
  let sa := x.1
  match ← positionOf slotPositions individuals s.1 x.2 sa with
  | none => return s
  | some p =>
    let elements ← setBay sa s.1 p
    let bay := (← index elements p).bay.getD x.2
    let elements ← setAddress sa elements p
    return (elements,
      if sa.sasAddresses = [] then s.2 else OrderedMap.insert bay sa.sasAddresses s.2)

/-- All descriptors, put to the elements. -/
def joinAll (elements : List Element) (addrs : List SlotAddress) :
    Checked OutOfBounds (List Element × List (ℕ × List String)) :=
  addrs.zipIdx.foldlM
    (joinOne (positions (fun e => !e.overall && isSlot e.elementType) elements)
      (positions (fun e => !e.overall) elements))
    (elements, [])

/-- The elements with their names. -/
def withNames (cfg : Configuration) (page : Option (List UInt8)) (elements : List Element) :
    Checked OutOfBounds (List Element) :=
  match page with
  | none => .ok elements
  | some d => do return updateZip Element.named elements (← parseDescriptors cfg d)

/-- The elements with their limits. -/
def withThresholds (cfg : Configuration) (page : Option (List UInt8)) (elements : List Element) :
    Checked OutOfBounds (List Element) :=
  match page with
  | none => .ok elements
  | some t => do return updateZip Element.limited elements (← parseThresholds cfg t)

/-- The elements with their bays, and the addresses of each bay. -/
def withSlots (page : Option (List UInt8)) (elements : List Element) :
    Checked OutOfBounds (List Element × List (ℕ × List String)) :=
  match page with
  | none => .ok (elements, [])
  | some a => do joinAll elements (← parseAdditional a)

def helpOf (page : Option (List UInt8)) : Checked OutOfBounds (Option String) :=
  match page with
  | none => .ok none
  | some h => parseHelpText h

/-- The shelf that a report is about. -/
def shelfOf (cfg : Configuration) (esps : List EspPath) (sysfsId : Option String)
    (elements : List Element) : Shelf :=
  let first := esps.head?
  let identity := Text.join " " ([Text.trim cfg.vendor, Text.trim cfg.product].filter (· ≠ ""))
  let chassis := (elements.find? fun e => e.elementType = etEnclosure && !e.overall).bind
    fun e => OrderedMap.get e.attributes "SN"
  { position := some (reportPosition (esps.any (·.behindExpander)) elements identity)
    id := sysfsId.or (first.map (·.scsiId))
    vendor := if cfg.vendor = "" then none else some cfg.vendor
    model := if cfg.product = "" then none else some cfg.product
    serial := chassis.or (first.bind (·.serial))
    sasAddress := first.bind (·.sasAddress)
    logicalId := cfg.logicalId }

/-- The report, from the configuration and the status. -/
def report (cfg : Configuration) (status : StatusPage) (esps : List EspPath)
    (sysfsId : Option String) (pages : RawPages) : Checked OutOfBounds (Option ShelfReport) := do
  let elements := status.elements.map fun e =>
    ({ toElement := e, typeName := elementTypeName e.elementType } : Element)
  let elements ← withNames cfg pages.descriptors elements
  let elements ← withThresholds cfg pages.thresholds elements
  let elements := (elements.map (Element.called cfg.vendor)).map Element.numbered
  let joined ← withSlots pages.additional elements
  let helpText ← helpOf pages.help
  let first := esps.head?
  return ((cfg.logicalId.or (first.bind (·.serial))).or (first.map (·.scsiId))).map fun key =>
    { key := key
      shelf := shelfOf cfg esps sysfsId joined.1
      esps := esps
      generation := status.generation
      critical := status.critical
      noncritical := status.noncritical
      unrecoverable := status.unrecoverable
      info := status.info
      elements := joined.1
      slots := joined.2
      helpText := helpText
      statusRaw := pages.status }

def assemble (esps : List EspPath) (sysfsId : Option String) (pages : RawPages) :
    Checked OutOfBounds (Option ShelfReport) := do
  match ← parseConfiguration pages.config with
  | none => return none
  | some cfg =>
    match ← parseStatus cfg pages.status with
    | none => return none
    | some status => report cfg status esps sysfsId pages

/-! ## It stays inside -/

section Join

variable {es : List Element} {slotPositions individuals : List ℕ}

/-- Positions are inside the list. -/
lemma lt_of_mem_positions {α : Type} {p : α → Bool} {l : List α} {i : ℕ} (h : i ∈ positions p l) :
    i < l.length := by
  obtain ⟨x, hx, rfl⟩ := List.mem_map.mp h
  have place := List.mem_zipIdx_iff_getElem?.mp (List.mem_filter.mp hx).1
  exact (List.getElem?_eq_some_iff.mp place).1

lemma positions_map {α β : Type} (g : α → β) (p : β → Bool) (l : List α) :
    positions p (l.map g) = positions (fun a => p (g a)) l := by
  rw [positions, positions, List.zipIdx_map, List.filter_map, List.map_map]
  rfl

/-- A change of one element is a change of what the pages say of it. -/
lemma change_eq {p : ℕ} (h : p < es.length) (f : Ses.Element → Ses.Element) :
    ∃ es', change es p f = .ok es' ∧
      es'.map Element.toElement = (es.map Element.toElement).modify p f := by
  rw [change, index_getElem h, Checked.ok_bind]
  refine ⟨_, rfl, List.ext_getElem? fun i => ?_⟩
  rw [List.getElem?_map, List.getElem?_modify, List.getElem?_modify, List.getElem?_map]
  cases es[i]? with
  | none => rfl
  | some e =>
    by_cases same : p = i
    · simp [same]
    · simp [same]

/-- What becomes of the bay of an element. -/
def bayed (sa : SlotAddress) (l : List Ses.Element) (p : ℕ) : List Ses.Element :=
  match sa.bay with
  | some b => l.modify p fun e => { e with bay := some b }
  | none => l

/-- And of its address. -/
def addressed (sa : SlotAddress) (l : List Ses.Element) (p : ℕ) : List Ses.Element :=
  match sa.sasAddresses.head? with
  | some a => l.modify p fun e => { e with sasAddress := some a }
  | none => l

lemma length_bayed (sa : SlotAddress) (l : List Ses.Element) (p : ℕ) :
    (bayed sa l p).length = l.length := by
  rw [bayed]
  split
  · exact List.length_modify ..
  · rfl

lemma length_addressed (sa : SlotAddress) (l : List Ses.Element) (p : ℕ) :
    (addressed sa l p).length = l.length := by
  rw [addressed]
  split
  · exact List.length_modify ..
  · rfl

lemma joinOne_of_position {s : List Ses.Element × List (ℕ × List String)} {x : SlotAddress × ℕ}
    {p : ℕ} (h : Ses.positionOf slotPositions individuals s.1 x.2 x.1 = some p) :
    Ses.joinOne slotPositions individuals s x = (addressed x.1 (bayed x.1 s.1 p) p,
      if x.1.sasAddresses = [] then s.2
      else OrderedMap.insert ((((bayed x.1 s.1 p)[p]?).bind (·.bay)).getD x.2)
        x.1.sasAddresses s.2) := by
  rw [Ses.joinOne, h]
  rfl

lemma length_joinOne (s : List Ses.Element × List (ℕ × List String)) (x : SlotAddress × ℕ) :
    (Ses.joinOne slotPositions individuals s x).1.length = s.1.length := by
  cases found : Ses.positionOf slotPositions individuals s.1 x.2 x.1 with
  | none => rw [Ses.joinOne, found]
  | some p =>
    rw [joinOne_of_position found]
    exact (length_addressed ..).trans (length_bayed ..)

lemma setBay_eq {p : ℕ} (h : p < es.length) (sa : SlotAddress) :
    ∃ es', setBay sa es p = .ok es' ∧
      es'.map Element.toElement = bayed sa (es.map Element.toElement) p := by
  rw [setBay, bayed]
  cases sa.bay with
  | none => exact ⟨es, rfl, rfl⟩
  | some b => exact change_eq h _

lemma setAddress_eq {p : ℕ} (h : p < es.length) (sa : SlotAddress) :
    ∃ es', setAddress sa es p = .ok es' ∧
      es'.map Element.toElement = addressed sa (es.map Element.toElement) p := by
  rw [setAddress, addressed]
  cases sa.sasAddresses.head? with
  | none => exact ⟨es, rfl, rfl⟩
  | some a => exact change_eq h _

lemma positionOf_eq (inside : ∀ p ∈ individuals, p < es.length) (n : ℕ) (sa : SlotAddress) :
    positionOf slotPositions individuals es n sa =
      .ok (Ses.positionOf slotPositions individuals (es.map Element.toElement) n sa) := by
  rw [positionOf, Ses.positionOf]
  cases found : sa.elementIndex.bind fun ei => individuals[ei.toNat]? with
  | none => rfl
  | some p =>
    obtain ⟨ei, -, at'⟩ := Option.bind_eq_some_iff.mp found
    have within := inside p (List.mem_of_getElem? at')
    dsimp only
    rw [index_getElem within, Checked.ok_bind, Option.filter_some, List.getElem?_map,
      List.getElem?_eq_getElem within, Option.map_some]
    by_cases slot : isSlot es[p].elementType
    · simp only [slot, Option.any_some, if_true, Option.some_or]
      rfl
    · simp only [slot, Option.any_some]
      rfl

/-- The position of a descriptor is inside the list. -/
lemma lt_of_positionOf {l : List Ses.Element} (inside : ∀ p ∈ individuals, p < l.length)
    (inside' : ∀ p ∈ slotPositions, p < l.length) {n p : ℕ} {sa : SlotAddress}
    (h : Ses.positionOf slotPositions individuals l n sa = some p) : p < l.length := by
  rw [Ses.positionOf, Option.or_eq_some_iff] at h
  obtain byIndex | ⟨-, late⟩ := h
  · obtain ⟨found, -⟩ := Option.filter_eq_some_iff.mp byIndex
    obtain ⟨ei, -, at'⟩ := Option.bind_eq_some_iff.mp found
    exact inside p (List.mem_of_getElem? at')
  · exact inside' p (List.mem_of_getElem? late)

/-- One descriptor changes the elements as it changes what the pages say of them. -/
lemma joinOne_eq {s : List Element × List (ℕ × List String)}
    (inside : ∀ p ∈ individuals, p < s.1.length)
    (inside' : ∀ p ∈ slotPositions, p < s.1.length) (x : SlotAddress × ℕ) :
    ∃ s', joinOne slotPositions individuals s x = .ok s' ∧
      (s'.1.map Element.toElement, s'.2) =
        Ses.joinOne slotPositions individuals (s.1.map Element.toElement, s.2) x := by
  rw [joinOne, positionOf_eq inside, Checked.ok_bind]
  cases found : Ses.positionOf slotPositions individuals (s.1.map Element.toElement) x.2 x.1 with
  | none =>
    rw [Ses.joinOne, found]
    exact ⟨s, rfl, rfl⟩
  | some p =>
    have within : p < s.1.length := by
      have lt := lt_of_positionOf (by simpa using inside) (by simpa using inside') found
      rwa [List.length_map] at lt
    obtain ⟨es, hes, first⟩ := setBay_eq within x.1
    have same : es.length = s.1.length := by
      have lengths := congrArg List.length first
      rwa [length_bayed, List.length_map, List.length_map] at lengths
    obtain ⟨es', hes', second⟩ := setAddress_eq (same ▸ within) x.1
    dsimp only
    rw [hes, Checked.ok_bind, index_getElem (same ▸ within), Checked.ok_bind, hes',
      Checked.ok_bind, joinOne_of_position found, ← first, ← second, List.getElem?_map,
      List.getElem?_eq_getElem (same ▸ within)]
    exact ⟨_, rfl, rfl⟩

/-- All descriptors change the elements as they change what the pages say of them. -/
lemma joinAll_eq (es : List Element) (addrs : List SlotAddress) :
    ∃ s, joinAll es addrs = .ok s ∧
      (s.1.map Element.toElement, s.2) = Ses.joinAll (es.map Element.toElement) addrs ∧
        s.1.length = es.length := by
  rw [joinAll, Ses.joinAll, positions_map, positions_map]
  have inside : ∀ p ∈ positions (fun e : Element => !e.overall) es, p < es.length :=
    fun _ => lt_of_mem_positions
  have inside' : ∀ p ∈ positions (fun e : Element => !e.overall && isSlot e.elementType) es,
      p < es.length := fun _ => lt_of_mem_positions
  show ∃ s, _ ∧ _ = addrs.zipIdx.foldl (Ses.joinOne
    (positions (fun e : Element => !e.overall && isSlot e.elementType) es)
    (positions (fun e : Element => !e.overall) es)) _ ∧ _
  generalize positions (fun e : Element => !e.overall) es = individuals at inside ⊢
  generalize positions (fun e : Element => !e.overall && isSlot e.elementType) es = slotPositions
    at inside' ⊢
  generalize addrs.zipIdx = xs
  suffices all : ∀ s : List Element × List (ℕ × List String), s.1.length = es.length →
      ∃ s', xs.foldlM (joinOne slotPositions individuals) s = .ok s' ∧
        (s'.1.map Element.toElement, s'.2) =
          xs.foldl (Ses.joinOne slotPositions individuals) (s.1.map Element.toElement, s.2) ∧
        s'.1.length = es.length from all (es, []) rfl
  induction xs with
  | nil => exact fun s same => ⟨s, rfl, rfl, same⟩
  | cons x xs ih =>
    intro s same
    have inside₁ : ∀ p ∈ individuals, p < s.1.length := by rwa [same]
    have inside₂ : ∀ p ∈ slotPositions, p < s.1.length := by rwa [same]
    obtain ⟨s', hs', core⟩ := joinOne_eq inside₁ inside₂ x
    have same' : s'.1.length = es.length := by
      have lengths := congrArg (fun t : List Ses.Element × List (ℕ × List String) => t.1.length)
        core
      rw [← same]
      simpa [length_joinOne] using lengths
    rw [List.foldlM_cons, hs', Checked.ok_bind, List.foldl_cons, ← core]
    exact ih s' same'

end Join

section Assemble

variable {cfg : Configuration}

/-- What a page says beside the status leaves the status as it is. -/
lemma map_updateZip {β : Type} {f : Element → β → Element}
    (same : ∀ e b, (f e b).toElement = e.toElement) (es : List Element) (bs : List β) :
    (updateZip f es bs).map Element.toElement = es.map Element.toElement := by
  induction es generalizing bs with
  | nil => cases bs <;> rfl
  | cons e es ih =>
    cases bs with
    | nil => rfl
    | cons b bs => rw [updateZip, List.map_cons, List.map_cons, same, ih]

lemma toElement_named (e : Element) (name : Option String) :
    (e.named name).toElement = e.toElement := rfl

lemma toElement_limited (e : Element) (b : Status) : (e.limited b).toElement = e.toElement := by
  rw [Element.limited]
  split <;> rfl

lemma toElement_called (vendor : String) (e : Element) :
    (e.called vendor).toElement = e.toElement := by
  rw [Element.called]
  split <;> rfl

lemma withNames_eq (cfg : Configuration) (page : Option (List UInt8)) (es : List Element) :
    ∃ es', withNames cfg page es = .ok es' ∧
      es'.map Element.toElement = es.map Element.toElement := by
  cases page with
  | none => exact ⟨es, rfl, rfl⟩
  | some d =>
    obtain ⟨names, hnames, -⟩ := length_parseDescriptors cfg d
    refine ⟨updateZip Element.named es names, ?_, map_updateZip toElement_named es names⟩
    rw [withNames, hnames]
    rfl

lemma withThresholds_eq (cfg : Configuration) (page : Option (List UInt8)) (es : List Element) :
    ∃ es', withThresholds cfg page es = .ok es' ∧
      es'.map Element.toElement = es.map Element.toElement := by
  cases page with
  | none => exact ⟨es, rfl, rfl⟩
  | some t =>
    obtain ⟨limits, hlimits, -⟩ := length_parseThresholds cfg t
    refine ⟨updateZip Element.limited es limits, ?_, map_updateZip toElement_limited es limits⟩
    rw [withThresholds, hlimits]
    rfl

/-- The elements of the status joined with the additional page. -/
def joinedCore (elements : List Ses.Element) (page : Option (List UInt8)) :
    List Ses.Element × List (ℕ × List String) :=
  match page with
  | some a => Ses.joinAll elements (Ses.parseAdditional a)
  | none => (elements, [])

lemma withSlots_eq (page : Option (List UInt8)) (es : List Element) :
    ∃ s, withSlots page es = .ok s ∧
      (s.1.map Element.toElement, s.2) = joinedCore (es.map Element.toElement) page ∧
        s.1.length = es.length := by
  cases page with
  | none => exact ⟨(es, []), rfl, rfl, rfl⟩
  | some a =>
    obtain ⟨s, hs, core⟩ := joinAll_eq es (Ses.parseAdditional a)
    refine ⟨s, ?_, core⟩
    rw [withSlots, parseAdditional_eq]
    exact hs

lemma reads_helpOf (page : Option (List UInt8)) : Reads (helpOf page) := by
  cases page with
  | none => exact reads_ok _
  | some h => exact reads_parseHelpText h

/-- What the three pages say of a shelf. -/
def ShelfReport.core (r : ShelfReport) : Ses.ShelfReport where
  key := r.key
  esps := r.esps.map (·.toEspPath)
  generation := r.generation
  critical := r.critical
  noncritical := r.noncritical
  unrecoverable := r.unrecoverable
  info := r.info
  elements := r.elements.map (·.toElement)
  slots := r.slots

/-- The report of the three pages, from the configuration and the status. -/
def reportCore (cfg : Configuration) (status : StatusPage) (esps : List Ses.EspPath)
    (additional : Option (List UInt8)) : Option Ses.ShelfReport :=
  let joined := joinedCore (status.elements.map Ses.Element.numbered) additional
  ((cfg.logicalId.or (esps.head?.bind (·.serial))).or (esps.head?.map (·.scsiId))).map fun key =>
    { key := key
      esps := esps
      generation := status.generation
      critical := status.critical
      noncritical := status.noncritical
      unrecoverable := status.unrecoverable
      info := status.info
      elements := joined.1
      slots := joined.2 }

lemma assemble_core (esps : List Ses.EspPath) (pages : Ses.RawPages) :
    Ses.assemble esps pages = (Ses.parseConfiguration pages.config).bind fun cfg =>
      (Ses.parseStatus cfg pages.status).bind fun status =>
        reportCore cfg status esps pages.additional := by
  unfold reportCore joinedCore
  rfl

/-- A report comes to an answer: it has the elements of the status, joined with the additional
page. -/
lemma report_eq (cfg : Configuration) (status : StatusPage) (esps : List EspPath)
    (sysfsId : Option String) (pages : RawPages) :
    ∃ r, report cfg status esps sysfsId pages = .ok r ∧
      r.map ShelfReport.core = reportCore cfg status (esps.map (·.toEspPath)) pages.additional ∧
        ∀ rep, r = some rep → rep.statusRaw = pages.status ∧
          rep.elements.length = status.elements.length := by
  obtain ⟨es₁, h₁, core₁⟩ := withNames_eq cfg pages.descriptors
    (status.elements.map fun e =>
      ({ toElement := e, typeName := elementTypeName e.elementType } : Element))
  obtain ⟨es₂, h₂, core₂⟩ := withThresholds_eq cfg pages.thresholds es₁
  obtain ⟨joined, h₃, core₃, length₃⟩ := withSlots_eq pages.additional
    ((es₂.map (Element.called cfg.vendor)).map Element.numbered)
  obtain ⟨help, h₄⟩ := reads_helpOf pages.help
  have status₂ : es₂.map Element.toElement = status.elements := by
    rw [core₂, core₁, List.map_map]
    exact List.map_id _
  have numbered : ((es₂.map (Element.called cfg.vendor)).map Element.numbered).map
      Element.toElement = status.elements.map Ses.Element.numbered := by
    rw [← status₂, List.map_map, List.map_map, List.map_map]
    refine List.map_congr_left fun e _ => ?_
    exact congrArg Ses.Element.numbered (toElement_called cfg.vendor e)
  rw [report, h₁, Checked.ok_bind, h₂, Checked.ok_bind]
  dsimp only
  rw [h₃, Checked.ok_bind, h₄, Checked.ok_bind]
  rw [numbered] at core₃
  refine ⟨_, rfl, ?_, ?_⟩
  · unfold reportCore
    rw [← core₃, List.head?_map, Option.map_map, Option.bind_map, Option.map_map]
    rfl
  · intro rep made
    obtain ⟨key, -, rfl⟩ := Option.map_eq_some_iff.mp made
    refine ⟨rfl, length₃.trans ?_⟩
    rw [← status₂, List.length_map, List.length_map, List.length_map]

/-- **A report comes to an answer**: it is what the three pages say, with the rest beside it, and
each of its elements is inside the status page. -/
theorem assemble_eq (esps : List EspPath) (sysfsId : Option String) (pages : RawPages) :
    ∃ r, assemble esps sysfsId pages = .ok r ∧
      r.map ShelfReport.core = Ses.assemble (esps.map (·.toEspPath)) pages.toRawPages ∧
        ∀ rep, r = some rep → rep.statusRaw = pages.status ∧
          ∀ n < rep.elements.length, elementOffset n + 4 ≤ rep.statusRaw.length := by
  rw [assemble, parseConfiguration_eq, Checked.ok_bind, assemble_core]
  cases Ses.parseConfiguration pages.config with
  | none => exact ⟨none, rfl, rfl, fun _ made => absurd made.symm (Option.some_ne_none _)⟩
  | some cfg =>
    dsimp only
    rw [parseStatus_eq, Checked.ok_bind, Option.bind_some]
    cases parsed : Ses.parseStatus cfg pages.status with
    | none => exact ⟨none, rfl, rfl, fun _ made => absurd made.symm (Option.some_ne_none _)⟩
    | some status =>
      obtain ⟨r, hr, core, rest⟩ := report_eq cfg status esps sysfsId pages
      refine ⟨r, hr, core, ?_⟩
      rintro rep rfl
      obtain ⟨raw, many⟩ := rest rep rfl
      refine ⟨raw, fun n hn => ?_⟩
      rw [many] at hn
      rw [raw]
      exact (elementAt_of_parseStatus parsed (List.getElem?_eq_getElem hn)).2.1

end Assemble

/-! ## What is promised -/

/-- **The pages of an enclosure are safe to read**, whatever is in them. -/
structure SafeToRead : Prop where
  supportedPages : ∀ raw, Reads (parseSupportedPages raw)
  configuration : ∀ raw, Reads (parseConfiguration raw)
  helpText : ∀ raw, Reads (parseHelpText raw)
  additional : ∀ raw, Reads (parseAdditional raw)
  /-- No more descriptors than elements that the configuration announces. -/
  descriptors : ∀ (cfg : Configuration) raw, ∃ l, parseDescriptors cfg raw = .ok l ∧
    l.length ≤ (cfg.types.map fun t => t.count + 1).sum
  thresholds : ∀ (cfg : Configuration) raw, ∃ l, parseThresholds cfg raw = .ok l ∧
    l.length ≤ (cfg.types.map fun t => t.count + 1).sum
  /-- The elements fit in the page. -/
  status : ∀ cfg raw, ∃ r, parseStatus cfg raw = .ok r ∧ ∀ page, r = some page →
    elementOffset page.elements.length ≤ raw.length ∧
      ∀ n < page.elements.length, elementOffset n + 4 ≤ raw.length
  /-- An element of a report is inside the page that a control page is made of. -/
  report : ∀ esps sysfsId pages, ∃ r, assemble esps sysfsId pages = .ok r ∧
    ∀ rep, r = some rep → ∀ n < rep.elements.length,
      elementOffset n + 4 ≤ rep.statusRaw.length ∧
        ∀ t on, (buildIdentControl rep.statusRaw (elementOffset n) t on).isSome = true

/-- The elements that a configuration announces. -/
lemma length_places (cfg : Configuration) :
    cfg.places.length = (cfg.types.map fun t => t.count + 1).sum := by
  rw [Configuration.places, List.length_flatMap]
  congr 1
  refine List.map_congr_left fun t _ => ?_
  rw [TypeHeader.places, List.length_map, List.length_range]

/-- A control page can be made for each element. -/
lemma isSome_buildIdentControl {raw : List UInt8} {n : ℕ}
    (inside : elementOffset n + 4 ≤ raw.length) (t : UInt8) (on : Bool) :
    (buildIdentControl raw (elementOffset n) t on).isSome = true := by
  rw [elementOffset] at inside
  rw [buildIdentControl, elementOffset, if_neg]
  · rfl
  · simp only [Bool.or_eq_true, decide_eq_true_eq]
    omega

/-- **The pages of every enclosure are safe to read.**

**Proof sketch.** Each parser looks only where it has compared with the length of the page, and
gives what the plain one gives; the elements of a report are those of its status page. -/
theorem safeToRead : SafeToRead where
  supportedPages := reads_parseSupportedPages
  configuration raw := ⟨_, parseConfiguration_eq raw⟩
  helpText := reads_parseHelpText
  additional raw := ⟨_, parseAdditional_eq raw⟩
  descriptors cfg raw := by
    rw [← length_places]
    exact length_parseDescriptors cfg raw
  thresholds cfg raw := by
    rw [← length_places]
    exact length_parseThresholds cfg raw
  status cfg raw := by
    refine ⟨_, parseStatus_eq cfg raw, fun page parsed => ?_⟩
    have inside : ∀ n < page.elements.length, 8 ≤ raw.length ∧ elementOffset n + 4 ≤ raw.length :=
      fun n hn =>
        have found := elementAt_of_parseStatus parsed (List.getElem?_eq_getElem hn)
        ⟨found.1, found.2.1⟩
    refine ⟨?_, fun n hn => (inside n hn).2⟩
    cases many : page.elements.length with
    | zero =>
      have long : ¬ raw.length < 8 := by
        intro short
        rw [Ses.parseStatus, decide_eq_true short, Bool.true_or, if_pos rfl] at parsed
        exact absurd parsed.symm (Option.some_ne_none _)
      rw [elementOffset]
      omega
    | succ n =>
      have last := (inside n (by omega)).2
      rw [elementOffset] at last ⊢
      omega
  report esps sysfsId pages := by
    obtain ⟨r, made, -, rest⟩ := assemble_eq esps sysfsId pages
    refine ⟨r, made, fun rep is n hn => ?_⟩
    have inside := (rest rep is).2 n hn
    exact ⟨inside, isSome_buildIdentControl inside⟩

end SesReads

end StormDrive
