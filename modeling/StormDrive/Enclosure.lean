import StormDrive.ShelfReport
import StormDrive.Bytes.Records

set_option relaxedAutoImplicit false
set_option autoImplicit false

/-!
# Enclosures and their pages

An enclosure as it is built: subenclosures with their types of elements, slots with the phys of what
sits in them, and the three pages in which it says so, laid out as SES-2 has them. What the reader
of `ses.rs` makes of these pages.

## Main definitions

* `Slot`, `Group`, `Subenclosure`, `Enclosure` — the parts, and an enclosure whose pages can be
  written.
* `Spot` — what is at a position of the status page.
* `Parts.config`, `Parts.status`, `Parts.additional` — the pages.

## Main results

* `places_config` — **the configuration page gives the places of the spots**.
* `elements_status` — **the status page gives an element for each spot**.
* `parseAdditional_indexed` — **with element indexes the additional page gives the slots that are
  described**.
* `length_of_mem_unindexed` — **without them each slot it gives has fewer addresses than a slot that
  was written**.

## Implementation notes

In an additional descriptor with an element index (EIP) the number of phys is behind the index, and
the slot number is before the phys; without one there is neither. The descriptor of a slot that is
not valid may hold anything behind the index.
-/

namespace StormDrive

namespace Ses

open Bytes

/-! ## Parts -/

/-- The two kinds of slots. -/
inductive SlotKind
  | device
  | array
  deriving DecidableEq

def SlotKind.elementType : SlotKind → UInt8
  | .device => etDeviceSlot
  | .array => etArrayDeviceSlot

/-- A phy of a device that is attached. -/
structure Phy where
  lead : List UInt8
  address : List UInt8
  rest : List UInt8
  length_lead : lead.length = 12
  length_address : address.length = 8
  length_rest : rest.length = 8
  attached : address.any (· ≠ 0) = true

def Phy.bytes (p : Phy) : List UInt8 := p.lead ++ (p.address ++ p.rest)

/-- What the descriptor of a slot says: nothing that is valid, or its phys. -/
inductive SlotContents
  | invalid (body : List UInt8)
  | phys (notAll : Bool) (l : List Phy)

/-- A slot. -/
structure Slot where
  /-- The number that is printed on it. -/
  number : UInt8
  status : Status
  contents : SlotContents

/-- The phys of what sits in a slot. -/
def Slot.phys (s : Slot) : List Phy :=
  match s.contents with
  | .invalid _ => []
  | .phys _ l => l

/-- The SAS addresses that are attached. -/
def Slot.addresses (s : Slot) : List (List UInt8) := s.phys.map Phy.address

/-- The status of a slot: a device slot has its number there. -/
def Slot.statusOf (kind : SlotKind) (s : Slot) : Status :=
  match kind with
  | .device => { s.status with b1 := s.number }
  | .array => s.status

/-- What an additional descriptor says of an element that is no slot. -/
structure About where
  valid : Bool
  body : List UInt8
  /-- An expander or a port has a descriptor of its own type. -/
  kind : valid = true → body.getD 1 0 >>> 6 = 1

/-- An element that is no slot. -/
structure Other where
  status : Status
  about : Option About

/-- The elements of a type. -/
inductive Members
  | slots (kind : SlotKind) (l : List Slot)
  | others (t : UInt8) (notSlot : isSlot t = false) (l : List Other)

def Members.elementType : Members → UInt8
  | .slots kind _ => kind.elementType
  | .others t _ _ => t

def Members.count : Members → ℕ
  | .slots _ l => l.length
  | .others _ _ l => l.length

/-- A type of elements, with its elements. -/
structure Group where
  overall : Status
  text : List UInt8
  members : Members
  text_fits : text.length < 256
  count_fits : members.count < 256

/-- The enclosure itself, or another that is part of it. -/
structure Subenclosure where
  lead : UInt8
  id : UInt8
  descriptor : List UInt8
  groups : List Group
  descriptor_fits : descriptor.length < 256
  groups_fit : groups.length < 256

/-- What is at a position of the status page. -/
inductive Spot
  | overall (t : UInt8) (b : Status)
  | slot (kind : SlotKind) (index : ℕ) (s : Slot)
  | other (t : UInt8) (notSlot : isSlot t = false) (index : ℕ) (o : Other)

namespace Spot

/-- Its type, its index, and whether it is the overall element. -/
def place : Spot → Place
  | .overall t _ => (t, 0, true)
  | .slot kind i _ => (kind.elementType, i, false)
  | .other t _ i _ => (t, i, false)

/-- Its four bytes. -/
def status : Spot → Status
  | .overall _ b => b
  | .slot kind _ s => s.statusOf kind
  | .other _ _ _ o => o.status

def individual : Spot → Bool
  | .overall _ _ => false
  | _ => true

/-- An additional descriptor is written for it. -/
def described : Spot → Bool
  | .overall _ _ => false
  | .slot _ _ _ => true
  | .other _ _ _ o => o.about.isSome

/-- The number of a slot. -/
def number : Spot → Option UInt8
  | .slot _ _ s => some s.number
  | _ => none

/-- The addresses that are attached there. -/
def addresses : Spot → List (List UInt8)
  | .slot _ _ s => s.addresses
  | _ => []

/-- The element that the status page has there. -/
def element (sp : Spot) : Element :=
  decodeElement sp.place.1 sp.place.2.1 sp.place.2.2 sp.status

end Spot

/-- What comes in the status page for the elements of a type. -/
def Members.spots : Members → List Spot
  | .slots kind l => l.mapIdx (Spot.slot kind)
  | .others t notSlot l => l.mapIdx (Spot.other t notSlot)

def Group.spots (g : Group) : List Spot :=
  .overall g.members.elementType g.overall :: g.members.spots

/-! ## Pages -/

/-- A page, with its length and the generation. -/
def pageOf (code flags : UInt8) (generation : ℕ) (body : List UInt8) : List UInt8 :=
  [code, flags] ++ be 2 (body.length + 4) ++ be 4 generation ++ body

/-- An additional descriptor. -/
structure Descriptor where
  head : UInt8
  body : List UInt8

def Descriptor.bytes (d : Descriptor) : List UInt8 :=
  d.head :: UInt8.ofNat d.body.length :: d.body

/-- INVALID, EIP, and the protocol. -/
def headByte (indexed valid : Bool) : UInt8 :=
  match indexed, valid with
  | true, true => 0x16
  | true, false => 0x96
  | false, true => 0x06
  | false, false => 0x86

def indexBytes (indexed : Bool) (ei : ℕ) : List UInt8 :=
  if indexed then [0, UInt8.ofNat ei] else []

def Slot.descriptor (indexed : Bool) (ei : ℕ) (s : Slot) : Descriptor :=
  match s.contents with
  | .invalid body => ⟨headByte indexed false, indexBytes indexed ei ++ body⟩
  | .phys notAll l =>
    ⟨headByte indexed true, indexBytes indexed ei ++
      ([UInt8.ofNat l.length, if notAll then 1 else 0] ++
        ((if indexed then [0, s.number] else []) ++ l.flatMap Phy.bytes))⟩

def About.descriptor (indexed : Bool) (ei : ℕ) (a : About) : Descriptor :=
  ⟨headByte indexed a.valid, indexBytes indexed ei ++ a.body⟩

/-- The descriptors of spots, when as many single elements come before. -/
def describeFrom (indexed : Bool) : ℕ → List Spot → List Descriptor
  | _, [] => []
  | ei, .overall _ _ :: sps => describeFrom indexed ei sps
  | ei, .slot _ _ s :: sps => s.descriptor indexed ei :: describeFrom indexed (ei + 1) sps
  | ei, .other _ _ _ o :: sps =>
    (o.about.map (About.descriptor indexed ei)).toList ++ describeFrom indexed (ei + 1) sps

/-- The enclosure descriptor. -/
def Subenclosure.bytes (s : Subenclosure) : List UInt8 :=
  [s.lead, s.id, UInt8.ofNat s.groups.length, UInt8.ofNat s.descriptor.length] ++ s.descriptor

/-- The type descriptor header of a type, with the identifier of its subenclosure. -/
def headerBytes (x : UInt8 × Group) : List UInt8 :=
  [x.2.members.elementType, UInt8.ofNat x.2.members.count, x.1, UInt8.ofNat x.2.text.length]

/-- The parts of an enclosure, and how its additional page is written. -/
structure Parts where
  generation : ℕ
  flags : UInt8
  subs : List Subenclosure
  /-- The additional page has element indexes (EIP). -/
  indexed : Bool

namespace Parts

variable (e : Parts)

/-- The types, each with the identifier of its subenclosure. -/
def groups : List (UInt8 × Group) := e.subs.flatMap fun s => s.groups.map fun g => (s.id, g)

/-- What is at each position of the status page. -/
def spots : List Spot := e.groups.flatMap fun x => x.2.spots

def config : List UInt8 :=
  pageOf pageConfig (UInt8.ofNat (e.subs.length - 1)) e.generation
    (e.subs.flatMap Subenclosure.bytes ++
      (e.groups.flatMap headerBytes ++ e.groups.flatMap fun x => x.2.text))

def status : List UInt8 :=
  pageOf pageStatus e.flags e.generation (e.spots.flatMap fun sp => sp.status.bytes)

def additional : List UInt8 :=
  pageOf pageAdditional 0 e.generation
    ((describeFrom e.indexed 0 e.spots).flatMap Descriptor.bytes)

def pages : RawPages := ⟨e.config, e.status, some e.additional⟩

end Parts

/-- An enclosure whose pages can be written: each length, count and index has room in its field, no
two slots have one number, and no two phys one address. -/
structure Enclosure extends Parts where
  /-- The processors it answers through. -/
  esps : List EspPath
  answers : esps ≠ []
  primary : subs ≠ []
  subs_fit : subs.length ≤ 256
  status_fits : toParts.spots.length * 4 + 4 < 65536
  bodies_fit : ∀ d ∈ describeFrom indexed 0 toParts.spots, d.body.length < 256
  additional_fits :
    ((describeFrom indexed 0 toParts.spots).flatMap Descriptor.bytes).length + 4 < 65536
  indexes_fit : indexed = true → ∀ pre sp post, toParts.spots = pre ++ sp :: post →
    sp.described = true → pre.countP Spot.individual < 256
  numbers_nodup : (toParts.spots.filterMap Spot.number).Nodup
  addresses_nodup : (toParts.spots.flatMap Spot.addresses).Nodup

/-! ## A page as it is read -/

section Page

variable {code flags : UInt8} {generation : ℕ} {body : List UInt8}

@[simp] lemma length_pageOf : (pageOf code flags generation body).length = 8 + body.length := by
  simp only [pageOf, List.length_append, length_be, List.length_cons, List.length_nil]

@[simp] lemma getD_pageOf_zero : (pageOf code flags generation body).getD 0 0 = code := rfl

@[simp] lemma getD_pageOf_one : (pageOf code flags generation body).getD 1 0 = flags := rfl

/-- Its length field. -/
lemma ofBe_pageOf (fits : body.length + 4 < 65536) :
    ofBe (slice (pageOf code flags generation body) 2 2) = body.length + 4 := by
  have field : slice (pageOf code flags generation body) 2 2 = be 2 (body.length + 4) := by
    rw [pageOf, List.append_assoc, List.append_assoc, slice_append_right (Nat.le_refl 2),
      slice_append_left (by rw [length_be]; rfl)]
    exact slice_all (length_be 2 _)
  rw [field, ofBe_be_of_lt fits]

/-- A page is one of its code. -/
lemma isPage_pageOf : ¬ (((pageOf code flags generation body).length < 8 ||
    (pageOf code flags generation body).getD 0 0 ≠ code) = true) := by
  rw [length_pageOf, getD_pageOf_zero]
  simp

/-- By its length field a page goes to its end. -/
lemma stop_pageOf (fits : body.length + 4 < 65536) :
    min (ofBe (slice (pageOf code flags generation body) 2 2) + 4)
        (pageOf code flags generation body).length =
      (pageOf code flags generation body).length := by
  rw [ofBe_pageOf fits, length_pageOf]
  omega

/-- What is behind the header. -/
lemma drop_pageOf : (pageOf code flags generation body).drop 8 = body := by
  rw [pageOf]
  apply List.drop_left'
  simp only [List.length_append, length_be, List.length_cons, List.length_nil]

end Page

/-! ## The configuration page -/

section Walk

variable {raw : List UInt8} {off : ℕ}

/-- Bytes that are at an offset are in the buffer. -/
lemma le_length_of_drop {b rest : List UInt8} (h : raw.drop off = b ++ rest) (pos : 0 < b.length) :
    off + b.length ≤ raw.length := by
  have len := congrArg List.length h
  rw [List.length_drop, List.length_append] at len
  omega

/-- What is behind them. -/
lemma drop_behind {b rest : List UInt8} {n : ℕ} (h : raw.drop off = b ++ rest)
    (len : b.length = n) : raw.drop (off + n) = rest := by
  rw [← List.drop_drop, h, List.drop_left' len]

lemma Subenclosure.length_bytes (s : Subenclosure) : s.bytes.length = 4 + s.descriptor.length := by
  rw [Subenclosure.bytes, List.length_append]
  rfl

lemma readEnclosure_written {s : Subenclosure} {rest : List UInt8}
    (written : raw.drop off = s.bytes ++ rest) (n i : ℕ) (cfg : Configuration) :
    ∃ cfg', readEnclosure raw (off, n, cfg) i =
      some (off + s.bytes.length, n + s.groups.length, cfg') := by
  have room : off + s.bytes.length ≤ raw.length :=
    le_length_of_drop written (by rw [s.length_bytes]; omega)
  have types : (raw.getD (off + 2) 0).toNat = s.groups.length := by
    rw [getD_of_drop written]
    exact UInt8.toNat_ofNat_of_lt' s.groups_fit
  have len : (raw.getD (off + 3) 0).toNat = s.descriptor.length := by
    rw [getD_of_drop written]
    exact UInt8.toNat_ofNat_of_lt' s.descriptor_fits
  rw [s.length_bytes] at room ⊢
  rw [readEnclosure, if_neg (by dsimp only; omega)]
  dsimp only
  rw [types, len, Nat.add_assoc]
  exact ⟨_, rfl⟩

/-- All enclosure descriptors are walked. -/
lemma readEnclosures_written {subs : List Subenclosure} {rest : List UInt8}
    (written : raw.drop off = subs.flatMap Subenclosure.bytes ++ rest) (n i : ℕ)
    (cfg : Configuration) :
    ∃ cfg', (List.range' i subs.length).foldlM (readEnclosure raw) (off, n, cfg) =
      some (off + (subs.flatMap Subenclosure.bytes).length,
        n + (subs.map fun s => s.groups.length).sum, cfg') := by
  induction subs generalizing off n i cfg with
  | nil => exact ⟨cfg, rfl⟩
  | cons s subs ih =>
    rw [List.flatMap_cons, List.append_assoc] at written
    obtain ⟨cfg₁, first⟩ := readEnclosure_written written n i cfg
    obtain ⟨cfg₂, others⟩ := ih (drop_behind written rfl) (n + s.groups.length) (i + 1) cfg₁
    refine ⟨cfg₂, ?_⟩
    rw [List.length_cons, List.range'_succ, List.foldlM_cons, first]
    show (List.range' (i + 1) subs.length).foldlM (readEnclosure raw) _ = _
    rw [others, List.flatMap_cons, List.length_append, List.map_cons, List.sum_cons,
      Nat.add_assoc, Nat.add_assoc]

/-- The header of a type, as it is read. -/
def rawHeaderOf (x : UInt8 × Group) : RawHeader :=
  ⟨x.2.members.elementType, UInt8.ofNat x.2.members.count, x.1, x.2.text.length⟩

lemma readHeaders_written {xs : List (UInt8 × Group)} {rest : List UInt8}
    (written : raw.drop off = xs.flatMap headerBytes ++ rest) :
    readHeaders raw xs.length off = some (xs.map rawHeaderOf) := by
  induction xs generalizing off with
  | nil => rfl
  | cons x xs ih =>
    rw [List.flatMap_cons, List.append_assoc] at written
    have room : off + 4 ≤ raw.length := le_length_of_drop written (Nat.zero_lt_succ 3)
    have len : (raw.getD (off + 3) 0).toNat = x.2.text.length := by
      rw [getD_of_drop written]
      exact UInt8.toNat_ofNat_of_lt' x.2.text_fits
    have first : raw.getD off 0 = x.2.members.elementType := getD_of_drop written 0
    have second : raw.getD (off + 1) 0 = UInt8.ofNat x.2.members.count := getD_of_drop written 1
    have third : raw.getD (off + 2) 0 = x.1 := getD_of_drop written 2
    have behind : raw.drop (off + 4) = xs.flatMap headerBytes ++ rest := drop_behind written rfl
    rw [List.length_cons, readHeaders, if_neg (by omega), ih behind, len, first, second, third]
    rfl

/-- The places do not depend on the texts. -/
lemma places_readTexts (off : ℕ) (headers : List RawHeader) :
    (readTexts raw off headers).flatMap TypeHeader.places =
      headers.flatMap fun h =>
        (List.range (h.count.toNat + 1)).map fun i => (h.elementType, i - 1, decide (i = 0)) := by
  induction headers generalizing off with
  | nil => rfl
  | cons h headers ih =>
    rw [readTexts, List.flatMap_cons, List.flatMap_cons, ih]
    rfl

end Walk

/-- The places of a list of elements that are numbered. -/
lemma map_place_mapIdx {α : Type} {f : ℕ → α → Spot} {t : UInt8}
    (place : ∀ i a, (f i a).place = (t, i, false)) (l : List α) :
    (l.mapIdx f).map Spot.place = (List.range l.length).map fun i => (t, i, false) := by
  apply List.ext_getElem?
  intro i
  rw [List.getElem?_map, List.getElem?_mapIdx, List.getElem?_map, Option.map_map]
  by_cases within : i < l.length
  · rw [List.getElem?_eq_getElem within, List.getElem?_range within]
    exact congrArg some (place i _)
  · rw [List.getElem?_eq_none (by omega), List.getElem?_eq_none (by rw [List.length_range]; omega)]
    rfl

lemma Members.map_place (m : Members) :
    m.spots.map Spot.place = (List.range m.count).map fun i => (m.elementType, i, false) := by
  cases m with
  | slots kind l => exact map_place_mapIdx (fun _ _ => rfl) l
  | others t notSlot l => exact map_place_mapIdx (fun _ _ => rfl) l

lemma Group.map_place (g : Group) :
    g.spots.map Spot.place =
      (List.range (g.members.count + 1)).map fun i =>
        (g.members.elementType, i - 1, decide (i = 0)) := by
  rw [Group.spots, List.map_cons, g.members.map_place, List.range_succ_eq_map, List.map_cons,
    List.map_map]
  rfl

namespace Parts

variable (e : Parts)

lemma length_groups : e.groups.length = (e.subs.map fun s => s.groups.length).sum := by
  rw [groups, List.length_flatMap]
  simp only [List.length_map]

end Parts

/-- **The configuration page gives the places of the spots**. -/
lemma places_config (e : Enclosure) :
    ∃ cfg, parseConfiguration e.config = some cfg ∧ cfg.places = e.spots.map Spot.place := by
  have counted : (e.config.getD 1 0).toNat + 1 = e.subs.length := by
    have pos := List.length_pos_of_ne_nil e.primary
    have fits := e.subs_fit
    rw [Parts.config, getD_pageOf_one, UInt8.toNat_ofNat', Nat.mod_eq_of_lt (by omega)]
    omega
  have written : e.config.drop 8 = _ := drop_pageOf
  obtain ⟨cfg, walked⟩ :=
    readEnclosures_written written 0 0 { generation := ofBe (slice e.config 4 4) }
  have behind := drop_behind written rfl
  rw [Nat.zero_add, ← e.length_groups] at walked
  have page : ¬ ((e.config.length < 8 || e.config.getD 0 0 ≠ pageConfig) = true) := isPage_pageOf
  rw [parseConfiguration, if_neg page]
  dsimp only
  rw [counted, List.range_eq_range', walked, Option.bind_some, readHeaders_written behind,
    Option.map_some]
  refine ⟨_, rfl, ?_⟩
  rw [Configuration.places, places_readTexts, List.flatMap_map, Parts.spots, List.map_flatMap]
  congr 1
  funext x
  rw [x.2.map_place]
  show List.map _ (List.range ((UInt8.ofNat x.2.members.count).toNat + 1)) = _
  rw [UInt8.toNat_ofNat_of_lt' x.2.count_fits]
  rfl

/-! ## The status page -/

section Walk

variable {raw : List UInt8} {off : ℕ}

lemma length_statuses (sps : List Spot) :
    (sps.flatMap fun sp => sp.status.bytes).length = sps.length * 4 := by
  induction sps with
  | nil => rfl
  | cons sp sps ih =>
    rw [List.flatMap_cons, List.length_append, ih, List.length_cons, Nat.succ_mul, Nat.add_comm]
    rfl

lemma ofBytes_written {b : Status} {rest : List UInt8} (written : raw.drop off = b.bytes ++ rest) :
    Status.ofBytes raw off = b := by
  have b0 : raw.getD off 0 = b.b0 := getD_of_drop written 0
  have b1 : raw.getD (off + 1) 0 = b.b1 := getD_of_drop written 1
  have b2 : raw.getD (off + 2) 0 = b.b2 := getD_of_drop written 2
  have b3 : raw.getD (off + 3) 0 = b.b3 := getD_of_drop written 3
  rw [Status.ofBytes, b0, b1, b2, b3]

lemma readElements_written {sps : List Spot}
    (written : raw.drop off = sps.flatMap fun sp => sp.status.bytes) :
    readElements raw raw.length off (sps.map Spot.place) = sps.map Spot.element := by
  induction sps generalizing off with
  | nil => rfl
  | cons sp sps ih =>
    rw [List.flatMap_cons] at written
    have room : off + 4 ≤ raw.length := le_length_of_drop written (Nat.zero_lt_succ 3)
    have behind : raw.drop (off + 4) = sps.flatMap fun sp => sp.status.bytes :=
      drop_behind written rfl
    rw [List.map_cons, readElements, if_pos room, ofBytes_written written, ih behind]
    rfl

end Walk

/-- **The status page gives an element for each spot**. -/
lemma elements_status (e : Enclosure) {cfg : Configuration}
    (places : cfg.places = e.spots.map Spot.place) :
    ∃ page, parseStatus cfg e.status = some page ∧ page.elements = e.spots.map Spot.element := by
  have stop : min (ofBe (slice e.status 2 2) + 4) e.status.length = e.status.length :=
    stop_pageOf (by rw [length_statuses]; exact e.status_fits)
  have written : e.status.drop 8 = _ := drop_pageOf
  have page : ¬ ((e.status.length < 8 || e.status.getD 0 0 ≠ pageStatus) = true) := isPage_pageOf
  rw [parseStatus, if_neg page]
  dsimp only
  rw [stop, places, readElements_written written]
  exact ⟨_, rfl, rfl⟩

/-! ## The additional page -/

section Walk

variable {raw : List UInt8} {off : ℕ}

lemma Phy.length_bytes (p : Phy) : p.bytes.length = 28 := by
  rw [Phy.bytes, List.length_append, List.length_append, p.length_lead, p.length_address,
    p.length_rest]

lemma Phy.slice_address (p : Phy) (rest : List UInt8) :
    slice (p.bytes ++ rest) 12 8 = p.address := by
  rw [Phy.bytes, List.append_assoc, slice_append_right (by rw [p.length_lead]), p.length_lead,
    Nat.sub_self, List.append_assoc, slice_append_left (by rw [p.length_address])]
  exact slice_all p.length_address

/-- Phys that are where they are looked for. -/
lemma phyAddresses_written {l : List Phy} {rest : List UInt8}
    (written : raw.drop off = l.flatMap Phy.bytes ++ rest) :
    phyAddresses raw (off + l.length * 28) l.length off = l.map fun p => hexText p.address := by
  induction l generalizing off with
  | nil => rfl
  | cons p l ih =>
    rw [List.flatMap_cons, List.append_assoc] at written
    have sas : slice raw (off + 12) 8 = p.address := by
      rw [slice_of_drop written, p.slice_address]
    have stop : off + (l.length + 1) * 28 = off + 28 + l.length * 28 := by omega
    rw [List.length_cons, phyAddresses, if_neg (by omega)]
    dsimp only
    rw [sas, if_pos p.attached, stop, ih (drop_behind written p.length_bytes)]
    rfl

/-- As many addresses are found as have room. -/
lemma length_phyAddresses (raw : List UInt8) (stop n p : ℕ) :
    (phyAddresses raw stop n p).length * 28 ≤ stop - p := by
  induction n generalizing p with
  | zero => exact Nat.zero_le _
  | succ n ih =>
    rw [phyAddresses]
    split_ifs with past
    · exact Nat.zero_le _
    · have behind := ih (p + 28)
      have first : (if (slice raw (p + 12) 8).any (· ≠ 0) then [hexText (slice raw (p + 12) 8)]
          else []).length ≤ 1 := by
        split_ifs
        · exact Nat.le_refl 1
        · exact Nat.zero_le 1
      dsimp only
      rw [List.length_append]
      omega

lemma length_of_slotAddressAt {bodyEnd : ℕ} {eip : Bool} {ei : Option UInt8} {sa : SlotAddress}
    (h : slotAddressAt raw bodyEnd off eip ei = some sa) :
    off + 4 + sa.sasAddresses.length * 28 ≤ bodyEnd := by
  rw [slotAddressAt] at h
  by_cases room : off + 4 ≤ bodyEnd
  · rw [if_pos room] at h
    by_cases kind : raw.getD (off + 1) 0 >>> 6 = 0
    · rw [if_pos kind] at h
      obtain rfl := Option.some.inj h
      have few := length_phyAddresses raw bodyEnd (raw.getD off 0).toNat (off + 4)
      dsimp only
      omega
    · rw [if_neg kind] at h
      exact absurd h nofun
  · rw [if_neg room] at h
    exact absurd h nofun

/-- A descriptor of another type is passed over. -/
lemma slotAddressAt_other {bodyEnd : ℕ} {eip : Bool} {ei : Option UInt8}
    (kind : raw.getD (off + 1) 0 >>> 6 = 1) : slotAddressAt raw bodyEnd off eip ei = none := by
  have notSlot : ¬ (1 : UInt8) = 0 := by decide
  rw [slotAddressAt, kind, if_neg notSlot, ite_self]

section Written

variable {d : Descriptor} {rest : List UInt8}

lemma Descriptor.length_bytes (d : Descriptor) : d.bytes.length = 2 + d.body.length := by
  rw [Descriptor.bytes, List.length_cons, List.length_cons]
  omega

lemma getD_head (written : raw.drop off = d.bytes ++ rest) : raw.getD off 0 = d.head :=
  getD_of_drop written 0

lemma getD_length (written : raw.drop off = d.bytes ++ rest) (fits : d.body.length < 256) :
    (raw.getD (off + 1) 0).toNat = d.body.length := by
  rw [getD_of_drop written]
  exact UInt8.toNat_ofNat_of_lt' fits

lemma drop_body (written : raw.drop off = d.bytes ++ rest) : raw.drop (off + 2) = d.body ++ rest :=
  drop_behind (b := [d.head, UInt8.ofNat d.body.length]) written rfl

lemma le_length_descriptor (written : raw.drop off = d.bytes ++ rest) :
    off + 2 + d.body.length ≤ raw.length := by
  have room := le_length_of_drop written (by rw [d.length_bytes]; omega)
  rw [d.length_bytes] at room
  omega

lemma descriptorAt_invalid (written : raw.drop off = d.bytes ++ rest)
    (invalid : isSet d.head 0x80 = true) : descriptorAt raw raw.length off = some none := by
  rw [descriptorAt, getD_head written, invalid]
  exact if_neg (by simp)

lemma descriptorAt_indexed {i : UInt8} {tail : List UInt8}
    (written : raw.drop off = d.bytes ++ rest) (fits : d.body.length < 256)
    (head : d.head = 0x16) (body : d.body = [0, i] ++ tail) :
    descriptorAt raw raw.length off =
      some (slotAddressAt raw (off + 4 + tail.length) (off + 4) true (some i)) := by
  have room := le_length_descriptor written
  have len : d.body.length = 2 + tail.length := by
    rw [body, List.length_append]
    rfl
  have index : raw.getD (off + 2 + 1) 0 = i := by
    rw [getD_of_drop (drop_body written), body]
    rfl
  have stop : min (off + 2 + (2 + tail.length)) raw.length = off + 4 + tail.length := by omega
  rw [descriptorAt, getD_head written, getD_length written fits, index, head, len, stop, if_pos]
  · show (if off + 4 + tail.length < off + 2 + 2 then none else _) = _
    rw [if_neg (by omega)]
    rfl
  · rw [Bool.and_eq_true, decide_eq_true_eq]
    exact ⟨rfl, by omega⟩

lemma descriptorAt_unindexed (written : raw.drop off = d.bytes ++ rest)
    (fits : d.body.length < 256) (head : d.head = 0x06) :
    descriptorAt raw raw.length off =
      some (slotAddressAt raw (off + 2 + d.body.length) (off + 2) false none) := by
  have room := le_length_descriptor written
  rw [descriptorAt, getD_head written, getD_length written fits, head, Nat.min_eq_left room]
  by_cases empty : d.body.length = 0
  · rw [if_neg, slotAddressAt, if_neg (by omega)]
    rw [Bool.and_eq_true, decide_eq_true_eq]
    omega
  · rw [if_pos, if_neg (by decide)]
    · rfl
    · rw [Bool.and_eq_true, decide_eq_true_eq]
      exact ⟨rfl, by omega⟩

/-- The walk goes on behind a descriptor, unless that is empty. -/
lemma additionalFrom_written {found : Option SlotAddress}
    (written : raw.drop off = d.bytes ++ rest) (fits : d.body.length < 256)
    (reads : descriptorAt raw raw.length off = some found) :
    additionalFrom raw raw.length off =
      found.toList ++
        if d.body = [] then [] else additionalFrom raw raw.length (off + d.bytes.length) := by
  have room := le_length_descriptor written
  have len := getD_length written fits
  have empty : raw.getD (off + 1) 0 = 0 ↔ d.body = [] := by
    rw [← List.length_eq_zero_iff, ← len]
    exact UInt8.toNat_inj.symm
  rw [additionalFrom, if_pos (by omega), reads]
  dsimp only
  rw [len, d.length_bytes, Nat.add_assoc]
  congr 1
  exact if_congr empty rfl rfl

end Written

/-- Nothing is read at the end of the page. -/
lemma additionalFrom_end (past : raw.drop off = []) : additionalFrom raw raw.length off = [] := by
  rw [additionalFrom, if_neg]
  have len := List.drop_eq_nil_iff.mp past
  omega

end Walk

/-! ## With element indexes -/

/-- What a slot with an index is read as. -/
def Slot.addressed (ei : ℕ) (s : Slot) : Option SlotAddress :=
  match s.contents with
  | .invalid _ => none
  | .phys _ l =>
    some ⟨some (UInt8.ofNat ei), some s.number.toNat, l.map fun p => hexText p.address⟩

/-- The slots that are read, when as many single elements come before. -/
def addressedFrom : ℕ → List Spot → List SlotAddress
  | _, [] => []
  | ei, .overall _ _ :: sps => addressedFrom ei sps
  | ei, .slot _ _ s :: sps => (s.addressed ei).toList ++ addressedFrom (ei + 1) sps
  | ei, .other _ _ _ _ :: sps => addressedFrom (ei + 1) sps

section Walk

variable {raw : List UInt8} {off : ℕ} {rest : List UInt8}

lemma isSet_headByte (indexed : Bool) : isSet (headByte indexed false) 0x80 = true := by
  cases indexed <;> decide

lemma descriptor_of_invalid {s : Slot} {body : List UInt8} (h : s.contents = .invalid body)
    (indexed : Bool) (ei : ℕ) : s.descriptor indexed ei =
      ⟨headByte indexed false, indexBytes indexed ei ++ body⟩ := by
  rw [Slot.descriptor, h]

lemma descriptor_of_phys_indexed {s : Slot} {notAll : Bool} {l : List Phy}
    (h : s.contents = .phys notAll l) (ei : ℕ) : s.descriptor true ei =
      ⟨0x16, [0, UInt8.ofNat ei] ++ ([UInt8.ofNat l.length, if notAll then 1 else 0] ++
        ([0, s.number] ++ l.flatMap Phy.bytes))⟩ := by
  rw [Slot.descriptor, h]
  rfl

lemma descriptor_of_phys_unindexed {s : Slot} {notAll : Bool} {l : List Phy}
    (h : s.contents = .phys notAll l) (ei : ℕ) : s.descriptor false ei =
      ⟨0x06, [UInt8.ofNat l.length, if notAll then 1 else 0] ++ l.flatMap Phy.bytes⟩ := by
  rw [Slot.descriptor, h]
  rfl

lemma length_flatMap_bytes (l : List Phy) : (l.flatMap Phy.bytes).length = l.length * 28 := by
  induction l with
  | nil => rfl
  | cons p l ih =>
    rw [List.flatMap_cons, List.length_append, ih, p.length_bytes, List.length_cons]
    omega

lemma slotAddressAt_indexed {number : UInt8} {notAll : Bool} {l : List Phy} {ei : Option UInt8}
    (written : raw.drop off = [UInt8.ofNat l.length, if notAll then 1 else 0] ++
      ([0, number] ++ (l.flatMap Phy.bytes ++ rest))) (fits : l.length < 256) :
    slotAddressAt raw (off + (4 + l.length * 28)) off true ei =
      some ⟨ei, some number.toNat, l.map fun p => hexText p.address⟩ := by
  have phys : (raw.getD off 0).toNat = l.length := by
    rw [← Nat.add_zero off, getD_of_drop written]
    exact UInt8.toNat_ofNat_of_lt' fits
  have kind : raw.getD (off + 1) 0 >>> 6 = 0 := by
    rw [getD_of_drop written]
    show (if notAll = true then 1 else 0 : UInt8) >>> 6 = 0
    cases notAll <;> decide
  have numbered : raw.getD (off + 3) 0 = number := getD_of_drop written 3
  have behind : raw.drop (off + 4) = l.flatMap Phy.bytes ++ rest := by
    rw [← List.append_assoc] at written
    exact drop_behind written rfl
  rw [slotAddressAt, if_pos (by omega), phys, kind, numbered, if_pos rfl, ← Nat.add_assoc,
    phyAddresses_written behind]
  rfl

lemma descriptorAt_slot_indexed {s : Slot} {ei : ℕ}
    (written : raw.drop off = (s.descriptor true ei).bytes ++ rest)
    (fits : (s.descriptor true ei).body.length < 256) :
    descriptorAt raw raw.length off = some (s.addressed ei) := by
  rw [Slot.addressed]
  rcases contents : s.contents with body | ⟨notAll, l⟩
  · rw [descriptor_of_invalid contents] at written
    exact descriptorAt_invalid written (isSet_headByte _)
  · rw [descriptor_of_phys_indexed contents] at written fits
    have behind := drop_body written
    have len : ([UInt8.ofNat l.length, if notAll then 1 else 0] ++
        ([0, s.number] ++ l.flatMap Phy.bytes)).length = 4 + l.length * 28 := by
      rw [List.length_append, List.length_append, length_flatMap_bytes, ← Nat.add_assoc]
      rfl
    have short : l.length < 256 := by
      rw [List.length_append, len] at fits
      omega
    rw [List.append_assoc] at behind
    have phys : raw.drop (off + 4) = _ :=
      (drop_behind behind rfl : raw.drop (off + 2 + 2) = _)
    rw [List.append_assoc, List.append_assoc] at phys
    rw [descriptorAt_indexed written fits rfl rfl, len]
    exact congrArg some (slotAddressAt_indexed phys short)

/-- The byte with the type of a descriptor is in its body. -/
lemma About.getD_append (a : About) (valid : a.valid = true) (rest : List UInt8) :
    (a.body ++ rest).getD 1 0 = a.body.getD 1 0 := by
  have inside : 1 < a.body.length := by
    by_contra past
    have kind := a.kind valid
    rw [List.getD_eq_getElem?_getD, List.getElem?_eq_none (by omega)] at kind
    exact absurd kind (by decide)
  rw [List.getD_eq_getElem?_getD, List.getElem?_append_left inside, ← List.getD_eq_getElem?_getD]

lemma descriptorAt_about_indexed {a : About} {ei : ℕ}
    (written : raw.drop off = (a.descriptor true ei).bytes ++ rest)
    (fits : (a.descriptor true ei).body.length < 256) :
    descriptorAt raw raw.length off = some none := by
  rw [About.descriptor] at written fits
  cases valid : a.valid with
  | false =>
    rw [valid] at written
    exact descriptorAt_invalid written (isSet_headByte _)
  | true =>
    rw [valid] at written fits
    have behind : raw.drop (off + 2) = ([0, UInt8.ofNat ei] ++ a.body) ++ rest :=
      drop_body written
    rw [List.append_assoc] at behind
    have told : raw.drop (off + 4) = a.body ++ rest :=
      (drop_behind behind rfl : raw.drop (off + 2 + 2) = _)
    have kind : raw.getD (off + 4 + 1) 0 >>> 6 = 1 := by
      rw [getD_of_drop told, a.getD_append valid]
      exact a.kind valid
    rw [descriptorAt_indexed written fits rfl rfl]
    exact congrArg some (slotAddressAt_other kind)

/-- The walk over the descriptors of spots. -/
lemma additionalFrom_indexed {sps : List Spot} {ei : ℕ}
    (written : raw.drop off = (describeFrom true ei sps).flatMap Descriptor.bytes)
    (fits : ∀ d ∈ describeFrom true ei sps, d.body.length < 256) :
    additionalFrom raw raw.length off = addressedFrom ei sps := by
  induction sps generalizing off ei with
  | nil => exact additionalFrom_end written
  | cons sp sps ih =>
    cases sp with
    | overall t b => exact ih written fits
    | slot kind i s =>
      rw [describeFrom, List.flatMap_cons] at written
      have small := fits _ (List.mem_cons_self ..)
      have full : (s.descriptor true ei).body ≠ [] := by
        rw [Slot.descriptor]
        cases s.contents <;> exact List.cons_ne_nil _ _
      rw [additionalFrom_written written small (descriptorAt_slot_indexed written small),
        if_neg full, ih (drop_behind written rfl) fun d mem => fits d (List.mem_cons_of_mem _ mem)]
      rfl
    | other t notSlot i o =>
      rw [describeFrom] at written fits
      rw [addressedFrom]
      rcases about : o.about with _ | a
      · rw [about] at written fits
        exact ih written fits
      · rw [about] at written fits
        have small := fits _ (List.mem_cons_self ..)
        have full : (a.descriptor true ei).body ≠ [] := List.cons_ne_nil _ _
        rw [Option.map_some, Option.toList_some, List.singleton_append, List.flatMap_cons]
          at written
        rw [additionalFrom_written written small (descriptorAt_about_indexed written small),
          if_neg full,
          ih (drop_behind written rfl) fun d mem => fits d (List.mem_cons_of_mem _ mem)]
        rfl

end Walk

/-- **The slots of the additional page are those that are read behind its header**. -/
lemma parseAdditional_eq (e : Enclosure) :
    parseAdditional e.additional = additionalFrom e.additional e.additional.length 8 := by
  have stop : min (ofBe (slice e.additional 2 2) + 4) e.additional.length =
      e.additional.length := stop_pageOf e.additional_fits
  have page : ¬ ((e.additional.length < 8 || e.additional.getD 0 0 ≠ pageAdditional) = true) :=
    isPage_pageOf
  rw [parseAdditional, if_neg page, stop]

/-- **With element indexes the additional page gives the slots that are described**. -/
lemma parseAdditional_indexed (e : Enclosure) (indexed : e.indexed = true) :
    parseAdditional e.additional = addressedFrom 0 e.spots := by
  have written : e.additional.drop 8 = _ := drop_pageOf
  have fits := e.bodies_fit
  rw [indexed] at written fits
  rw [parseAdditional_eq]
  exact additionalFrom_indexed written fits

/-! ## Without element indexes -/

section Walk

variable {raw : List UInt8} {off : ℕ} {rest : List UInt8}

/-- A slot that is read without an index has fewer addresses than it was written with. -/
lemma descriptorAt_slot_unindexed {s : Slot} {ei : ℕ}
    (written : raw.drop off = (s.descriptor false ei).bytes ++ rest)
    (fits : (s.descriptor false ei).body.length < 256) :
    ∃ found, descriptorAt raw raw.length off = some found ∧
      ∀ sa ∈ found.toList, sa.sasAddresses.length < s.phys.length := by
  rw [Slot.phys]
  rcases contents : s.contents with body | ⟨notAll, l⟩
  · rw [descriptor_of_invalid contents] at written
    exact ⟨none, descriptorAt_invalid written (isSet_headByte _), nofun⟩
  · rw [descriptor_of_phys_unindexed contents] at written fits
    have len : ([UInt8.ofNat l.length, if notAll then 1 else 0] ++
        l.flatMap Phy.bytes).length = 2 + l.length * 28 := by
      rw [List.length_append, length_flatMap_bytes]
      rfl
    refine ⟨_, descriptorAt_unindexed written fits rfl, ?_⟩
    intro sa mem
    -- the phys are looked for two bytes behind where they are
    have room := length_of_slotAddressAt (Option.mem_toList.mp mem)
    rw [len] at room
    dsimp only
    omega

lemma descriptorAt_about_unindexed {a : About} {ei : ℕ}
    (written : raw.drop off = (a.descriptor false ei).bytes ++ rest)
    (fits : (a.descriptor false ei).body.length < 256) :
    descriptorAt raw raw.length off = some none := by
  rw [About.descriptor] at written fits
  cases valid : a.valid with
  | false =>
    rw [valid] at written
    exact descriptorAt_invalid written (isSet_headByte _)
  | true =>
    rw [valid] at written fits
    have told : raw.drop (off + 2) = a.body ++ rest := drop_body written
    have kind : raw.getD (off + 2 + 1) 0 >>> 6 = 1 := by
      rw [getD_of_drop told, a.getD_append valid]
      exact a.kind valid
    rw [descriptorAt_unindexed written fits rfl]
    exact congrArg some (slotAddressAt_other kind)

/-- The walk over the descriptors of spots. -/
lemma additionalFrom_unindexed {sps : List Spot} {ei : ℕ}
    (written : raw.drop off = (describeFrom false ei sps).flatMap Descriptor.bytes)
    (fits : ∀ d ∈ describeFrom false ei sps, d.body.length < 256) :
    ∀ sa ∈ additionalFrom raw raw.length off, ∃ kind i s, Spot.slot kind i s ∈ sps ∧
      sa.sasAddresses.length < s.phys.length := by
  induction sps generalizing off ei with
  | nil =>
    rw [additionalFrom_end written]
    exact nofun
  | cons sp sps ih =>
    -- a slot that is read further on is behind this spot
    have later {off' ei' : ℕ} {d : Descriptor}
        (behind : raw.drop off' = (describeFrom false ei' sps).flatMap Descriptor.bytes)
        (small : ∀ d ∈ describeFrom false ei' sps, d.body.length < 256) {sa : SlotAddress}
        (mem : sa ∈ if d.body = [] then [] else additionalFrom raw raw.length off') :
        ∃ kind i s, Spot.slot kind i s ∈ sp :: sps ∧
          sa.sasAddresses.length < s.phys.length := by
      split_ifs at mem
      · exact absurd mem List.not_mem_nil
      · obtain ⟨kind, i, s, among, fewer⟩ := ih behind small sa mem
        exact ⟨kind, i, s, List.mem_cons_of_mem _ among, fewer⟩
    intro sa mem
    cases sp with
    | overall t b =>
      obtain ⟨kind, i, s, among, fewer⟩ := ih written fits sa mem
      exact ⟨kind, i, s, List.mem_cons_of_mem _ among, fewer⟩
    | slot kind i s =>
      rw [describeFrom, List.flatMap_cons] at written
      have small := fits _ (List.mem_cons_self ..)
      obtain ⟨found, reads, fewer⟩ := descriptorAt_slot_unindexed written small
      rw [additionalFrom_written written small reads] at mem
      obtain here | behind := List.mem_append.mp mem
      · exact ⟨kind, i, s, List.mem_cons_self .., fewer sa here⟩
      · exact later (drop_behind written rfl) (fun d mem => fits d (List.mem_cons_of_mem _ mem))
          behind
    | other t notSlot i o =>
      rw [describeFrom] at written fits
      rcases about : o.about with _ | a
      · rw [about] at written fits
        obtain ⟨kind, i, s, among, fewer⟩ := ih written fits sa mem
        exact ⟨kind, i, s, List.mem_cons_of_mem _ among, fewer⟩
      · rw [about] at written fits
        have small := fits _ (List.mem_cons_self ..)
        rw [Option.map_some, Option.toList_some, List.singleton_append, List.flatMap_cons]
          at written
        rw [additionalFrom_written written small (descriptorAt_about_unindexed written small)]
          at mem
        exact later (drop_behind written rfl) (fun d mem => fits d (List.mem_cons_of_mem _ mem)) mem

end Walk

/-- **Without element indexes each slot that the additional page gives has fewer addresses than a
slot that was written**. -/
lemma length_of_mem_unindexed (e : Enclosure) (unindexed : e.indexed = false) {sa : SlotAddress}
    (mem : sa ∈ parseAdditional e.additional) : ∃ kind i s, Spot.slot kind i s ∈ e.spots ∧
      sa.sasAddresses.length < s.phys.length := by
  have written : e.additional.drop 8 = _ := drop_pageOf
  have fits := e.bodies_fit
  rw [unindexed] at written fits
  rw [parseAdditional_eq] at mem
  exact additionalFrom_unindexed written fits sa mem

end Ses

end StormDrive
