import StormDrive.Ses

set_option relaxedAutoImplicit false
set_option autoImplicit false

/-!
# SES control pages

The control pages that turn an indicator or the power of one element on or off (`ses.rs`), and what
an enclosure makes of them.

## Main definitions

* `buildIdentControl`, `buildFaultControl`, `buildPowerControl` — the pages.
* `applyControl` — an element after a control page: the requested bits of a selected element are
  replaced.
* `DoesAsAsked` — the page asks for one change of one element.

## Main results

* `doesAsAsked_iff` — **a page asks for that one change exactly when it does not ask for an
  indicator of a slot that is off**.
* `locate_turns_on` — lighting the indicator of a slot that is off turns the slot on.

## Implementation notes

Of the bits that a control page requests, those are looked at that the pages set: the indicators of
a slot and of the enclosure, and DEVICE OFF.
-/

namespace StormDrive

namespace Ses

open Bytes

/-! ## The pages -/

/-- A control page that selects nothing, with the generation and the length of the status page. -/
def blankControl (statusRaw : List UInt8) : List UInt8 :=
  let page := List.replicate statusRaw.length 0
  let page := put page 0 [pageStatus]
  let page := put page 2 (slice statusRaw 2 2)
  put page 4 (slice statusRaw 4 4)

/-- A bit that is set or not. -/
def bitIf (on : Bool) (mask : UInt8) : UInt8 := if on then mask else 0

/-- The control element that sets or clears IDENT. -/
def identControl (t : UInt8) (st : Status) (on : Bool) : Status :=
  if isSlot t then ⟨0x80, 0, bitIf on 0x02, st.b3 &&& 0x20⟩
  else if t = etEnclosure then ⟨0x80, bitIf on 0x80, 0, st.b3 &&& 0x03⟩
  else ⟨0x80, bitIf on 0x80, 0, 0⟩

def buildIdentControl (statusRaw : List UInt8) (off : ℕ) (t : UInt8) (on : Bool) :
    Option (List UInt8) :=
  if statusRaw.length < 8 || statusRaw.length < off + 4 then none
  else some (put (blankControl statusRaw) off (identControl t (.ofBytes statusRaw off) on).bytes)

/-- The control element that sets or clears a fault indicator. -/
def faultControl (t : UInt8) (st ctl : Status) (on : Bool) : Status :=
  if t = etEnclosure then
    { ctl with b1 := st.b1 &&& 0x80, b3 := (st.b3 &&& 0x01) ||| bitIf on 0x02 }
  else { ctl with b2 := st.b2 &&& 0x02, b3 := bitIf on 0x20 }

def buildFaultControl (statusRaw : List UInt8) (off : ℕ) (t : UInt8) (on : Bool) :
    Option (List UInt8) :=
  if isSlot t || t = etEnclosure then
    (buildIdentControl statusRaw off t false).map fun page =>
      put page off (faultControl t (.ofBytes statusRaw off) (.ofBytes page off) on).bytes
  else none

/-- The control element that turns a slot off or on. -/
def powerControl (st ctl : Status) (off : Bool) : Status :=
  { ctl with b2 := st.b2 &&& 0x02, b3 := (st.b3 &&& 0x20) ||| bitIf off 0x10 }

def buildPowerControl (statusRaw : List UInt8) (off : ℕ) (t : UInt8) (on : Bool) :
    Option (List UInt8) :=
  if isSlot t then
    (buildIdentControl statusRaw off t false).map fun page =>
      put page off (powerControl (.ofBytes statusRaw off) (.ofBytes page off) on).bytes
  else none

/-! ## What an enclosure makes of them -/

/-- What can be asked for. -/
inductive Request
  | ident
  | fault
  /-- DEVICE OFF. -/
  | power
  deriving DecidableEq

/-- The page for a request. -/
def build : Request → List UInt8 → ℕ → UInt8 → Bool → Option (List UInt8)
  | .ident => buildIdentControl
  | .fault => buildFaultControl
  | .power => buildPowerControl

/-- The bits of a slot or of the enclosure that a control page requests and the status shows. -/
inductive Indicator
  | ident
  | fault
  /-- DEVICE OFF of a slot. -/
  | off
  /-- REQUEST WARNING of the enclosure. -/
  | warning
  deriving DecidableEq

/-- What a request is about. -/
def Request.indicator : Request → Indicator
  | .ident => .ident
  | .fault => .fault
  | .power => .off

/-- The indicator as a slot or the enclosure shows it, at one place in the status and in the control
element. -/
def shows (t : UInt8) (i : Indicator) (st : Status) : Bool :=
  if isSlot t then
    match i with
    | .ident => isSet st.b2 0x02
    | .fault => isSet st.b3 0x20
    | .off => isSet st.b3 0x10
    | .warning => false
  else
    match i with
    | .ident => isSet st.b1 0x80
    | .fault => isSet st.b3 0x02
    | .off => false
    | .warning => isSet st.b3 0x01

/-- The bits under a mask replaced by those of another byte. -/
def replaced (b c mask : UInt8) : UInt8 := (b &&& ~~~mask) ||| (c &&& mask)

/-- A slot or the enclosure after a control page: the requested bits of a selected element are
replaced, and nothing of any other. -/
def applyControl (t : UInt8) (st ctl : Status) : Status :=
  if isSet ctl.b0 0x80 then
    if isSlot t then
      { st with b2 := replaced st.b2 ctl.b2 0x02, b3 := replaced st.b3 ctl.b3 0x30 }
    else { st with b1 := replaced st.b1 ctl.b1 0x80, b3 := replaced st.b3 ctl.b3 0x03 }
  else st

/-- **The page does what was asked**: it has the length and the generation of the status page,
selects the one element and is zero in all others, and of the indicators of that element the
enclosure changes the one that was asked for. -/
structure DoesAsAsked (raw page : List UInt8) (off : ℕ) (t : UInt8) (r : Request) (on : Bool) :
    Prop where
  length : page.length = raw.length
  generation : slice page 4 4 = slice raw 4 4
  selected : isSet (page.getD off 0) 0x80 = true
  others : ∀ i, 8 ≤ i → i < off ∨ off + 4 ≤ i → page.getD i 0 = 0
  changed : ∀ i, shows t i (applyControl t (.ofBytes raw off) (.ofBytes page off)) =
    if i = r.indicator then on else shows t i (.ofBytes raw off)

/-! ## Bits -/

section Bits

variable {b c mask n : UInt8}

lemma or_and (b c n : UInt8) : (b ||| c) &&& n = (b &&& n) ||| (c &&& n) := by
  apply UInt8.toBitVec_inj.mp
  ext i h
  simp only [UInt8.toBitVec_and, UInt8.toBitVec_or, BitVec.getElem_and, BitVec.getElem_or]
  exact Bool.and_or_distrib_right _ _ _

/-- A bit under the mask is the new one. -/
lemma replaced_and_of_sub (h : mask &&& n = n) : replaced b c mask &&& n = c &&& n := by
  have gone : ~~~mask &&& n = 0 := by
    rw [← h, ← UInt8.and_assoc, UInt8.and_comm (~~~mask), UInt8.and_not_self, UInt8.zero_and]
  rw [replaced, or_and, UInt8.and_assoc, UInt8.and_assoc, gone, h,
    UInt8.and_zero, UInt8.zero_or]

/-- A bit that was masked out is not set. -/
lemma isSet_and_of_apart (h : mask &&& n = 0) : isSet (b &&& mask) n = false := by
  rw [isSet, UInt8.and_assoc, h, UInt8.and_zero]
  rfl

lemma isSet_and_of_sub (h : mask &&& n = n) : isSet (b &&& mask) n = isSet b n := by
  rw [isSet, isSet, UInt8.and_assoc, h]

lemma isSet_replaced (h : mask &&& n = n) : isSet (replaced b c mask) n = isSet c n := by
  rw [isSet, isSet, replaced_and_of_sub h]

lemma isSet_or (b c n : UInt8) : isSet (b ||| c) n = (isSet b n || isSet c n) := by
  rw [isSet, isSet, isSet, or_and, ← Bool.decide_or]
  congr 1
  rw [ne_eq, UInt8.or_eq_zero_iff, not_and_or]

lemma isSet_bitIf_self (on : Bool) (h : mask ≠ 0) : isSet (bitIf on mask) mask = on := by
  cases on with
  | false => simp [isSet, bitIf]
  | true => simp [isSet, bitIf, h]

lemma isSet_bitIf_apart (on : Bool) (h : mask &&& n = 0) : isSet (bitIf on mask) n = false := by
  cases on with
  | false => simp [isSet, bitIf]
  | true => simp [isSet, bitIf, h]

end Bits

/-! ## What a page asks for -/

section Pages

variable {raw page : List UInt8} {off : ℕ} {t : UInt8}

/-- The first byte of the page, in zeros. -/
lemma length_put_pageStatus (long : 8 ≤ raw.length) :
    (put (List.replicate raw.length (0 : UInt8)) 0 [pageStatus]).length = raw.length := by
  rw [length_put (by simp; omega), List.length_replicate]

lemma length_blankControl (long : 8 ≤ raw.length) : (blankControl raw).length = raw.length := by
  have two : (slice raw 2 2).length = 2 := length_slice (by omega)
  have four : (slice raw 4 4).length = 4 := length_slice (by omega)
  have first := length_put_pageStatus long
  have second : (put (put (List.replicate raw.length (0 : UInt8)) 0 [pageStatus]) 2
      (slice raw 2 2)).length = raw.length := by
    rw [length_put (by rw [first, two]; omega), first]
  rw [blankControl, length_put (by rw [second, four]; omega), second]

/-- The control page before the element is written into it: the generation, and zeros from the
elements on. -/
lemma blankControl_spec (long : 8 ≤ raw.length) :
    slice (blankControl raw) 4 4 = slice raw 4 4 ∧
      ∀ i, 8 ≤ i → (blankControl raw).getD i 0 = 0 := by
  have two : (slice raw 2 2).length = 2 := length_slice (by omega)
  have four : (slice raw 4 4).length = 4 := length_slice (by omega)
  have first := length_put_pageStatus long
  have second : (put (put (List.replicate raw.length (0 : UInt8)) 0 [pageStatus]) 2
      (slice raw 2 2)).length = raw.length := by
    rw [length_put (by rw [first, two]; omega), first]
  constructor
  · have back : slice (blankControl raw) 4 (slice raw 4 4).length = slice raw 4 4 :=
      slice_put (by rw [second, four]; omega)
    rw [four] at back
    exact back
  · intro i after
    rw [List.getD_eq_getElem?_getD, blankControl, getElem?_put (by rw [second, four]; omega),
      if_neg (by rw [four]; omega), getElem?_put (by rw [first, two]; omega),
      if_neg (by rw [two]; omega), getElem?_put (by simp; omega),
      if_neg (by rw [List.length_singleton]; omega), List.getElem?_replicate]
    split_ifs <;> rfl

/-- A control page whose one element is this. -/
structure Asks (raw page : List UInt8) (off : ℕ) (ctl : Status) : Prop where
  length : page.length = raw.length
  generation : slice page 4 4 = slice raw 4 4
  element : Status.ofBytes page off = ctl
  others : ∀ i, 8 ≤ i → i < off ∨ off + 4 ≤ i → page.getD i 0 = 0

/-- An element that is written is read back. -/
lemma ofBytes_put (fits : off + 4 ≤ page.length) (s : Status) :
    Status.ofBytes (put page off s.bytes) off = s := by
  have four : s.bytes.length = 4 := rfl
  have byte : ∀ i < 4, (put page off s.bytes).getD (off + i) 0 = s.bytes.getD i 0 := by
    intro i h
    rw [List.getD_eq_getElem?_getD, List.getD_eq_getElem?_getD, getElem?_put (by omega),
      if_pos (by omega), Nat.add_sub_cancel_left]
  have first := byte 0 (by omega)
  rw [Nat.add_zero] at first
  rw [Status.ofBytes, first, byte 1 (by omega), byte 2 (by omega), byte 3 (by omega)]
  rfl

/-- A control page with another element at the same place asks for that. -/
lemma Asks.put {ctl : Status} (asks : Asks raw page off ctl) (behind : 8 ≤ off)
    (fits : off + 4 ≤ raw.length) (ctl' : Status) :
    Asks raw (put page off ctl'.bytes) off ctl' := by
  have four : ctl'.bytes.length = 4 := rfl
  have room : off + ctl'.bytes.length ≤ page.length := by rw [asks.length, four]; exact fits
  refine ⟨?_, ?_, ?_, fun i after apart => ?_⟩
  · rw [length_put room, asks.length]
  · rw [slice_put_of_disjoint room (.inl (by omega)), asks.generation]
  · exact ofBytes_put (by rw [asks.length]; exact fits) ctl'
  · rw [List.getD_eq_getElem?_getD, getElem?_put room, if_neg (by rw [four]; omega),
      ← List.getD_eq_getElem?_getD]
    exact asks.others i after apart

lemma asks_buildIdentControl (behind : 8 ≤ off) (fits : off + 4 ≤ raw.length) (t : UInt8)
    (on : Bool) : ∃ page, buildIdentControl raw off t on = some page ∧
      Asks raw page off (identControl t (.ofBytes raw off) on) := by
  have long : 8 ≤ raw.length := by omega
  obtain ⟨generation, zero⟩ := blankControl_spec long
  have blank : Asks raw (blankControl raw) off (.ofBytes (blankControl raw) off) :=
    ⟨length_blankControl long, generation, rfl, fun i after _ => zero i after⟩
  refine ⟨_, if_neg ?_, blank.put behind fits _⟩
  simp only [Bool.or_eq_true, decide_eq_true_eq]
  omega

/-- The control element of a request. -/
def controlOf (r : Request) (t : UInt8) (st : Status) (on : Bool) : Status :=
  match r with
  | .ident => identControl t st on
  | .fault => faultControl t st (identControl t st false) on
  | .power => powerControl st (identControl t st false) on

/-- The page for a request that the element takes asks for its control element. -/
lemma asks_build (behind : 8 ≤ off) (fits : off + 4 ≤ raw.length)
    (kind : isSlot t = true ∨ t = etEnclosure) {r : Request} (on : Bool)
    (takes : r = .power → isSlot t = true) : ∃ page, build r raw off t on = some page ∧
      Asks raw page off (controlOf r t (.ofBytes raw off) on) := by
  cases r with
  | ident => exact asks_buildIdentControl behind fits t on
  | fault =>
    obtain ⟨page, built, asks⟩ := asks_buildIdentControl behind fits t false
    refine ⟨_, ?_, asks.put behind fits _⟩
    rw [build, buildFaultControl, if_pos (by simpa using kind), built, Option.map_some,
      asks.element]
    rfl
  | power =>
    obtain ⟨page, built, asks⟩ := asks_buildIdentControl behind fits t false
    refine ⟨_, ?_, asks.put behind fits _⟩
    rw [build, buildPowerControl, if_pos (takes rfl), built, Option.map_some, asks.element]
    rfl

end Pages

/-! ## One change of one element -/

lemma selected_controlOf (r : Request) (t : UInt8) (st : Status) (on : Bool) :
    (controlOf r t st on).b0 = 0x80 := by
  have ident : ∀ on, (identControl t st on).b0 = 0x80 := by
    intro on
    unfold identControl
    split_ifs <;> rfl
  cases r with
  | ident => exact ident on
  | fault =>
    unfold controlOf faultControl
    split_ifs <;> exact ident false
  | power => exact ident false

/-- What a slot shows after a request: what was asked for, and the rest as before, but for DEVICE
OFF, which every other request clears. -/
lemma shows_slot {t : UInt8} (slot : isSlot t = true) (r : Request) (st : Status) (on : Bool)
    (i : Indicator) : shows t i (applyControl t st (controlOf r t st on)) =
      if i = r.indicator then on
      else if i = .off then false
      else shows t i st := by
  have other : t ≠ etEnclosure := by
    rintro rfl
    exact absurd slot (by decide)
  have lit : isSet (0x80 : UInt8) 0x80 = true := by decide
  rw [applyControl, selected_controlOf, if_pos lit, if_pos slot]
  cases r <;> cases i <;>
    simp (disch := decide) [shows, slot, other, controlOf, identControl, faultControl, powerControl,
      Request.indicator, isSet_replaced, isSet_or, isSet_and_of_sub, isSet_and_of_apart,
      isSet_bitIf_self, isSet_bitIf_apart]

/-- What the enclosure shows after a request that it takes: what was asked for, and the rest as
before. -/
lemma shows_enclosure {r : Request} (takes : r ≠ .power) (st : Status) (on : Bool) (i : Indicator) :
    shows etEnclosure i (applyControl etEnclosure st (controlOf r etEnclosure st on)) =
      if i = r.indicator then on else shows etEnclosure i st := by
  have other : isSlot etEnclosure = false := by decide
  have lit : isSet (0x80 : UInt8) 0x80 = true := by decide
  rw [applyControl, selected_controlOf, if_pos lit, if_neg (by rw [other]; exact nofun)]
  cases r <;> cases i <;>
    simp (disch := decide) [shows, other, controlOf, identControl, faultControl, Request.indicator,
      isSet_replaced, isSet_or, isSet_and_of_sub, isSet_and_of_apart, isSet_bitIf_self,
      isSet_bitIf_apart] at takes ⊢

/-- What the decoded element says of these bits. -/
lemma shows_decodeElement {t : UInt8} (kind : isSlot t = true ∨ t = etEnclosure) (index : ℕ)
    (overall : Bool) (st : Status) :
    (decodeElement t index overall st).ident = shows t .ident st ∧
      (shows t .fault st = true → (decodeElement t index overall st).fault = true) ∧
      (isSlot t = true →
        (shows t .off st = true ↔ "device off" ∈ (decodeElement t index overall st).flags)) := by
  obtain slot | rfl := kind
  · have or : (t = etDeviceSlot || t = etArrayDeviceSlot) = true := slot
    rw [decodeElement, if_pos or]
    refine ⟨by simp [shows, slot], by simp +contextual [shows, slot], fun _ => ?_⟩
    simp [shows, slot, flagsOf]
  · have other : ¬ isSlot etEnclosure = true := by decide
    have fault : (decodeElement etEnclosure index overall st).fault =
        (isSet st.b2 0x02 || isSet st.b3 0x02) := rfl
    refine ⟨?_, fun requested => ?_, fun slot => absurd slot other⟩
    · rw [shows, if_neg other]
      rfl
    · rw [shows, if_neg other] at requested
      rw [fault, requested, Bool.or_true]

/-- The request is answered by a page that does what was asked, or by none where there is nothing of
the kind to ask: the enclosure's element has no power bit. -/
def Asked (raw : List UInt8) (off : ℕ) (t : UInt8) (r : Request) (on : Bool) : Prop :=
  (∃ page, build r raw off t on = some page ∧ DoesAsAsked raw page off t r on) ∨
    (build r raw off t on = none ∧ r = .power ∧ t = etEnclosure)

/-- A page that asks for a control element does what was asked when the element changes so. -/
lemma asked_iff {raw page : List UInt8} {off : ℕ} {t : UInt8} {r : Request} {on : Bool}
    (built : build r raw off t on = some page)
    (asks : Asks raw page off (controlOf r t (.ofBytes raw off) on)) :
    Asked raw off t r on ↔ ∀ i, shows t i (applyControl t (.ofBytes raw off)
        (controlOf r t (.ofBytes raw off) on)) =
      if i = r.indicator then on else shows t i (.ofBytes raw off) := by
  have selected : isSet (page.getD off 0) 0x80 = true := by
    have first : page.getD off 0 = (controlOf r t (.ofBytes raw off) on).b0 :=
      congrArg Status.b0 asks.element
    rw [first, selected_controlOf]
    decide
  constructor
  · rintro (⟨page', built', does⟩ | ⟨none, -⟩)
    · obtain rfl := Option.some.inj (built.symm.trans built')
      have changed := does.changed
      rw [asks.element] at changed
      exact changed
    · exact absurd (built.symm.trans none) nofun
  · intro changed
    refine .inl ⟨page, built, asks.length, asks.generation, selected, asks.others, ?_⟩
    rw [asks.element]
    exact changed

/-- **A page asks for one change of one element exactly when it does not ask for an indicator of a
slot that is off**: for every element of a status page that is a slot or the enclosure.

**Proof sketch.** The page of a request is blank but for the one control element. Bit by bit that
is what was asked for, beside the other bits as they are, but for DEVICE OFF: only the page that is
about it has it. -/
theorem doesAsAsked_iff (cfg : Configuration) (raw : List UInt8) (status : StatusPage) (n : ℕ)
    (e : Element) (r : Request) (on : Bool) (parsed : parseStatus cfg raw = some status)
    (there : status.elements[n]? = some e)
    (kind : isSlot e.elementType = true ∨ e.elementType = etEnclosure) :
    Asked raw (elementOffset n) e.elementType r on ↔
      (isSlot e.elementType = true → r ≠ .power → isSet e.raw.b3 0x10 = false) := by
  obtain ⟨-, fits, p, -, same⟩ := elementAt_of_parseStatus parsed there
  have behind : 8 ≤ elementOffset n := Nat.le_add_right 8 _
  have bytes : e.raw = .ofBytes raw (elementOffset n) := by rw [same, raw_decodeElement]
  by_cases slot : isSlot e.elementType = true
  · obtain ⟨page, built, asks⟩ := asks_build behind fits kind (r := r) on fun _ => slot
    have off : ∀ st, shows e.elementType .off st = isSet st.b3 0x10 := by
      intro st
      rw [shows, if_pos slot]
    rw [asked_iff built asks, bytes]
    constructor
    · intro changed _ other
      have kept := changed .off
      have apart : Indicator.off ≠ r.indicator := by
        cases r with
        | ident => exact nofun
        | fault => exact nofun
        | power => exact absurd rfl other
      rw [shows_slot slot, if_neg apart, if_neg apart, if_pos rfl, off] at kept
      exact kept.symm
    · intro on' i
      rw [shows_slot slot]
      by_cases asked : i = r.indicator
      · rw [if_pos asked, if_pos asked]
      · rw [if_neg asked, if_neg asked]
        by_cases power : i = .off
        · have other : r ≠ .power := by
            rintro rfl
            exact asked power
          rw [if_pos power, power, off, on' slot other]
        · rw [if_neg power]
  · have enclosure := kind.resolve_left slot
    refine ⟨fun _ h => absurd h slot, fun _ => ?_⟩
    by_cases power : r = .power
    · refine .inr ⟨?_, power, enclosure⟩
      rw [power, build, buildPowerControl, if_neg slot]
    · obtain ⟨page, built, asks⟩ := asks_build behind fits kind (r := r) on
        fun h => absurd h power
      rw [asked_iff built asks, enclosure]
      exact shows_enclosure power _ on

/-- A shelf of one bay, which is off. -/
def darkShelf : List UInt8 := [0x02, 0, 0, 12, 0, 0, 0, 1] ++ [0, 0, 0, 0] ++ [1, 0, 0, 0x10]

/-- The configuration of that shelf. -/
def oneBay : Configuration := { generation := 1, types := [⟨etArrayDeviceSlot, 1, 0, ""⟩] }

/-- The bay of that shelf. -/
def darkBay : Element := decodeElement etArrayDeviceSlot 0 false ⟨1, 0, 0, 0x10⟩

/-- Turning the bay on is asked for by a page that does just that. -/
theorem power_asked : Asked darkShelf (elementOffset 1) darkBay.elementType .power false :=
  (doesAsAsked_iff oneBay darkShelf ⟨1, false, false, false, false, false,
    [decodeElement etArrayDeviceSlot 0 true ⟨0, 0, 0, 0⟩, darkBay]⟩ 1 darkBay .power false rfl rfl
    (.inl rfl)).mpr fun _ other => absurd rfl other

/-- **Lighting the indicator of a slot that is off turns the slot on**. -/
theorem locate_turns_on : ¬ Asked darkShelf (elementOffset 1) etArrayDeviceSlot .ident true := by
  have asked : ∃ page, build .ident darkShelf (elementOffset 1) etArrayDeviceSlot true = some page ∧
      Asks darkShelf page (elementOffset 1) (controlOf .ident etArrayDeviceSlot
        (.ofBytes darkShelf (elementOffset 1)) true) :=
    asks_build (by decide) (by decide) (.inl rfl) true nofun
  obtain ⟨page, built, asks⟩ := asked
  rw [asked_iff built asks]
  intro changed
  exact absurd (changed .off) (by decide)

end Ses

end StormDrive
