import StormDrive.Bytes.Bounds
import StormDrive.ShelfReport

set_option relaxedAutoImplicit false
set_option autoImplicit false

/-!
# Reading SES pages

The parsers of the seven pages of an enclosure (`ses.rs`), where each byte is looked up in the page
and a look outside it stops the program.

## Main definitions

* `SesReads.parseSupportedPages`, `parseConfiguration`, `parseStatus`, `parseHelpText`,
  `parseThresholds`, `parseDescriptors`, `parseAdditional` — the parsers.

## Main results

* `SesReads.parseConfiguration_eq`, `parseStatus_eq`, `parseAdditional_eq` — they come to an answer,
  the one of the parsers that take a byte outside the page for 0.
* `SesReads.reads_parseSupportedPages`, `reads_parseHelpText` — and so do the others.
* `SesReads.length_parseThresholds`, `length_parseDescriptors` — with no more thresholds or
  descriptors than there are elements.

## Implementation notes

Offsets are natural numbers. They stay below the length of the page and what lengths of one or two
bytes add for at most 65280 types.
-/

namespace StormDrive

namespace SesReads

open Bytes Ses

/-! ## The parsers -/

def pageSupported : UInt8 := 0x00
def pageHelp : UInt8 := 0x03
def pageThreshold : UInt8 := 0x05
def pageDescriptors : UInt8 := 0x07

/-- The big-endian number of `n` bytes at `off`. -/
def beAt (raw : List UInt8) (off n : ℕ) : Checked OutOfBounds ℕ := do
  return ofBe (← range raw off (off + n))

/-- The four bytes at `off`. -/
def statusAt (raw : List UInt8) (off : ℕ) : Checked OutOfBounds Status := do
  return ⟨← index raw off, ← index raw (off + 1), ← index raw (off + 2), ← index raw (off + 3)⟩

/-- The diagnostic pages that the enclosure answers. -/
def parseSupportedPages (raw : List UInt8) : Checked OutOfBounds (List UInt8) :=
  if raw.length < 4 then .ok []
  else do
    if (← index raw 0) ≠ pageSupported then return []
    else
      let len ← beAt raw 2 2
      range raw 4 (min (4 + len) raw.length)

/-- What the first enclosure descriptor says of the enclosure. -/
def identified (cfg : Configuration) (d : List UInt8) : Checked OutOfBounds Configuration := do
  let id ← range d 0 8
  let vendor ← range d 8 16
  let product ← range d 16 32
  let revision ← range d 32 36
  return { cfg with
    logicalId := if id.any (· ≠ 0) then some (hexText id) else cfg.logicalId
    vendor := textOf vendor
    product := textOf product
    revision := textOf revision }

/-- One enclosure descriptor: the offset goes past it, and its types are counted. -/
def readEnclosure (raw : List UInt8) (s : ℕ × ℕ × Configuration) (i : ℕ) :
    Checked OutOfBounds (Option (ℕ × ℕ × Configuration)) :=
  let off := s.1
  if raw.length < off + 4 then .ok none
  else do
    let nTypes := (← index raw (off + 2)).toNat
    let descLen := (← index raw (off + 3)).toNat
    if i = 0 && 36 ≤ descLen && off + 4 + descLen ≤ raw.length then
      let cfg ← identified s.2.2 (← range raw (off + 4) (off + 4 + descLen))
      return some (off + 4 + descLen, s.2.1 + nTypes, cfg)
    else return some (off + 4 + descLen, s.2.1 + nTypes, s.2.2)

/-- One enclosure descriptor after the other, up to one that the page does not have. -/
def readEnclosures (raw : List UInt8) : List ℕ → ℕ × ℕ × Configuration →
    Checked OutOfBounds (Option (ℕ × ℕ × Configuration))
  | [], s => .ok (some s)
  | i :: is, s => do
    match ← readEnclosure raw s i with
    | none => return none
    | some s => readEnclosures raw is s

/-- The type descriptor headers. -/
def readHeaders (raw : List UInt8) : ℕ → ℕ → Checked OutOfBounds (Option (List RawHeader))
  | 0, _ => .ok (some [])
  | n + 1, off =>
    if raw.length < off + 4 then .ok none
    else do
      let header : RawHeader := ⟨← index raw off, ← index raw (off + 1), ← index raw (off + 2),
        (← index raw (off + 3)).toNat⟩
      return (← readHeaders raw n (off + 4)).map (header :: ·)

/-- The text of a type, if the page has it. -/
def typeText (raw : List UInt8) (off len : ℕ) : Checked OutOfBounds String :=
  if 0 < len && off + len ≤ raw.length then do return textOf (← range raw off (off + len))
  else .ok ""

/-- The types, with their texts. -/
def readTexts (raw : List UInt8) : ℕ → List RawHeader → Checked OutOfBounds (List TypeHeader)
  | _, [] => .ok []
  | off, h :: headers => do
    let text ← typeText raw off h.textLen
    return ⟨h.elementType, h.count.toNat, h.subenclosure.toNat, text⟩ ::
      (← readTexts raw (off + h.textLen) headers)

def parseConfiguration (raw : List UInt8) : Checked OutOfBounds (Option Configuration) :=
  if raw.length < 8 then .ok none
  else do
    if (← index raw 0) ≠ pageConfig then return none
    else
      let secondaries := (← index raw 1).toNat
      let start : Configuration := { generation := ← beAt raw 4 4 }
      match ← readEnclosures raw (List.range (secondaries + 1)) (8, 0, start) with
      | none => return none
      | some s =>
        match ← readHeaders raw s.2.1 s.1 with
        | none => return none
        | some headers =>
          return some { s.2.2 with types := ← readTexts raw (s.1 + s.2.1 * 4) headers }

/-- The elements from an offset on, as far as the page goes. -/
def readElements (raw : List UInt8) (stop : ℕ) :
    ℕ → List Place → Checked OutOfBounds (List Element)
  | _, [] => .ok []
  | off, p :: ps =>
    if off + 4 ≤ stop then do
      let b ← statusAt raw off
      return decodeElement p.1 p.2.1 p.2.2 b :: (← readElements raw stop (off + 4) ps)
    else .ok []

def parseStatus (cfg : Configuration) (raw : List UInt8) :
    Checked OutOfBounds (Option StatusPage) :=
  if raw.length < 8 then .ok none
  else do
    if (← index raw 0) ≠ pageStatus then return none
    else
      let generation ← beAt raw 4 4
      let flags ← index raw 1
      let stop := min ((← beAt raw 2 2) + 4) raw.length
      let elements ← readElements raw stop 8 cfg.places
      return some
        { generation := generation
          invop := isSet flags 0x10
          info := isSet flags 0x08
          noncritical := isSet flags 0x04
          critical := isSet flags 0x02
          unrecoverable := isSet flags 0x01
          elements := elements }

/-- White space or a zero. -/
def isPadding (c : Char) : Bool := Text.isWhitespace c || c = '\x00'

/-- The help text of the enclosure, if it is not empty. -/
def parseHelpText (raw : List UInt8) : Checked OutOfBounds (Option String) :=
  if raw.length < 4 then .ok none
  else do
    if (← index raw 0) ≠ pageHelp then return none
    else
      let len ← beAt raw 2 2
      let text ← range raw 4 (min (4 + len) raw.length)
      let t := ((fromUtf8Lossy text).dropWhile isPadding).rdropWhile isPadding
      return if t = [] then none else some (String.ofList t)

/-- The thresholds of so many elements, as far as the page goes. -/
def readThresholds (raw : List UInt8) (stop : ℕ) : ℕ → ℕ → Checked OutOfBounds (List Status)
  | 0, _ => .ok []
  | n + 1, off =>
    if off + 4 ≤ stop then do
      let b ← statusAt raw off
      return b :: (← readThresholds raw stop n (off + 4))
    else .ok []

/-- The threshold bytes of the elements, in page order. -/
def parseThresholds (cfg : Configuration) (raw : List UInt8) : Checked OutOfBounds (List Status) :=
  if raw.length < 8 then .ok []
  else do
    if (← index raw 0) ≠ pageThreshold then return []
    else
      let stop := min ((← beAt raw 2 2) + 4) raw.length
      readThresholds raw stop cfg.places.length 8

/-- The text of an element, if the page has it and it is not empty. -/
def elementText (raw : List UInt8) (off len : ℕ) : Checked OutOfBounds (Option String) :=
  if 0 < len && off + len ≤ raw.length then do
    let t := textOf (← range raw off (off + len))
    return if t = "" then none else some t
  else .ok none

/-- The texts of so many elements; none for those that the page does not have. -/
def readDescriptors (raw : List UInt8) : ℕ → ℕ → Checked OutOfBounds (List (Option String))
  | 0, _ => .ok []
  | n + 1, off =>
    if raw.length < off + 4 then do return none :: (← readDescriptors raw n off)
    else do
      let dlen ← beAt raw (off + 2) 2
      let text ← elementText raw (off + 4) dlen
      return text :: (← readDescriptors raw n (off + 4 + dlen))

/-- The texts of the elements, in page order. -/
def parseDescriptors (cfg : Configuration) (raw : List UInt8) :
    Checked OutOfBounds (List (Option String)) :=
  if raw.length < 8 then .ok []
  else do
    if (← index raw 0) ≠ pageDescriptors then return []
    else readDescriptors raw cfg.places.length 8

/-- The addresses of phys one behind the other, as far as the descriptor goes. -/
def phyAddresses (raw : List UInt8) (stop : ℕ) : ℕ → ℕ → Checked OutOfBounds (List String)
  | 0, _ => .ok []
  | n + 1, p =>
    if stop < p + 28 then .ok []
    else do
      let sas ← range raw (p + 12) (p + 20)
      return (if sas.any (· ≠ 0) then [hexText sas] else []) ++
        (← phyAddresses raw stop n (p + 28))

/-- The number of a slot, which the descriptor has when it has an index. -/
def bayAt (raw : List UInt8) (eip : Bool) (p : ℕ) : Checked OutOfBounds (Option ℕ) :=
  if eip then do return some (← index raw p).toNat else .ok none

/-- The slot of a descriptor, from where its index is past. -/
def slotAddressAt (raw : List UInt8) (bodyEnd p : ℕ) (eip : Bool) (elementIndex : Option UInt8) :
    Checked OutOfBounds (Option SlotAddress) :=
  if p + 4 ≤ bodyEnd then do
    let nPhys := (← index raw p).toNat
    if (← index raw (p + 1)) >>> 6 = 0 then
      let bay ← bayAt raw eip (p + 3)
      return some ⟨elementIndex, bay, ← phyAddresses raw bodyEnd nPhys (p + 4)⟩
    else return none
  else .ok none

/-- What the descriptor at an offset gives; none where the walk stops. -/
def descriptorAt (raw : List UInt8) (stop off : ℕ) (b0 len : UInt8) :
    Checked OutOfBounds (Option (Option SlotAddress)) :=
  let eip := isSet b0 0x10
  let bodyStart := off + 2
  let bodyEnd := min (bodyStart + len.toNat) stop
  if !isSet b0 0x80 && b0 &&& 0x0F = 0x06 && bodyStart < bodyEnd then
    if eip then
      if bodyEnd < bodyStart + 2 then .ok none
      else do
        let elementIndex ← index raw (bodyStart + 1)
        return some (← slotAddressAt raw bodyEnd (bodyStart + 2) eip (some elementIndex))
    else do return some (← slotAddressAt raw bodyEnd bodyStart eip none)
  else .ok (some none)

/-- The slots of the descriptors from an offset on. -/
def additionalFrom (raw : List UInt8) (stop off : ℕ) : Checked OutOfBounds (List SlotAddress) :=
  if off + 2 ≤ stop then do
    let b0 ← index raw off
    let len ← index raw (off + 1)
    match ← descriptorAt raw stop off b0 len with
    | none => return []
    | some found =>
      if len = 0 then return found.toList
      else return found.toList ++ (← additionalFrom raw stop (off + 2 + len.toNat))
  else .ok []
termination_by stop - off

def parseAdditional (raw : List UInt8) : Checked OutOfBounds (List SlotAddress) :=
  if raw.length < 8 then .ok []
  else do
    if (← index raw 0) ≠ pageAdditional then return []
    else
      let stop := min ((← beAt raw 2 2) + 4) raw.length
      additionalFrom raw stop 8

/-! ## They stay inside -/

section Inside

variable {raw : List UInt8}

lemma beAt_eq {off n : ℕ} (h : off + n ≤ raw.length) :
    beAt raw off n = .ok (ofBe (slice raw off n)) := by
  rw [beAt, range_eq (Nat.le_add_right off n) h, Checked.ok_bind, Nat.add_sub_cancel_left]
  rfl

lemma statusAt_eq {off : ℕ} (h : off + 4 ≤ raw.length) :
    statusAt raw off = .ok (.ofBytes raw off) := by
  rw [statusAt, index_eq (by omega) 0, Checked.ok_bind, index_eq (by omega) 0, Checked.ok_bind,
    index_eq (by omega) 0, Checked.ok_bind, index_eq (by omega) 0, Checked.ok_bind]
  rfl

/-! ### The configuration page -/

lemma identified_eq {cfg : Configuration} {d : List UInt8} (long : 36 ≤ d.length) :
    identified cfg d = .ok (cfg.identified d) := by
  rw [identified, range_eq (by omega) (by omega), Checked.ok_bind, range_eq (by omega) (by omega),
    Checked.ok_bind, range_eq (by omega) (by omega), Checked.ok_bind,
    range_eq (by omega) (by omega), Checked.ok_bind]
  rfl

lemma readEnclosure_eq (s : ℕ × ℕ × Configuration) (i : ℕ) :
    readEnclosure raw s i = .ok (Ses.readEnclosure raw s i) := by
  rw [readEnclosure, Ses.readEnclosure]
  dsimp only
  by_cases short : raw.length < s.1 + 4
  · rw [if_pos short, if_pos short]
  · rw [if_neg short, if_neg short, index_eq (by omega) 0, Checked.ok_bind, index_eq (by omega) 0,
      Checked.ok_bind]
    generalize (raw.getD (s.1 + 3) 0).toNat = len
    split_ifs with first
    · simp only [Bool.and_eq_true, decide_eq_true_eq] at first
      have there : (slice raw (s.1 + 4) len).length = len := length_slice first.2
      rw [range_eq (Nat.le_add_right _ _) first.2, Checked.ok_bind, Nat.add_sub_cancel_left,
        identified_eq (by omega), Checked.ok_bind]
      rfl
    · rfl

lemma readEnclosures_eq (is : List ℕ) (s : ℕ × ℕ × Configuration) :
    readEnclosures raw is s = .ok (is.foldlM (Ses.readEnclosure raw) s) := by
  induction is generalizing s with
  | nil => rfl
  | cons i is ih =>
    rw [readEnclosures, readEnclosure_eq, Checked.ok_bind, List.foldlM_cons]
    cases Ses.readEnclosure raw s i with
    | none => rfl
    | some s' => exact ih s'

lemma readHeaders_eq (n off : ℕ) : readHeaders raw n off = .ok (Ses.readHeaders raw n off) := by
  induction n generalizing off with
  | zero => rfl
  | succ n ih =>
    rw [readHeaders, Ses.readHeaders]
    by_cases short : raw.length < off + 4
    · rw [if_pos short, if_pos short]
    · rw [if_neg short, if_neg short, index_eq (by omega) 0, Checked.ok_bind,
        index_eq (by omega) 0, Checked.ok_bind, index_eq (by omega) 0, Checked.ok_bind,
        index_eq (by omega) 0, Checked.ok_bind, ih, Checked.ok_bind]
      rfl

lemma typeText_eq (off len : ℕ) : typeText raw off len =
    .ok (if 0 < len && off + len ≤ raw.length then textOf (slice raw off len) else "") := by
  rw [typeText]
  split_ifs with there
  · simp only [Bool.and_eq_true, decide_eq_true_eq] at there
    rw [range_eq (Nat.le_add_right _ _) there.2, Checked.ok_bind, Nat.add_sub_cancel_left]
    rfl
  · rfl

lemma readTexts_eq (headers : List RawHeader) (off : ℕ) :
    readTexts raw off headers = .ok (Ses.readTexts raw off headers) := by
  induction headers generalizing off with
  | nil => rfl
  | cons h headers ih =>
    rw [readTexts, typeText_eq, Checked.ok_bind, ih, Checked.ok_bind, Ses.readTexts]
    rfl

/-- **The configuration page is read inside**, as by the plain parser. -/
theorem parseConfiguration_eq (raw : List UInt8) :
    parseConfiguration raw = .ok (Ses.parseConfiguration raw) := by
  rw [parseConfiguration, Ses.parseConfiguration]
  by_cases short : raw.length < 8
  · rw [if_pos short, decide_eq_true short, Bool.true_or, if_pos rfl]
  · rw [if_neg short, decide_eq_false short, Bool.false_or, index_eq (by omega) 0, Checked.ok_bind]
    by_cases other : raw.getD 0 0 ≠ pageConfig
    · rw [if_pos other, if_pos (decide_eq_true other)]
      rfl
    · rw [if_neg other, if_neg (by simpa using other), index_eq (by omega) 0, Checked.ok_bind,
        beAt_eq (by omega), Checked.ok_bind]
      dsimp only
      rw [readEnclosures_eq, Checked.ok_bind]
      cases (List.range ((raw.getD 1 0).toNat + 1)).foldlM (Ses.readEnclosure raw)
          (8, 0, ({ generation := ofBe (slice raw 4 4) } : Configuration)) with
      | none => rfl
      | some s =>
        dsimp only
        rw [readHeaders_eq, Checked.ok_bind, Option.bind_some]
        cases Ses.readHeaders raw s.2.1 s.1 with
        | none => rfl
        | some headers =>
          dsimp only
          rw [readTexts_eq, Checked.ok_bind]
          rfl

/-! ### The pages with something for each element -/

lemma readElements_eq {stop : ℕ} (inside : stop ≤ raw.length) (ps : List Place) (off : ℕ) :
    readElements raw stop off ps = .ok (Ses.readElements raw stop off ps) := by
  induction ps generalizing off with
  | nil => rfl
  | cons p ps ih =>
    rw [readElements, Ses.readElements]
    split_ifs with room
    · rw [statusAt_eq (by omega), Checked.ok_bind, ih, Checked.ok_bind]
      rfl
    · rfl

/-- **The status page is read inside**, as by the plain parser. -/
theorem parseStatus_eq (cfg : Configuration) (raw : List UInt8) :
    parseStatus cfg raw = .ok (Ses.parseStatus cfg raw) := by
  rw [parseStatus, Ses.parseStatus]
  by_cases short : raw.length < 8
  · rw [if_pos short, decide_eq_true short, Bool.true_or, if_pos rfl]
  · rw [if_neg short, decide_eq_false short, Bool.false_or, index_eq (by omega) 0, Checked.ok_bind]
    by_cases other : raw.getD 0 0 ≠ pageStatus
    · rw [if_pos other, if_pos (decide_eq_true other)]
      rfl
    · rw [if_neg other, if_neg (by simpa using other), beAt_eq (by omega), Checked.ok_bind,
        index_eq (by omega) 0, Checked.ok_bind, beAt_eq (by omega), Checked.ok_bind]
      dsimp only
      rw [readElements_eq (Nat.min_le_right ..), Checked.ok_bind]
      rfl

lemma length_readThresholds {stop : ℕ} (inside : stop ≤ raw.length) (n off : ℕ) :
    ∃ l, readThresholds raw stop n off = .ok l ∧ l.length ≤ n := by
  induction n generalizing off with
  | zero => exact ⟨[], rfl, le_rfl⟩
  | succ n ih =>
    rw [readThresholds]
    split_ifs with room
    · obtain ⟨l, hl, few⟩ := ih (off + 4)
      rw [statusAt_eq (by omega), Checked.ok_bind, hl, Checked.ok_bind]
      exact ⟨_, rfl, Nat.succ_le_succ few⟩
    · exact ⟨[], rfl, Nat.zero_le _⟩

/-- **The threshold page is read inside**, with no more thresholds than elements. -/
theorem length_parseThresholds (cfg : Configuration) (raw : List UInt8) :
    ∃ l, parseThresholds cfg raw = .ok l ∧ l.length ≤ cfg.places.length := by
  rw [parseThresholds]
  by_cases short : raw.length < 8
  · rw [if_pos short]
    exact ⟨[], rfl, Nat.zero_le _⟩
  · rw [if_neg short, index_eq (by omega) 0, Checked.ok_bind]
    split_ifs
    · exact ⟨[], rfl, Nat.zero_le _⟩
    · rw [beAt_eq (by omega), Checked.ok_bind]
      exact length_readThresholds (Nat.min_le_right ..) _ 8

lemma reads_elementText (raw : List UInt8) (off len : ℕ) : Reads (elementText raw off len) := by
  rw [elementText]
  split_ifs with there
  · simp only [Bool.and_eq_true, decide_eq_true_eq] at there
    rw [range_eq (Nat.le_add_right _ _) there.2, Checked.ok_bind]
    exact reads_ok _
  · exact reads_ok _

lemma length_readDescriptors (raw : List UInt8) (n off : ℕ) :
    ∃ l, readDescriptors raw n off = .ok l ∧ l.length = n := by
  induction n generalizing off with
  | zero => exact ⟨[], rfl, rfl⟩
  | succ n ih =>
    rw [readDescriptors]
    split_ifs with short
    · obtain ⟨l, hl, many⟩ := ih off
      rw [hl, Checked.ok_bind]
      exact ⟨none :: l, rfl, congrArg (· + 1) many⟩
    · rw [beAt_eq (by omega), Checked.ok_bind]
      obtain ⟨text, ht⟩ := reads_elementText raw (off + 4) (ofBe (slice raw (off + 2) 2))
      obtain ⟨l, hl, many⟩ := ih (off + 4 + ofBe (slice raw (off + 2) 2))
      rw [ht, Checked.ok_bind, hl, Checked.ok_bind]
      exact ⟨text :: l, rfl, congrArg (· + 1) many⟩

/-- **The descriptor page is read inside**, with no more descriptors than elements. -/
theorem length_parseDescriptors (cfg : Configuration) (raw : List UInt8) :
    ∃ l, parseDescriptors cfg raw = .ok l ∧ l.length ≤ cfg.places.length := by
  rw [parseDescriptors]
  by_cases short : raw.length < 8
  · rw [if_pos short]
    exact ⟨[], rfl, Nat.zero_le _⟩
  · rw [if_neg short, index_eq (by omega) 0, Checked.ok_bind]
    split_ifs
    · exact ⟨[], rfl, Nat.zero_le _⟩
    · obtain ⟨l, hl, many⟩ := length_readDescriptors raw cfg.places.length 8
      exact ⟨l, hl, many.le⟩

/-! ### The pages for the enclosure -/

/-- **The page of supported pages is read inside.** -/
theorem reads_parseSupportedPages (raw : List UInt8) : Reads (parseSupportedPages raw) := by
  rw [parseSupportedPages]
  by_cases short : raw.length < 4
  · rw [if_pos short]
    exact reads_ok _
  · rw [if_neg short, index_eq (by omega) 0, Checked.ok_bind]
    split_ifs
    · exact reads_ok _
    · rw [beAt_eq (by omega), Checked.ok_bind, range_eq (by omega) (Nat.min_le_right ..)]
      exact reads_ok _

/-- **The help page is read inside.** -/
theorem reads_parseHelpText (raw : List UInt8) : Reads (parseHelpText raw) := by
  rw [parseHelpText]
  by_cases short : raw.length < 4
  · rw [if_pos short]
    exact reads_ok _
  · rw [if_neg short, index_eq (by omega) 0, Checked.ok_bind]
    split_ifs
    · exact reads_ok _
    · rw [beAt_eq (by omega), Checked.ok_bind, range_eq (by omega) (Nat.min_le_right ..),
        Checked.ok_bind]
      exact reads_ok _

/-! ### The additional page -/

lemma phyAddresses_eq {stop : ℕ} (inside : stop ≤ raw.length) (n p : ℕ) :
    phyAddresses raw stop n p = .ok (Ses.phyAddresses raw stop n p) := by
  induction n generalizing p with
  | zero => rfl
  | succ n ih =>
    rw [phyAddresses, Ses.phyAddresses]
    split_ifs with short
    · rfl
    · have eight : p + 20 - (p + 12) = 8 := by omega
      rw [range_eq (by omega) (by omega), Checked.ok_bind, ih, Checked.ok_bind, eight]
      rfl

lemma bayAt_eq {p : ℕ} (inside : p < raw.length) (eip : Bool) :
    bayAt raw eip p = .ok (if eip then some (raw.getD p 0).toNat else none) := by
  cases eip with
  | false => rfl
  | true =>
    rw [bayAt, if_pos rfl, index_eq inside 0]
    rfl

lemma slotAddressAt_eq {bodyEnd : ℕ} (inside : bodyEnd ≤ raw.length) (p : ℕ) (eip : Bool)
    (elementIndex : Option UInt8) : slotAddressAt raw bodyEnd p eip elementIndex =
      .ok (Ses.slotAddressAt raw bodyEnd p eip elementIndex) := by
  rw [slotAddressAt, Ses.slotAddressAt]
  by_cases room : p + 4 ≤ bodyEnd
  · rw [if_pos room, if_pos room, index_eq (by omega) 0, Checked.ok_bind, index_eq (by omega) 0,
      Checked.ok_bind]
    dsimp only
    by_cases device : raw.getD (p + 1) 0 >>> 6 = 0
    · rw [if_pos device, if_pos device, bayAt_eq (by omega), Checked.ok_bind,
        phyAddresses_eq inside, Checked.ok_bind]
      rfl
    · rw [if_neg device, if_neg device]
      rfl
  · rw [if_neg room, if_neg room]

lemma descriptorAt_eq {stop off : ℕ} (inside : stop ≤ raw.length) :
    descriptorAt raw stop off (raw.getD off 0) (raw.getD (off + 1) 0) =
      .ok (Ses.descriptorAt raw stop off) := by
  rw [descriptorAt, Ses.descriptorAt]
  have body : ∀ len, min (off + 2 + len) stop ≤ raw.length := fun len =>
    (Nat.min_le_right ..).trans inside
  split_ifs with usable indexed short
  · rfl
  · have room := body (raw.getD (off + 1) 0).toNat
    rw [index_eq (by omega) 0, Checked.ok_bind, slotAddressAt_eq (body _), Checked.ok_bind]
    rfl
  · rw [slotAddressAt_eq (body _), Checked.ok_bind]
    rfl
  · rfl

lemma additionalFrom_eq {stop : ℕ} (inside : stop ≤ raw.length) (off : ℕ) :
    additionalFrom raw stop off = .ok (Ses.additionalFrom raw stop off) := by
  induction left : stop - off using Nat.strong_induction_on generalizing off with
  | _ n ih =>
    rw [additionalFrom, Ses.additionalFrom]
    by_cases room : off + 2 ≤ stop
    · rw [if_pos room, if_pos room, index_eq (by omega) 0, Checked.ok_bind,
        index_eq (by omega) 0, Checked.ok_bind, descriptorAt_eq inside, Checked.ok_bind]
      cases Ses.descriptorAt raw stop off with
      | none => rfl
      | some found =>
        dsimp only
        by_cases last : raw.getD (off + 1) 0 = 0
        · rw [if_pos last, if_pos last, List.append_nil]
          rfl
        · rw [if_neg last, if_neg last, ih _ (by omega) _ rfl, Checked.ok_bind]
          rfl
    · rw [if_neg room, if_neg room]

/-- **The additional page is read inside**, as by the plain parser. -/
theorem parseAdditional_eq (raw : List UInt8) :
    parseAdditional raw = .ok (Ses.parseAdditional raw) := by
  rw [parseAdditional, Ses.parseAdditional]
  by_cases short : raw.length < 8
  · rw [if_pos short, decide_eq_true short, Bool.true_or, if_pos rfl]
  · rw [if_neg short, decide_eq_false short, Bool.false_or, index_eq (by omega) 0, Checked.ok_bind]
    by_cases other : raw.getD 0 0 ≠ pageAdditional
    · rw [if_pos other, if_pos (decide_eq_true other)]
      rfl
    · rw [if_neg other, if_neg (by simpa using other), beAt_eq (by omega), Checked.ok_bind]
      exact additionalFrom_eq (Nat.min_le_right ..) 8

end Inside

end SesReads

end StormDrive
