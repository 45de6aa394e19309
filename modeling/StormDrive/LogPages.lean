import StormDrive.Counters
import StormDrive.Bytes.Records

set_option relaxedAutoImplicit false
set_option autoImplicit false

/-!
# Log pages

The readers of the LOG SENSE pages of a SAS drive (`smart/scsi.rs`): the parameters of a page, and
what five readers take from them.

## Main definitions

* `logParams` — the parameters of a page, the last one as far as the page goes.
* `parseIe`, `parseTemperature`, `parseReferenceTemperature`, `parseErrorCounters`,
  `parseSsdEndurance` — the readers.
* `LogPage` — a page that is well formed.
* `TruncationSafe` — what the readers promise of a page that is cut off.
* `CutBeside` — where a page may be cut off.

## Main results

* `truncationSafe_iff` — **a page that is cut off is read as the whole page or not at all exactly
  when it is not cut inside a counter that counts something, or before the temperature of the
  informational exceptions page**.
* `cut_counter_shrinks` — a counter that is cut in half is read as another number.

## Implementation notes

A counter has at most eight bytes, so that its `u64` is the number of its bytes.
-/

namespace StormDrive

namespace LogSense

open Bytes

/-! ## The parameters of a page -/

/-- A parameter: its code and its data. -/
abbrev Param : Type := ℕ × List UInt8

/-- One parameter of a page that ends at `stop`: the list with it. -/
def logParam (raw : List UInt8) (stop off len : ℕ) (out : List Param) :
    Checked OutOfBounds (ForInStep (List Param)) := do
  let hi ← index raw off
  let lo ← index raw (off + 1)
  match part raw (off + 4) (min (off + 4 + len) stop) with
  | none => return .done out
  | some data => return .yield (out ++ [(ofBe [hi, lo], data)])

/-- The parameters of a log page. -/
def logParams (raw : List UInt8) (page : UInt8) : Checked OutOfBounds (List Param) :=
  if raw.length < 4 then .ok []
  else do
    let code ← index raw 0
    if code &&& 0x3F ≠ page then return []
    else
      let hi ← index raw 2
      let lo ← index raw 3
      let stop := min (4 + ofBe [hi, lo]) raw.length
      forRecords 3 raw stop (logParam raw stop) 4 []

/-- The data of the first parameter with a code. -/
def dataOf (code : ℕ) (ps : List Param) : Option (List UInt8) :=
  (ps.find? fun p => p.1 = code).map (·.2)

/-! ## The readers -/

/-- An informational exception. -/
structure IeCode where
  asc : UInt8
  ascq : UInt8
  deriving DecidableEq

/-- What the informational exceptions page says. -/
structure Ie where
  /-- None when there is no exception. -/
  code : Option IeCode
  temperatureC : Option ℤ
  deriving DecidableEq

/-- A reader of one parameter of a page. -/
def readParam {β : Type} (page : UInt8) (code : ℕ)
    (read : List UInt8 → Checked OutOfBounds (Option β)) (raw : List UInt8) :
    Checked OutOfBounds (Option β) := do
  let ps ← logParams raw page
  match dataOf code ps with
  | none => return none
  | some d => read d

/-- A temperature, with 0xFF for none. -/
def degrees (t : UInt8) : Option ℤ := if t ≠ 0xFF then some t.toNat else none

/-- A temperature, with 0xFF and 0 for none. -/
def someDegrees (t : UInt8) : Option ℤ := if t ≠ 0xFF ∧ t ≠ 0 then some t.toNat else none

/-- The exception and the temperature in a parameter. -/
def ieOf (d : List UInt8) : Checked OutOfBounds (Option Ie) :=
  if d.length < 2 then .ok none
  else do
    let asc ← index d 0
    let ascq ← index d 1
    return some ⟨if asc ≠ 0 then some ⟨asc, ascq⟩ else none, d[2]?.bind someDegrees⟩

/-- The informational exceptions page. -/
def parseIe : List UInt8 → Checked OutOfBounds (Option Ie) := readParam 0x2F 0 ieOf

/-- The temperature page: the temperature. -/
def parseTemperature : List UInt8 → Checked OutOfBounds (Option ℤ) :=
  readParam 0x0D 0 fun d => .ok (d[1]?.bind degrees)

/-- The limits that a drive gives itself. -/
structure TempLimits where
  warnC : Option ℤ
  critC : Option ℤ
  source : String
  deriving DecidableEq

/-- The limits of a drive that is rated for so many degrees. -/
def ratedLimits (t : ℤ) : TempLimits := ⟨some (t - 5), some t, "log_sense_0x0d"⟩

/-- The temperature page: the most the drive is rated for, as its limits. -/
def parseReferenceTemperature : List UInt8 → Checked OutOfBounds (Option TempLimits) :=
  readParam 0x0D 1 fun d => .ok ((d[1]?.bind someDegrees).map ratedLimits)

/-- The endurance that an SSD has used. -/
def parseSsdEndurance : List UInt8 → Checked OutOfBounds (Option UInt8) :=
  readParam 0x11 1 fun d => .ok d[3]?

/-- The counter in a parameter: a number of any length from one byte to eight. -/
def counterOf (d : List UInt8) : Option ℕ :=
  if d ≠ [] ∧ d.length ≤ 8 then some (ofBe d) else none

/-- The parameter of an error counter page. -/
def paramCode : ErrorParam → ℕ
  | .corrected => 3
  | .uncorrected => 6
  | .bytes => 5

/-- An error counter page: each counter that it has. -/
def parseErrorCounters (raw : List UInt8) (page : UInt8) :
    Checked OutOfBounds (Option ErrorCounters) := do
  let ps ← logParams raw page
  return StormDrive.parseErrorCounters fun param => (dataOf (paramCode param) ps).bind counterOf

/-- The number of an error counter page. -/
def pageCode : ErrorPage → UInt8
  | .write => 0x02
  | .read => 0x03
  | .verify => 0x05

/-- One counter of an error counter page. -/
def parseCounter (page : ErrorPage) (param : ErrorParam) (raw : List UInt8) :
    Checked OutOfBounds (Option ℕ) := do
  return (← parseErrorCounters raw (pageCode page)).bind fun c => c param

/-! ## Pages -/

/-- The code of a parameter as it is written. -/
def recordCode (r : Record 3) : ℕ := ofBe (r.head.take 2)

/-- The first of them with a code. -/
def firstWith (code : ℕ) (rs : List (Record 3)) : Option (Record 3) :=
  rs.find? fun r => recordCode r = code

/-- The bytes of the parameters before the first with a code. -/
def bytesBefore (code : ℕ) (rs : List (Record 3)) : ℕ :=
  ((rs.takeWhile fun r => recordCode r ≠ code).flatMap Record.bytes).length

/-- A log page: its first two bytes and its parameters. -/
structure LogPage where
  first : UInt8
  subpage : UInt8
  params : List (Record 3)
  fits : (params.flatMap Record.bytes).length < 2 ^ 16

namespace LogPage

variable (p : LogPage)

/-- The parameters as they are written. -/
def body : List UInt8 := p.params.flatMap Record.bytes

def bytes : List UInt8 := [p.first, p.subpage] ++ be 2 p.body.length ++ p.body

/-- The number of the page. -/
def code : UInt8 := p.first &&& 0x3F

/-- The parameters that were written. -/
def list : List Param := p.params.map fun r => (recordCode r, r.data)

/-- The data of the first parameter with a code. -/
def data (code : ℕ) : Option (List UInt8) := (firstWith code p.params).map (·.data)

/-- Where the data of the first parameter with a code begins. -/
def start (code : ℕ) : ℕ := 4 + bytesBefore code p.params + 4

end LogPage

/-! ## What is promised -/

/-- A page that is cut off is read as the whole page, or not at all. -/
def Harmless {β : Type} (read : List UInt8 → Checked OutOfBounds (Option β)) (p : LogPage) (n : ℕ) :
    Prop :=
  ∃ whole cut, read p.bytes = .ok whole ∧ read (p.bytes.take n) = .ok cut ∧
    (cut = none ∨ cut = whole)

/-- **What the readers promise** of a page that is cut off at `n`: it gives each the reading of the
whole page or none. The whole page gives its parameters, and no reader leaves what it is given,
whatever that is. -/
structure TruncationSafe (p : LogPage) (n : ℕ) : Prop where
  params : logParams p.bytes p.code = .ok p.list
  ie : Harmless parseIe p n
  temperature : Harmless parseTemperature p n
  reference : Harmless parseReferenceTemperature p n
  counters : ∀ page param, Harmless (parseCounter page param) p n
  endurance : Harmless parseSsdEndurance p n
  inside : ∀ raw, Reads (parseIe raw) ∧ Reads (parseTemperature raw) ∧
    Reads (parseReferenceTemperature raw) ∧ (∀ page, Reads (parseErrorCounters raw page)) ∧
    Reads (parseSsdEndurance raw) ∧ ∀ page, Reads (logParams raw page)

/-- **Where a page may be cut off**: not right before the temperature of the informational
exceptions page, and of an error counter page not inside the data of a counter, unless what is left
of it has more than eight bytes, or the counter is zero and has no more than eight. -/
structure CutBeside (p : LogPage) (n : ℕ) : Prop where
  ie : p.code = 0x2F → ∀ d, p.data 0 = some d → n = p.start 0 + 2 →
    d.getD 2 0 = 0 ∨ d.getD 2 0 = 0xFF
  counters : (∃ page, p.code = pageCode page) → ∀ param d, p.data (paramCode param) = some d →
    p.start (paramCode param) < n → n < p.start (paramCode param) + d.length →
    n ≤ p.start (paramCode param) + 8 → d.length ≤ 8 ∧ ofBe d = 0

/-! ## The parameters of a page that is cut off -/

/-- The parameter at a record, as far as the page goes. -/
def paramAt (raw : List UInt8) (stop : ℕ) (r : ℕ × ℕ) : Param :=
  (ofBe [raw.getD r.1 0, raw.getD (r.1 + 1) 0],
    slice raw (r.1 + 4) (min (r.1 + 4 + r.2) stop - (r.1 + 4)))

/-- A record whose length byte is there is read without leaving the page. -/
lemma logParam_eq {raw : List UInt8} {stop : ℕ} {r : ℕ × ℕ} (fits : stop ≤ raw.length)
    (h : r.1 + 3 < stop) (out : List Param) :
    logParam raw stop r.1 r.2 out = .ok (.yield (out ++ [paramAt raw stop r])) := by
  rw [logParam, index_eq (by omega) 0, Checked.ok_bind, index_eq (by omega) 0, Checked.ok_bind,
    part_eq (by omega) (by omega)]
  rfl

/-- The parameters of a page are its records. -/
lemma logParams_eq {raw : List UInt8} {page : UInt8} (long : 4 ≤ raw.length)
    (code : raw.getD 0 0 &&& 0x3F = page) : logParams raw page =
      .ok (let stop := min (4 + ofBe [raw.getD 2 0, raw.getD 3 0]) raw.length
        (recordsAt 3 raw stop 4).map (paramAt raw stop)) := by
  rw [logParams, if_neg (by omega), index_eq (by omega) 0, Checked.ok_bind]
  dsimp only
  rw [if_neg (not_not.mpr code), index_eq (by omega) 0, Checked.ok_bind, index_eq (by omega) 0,
    Checked.ok_bind]
  have fits : min (4 + ofBe [raw.getD 2 0, raw.getD 3 0]) raw.length ≤ raw.length :=
    Nat.min_le_right ..
  rw [forRecords_eq fits, forIn_eq_foldl fun r mem out =>
    logParam_eq fits (lt_of_mem_recordsAt mem) out, List.foldl_append_eq_append, List.nil_append,
    ← List.flatMap_def, ← List.map_eq_flatMap]

/-- A page of another number, or one without a header, has no parameters. -/
lemma logParams_eq_nil {raw : List UInt8} {page : UInt8}
    (h : raw.length < 4 ∨ raw.getD 0 0 &&& 0x3F ≠ page) : logParams raw page = .ok [] := by
  unfold logParams
  split_ifs with short
  · rfl
  · rw [index_eq (by omega) 0, Checked.ok_bind]
    dsimp only
    rw [if_pos (h.resolve_left short)]
    rfl

lemma reads_logParams (raw : List UInt8) (page : UInt8) : Reads (logParams raw page) := by
  by_cases h : raw.length < 4 ∨ raw.getD 0 0 &&& 0x3F ≠ page
  · exact ⟨_, logParams_eq_nil h⟩
  · rw [not_or, not_not] at h
    exact ⟨_, logParams_eq (Nat.le_of_not_lt h.1) h.2⟩

/-- The parameters of which `left` bytes are there. -/
def cut : ℕ → List (Record 3) → List Param
  | _, [] => []
  | left, r :: rs =>
    if 4 ≤ left then (recordCode r, r.data.take (left - 4)) :: cut (left - r.size) rs else []

/-- All of them are there. -/
lemma cut_eq_of_le {left : ℕ} {rs : List (Record 3)}
    (all : (rs.flatMap Record.bytes).length ≤ left) :
    cut left rs = rs.map fun r => (recordCode r, r.data) := by
  induction rs generalizing left with
  | nil => rfl
  | cons r rs ih =>
    rw [List.flatMap_cons, List.length_append, r.length_bytes] at all
    have size : r.size = 3 + 1 + r.data.length := rfl
    rw [cut, if_pos (by omega), ih (by omega), List.map_cons, List.take_of_length_le (by omega)]

/-- The walk of a page that is cut off meets the parameters that are there. -/
lemma map_paramAt {b : List UInt8} {off n stop : ℕ} {rs : List (Record 3)} {rest : List UInt8}
    (written : b.drop off = rs.flatMap Record.bytes ++ rest) (within : stop ≤ n) :
    ((layout off rs).takeWhile fun r => r.1 + 3 < stop).map (paramAt (b.take n) stop) =
      cut (stop - off) rs := by
  induction rs generalizing off with
  | nil => rfl
  | cons r rs ih =>
    rw [List.flatMap_cons, List.append_assoc] at written
    rw [layout, List.takeWhile_cons, cut]
    by_cases here : off + 3 < stop
    · have byte : ∀ i < 3, (b.take n).getD (off + i) 0 = r.head.getD i 0 := by
        intro i h
        rw [← r.getD_head _ h, ← getD_of_drop written, List.getD_eq_getElem?_getD,
          List.getD_eq_getElem?_getD, List.getElem?_take, if_pos (by omega)]
      have code : ofBe [(b.take n).getD off 0, (b.take n).getD (off + 1) 0] = recordCode r := by
        obtain ⟨x, y, z, head⟩ := List.length_eq_three.mp r.length_head
        rw [← Nat.add_zero off, byte 0 (by omega), Nat.add_zero, byte 1 (by omega), recordCode,
          head]
        rfl
      have data : slice (b.take n) (off + 4) (min (off + 4 + r.data.length) stop - (off + 4)) =
          r.data.take (stop - off - 4) := by
        have len : min (off + 4 + r.data.length) stop - (off + 4) =
            min (stop - off - 4) r.data.length := by omega
        have part : slice (b.take n) (off + 4) (min (stop - off - 4) r.data.length) =
            slice b (off + 4) (min (stop - off - 4) r.data.length) := by
          rw [slice, slice, List.drop_take, List.take_take, Nat.min_eq_left (by omega)]
        rw [len, part, slice_of_drop written, r.slice_data _ (Nat.min_le_right ..),
          List.take_eq_take_iff]
        omega
      have next : stop - off - r.size = stop - (off + r.size) := by omega
      rw [if_pos (decide_eq_true here), if_pos (by omega), List.map_cons, ih (drop_of_drop written),
        next, paramAt, code, data]
    · rw [if_neg (by simpa using here), if_neg (by omega)]
      rfl

lemma dataOf_cons_of_eq {code : ℕ} {q : Param} (h : q.1 = code) (ps : List Param) :
    dataOf code (q :: ps) = some q.2 := by
  simp [dataOf, h]

lemma dataOf_cons_of_ne {code : ℕ} {q : Param} (h : q.1 ≠ code) (ps : List Param) :
    dataOf code (q :: ps) = dataOf code ps := by
  simp [dataOf, h]

/-- The first parameter with a code, as far as it is there. -/
lemma dataOf_cut (code left : ℕ) (rs : List (Record 3)) : dataOf code (cut left rs) =
    match firstWith code rs with
    | none => none
    | some r =>
      if bytesBefore code rs + 4 ≤ left then
        some (r.data.take (left - (bytesBefore code rs + 4)))
      else none := by
  induction rs generalizing left with
  | nil => rfl
  | cons r rs ih =>
    by_cases here : recordCode r = code
    · have first : firstWith code (r :: rs) = some r :=
        List.find?_cons_of_pos (decide_eq_true here)
      have none : bytesBefore code (r :: rs) = 0 := by
        rw [bytesBefore, List.takeWhile_cons_of_neg (by simpa using here)]
        rfl
      rw [first, none, cut]
      dsimp only
      rw [Nat.zero_add]
      split_ifs with there
      · exact dataOf_cons_of_eq here _
      · rfl
    · have first : firstWith code (r :: rs) = firstWith code rs :=
        List.find?_cons_of_neg (by simpa using here)
      have more : bytesBefore code (r :: rs) = r.size + bytesBefore code rs := by
        rw [bytesBefore, List.takeWhile_cons_of_pos (by simpa using here), List.flatMap_cons,
          List.length_append, r.length_bytes, bytesBefore]
      rw [first, more, cut]
      by_cases there : 4 ≤ left
      · rw [if_pos there, dataOf_cons_of_ne here, ih]
        have size : r.size = 3 + 1 + r.data.length := rfl
        cases firstWith code rs with
        | none => rfl
        | some q =>
          dsimp only
          by_cases far : bytesBefore code rs + 4 ≤ left - r.size
          · rw [if_pos far, if_pos (by omega)]
            congr 2
            omega
          · rw [if_neg far, if_neg (by omega)]
      · have size : r.size = 3 + 1 + r.data.length := rfl
        rw [if_neg there]
        cases firstWith code rs with
        | none => rfl
        | some q =>
          dsimp only
          rw [if_neg (by omega)]
          rfl

namespace LogPage

variable (p : LogPage)

lemma length_bytes : p.bytes.length = 4 + p.body.length := by
  rw [bytes, List.length_append, List.length_append, length_be]
  rfl

lemma drop_bytes : p.bytes.drop 4 = p.params.flatMap Record.bytes ++ [] := by
  have four : ([p.first, p.subpage] ++ be 2 p.body.length).length = 4 := by
    rw [List.length_append, length_be]
    rfl
  rw [bytes, List.append_nil, List.drop_left' four]
  rfl

lemma first_of_take {n : ℕ} (h : 0 < n) : (p.bytes.take n).getD 0 0 = p.first := by
  rw [List.getD_eq_getElem?_getD, List.getElem?_take, if_pos h]
  rfl

lemma total_of_take {n : ℕ} (h : 4 ≤ n) :
    ofBe [(p.bytes.take n).getD 2 0, (p.bytes.take n).getD 3 0] = p.body.length := by
  have byte : ∀ i < 2, (p.bytes.take n).getD (2 + i) 0 = (be 2 p.body.length).getD i 0 := by
    intro i two
    have skip : p.bytes[2 + i]? = (be 2 p.body.length)[i]? := by
      have back : 2 + i - [p.first, p.subpage].length = i := Nat.add_sub_cancel_left 2 i
      rw [bytes, List.append_assoc, List.getElem?_append_right (Nat.le_add_right 2 i), back,
        List.getElem?_append_left (by rw [length_be]; exact two)]
    rw [List.getD_eq_getElem?_getD, List.getD_eq_getElem?_getD, List.getElem?_take,
      if_pos (by omega), skip]
  have fits : p.body.length < 256 ^ 2 := p.fits
  rw [byte 0 (by omega), byte 1 (by omega)]
  exact ofBe_be_of_lt fits

/-- **A page that is cut off has the parameters that are there**. -/
lemma logParams_take (page : UInt8) (n : ℕ) :
    logParams (p.bytes.take n) page = .ok (if p.code = page then cut (n - 4) p.params else []) := by
  have length := p.length_bytes
  have taken : (p.bytes.take n).length = min n p.bytes.length := List.length_take
  have nothing : ∀ rs : List (Record 3), cut 0 rs = [] := by
    intro rs
    cases rs with
    | nil => rfl
    | cons r rs => exact if_neg (by omega)
  by_cases short : n < 4
  · rw [logParams_eq_nil (.inl (by omega)), Nat.sub_eq_zero_of_le (by omega), nothing, ite_self]
  · by_cases code : p.code = page
    · have first : (p.bytes.take n).getD 0 0 &&& 0x3F = page := by
        rw [p.first_of_take (by omega)]
        exact code
      have written : recordsAt 3 p.bytes (4 + p.body.length) 4 = layout 4 p.params :=
        recordsAt_flatMap p.drop_bytes rfl
      rw [logParams_eq (by omega) first, if_pos code]
      dsimp only
      rw [p.total_of_take (by omega), recordsAt_take (Nat.min_le_left ..) (by omega), written,
        map_paramAt p.drop_bytes (by omega)]
      -- behind the last parameter there is nothing to cut
      by_cases whole : p.body.length ≤ n - 4
      · rw [cut_eq_of_le whole, cut_eq_of_le]
        show p.body.length ≤ _
        omega
      · congr 2
        omega
    · have first : (p.bytes.take n).getD 0 0 &&& 0x3F ≠ page := by
        rw [p.first_of_take (by omega)]
        exact code
      rw [logParams_eq_nil (.inr first), if_neg code]

/-- **The parameters of a page are those that were written**. -/
lemma logParams_bytes (page : UInt8) :
    logParams p.bytes page = .ok (if p.code = page then p.list else []) := by
  have length := p.length_bytes
  have all : p.bytes.take (4 + p.body.length) = p.bytes :=
    List.take_of_length_le (Nat.le_of_eq length)
  have list : cut p.body.length p.params = p.list := cut_eq_of_le (Nat.le_refl _)
  have whole := p.logParams_take page (4 + p.body.length)
  rw [all, Nat.add_sub_cancel_left, list] at whole
  exact whole

/-- The data of the first parameter with a code, as far as it is there. -/
lemma dataOf_cut_params (code n : ℕ) : dataOf code (cut (n - 4) p.params) =
    (p.data code).bind fun d =>
      if p.start code ≤ n then some (d.take (n - p.start code)) else none := by
  rw [dataOf_cut, data, start]
  cases firstWith code p.params with
  | none => rfl
  | some r =>
    show (if _ then _ else _) = ite _ _ _
    by_cases there : 4 + bytesBefore code p.params + 4 ≤ n
    · rw [if_pos (by omega), if_pos there]
      congr 2
      omega
    · rw [if_neg (by omega), if_neg there]

lemma dataOf_list (code : ℕ) : dataOf code p.list = p.data code := by
  rw [data, firstWith, list, dataOf, List.find?_map, Option.map_map]
  rfl

end LogPage

/-! ## The readings of a page that is cut off -/

/-- A reader takes from data that is cut off what it takes from all of it, or nothing. -/
def HarmlessOn {β : Type} (read : List UInt8 → Checked OutOfBounds (Option β)) (d : List UInt8)
    (m : ℕ) : Prop :=
  ∃ whole cut, read d = .ok whole ∧ read (d.take m) = .ok cut ∧ (cut = none ∨ cut = whole)

section Readers

variable {β : Type} {read : List UInt8 → Checked OutOfBounds (Option β)} (p : LogPage) (n : ℕ)

lemma reads_readParam (page : UInt8) (code : ℕ) (inside : ∀ d, Reads (read d)) (raw : List UInt8) :
    Reads (readParam page code read raw) := by
  refine (reads_logParams raw page).bind fun ps _ => ?_
  cases dataOf code ps with
  | none => exact reads_ok _
  | some d => exact inside d

lemma readParam_bytes (page : UInt8) (code : ℕ) : readParam page code read p.bytes =
    if p.code = page then
      match p.data code with
      | none => .ok none
      | some d => read d
    else .ok none := by
  rw [readParam, p.logParams_bytes, Checked.ok_bind]
  by_cases same : p.code = page
  · rw [if_pos same, if_pos same, p.dataOf_list]
    rfl
  · rw [if_neg same, if_neg same]
    rfl

/-- Of a page that is cut off a reader is given the part of its parameter that is there. -/
lemma readParam_take (page : UInt8) (code : ℕ) (empty : read [] = .ok none) :
    readParam page code read (p.bytes.take n) =
      if p.code = page then
        match p.data code with
        | none => .ok none
        | some d => read (d.take (n - p.start code))
      else .ok none := by
  rw [readParam, p.logParams_take, Checked.ok_bind]
  by_cases same : p.code = page
  · rw [if_pos same, if_pos same, p.dataOf_cut_params]
    cases p.data code with
    | none => rfl
    | some d =>
      rw [Option.bind_some]
      dsimp only
      by_cases there : p.start code ≤ n
      · rw [if_pos there]
      · rw [if_neg there, Nat.sub_eq_zero_of_le (by omega), List.take_zero, empty]
        rfl
  · rw [if_neg same, if_neg same]
    rfl

/-- Whether a cut does harm is a question about the data of the reader's parameter. -/
lemma harmless_readParam_iff (page : UInt8) (code : ℕ) (empty : read [] = .ok none) :
    Harmless (readParam page code read) p n ↔
      (p.code = page → ∀ d, p.data code = some d → HarmlessOn read d (n - p.start code)) := by
  rw [Harmless, readParam_bytes, readParam_take p n page code empty]
  by_cases same : p.code = page
  · rw [if_pos same, if_pos same]
    cases data : p.data code with
    | none =>
      exact ⟨fun _ _ d h => absurd h nofun, fun _ => ⟨none, none, rfl, rfl, .inl rfl⟩⟩
    | some d =>
      constructor
      · intro h _ d' same'
        obtain rfl := Option.some.inj same'
        exact h
      · exact fun h => h same d rfl
  · rw [if_neg same, if_neg same]
    exact ⟨fun _ h => absurd h same, fun _ => ⟨none, none, rfl, rfl, .inl rfl⟩⟩

/-- One byte of the data is there or not. -/
lemma harmlessOn_byte (i : ℕ) {g : Option UInt8 → Option β} (none : g none = none) (d : List UInt8)
    (m : ℕ) : HarmlessOn (fun d => .ok (g d[i]?)) d m := by
  refine ⟨g d[i]?, g (d.take m)[i]?, rfl, rfl, ?_⟩
  rw [List.getElem?_take]
  split_ifs
  · exact .inr rfl
  · exact .inl none

end Readers

/-! ## Informational exceptions -/

lemma reads_ieOf (d : List UInt8) : Reads (ieOf d) := by
  unfold ieOf
  split_ifs with short
  · exact reads_ok _
  · rw [index_eq (by omega) 0, Checked.ok_bind, index_eq (by omega) 0, Checked.ok_bind]
    exact reads_ok _

lemma ieOf_eq {d : List UInt8} (h : 2 ≤ d.length) : ieOf d =
    .ok (some ⟨if d.getD 0 0 ≠ 0 then some ⟨d.getD 0 0, d.getD 1 0⟩ else none,
      d[2]?.bind someDegrees⟩) := by
  rw [ieOf, if_neg (by omega), index_eq (by omega) 0, Checked.ok_bind, index_eq (by omega) 0,
    Checked.ok_bind]
  rfl

lemma someDegrees_eq_none_iff (d : List UInt8) :
    d[2]?.bind someDegrees = none ↔ d.getD 2 0 = 0 ∨ d.getD 2 0 = 0xFF := by
  rw [List.getD_eq_getElem?_getD]
  cases d[2]? with
  | none => simp
  | some t =>
    rw [Option.bind_some, Option.getD_some, someDegrees]
    by_cases given : t ≠ 0xFF ∧ t ≠ 0
    · rw [if_pos given]
      exact ⟨fun h => absurd h nofun, fun h => absurd h (not_or.mpr ⟨given.2, given.1⟩)⟩
    · rw [if_neg given]
      rw [not_and_or, not_not, not_not] at given
      exact ⟨fun _ => given.symm, fun _ => rfl⟩

/-- A cut right before a temperature drops it from the reading. -/
lemma harmlessOn_ieOf_iff (d : List UInt8) (m : ℕ) :
    HarmlessOn ieOf d m ↔ (m = 2 → d.getD 2 0 = 0 ∨ d.getD 2 0 = 0xFF) := by
  have taken : (d.take m).length = min m d.length := List.length_take
  have byte : ∀ i < m, (d.take m).getD i 0 = d.getD i 0 := by
    intro i h
    rw [List.getD_eq_getElem?_getD, List.getD_eq_getElem?_getD, List.getElem?_take, if_pos h]
  have third : (d.take m)[2]? = if 2 < m then d[2]? else none := List.getElem?_take
  by_cases nothing : m < 2 ∨ d.length < 2
  · refine ⟨fun _ two => .inl ?_, fun _ => ?_⟩
    · rw [List.getD_eq_getElem?_getD, List.getElem?_eq_none (by omega)]
      rfl
    · obtain ⟨whole, read⟩ := reads_ieOf d
      refine ⟨whole, none, read, ?_, .inl rfl⟩
      rw [ieOf, if_pos (by omega)]
  · rw [not_or] at nothing
    rw [HarmlessOn, ieOf_eq (by omega), ieOf_eq (d := d.take m) (by omega), byte 0 (by omega),
      byte 1 (by omega)]
    by_cases two : m = 2
    · rw [if_neg (by omega)] at third
      rw [third, Option.bind_none, ← someDegrees_eq_none_iff]
      constructor
      · rintro ⟨whole, cut, read, read', none | same⟩ -
        · exact absurd ((Except.ok.inj read').trans none) nofun
        · have whole' := (Except.ok.inj read).trans (same ▸ (Except.ok.inj read').symm)
          exact congrArg Ie.temperatureC (Option.some.inj whole')
      · intro none
        rw [none two]
        exact ⟨_, _, rfl, rfl, .inr rfl⟩
    · rw [if_pos (by omega)] at third
      rw [third]
      exact ⟨fun _ h => absurd h two, fun _ => ⟨_, _, rfl, rfl, .inr rfl⟩⟩

/-! ## Counters -/

/-- The first bytes of a number are the number only when the number is zero. -/
lemma ofBe_take_eq_iff {d : List UInt8} {m : ℕ} (h : m < d.length) :
    ofBe (d.take m) = ofBe d ↔ ofBe d = 0 := by
  have split : ofBe d = ofBe (d.drop m) + 256 ^ (d.length - m) * ofBe (d.take m) := by
    have length : (d.drop m).reverse.length = d.length - m := by
      rw [List.length_reverse, List.length_drop]
    rw [ofBe, ofBe, ofBe, ← length, ← ofLe_append, ← List.reverse_append, List.take_append_drop]
  have big : 2 ≤ 256 ^ (d.length - m) :=
    le_trans (by omega) (Nat.le_self_pow (by omega) 256)
  constructor
  · intro same
    have double := Nat.mul_le_mul_right (ofBe (d.take m)) big
    omega
  · intro zero
    have double := Nat.mul_le_mul_right (ofBe (d.take m)) big
    omega

/-- A cut inside a counter of which something is read gives another number, unless that is zero. -/
lemma harmlessOn_counterOf_iff (d : List UInt8) (m : ℕ) :
    HarmlessOn (fun d => .ok (counterOf d)) d m ↔
      (0 < m → m < d.length → m ≤ 8 → d.length ≤ 8 ∧ ofBe d = 0) := by
  have taken : (d.take m).length = min m d.length := List.length_take
  have same : HarmlessOn (fun d => .ok (counterOf d)) d m ↔
      counterOf (d.take m) = none ∨ counterOf (d.take m) = counterOf d := by
    constructor
    · rintro ⟨whole, cut, read, read', h⟩
      rw [Except.ok.inj read, Except.ok.inj read']
      exact h
    · exact fun h => ⟨_, _, rfl, rfl, h⟩
  rw [same]
  by_cases inside : 0 < m ∧ m < d.length ∧ m ≤ 8
  · have part : counterOf (d.take m) = some (ofBe (d.take m)) := by
      refine if_pos ⟨fun empty => ?_, by omega⟩
      rw [empty, List.length_nil] at taken
      omega
    have whole : some (ofBe (d.take m)) = counterOf d ↔ d.length ≤ 8 ∧ ofBe d = 0 := by
      rw [counterOf, ← ofBe_take_eq_iff inside.2.1]
      split_ifs with read
      · rw [Option.some_inj]
        exact ⟨fun h => ⟨read.2, h⟩, fun h => h.2⟩
      · refine ⟨fun h => absurd h nofun, fun h => absurd ⟨?_, h.1⟩ read⟩
        exact List.ne_nil_of_length_pos (by omega)
    rw [part, whole]
    exact ⟨fun h _ _ _ => h.resolve_left nofun, fun h => .inr (h inside.1 inside.2.1 inside.2.2)⟩
  · refine ⟨fun _ pos within eight => absurd ⟨pos, within, eight⟩ inside, fun _ => ?_⟩
    by_cases all : d.length ≤ m
    · rw [List.take_of_length_le all]
      exact .inr rfl
    · refine .inl (if_neg fun h => ?_)
      have pos := List.length_pos_iff.mpr h.1
      omega

/-- A counter of a page is a reader of its parameter. -/
lemma parseCounter_eq (page : ErrorPage) (param : ErrorParam) : parseCounter page param =
    readParam (pageCode page) (paramCode param) fun d => .ok (counterOf d) := by
  funext raw
  obtain ⟨ps, read⟩ := reads_logParams raw (pageCode page)
  have one : ∀ e : ErrorCounters,
      (StormDrive.parseErrorCounters e).bind (fun c => c param) = e param := by
    intro e
    unfold StormDrive.parseErrorCounters
    split_ifs with some
    · rfl
    · cases param <;> simp_all
  rw [parseCounter, parseErrorCounters, readParam, read, Checked.ok_bind, Checked.ok_bind]
  show Except.ok ((StormDrive.parseErrorCounters _).bind fun c => c param) = _
  rw [one]
  cases dataOf (paramCode param) ps <;> rfl

/-! ## Pages that are cut off -/

lemma reads_parseErrorCounters (raw : List UInt8) (page : UInt8) :
    Reads (parseErrorCounters raw page) :=
  (reads_logParams raw page).bind fun _ _ => reads_ok _

/-- **A page that is cut off is read as the whole page or not at all exactly when it is not cut
inside a counter that counts something, or before the temperature of the informational exceptions
page**. -/
theorem truncationSafe_iff (p : LogPage) (n : ℕ) : TruncationSafe p n ↔ CutBeside p n := by
  have ie : Harmless parseIe p n ↔ (p.code = 0x2F → ∀ d, p.data 0 = some d →
      n - p.start 0 = 2 → d.getD 2 0 = 0 ∨ d.getD 2 0 = 0xFF) := by
    rw [parseIe, harmless_readParam_iff p n _ _ rfl]
    simp only [harmlessOn_ieOf_iff]
  have counter : ∀ page param, Harmless (parseCounter page param) p n ↔
      (p.code = pageCode page → ∀ d, p.data (paramCode param) = some d →
        0 < n - p.start (paramCode param) → n - p.start (paramCode param) < d.length →
        n - p.start (paramCode param) ≤ 8 → d.length ≤ 8 ∧ ofBe d = 0) := by
    intro page param
    rw [parseCounter_eq, harmless_readParam_iff p n _ _ rfl]
    simp only [harmlessOn_counterOf_iff]
  constructor
  · intro safe
    refine ⟨fun code d data cut => ?_, fun ⟨page, code⟩ param d data past inside eight => ?_⟩
    · exact ie.mp safe.ie code d data (by omega)
    · exact (counter page param).mp (safe.counters page param) code d data (by omega) (by omega)
        (by omega)
  · intro beside
    refine ⟨?_, ?_, ?_, ?_, fun page param => ?_, ?_, fun raw => ?_⟩
    · rw [p.logParams_bytes, if_pos rfl]
    · exact ie.mpr fun code d data cut => beside.ie code d data (by omega)
    · exact (harmless_readParam_iff p n _ _ rfl).mpr fun _ d _ =>
        harmlessOn_byte 1 (g := fun t => t.bind degrees) rfl d _
    · exact (harmless_readParam_iff p n _ _ rfl).mpr fun _ d _ =>
        harmlessOn_byte 1 (g := fun t => (t.bind someDegrees).map ratedLimits) rfl d _
    · exact (counter page param).mpr fun code d data past inside eight =>
        beside.counters ⟨page, code⟩ param d data (by omega) (by omega) (by omega)
    · exact (harmless_readParam_iff p n _ _ rfl).mpr fun _ d _ =>
        harmlessOn_byte 3 (g := id) rfl d _
    · exact ⟨reads_readParam _ _ reads_ieOf raw, reads_readParam _ _ (fun _ => reads_ok _) raw,
        reads_readParam _ _ (fun _ => reads_ok _) raw, reads_parseErrorCounters raw,
        reads_readParam _ _ (fun _ => reads_ok _) raw, reads_logParams raw⟩

/-- The verify error page of a drive that counts 256 uncorrected errors in two bytes. -/
def verifyPage : LogPage where
  first := 0x05
  subpage := 0
  params := [⟨[0, 6, 3], [1, 0], rfl, by decide⟩]
  fits := by decide

/-- Cut in the middle of its counter, the page says that there is one uncorrected error. -/
theorem cut_counter_shrinks : ¬ TruncationSafe verifyPage 9 := by
  intro safe
  obtain ⟨whole, cut, read, read', same⟩ := safe.counters .verify .uncorrected
  rw [parseCounter_eq, readParam_bytes] at read
  rw [parseCounter_eq, readParam_take _ _ _ _ rfl] at read'
  have all : whole = some 256 := (Except.ok.inj read).symm
  have part : cut = some 1 := (Except.ok.inj read').symm
  rw [all, part] at same
  exact absurd same (by decide)

end LogSense

end StormDrive
