import Mathlib.Data.String.Basic
import StormDrive.Bytes.Bounds
import StormDrive.LossyText
import StormDrive.OrderedMap

set_option relaxedAutoImplicit false
set_option autoImplicit false

/-!
# The SMBIOS table

The structures that the firmware leaves in a table, and what the hardware record has of them
(`assets.rs`): the memory modules and the management controller.

## Main definitions

* `Smbios`, `parseSmbios` — a structure, and the structures of a table.
* `smbiosItems` — the items of the hardware record.
* `Smbios.encode`, `Table` — how a table is laid out: each structure with its strings behind it, and
  one that ends the table.
* `ModuleSize` — how the size of a memory module is written.
* `ReadWhole` — what is promised for all tables.

## Main results

* `readWhole` — **a table is read whole**: its structures, with their strings, and each memory
  module that shares its key with no other; and no table is read outside.
* `not_as_written` — a string is not given with the white space around it, and of two modules with
  one locator one is left.

## Implementation notes

A text is taken for its characters. The other items of a record are left open.
-/

namespace StormDrive

namespace Assets

open Bytes Ses

/-! ## Structures -/

/-- One structure: its type, its formatted area and its strings. -/
structure Smbios where
  kind : UInt8
  data : List UInt8
  strings : List String
  deriving DecidableEq

namespace Smbios

def byte (s : Smbios) (off : ℕ) : Option UInt8 := s.data[off]?

def word (s : Smbios) (off : ℕ) : Option ℕ := do
  return ofLe [← s.byte off, ← s.byte (off + 1)]

def dword (s : Smbios) (off : ℕ) : Option ℕ := do
  return ofLe [← s.byte off, ← s.byte (off + 1), ← s.byte (off + 2), ← s.byte (off + 3)]

/-- The string that a formatted byte points at: the first is 1, and 0 is none. -/
def string (s : Smbios) (off : ℕ) : Option String := do
  let i ← s.byte off
  if i = 0 then none
  else
    let x := Text.trim (← s.strings[i.toNat - 1]?)
    if x = "" then none else some x

end Smbios

/-! ## The table -/

/-- How many bytes the string set has from an offset on, before the two zeros that end it. -/
def stringSetLength (t : List UInt8) (off : ℕ) : Checked OutOfBounds ℕ :=
  if off + 1 < t.length then do
    if (← index t off) = 0 ∧ (← index t (off + 1)) = 0 then return 0
    else return (← stringSetLength t (off + 1)) + 1
  else .ok 0
termination_by t.length - off

/-- The strings of a set. -/
def stringsOf (set : List UInt8) : List String :=
  ((set.splitOn 0).filter (· ≠ [])).map fun s => String.ofList (fromUtf8Lossy s)

/-- The structures from an offset on. -/
def structuresFrom (t : List UInt8) (off : ℕ) : Checked OutOfBounds (List Smbios) :=
  if off + 4 ≤ t.length then do
    let kind ← index t off
    let len := (← index t (off + 1)).toNat
    if len < 4 ∨ t.length < off + len then return []
    else
      let data ← range t off (off + len)
      let n ← stringSetLength t (off + len)
      let set ← range t (off + len) (min (off + len + n) t.length)
      let s : Smbios := ⟨kind, data, stringsOf set⟩
      if kind = 127 then return [s]
      else return s :: (← structuresFrom t (off + len + n + 2))
  else .ok []
termination_by t.length - off

/-- The structures of a table. -/
def parseSmbios (t : List UInt8) : Checked OutOfBounds (List Smbios) := structuresFrom t 0

/-! ## Items -/

/-- What is on record of a memory module. -/
structure Dimm where
  bank : Option String
  sizeMb : ℕ
  type : Option String
  speedMts : Option ℕ
  configuredMts : Option ℕ
  manufacturer : Option String
  serial : Option String
  part : Option String
  deriving DecidableEq

/-- An item of the record; `other` are those that are not from this table. -/
inductive Item (β : Type)
  | dimm (d : Dimm)
  | bmc (interface : String) (ipmi : Option String)
  | other (value : β)

def memoryType (t : UInt8) : String :=
  match t.toNat with
  | 0x12 => "DDR"
  | 0x13 => "DDR2"
  | 0x18 => "DDR3"
  | 0x1A => "DDR4"
  | 0x1B => "LPDDR"
  | 0x1C => "LPDDR2"
  | 0x1D => "LPDDR3"
  | 0x1E => "LPDDR4"
  | 0x22 => "DDR5"
  | 0x23 => "LPDDR5"
  | _ => "type 0x" ++ hexText [t]

/-- The size of the module in a memory device; none when it has none, or does not know. -/
def Smbios.sizeMb (s : Smbios) : Option ℕ := do
  let size ← s.word 0x0C
  if size = 0 ∨ size = 0xFFFF then none
  else if size = 0x7FFF then some (((s.dword 0x1C).getD 0) % 0x80000000)
  else if 0x8000 ≤ size then some (size % 0x8000 / 1024)
  else some size

/-- What a memory device is called: its locator, or by its handle. -/
def Smbios.locator (s : Smbios) : String :=
  (s.string 0x10).getD ("handle-" ++ hexText (be 2 ((s.word 0x02).getD 0)))

def Smbios.dimmKey (s : Smbios) : String := "dimm/" ++ s.locator

def Smbios.dimm (s : Smbios) (mb : ℕ) : Dimm where
  bank := s.string 0x11
  sizeMb := mb
  type := (s.byte 0x12).map memoryType
  speedMts := (s.word 0x15).filter (· ≠ 0)
  configuredMts := (s.word 0x20).filter (· ≠ 0)
  manufacturer := s.string 0x17
  serial := s.string 0x18
  part := s.string 0x1A

/-- The interface of the management controller. -/
def Smbios.interface (s : Smbios) : Option String :=
  (s.byte 0x04).map fun n =>
    match n.toNat with
    | 1 => "KCS"
    | 2 => "SMIC"
    | 3 => "BT"
    | 4 => "SSIF"
    | n => "type " ++ toString n

/-- The version that it speaks. -/
def Smbios.ipmi (s : Smbios) : Option String :=
  (s.byte 0x05).map fun r => toString (r.toNat / 16) ++ "." ++ toString (r.toNat % 16)

/-- The items with what one structure says. -/
def addItem {β : Type} (items : List (String × Item β)) (s : Smbios) : List (String × Item β) :=
  if s.kind = 17 then
    match s.sizeMb with
    | some mb => OrderedMap.insert s.dimmKey (.dimm (s.dimm mb)) items
    | none => items
  else if s.kind = 38 then
    match s.interface with
    | some i => OrderedMap.insert "bmc" (.bmc i s.ipmi) items
    | none => items
  else items

def smbiosItems {β : Type} (structs : List Smbios) (items : List (String × Item β)) :
    List (String × Item β) :=
  structs.foldl addItem items

/-! ## How a table is laid out -/

/-- The bytes of a text. -/
def textBytes (x : String) : List UInt8 := utf8 x.toList

/-- The strings of a structure, each with a zero behind it, and one more zero; two zeros when there
are none. -/
def stringSet (strings : List String) : List UInt8 :=
  if strings = [] then [0, 0] else strings.flatMap (fun x => textBytes x ++ [0]) ++ [0]

namespace Smbios

def encode (s : Smbios) : List UInt8 := s.data ++ stringSet s.strings

/-- A structure that can be laid out: its formatted area begins with its type and its length, and no
string is empty or has a zero in it. -/
structure Formed (s : Smbios) : Prop where
  long : 4 ≤ s.data.length
  kind : s.data.getD 0 0 = s.kind
  length : (s.data.getD 1 0).toNat = s.data.length
  strings : ∀ x ∈ s.strings, x ≠ "" ∧ '\x00' ∉ x.toList

end Smbios

/-- A table: some structures, and one that ends it. -/
structure Table where
  body : List Smbios
  last : Smbios
  formed : ∀ s ∈ body ++ [last], s.Formed
  inside : ∀ s ∈ body, s.kind ≠ 127
  ends : last.kind = 127

def Table.structures (t : Table) : List Smbios := t.body ++ [t.last]

def Table.encode (t : Table) : List UInt8 := t.structures.flatMap Smbios.encode

/-- The size of a memory module: in megabytes, in kilobytes, or large and in megabytes. -/
inductive ModuleSize
  | mb (n : ℕ) (some : 0 < n) (small : n < 0x7FFF)
  | kb (n : ℕ) (small : n < 0x7FFF)
  | large (n : ℕ) (small : n < 0x80000000)

namespace ModuleSize

/-- The number of its field. -/
def field : ModuleSize → ℕ
  | mb n .. => n
  | kb n .. => 0x8000 + n
  | large .. => 0x7FFF

/-- The number of its field for large sizes, if it needs that. -/
def largeField : ModuleSize → Option ℕ
  | large n .. => some n
  | _ => none

/-- In whole megabytes. -/
def inMb : ModuleSize → ℕ
  | mb n .. => n
  | kb n .. => n / 1024
  | large n .. => n

/-- A memory device has it. -/
structure In (z : ModuleSize) (s : Smbios) : Prop where
  kind : s.kind = 17
  field : s.word 0x0C = some z.field
  large : ∀ n, z.largeField = some n → s.dword 0x1C = some n

end ModuleSize

/-! ## What is promised -/

/-- **A table is read whole.** -/
structure ReadWhole : Prop where
  /-- Every table gives its structures. -/
  structures : ∀ t : Table, parseSmbios t.encode = .ok t.structures
  /-- A string is the one that is pointed at, without the white space around it; one that is blank
  is none. -/
  string : ∀ (s : Smbios) (off : ℕ) (i : UInt8) (x : String), s.byte off = some i → i ≠ 0 →
    s.strings[i.toNat - 1]? = some x →
      s.string off = if Text.trim x = "" then none else some (Text.trim x)
  /-- A memory module that shares its key with no later one has its item, with its size. -/
  modules : ∀ (β : Type) (items : List (String × Item β)) (pre post : List Smbios) (s : Smbios)
    (z : ModuleSize), z.In s →
      (∀ s' ∈ post, s'.kind = 17 → s'.sizeMb ≠ none → s'.dimmKey ≠ s.dimmKey) →
        ∃ d, OrderedMap.get (smbiosItems (pre ++ s :: post) items) s.dimmKey = some (.dimm d) ∧
          d.sizeMb = z.inMb
  /-- No table is read outside. -/
  safe : ∀ t, Reads (parseSmbios t)

/-! ## Reading by what is left -/

/-- How far the next two zeros are. -/
def untilZeros : List UInt8 → ℕ
  | a :: b :: l => if a = 0 ∧ b = 0 then 0 else untilZeros (b :: l) + 1
  | _ => 0

/-- The structures of what is left of a table. -/
def structuresOf (t : List UInt8) : List Smbios :=
  if 4 ≤ t.length then
    let len := (t.getD 1 0).toNat
    if len < 4 ∨ t.length < len then []
    else
      let n := untilZeros (t.drop len)
      let s : Smbios := ⟨t.getD 0 0, t.take len, stringsOf ((t.drop len).take n)⟩
      if t.getD 0 0 = 127 then [s] else s :: structuresOf (t.drop (len + n + 2))
  else []
termination_by t.length
decreasing_by
  rw [List.length_drop]
  omega

section Left

variable {t : List UInt8}

lemma stringSetLength_eq (t : List UInt8) (off : ℕ) :
    stringSetLength t off = .ok (untilZeros (t.drop off)) := by
  induction left : t.length - off using Nat.strong_induction_on generalizing off with
  | _ n ih =>
    rw [stringSetLength]
    by_cases room : off + 1 < t.length
    · have here : off < t.length := by omega
      rw [if_pos room, index_getElem here, Checked.ok_bind, index_getElem room, Checked.ok_bind,
        List.drop_eq_getElem_cons here, List.drop_eq_getElem_cons room, untilZeros]
      split_ifs
      · rfl
      · rw [ih _ (by omega) _ rfl, Checked.ok_bind, ← List.drop_eq_getElem_cons room]
        rfl
    · rw [if_neg room]
      obtain nil | ⟨a, one⟩ : t.drop off = [] ∨ ∃ a, t.drop off = [a] := by
        rw [← List.length_eq_zero_iff, ← List.length_eq_one_iff, List.length_drop]
        omega
      · rw [nil]
        rfl
      · rw [one]
        rfl

/-- A reader at an offset gives the structures of what is left. -/
lemma structuresFrom_eq (t : List UInt8) (off : ℕ) :
    structuresFrom t off = .ok (structuresOf (t.drop off)) := by
  induction left : t.length - off using Nat.strong_induction_on generalizing off with
  | _ n ih =>
    rw [structuresFrom, structuresOf, List.length_drop]
    by_cases room : off + 4 ≤ t.length
    · have byte : ∀ i, (t.drop off).getD i 0 = t.getD (off + i) 0 := by
        intro i
        rw [List.getD_eq_getElem?_getD, List.getD_eq_getElem?_getD, List.getElem?_drop]
      have kind : (t.drop off).getD 0 0 = t.getD off 0 := byte 0
      rw [if_pos room, if_pos (by omega), index_eq (by omega) 0, Checked.ok_bind,
        index_eq (by omega) 0, Checked.ok_bind, kind, byte 1]
      dsimp only
      generalize (t.getD (off + 1) 0).toNat = len
      by_cases bad : len < 4 ∨ t.length < off + len
      · rw [if_pos bad, if_pos (by omega)]
        rfl
      · rw [if_neg bad, if_neg (by omega), range_eq (by omega) (by omega), Checked.ok_bind,
          stringSetLength_eq, Checked.ok_bind, range_eq (by omega) (by omega), Checked.ok_bind,
          List.drop_drop, List.drop_drop, ih _ (by omega) _ rfl, Checked.ok_bind]
        generalize untilZeros (t.drop (off + len)) = n
        have data : slice t off (off + len - off) = (t.drop off).take len := by
          rw [Nat.add_sub_cancel_left]
          rfl
        have set : slice t (off + len) (min (off + len + n) t.length - (off + len)) =
            (t.drop (off + len)).take n := by
          rw [slice, List.take_eq_take_iff, List.length_drop]
          omega
        have next : off + (len + n + 2) = off + len + n + 2 := by omega
        rw [data, set, next]
        split_ifs <;> rfl
    · rw [if_neg room, if_neg (by omega)]

end Left

/-! ## What was laid out is read -/

section Written

lemma untilZeros_append {b l : List UInt8} (ne : l ≠ []) (no : (0 : UInt8) ∉ b) :
    untilZeros (b ++ l) = b.length + untilZeros l := by
  induction b with
  | nil => rw [List.nil_append, List.length_nil, Nat.zero_add]
  | cons a b ih =>
    obtain ⟨here, later⟩ := not_or.mp (fun h => no (List.mem_cons.mpr h))
    obtain ⟨c, m, next⟩ := List.exists_cons_of_ne_nil (List.append_ne_nil_of_right_ne_nil b ne)
    rw [List.cons_append, next, untilZeros, if_neg fun both => here both.1.symm, ← next, ih later,
      List.length_cons]
    omega

/-- Strings behind one another, with a zero between them, end where the two zeros are. -/
lemma untilZeros_intercalate {bs : List (List UInt8)} (strings : ∀ b ∈ bs, b ≠ [] ∧ (0 : UInt8) ∉ b)
    (rest : List UInt8) :
    untilZeros ([0].intercalate bs ++ 0 :: 0 :: rest) = ([0].intercalate bs).length := by
  induction bs with
  | nil => rfl
  | cons b bs ih =>
    obtain ⟨ne, no⟩ := strings b List.mem_cons_self
    cases bs with
    | nil =>
      rw [List.intercalate_singleton, untilZeros_append (List.cons_ne_nil _ _) no]
      rfl
    | cons c bs =>
      have more := ih fun d hd => strings d (List.mem_cons_of_mem _ hd)
      obtain ⟨ne', no'⟩ := strings c (List.mem_cons_of_mem _ List.mem_cons_self)
      -- behind the zero the next string begins
      obtain ⟨x, l, begins, pos⟩ : ∃ x l, [0].intercalate (c :: bs) ++ 0 :: 0 :: rest = x :: l ∧
          x ≠ 0 := by
        obtain ⟨x, c', rfl⟩ := List.exists_cons_of_ne_nil ne'
        have pos : x ≠ 0 := by
          rintro rfl
          exact no' List.mem_cons_self
        cases bs with
        | nil => exact ⟨x, _, by rw [List.intercalate_singleton]; rfl, pos⟩
        | cons d bs => exact ⟨x, _, by rw [List.intercalate_cons_cons]; rfl, pos⟩
      rw [List.intercalate_cons_cons, List.append_assoc, List.append_assoc,
        untilZeros_append (List.append_ne_nil_of_left_ne_nil (List.cons_ne_nil _ _) _) no,
        List.singleton_append, begins, untilZeros, if_neg fun both => pos both.2, ← begins, more,
        List.length_append, List.length_append, List.length_singleton]
      omega

/-- The strings of a set, with a zero between them and two behind them. -/
lemma stringSet_eq (strings : List String) :
    stringSet strings = [0].intercalate (strings.map textBytes) ++ [0, 0] := by
  induction strings with
  | nil => rfl
  | cons x xs ih =>
    rw [stringSet, if_neg (List.cons_ne_nil _ _)]
    cases xs with
    | nil =>
      rw [List.map_singleton, List.intercalate_singleton, List.flatMap_singleton,
        List.append_assoc]
      rfl
    | cons y ys =>
      rw [stringSet, if_neg (List.cons_ne_nil _ _)] at ih
      rw [List.flatMap_cons, List.append_assoc, ih]
      simp only [List.map_cons, List.intercalate_cons_cons, List.append_assoc]

variable {s : Smbios}

lemma textBytes_ne_nil {x : String} (h : x ≠ "") : textBytes x ≠ [] := by
  intro nil
  have read := fromUtf8Lossy_utf8 x.toList
  rw [show utf8 x.toList = [] from nil, fromUtf8Lossy] at read
  exact h (String.toList_inj.mp read.symm)

lemma Smbios.Formed.bytes (h : s.Formed) :
    ∀ b ∈ s.strings.map textBytes, b ≠ [] ∧ (0 : UInt8) ∉ b := by
  intro b mem
  obtain ⟨x, hx, rfl⟩ := List.mem_map.mp mem
  obtain ⟨ne, no⟩ := h.strings x hx
  exact ⟨textBytes_ne_nil ne, zero_notMem_utf8 no⟩

/-- The strings are read back. -/
lemma Smbios.Formed.stringsOf_eq (h : s.Formed) :
    stringsOf ([0].intercalate (s.strings.map textBytes)) = s.strings := by
  have texts : (s.strings.map textBytes).map (fun b => String.ofList (fromUtf8Lossy b)) =
      s.strings := by
    rw [List.map_map]
    refine (List.map_congr_left fun x _ => ?_).trans (List.map_id _)
    show String.ofList (fromUtf8Lossy (utf8 x.toList)) = x
    rw [fromUtf8Lossy_utf8, String.ofList_toList]
  by_cases none : s.strings = []
  · rw [none]
    rfl
  · have split := List.splitOn_intercalate 0 (fun b hb => (h.bytes b hb).2)
      (by simpa using none : s.strings.map textBytes ≠ [])
    have kept : (s.strings.map textBytes).filter (· ≠ []) = s.strings.map textBytes := by
      rw [List.filter_eq_self]
      exact fun b hb => decide_eq_true (h.bytes b hb).1
    rw [stringsOf, split, kept, texts]

/-- A structure at the beginning is read, and the reader goes on behind it, if it does not end the
table. -/
lemma Smbios.Formed.structuresOf_eq (h : s.Formed) (rest : List UInt8) :
    structuresOf (s.encode ++ rest) = if s.kind = 127 then [s] else s :: structuresOf rest := by
  have long := h.long
  have all : s.encode ++ rest =
      s.data ++ ([0].intercalate (s.strings.map textBytes) ++ 0 :: 0 :: rest) := by
    rw [Smbios.encode, stringSet_eq]
    simp only [List.append_assoc]
    rfl
  have set := untilZeros_intercalate h.bytes rest
  have strings := h.stringsOf_eq
  rw [all, structuresOf]
  generalize [0].intercalate (s.strings.map textBytes) = body at set strings ⊢
  have byte : ∀ i < 4, (s.data ++ (body ++ 0 :: 0 :: rest)).getD i 0 = s.data.getD i 0 := by
    intro i hi
    rw [List.getD_eq_getElem?_getD, List.getElem?_append_left (by omega),
      List.getD_eq_getElem?_getD]
  have first : (s.data ++ (body ++ 0 :: 0 :: rest)).getD 0 0 = s.kind := by
    rw [byte 0 (by omega), h.kind]
  have second : ((s.data ++ (body ++ 0 :: 0 :: rest)).getD 1 0).toNat = s.data.length := by
    rw [byte 1 (by omega), h.length]
  have behind : (s.data ++ (body ++ 0 :: 0 :: rest)).drop (s.data.length + body.length + 2) =
      rest := by
    rw [← List.drop_drop, ← List.drop_drop, List.drop_left, List.drop_left]
    rfl
  have room : 4 ≤ (s.data ++ (body ++ 0 :: 0 :: rest)).length := by
    rw [List.length_append]
    omega
  have fits : ¬ (s.data.length < 4 ∨
      (s.data ++ (body ++ 0 :: 0 :: rest)).length < s.data.length) := by
    rw [List.length_append]
    omega
  rw [if_pos room]
  dsimp only
  rw [first, second, if_neg fits, List.drop_left, List.take_left, set, List.take_left, strings,
    behind]

/-- A table is read up to the structure that ends it. -/
lemma structuresOf_table (t : Table) (rest : List UInt8) :
    structuresOf (t.encode ++ rest) = t.structures := by
  obtain ⟨body, last, formed, inside, ends⟩ := t
  show structuresOf ((body ++ [last]).flatMap Smbios.encode ++ rest) = body ++ [last]
  induction body with
  | nil =>
    rw [List.nil_append, List.flatMap_singleton,
      (formed last List.mem_cons_self).structuresOf_eq, if_pos ends]
  | cons s body ih =>
    rw [List.cons_append, List.flatMap_cons, List.append_assoc,
      (formed s List.mem_cons_self).structuresOf_eq, if_neg (inside s List.mem_cons_self),
      ih (fun s hs => formed s (List.mem_cons_of_mem _ hs))
        (fun s hs => inside s (List.mem_cons_of_mem _ hs))]

end Written

/-! ## Items -/

section Items

variable {β : Type} {s : Smbios}

/-- The size that is written is the one that is read. -/
lemma ModuleSize.In.sizeMb_eq {z : ModuleSize} (h : z.In s) : s.sizeMb = some z.inMb := by
  rw [Smbios.sizeMb, h.field]
  cases z with
  | mb n some small =>
    show (if n = 0 ∨ n = 0xFFFF then none else if n = 0x7FFF then _
      else if 0x8000 ≤ n then _ else Option.some n) = Option.some n
    rw [if_neg (by omega), if_neg (by omega), if_neg (by omega)]
  | kb n small =>
    show (if 0x8000 + n = 0 ∨ 0x8000 + n = 0xFFFF then none else if 0x8000 + n = 0x7FFF then _
      else if 0x8000 ≤ 0x8000 + n then Option.some ((0x8000 + n) % 0x8000 / 1024) else _) =
      Option.some (n / 1024)
    rw [if_neg (by omega), if_neg (by omega), if_pos (by omega)]
    congr 2
    omega
  | large n small =>
    have read : Option.some (((s.dword 0x1C).getD 0) % 0x80000000) = Option.some n := by
      rw [h.large n rfl, Option.getD_some, Nat.mod_eq_of_lt small]
    exact read

/-- A structure that is no memory module under a key leaves what is under the key. -/
lemma get_addItem {k : String} (memory : ∃ name, k = "dimm/" ++ name)
    (other : s.kind = 17 → s.sizeMb ≠ none → s.dimmKey ≠ k) (items : List (String × Item β)) :
    OrderedMap.get (addItem items s) k = OrderedMap.get items k := by
  rw [addItem]
  split_ifs with isMemory isController
  · cases size : s.sizeMb with
    | none => rfl
    | some mb =>
      refine OrderedMap.get_insert_of_ne (Ne.symm (other isMemory ?_)) _ _
      rw [size]
      exact Option.some_ne_none mb
  · cases s.interface with
    | none => rfl
    | some i =>
      refine OrderedMap.get_insert_of_ne ?_ _ _
      obtain ⟨name, rfl⟩ := memory
      intro same
      have first := congrArg (fun x : String => x.toList.head?) same
      rw [String.toList_append] at first
      exact absurd (Option.some.inj first : 'd' = 'b') (by decide)
  · rfl

/-- A memory module has its item, when no later one has its key. -/
lemma get_smbiosItems {mb : ℕ} (kind : s.kind = 17) (size : s.sizeMb = some mb)
    (items : List (String × Item β)) (pre post : List Smbios)
    (last : ∀ s' ∈ post, s'.kind = 17 → s'.sizeMb ≠ none → s'.dimmKey ≠ s.dimmKey) :
    OrderedMap.get (smbiosItems (pre ++ s :: post) items) s.dimmKey =
      some (.dimm (s.dimm mb)) := by
  have memory : ∃ name, s.dimmKey = "dimm/" ++ name := ⟨s.locator, rfl⟩
  rw [smbiosItems, List.foldl_append, List.foldl_cons, addItem, if_pos kind, size]
  generalize pre.foldl addItem items = before
  induction post using List.reverseRecOn with
  | nil => exact OrderedMap.get_insert_self ..
  | append_singleton post s' ih =>
    rw [List.foldl_append, List.foldl_cons, List.foldl_nil, get_addItem memory
      (last s' (List.mem_append_right _ (List.mem_singleton_self s')))]
    exact ih fun d hd => last d (List.mem_append_left _ hd)

end Items

/-- **A table is read whole.**

**Proof sketch.** A reader gives the structures of what is left (`structuresFrom_eq`). In a table
that was laid out the next two zeros are those behind the strings, which have none
(`untilZeros_intercalate`), and what is between is split at its zeros into the strings. -/
theorem readWhole : ReadWhole where
  structures t := by
    rw [parseSmbios, structuresFrom_eq, List.drop_zero, ← List.append_nil t.encode,
      structuresOf_table]
  string s off i x pointed one found := by
    rw [Smbios.string, pointed]
    show (if i = 0 then none else s.strings[i.toNat - 1]?.bind fun x =>
      if Text.trim x = "" then none else some (Text.trim x)) = _
    rw [if_neg one, found, Option.bind_some]
  modules β items pre post s z has last :=
    ⟨s.dimm z.inMb, get_smbiosItems has.kind has.sizeMb_eq items pre post last, rfl⟩
  safe t := ⟨_, structuresFrom_eq t 0⟩

/-! ## What is not as it was written -/

/-- A memory device of 1 MB, with a handle and a locator. -/
def oneModule (handle : UInt8) (locator : String) : Smbios :=
  ⟨17, [17, 17, handle, 0, 0, 0, 0, 0, 0, 0, 0, 0, 1, 0, 0, 0, 1], [locator]⟩

/-- **A string is not given with its white space, and of two modules with one locator one is
left.** -/
theorem not_as_written :
    ((oneModule 1 "A1 ").strings[0]? = some "A1 " ∧ (oneModule 1 "A1 ").string 0x10 = some "A1") ∧
      (smbiosItems [oneModule 1 "A1", oneModule 2 "A1"] ([] : List (String × Item Unit))).length =
        1 := by
  decide

end Assets

end StormDrive
