import Mathlib.Data.List.Basic
import Mathlib.Data.UInt
import Mathlib.Tactic.Ring

set_option relaxedAutoImplicit false
set_option autoImplicit false

/-!
# Byte layouts

Records that are laid out in a buffer field by field: a part of a buffer, a part that is written
over, and numbers as bytes in either order.

## Main definitions

* `Bytes.slice`, `Bytes.put` — a part of a buffer; the buffer with a part written over.
* `Bytes.putAll`, `Bytes.Apart` — a record as the fields written over a buffer.
* `Bytes.le`, `Bytes.be` — a number as bytes, the least or the most significant first.
* `Bytes.ofLe`, `Bytes.ofBe` — the number of such bytes.

## Main results

* `Bytes.slice_put`, `Bytes.slice_put_of_disjoint` — what is written is read back, and nothing else
  changes.
* `Bytes.slice_putAll` — **fields that are apart are all read back**.
* `Bytes.ofLe_le`, `Bytes.ofBe_be` — **numbers come back modulo what the bytes hold**.
-/

namespace Bytes

variable {α : Type*}

/-! ## Parts of a buffer -/

/-- The `len` elements from `off`. -/
def slice (b : List α) (off len : ℕ) : List α := (b.drop off).take len

/-- The buffer with `d` written over what is at `off`. -/
def put (b : List α) (off : ℕ) (d : List α) : List α := b.take off ++ d ++ b.drop (off + d.length)

lemma getElem?_slice (b : List α) (off len i : ℕ) :
    (slice b off len)[i]? = if i < len then b[off + i]? else none := by
  rw [slice, List.getElem?_take, List.getElem?_drop]

lemma getD_slice {b : List α} {off len i : ℕ} {a : α} (h : i < len) :
    (slice b off len).getD i a = b.getD (off + i) a := by
  rw [List.getD_eq_getElem?_getD, List.getD_eq_getElem?_getD, getElem?_slice, if_pos h]

/-- An element of a part that holds one value. -/
lemma getD_of_slice {b : List α} {off len i : ℕ} {a : α}
    (part : slice b off len = List.replicate len a) (h : i < len) : b.getD (off + i) a = a := by
  rw [← getD_slice h, part, List.getD_eq_getElem?_getD, List.getElem?_replicate_of_lt h,
    Option.getD_some]

/-- An element is what is written there, or else what was there. -/
lemma getElem?_put {b d : List α} {off : ℕ} (fits : off + d.length ≤ b.length) (i : ℕ) :
    (put b off d)[i]? = if off ≤ i ∧ i < off + d.length then d[i - off]? else b[i]? := by
  have front : (b.take off).length = off := by
    rw [List.length_take]
    omega
  rw [put, List.append_assoc, List.getElem?_append, front]
  by_cases before : i < off
  · rw [if_pos before, if_neg (by omega), List.getElem?_take, if_pos before]
  · rw [if_neg before, List.getElem?_append]
    by_cases within : i < off + d.length
    · rw [if_pos (by omega), if_pos (by omega)]
    · rw [if_neg (by omega), if_neg (by omega), List.getElem?_drop]
      congr 1
      omega

@[simp] lemma length_put {b d : List α} {off : ℕ} (fits : off + d.length ≤ b.length) :
    (put b off d).length = b.length := by
  simp only [put, List.length_append, List.length_take, List.length_drop]
  omega

@[simp] lemma length_slice {b : List α} {off len : ℕ} (fits : off + len ≤ b.length) :
    (slice b off len).length = len := by
  simp only [slice, List.length_take, List.length_drop]
  omega

/-- What is written is read back. -/
lemma slice_put {b d : List α} {off : ℕ} (fits : off + d.length ≤ b.length) :
    slice (put b off d) off d.length = d := by
  apply List.ext_getElem?
  intro i
  rw [getElem?_slice, getElem?_put fits]
  by_cases h : i < d.length
  · rw [if_pos h, if_pos (by omega), Nat.add_sub_cancel_left]
  · rw [if_neg h, List.getElem?_eq_none (by omega)]

/-- What is beside it stays. -/
lemma slice_put_of_disjoint {b d : List α} {off pos len : ℕ} (fits : off + d.length ≤ b.length)
    (apart : pos + len ≤ off ∨ off + d.length ≤ pos) :
    slice (put b off d) pos len = slice b pos len := by
  apply List.ext_getElem?
  intro i
  rw [getElem?_slice, getElem?_slice, getElem?_put fits]
  by_cases h : i < len
  · rw [if_pos h, if_pos h, if_neg (by omega)]
  · rw [if_neg h, if_neg h]

/-- A part of a part. -/
lemma slice_slice {b : List α} {off len pos n : ℕ} (within : pos + n ≤ len) :
    slice (slice b off len) pos n = slice b (off + pos) n := by
  apply List.ext_getElem?
  intro i
  rw [getElem?_slice, getElem?_slice, getElem?_slice]
  by_cases h : i < n
  · rw [if_pos h, if_pos h, if_pos (by omega), Nat.add_assoc]
  · rw [if_neg h, if_neg h]

/-- A part of a buffer that holds one value holds that value. -/
lemma slice_replicate {n off len : ℕ} {a : α} (fits : off + len ≤ n) :
    slice (List.replicate n a) off len = List.replicate len a := by
  rw [slice, List.drop_replicate, List.take_replicate]
  congr 1
  omega

lemma slice_append_left {b c : List α} {off len : ℕ} (fits : off + len ≤ b.length) :
    slice (b ++ c) off len = slice b off len := by
  apply List.ext_getElem?
  intro i
  rw [getElem?_slice, getElem?_slice]
  by_cases h : i < len
  · rw [if_pos h, if_pos h, List.getElem?_append_left (by omega)]
  · rw [if_neg h, if_neg h]

lemma slice_append_right {b c : List α} {off len : ℕ} (past : b.length ≤ off) :
    slice (b ++ c) off len = slice c (off - b.length) len := by
  apply List.ext_getElem?
  intro i
  rw [getElem?_slice, getElem?_slice]
  by_cases h : i < len
  · rw [if_pos h, if_pos h, List.getElem?_append_right (by omega)]
    congr 1
    omega
  · rw [if_neg h, if_neg h]

lemma slice_all {b : List α} {len : ℕ} (length : b.length = len) : slice b 0 len = b := by
  rw [slice, List.drop_zero, List.take_of_length_le (le_of_eq length)]

/-- What is written behind a header. -/
lemma put_append {header b d : List α} {off : ℕ} (past : header.length ≤ off) :
    put (header ++ b) off d = header ++ put b (off - header.length) d := by
  have rest : off + d.length - header.length = off - header.length + d.length := by omega
  rw [put, put, List.take_append, List.take_of_length_le past, List.drop_append,
    List.drop_eq_nil_of_le (by omega), rest, List.nil_append]
  simp only [List.append_assoc]

/-- What is written at the start and after a part that is kept, up to the end. -/
lemma put_put (d count len : List α) (n : ℕ)
    (fits : d.length = count.length + n + len.length) :
    put (put d 0 count) (count.length + n) len = count ++ (slice d count.length n ++ len) := by
  have first : put d 0 count = count ++ d.drop count.length := by
    rw [put, List.take_zero, List.nil_append, Nat.zero_add]
  have tail : (d.drop count.length).drop (n + len.length) = [] := by
    apply List.drop_eq_nil_of_le
    rw [List.length_drop]
    omega
  rw [first, put_append (Nat.le_add_right _ _), Nat.add_sub_cancel_left, put, tail, List.append_nil,
    slice]

/-- Buffers with the same parts of one length are the same. -/
lemma eq_of_slices {b c : List α} {w n : ℕ} (pos : 0 < w) (length : b.length = w * n)
    (length' : c.length = w * n) (same : ∀ i < n, slice b (w * i) w = slice c (w * i) w) : b = c := by
  apply List.ext_getElem?
  intro j
  by_cases h : j < w * n
  · have part := congrArg (·[j % w]?) (same (j / w) (Nat.div_lt_of_lt_mul h))
    simp only [getElem?_slice, if_pos (Nat.mod_lt j pos), Nat.div_add_mod] at part
    exact part
  · rw [List.getElem?_eq_none (by omega), List.getElem?_eq_none (by omega)]

lemma length_pieces {β : Type*} {f : β → List α} {w : ℕ} (width : ∀ a, (f a).length = w)
    (us : List β) : (us.flatMap f).length = w * us.length := by
  induction us with
  | nil => rfl
  | cons u us ih => rw [List.flatMap_cons, List.length_append, width, ih, List.length_cons]; ring

/-- A part of a buffer that is made of pieces of one length. -/
lemma slice_pieces {β : Type*} {f : β → List α} {w : ℕ} (width : ∀ a, (f a).length = w)
    {us : List β} {i : ℕ} (h : i < us.length) : slice (us.flatMap f) (w * i) w = f us[i] := by
  induction us generalizing i with
  | nil => exact absurd h (Nat.not_lt_zero i)
  | cons u us ih =>
    rw [List.flatMap_cons]
    cases i with
    | zero =>
      rw [Nat.mul_zero, slice_append_left (by rw [width]; omega), slice, List.drop_zero,
        List.take_of_length_le (by rw [width])]
      rfl
    | succ i =>
      rw [slice_append_right (by rw [width]; exact Nat.le_mul_of_pos_right _ i.succ_pos), width,
        Nat.mul_succ, Nat.add_sub_cancel]
      exact ih (Nat.lt_of_succ_lt_succ h)

/-! ## Records -/

/-- The buffer with each field of a record written over it, in order. -/
def putAll (b : List α) (fields : List (ℕ × List α)) : List α :=
  fields.foldl (fun b f => put b f.1 f.2) b

/-- Where the fields lie: the offset and the length of each. -/
def spans (fields : List (ℕ × List α)) : List (ℕ × ℕ) := fields.map fun f => (f.1, f.2.length)

/-- Two spans have nothing in common. -/
def Apart (s t : ℕ × ℕ) : Prop := s.1 + s.2 ≤ t.1 ∨ t.1 + t.2 ≤ s.1

instance (s t : ℕ × ℕ) : Decidable (Apart s t) := inferInstanceAs (Decidable (_ ∨ _))

lemma length_putAll {b : List α} {fields : List (ℕ × List α)}
    (fits : ∀ s ∈ spans fields, s.1 + s.2 ≤ b.length) : (putAll b fields).length = b.length := by
  induction fields generalizing b with
  | nil => rfl
  | cons f fields ih =>
    have first : (put b f.1 f.2).length = b.length := length_put (fits _ (List.mem_cons_self ..))
    have rest := ih (b := put b f.1 f.2) fun s h => first ▸ fits s (List.mem_cons_of_mem _ h)
    exact rest.trans first

/-- What no field covers stays. -/
lemma slice_putAll_of_apart {b : List α} {fields : List (ℕ × List α)} {pos len : ℕ}
    (fits : ∀ s ∈ spans fields, s.1 + s.2 ≤ b.length)
    (apart : ∀ s ∈ spans fields, Apart s (pos, len)) :
    slice (putAll b fields) pos len = slice b pos len := by
  induction fields generalizing b with
  | nil => rfl
  | cons f fields ih =>
    have here : f.1 + f.2.length ≤ b.length := fits _ (List.mem_cons_self ..)
    have first : (put b f.1 f.2).length = b.length := length_put here
    have rest := ih (b := put b f.1 f.2) (fun s h => first ▸ fits s (List.mem_cons_of_mem _ h))
      fun s h => apart s (List.mem_cons_of_mem _ h)
    exact rest.trans
      (slice_put_of_disjoint here (apart (f.1, f.2.length) (List.mem_cons_self ..)).symm)

/-- **Fields that are apart are all read back**. -/
lemma slice_putAll {b : List α} {fields : List (ℕ × List α)} {f : ℕ × List α}
    (fits : ∀ s ∈ spans fields, s.1 + s.2 ≤ b.length) (apart : (spans fields).Pairwise Apart)
    (mem : f ∈ fields) : slice (putAll b fields) f.1 f.2.length = f.2 := by
  induction fields generalizing b with
  | nil => exact absurd mem (List.not_mem_nil)
  | cons g fields ih =>
    have here : g.1 + g.2.length ≤ b.length := fits _ (List.mem_cons_self ..)
    have first : (put b g.1 g.2).length = b.length := length_put here
    have rest : ∀ s ∈ spans fields, s.1 + s.2 ≤ (put b g.1 g.2).length :=
      fun s h => first ▸ fits s (List.mem_cons_of_mem _ h)
    obtain ⟨beside, others⟩ := List.pairwise_cons.mp apart
    obtain rfl | mem := List.mem_cons.mp mem
    · exact (slice_putAll_of_apart rest fun s h => (beside s h).symm).trans (slice_put here)
    · exact ih rest others mem

/-- A field that is blanked again. -/
lemma put_put_slice {b c : List α} {off len : ℕ} (fits : off + len ≤ b.length)
    (length : c.length = len) : put (put b off c) off (slice b off len) = b := by
  have within : off + c.length ≤ b.length := length ▸ fits
  have same : (slice b off len).length = c.length := by rw [length_slice fits, length]
  apply List.ext_getElem?
  intro i
  rw [getElem?_put (by rw [length_put within, same]; exact within), getElem?_put within, same,
    length]
  by_cases h : off ≤ i ∧ i < off + len
  · rw [if_pos h, getElem?_slice, if_pos (by omega)]
    congr 1
    omega
  · rw [if_neg h, if_neg h]

lemma take_put {b d : List α} {off n : ℕ} (fits : off + d.length ≤ b.length)
    (within : off + d.length ≤ n) : (put b off d).take n = put (b.take n) off d := by
  apply List.ext_getElem?
  intro i
  rw [List.getElem?_take, getElem?_put fits,
    getElem?_put (by rw [List.length_take]; omega), List.getElem?_take]
  split_ifs with inside covered
  · rfl
  · rfl
  · omega
  · rfl

/-! ## Numbers -/

/-- The `n` bytes of a number, the least significant first. -/
def le : ℕ → ℕ → List UInt8
  | 0, _ => []
  | n + 1, v => UInt8.ofNat v :: le n (v / 256)

/-- The number of bytes of which the least significant is first. -/
def ofLe : List UInt8 → ℕ
  | [] => 0
  | b :: bs => b.toNat + 256 * ofLe bs

/-- The `n` bytes of a number, the most significant first. -/
def be (n v : ℕ) : List UInt8 := (le n v).reverse

/-- The number of bytes of which the most significant is first. -/
def ofBe (b : List UInt8) : ℕ := ofLe b.reverse

@[simp] lemma length_le (n v : ℕ) : (le n v).length = n := by
  induction n generalizing v with
  | zero => rfl
  | succ n ih => rw [le, List.length_cons, ih]

@[simp] lemma length_be (n v : ℕ) : (be n v).length = n := by
  rw [be, List.length_reverse, length_le]

/-- **Numbers come back modulo what the bytes hold**. -/
lemma ofLe_le (n v : ℕ) : ofLe (le n v) = v % 256 ^ n := by
  induction n generalizing v with
  | zero => rw [pow_zero, Nat.mod_one]; rfl
  | succ n ih =>
    have low : (UInt8.ofNat v).toNat = v % 256 := UInt8.toNat_ofNat'
    rw [le, ofLe, ih, low, pow_succ', Nat.mod_mul]

lemma ofBe_be (n v : ℕ) : ofBe (be n v) = v % 256 ^ n := by
  rw [ofBe, be, List.reverse_reverse, ofLe_le]

lemma ofLe_le_of_lt {n v : ℕ} (h : v < 256 ^ n) : ofLe (le n v) = v := by
  rw [ofLe_le, Nat.mod_eq_of_lt h]

lemma ofBe_be_of_lt {n v : ℕ} (h : v < 256 ^ n) : ofBe (be n v) = v := by
  rw [ofBe_be, Nat.mod_eq_of_lt h]

lemma le_add (m n v : ℕ) : le (m + n) v = le m v ++ le n (v / 256 ^ m) := by
  induction m generalizing v with
  | zero => rw [Nat.zero_add, pow_zero, Nat.div_one]; rfl
  | succ m ih =>
    rw [Nat.succ_add, le, le, ih, List.cons_append, Nat.div_div_eq_div_mul, pow_succ']

/-- The last bytes of a number are those of a shorter one. -/
lemma drop_be (m n v : ℕ) : (be (m + n) v).drop n = be m v := by
  rw [be, le_add, List.reverse_append]
  refine List.drop_left' ?_
  rw [List.length_reverse, length_le]

lemma ofLe_append (b c : List UInt8) : ofLe (b ++ c) = ofLe b + 256 ^ b.length * ofLe c := by
  induction b with
  | nil => rw [List.nil_append, List.length_nil, pow_zero, Nat.one_mul]; exact (Nat.zero_add _).symm
  | cons a b ih =>
    rw [List.cons_append, ofLe, ih, ofLe, List.length_cons, pow_succ']
    ring

end Bytes
