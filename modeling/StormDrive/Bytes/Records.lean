import StormDrive.Bytes.Bounds

set_option relaxedAutoImplicit false
set_option autoImplicit false

/-!
# Records behind one another

A region of a buffer that holds records of different lengths: each has `k` bytes, one byte with the
length of its data, and its data. A reader walks them by their lengths, up to where the region ends.

## Main definitions

* `Bytes.Record` — one record.
* `Bytes.forRecords` — the loop of a reader.
* `Bytes.recordsAt` — the offset and the length of each record that it meets.

## Main results

* `Bytes.forRecords_eq` — **a walk inside the buffer is a loop over the records it meets**.
* `Bytes.recordsAt_flatMap` — it meets the records that were written, in order.
* `Bytes.recordsAt_take` — in a buffer that is cut off it meets those whose length is before the
  cut.
-/

namespace Bytes

/-! ## The walk -/

/-- Each record from `off` on, as long as its length byte is before `stop`. -/
def forRecords {σ : Type} (k : ℕ) (b : List UInt8) (stop : ℕ)
    (body : ℕ → ℕ → σ → Checked OutOfBounds (ForInStep σ)) (off : ℕ) (s : σ) :
    Checked OutOfBounds σ :=
  if off + k < stop then
    index b (off + k) >>= fun len => body off len.toNat s >>= fun
      | .done s => .ok s
      | .yield s => forRecords k b stop body (off + k + 1 + len.toNat) s
  else .ok s
termination_by stop - off

/-- The offset and the length of each record. -/
def recordsAt (k : ℕ) (b : List UInt8) (stop off : ℕ) : List (ℕ × ℕ) :=
  if off + k < stop then
    (off, (b.getD (off + k) 0).toNat) ::
      recordsAt k b stop (off + k + 1 + (b.getD (off + k) 0).toNat)
  else []
termination_by stop - off

section Walk

variable {k stop off : ℕ} {b : List UInt8}

lemma recordsAt_of_lt (h : off + k < stop) : recordsAt k b stop off =
    (off, (b.getD (off + k) 0).toNat) ::
      recordsAt k b stop (off + k + 1 + (b.getD (off + k) 0).toNat) := by
  rw [recordsAt, if_pos h]

lemma recordsAt_of_le (h : stop ≤ off + k) : recordsAt k b stop off = [] := by
  rw [recordsAt, if_neg (by omega)]

/-- The length byte of a record that is met is before the end. -/
lemma lt_of_mem_recordsAt {r : ℕ × ℕ} (h : r ∈ recordsAt k b stop off) : r.1 + k < stop := by
  induction off using recordsAt.induct k b stop with
  | case1 off within ih =>
    rw [recordsAt_of_lt within] at h
    obtain rfl | behind := List.mem_cons.mp h
    · exact within
    · exact ih behind
  | case2 off past =>
    rw [recordsAt_of_le (by omega)] at h
    exact absurd h List.not_mem_nil

/-- **A walk inside the buffer is a loop over the records it meets**. -/
lemma forRecords_eq {σ : Type} {body : ℕ → ℕ → σ → Checked OutOfBounds (ForInStep σ)}
    (fits : stop ≤ b.length) (off : ℕ) (s : σ) :
    forRecords k b stop body off s =
      forIn (recordsAt k b stop off) s fun r s => body r.1 r.2 s := by
  induction off using recordsAt.induct k b stop generalizing s with
  | case1 off within ih =>
    rw [forRecords, if_pos within, index_eq (by omega) 0, Checked.ok_bind, recordsAt_of_lt within,
      List.forIn_cons]
    congr 1
    funext step
    cases step with
    | done s => rfl
    | yield s => exact ih s
  | case2 off past =>
    rw [forRecords, if_neg past, recordsAt_of_le (by omega)]
    rfl

/-- **In a buffer that is cut off the walk meets the records whose length is before the cut**. -/
lemma recordsAt_take {stop' n : ℕ} (before : stop' ≤ stop) (within : stop' ≤ n) :
    recordsAt k (b.take n) stop' off =
      (recordsAt k b stop off).takeWhile fun r => r.1 + k < stop' := by
  induction off using recordsAt.induct k b stop with
  | case1 off here ih =>
    rw [recordsAt_of_lt here, List.takeWhile_cons]
    by_cases first : off + k < stop'
    · have same : (b.take n).getD (off + k) 0 = b.getD (off + k) 0 := by
        rw [List.getD_eq_getElem?_getD, List.getD_eq_getElem?_getD, List.getElem?_take,
          if_pos (by omega)]
      rw [recordsAt_of_lt first, same, ih, if_pos (decide_eq_true first)]
    · rw [recordsAt_of_le (by omega), if_neg (by simpa using first)]
  | case2 off past =>
    rw [recordsAt_of_le (by omega), recordsAt_of_le (by omega)]
    rfl

/-- A loop each step of which goes on with what a function gives. -/
lemma forIn_eq_foldl {α σ : Type} {l : List α} {f : α → σ → Checked OutOfBounds (ForInStep σ)}
    {g : σ → α → σ} (step : ∀ r ∈ l, ∀ s, f r s = .ok (.yield (g s r))) (s : σ) :
    forIn l s f = .ok (l.foldl g s) := by
  induction l generalizing s with
  | nil => rfl
  | cons r l ih =>
    rw [List.forIn_cons, step r (List.mem_cons_self ..) s, Checked.ok_bind]
    exact ih (fun r h => step r (List.mem_cons_of_mem _ h)) (g s r)

end Walk

/-! ## Records -/

/-- One record: what stands before its length, and its data. -/
structure Record (k : ℕ) where
  head : List UInt8
  data : List UInt8
  length_head : head.length = k
  length_data : data.length < 256

namespace Record

variable {k : ℕ}

/-- The bytes of a record. -/
def bytes (r : Record k) : List UInt8 := r.head ++ UInt8.ofNat r.data.length :: r.data

/-- How long it is. -/
def size (r : Record k) : ℕ := k + 1 + r.data.length

@[simp] lemma length_bytes (r : Record k) : r.bytes.length = r.size := by
  rw [bytes, List.length_append, List.length_cons, r.length_head, size]
  omega

lemma getD_length (r : Record k) (rest : List UInt8) :
    ((r.bytes ++ rest).getD k 0).toNat = r.data.length := by
  have here : (r.bytes ++ rest)[k]? = some (UInt8.ofNat r.data.length) := by
    rw [bytes, List.append_assoc, List.getElem?_append_right (by rw [r.length_head]),
      r.length_head, Nat.sub_self]
    rfl
  rw [List.getD_eq_getElem?_getD, here, Option.getD_some, UInt8.toNat_ofNat',
    Nat.mod_eq_of_lt r.length_data]

lemma getD_head (r : Record k) (rest : List UInt8) {i : ℕ} (h : i < k) :
    (r.bytes ++ rest).getD i 0 = r.head.getD i 0 := by
  rw [List.getD_eq_getElem?_getD, List.getD_eq_getElem?_getD, bytes, List.append_assoc,
    List.getElem?_append_left (by rw [r.length_head]; exact h)]

/-- The data, as far as a part of the buffer reaches. -/
lemma slice_data (r : Record k) (rest : List UInt8) {len : ℕ} (h : len ≤ r.data.length) :
    slice (r.bytes ++ rest) (k + 1) len = r.data.take len := by
  have front : (r.head ++ [UInt8.ofNat r.data.length]).length = k + 1 := by
    rw [List.length_append, r.length_head, List.length_singleton]
  have split : r.bytes ++ rest =
      (r.head ++ [UInt8.ofNat r.data.length]) ++ (r.data ++ rest) := by
    rw [bytes, List.append_assoc, List.append_assoc]
    rfl
  rw [split, slice_append_right (by omega), front, Nat.sub_self, slice_append_left (by omega),
    slice, List.drop_zero]

end Record

/-- Where the records that begin at `off` lie. -/
def layout {k : ℕ} : ℕ → List (Record k) → List (ℕ × ℕ)
  | _, [] => []
  | off, r :: rs => (off, r.data.length) :: layout (off + r.size) rs

lemma layout_append {k : ℕ} (off : ℕ) (rs rs' : List (Record k)) :
    layout off (rs ++ rs') =
      layout off rs ++ layout (off + (rs.flatMap Record.bytes).length) rs' := by
  induction rs generalizing off with
  | nil => rfl
  | cons r rs ih =>
    rw [List.cons_append, layout, ih, layout, List.flatMap_cons, List.length_append,
      r.length_bytes, List.cons_append, Nat.add_assoc]

section Written

variable {k off stop : ℕ} {b : List UInt8}

lemma getD_of_drop {rest : List UInt8} (h : b.drop off = rest) (i : ℕ) :
    b.getD (off + i) 0 = rest.getD i 0 := by
  rw [← h, List.getD_eq_getElem?_getD, List.getD_eq_getElem?_getD, List.getElem?_drop]

lemma slice_of_drop {rest : List UInt8} (h : b.drop off = rest) (i len : ℕ) :
    slice b (off + i) len = slice rest i len := by
  rw [slice, slice, ← h, List.drop_drop]

lemma drop_of_drop {r : Record k} {rest : List UInt8} (h : b.drop off = r.bytes ++ rest) :
    b.drop (off + r.size) = rest := by
  rw [← List.drop_drop, h, List.drop_left' r.length_bytes]

/-- **The walk meets the records that were written**, in order. -/
lemma recordsAt_flatMap {rs : List (Record k)} {rest : List UInt8}
    (written : b.drop off = rs.flatMap Record.bytes ++ rest)
    (stops : stop = off + (rs.flatMap Record.bytes).length) :
    recordsAt k b stop off = layout off rs := by
  induction rs generalizing off with
  | nil =>
    rw [List.flatMap_nil, List.length_nil] at stops
    rw [recordsAt_of_le (by omega)]
    rfl
  | cons r rs ih =>
    rw [List.flatMap_cons, List.length_append, r.length_bytes] at stops
    rw [List.flatMap_cons, List.append_assoc] at written
    have len : (b.getD (off + k) 0).toNat = r.data.length := by
      rw [getD_of_drop written, r.getD_length]
    have within : off + k < stop := by
      rw [Record.size] at stops
      omega
    rw [recordsAt_of_lt within, len, layout]
    have next : off + k + 1 + r.data.length = off + r.size := by
      rw [Record.size]
      omega
    rw [next, ih (drop_of_drop written) (by omega)]

end Written

end Bytes
