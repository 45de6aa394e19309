import StormDrive.ShelfReport

set_option relaxedAutoImplicit false
set_option autoImplicit false

/-!
# Text that was written in UTF-8

A text that was written in UTF-8 is read back from its bytes (`String::from_utf8_lossy`).

## Main results

* `Ses.fromUtf8Lossy_utf8` — **the bytes of a text are read as the text**.
* `Ses.zero_notMem_utf8` — a text without the character zero has no zero among its bytes.
-/

namespace StormDrive

namespace Ses

/-- The bytes of a text. -/
def utf8 (s : List Char) : List UInt8 := s.flatMap String.utf8EncodeChar

@[simp] lemma utf8_nil : utf8 [] = [] := rfl

lemma utf8_cons (c : Char) (s : List Char) : utf8 (c :: s) = String.utf8EncodeChar c ++ utf8 s :=
  List.flatMap_cons

/-- A code point is not a surrogate and not past the last one. -/
lemma toNat_char (c : Char) :
    c.val.toNat < 0xD800 ∨ 0xDFFF < c.val.toNat ∧ c.val.toNat < 0x110000 := c.valid

section Bytes

variable {n : ℕ}

lemma toNat_byte (h : n < 256) : (UInt8.ofNat n).toNat = n := by
  rw [UInt8.toNat_ofNat', Nat.mod_eq_of_lt h]

/-- How many bytes a character has, by the number of its first byte. -/
lemma utf8Width_eq (b : UInt8) : utf8Width b =
    if b.toNat < 0x80 then 1
    else if 0xC2 ≤ b.toNat ∧ b.toNat ≤ 0xDF then 2
    else if 0xE0 ≤ b.toNat ∧ b.toNat ≤ 0xEF then 3
    else if 0xF0 ≤ b.toNat ∧ b.toNat ≤ 0xF4 then 4
    else 0 := by
  simp only [utf8Width, UInt8.lt_iff_toNat_lt, UInt8.le_iff_toNat_le, Bool.and_eq_true,
    decide_eq_true_eq]
  rfl

lemma isContinuation_iff (b : UInt8) :
    isContinuation b = true ↔ 0x80 ≤ b.toNat ∧ b.toNat ≤ 0xBF := by
  rw [isContinuation, Bool.and_eq_true, decide_eq_true_eq, decide_eq_true_eq,
    UInt8.le_iff_toNat_le, UInt8.le_iff_toNat_le]
  rfl

/-- Which bytes may come second, by their numbers. -/
lemma isSecond_iff (lead b : UInt8) : isSecond lead b = true ↔
    if lead.toNat = 0xE0 then 0xA0 ≤ b.toNat ∧ b.toNat ≤ 0xBF
    else if lead.toNat = 0xED then 0x80 ≤ b.toNat ∧ b.toNat ≤ 0x9F
    else if lead.toNat = 0xF0 then 0x90 ≤ b.toNat ∧ b.toNat ≤ 0xBF
    else if lead.toNat = 0xF4 then 0x80 ≤ b.toNat ∧ b.toNat ≤ 0x8F
    else 0x80 ≤ b.toNat ∧ b.toNat ≤ 0xBF := by
  have same : ∀ k : UInt8, lead = k ↔ lead.toNat = k.toNat := fun k => UInt8.toNat_inj.symm
  simp only [isSecond, same, isContinuation]
  split_ifs <;>
    first
    | rw [Bool.and_eq_true, decide_eq_true_eq, decide_eq_true_eq, UInt8.le_iff_toNat_le,
        UInt8.le_iff_toNat_le]; rfl
    | contradiction

/-- A character of which all bytes are there. -/
lemma fromUtf8Lossy_of_whole {lead : UInt8} (behind : List UInt8) {rest : List UInt8} {c : Char}
    (all : utf8Behind lead (behind ++ rest) = behind.length)
    (width : behind.length + 1 = utf8Width lead) (value : utf8Value lead behind = c.toNat) :
    fromUtf8Lossy (lead :: (behind ++ rest)) = c :: fromUtf8Lossy rest := by
  rw [fromUtf8Lossy, all, if_pos width, List.take_left, List.drop_left, value, Char.ofNat_toNat]

/-- The bytes behind the first one. -/
lemma utf8Behind_of_second {lead second : UInt8} (more : List UInt8) {rest : List UInt8}
    (width : more.length + 2 = utf8Width lead) (hs : isSecond lead second = true)
    (hm : ∀ b ∈ more, isContinuation b = true) :
    utf8Behind lead (second :: more ++ rest) = (second :: more).length := by
  have two : 2 ≤ utf8Width lead := by omega
  have left : utf8Width lead - 2 = more.length := by omega
  rw [List.cons_append, utf8Behind, decide_eq_true two, hs, Bool.true_and, if_pos rfl,
    List.takeWhile_append_of_pos hm, left, List.take_left, List.length_cons, Nat.add_comm]

/-- A character is read back from its bytes, whatever follows them.

**Proof sketch.** By the number of its bytes, 1 to 4; each of them is known by its number. -/
lemma fromUtf8Lossy_utf8EncodeChar (c : Char) (rest : List UInt8) :
    fromUtf8Lossy (String.utf8EncodeChar c ++ rest) = c :: fromUtf8Lossy rest := by
  have valid := toNat_char c
  have number : c.toNat = c.val.toNat := rfl
  unfold String.utf8EncodeChar
  generalize c.val.toNat = v at valid number ⊢
  dsimp only
  split_ifs with one two three
  · have lead : (UInt8.ofNat v).toNat = v := toNat_byte (by omega)
    have width : utf8Width (UInt8.ofNat v) = 1 := by
      rw [utf8Width_eq, lead, if_pos (by omega)]
    refine fromUtf8Lossy_of_whole [] ?_ width.symm ?_
    · cases rest with
      | nil => rfl
      | cons b rest =>
        rw [List.nil_append, utf8Behind, width]
        rfl
    · rw [utf8Value, width, number]
      exact lead
  · have lead : (UInt8.ofNat (v / 64 % 32 + 192)).toNat = v / 64 % 32 + 192 := toNat_byte (by omega)
    have second : (UInt8.ofNat (v % 64 + 128)).toNat = v % 64 + 128 := toNat_byte (by omega)
    have width : utf8Width (UInt8.ofNat (v / 64 % 32 + 192)) = 2 := by
      rw [utf8Width_eq, lead, if_neg (by omega), if_pos (by omega)]
    refine fromUtf8Lossy_of_whole [_] ?_ width.symm ?_
    · refine utf8Behind_of_second [] width.symm ?_ (by simp)
      rw [isSecond_iff, lead, second]
      split_ifs <;> omega
    · rw [utf8Value, width, number, List.foldl_cons, List.foldl_nil, lead, second]
      show (v / 64 % 32 + 192) % 32 * 64 + (v % 64 + 128) % 64 = v
      omega
  · have lead : (UInt8.ofNat (v / 4096 % 16 + 224)).toNat = v / 4096 % 16 + 224 :=
      toNat_byte (by omega)
    have second : (UInt8.ofNat (v / 64 % 64 + 128)).toNat = v / 64 % 64 + 128 :=
      toNat_byte (by omega)
    have third : (UInt8.ofNat (v % 64 + 128)).toNat = v % 64 + 128 := toNat_byte (by omega)
    have width : utf8Width (UInt8.ofNat (v / 4096 % 16 + 224)) = 3 := by
      rw [utf8Width_eq, lead, if_neg (by omega), if_neg (by omega), if_pos (by omega)]
    refine fromUtf8Lossy_of_whole [_, _] ?_ width.symm ?_
    · refine utf8Behind_of_second [_] width.symm ?_ ?_
      · rw [isSecond_iff, lead, second]
        split_ifs <;> omega
      · intro b mem
        rw [List.mem_singleton.mp mem, isContinuation_iff, third]
        omega
    · rw [utf8Value, width, number, List.foldl_cons, List.foldl_cons, List.foldl_nil, lead, second,
        third]
      show ((v / 4096 % 16 + 224) % 16 * 64 + (v / 64 % 64 + 128) % 64) * 64 +
        (v % 64 + 128) % 64 = v
      omega
  · have lead : (UInt8.ofNat (v / 262144 % 8 + 240)).toNat = v / 262144 % 8 + 240 :=
      toNat_byte (by omega)
    have second : (UInt8.ofNat (v / 4096 % 64 + 128)).toNat = v / 4096 % 64 + 128 :=
      toNat_byte (by omega)
    have third : (UInt8.ofNat (v / 64 % 64 + 128)).toNat = v / 64 % 64 + 128 :=
      toNat_byte (by omega)
    have fourth : (UInt8.ofNat (v % 64 + 128)).toNat = v % 64 + 128 := toNat_byte (by omega)
    have width : utf8Width (UInt8.ofNat (v / 262144 % 8 + 240)) = 4 := by
      rw [utf8Width_eq, lead, if_neg (by omega), if_neg (by omega), if_neg (by omega),
        if_pos (by omega)]
    refine fromUtf8Lossy_of_whole [_, _, _] ?_ width.symm ?_
    · refine utf8Behind_of_second [_, _] width.symm ?_ ?_
      · rw [isSecond_iff, lead, second]
        split_ifs <;> omega
      · intro b mem
        obtain rfl | mem := List.mem_cons.mp mem
        · rw [isContinuation_iff, third]
          omega
        · rw [List.mem_singleton.mp mem, isContinuation_iff, fourth]
          omega
    · rw [utf8Value, width, number, List.foldl_cons, List.foldl_cons, List.foldl_cons,
        List.foldl_nil, lead, second, third, fourth]
      show (((v / 262144 % 8 + 240) % 8 * 64 + (v / 4096 % 64 + 128) % 64) * 64 +
        (v / 64 % 64 + 128) % 64) * 64 + (v % 64 + 128) % 64 = v
      omega

end Bytes

/-- **The bytes of a text are read as the text.** -/
theorem fromUtf8Lossy_utf8 (s : List Char) : fromUtf8Lossy (utf8 s) = s := by
  induction s with
  | nil => rw [utf8_nil, fromUtf8Lossy]
  | cons c s ih => rw [utf8_cons, fromUtf8Lossy_utf8EncodeChar, ih]

/-- A character other than zero has no zero among its bytes. -/
lemma zero_notMem_utf8EncodeChar {c : Char} (h : c ≠ '\x00') :
    (0 : UInt8) ∉ String.utf8EncodeChar c := by
  have pos : c.val.toNat ≠ 0 := by
    intro zero
    exact h (Char.ext (UInt32.toNat_inj.mp zero))
  have byte : ∀ n, 0 < n → n < 256 → (0 : UInt8) ≠ UInt8.ofNat n := by
    intro n some small zero
    have number := congrArg UInt8.toNat zero
    rw [toNat_byte small] at number
    exact some.ne number
  have valid := toNat_char c
  unfold String.utf8EncodeChar
  generalize c.val.toNat = v at pos valid ⊢
  dsimp only
  split_ifs <;> simp only [List.mem_cons, List.not_mem_nil, or_false, not_or]
  · exact byte _ (by omega) (by omega)
  · exact ⟨byte _ (by omega) (by omega), byte _ (by omega) (by omega)⟩
  · exact ⟨byte _ (by omega) (by omega), byte _ (by omega) (by omega),
      byte _ (by omega) (by omega)⟩
  · exact ⟨byte _ (by omega) (by omega), byte _ (by omega) (by omega),
      byte _ (by omega) (by omega), byte _ (by omega) (by omega)⟩

/-- **A text without the character zero has no zero among its bytes.** -/
theorem zero_notMem_utf8 {s : List Char} (h : '\x00' ∉ s) : (0 : UInt8) ∉ utf8 s := by
  intro mem
  obtain ⟨c, hc, zero⟩ := List.mem_flatMap.mp mem
  refine zero_notMem_utf8EncodeChar ?_ zero
  rintro rfl
  exact h hc

end Ses

end StormDrive
