import StormDrive.Bytes.Layout

set_option relaxedAutoImplicit false
set_option autoImplicit false

/-!
# Buffers that are sent in pieces

A buffer is cut into pieces of one length, the last of which may be shorter, and each piece goes out
with its offset.

## Main definitions

* `Bytes.Cut` — the pieces, from an offset on.
* `Bytes.Contiguous` — spans of which each begins where the one before ends.
* `Bytes.lastOffset` — the offset of the last piece.

## Main results

* `Bytes.Cut.flatMap_eq` — **the pieces are the buffer**.
* `Bytes.Cut.contiguous_iff` — **what is said of the pieces is contiguous exactly when it says the
  offsets**.
* `Bytes.Cut.lt_iff`, `Bytes.Cut.dvd_iff`, `Bytes.Cut.length_lt_iff` — a bound of the offsets, a
  divisor of them and a bound of the lengths, without the pieces.
-/

namespace Bytes

variable {α : Type*}

/-- The pieces of length `c`, each with its offset, that a buffer is cut into from `off` on. -/
inductive Cut (c : ℕ) (b : List α) : ℕ → List (ℕ × List α) → Prop
  | done {off : ℕ} (past : b.length ≤ off) : Cut c b off []
  | more {off : ℕ} {ps : List (ℕ × List α)} (within : off < b.length)
      (rest : Cut c b (min (off + c) b.length) ps) :
      Cut c b off ((off, slice b off (min (off + c) b.length - off)) :: ps)

/-- Spans, as offset and length, of which each begins where the one before ends. -/
def Contiguous : ℕ → List (ℕ × ℕ) → Prop
  | _, [] => True
  | off, s :: rest => s.1 = off ∧ Contiguous (off + s.2) rest

/-- The offset of the last of the pieces of length `c`: the last multiple of `c` before the end. -/
def lastOffset (c length : ℕ) : ℕ := (length - 1) / c * c

lemma slice_append_drop (b : List α) {off stop : ℕ} (h : off ≤ stop) :
    slice b off (stop - off) ++ b.drop stop = b.drop off := by
  have back : b.drop stop = (b.drop off).drop (stop - off) := by
    rw [List.drop_drop]
    congr 1
    omega
  rw [slice, back, List.take_append_drop]

namespace Cut

variable {c : ℕ} {b : List α} {off : ℕ} {ps : List (ℕ × List α)}

/-- **The pieces are the buffer**. -/
lemma flatMap_eq (cut : Cut c b off ps) : ps.flatMap (·.2) = b.drop off := by
  induction cut with
  | done past => rw [List.drop_eq_nil_of_le past, List.flatMap_nil]
  | more within rest ih =>
    rw [List.flatMap_cons, ih]
    exact slice_append_drop b (by omega)

/-- What a piece is. -/
lemma mem (cut : Cut c b off ps) {p : ℕ × List α} (h : p ∈ ps) :
    off ≤ p.1 ∧ p.1 < b.length ∧ c ∣ p.1 - off ∧
      p.2 = slice b p.1 (min (p.1 + c) b.length - p.1) := by
  induction cut with
  | done past => exact absurd h List.not_mem_nil
  | @more off ps within rest ih =>
    obtain rfl | behind := List.mem_cons.mp h
    · exact ⟨le_rfl, within, by rw [Nat.sub_self]; exact dvd_zero c, rfl⟩
    · obtain ⟨after, before, ⟨k, steps⟩, data⟩ := ih behind
      have next : min (off + c) b.length = off + c := by omega
      refine ⟨by omega, before, ⟨k + 1, ?_⟩, data⟩
      rw [Nat.mul_succ, ← steps]
      omega

lemma length_of_mem (cut : Cut c b off ps) {p : ℕ × List α} (h : p ∈ ps) :
    p.2.length = min c (b.length - p.1) := by
  obtain ⟨-, before, -, data⟩ := cut.mem h
  rw [data, length_slice (by omega)]
  omega

/-- Every multiple of `c` before the end is the offset of a piece. -/
lemma exists_mem (cut : Cut c b off ps) {o : ℕ} (after : off ≤ o) (before : o < b.length)
    (multiple : c ∣ o - off) : ∃ p ∈ ps, p.1 = o := by
  induction cut with
  | done past => omega
  | @more off ps within rest ih =>
    by_cases here : o = off
    · exact ⟨_, List.mem_cons_self .., here.symm⟩
    · have far : c ≤ o - off := Nat.le_of_dvd (by omega) multiple
      have next : min (off + c) b.length = off + c := by omega
      have less : c ∣ o - min (off + c) b.length := by
        rw [next, Nat.sub_add_eq]
        exact Nat.dvd_sub multiple (dvd_refl c)
      obtain ⟨p, behind, same⟩ := ih (by omega) less
      exact ⟨p, List.mem_cons_of_mem _ behind, same⟩

/-- A buffer is cut into pieces only when they have a length. -/
lemma pos (cut : Cut c b off ps) (within : off < b.length) : 0 < c := by
  induction cut with
  | done past => omega
  | @more off ps here rest ih =>
    by_contra zero
    exact zero (ih (by omega))

/-- Pieces that have a length are pieces of every buffer. -/
lemma exists_of_pos (b : List α) (pos : 0 < c) (off : ℕ) : ∃ ps, Cut c b off ps := by
  induction h : b.length - off using Nat.strong_induction_on generalizing off with
  | _ n ih =>
    by_cases within : off < b.length
    · obtain ⟨ps, cut⟩ := ih (b.length - min (off + c) b.length) (by omega) _ rfl
      exact ⟨_, .more within cut⟩
    · exact ⟨[], .done (by omega)⟩

/-- Only the first piece has the offset 0. -/
lemma tail_ne_zero (cut : Cut c b off ps) : ∀ p ∈ ps.tail, p.1 ≠ 0 := by
  intro p h
  cases cut with
  | done past => exact absurd h List.not_mem_nil
  | more within rest =>
    have step := (Cut.more within rest).pos within
    have after := (rest.mem h).1
    omega

lemma eq_nil (cut : Cut c b off ps) (past : b.length ≤ off) : ps = [] := by
  cases cut with
  | done past => rfl
  | more within rest => omega

/-- **What is said of the pieces is contiguous exactly when it says the offsets**, where it says the
length of all pieces but the last. -/
lemma contiguous_iff (cut : Cut c b off ps) {f : ℕ × List α → ℕ × ℕ}
    (lengths : ∀ p ∈ ps, p.1 + c < b.length → (f p).2 = c) :
    Contiguous off (ps.map f) ↔ ∀ p ∈ ps, (f p).1 = p.1 := by
  induction cut with
  | done past => exact ⟨fun _ _ h => absurd h List.not_mem_nil, fun _ => trivial⟩
  | @more off ps within rest ih =>
    rw [List.map_cons, Contiguous, List.forall_mem_cons]
    refine and_congr_right fun _ => ?_
    by_cases last : b.length ≤ off + c
    · obtain rfl := rest.eq_nil (by omega)
      exact ⟨fun _ _ h => absurd h List.not_mem_nil, fun _ => trivial⟩
    · have next : min (off + c) b.length = off + c := by omega
      have step := lengths _ (List.mem_cons_self ..) (by omega)
      rw [step, ← ih fun p h => lengths p (List.mem_cons_of_mem _ h), next]

lemma lastOffset_lt {length : ℕ} (some : 0 < length) : lastOffset c length < length := by
  have below : (length - 1) / c * c ≤ length - 1 := Nat.div_mul_le_self _ _
  rw [lastOffset]
  omega

/-- A bound of the offsets. -/
lemma lt_iff (cut : Cut c b 0 ps) {n : ℕ} (pos : 0 < n) :
    (∀ p ∈ ps, p.1 < n) ↔ lastOffset c b.length < n := by
  by_cases some : 0 < b.length
  · constructor
    · intro all
      obtain ⟨p, mem, last⟩ := cut.exists_mem (Nat.zero_le _) (lastOffset_lt some)
        (by rw [Nat.sub_zero]; exact dvd_mul_left c _)
      rw [← last]
      exact all p mem
    · intro last p h
      obtain ⟨-, before, ⟨k, steps⟩, -⟩ := cut.mem h
      rw [Nat.sub_zero] at steps
      refine lt_of_le_of_lt ?_ last
      by_cases zero : c = 0
      · rw [steps, zero, Nat.zero_mul]
        exact Nat.zero_le _
      · rw [lastOffset, steps, Nat.mul_comm]
        refine Nat.mul_le_mul_right c ((Nat.le_div_iff_mul_le (Nat.pos_of_ne_zero zero)).mpr ?_)
        rw [Nat.mul_comm, ← steps]
        omega
  · obtain rfl := cut.eq_nil (by omega)
    have none : lastOffset c b.length = 0 := by
      rw [lastOffset, Nat.eq_zero_of_not_pos some, Nat.zero_sub, Nat.zero_div, Nat.zero_mul]
    exact ⟨fun _ => none ▸ pos, fun _ _ h => absurd h List.not_mem_nil⟩

/-- A divisor of the offsets. -/
lemma dvd_iff (cut : Cut c b 0 ps) (n : ℕ) :
    (∀ p ∈ ps, n ∣ p.1) ↔ n ∣ c ∨ b.length ≤ c := by
  constructor
  · intro all
    by_cases one : b.length ≤ c
    · exact .inr one
    · obtain ⟨p, mem, second⟩ := cut.exists_mem (Nat.zero_le c) (by omega)
        (by rw [Nat.sub_zero])
      exact .inl (second ▸ all p mem)
  · intro divides p h
    obtain ⟨-, before, multiple, -⟩ := cut.mem h
    rw [Nat.sub_zero] at multiple
    obtain step | one := divides
    · exact dvd_trans step multiple
    · rw [Nat.eq_zero_of_dvd_of_lt multiple (by omega)]
      exact dvd_zero n

/-- A bound of the lengths. -/
lemma length_lt_iff (cut : Cut c b 0 ps) {n : ℕ} (pos : 0 < n) :
    (∀ p ∈ ps, p.2.length < n) ↔ min c b.length < n := by
  by_cases some : 0 < b.length
  · constructor
    · intro all
      obtain ⟨p, mem, first⟩ := cut.exists_mem le_rfl some (dvd_zero c)
      have short := all p mem
      rw [cut.length_of_mem mem, first, Nat.sub_zero] at short
      exact short
    · intro short p h
      rw [cut.length_of_mem h]
      omega
  · obtain rfl := cut.eq_nil (by omega)
    exact ⟨fun _ => by omega, fun _ _ h => absurd h List.not_mem_nil⟩

end Cut

end Bytes
