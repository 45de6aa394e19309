import StormDrive.Bytes.Bounds

set_option relaxedAutoImplicit false
set_option autoImplicit false

/-!
# Scans

A program that reads parts of a device that it was told by what it read before, so that it computes
where to read. It stops where an arithmetic operation overflows and where it looks outside what it
read.

## Main definitions

* `Bytes.Scan` — what a program comes to, and the reads that it made; a monad.
* `Bytes.Scan.Ends` — it comes to a value, with reads for which a condition holds.
* `Bytes.Scan.forEach` — the loop over a list.
* `Bytes.bytesRead` — how much is read.

## Main results

* `Bytes.Scan.ends_bind_iff` — **the condition of a sequence**, and one such rule for each step.
* `Bytes.Scan.ends_forEach` — **a loop ends when each step does**, having read what the steps read.
-/

namespace Bytes

/-- How much is read. -/
def bytesRead (reads : List (ℕ × ℕ)) : ℕ := (reads.map (·.2)).sum

@[simp] lemma bytesRead_nil : bytesRead [] = 0 := rfl

@[simp] lemma bytesRead_cons (r : ℕ × ℕ) (reads : List (ℕ × ℕ)) :
    bytesRead (r :: reads) = r.2 + bytesRead reads := by
  rw [bytesRead, List.map_cons, List.sum_cons, bytesRead]

@[simp] lemma bytesRead_append (reads more : List (ℕ × ℕ)) :
    bytesRead (reads ++ more) = bytesRead reads + bytesRead more := by
  rw [bytesRead, List.map_append, List.sum_append, bytesRead, bytesRead]

/-- What a program comes to, and the reads that it made: the offset and the length of each. -/
def Scan (α : Type) : Type := Checked OutOfBounds (α × List (ℕ × ℕ))

namespace Scan

variable {α β : Type}

/-- One program after another. -/
def bind (w : Scan α) (f : α → Scan β) : Scan β :=
  match w with
  | .error e => .error e
  | .ok (a, reads) =>
    match f a with
    | .error e => .error e
    | .ok (b, more) => .ok (b, reads ++ more)

instance : Monad Scan where
  pure a := .ok (a, [])
  bind := bind

/-- A computation that reads nothing from the device. -/
def lift (c : Checked OutOfBounds α) : Scan α :=
  match c with
  | .ok a => .ok (a, [])
  | .error e => .error e

/-- A read of the device, with what it gives. -/
def reading (a : α) (off len : ℕ) : Scan α := .ok (a, [(off, len)])

/-- Each of a list in order, without those that give nothing. -/
def forEach (body : α → Scan (Option β)) : List α → Scan (List β)
  | [] => pure []
  | a :: l => do
    let b ← body a
    let bs ← forEach body l
    return b.toList ++ bs

/-! ## What a program comes to -/

/-- The program comes to a value with reads for which this holds. -/
def Ends (w : Scan α) (P : α → List (ℕ × ℕ) → Prop) : Prop :=
  ∃ a reads, w = .ok (a, reads) ∧ P a reads

variable {P Q : β → List (ℕ × ℕ) → Prop}

lemma Ends.imp {w : Scan β} (h : Ends w P) (h' : ∀ b reads, P b reads → Q b reads) : Ends w Q := by
  obtain ⟨b, reads, ends, holds⟩ := h
  exact ⟨b, reads, ends, h' b reads holds⟩

lemma ends_ok_iff (b : β) (reads : List (ℕ × ℕ)) : Ends (.ok (b, reads)) P ↔ P b reads := by
  constructor
  · rintro ⟨b', reads', ends, holds⟩
    obtain ⟨rfl, rfl⟩ := Prod.mk.inj (Except.ok.inj ends)
    exact holds
  · exact fun holds => ⟨b, reads, rfl, holds⟩

lemma ends_pure_iff (b : β) : Ends (pure b) P ↔ P b [] := ends_ok_iff b []

lemma ends_reading_iff (b : β) (off len : ℕ) : Ends (reading b off len) P ↔ P b [(off, len)] :=
  ends_ok_iff b _

lemma ends_lift_ok_iff (b : β) : Ends (lift (.ok b)) P ↔ P b [] := ends_ok_iff b []

/-- A product ends when it does not overflow. -/
lemma ends_mul_iff {P : ℕ → List (ℕ × ℕ) → Prop} (a b : ℕ) :
    Ends (lift (Checked.mul a b)) P ↔ a * b < 2 ^ 64 ∧ P (a * b) [] := by
  by_cases fits : a * b < 2 ^ 64
  · rw [Checked.mul_eq fits, ends_lift_ok_iff]
    exact ⟨fun h => ⟨fits, h⟩, fun h => h.2⟩
  · rw [Checked.mul, if_neg fits]
    constructor
    · rintro ⟨b', reads, ends, -⟩
      exact absurd ends nofun
    · exact fun h => absurd h.1 fits

/-- **The condition of a sequence** is what its second part must end with after the first. -/
lemma ends_bind_iff (w : Scan α) (f : α → Scan β) :
    Ends (w >>= f) P ↔ Ends w fun a reads => Ends (f a) fun b more => P b (reads ++ more) := by
  match w with
  | .error e =>
    constructor
    · rintro ⟨b, reads, ends, -⟩
      exact absurd ends nofun
    · rintro ⟨a, reads, ends, -⟩
      exact absurd ends nofun
  | .ok (a, reads) =>
    rw [ends_ok_iff]
    show Ends (bind (.ok (a, reads)) f) P ↔ _
    rw [bind]
    match f a with
    | .error e =>
      constructor
      · rintro ⟨b, reads, ends, -⟩
        exact absurd ends nofun
      · rintro ⟨b, reads, ends, -⟩
        exact absurd ends nofun
    | .ok (b, more) => rw [ends_ok_iff, ends_ok_iff]

/-- **A loop ends when each step does**: it gives what the steps give, and reads no more than so
much for each. -/
lemma ends_forEach {body : α → Scan (Option β)} {g : α → Option β} {n : ℕ} {l : List α}
    (step : ∀ a ∈ l, Ends (body a) fun b reads => b = g a ∧ bytesRead reads ≤ n) :
    Ends (forEach body l) fun bs reads => bs = l.filterMap g ∧ bytesRead reads ≤ l.length * n := by
  induction l with
  | nil => exact (ends_pure_iff _).mpr ⟨rfl, Nat.zero_le _⟩
  | cons a l ih =>
    rw [forEach, ends_bind_iff]
    refine (step a (List.mem_cons_self ..)).imp fun b reads h => ?_
    rw [ends_bind_iff]
    refine (ih fun a h => step a (List.mem_cons_of_mem _ h)).imp fun bs more h' => ?_
    obtain ⟨rfl, few⟩ := h
    obtain ⟨rfl, few'⟩ := h'
    rw [ends_pure_iff, List.append_nil, bytesRead_append, List.length_cons, Nat.succ_mul]
    constructor
    · cases given : g a with
      | none => rw [List.filterMap_cons_none given]; rfl
      | some b => rw [List.filterMap_cons_some given]; rfl
    · omega

/-- A step of a loop that ends has ended. -/
lemma Ends.of_forEach {body : α → Scan (Option β)} {l : List α}
    {R : List β → List (ℕ × ℕ) → Prop} (h : Ends (forEach body l) R) :
    ∀ a ∈ l, Ends (body a) fun _ _ => True := by
  induction l generalizing R with
  | nil => exact fun _ h => absurd h List.not_mem_nil
  | cons a l ih =>
    rw [forEach, ends_bind_iff] at h
    refine List.forall_mem_cons.mpr ⟨h.imp fun _ _ _ => trivial, ?_⟩
    obtain ⟨b, reads, -, rest⟩ := h
    rw [ends_bind_iff] at rest
    exact ih rest

end Scan

end Bytes
