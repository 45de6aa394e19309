import Mathlib.Data.List.Induction
import Mathlib.Logic.Function.Basic

set_option relaxedAutoImplicit false
set_option autoImplicit false

/-!
# A ledger that is written when something changed

A recorder that looks at keyed items again and again and writes an item down when it is new, when it
differs from what was last written of it, or when that is too old. What was written may be lost on
the way to whoever reads it, and the recorder may forget everything.

## Main definitions

* `Ledger.Rule` — when an item is due, and `Ledger.writeAll`, one look at all items.
* `Ledger.read` — what a reader knows of each key from the items written.
* `Ledger.keepLast` — the end of a list, which is what a bounded log keeps.
* `Ledger.Known` — the reader knows what the recorder knows to be written, but for what was lost.

## Main results

* `Ledger.fst_writeAll` — the recorder knows what a reader of its items knows.
* `Ledger.writeAll_last` — **after a look, what was last written of an item is near it**: it does not
  differ from it, and it is not too old.
* `Ledger.Known.kept`, `Ledger.Known.dropped` — **a look keeps the reader up to date**, but for
  what was written in a look whose items were lost.
-/

namespace Ledger

variable {κ ι ν : Type} [DecidableEq κ]

/-- What was last written of each key, and when. -/
abbrev Book (κ ν : Type) := κ → Option (ν × ℕ)

/-- When an item is due. -/
structure Rule (ν : Type) where
  /-- The second value differs from the first, which was written. -/
  differs : ν → ν → Bool
  /-- The age at which a value is written again. -/
  heartbeat : ℕ

/-- The value is due, given what was last written. -/
def Rule.due (r : Rule ν) (now : ℕ) (last : Option (ν × ℕ)) (v : ν) : Bool :=
  match last with
  | none => true
  | some (u, at') => r.differs u v || r.heartbeat ≤ now - at'

/-- What was written at a time is near a value. -/
structure Rule.Near (r : Rule ν) (now : ℕ) (w : ν × ℕ) (v : ν) : Prop where
  alike : w.1 = v ∨ r.differs w.1 v = false
  fresh : w.2 = now ∨ now - w.2 < r.heartbeat

lemma Rule.near_self (r : Rule ν) (now : ℕ) (v : ν) : r.Near now (v, now) v :=
  ⟨Or.inl rfl, Or.inl rfl⟩

lemma Rule.near_of_not_due {r : Rule ν} {now : ℕ} {w : ν × ℕ} {v : ν}
    (h : r.due now (some w) v = false) : r.Near now w v := by
  have both : r.differs w.1 v = false ∧ ¬ r.heartbeat ≤ now - w.2 := by
    simpa [Rule.due] using h
  exact ⟨Or.inr both.1, Or.inr (Nat.lt_of_not_le both.2)⟩

section Write

variable (key : ι → κ) (val : ι → ν) (r : Rule ν) (now : ℕ)

/-- One item of a look: written when it is due. -/
def write (s : Book κ ν × List ι) (x : ι) : Book κ ν × List ι :=
  if r.due now (s.1 (key x)) (val x) then
    (Function.update s.1 (key x) (some (val x, now)), s.2 ++ [x])
  else s

/-- **One look at all items**: what is known to be written afterwards, and the items written. -/
def writeAll (b : Book κ ν) (items : List ι) : Book κ ν × List ι :=
  items.foldl (write key val r now) (b, [])

/-- What a reader knows when it has read the items written at a time. -/
def read (b : Book κ ν) (items : List ι) : Book κ ν :=
  items.foldl (fun b x => Function.update b (key x) (some (val x, now))) b

variable {key val r now}

lemma read_concat (b : Book κ ν) (items : List ι) (x : ι) :
    read key val now b (items ++ [x]) =
      Function.update (read key val now b items) (key x) (some (val x, now)) := by
  simp [read]

lemma writeAll_concat (b : Book κ ν) (items : List ι) (x : ι) :
    writeAll key val r now b (items ++ [x]) =
      write key val r now (writeAll key val r now b items) x := by
  simp [writeAll]

/-- The recorder knows what a reader of its items knows. -/
theorem fst_writeAll (b : Book κ ν) (items : List ι) :
    (writeAll key val r now b items).1 =
      read key val now b (writeAll key val r now b items).2 := by
  induction items using List.reverseRecOn with
  | nil => rfl
  | append_singleton items x ih =>
    rw [writeAll_concat, write]
    split_ifs with due
    · rw [read_concat, ih]
    · exact ih

variable (key val now) in
/-- What a reader knows of a key is an item written now, or what it knew before. -/
lemma read_cases (items : List ι) (k : κ) :
    (∃ x ∈ items, key x = k ∧ ∀ b, read key val now b items k = some (val x, now)) ∨
      ((∀ x ∈ items, key x ≠ k) ∧ ∀ b, read key val now b items k = b k) := by
  induction items using List.reverseRecOn with
  | nil => exact Or.inr ⟨by simp, fun b => rfl⟩
  | append_singleton items x ih =>
    by_cases same : key x = k
    · subst same
      refine Or.inl ⟨x, by simp, rfl, ?_⟩
      intro b
      rw [read_concat]
      exact Function.update_self ..
    · rcases ih with ⟨y, mem, rfl, found⟩ | ⟨none, found⟩
      · refine Or.inl ⟨y, by simp [mem], rfl, ?_⟩
        intro b
        rw [read_concat, Function.update_of_ne (Ne.symm same)]
        exact found b
      · refine Or.inr ⟨?_, ?_⟩
        · intro y mem
          rcases List.mem_append.mp mem with mem | mem
          · exact none y mem
          · rw [List.mem_singleton.mp mem]
            exact same
        · intro b
          rw [read_concat, Function.update_of_ne (Ne.symm same)]
          exact found b

variable (key val r now) in
/-- **What was last written of an item is near it** after a look, if no later item has its key. -/
theorem writeAll_last (b : Book κ ν) (items rest : List ι) (x : ι)
    (last : ∀ y ∈ rest, key y ≠ key x) :
    ∃ w, (writeAll key val r now b (items ++ x :: rest)).1 (key x) = some w ∧
      r.Near now w (val x) := by
  induction rest using List.reverseRecOn with
  | nil =>
    rw [writeAll_concat, write]
    split_ifs with due
    · exact ⟨(val x, now), Function.update_self .., r.near_self now (val x)⟩
    · cases known : (writeAll key val r now b items).1 (key x) with
      | none => simp [known, Rule.due] at due
      | some w =>
        refine ⟨w, rfl, Rule.near_of_not_due ?_⟩
        simpa [known] using due
  | append_singleton rest y ih =>
    obtain ⟨w, known, near⟩ := ih fun z mem => last z (by simp [mem])
    have other : key x ≠ key y := Ne.symm (last y (by simp))
    rw [← List.cons_append, ← List.append_assoc, writeAll_concat, write]
    split_ifs with due
    · exact ⟨w, (Function.update_of_ne other ..).trans known, near⟩
    · exact ⟨w, known, near⟩

variable (key val r now) in
/-- When the keys are different this is so of every item. -/
lemma writeAll_of_mem (b : Book κ ν) {items : List ι} (distinct : (items.map key).Nodup) {x : ι}
    (mem : x ∈ items) :
    ∃ w, (writeAll key val r now b items).1 (key x) = some w ∧ r.Near now w (val x) := by
  obtain ⟨before, rest, rfl⟩ := List.append_of_mem mem
  apply writeAll_last
  intro y memy same
  simp only [List.map_append, List.map_cons, List.nodup_append, List.nodup_cons] at distinct
  exact distinct.2.1.1 (same ▸ List.mem_map_of_mem memy)

end Write

/-! ## A recorder with a reader behind it -/

/-- The reader knows what the recorder knows to be written, unless something that was written at
that time was lost. -/
def Known (book seen : Book κ ν) (lost : List ℕ) : Prop :=
  ∀ k w, book k = some w → seen k = some w ∨ w.2 ∈ lost

omit [DecidableEq κ] in
/-- A recorder that forgot everything knows nothing more than its reader. -/
lemma known_nothing (seen : Book κ ν) (lost : List ℕ) : Known (fun _ => none) seen lost := by
  intro k w known
  cases known

omit [DecidableEq κ] in
lemma Known.mono {book seen : Book κ ν} {lost lost' : List ℕ} (h : Known book seen lost)
    (more : lost ⊆ lost') : Known book seen lost' := by
  intro k w known
  exact (h k w known).imp_right fun mem => more mem

/-- Only what is present stays known. -/
def retain (present : κ → Bool) (b : Book κ ν) : Book κ ν :=
  fun k => if present k then b k else none

omit [DecidableEq κ] in
lemma Known.retain {book seen : Book κ ν} {lost : List ℕ} (h : Known book seen lost)
    (present : κ → Bool) : Known (retain present book) seen lost := by
  intro k w known
  unfold Ledger.retain at known
  split_ifs at known with here
  exact h k w known

section Known

variable {key : ι → κ} {val : ι → ν} {r : Rule ν} {now : ℕ} {book seen : Book κ ν} {lost : List ℕ}

/-- **A look whose items reach the reader** keeps the reader up to date. -/
theorem Known.kept (h : Known book seen lost) (items : List ι) :
    Known (writeAll key val r now book items).1
      (read key val now seen (writeAll key val r now book items).2) lost := by
  intro k w known
  rw [fst_writeAll] at known
  rcases read_cases key val now (writeAll key val r now book items).2 k with
    ⟨x, mem, same, new⟩ | ⟨none, old⟩
  · rw [new] at known ⊢
    exact Or.inl known
  · rw [old] at known ⊢
    exact h k w known

/-- **A look whose items are lost** leaves what was not written in it. -/
theorem Known.dropped (h : Known book seen lost) (items : List ι) :
    Known (writeAll key val r now book items).1 seen (now :: lost) := by
  intro k w known
  rw [fst_writeAll] at known
  rcases read_cases key val now (writeAll key val r now book items).2 k with
    ⟨x, mem, same, new⟩ | ⟨none, old⟩
  · rw [new] at known
    right
    rw [← Option.some.inj known]
    exact List.mem_cons_self ..
  · rw [old] at known
    exact (h k w known).imp_right (List.mem_cons_of_mem _)

/-- A look that writes nothing. -/
lemma Known.same (h : Known book seen lost) {items : List ι}
    (nothing : (writeAll key val r now book items).2 = []) :
    Known (writeAll key val r now book items).1 seen lost := by
  intro k w known
  rw [fst_writeAll, nothing] at known
  exact h k w known

end Known

/-! ## A bounded log -/

/-- The end of a list, at most so long. -/
def keepLast {β : Type} (len : ℕ) (l : List β) : List β := l.drop (l.length - len)

lemma keepLast_concat {β : Type} (len : ℕ) (l : List β) (x : β) :
    (keepLast len l ++ [x]).drop ((keepLast len l ++ [x]).length - len) =
      keepLast len (l ++ [x]) := by
  unfold keepLast
  rw [← List.drop_append_of_le_length (by omega), List.drop_drop]
  congr 1
  simp only [List.length_drop, List.length_append, List.length_singleton]
  omega

lemma getLast?_keepLast {β : Type} {len : ℕ} (pos : 0 < len) (l : List β) :
    (keepLast len l).getLast? = l.getLast? := by
  unfold keepLast
  rcases List.eq_nil_or_concat l with rfl | ⟨ys, y, rfl⟩
  · simp
  · rw [List.concat_eq_append, List.drop_append_of_le_length (by simp; omega),
      List.getLast?_concat, List.getLast?_concat]

end Ledger
