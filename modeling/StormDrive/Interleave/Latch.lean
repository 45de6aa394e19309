import Mathlib.Order.Basic

set_option relaxedAutoImplicit false
set_option autoImplicit false

/-!
# Latched bands

A reading is put into the highest of some bands that it reaches. A band is entered at one bound and
left only below another, so that a reading on the line does not flap.

## Main definitions

* `Latch.Band`, `Latch.Band.Held` — a band, and when it holds a reading.
* `Latch.settle` — the level of a reading, given the one before.
* `Latch.run` — the level after a run of readings.
* `Latch.Descending` — the bands go from the highest to the lowest.

## Main results

* `Latch.settle_mono`, `Latch.settle_mono_prev` — **a higher reading, and a higher level before,
  give no lower level**.
* `Latch.settle_settle` — the same reading again changes nothing.
* `Latch.le_run` — a band is not left downwards while the readings stay above where it is left.
-/

namespace Latch

variable {L α : Type*}

/-- A band with its level, where it is entered and where it is left. -/
structure Band (L α : Type*) where
  level : L
  enter : α
  leave : α

section Order

variable [LE L] [LE α] [LT α]

/-- A band holds a reading: it enters the band, or was in it or above and does not leave it. -/
def Band.Held (b : Band L α) (prev : L) (t : α) : Prop :=
  b.enter ≤ t ∨ (b.level ≤ prev ∧ b.leave < t)

instance [DecidableLE L] [DecidableLE α] [DecidableLT α] (b : Band L α) (prev : L) (t : α) :
    Decidable (b.Held prev t) :=
  inferInstanceAs (Decidable (_ ∨ _))

/-- **The level of a reading**: that of the first band that holds it, or the lowest. -/
def settle [DecidableLE L] [DecidableLE α] [DecidableLT α] (lowest : L) :
    List (Band L α) → L → α → L
  | [], _, _ => lowest
  | b :: bs, prev, t => if b.Held prev t then b.level else settle lowest bs prev t

/-- The level after a run of readings. -/
def run [DecidableLE L] [DecidableLE α] [DecidableLT α] (lowest : L) (bands : List (Band L α))
    (prev : L) (ts : List α) : L :=
  ts.foldl (settle lowest bands) prev

end Order

section Laws

variable [PartialOrder L] [Preorder α] [DecidableLE L] [DecidableLE α] [DecidableLT α]
variable {lowest prev prev' : L} {b : Band L α} {bands : List (Band L α)} {t t' : α}

/-- The bands go from the highest to the lowest, all above the lowest level. -/
def Descending (lowest : L) (bands : List (Band L α)) : Prop :=
  (∀ b ∈ bands, lowest < b.level) ∧ bands.Pairwise fun b c => c.level < b.level

omit [DecidableLE L] [DecidableLE α] [DecidableLT α] [Preorder α] in
lemma Descending.tail (h : Descending lowest (b :: bands)) : Descending lowest bands :=
  ⟨fun c hc => h.1 c (List.mem_cons_of_mem b hc), (List.pairwise_cons.mp h.2).2⟩

omit [DecidableLE L] [DecidableLE α] [DecidableLT α] in
lemma Band.Held.mono (h : b.Held prev t) (ht : t ≤ t') : b.Held prev t' :=
  h.imp (fun enter => enter.trans ht) fun ⟨was, stay⟩ => ⟨was, stay.trans_le ht⟩

omit [DecidableLE L] [DecidableLE α] [DecidableLT α] in
lemma Band.Held.mono_prev (h : b.Held prev t) (hp : prev ≤ prev') : b.Held prev' t :=
  h.imp_right fun ⟨was, stay⟩ => ⟨was.trans hp, stay⟩

/-- What is above the lowest level and every band is above every level. -/
lemma settle_lt {u : L} (low : lowest < u) (above : ∀ c ∈ bands, c.level < u) :
    settle lowest bands prev t < u := by
  induction bands with
  | nil => exact low
  | cons c cs ih =>
    rw [settle]
    split
    · exact above c List.mem_cons_self
    · exact ih fun d hd => above d (List.mem_cons_of_mem c hd)

/-- The first band is above what the others give. -/
lemma settle_lt_first (h : Descending lowest (b :: bands)) :
    settle lowest bands prev t < b.level :=
  settle_lt (h.1 b List.mem_cons_self) (List.pairwise_cons.mp h.2).1

/-- **A band that holds a reading is reached.** -/
theorem le_settle_of_held (h : Descending lowest bands) (hb : b ∈ bands) (held : b.Held prev t) :
    b.level ≤ settle lowest bands prev t := by
  induction bands with
  | nil => exact absurd hb List.not_mem_nil
  | cons c cs ih =>
    rw [settle]
    obtain rfl | hb := List.mem_cons.mp hb
    · rw [if_pos held]
    · split
      · exact ((List.pairwise_cons.mp h.2).1 b hb).le
      · exact ih h.tail hb

/-- Where every band that holds one reading holds the other, the other is no lower. -/
lemma settle_le_settle (h : Descending lowest bands)
    (held : ∀ b ∈ bands, b.Held prev t → b.Held prev' t') :
    settle lowest bands prev t ≤ settle lowest bands prev' t' := by
  induction bands with
  | nil => exact le_refl lowest
  | cons c cs ih =>
    have rest := ih h.tail fun d hd => held d (List.mem_cons_of_mem c hd)
    rw [settle, settle]
    by_cases first : c.Held prev t
    · rw [if_pos first, if_pos (held c List.mem_cons_self first)]
    · rw [if_neg first]
      split
      · exact (settle_lt_first h).le
      · exact rest

/-- **A higher reading gives no lower level.** -/
theorem settle_mono (h : Descending lowest bands) (ht : t ≤ t') :
    settle lowest bands prev t ≤ settle lowest bands prev t' :=
  settle_le_settle h fun _ _ held => held.mono ht

/-- **A higher level before gives no lower level.** -/
theorem settle_mono_prev (h : Descending lowest bands) (hp : prev ≤ prev') :
    settle lowest bands prev t ≤ settle lowest bands prev' t :=
  settle_le_settle h fun _ _ held => held.mono_prev hp

/-- **The same reading again changes nothing.** A band that holds it is held by its own level, and
one that does not is above the level. -/
theorem settle_settle (h : Descending lowest bands) :
    settle lowest bands (settle lowest bands prev t) t = settle lowest bands prev t := by
  -- `p` is the level that the bands from here on gave
  suffices again : ∀ p, settle lowest bands prev t = p → settle lowest bands p t = p from
    again _ rfl
  intro p hp
  induction bands with
  | nil => exact hp
  | cons c cs ih =>
    rw [settle] at hp ⊢
    by_cases first : c.Held prev t
    · rw [if_pos first] at hp
      have still : c.Held p t := first.imp_right fun ⟨_, stay⟩ => ⟨hp.le, stay⟩
      rw [if_pos still, hp]
    · rw [if_neg first] at hp
      have below : p < c.level := hp ▸ settle_lt_first h
      have passed : ¬ c.Held p t := by
        rintro (enter | ⟨was, -⟩)
        · exact first (Or.inl enter)
        · exact below.not_ge was
      rw [if_neg passed]
      exact ih h.tail hp

/-- **A band is not left downwards** while the readings stay above where it is left. -/
theorem le_run (h : Descending lowest bands) (hb : b ∈ bands) (hp : b.level ≤ prev) {ts : List α}
    (above : ∀ t ∈ ts, b.leave < t) : b.level ≤ run lowest bands prev ts := by
  induction ts generalizing prev with
  | nil => exact hp
  | cons t ts ih =>
    have stays : b.level ≤ settle lowest bands prev t :=
      le_settle_of_held h hb (Or.inr ⟨hp, above t List.mem_cons_self⟩)
    exact ih stays fun u hu => above u (List.mem_cons_of_mem t hu)

end Laws

end Latch
