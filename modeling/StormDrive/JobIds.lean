import StormDrive.Daemon.Ops
import StormDrive.Interleave.Runs
import StormDrive.OrderedMap
import StormDrive.Text.Hexadecimal

set_option relaxedAutoImplicit false
set_option autoImplicit false

/-!
# The ids of jobs

A job's id is a clock reading and a counter in hexadecimal digits, and the map of the jobs is in the
order of these texts: the last job of an operation is the newest, and the first finished job is
dropped as the oldest. The counter starts again with the process and the clock may step back, so
what the order is worth is a matter of what the clock reads.

## Main definitions

* `JobIds.Stamp` — a clock reading and the counter, with `JobIds.Stamp.Before` on their numbers.
* `JobIds.Desk`, `JobIds.Desk.step` — the jobs with the calls under way and the file, through
  submissions, saves and restarts.
* `JobIds.ById`, `JobIds.StepById` — **an id names one job, and newer jobs have later ids**.
* `JobIds.InTime` — the clock reads a time after that of every job that is there.

## Main results

* `JobIds.Stamp.id_lt_iff` — the order of ids, as that of clock readings and counters.
* `JobIds.Stamp.before_of_sameWidth` — readings of one width in seconds one behind the other, and
  counters of one width in one second, are in order.
* `JobIds.byId_of_inTime` — in every run in which each id is taken in time, an id names one job
  and the newest and the oldest are found.

## Implementation notes

A submission counts from the moment in which it takes its id. The number that it has among all is
kept with its ticket, which no function reads. A job may change in any way but for its id.
-/

namespace StormDrive

namespace JobIds

/-! ## Stamps -/

/-- What an id is made of. -/
structure Stamp where
  /-- The clock, in seconds. -/
  secs : ℕ
  /-- The counter of the process. -/
  count : ℕ
  deriving DecidableEq

namespace Stamp

/-- `new_id`: what is written of a stamp. -/
def id (t : Stamp) : JobId := jobId t.secs t.count

/-- How many digits the counter has: two at least. -/
def countWidth (t : Stamp) : ℕ := max 2 (Nat.toDigits 16 t.count).length

/-- How many digits there are. -/
def width (t : Stamp) : ℕ := (Nat.toDigits 16 t.secs).length + t.countWidth

/-- The number that the digits write. -/
def value (t : Stamp) : ℕ := t.secs * 16 ^ t.countWidth + t.count

/-- A stamp before another: its digits behind a point are the smaller fraction, or the same one in
fewer digits. -/
def Before (t u : Stamp) : Prop :=
  t.value * 16 ^ u.width < u.value * 16 ^ t.width ∨
    (t.value * 16 ^ u.width = u.value * 16 ^ t.width ∧ t.width < u.width)

/-- Two stamps with the same digits. -/
def Same (t u : Stamp) : Prop := t.value = u.value ∧ t.width = u.width

/-- The digits of a stamp. -/
def digits (t : Stamp) : List Char :=
  Nat.toDigits 16 t.secs ++
    if t.count < 16 then '0' :: Nat.toDigits 16 t.count else Nat.toDigits 16 t.count

lemma toList_id (t : Stamp) : t.id.toList = 'j' :: t.digits := by
  rw [id, jobId, digits]
  split_ifs <;> simp [hex]

/-- The counter with two digits or more. -/
lemma value_padded (n : ℕ) :
    (∀ c ∈ (if n < 16 then '0' :: Nat.toDigits 16 n else Nat.toDigits 16 n),
        Hexadecimal.IsDigit c) ∧
      Hexadecimal.value (if n < 16 then '0' :: Nat.toDigits 16 n else Nat.toDigits 16 n) = n ∧
      (if n < 16 then '0' :: Nat.toDigits 16 n else Nat.toDigits 16 n).length =
        max 2 (Nat.toDigits 16 n).length := by
  split_ifs with small
  · refine ⟨?_, ?_, ?_⟩
    · intro c hc
      obtain rfl | hc := List.mem_cons.mp hc
      · exact ⟨0, by decide, rfl⟩
      · exact Hexadecimal.isDigit_of_mem_toDigits c hc
    · rw [Hexadecimal.value, Hexadecimal.value_toDigits]
      simp [Hexadecimal.digitValue]
    · rw [List.length_cons, Nat.toDigits_of_lt_base small]
      rfl
  · refine ⟨Hexadecimal.isDigit_of_mem_toDigits, Hexadecimal.value_toDigits n, ?_⟩
    have two : 2 ≤ (Nat.toDigits 16 n).length := by
      rw [Nat.toDigits_of_base_le (by decide) (by omega), List.length_append, List.length_singleton]
      have := Nat.length_toDigits_pos (b := 16) (n := n / 16)
      omega
    omega

lemma isDigit_of_mem_digits (t : Stamp) : ∀ c ∈ t.digits, Hexadecimal.IsDigit c := by
  intro c hc
  obtain secs | count := List.mem_append.mp hc
  · exact Hexadecimal.isDigit_of_mem_toDigits c secs
  · exact (value_padded t.count).1 c count

@[simp] lemma length_digits (t : Stamp) : t.digits.length = t.width := by
  rw [digits, List.length_append, (value_padded t.count).2.2]
  rfl

@[simp] lemma value_digits (t : Stamp) : Hexadecimal.value t.digits = t.value := by
  obtain ⟨-, number, length⟩ := value_padded t.count
  rw [digits, Hexadecimal.value_append, Hexadecimal.value_toDigits, number, length]
  rfl

/-- **The order of ids** is that of clock readings and counters. -/
theorem id_lt_iff (t u : Stamp) : t.id < u.id ↔ t.Before u := by
  rw [String.lt_iff_toList_lt, toList_id, toList_id, List.cons_lt_cons_iff]
  simp only [lt_irrefl, true_and, false_or]
  rw [Hexadecimal.lt_iff t.isDigit_of_mem_digits u.isDigit_of_mem_digits, length_digits,
    length_digits, value_digits, value_digits]
  rfl

/-- Two stamps have one id exactly when they have the same digits. -/
theorem id_eq_iff (t u : Stamp) : t.id = u.id ↔ t.Same u := by
  have pos : 0 < 16 ^ t.width := Nat.pow_pos (by decide)
  constructor
  · intro same
    have notBefore : ¬ t.Before u := by
      rw [← id_lt_iff, same]
      exact lt_irrefl _
    have notBehind : ¬ u.Before t := by
      rw [← id_lt_iff, same]
      exact lt_irrefl _
    rw [Before] at notBefore notBehind
    have width : t.width = u.width := by omega
    rw [width] at notBefore notBehind pos
    have value : t.value * 16 ^ u.width = u.value * 16 ^ u.width := by omega
    exact ⟨Nat.eq_of_mul_eq_mul_right pos value, width⟩
  · rintro ⟨value, width⟩
    refine le_antisymm ?_ ?_
    · rw [← not_lt, id_lt_iff, Before, value, width]
      omega
    · rw [← not_lt, id_lt_iff, Before, value, width]
      omega

lemma Before.not_same {t u : Stamp} (h : t.Before u) : ¬ t.Same u := fun same =>
  ((id_lt_iff t u).mpr h).ne ((id_eq_iff t u).mpr same)

lemma count_lt (t : Stamp) : t.count < 16 ^ t.countWidth := by
  have digits := Hexadecimal.value_lt (Hexadecimal.isDigit_of_mem_toDigits (n := t.count))
  rw [Hexadecimal.value_toDigits] at digits
  exact digits.trans_le (Nat.pow_le_pow_right (by decide) (le_max_right _ _))

/-- **Stamps of one width.** Readings with as many digits are in order in different seconds,
whatever the counters are, and in one second where the counters have as many digits. -/
theorem before_of_sameWidth {t u : Stamp}
    (width : (Nat.toDigits 16 t.secs).length = (Nat.toDigits 16 u.secs).length)
    (later : t.secs < u.secs ∨
      (t.secs = u.secs ∧ t.countWidth = u.countWidth ∧ t.count < u.count)) : t.Before u := by
  refine Or.inl ?_
  rw [Stamp.width, Stamp.width, width, pow_add, pow_add, ← Nat.mul_assoc, ← Nat.mul_assoc,
    Nat.mul_right_comm, Nat.mul_right_comm u.value]
  refine Nat.mul_lt_mul_of_pos_right ?_ (Nat.pow_pos (by decide))
  obtain less | ⟨same, counters, less⟩ := later
  · exact (Hexadecimal.fraction_lt_of_digit_lt t.count_lt less).2 (Nat.pow_pos (by decide))
  · rw [value, value, same, counters]
    exact Nat.mul_lt_mul_of_pos_right (Nat.add_lt_add_left less _) (Nat.pow_pos (by decide))

end Stamp

/-! ## The desk -/

/-- A submission that has its id. -/
structure Ticket where
  /-- Its number among all submissions. -/
  nr : ℕ
  stamp : Stamp
  deriving DecidableEq

/-- The id of a submission. -/
def Ticket.id (t : Ticket) : JobId := t.stamp.id

/-- A job as it is recorded. -/
structure Filed where
  ticket : Ticket
  job : Job
  /-- The DriveOperation that started it. -/
  operation : Option String

/-- The jobs in the order of their ids. -/
abbrev Book := List (JobId × Filed)

/-- The first finished job is dropped, when there is one. -/
def dropFinished (b : Book) : Book := b.eraseP fun x => x.2.job.finished

/-- What `save` keeps: the first finished jobs beyond the cap are dropped. -/
def prune (b : Book) : Book := dropFinished^[b.length - Jobs.keepJobs] b

/-- The job that an operation started: the last of them. -/
def byOperation (b : Book) (op : String) : Option Filed :=
  (b.reverse.find? fun x => x.2.operation = some op).map Prod.snd

/-- The worker, the calls that submit jobs, and the file. -/
structure Desk where
  book : Book := []
  /-- The counter, 64 bits wide. -/
  seq : ℕ := 0
  /-- Calls that have their id and have not recorded their job. -/
  waiting : List Ticket := []
  /-- Calls that have recorded their job and have not answered. -/
  recorded : List Ticket := []
  /-- What is being written, when a save is under way. -/
  writing : Option Book := none
  file : Book := []
  /-- How many submissions there were. -/
  next : ℕ := 0
  /-- The submissions that were answered with their ids. -/
  answered : List Ticket := []

/-- What can happen. -/
inductive Event
  /-- A submission takes its id; the clock reads so many seconds. -/
  | take (secs : ℕ)
  /-- It records its job. -/
  | record (t : Ticket) (j : Job) (op : Option String)
  /-- Jobs change, under the lock. -/
  | change (f : Job → Job)
  /-- A save drops jobs and takes a copy. -/
  | prune
  /-- The copy is written, or it is not. -/
  | write (ok : Bool)
  /-- A submission answers with its id. -/
  | answer (t : Ticket)
  /-- The process ends, and another loads the file, or cannot read it. -/
  | restart (readable : Bool)

namespace Desk

def step (s : Desk) : Event → Desk
  | .take secs =>
    { s with
      seq := (s.seq + 1) % 2 ^ 64, next := s.next + 1
      waiting := s.waiting ++ [⟨s.next, ⟨secs, s.seq⟩⟩] }
  | .record t j op =>
    if t ∈ s.waiting then
      { s with
        book := OrderedMap.insert t.id ⟨t, { j with id := t.id }, op⟩ s.book
        waiting := s.waiting.filter (· ≠ t), recorded := t :: s.recorded }
    else s
  | .change f =>
    { s with
      book := s.book.map fun x => (x.1, { x.2 with job := { f x.2.job with id := x.2.job.id } }) }
  | .prune =>
    if s.writing.isNone then
      { s with book := JobIds.prune s.book, writing := some (JobIds.prune s.book) }
    else s
  | .write ok =>
    match s.writing with
    | some b => { s with writing := none, file := if ok then b else s.file }
    | none => s
  | .answer t =>
    if t ∈ s.recorded then
      { s with recorded := s.recorded.filter (· ≠ t), answered := t :: s.answered }
    else s
  | .restart readable =>
    { s with
      book := if readable then s.file else [], seq := 0, waiting := [], recorded := []
      writing := none }

end Desk

/-! ## The promise -/

/-- What holds in every state. -/
structure ById (s : Desk) : Prop where
  /-- The job that is found for an operation is the newest of those recorded. -/
  newest : ∀ op f, byOperation s.book op = some f ↔
    (∃ id, (id, f) ∈ s.book) ∧ f.operation = some op ∧
      ∀ x ∈ s.book, x.2.operation = some op → x.2 ≠ f → x.2.ticket.nr < f.ticket.nr
  /-- An id that a submission answered with names its job. -/
  named : ∀ t ∈ s.answered, ∀ f, OrderedMap.get s.book t.id = some f → f.ticket = t

/-- What holds of every step. -/
structure StepById (s : Desk) (e : Event) : Prop where
  /-- A new id is no recorded job's. -/
  fresh : ∀ secs, e = .take secs → ∀ x ∈ s.book, x.1 ≠ Stamp.id ⟨secs, s.seq⟩
  /-- Recording a job overwrites none. -/
  kept : ∀ t j op, e = .record t j op → t ∈ s.waiting → ∀ x ∈ s.book, x.1 ≠ t.id
  /-- A save drops finished jobs, and each is older than the finished ones that stay. -/
  oldest : e = .prune → ∀ x ∈ s.book, x ∉ (s.step e).book →
    x.2.job.finished = true ∧
      ∀ y ∈ (s.step e).book, y.2.job.finished = true → x.2.ticket.nr < y.2.ticket.nr

/-! ## In time -/

/-- The submissions of the jobs in a map. -/
def tickets (b : Book) : List Ticket := b.map fun x => x.2.ticket

namespace Desk

/-- Submissions whose job is recorded, or may be again after a restart. -/
def filed (s : Desk) : List Ticket :=
  tickets s.book ++ tickets s.file ++ tickets (s.writing.getD [])

/-- These, and those whose job is about to be. -/
def live (s : Desk) : List Ticket := s.filed ++ s.waiting

/-- Submissions that answered with an id, or will. -/
def called (s : Desk) : List Ticket := s.recorded ++ s.answered

end Desk

/-- An id is taken in time: the clock and the counter come after those of every job that is
recorded, in the file or about to be recorded, and they are none that a submission answers with. -/
def InTime (s : Desk) : Event → Prop
  | .take secs =>
    (∀ t ∈ s.live, t.stamp.Before ⟨secs, s.seq⟩) ∧ ∀ t ∈ s.called, ¬ t.stamp.Same ⟨secs, s.seq⟩
  | _ => True

/-- A steady clock takes ids in time: it reads as many digits as ever, and a second in which no id
was taken before, or one of this process with a smaller counter of the same width. -/
lemma inTime_of_steady {s : Desk} {secs : ℕ}
    (h : ∀ t ∈ s.live ++ s.called,
      (Nat.toDigits 16 t.stamp.secs).length = (Nat.toDigits 16 secs).length ∧
        (t.stamp.secs < secs ∨ (t.stamp.secs = secs ∧
          t.stamp.countWidth = Stamp.countWidth ⟨secs, s.seq⟩ ∧ t.stamp.count < s.seq))) :
    InTime s (.take secs) := by
  have before : ∀ t ∈ s.live ++ s.called, t.stamp.Before ⟨secs, s.seq⟩ := fun t ht =>
    Stamp.before_of_sameWidth (h t ht).1 (h t ht).2
  exact ⟨fun t ht => before t (List.mem_append_left _ ht),
    fun t ht => (before t (List.mem_append_right _ ht)).not_same⟩

/-! ## What runs keep -/

/-- Submissions in order: newer ones have later ids, and an id or a number is one submission's. -/
structure Ordered (live all : List Ticket) (next : ℕ) : Prop where
  later : ∀ t ∈ live, ∀ u ∈ live, t.nr < u.nr → t.id < u.id
  ids : ∀ t ∈ all, ∀ u ∈ all, t.id = u.id → t = u
  numbers : ∀ t ∈ all, ∀ u ∈ all, t.nr = u.nr → t = u
  below : ∀ t ∈ all, t.nr < next

lemma Ordered.mono {live live' all all' : List Ticket} {next : ℕ} (h : Ordered live all next)
    (hlive : live' ⊆ live) (hall : all' ⊆ all) : Ordered live' all' next where
  later t ht u hu := h.later t (hlive ht) u (hlive hu)
  ids t ht u hu := h.ids t (hall ht) u (hall hu)
  numbers t ht u hu := h.numbers t (hall ht) u (hall hu)
  below t ht := h.below t (hall ht)

/-- Each job is under the id of its submission, in the order of ids. -/
def WellFiled (b : Book) : Prop :=
  OrderedMap.Increasing b ∧ ∀ x ∈ b, x.1 = x.2.ticket.id

lemma wellFiled_nil : WellFiled [] := ⟨List.Pairwise.nil, fun _ h => absurd h List.not_mem_nil⟩

lemma WellFiled.sublist {b b' : Book} (h : WellFiled b) (sub : b'.Sublist b) : WellFiled b' :=
  ⟨h.1.sublist sub, fun x hx => h.2 x (sub.subset hx)⟩

/-- What every run keeps whose ids are taken in time. -/
structure Inv (s : Desk) : Prop where
  book : WellFiled s.book
  file : WellFiled s.file
  writing : WellFiled (s.writing.getD [])
  ordered : Ordered s.live (s.live ++ s.called) s.next
  /-- A submission that waits has no job yet, and no answer. -/
  apart : ∀ t ∈ s.waiting, t ∉ s.filed ++ s.called

/-! ### Dropping -/

lemma iterate_dropFinished_sublist (b : Book) (k : ℕ) : (dropFinished^[k] b).Sublist b := by
  induction k with
  | zero => exact List.Sublist.refl b
  | succ k ih =>
    rw [Function.iterate_succ_apply']
    exact List.eraseP_sublist.trans ih

lemma prune_sublist (b : Book) : (prune b).Sublist b := iterate_dropFinished_sublist b _

/-- The job that is dropped is finished, and before every finished job that stays. -/
lemma dropFinished_before {b : Book} (h : OrderedMap.Increasing b) {x : JobId × Filed} (hx : x ∈ b)
    (gone : x ∉ dropFinished b) : x.2.job.finished = true ∧
      ∀ y ∈ dropFinished b, y.2.job.finished = true → x.1 < y.1 := by
  have finished : x.2.job.finished = true := by
    by_contra open_
    exact gone ((List.mem_eraseP_of_neg (p := fun x : JobId × Filed => x.2.job.finished)
      open_).mpr hx)
  obtain ⟨a, before, behind, open_, -, rfl, dropped⟩ :=
    List.exists_of_eraseP (p := fun x : JobId × Filed => x.2.job.finished) hx finished
  rw [dropFinished, dropped] at gone ⊢
  obtain rfl : x = a := by
    obtain mem | mem := List.mem_append.mp hx
    · exact absurd (List.mem_append_left behind mem) gone
    · obtain same | mem := List.mem_cons.mp mem
      · exact same
      · exact absurd (List.mem_append_right before mem) gone
  refine ⟨finished, fun y hy done => ?_⟩
  obtain mem | mem := List.mem_append.mp hy
  · exact absurd done (open_ y mem)
  · exact (List.pairwise_cons.mp (List.pairwise_append.mp h).2.1).1 y mem

/-- What is dropped is finished, and before every finished job that stays. -/
lemma prune_before {b : Book} (h : OrderedMap.Increasing b) {x : JobId × Filed} (hx : x ∈ b)
    (gone : x ∉ prune b) : x.2.job.finished = true ∧
      ∀ y ∈ prune b, y.2.job.finished = true → x.1 < y.1 := by
  rw [prune] at gone ⊢
  generalize b.length - Jobs.keepJobs = k at gone ⊢
  induction k with
  | zero => exact absurd hx gone
  | succ k ih =>
    rw [Function.iterate_succ_apply'] at gone ⊢
    by_cases there : x ∈ dropFinished^[k] b
    · exact dropFinished_before (h.sublist (iterate_dropFinished_sublist b k)) there gone
    · obtain ⟨finished, before⟩ := ih there
      exact ⟨finished, fun y hy => before y (List.eraseP_subset hy)⟩

/-! ### The book -/

lemma WellFiled.insert {b : Book} (h : WellFiled b) (f : Filed) :
    WellFiled (OrderedMap.insert f.ticket.id f b) := by
  refine ⟨OrderedMap.increasing_insert h.1 _ _, fun x hx => ?_⟩
  obtain rfl | old := OrderedMap.mem_of_mem_insert hx
  · rfl
  · exact h.2 x old

lemma tickets_insert_subset (b : Book) (f : Filed) :
    tickets (OrderedMap.insert f.ticket.id f b) ⊆ f.ticket :: tickets b := by
  intro t ht
  obtain ⟨x, hx, rfl⟩ := List.mem_map.mp ht
  obtain rfl | old := OrderedMap.mem_of_mem_insert hx
  · exact List.mem_cons_self ..
  · exact List.mem_cons_of_mem _ (List.mem_map_of_mem old)

lemma tickets_subset_of_sublist {b b' : Book} (h : b'.Sublist b) : tickets b' ⊆ tickets b :=
  (h.map _).subset

lemma mem_tickets {b : Book} {x : JobId × Filed} (h : x ∈ b) : x.2.ticket ∈ tickets b :=
  List.mem_map_of_mem (f := fun x : JobId × Filed => x.2.ticket) h

/-- A change of jobs leaves their ids and their submissions. -/
lemma wellFiled_change {b : Book} (h : WellFiled b) (f : Job → Job) :
    WellFiled (b.map fun x => (x.1, { x.2 with job := { f x.2.job with id := x.2.job.id } })) := by
  refine ⟨List.pairwise_map.mpr h.1, fun x hx => ?_⟩
  obtain ⟨y, hy, rfl⟩ := List.mem_map.mp hx
  exact h.2 y hy

lemma tickets_change (b : Book) (f : Job → Job) :
    tickets (b.map fun x => (x.1, { x.2 with job := { f x.2.job with id := x.2.job.id } })) =
      tickets b := by
  rw [tickets, List.map_map]
  rfl

/-! ### The invariant -/

lemma append_subset {α : Type} {l l' m m' : List α} (hl : l' ⊆ l) (hm : m' ⊆ m) :
    l' ++ m' ⊆ l ++ m :=
  List.append_subset.mpr ⟨List.subset_append_of_subset_left m hl,
    List.subset_append_of_subset_right l hm⟩

/-- A step after which nothing is filed, waits or is called that was not before. -/
lemma Inv.of_subset {s s' : Desk} (h : Inv s) (book : WellFiled s'.book) (file : WellFiled s'.file)
    (writing : WellFiled (s'.writing.getD [])) (next : s'.next = s.next)
    (filed : s'.filed ⊆ s.filed) (waiting : s'.waiting ⊆ s.waiting)
    (called : s'.called ⊆ s.called) : Inv s' where
  book := book
  file := file
  writing := writing
  ordered := by
    have live : s'.live ⊆ s.live := append_subset filed waiting
    rw [next]
    exact h.ordered.mono live (append_subset live called)
  apart t ht mem := h.apart t (waiting ht) (append_subset filed called mem)

/-- An id that is taken in time keeps the order: the new submission is behind all that are live,
and has another id than those that answer. -/
lemma Ordered.take {live called : List Ticket} {next : ℕ} {stamp : Stamp}
    (h : Ordered live (live ++ called) next) (before : ∀ t ∈ live, t.stamp.Before stamp)
    (other : ∀ t ∈ called, ¬ t.stamp.Same stamp) :
    Ordered (live ++ [⟨next, stamp⟩]) ((live ++ [⟨next, stamp⟩]) ++ called) (next + 1) := by
  have newId : ∀ t ∈ live ++ called, t.id ≠ stamp.id := by
    intro t ht same
    obtain ht | ht := List.mem_append.mp ht
    · exact (((Stamp.id_lt_iff _ _).mpr (before t ht)).ne) same
    · exact other t ht ((Stamp.id_eq_iff _ _).mp same)
  have cases : ∀ t ∈ (live ++ [⟨next, stamp⟩]) ++ called,
      t ∈ live ++ called ∨ t = ⟨next, stamp⟩ := by
    intro t ht
    simp only [List.mem_append, List.mem_singleton] at ht ⊢
    tauto
  constructor
  · intro t ht u hu less
    obtain ht | ht := List.mem_append.mp ht
    · obtain hu | hu := List.mem_append.mp hu
      · exact h.later t ht u hu less
      · rw [List.mem_singleton.mp hu]
        exact (Stamp.id_lt_iff _ _).mpr (before t ht)
    · rw [List.mem_singleton.mp ht] at less
      obtain hu | hu := List.mem_append.mp hu
      · have below := h.below u (List.mem_append_left called hu)
        simp only at less
        omega
      · rw [List.mem_singleton.mp hu] at less
        exact absurd less (lt_irrefl _)
  · intro t ht u hu same
    obtain ht | rfl := cases t ht
    · obtain hu | rfl := cases u hu
      · exact h.ids t ht u hu same
      · exact absurd same (newId t ht)
    · obtain hu | rfl := cases u hu
      · exact absurd same.symm (newId u hu)
      · rfl
  · intro t ht u hu same
    obtain ht | rfl := cases t ht
    · obtain hu | rfl := cases u hu
      · exact h.numbers t ht u hu same
      · exact absurd same (h.below t ht).ne
    · obtain hu | rfl := cases u hu
      · exact absurd same.symm (h.below u hu).ne
      · rfl
  · intro t ht
    obtain ht | rfl := cases t ht
    · exact (h.below t ht).trans (Nat.lt_succ_self next)
    · exact Nat.lt_succ_self next

/-- An id is taken, in time. -/
lemma Inv.take {s : Desk} (h : Inv s) {secs : ℕ} (ok : InTime s (.take secs)) :
    Inv (s.step (.take secs)) := by
  obtain ⟨before, other⟩ := ok
  refine ⟨h.book, h.file, h.writing, ?_, ?_⟩
  · have ordered := h.ordered.take before other
    rw [Desk.live, List.append_assoc] at ordered
    exact ordered
  · intro t ht mem
    obtain old | new := List.mem_append.mp ht
    · exact h.apart t old mem
    · rw [List.mem_singleton.mp new] at mem
      have inAll : (⟨s.next, ⟨secs, s.seq⟩⟩ : Ticket) ∈ s.live ++ s.called := by
        obtain mem | mem := List.mem_append.mp mem
        · exact List.mem_append_left _ (List.mem_append_left _ mem)
        · exact List.mem_append_right _ mem
      exact lt_irrefl _ (h.ordered.below _ inAll)

/-- A job is recorded: its submission waits no more. -/
lemma Inv.record {s : Desk} (h : Inv s) (t : Ticket) (j : Job) (op : Option String) :
    Inv (s.step (.record t j op)) := by
  by_cases here : t ∈ s.waiting
  · have step : s.step (.record t j op) =
        { s with
          book := OrderedMap.insert t.id ⟨t, { j with id := t.id }, op⟩ s.book
          waiting := s.waiting.filter (· ≠ t), recorded := t :: s.recorded } := if_pos here
    have filed : (s.step (.record t j op)).filed ⊆ t :: s.filed := by
      rw [step]
      exact append_subset (append_subset (tickets_insert_subset s.book ⟨t, _, op⟩)
        (List.Subset.refl _)) (List.Subset.refl _)
    have waiting : (s.step (.record t j op)).waiting ⊆ s.waiting := by
      rw [step]
      exact List.filter_sublist.subset
    have called : (s.step (.record t j op)).called = t :: s.called := by
      rw [step]
      rfl
    have inLive : t ∈ s.live := List.mem_append_right _ here
    have live : (s.step (.record t j op)).live ⊆ s.live := by
      intro u hu
      obtain hu | hu := List.mem_append.mp hu
      · obtain rfl | hu := List.mem_cons.mp (filed hu)
        · exact inLive
        · exact List.mem_append_left _ hu
      · exact List.mem_append_right _ (waiting hu)
    refine ⟨?_, ?_, ?_, ?_, ?_⟩
    · rw [step]
      exact h.book.insert ⟨t, { j with id := t.id }, op⟩
    · rw [step]
      exact h.file
    · rw [step]
      exact h.writing
    · have next : (s.step (.record t j op)).next = s.next := by rw [step]
      rw [next, called]
      refine h.ordered.mono live (List.append_subset.mpr ⟨?_, ?_⟩)
      · exact List.subset_append_of_subset_left _ live
      · exact List.cons_subset.mpr
          ⟨List.mem_append_left _ inLive, List.subset_append_right _ _⟩
    · intro u hu mem
      have other : u ≠ t := by
        rw [step] at hu
        exact of_decide_eq_true (List.mem_filter.mp hu).2
      refine h.apart u (waiting hu) ?_
      rw [called] at mem
      obtain mem | mem := List.mem_append.mp mem
      · exact List.mem_append_left _ ((List.mem_cons.mp (filed mem)).resolve_left other)
      · exact List.mem_append_right _ ((List.mem_cons.mp mem).resolve_left other)
  · have step : s.step (.record t j op) = s := if_neg here
    rw [step]
    exact h

/-- A save drops finished jobs. -/
lemma Inv.prune {s : Desk} (h : Inv s) : Inv (s.step .prune) := by
  rw [Desk.step]
  split_ifs
  · have kept := h.book.sublist (prune_sublist s.book)
    refine h.of_subset kept h.file kept rfl ?_ (List.Subset.refl _) (List.Subset.refl _)
    have sub := tickets_subset_of_sublist (prune_sublist s.book)
    refine List.append_subset.mpr ⟨?_, ?_⟩
    · exact List.subset_append_of_subset_left _ (append_subset sub (List.Subset.refl _))
    · exact List.subset_append_of_subset_left _ (List.subset_append_of_subset_left _ sub)
  · exact h

/-- A save writes the file, or fails to. -/
lemma Inv.write {s : Desk} (h : Inv s) (done : Bool) : Inv (s.step (.write done)) := by
  cases copy : s.writing with
  | none =>
    have step : s.step (.write done) = s := by rw [Desk.step, copy]
    rw [step]
    exact h
  | some b =>
    have step : s.step (.write done) =
        { s with writing := none, file := if done then b else s.file } := by rw [Desk.step, copy]
    have writing := h.writing
    rw [copy, Option.getD_some] at writing
    have filed : s.filed = tickets s.book ++ tickets s.file ++ tickets b := by
      rw [Desk.filed, copy, Option.getD_some]
    rw [step]
    refine h.of_subset h.book ?_ wellFiled_nil rfl ?_ (List.Subset.refl _) (List.Subset.refl _)
    · change WellFiled (if done then b else s.file)
      split_ifs
      · exact writing
      · exact h.file
    · change tickets s.book ++ tickets (if done then b else s.file) ++ [] ⊆ s.filed
      rw [filed, List.append_nil]
      split_ifs
      · exact append_subset (List.subset_append_left _ _) (List.Subset.refl _)
      · exact List.subset_append_left _ _

/-- The process starts again, and reads the file if it can. -/
lemma Inv.restart {s : Desk} (h : Inv s) (readable : Bool) : Inv (s.step (.restart readable)) := by
  refine h.of_subset ?_ h.file wellFiled_nil rfl ?_ (List.nil_subset _) ?_
  · change WellFiled (if readable then s.file else [])
    split_ifs
    · exact h.file
    · exact wellFiled_nil
  · change tickets (if readable then s.file else []) ++ tickets s.file ++ [] ⊆ s.filed
    have file : tickets s.file ⊆ s.filed :=
      List.subset_append_of_subset_left _ (List.subset_append_right _ _)
    rw [List.append_nil]
    split_ifs
    · exact List.append_subset.mpr ⟨file, file⟩
    · exact List.append_subset.mpr ⟨List.nil_subset _, file⟩
  · exact List.subset_append_right _ _

/-- Every step keeps the invariant, if an id that is taken is taken in time.

**Proof sketch.** Only taking an id brings a new submission (`Ordered.take`), and only recording a
job moves one: from those that wait to those that are filed. Every other step leaves submissions
out (`Inv.of_subset`). -/
lemma Inv.step {s : Desk} (h : Inv s) {e : Event} (ok : InTime s e) : Inv (s.step e) := by
  cases e with
  | take secs => exact h.take ok
  | record t j op => exact h.record t j op
  | change f =>
    refine h.of_subset (wellFiled_change h.book f) h.file h.writing rfl ?_
      (List.Subset.refl _) (List.Subset.refl _)
    rw [Desk.filed, Desk.step, tickets_change]
    exact List.Subset.refl _
  | prune => exact h.prune
  | write done => exact h.write done
  | answer t =>
    rw [Desk.step]
    split_ifs with here
    · refine h.of_subset h.book h.file h.writing rfl (List.Subset.refl _) (List.Subset.refl _) ?_
      refine List.append_subset.mpr ⟨?_, List.cons_subset.mpr ⟨?_, ?_⟩⟩
      · exact List.subset_append_of_subset_left _ List.filter_sublist.subset
      · exact List.mem_append_left _ here
      · exact List.subset_append_right _ _
    · exact h
  | restart readable => exact h.restart readable

/-! ### What the invariant gives -/

/-- In the book later ids are newer submissions. -/
lemma Inv.nr_lt {s : Desk} (h : Inv s) {x y : JobId × Filed} (hx : x ∈ s.book) (hy : y ∈ s.book)
    (less : x.1 < y.1) : x.2.ticket.nr < y.2.ticket.nr := by
  have live : ∀ z ∈ s.book, z.2.ticket ∈ s.live := fun z hz =>
    List.mem_append_left _ (List.mem_append_left _ (List.mem_append_left _ (mem_tickets hz)))
  rw [h.book.2 x hx, h.book.2 y hy] at less
  obtain before | same | behind := lt_trichotomy x.2.ticket.nr y.2.ticket.nr
  · exact before
  · have one := h.ordered.numbers _ (List.mem_append_left _ (live x hx)) _
      (List.mem_append_left _ (live y hy)) same
    rw [one] at less
    exact absurd less (lt_irrefl _)
  · exact absurd less (lt_asymm (h.ordered.later _ (live y hy) _ (live x hx) behind))

/-- What is found for an operation is a job of it, behind every other. -/
lemma mem_of_byOperation {b : Book} (h : OrderedMap.Increasing b) {op : String} {f : Filed}
    (found : byOperation b op = some f) : ∃ x ∈ b, x.2 = f ∧ f.operation = some op ∧
      ∀ y ∈ b, y.2.operation = some op → y.2 ≠ f → y.1 < x.1 := by
  obtain ⟨x, hx, rfl⟩ := Option.map_eq_some_iff.mp found
  obtain ⟨ofOp, behind, before, split, none⟩ := List.find?_eq_some_iff_append.mp hx
  have parts : b = before.reverse ++ x :: behind.reverse := by
    have reversed := congrArg List.reverse split
    rw [List.reverse_reverse] at reversed
    rw [reversed]
    simp
  refine ⟨x, ?_, rfl, of_decide_eq_true ofOp, ?_⟩
  · rw [parts]
    exact List.mem_append_right _ (List.mem_cons_self ..)
  · intro y hy ofOp' other
    rw [parts] at hy h
    obtain mem | mem := List.mem_append.mp hy
    · exact (List.pairwise_append.mp h).2.2 y mem x (List.mem_cons_self ..)
    · obtain rfl | mem := List.mem_cons.mp mem
      · exact absurd rfl other
      · have noJob := none y (List.mem_reverse.mp mem)
        rw [ofOp'] at noJob
        simp at noJob

/-- **The invariant gives the promise.**

**Proof sketch.** The last job of an operation has the greatest id, and so is the newest
(`Inv.nr_lt`). Two submissions have two ids. -/
lemma Inv.byId {s : Desk} (h : Inv s) : ById s where
  newest op f := by
    constructor
    · intro found
      obtain ⟨x, hx, rfl, ofOp, last⟩ := mem_of_byOperation h.book.1 found
      refine ⟨⟨x.1, hx⟩, ofOp, fun y hy ofOp' other => ?_⟩
      exact h.nr_lt hy hx (last y hy ofOp' other)
    · rintro ⟨⟨id, hf⟩, ofOp, newest⟩
      have some : (byOperation s.book op).isSome := by
        rw [byOperation, Option.isSome_map, List.find?_isSome]
        exact ⟨(id, f), List.mem_reverse.mpr hf, decide_eq_true ofOp⟩
      obtain ⟨g, found⟩ := Option.isSome_iff_exists.mp some
      obtain ⟨x, hx, rfl, ofOp', last⟩ := mem_of_byOperation h.book.1 found
      rw [found]
      by_contra other
      have ne : f ≠ x.2 := fun same => other (congrArg _ same.symm)
      have older := h.nr_lt hf hx (last _ hf ofOp ne)
      exact lt_asymm older (newest x hx ofOp' ne.symm)
  named := by
    intro t ht f found
    have mem := (h.book.1.get_eq_some_iff).mp found
    have same : t.id = f.ticket.id := h.book.2 _ mem
    refine (h.ordered.ids t ?_ f.ticket ?_ same).symm
    · exact List.mem_append_right _ (List.mem_append_right _ ht)
    · exact List.mem_append_left _ (List.mem_append_left _ (List.mem_append_left _
        (List.mem_append_left _ (mem_tickets mem))))

/-- With the invariant a step is as promised, if an id that is taken is taken in time. -/
lemma Inv.stepById {s : Desk} (h : Inv s) {e : Event} (ok : InTime s e) : StepById s e where
  fresh := by
    rintro secs rfl x hx same
    have live : x.2.ticket ∈ s.live := List.mem_append_left _ (List.mem_append_left _
      (List.mem_append_left _ (mem_tickets hx)))
    have less := (Stamp.id_lt_iff _ _).mpr (ok.1 _ live)
    rw [h.book.2 x hx] at same
    exact less.ne same
  kept := by
    rintro t j op rfl waits x hx same
    have filed : x.2.ticket ∈ s.filed := List.mem_append_left _ (List.mem_append_left _
      (mem_tickets hx))
    have one : t = x.2.ticket := by
      refine h.ordered.ids t ?_ x.2.ticket ?_ ?_
      · exact List.mem_append_left _ (List.mem_append_right _ waits)
      · exact List.mem_append_left _ (List.mem_append_left _ filed)
      · exact same.symm.trans (h.book.2 x hx)
    refine h.apart t waits (List.mem_append_left _ ?_)
    rw [one]
    exact filed
  oldest := by
    rintro rfl x hx gone
    rw [Desk.step] at gone ⊢
    split_ifs at gone ⊢ with free
    · obtain ⟨finished, before⟩ := prune_before h.book.1 hx gone
      refine ⟨finished, fun y hy done => ?_⟩
      exact h.nr_lt hx ((prune_sublist s.book).subset hy) (before y hy done)
    · exact absurd hx gone

/-! ## Runs -/

lemma inv_start : Inv {} where
  book := wellFiled_nil
  file := wellFiled_nil
  writing := wellFiled_nil
  ordered := ⟨by simp [Desk.live, Desk.filed, tickets], by simp [Desk.live, Desk.filed, Desk.called,
    tickets], by simp [Desk.live, Desk.filed, Desk.called, tickets],
    by simp [Desk.live, Desk.filed, Desk.called, tickets]⟩
  apart _ ht := absurd ht List.not_mem_nil

/-- **Job ids are never reused**, in a run in which every id is taken in time: no id that is taken
or recorded is a recorded job's, an id that was answered names its job, the job found for an
operation is the newest, and what a save drops is finished and the oldest.

**Proof sketch.** The invariant rule with `Inv.step`; the promise is `Inv.byId` for the states and
`Inv.stepById` for the steps. -/
theorem byId_of_inTime (es : List Event) (h : Runs.Each Desk.step InTime {} es) :
    Runs.Throughout Desk.step ById {} es ∧ Runs.Each Desk.step StepById {} es := by
  have kept : ∀ s e, Inv s → InTime s e → Inv (s.step e) := fun _ _ inv ok => inv.step ok
  constructor
  · exact (Runs.throughout_of_each kept inv_start h).mono fun _ inv => inv.byId
  · exact Runs.each_of_each kept (fun _ _ inv ok => inv.stepById ok) inv_start h

/-- The first submission, in second 100. -/
def first : Ticket := ⟨0, ⟨100, 0⟩⟩

/-- A job is submitted, saved and answered, the process starts again, and a clock reads so many
seconds when the next id is taken. -/
def restarted (secs : ℕ) : List Event :=
  [.take 100, .record first ⟨"", [], [], [], [], false, none⟩ none, .prune, .write true,
    .answer first, .restart true, .take secs]

/-- A second later the id is a new one. -/
theorem byId_of_restarted :
    Runs.Throughout Desk.step ById {} (restarted 101) ∧
      Runs.Each Desk.step StepById {} (restarted 101) := by
  have early : InTime {} (.take 100) := inTime_of_steady fun t ht => absurd ht List.not_mem_nil
  refine byId_of_inTime (restarted 101)
    ⟨early, trivial, trivial, trivial, trivial, trivial, inTime_of_steady fun t ht => ?_, trivial⟩
  have one : t ∈ [first, first, first] := ht
  simp only [List.mem_cons, List.not_mem_nil, or_false, or_self] at one
  rw [one]
  exact ⟨by decide, Or.inl (by decide)⟩

/-- **In the same second the id is taken again**: it is that of the job in the file. -/
theorem restarted_reuses : ¬ ∀ es : List Event,
    Runs.Throughout Desk.step ById {} es ∧ Runs.Each Desk.step StepById {} es := by
  intro h
  have steps := (h (restarted 100)).2
  have last := steps.2.2.2.2.2.2.1.fresh 100 rfl
  exact last (first.id, ⟨first, ⟨first.id, [], [], [], [], false, none⟩, none⟩)
    (List.mem_singleton.mpr rfl) rfl

end JobIds

end StormDrive
