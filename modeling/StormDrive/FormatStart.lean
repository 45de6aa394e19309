import StormDrive.Scsi
import StormDrive.Interleave.Trace

set_option relaxedAutoImplicit false
set_option autoImplicit false

/-!
# Starting a format

A format is a MODE SELECT of the new block length and a FORMAT UNIT after it, and nothing else
(`format.rs`). What the drive refuses is put back; what it does not answer ends the run there.

## Main definitions

* `FormatStart.startExact` — the commands, for every answer of the drive.
* `FormatStart.lastLength` — the block length that the last accepted MODE SELECT asked for.
* `FormatStart.Exact`, `FormatStart.PutBack` — what is formatted, and what a refusal leaves.

## Main results

* `FormatStart.startExact_exact` — **every FORMAT UNIT is the one asked for, an error means that
  none was accepted, and a refusal puts the old length back**.
* `FormatStart.failed_format_keeps_length` — a FORMAT UNIT that is not answered leaves the new
  length.

## Implementation notes

The drive answers any command in any way; an accepted MODE SELECT counts with the length that can be
read from its parameter list. Log lines are left out.
-/

namespace StormDrive

namespace FormatStart

open Bytes Interleave Interleave.Prog Scsi

/-! ## The commands -/

/-- What starting a format needs of a drive. -/
inductive Command
  | modeSense10 (page : ℕ)
  /-- MODE SELECT(10), or else (6). -/
  | modeSelect (ten : Bool) (list : List UInt8)
  | formatUnitPi (immed : Bool) (fmtpinfo : ℕ)
  deriving DecidableEq

/-- What a command is answered with, when it is accepted. -/
@[reducible] def Command.Data : Command → Type
  | .modeSense10 _ => ModeHeader10
  | _ => Unit

/-- What a command is answered with. -/
abbrev Answer (c : Command) : Type := Except ScsiError c.Data

/-- Commands, with their answers. -/
abbrev Script := List (Σ c, Answer c)

/-- A program that sends commands to the drive. -/
abbrev Talk (α : Type) := Prog Command Answer α

def modeSense10 (page : ℕ) : Talk (Except ScsiError ModeHeader10) :=
  op (Command.modeSense10 page)

def modeSelect10 (list : List UInt8) : Talk (Except ScsiError Unit) :=
  op (Command.modeSelect true list)

def modeSelect6 (list : List UInt8) : Talk (Except ScsiError Unit) :=
  op (Command.modeSelect false list)

def formatUnitPi (immed : Bool) (fmtpinfo : ℕ) : Talk (Except ScsiError Unit) :=
  op (Command.formatUnitPi immed fmtpinfo)

/-- FORMAT UNIT's FMTPINFO. -/
def fmtpinfo : Protection → ℕ
  | .none => 0
  | .type1 => 0b10

inductive Attempt
  /-- FORMAT UNIT was accepted: it runs on, or it ended. -/
  | started (immediate : Bool)
  /-- The drive will not do this one. -/
  | refused (why : String)
  /-- No answer about the format: the run stops. -/
  | failed (why : String)
  deriving DecidableEq

def refusedOrFailed (e : ScsiError) (why : String) : Attempt :=
  if e.isIllegalRequest then .refused why else .failed why

/-- The parameter lists that `setLength` tries, in order, with what they are called and whether they
are for MODE SELECT(10). -/
def lists (h : ModeHeader10) (n : ℕ) : List (String × List UInt8 × Bool) :=
  (if h.hasLong then [("10, long", modeSelect10List h n true, true)] else []) ++
    [("10", modeSelect10List h n false, true), ("6", modeSelect6List h n, false)]

/-- A list, in the form that it is for. -/
def sendList (ten : Bool) (list : List UInt8) : Talk (Except ScsiError Unit) :=
  if ten then modeSelect10 list else modeSelect6 list

/-- The lists one after the other, until one is accepted. -/
def trySelects (errs : List String) (refused : Bool) :
    List (String × List UInt8 × Bool) → Talk (Except Attempt Unit)
  | [] =>
    let why := "mode select rejected: " ++ Text.join "; " errs
    pure (.error (if refused then .refused why else .failed why))
  | (what, list, ten) :: rest => do
    match ← sendList ten list with
    | .ok () => pure (.ok ())
    | .error e =>
      trySelects (errs ++ ["(" ++ what ++ ") " ++ e.text]) (refused || e.isIllegalRequest) rest

/-- MODE SELECT with the new block length in the drive's own block descriptor. -/
def setLength (n : ℕ) : Talk (Except Attempt Unit) := do
  let r ← modeSense10 0x01
  let h := match r with
    | .ok h => h
    | .error _ => ⟨0, 0, false, none⟩
  trySelects [] false (lists h n)

/-- FORMAT UNIT, blocking when IMMED is refused without protection. -/
def sendFormat (prot : Protection) : Talk Attempt := do
  match ← formatUnitPi true (fmtpinfo prot) with
  | .ok () => pure (.started true)
  | .error e =>
    if e.isIllegalRequest && prot ≠ .none then
      pure (.refused ("format unit with " ++ prot.word ++ ": refused (" ++ e.text ++ ")"))
    else if e.isIllegalRequest then do
      match ← formatUnitPi false 0 with
      | .ok () => pure (.started false)
      | .error e => pure (refusedOrFailed e ("format unit: " ++ e.text))
    else pure (.failed ("format unit: " ++ e.text))

/-- The block length, then FORMAT UNIT. -/
def begin (n : ℕ) (prot : Protection) : Talk Attempt := do
  match ← setLength n with
  | .error a => pure a
  | .ok () => sendFormat prot

/-- Exactly the format asked for; a refusal puts the old block length back. -/
def startExact (current : ℕ) (target : ℕ × Protection) : Talk (Except Attempt Bool) := do
  match ← begin target.1 target.2 with
  | .started immediate => pure (.ok immediate)
  | .refused why => do
    let line := toString target.1 ++ " with " ++ target.2.word ++ ": " ++ why
    let _ ← setLength current
    pure (.error (.refused line))
  | .failed why => pure (.error (.failed why))

/-! ## What is asked of it -/

/-- The block length that a MODE SELECT asks for, as its list says. -/
def Command.length : Command → Option ℕ
  | .modeSelect true list => descriptorBlockLength (list.drop 8) (longLbaBit list)
  | .modeSelect false list => descriptorBlockLength (list.drop 4) false
  | _ => none

/-- A FORMAT UNIT. -/
def Command.isFormat : Command → Bool
  | .formatUnitPi .. => true
  | _ => false

/-- A MODE SELECT. -/
def Command.isSelect : Command → Bool
  | .modeSelect .. => true
  | _ => false

/-- The drive has accepted the command. -/
def accepted (e : Σ c, Answer c) : Bool :=
  match e.2 with
  | .ok _ => true
  | .error _ => false

/-- The command sets the block length: a MODE SELECT that the drive has accepted. -/
def setsLength (e : Σ c, Answer c) : Bool := e.1.isSelect && accepted e

/-- The block length that the last accepted MODE SELECT asked for. -/
def lastLength (t : Script) : Option ℕ :=
  t.foldl (fun last e => if setsLength e then e.1.length else last) none

/-- Every FORMAT UNIT that is sent is the one asked for: with its protection, and a MODE SELECT of
its length accepted just before, but for another FORMAT UNIT that was refused. -/
def Exact (target : ℕ × Protection) (t : Script) : Prop :=
  ∀ before immed info x after, t = before ++ ⟨.formatUnitPi immed info, x⟩ :: after →
    info = fmtpinfo target.2 ∧
    ∃ earlier select refusals, before = earlier ++ select :: refusals ∧
      setsLength select = true ∧ select.1.length = some target.1 ∧
      ∀ e ∈ refusals, e.1.isFormat = true ∧ accepted e = false

/-- The old length is put back: a MODE SELECT of it is sent in the end, and is the last that was
accepted unless all that put it back are rejected. -/
def PutBack (current : ℕ) (t : Script) : Prop :=
  ∃ first back, t = first ++ back ∧
    (∃ e ∈ back, e.1.isSelect = true) ∧
    (∀ e ∈ back, e.1.isSelect = true → e.1.length = some current) ∧
    (lastLength t = some current ∨ ∀ e ∈ back, setsLength e = false)

/-- The run stops without an answer about the format: no MODE SELECT was accepted, or FORMAT UNIT
was the last command, and was neither accepted nor refused. -/
def StopsThere (target : ℕ × Protection) (t : Script) : Prop :=
  (∀ e ∈ t, setsLength e = false) ∨
  ∃ earlier immed info x, t = earlier ++ [⟨.formatUnitPi immed info, .error x⟩] ∧
    x.isIllegalRequest = false ∧ lastLength t = some target.1

/-! ## One command after the other -/

lemma sendList_eq (ten : Bool) (list : List UInt8) :
    sendList ten list = op (Command.modeSelect ten list) := by
  cases ten with
  | false => rfl
  | true => rfl

/-- What the lists leave: one was accepted as the last, or none was and all were tried. -/
def Tried (tries : ℕ) (t : Script) : Except Attempt Unit → Prop
  | .ok () => ∃ rejected select, t = rejected ++ [select] ∧ setsLength select = true ∧
      ∀ e ∈ rejected, setsLength e = false
  | .error a => (∀ im, a ≠ .started im) ∧ t.length = tries ∧ ∀ e ∈ t, setsLength e = false

/-- The commands are MODE SELECTs of the length. -/
def Selects (n : ℕ) (t : Script) : Prop :=
  ∀ e ∈ t, e.1.isSelect = true ∧ e.1.length = some n

/-- The lists are tried until one is accepted. -/
lemma trace_trySelects {n : ℕ} {ls : List (String × List UInt8 × Bool)}
    (asks : ∀ l ∈ ls, (Command.modeSelect l.2.2 l.2.1).length = some n) {errs : List String}
    {refused : Bool} {t : Script} {r : Except Attempt Unit}
    (h : Trace (trySelects errs refused ls) t r) : Selects n t ∧ Tried ls.length t r := by
  induction ls generalizing errs refused t with
  | nil =>
    obtain ⟨rfl, rfl⟩ := (trace_ret_iff _ _ _).mp h
    refine ⟨nofun, ?_, rfl, nofun⟩
    intro im
    split_ifs
    · exact nofun
    · exact nofun
  | cons l ls ih =>
    obtain ⟨what, list, ten⟩ := l
    have first : (Command.modeSelect ten list).length = some n := asks _ List.mem_cons_self
    have rest := fun l hl => asks l (List.mem_cons_of_mem _ hl)
    rw [trySelects, sendList_eq] at h
    obtain ⟨x, later, rfl, after⟩ := (trace_op_bind_iff _ _ _ _).mp h
    cases x with
    | ok u =>
      obtain ⟨rfl, rfl⟩ := (trace_ret_iff _ _ _).mp after
      refine ⟨?_, [], ⟨.modeSelect ten list, .ok u⟩, rfl, rfl, nofun⟩
      intro e he
      rw [List.mem_singleton.mp he]
      exact ⟨rfl, first⟩
    | error e =>
      obtain ⟨selects, tried⟩ := ih rest after
      constructor
      · intro e he
        obtain rfl | he := List.mem_cons.mp he
        · exact ⟨rfl, first⟩
        · exact selects e he
      · cases r with
        | ok u =>
          obtain ⟨rejected, select, rfl, sets, none⟩ := tried
          refine ⟨_ :: rejected, select, rfl, sets, ?_⟩
          intro e he
          obtain rfl | he := List.mem_cons.mp he
          · rfl
          · exact none e he
        | error a =>
          obtain ⟨attempt, length, none⟩ := tried
          refine ⟨attempt, congrArg (· + 1) length, ?_⟩
          intro e he
          obtain rfl | he := List.mem_cons.mp he
          · rfl
          · exact none e he

/-- The lists ask for the length. -/
lemma length_of_mem_lists {h : ModeHeader10} {n : ℕ} (fits : n < 2 ^ 24) :
    ∀ l ∈ lists h n, (Command.modeSelect l.2.2 l.2.1).length = some n := by
  have ten : ∀ long, (Command.modeSelect true (modeSelect10List h n long)).length = some n :=
    fun long => (asksLength_modeSelect10List h long fits).length
  have six : (Command.modeSelect false (modeSelect6List h n)).length = some n := by
    have short := (asksLength_modeSelect10List h false fits).length
    rw [longLbaBit_modeSelect10List, Bool.false_and] at short
    rw [Command.length, modeSelect6List_eq]
    exact short
  intro l hl
  obtain hl | hl := List.mem_append.mp hl
  · split_ifs at hl
    · rw [List.mem_singleton.mp hl]
      exact ten true
    · exact absurd hl nofun
  · obtain rfl | hl := List.mem_cons.mp hl
    · exact ten false
    · rw [List.mem_singleton.mp hl]
      exact six

/-- A MODE SENSE, and then the lists. -/
lemma trace_setLength {n : ℕ} (fits : n < 2 ^ 24) {t : Script} {r : Except Attempt Unit}
    (h : Trace (setLength n) t r) :
    ∃ page x tries selects, t = ⟨.modeSense10 page, x⟩ :: selects ∧ Selects n selects ∧
      Tried tries selects r ∧ tries ≠ 0 := by
  obtain ⟨x, later, rfl, after⟩ := (trace_op_bind_iff _ _ _ _).mp h
  obtain ⟨selects, tried⟩ := trace_trySelects (length_of_mem_lists fits) after
  refine ⟨_, x, _, later, rfl, selects, tried, ?_⟩
  simp [lists]

/-- What FORMAT UNIT leaves, by what the attempt is: the last command was accepted, or refused, or
not answered. -/
def Answered (last : Σ c, Answer c) : Attempt → Prop
  | .started _ => accepted last = true
  | .refused _ => accepted last = false
  | .failed _ => ∃ immed info x, last = ⟨.formatUnitPi immed info, .error x⟩ ∧
      x.isIllegalRequest = false

/-- FORMAT UNIT is sent with the protection asked for, and again only when it was refused. -/
lemma trace_sendFormat {prot : Protection} {t : Script} {a : Attempt}
    (h : Trace (sendFormat prot) t a) :
    (∀ e ∈ t, ∃ immed, e.1 = .formatUnitPi immed (fmtpinfo prot)) ∧
    ∃ refusals last, t = refusals ++ [last] ∧ (∀ e ∈ refusals, accepted e = false) ∧
      Answered last a := by
  obtain ⟨x, later, rfl, after⟩ := (trace_op_bind_iff _ _ _ _).mp h
  have one : ∀ y : Answer (.formatUnitPi true (fmtpinfo prot)),
      ∀ e ∈ ([⟨.formatUnitPi true (fmtpinfo prot), y⟩] : Script),
        ∃ immed, e.1 = .formatUnitPi immed (fmtpinfo prot) := by
    intro y e he
    rw [List.mem_singleton.mp he]
    exact ⟨true, rfl⟩
  cases x with
  | ok u =>
    obtain ⟨rfl, rfl⟩ := (trace_ret_iff _ _ _).mp after
    exact ⟨one _, [], _, rfl, nofun, rfl⟩
  | error e =>
    dsimp only at after
    split_ifs at after with pi illegal
    · obtain ⟨rfl, rfl⟩ := (trace_ret_iff _ _ _).mp after
      exact ⟨one _, [], _, rfl, nofun, rfl⟩
    · have none : prot = .none := by
        by_contra some
        exact pi (by simp [illegal, some])
      obtain ⟨y, last, rfl, final⟩ := (trace_op_bind_iff _ _ _ _).mp after
      subst none
      have two : ∀ c ∈ ([⟨.formatUnitPi true 0, .error e⟩, ⟨.formatUnitPi false 0, y⟩] : Script),
          ∃ immed, c.1 = .formatUnitPi immed (fmtpinfo .none) := by
        intro c hc
        obtain rfl | hc := List.mem_cons.mp hc
        · exact ⟨true, rfl⟩
        · rw [List.mem_singleton.mp hc]
          exact ⟨false, rfl⟩
      cases y with
      | ok u =>
        obtain ⟨rfl, rfl⟩ := (trace_ret_iff _ _ _).mp final
        exact ⟨two, [_], _, rfl, fun e he => by rw [List.mem_singleton.mp he]; rfl, rfl⟩
      | error e₂ =>
        obtain ⟨rfl, rfl⟩ := (trace_ret_iff _ _ _).mp final
        refine ⟨two, [_], _, rfl, fun e he => by rw [List.mem_singleton.mp he]; rfl, ?_⟩
        unfold refusedOrFailed
        split_ifs with illegal
        · rfl
        · exact ⟨false, 0, e₂, rfl, by simpa using illegal⟩
    · obtain ⟨rfl, rfl⟩ := (trace_ret_iff _ _ _).mp after
      refine ⟨one _, [], _, rfl, nofun, true, _, e, rfl, ?_⟩
      simpa using illegal

/-- What is sent and answered up to the put-back: no MODE SELECT was accepted and nothing else sent;
or one of the length was, and FORMAT UNIT followed. -/
inductive Begun (n : ℕ) (prot : Protection) : Script → Attempt → Prop
  | unset {t : Script} {a : Attempt} (none : ∀ e ∈ t, setsLength e = false ∧ e.1.isFormat = false)
      (attempt : ∀ im, a ≠ .started im) : Begun n prot t a
  | set {earlier refusals : Script} {select last : Σ c, Answer c} {a : Attempt}
      (none : ∀ e ∈ earlier ++ [select], e.1.isFormat = false)
      (sets : setsLength select = true) (length : select.1.length = some n)
      (format : ∀ e ∈ refusals ++ [last], ∃ immed, e.1 = .formatUnitPi immed (fmtpinfo prot))
      (refused : ∀ e ∈ refusals, accepted e = false) (answered : Answered last a) :
      Begun n prot ((earlier ++ [select]) ++ (refusals ++ [last])) a

/-- A MODE SELECT is no FORMAT UNIT. -/
lemma isFormat_of_isSelect {c : Command} (h : c.isSelect = true) : c.isFormat = false := by
  cases c with
  | modeSelect ten list => rfl
  | modeSense10 _ | formatUnitPi _ _ => exact absurd h nofun

/-- The block length and FORMAT UNIT. -/
lemma trace_begin {n : ℕ} {prot : Protection} (fits : n < 2 ^ 24) {t : Script} {a : Attempt}
    (h : Trace (begin n prot) t a) : Begun n prot t a := by
  obtain ⟨r, t₁, t₂, rfl, set, after⟩ := (trace_bind_iff _ _ _ _).mp h
  obtain ⟨page, x, tries, selects, rfl, asks, tried, -⟩ := trace_setLength fits set
  have noFormat : ∀ e ∈ (⟨.modeSense10 page, x⟩ :: selects : Script), e.1.isFormat = false := by
    intro e he
    obtain rfl | he := List.mem_cons.mp he
    · rfl
    · exact isFormat_of_isSelect (asks e he).1
  cases r with
  | error a' =>
    obtain ⟨rfl, rfl⟩ := (trace_ret_iff _ _ _).mp after
    obtain ⟨attempt, -, none⟩ := tried
    refine .unset (fun e he => ?_) attempt
    rw [List.append_nil] at he
    refine ⟨?_, noFormat e he⟩
    obtain rfl | he := List.mem_cons.mp he
    · rfl
    · exact none e he
  | ok u =>
    obtain ⟨rejected, select, rfl, sets, -⟩ := tried
    obtain ⟨format, refusals, last, rfl, refused, answered⟩ := trace_sendFormat after
    have length := (asks select (by simp)).2
    exact @Begun.set n prot (⟨.modeSense10 page, x⟩ :: rejected) refusals select last a noFormat
      sets length format refused answered

/-! ## The whole -/

/-- What is not accepted as a MODE SELECT leaves the length. -/
lemma lastLength_append {t t' : Script} (none : ∀ e ∈ t', setsLength e = false) :
    lastLength (t ++ t') = lastLength t := by
  rw [lastLength, List.foldl_append]
  show t'.foldl _ (lastLength t) = lastLength t
  generalize lastLength t = last
  induction t' with
  | nil => rfl
  | cons e t' ih =>
    rw [List.foldl_cons, if_neg (by simp [none e List.mem_cons_self])]
    exact ih fun e' he' => none e' (List.mem_cons_of_mem e he')

/-- An accepted MODE SELECT sets the length. -/
lemma lastLength_concat (t : Script) {e : Σ c, Answer c} (sets : setsLength e = true) :
    lastLength (t ++ [e]) = e.1.length := by
  rw [lastLength, List.foldl_append, List.foldl_cons, List.foldl_nil, if_pos sets]

/-- An element that is in the middle part only splits the middle part. -/
lemma split_middle {α : Type} {front middle back before after : List α} {a : α}
    (whole : front ++ (middle ++ back) = before ++ a :: after) (notFront : a ∉ front)
    (notBack : a ∉ back) : ∃ p q, middle = p ++ a :: q ∧ before = front ++ p := by
  obtain ⟨w, rfl, rest⟩ | ⟨w, split, rest⟩ := List.append_eq_append_iff.mp whole
  · obtain ⟨v, rfl, end_⟩ | ⟨v, split, end_⟩ := List.append_eq_append_iff.mp rest
    · exact (notBack (by simp [end_])).elim
    · cases v with
      | nil =>
        rw [List.nil_append] at end_
        exact (notBack (by rw [← end_]; simp)).elim
      | cons b v =>
        obtain ⟨rfl, -⟩ := List.cons.inj end_
        exact ⟨w, v, split, rfl⟩
  · cases w with
    | nil =>
      rw [List.append_nil] at split
      cases middle with
      | nil =>
        rw [List.nil_append, List.nil_append] at rest
        exact (notBack (by rw [← rest]; simp)).elim
      | cons b m =>
        obtain ⟨rfl, -⟩ := List.cons.inj rest
        exact ⟨[], m, rfl, by rw [List.append_nil, split]⟩
    | cons b w =>
      obtain ⟨rfl, -⟩ := List.cons.inj rest
      exact (notFront (by simp [split])).elim

/-- What has begun formats exactly what was asked for, whatever follows that is no FORMAT UNIT. -/
lemma Begun.exact {target : ℕ × Protection} {t back : Script} {a : Attempt}
    (h : Begun target.1 target.2 t a) (none : ∀ e ∈ back, e.1.isFormat = false) :
    Exact target (t ++ back) := by
  intro before immed info x after split
  have notIn : ∀ {l : Script}, (∀ e ∈ l, e.1.isFormat = false) →
      (⟨.formatUnitPi immed info, x⟩ : Σ c, Answer c) ∉ l :=
    fun none mem => absurd (none _ mem) nofun
  cases h with
  | unset unset attempt =>
    have mem : (⟨.formatUnitPi immed info, x⟩ : Σ c, Answer c) ∈ t ++ back := by
      rw [split]
      simp
    obtain mem | mem := List.mem_append.mp mem
    · exact absurd mem (notIn fun e he => (unset e he).2)
    · exact absurd mem (notIn none)
  | @set earlier refusals select last _ front sets length format refused answered =>
    rw [List.append_assoc] at split
    obtain ⟨p, q, middle, rfl⟩ := split_middle split (notIn front) (notIn none)
    have sent := format ⟨.formatUnitPi immed info, x⟩ (by rw [middle]; simp)
    obtain ⟨immed', same⟩ := sent
    obtain ⟨-, info⟩ := Command.formatUnitPi.inj same
    have first : p <+: refusals := by
      have both : p <+: refusals ++ [last] := ⟨_, middle.symm⟩
      have shorter : p.length ≤ refusals.length := by
        have := congrArg List.length middle
        simp only [List.length_append, List.length_cons, List.length_nil] at this
        omega
      exact List.prefix_of_prefix_length_le both (List.prefix_append _ _) shorter
    refine ⟨info, earlier, select, p, by simp, sets, length, fun e he => ?_⟩
    have mem : e ∈ refusals := first.subset he
    obtain ⟨im, formats⟩ := format e (List.mem_append_left _ mem)
    rw [formats]
    exact ⟨rfl, refused e mem⟩

/-- A FORMAT UNIT was accepted. -/
def Formatted (t : Script) : Prop := ∃ e ∈ t, e.1.isFormat = true ∧ accepted e = true

/-- What was asked of a started format is exactly that a FORMAT UNIT was accepted. -/
lemma Begun.formatted_iff {n : ℕ} {prot : Protection} {t : Script} {a : Attempt}
    (h : Begun n prot t a) : Formatted t ↔ ∃ im, a = .started im := by
  cases h with
  | unset unset attempt =>
    constructor
    · rintro ⟨e, he, format, -⟩
      rw [(unset e he).2] at format
      exact absurd format nofun
    · rintro ⟨im, rfl⟩
      exact absurd rfl (attempt im)
  | @set earlier refusals select last _ front sets length format refused answered =>
    have only : Formatted ((earlier ++ [select]) ++ (refusals ++ [last])) ↔
        accepted last = true := by
      constructor
      · rintro ⟨e, he, isFormat, acc⟩
        obtain he | he := List.mem_append.mp he
        · rw [front e he] at isFormat
          exact absurd isFormat nofun
        · obtain he | he := List.mem_append.mp he
          · rw [refused e he] at acc
            exact absurd acc nofun
          · rw [← List.mem_singleton.mp he]
            exact acc
      · intro acc
        obtain ⟨im, isFormat⟩ := format last (by simp)
        exact ⟨last, by simp, by rw [isFormat]; rfl, acc⟩
    rw [only]
    cases a with
    | started im => exact ⟨fun _ => ⟨im, rfl⟩, fun _ => answered⟩
    | refused why =>
      refine ⟨fun acc => ?_, fun ⟨im, e⟩ => absurd e nofun⟩
      rw [show accepted last = false from answered] at acc
      exact absurd acc nofun
    | failed why =>
      obtain ⟨im, info, x, rfl, -⟩ := answered
      exact ⟨fun acc => absurd acc nofun, fun ⟨im, e⟩ => absurd e nofun⟩

/-- A failure leaves the run where it was. -/
lemma Begun.stopsThere {target : ℕ × Protection} {t : Script} {why : String}
    (h : Begun target.1 target.2 t (.failed why)) : StopsThere target t := by
  cases h with
  | unset unset attempt => exact .inl fun e he => (unset e he).1
  | @set earlier refusals select last _ front sets length format refused answered =>
    obtain ⟨im, info, x, rfl, illegal⟩ := answered
    refine .inr ⟨(earlier ++ [select]) ++ refusals, im, info, x, by simp, illegal, ?_⟩
    rw [lastLength_append, lastLength_concat _ sets, length]
    intro e he
    obtain ⟨im', isFormat⟩ := format e he
    rw [setsLength, isFormat]
    rfl

/-- **Exactly the format asked for**: every FORMAT UNIT that is sent has the protection asked for
and follows an accepted MODE SELECT of the length; the run is a success exactly when a FORMAT UNIT
was accepted; a refusal puts the old length back; and without an answer the run stops where it is.

**Proof sketch.** What is sent up to the put-back is one of two things (`trace_begin`): no MODE
SELECT was accepted and nothing else sent, or one was and FORMAT UNIT followed until it was accepted
or not refused. The put-back is MODE SELECTs only. -/
theorem startExact_exact (current : ℕ) (target : ℕ × Protection) (t : Script)
    (r : Except Attempt Bool) (fits : target.1 < 2 ^ 24) (fits' : current < 2 ^ 24)
    (run : Trace (startExact current target) t r) :
    Exact target t ∧ ((∃ immediate, r = .ok immediate) ↔ Formatted t) ∧
      (∀ line, r = .error (.refused line) → PutBack current t) ∧
      (∀ why, r = .error (.failed why) → StopsThere target t) ∧
      (∀ im, r ≠ .error (.started im)) := by
  obtain ⟨a, t₁, t₂, rfl, first, after⟩ := (trace_bind_iff _ _ _ _).mp run
  have begun := trace_begin fits first
  cases a with
  | started immediate =>
    obtain ⟨rfl, rfl⟩ := (trace_ret_iff _ _ _).mp after
    have formatted := begun.formatted_iff.mpr ⟨immediate, rfl⟩
    have exact_ := begun.exact (List.forall_mem_nil _)
    rw [List.append_nil] at exact_ ⊢
    exact ⟨exact_, ⟨fun _ => formatted, fun _ => ⟨immediate, rfl⟩⟩, nofun, nofun, nofun⟩
  | failed why =>
    obtain ⟨rfl, rfl⟩ := (trace_ret_iff _ _ _).mp after
    have exact_ := begun.exact (List.forall_mem_nil _)
    rw [List.append_nil] at exact_ ⊢
    refine ⟨exact_, ⟨nofun, fun formatted => ?_⟩, nofun, fun _ _ => begun.stopsThere, nofun⟩
    obtain ⟨im, started⟩ := begun.formatted_iff.mp formatted
    exact absurd started nofun
  | refused why =>
    obtain ⟨x, t₃, t₄, rfl, back, after⟩ := (trace_bind_iff _ _ _ _).mp after
    obtain ⟨rfl, rfl⟩ := (trace_ret_iff _ _ _).mp after
    rw [List.append_nil]
    obtain ⟨page, y, tries, selects, rfl, asks, tried, any⟩ := trace_setLength fits' back
    have noFormat : ∀ e ∈ (⟨.modeSense10 page, y⟩ :: selects : Script), e.1.isFormat = false := by
      intro e he
      obtain rfl | he := List.mem_cons.mp he
      · rfl
      · exact isFormat_of_isSelect (asks e he).1
    refine ⟨begun.exact noFormat, ⟨nofun, ?_⟩, fun _ _ => ?_, nofun, nofun⟩
    · rintro ⟨e, he, format, acc⟩
      obtain he | he := List.mem_append.mp he
      · obtain ⟨im, started⟩ := begun.formatted_iff.mp ⟨e, he, format, acc⟩
        exact absurd started nofun
      · rw [noFormat e he] at format
        exact absurd format nofun
    · refine ⟨t₁, _, rfl, ?_, ?_, ?_⟩
      · have some : selects ≠ [] := by
          rintro rfl
          cases x with
          | ok u =>
            obtain ⟨rejected, select, none, -⟩ := tried
            exact absurd none.symm (List.append_ne_nil_of_right_ne_nil _ (List.cons_ne_nil _ _))
          | error a => exact any tried.2.1.symm
        obtain ⟨e, he⟩ := List.exists_mem_of_ne_nil _ some
        exact ⟨e, List.mem_cons_of_mem _ he, (asks e he).1⟩
      · intro e he isSelect
        obtain rfl | he := List.mem_cons.mp he
        · exact absurd isSelect nofun
        · exact (asks e he).2
      · cases x with
        | ok u =>
          obtain ⟨rejected, select, rfl, sets, -⟩ := tried
          rw [← List.cons_append, ← List.append_assoc, lastLength_concat _ sets]
          exact .inl (asks select (by simp)).2
        | error a =>
          refine .inr fun e he => ?_
          obtain rfl | he := List.mem_cons.mp he
          · rfl
          · exact tried.2.2 e he

/-- The answer of a drive with a short descriptor. -/
def shortHeader : ModeHeader10 := ⟨0, 0x10, false, some [0xFF, 0xFF, 0xFF, 0xFF, 0, 0, 2, 0]⟩

/-- A drive that takes the new length, refuses to format with protection, and takes the old one. -/
def refusesProtection : Script :=
  [⟨.modeSense10 1, .ok shortHeader⟩,
    ⟨.modeSelect true (modeSelect10List shortHeader 4096 false), .ok ()⟩,
    ⟨.formatUnitPi true 2, .error (.sense { key := 5, asc := 0x24, ascq := 0 })⟩,
    ⟨.modeSense10 1, .ok shortHeader⟩,
    ⟨.modeSelect true (modeSelect10List shortHeader 512 false), .ok ()⟩]

/-- A refused format with protection is not run without, and the drive is left at 512. -/
theorem refused_format_puts_back :
    Exact (4096, .type1) refusesProtection ∧ PutBack 512 refusesProtection := by
  have run : ∃ line, Trace (startExact 512 (4096, .type1)) refusesProtection
      (.error (.refused line)) :=
    ⟨_, .act _ _ _ (.act _ _ _ (.act _ _ _ (.act _ _ _ (.act _ _ _ (.ret _)))))⟩
  obtain ⟨line, run⟩ := run
  obtain ⟨exact_, -, refused, -⟩ := startExact_exact 512 (4096, .type1) refusesProtection _
    (by decide) (by decide) run
  exact ⟨exact_, refused line rfl⟩

/-- A drive that takes the new length, and is gone when FORMAT UNIT comes. -/
def goneOnFormat (n : ℕ) (prot : Protection) : Script :=
  [⟨.modeSense10 1, .ok shortHeader⟩,
    ⟨.modeSelect true (modeSelect10List shortHeader n false), .ok ()⟩,
    ⟨.formatUnitPi true (fmtpinfo prot), .error (.unsupported "gone")⟩]

lemma trace_goneOnFormat (current n : ℕ) (prot : Protection) :
    Trace (startExact current (n, prot)) (goneOnFormat n prot)
      (.error (.failed "format unit: gone")) :=
  .act _ _ _ (.act _ _ _ (.act _ _ _ (.ret _)))

/-- **A FORMAT UNIT that is not answered leaves the new length**: nothing puts the old one back. And
a length past the 24 bits of a short descriptor is not the one that is asked for. -/
theorem failed_format_keeps_length :
    (Trace (startExact 512 (4096, .type1)) (goneOnFormat 4096 .type1)
        (.error (.failed "format unit: gone")) ∧
      lastLength (goneOnFormat 4096 .type1) = some 4096 ∧
      ¬ PutBack 512 (goneOnFormat 4096 .type1)) ∧
    Trace (startExact 512 (2 ^ 24 + 512, .none)) (goneOnFormat (2 ^ 24 + 512) .none)
        (.error (.failed "format unit: gone")) ∧
      lastLength (goneOnFormat (2 ^ 24 + 512) .none) = some 512 := by
  refine ⟨⟨trace_goneOnFormat _ _ _, by decide +kernel, ?_⟩, trace_goneOnFormat _ _ _, by
    decide +kernel⟩
  rintro ⟨first, back, split, ⟨e, he, select⟩, lengths, -⟩
  have mem : e ∈ goneOnFormat 4096 .type1 := by
    rw [split]
    exact List.mem_append_right _ he
  have length := lengths e he select
  have asked : ∀ e ∈ goneOnFormat 4096 .type1, e.1.isSelect = true → e.1.length = some 4096 := by
    decide +kernel
  rw [asked e mem select] at length
  exact absurd length (by decide)

end FormatStart

end StormDrive
