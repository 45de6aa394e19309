import Mathlib.Data.Fintype.Defs
import Mathlib.Data.String.Basic
import StormDrive.Interleave.Changes
import StormDrive.Interleave.Runs

set_option relaxedAutoImplicit false
set_option autoImplicit false

/-!
# The conditions of a shelf

What the controller tells of a shelf when a condition of it changes (`controller.rs`: `shelves`;
`shelfobj.rs`): the Events on its Shelf object and the entries of the event log.

## Main definitions

* `transitions`, `conditionsJson`, `fingerprint` — what is told, what is written, and what decides
  whether to write.
* `step` — the passes of the controller call by call, with the answers of the apiserver, and with
  Shelf objects that are deleted and made by others at any time.
* `TellsOnce`, `Steady` — what is promised: of each object, and of each condition.
* `Clean` — a step that loses nothing that was told.

## Main results

* `Work.filterMap_tellings` — what a pass tells of a condition: its status, if it changed.

## Implementation notes

What a report says of each condition is taken as given, and with it the rest of the status that the
fingerprint has. Only Shelf objects with conditions that were written here have any. All Events of
a pass on one shelf are one step, since nothing reads them; each may be lost. An Event is of the
object that the pass found or made, also where the answer to making it had no object in it.
-/

namespace StormDrive

namespace ShelfConditions

/-! ## Conditions -/

/-- The conditions of a shelf. -/
inductive Kind
  | healthy
  | singlePath
  | psuDegraded
  | fanDegraded
  | overTemp
  deriving DecidableEq

def Kind.all : List Kind := [.healthy, .singlePath, .psuDegraded, .fanDegraded, .overTemp]

instance : Fintype Kind where
  elems := ⟨Kind.all, by decide⟩
  complete k := by cases k <;> decide

def Kind.name : Kind → String
  | .healthy => "Healthy"
  | .singlePath => "SinglePath"
  | .psuDegraded => "PSUDegraded"
  | .fanDegraded => "FanDegraded"
  | .overTemp => "OverTemp"

/-- The status that is no problem. -/
def Kind.good (k : Kind) : Bool := k = .healthy

structure Condition where
  kind : Kind
  status : Bool
  reason : String
  message : String
  deriving DecidableEq

/-- What a report says of one condition. -/
structure Said where
  status : Bool
  reason : String
  message : String

/-- What a report says of the conditions. -/
abbrev Reading := Kind → Said

def Reading.condition (r : Reading) (k : Kind) : Condition :=
  ⟨k, (r k).status, (r k).reason, (r k).message⟩

/-- The five conditions. -/
def conditions (r : Reading) : List Condition :=
  Kind.all.map r.condition

/-- A condition in the status of an object. -/
structure Shown where
  type : Kind
  status : Bool
  reason : String
  message : String
  lastTransitionTime : String
  deriving DecidableEq

/-- The condition of a kind. -/
def find (l : List Shown) (k : Kind) : Option Shown := l.find? (·.type = k)

def statusText (st : Bool) : String := if st then "True" else "False"

/-- The time that goes with a condition: the one it had, if its status is the same. -/
def Condition.since (c : Condition) (previous : List Shown) (time : String) : String :=
  match find previous c.kind with
  | some p => if p.status = c.status then p.lastTransitionTime else time
  | none => time

/-- The conditions as they are written. -/
def conditionsJson (now : List Condition) (previous : List Shown) (time : String) : List Shown :=
  now.map fun c => ⟨c.kind, c.status, c.reason, c.message, c.since previous time⟩

/-- What is told of a condition. -/
structure Telling where
  kind : String
  reason : String
  message : String
  deriving DecidableEq

/-- It is a problem. -/
def Condition.badNow (c : Condition) : Bool := if c.kind = .healthy then !c.status else c.status

def Condition.telling (c : Condition) : Telling where
  kind := if c.badNow then "Warning" else "Normal"
  reason := c.kind.name ++ statusText c.status
  message := c.message

/-- What is told: the conditions whose status changed. One that was not reported before counts only
when it is a problem. -/
def transitions (now : List Condition) (previous : List Shown) : List Telling :=
  now.filterMap fun c =>
    match find previous c.kind with
    | some p => if p.status = c.status then none else some c.telling
    | none => if c.badNow then some c.telling else none

/-- What is told of a shelf that its node does not see any more. -/
def notSeen (key node : String) : Telling :=
  ⟨"Warning", "NotSeen", "shelf " ++ key ++ " is no longer seen by " ++ node⟩

/-! ## Reports and objects -/

/-- A text as the value of a label: its characters that are valid there, at most 63 of them, from
the first letter or digit to the last. -/
def labelValue (v : String) : Option String :=
  let valid := (v.toList.map fun c =>
    if c.isAlphanum ∨ c = '.' ∨ c = '_' ∨ c = '-' then c else '_').take 63
  let trimmed := ((valid.dropWhile (!·.isAlphanum)).reverse.dropWhile (!·.isAlphanum)).reverse
  if trimmed = [] then none else some (String.ofList trimmed)

/-- A report of a shelf, as its object has it: `kept` is what else the fingerprint has of the
status. -/
structure Report (σ : Type) where
  reading : Reading
  kept : σ

/-- The status of a Shelf object as it is written. -/
structure Status (σ : Type) where
  conditions : List Shown
  kept : σ

def shelfObject {σ : Type} (rep : Report σ) (previous : List Shown) (time : String) : Status σ :=
  ⟨conditionsJson (conditions rep.reading) previous time, rep.kept⟩

/-- What decides whether the status must be rewritten: everything but the transition times. -/
def fingerprint {σ : Type} (st : Status σ) : List (Kind × Bool × String × String) × σ :=
  (st.conditions.map fun c => (c.type, c.status, c.reason, c.message), st.kept)

/-- A Shelf object: which one of its name it is, the node that writes it, whether its shelf is
seen, and its conditions, none before they are first written. -/
structure Object where
  uid : ℕ
  writer : Option String
  present : Option Bool
  conditions : List Shown

/-- What was told, and about which object. An entry of the log has no object; it is kept here with
it. -/
structure Note where
  about : ℕ
  telling : Telling

/-- What there is of a shelf: its object and how many were made under its name, what the controller
wrote last and when, what was told of it, and the readings that passes have come to, each with the
object that it was for. -/
structure Shelf (σ : Type) where
  object : Option Object := none
  made : ℕ := 0
  written : Option ((List (Kind × Bool × String × String) × σ) × ℕ) := none
  events : List Note := []
  log : List Note := []
  seen : List (ℕ × Reading) := []

/-! ## Passes -/

section Passes

variable {σ : Type}

/-- A pass at one shelf: what it listed, the shelves that are reported and those still to come; the
shelf, its report and the time; its object as listed, and the object that it tells about. -/
structure Work (σ : Type) where
  listed : String → Option Object
  reported : List String
  todo : List (String × Report σ)
  key : String
  report : Report σ
  time : String
  cur : Option Object
  target : ℕ

/-- The conditions that the object had. -/
def Work.previous (w : Work σ) : List Shown := (w.cur.map (·.conditions)).getD []

/-- The status that is to be written. -/
def Work.status (w : Work σ) : Status σ := shelfObject w.report w.previous w.time

/-- What is to be told. -/
def Work.tellings (w : Work σ) : List Telling :=
  transitions (conditions w.report.reading) w.previous

/-- How far a pass is. -/
inductive Pass (σ : Type)
  | idle
  /-- It goes on with the next shelf. -/
  | shelves (listed : String → Option Object) (reported : List String)
      (todo : List (String × Report σ))
  | telling (w : Work σ)
  | labelling (w : Work σ)
  | writing (w : Work σ)
  /-- It goes through the shelves that are not seen any more. -/
  | leaving (listed : String → Option Object) (reported left : List String)

/-- The shelves and the pass. -/
structure State (σ : Type) where
  shelf : String → Shelf σ := fun _ => {}
  pass : Pass σ := .idle

/-- What becomes of a call: it is done, it is done and the answer is lost, or it fails. -/
inductive Answer
  | done
  | lost
  | failed
  deriving DecidableEq

/-- The shelves that are reported, each once. -/
structure Reports (σ : Type) where
  list : List (String × Report σ)
  nodup : (list.map Prod.fst).Nodup

/-- What can happen. -/
inductive Act (σ : Type)
  /-- Someone makes an object, or deletes it. -/
  | make (key : String) (writer : Option String)
  | remove (key : String)
  /-- A pass lists the objects; `none` if that fails. -/
  | list (reports : Option (Reports σ))
  /-- It turns to the next shelf, and makes its object if it listed none. -/
  | visit (time : String) (a : Answer)
  /-- It tells what changed, and some Events are lost. -/
  | tell (lost : String → Bool) (now : ℕ)
  | label (done : Bool)
  | write (a : Answer) (now : ℕ)
  | leave (key : String) (a : Answer) (lost : Bool)
  | finish
  /-- The process ends. -/
  | stop

/-- How often a status is rewritten at least: 300 s, in nanoseconds. -/
def refresh : ℕ := 300 * 1000000000

/-- The status must be written. -/
def Shelf.Due [DecidableEq σ] (x : Shelf σ) (st : Status σ) (now : ℕ) : Prop :=
  match x.written with
  | some (p, since) => p ≠ fingerprint st ∨ refresh ≤ now - since
  | none => True

instance [DecidableEq σ] (x : Shelf σ) (st : Status σ) (now : ℕ) : Decidable (x.Due st now) :=
  match h : x.written with
  | some (p, since) =>
    decidable_of_iff (p ≠ fingerprint st ∨ refresh ≤ now - since) (by rw [Shelf.Due, h])
  | none => isTrue (by rw [Shelf.Due, h]; trivial)

/-- A new object under the name. -/
def Shelf.make (x : Shelf σ) (writer : Option String) : Shelf σ :=
  { x with object := some ⟨x.made, writer, none, []⟩, made := x.made + 1 }

/-- What a pass tells. -/
def Shelf.tell (x : Shelf σ) (w : Work σ) (lost : String → Bool) : Shelf σ :=
  { x with
    events := x.events ++
      (w.tellings.filter fun t => !lost t.reason).map fun t => ⟨w.target, t⟩
    log := x.log ++ w.tellings.map fun t => ⟨w.target, t⟩
    seen := x.seen ++ [(w.target, w.report.reading)] }

variable [DecidableEq σ] (node : String)

/-- The shelf under a key becomes another, and the pass goes on. -/
def State.put (s : State σ) (key : String) (x : Shelf σ) (p : Pass σ) : State σ :=
  ⟨Function.update s.shelf key x, p⟩

/-- The object of a shelf that was not listed is made; one that is there by now is as good. -/
def State.create (s : State σ) (w : Work σ) (a : Answer) : State σ :=
  let x := s.shelf w.key
  match x.object with
  | some o => { s with pass := if a = .done then .telling { w with target := o.uid } else .idle }
  | none =>
    match a with
    | .done => s.put w.key (x.make (labelValue node)) (.telling { w with target := x.made })
    | .lost => s.put w.key (x.make (labelValue node)) .idle
    | .failed => { s with pass := .idle }

/-- The next shelf. -/
def State.visit (s : State σ) (time : String) (a : Answer) : State σ :=
  match s.pass with
  | .shelves listed reported [] => { s with pass := .leaving listed reported [] }
  | .shelves listed reported ((key, report) :: todo) =>
    match listed key with
    | some o =>
      -- another node's view of a shared shelf
      if o.writer.isSome ∧ o.writer ≠ labelValue node then
        { s with pass := .shelves listed reported todo }
      else { s with pass := .telling ⟨listed, reported, todo, key, report, time, some o, o.uid⟩ }
    | none => s.create node ⟨listed, reported, todo, key, report, time, none, 0⟩ a
  | _ => s

/-- The changes are told, and the status is written if it is due. -/
def State.tell (s : State σ) (lost : String → Bool) (now : ℕ) : State σ :=
  match s.pass with
  | .telling w =>
    let x := s.shelf w.key
    s.put w.key (x.tell w lost)
      (if x.Due w.status now then if w.cur.isSome then .labelling w else .writing w
        else .shelves w.listed w.reported w.todo)
  | _ => s

/-- The labels are written, or not. -/
def State.label (s : State σ) (done : Bool) : State σ :=
  match s.pass with
  | .labelling w =>
    let x := s.shelf w.key
    let object :=
      if done then x.object.map fun o => { o with writer := labelValue node <|> o.writer }
      else x.object
    s.put w.key { x with object := object } (.writing w)
  | _ => s

/-- The status is written; where there is no object, or no answer, the pass ends. -/
def State.write (s : State σ) (a : Answer) (now : ℕ) : State σ :=
  match s.pass with
  | .writing w =>
    let x := s.shelf w.key
    match x.object with
    | none => { s with pass := .idle }
    | some o =>
      let new : Object := { o with present := some true, conditions := w.status.conditions }
      match a with
      | .done => s.put w.key
          { x with object := some new, written := some (fingerprint w.status, now) }
          (.shelves w.listed w.reported w.todo)
      | .lost => s.put w.key { x with object := some new } .idle
      | .failed => { s with pass := .idle }
  | _ => s

/-- A shelf that this node wrote and that is not seen any more. -/
def State.leave (s : State σ) (key : String) (a : Answer) (lost : Bool) : State σ :=
  match s.pass with
  | .leaving listed reported left =>
    if key ∉ reported ∧ key ∉ left ∧
        (listed key).any (fun o => o.writer = labelValue node && o.present ≠ some false) then
      let x := s.shelf key
      match x.object with
      | none => { s with pass := .idle }
      | some o =>
        let new : Object := { o with present := some false }
        match a with
        | .done => s.put key
            { x with
              object := some new
              written := none
              events := if lost then x.events else x.events ++
                [⟨((listed key).map (·.uid)).getD 0, notSeen key node⟩] }
            (.leaving listed reported (key :: left))
        | .lost => s.put key { x with object := some new } .idle
        | .failed => { s with pass := .idle }
    else s
  | _ => s

def step (s : State σ) : Act σ → State σ
  | .make key writer =>
    match (s.shelf key).object with
    | some _ => s
    | none => s.put key ((s.shelf key).make writer) s.pass
  | .remove key => s.put key { s.shelf key with object := none } s.pass
  | .list none => s
  | .list (some r) =>
    match s.pass with
    | .idle =>
      { s with pass := .shelves (fun key => (s.shelf key).object) (r.list.map Prod.fst) r.list }
    | _ => s
  | .visit time a => s.visit node time a
  | .tell lost now => s.tell lost now
  | .label done => s.label node done
  | .write a now => s.write a now
  | .leave key a lost => s.leave node key a lost
  | .finish =>
    match s.pass with
    | .leaving .. => { s with pass := .idle }
    | _ => s
  | .stop => ⟨fun key => { s.shelf key with written := none }, .idle⟩

end Passes

/-! ## The promise -/

/-- The status of a condition that is told under a reason. -/
def statusOf (k : Kind) (reason : String) : Option Bool :=
  if reason = k.name ++ statusText true then some true
  else if reason = k.name ++ statusText false then some false
  else none

/-- What was told of a condition of an object. -/
def toldOf (notes : List Note) (u : ℕ) (k : Kind) : List Bool :=
  (notes.filter (·.about = u)).filterMap fun n => statusOf k n.telling.reason

/-- The status of a condition that an object shows; the good one if it shows none. -/
def shows (l : List Shown) (k : Kind) : Bool := ((find l k).map (·.status)).getD k.good

section Promise

variable {σ : Type}

namespace Shelf

/-- The statuses of a condition in the readings that were for an object. -/
def seenOf (x : Shelf σ) (u : ℕ) (k : Kind) : List Bool :=
  (x.seen.filter (·.1 = u)).map fun e => (e.2 k).status

/-- The last of them; the good one if there was none. -/
def last (x : Shelf σ) (u : ℕ) (k : Kind) : Bool := (x.seenOf u k).getLastD k.good

/-- **Each change is told once**: the Events of a condition of an object, and the entries of the
log, are the changes of its status in order, where a new object begins with the good one. -/
structure TellsOnce (x : Shelf σ) : Prop where
  events : ∀ u k, toldOf x.events u k = Changes.of k.good (x.seenOf u k)
  log : ∀ u k, toldOf x.log u k = Changes.of k.good (x.seenOf u k)

end Shelf

/-- Each change of each shelf is told once. -/
def TellsOnce (s : State σ) : Prop := ∀ key, (s.shelf key).TellsOnce

variable [DecidableEq σ] (node : String)

/-- The time of a condition in an object moves only when its status does, and then to the status
that was told last. -/
def Steady (s : State σ) (a : Act σ) : Prop :=
  ∀ key o o', (s.shelf key).object = some o → ((step node s a).shelf key).object = some o' →
    o'.uid = o.uid → ∀ k p p', find o.conditions k = some p → find o'.conditions k = some p' →
      p'.lastTransitionTime ≠ p.lastTransitionTime →
        p'.status ≠ p.status ∧
          (toldOf (s.shelf key).events o.uid k).getLastD k.good = p'.status

/-! ## Clean steps -/

/-- The pass finds the status of a condition changed. -/
def Work.Changed (w : Work σ) (k : Kind) : Prop :=
  (w.report.reading k).status ≠ shows w.previous k

/-- What a pass tells is kept: it is written to the object that it was told of, if that is still
there; and another object that took its place is not written, or has no problem. -/
def Work.Kept (w : Work σ) (written : Bool) : Option Object → Prop
  | none => True
  | some o =>
    if o.uid = w.target then ∀ k, w.Changed k → written = true
    else written = true → ∀ k, (w.report.reading k).status = k.good

/-- **A step that loses nothing.** A change is told only by Events that arrive, where the status is
due to be written; and the status is then written. -/
def Clean (s : State σ) : Act σ → Prop
  | .tell lost now =>
    match s.pass with
    | .telling w => ∀ k, w.Changed k →
        lost (k.name ++ statusText (w.report.reading k).status) = false ∧
          (s.shelf w.key).Due w.status now
    | _ => True
  | .write a _ =>
    match s.pass with
    | .writing w => w.Kept (a != .failed) (s.shelf w.key).object
    | _ => True
  | .stop =>
    match s.pass with
    | .labelling w => w.Kept false (s.shelf w.key).object
    | .writing w => w.Kept false (s.shelf w.key).object
    | _ => True
  | _ => True

instance (w : Work σ) (k : Kind) : Decidable (w.Changed k) := inferInstanceAs (Decidable (_ ≠ _))

instance (w : Work σ) (written : Bool) : ∀ o, Decidable (w.Kept written o)
  | none => isTrue trivial
  | some o => inferInstanceAs (Decidable (if o.uid = w.target then ∀ k, w.Changed k → written = true
      else written = true → ∀ k, (w.report.reading k).status = k.good))

instance (s : State σ) : ∀ a, Decidable (Clean s a)
  | .tell lost now =>
    match h : s.pass with
    | .telling w =>
      decidable_of_iff (∀ k, w.Changed k →
        lost (k.name ++ statusText (w.report.reading k).status) = false ∧
          (s.shelf w.key).Due w.status now) (by rw [Clean, h])
    | .idle | .shelves .. | .labelling _ | .writing _ | .leaving .. =>
      isTrue (by rw [Clean, h]; trivial)
  | .write a _ =>
    match h : s.pass with
    | .writing w =>
      decidable_of_iff (w.Kept (a != .failed) (s.shelf w.key).object) (by rw [Clean, h])
    | .idle | .shelves .. | .labelling _ | .telling _ | .leaving .. =>
      isTrue (by rw [Clean, h]; trivial)
  | .stop =>
    match h : s.pass with
    | .labelling w | .writing w =>
      decidable_of_iff (w.Kept false (s.shelf w.key).object) (by rw [Clean, h])
    | .idle | .shelves .. | .telling _ | .leaving .. => isTrue (by rw [Clean, h]; trivial)
  | .make .. | .remove _ | .list _ | .visit .. | .label _ | .leave .. | .finish => isTrue trivial

end Promise

/-! ## What is told -/

section Tellings

lemma statusOf_reason (k k' : Kind) (b : Bool) :
    statusOf k (k'.name ++ statusText b) = if k' = k then some b else none := by
  revert k k' b
  decide

lemma statusOf_notSeen (k : Kind) (key node : String) :
    statusOf k (notSeen key node).reason = none := by
  show statusOf k "NotSeen" = none
  revert k
  decide

/-- A condition that was not shown counts as good. -/
lemma Condition.badNow_eq (c : Condition) : c.badNow = decide (c.status ≠ c.kind.good) := by
  obtain ⟨kind, status, reason, message⟩ := c
  cases kind <;> cases status <;> rfl

/-- What is told are the conditions whose status is not the one that is shown. -/
lemma transitions_eq (r : Reading) (previous : List Shown) :
    transitions (conditions r) previous = Kind.all.filterMap fun k =>
      if (r k).status = shows previous k then none else some (r.condition k).telling := by
  rw [transitions, conditions, List.filterMap_map]
  congr 1
  funext k
  have kind : (r.condition k).kind = k := rfl
  have status : (r.condition k).status = (r k).status := rfl
  rw [Function.comp_apply, (r.condition k).badNow_eq, kind, status, shows]
  cases find previous k with
  | none => by_cases same : (r k).status = k.good <;> simp [same]
  | some p =>
    by_cases same : (r k).status = p.status
    · simp [same]
    · simp [same, Ne.symm same]

/-- What maps all but one of some distinct things to nothing. -/
lemma filterMap_one {α β : Type*} {l : List α} (nodup : l.Nodup) {a : α} (mem : a ∈ l)
    {f : α → Option β} (others : ∀ b, b ≠ a → f b = none) : l.filterMap f = (f a).toList := by
  obtain ⟨pre, post, rfl⟩ := List.append_of_mem mem
  have nothing : ∀ m : List α, a ∉ m → m.filterMap f = [] := fun m no =>
    List.filterMap_eq_nil_iff.mpr fun b hb => others b fun same => no (same ▸ hb)
  rw [List.nodup_middle, List.nodup_cons, List.mem_append, not_or] at nodup
  rw [List.filterMap_append, List.filterMap_cons, nothing pre nodup.1.1, nothing post nodup.1.2]
  cases f a <;> rfl

/-- What is written shows what was read. -/
lemma find_conditionsJson (r : Reading) (previous : List Shown) (time : String) (k : Kind) :
    find (conditionsJson (conditions r) previous time) k =
      some ⟨k, (r k).status, (r k).reason, (r k).message, (r.condition k).since previous time⟩ := by
  cases k <;> rfl

lemma shows_conditionsJson (r : Reading) (previous : List Shown) (time : String) (k : Kind) :
    shows (conditionsJson (conditions r) previous time) k = (r k).status := by
  rw [shows, find_conditionsJson]
  rfl

lemma toldOf_append (l m : List Note) (u : ℕ) (k : Kind) :
    toldOf (l ++ m) u k = toldOf l u k ++ toldOf m u k := by
  rw [toldOf, List.filter_append, List.filterMap_append]
  rfl

variable {σ : Type} {w : Work σ}

/-- Of what a pass tells, what is of one condition: its status, if that changed. -/
lemma Work.filterMap_tellings (w : Work σ) (k : Kind) :
    w.tellings.filterMap (fun t => statusOf k t.reason) =
      if (w.report.reading k).status = shows w.previous k then []
      else [(w.report.reading k).status] := by
  rw [Work.tellings, transitions_eq, List.filterMap_filterMap,
    filterMap_one (a := k) (by decide) (by cases k <;> decide)]
  · split_ifs with same
    · rfl
    · have reason : ((w.report.reading.condition k).telling).reason =
          k.name ++ statusText (w.report.reading k).status := rfl
      rw [Option.bind_some, reason, statusOf_reason, if_pos rfl]
      rfl
  · intro k' other
    have reason : ((w.report.reading.condition k').telling).reason =
        k'.name ++ statusText (w.report.reading k').status := rfl
    split_ifs
    · rfl
    · rw [Option.bind_some, reason, statusOf_reason, if_neg other]

/-- No Event of a change is lost: all arrive. -/
lemma Work.filter_tellings {lost : String → Bool} (arrive : ∀ k, w.Changed k →
    lost (k.name ++ statusText (w.report.reading k).status) = false) :
    w.tellings.filter (fun t => !lost t.reason) = w.tellings := by
  rw [List.filter_eq_self, Work.tellings, transitions_eq]
  intro t mem
  obtain ⟨k, -, made⟩ := List.mem_filterMap.mp mem
  split_ifs at made with same
  obtain rfl := Option.some.inj made
  exact congrArg not (arrive k same)

/-- What is told about an object, of one condition. -/
lemma toldOf_map (l : List Telling) (target u : ℕ) (k : Kind) :
    toldOf (l.map fun t => ⟨target, t⟩) u k =
      if target = u then l.filterMap (fun t => statusOf k t.reason) else [] := by
  have about : ∀ n ∈ l.map fun t => (⟨target, t⟩ : Note), n.about = target := by
    intro n mem
    obtain ⟨t, -, rfl⟩ := List.mem_map.mp mem
    rfl
  rw [toldOf]
  split_ifs with same
  · rw [List.filter_eq_self.mpr fun n mem => decide_eq_true ((about n mem).trans same),
      List.filterMap_map]
    rfl
  · rw [List.filter_eq_nil_iff.mpr fun n mem => by simpa [about n mem] using same]
    rfl

end Tellings

end ShelfConditions

end StormDrive
