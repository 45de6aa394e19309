import StormDrive.Steps

set_option relaxedAutoImplicit false
set_option autoImplicit false

/-!
# The body of a job request

A request for a worker job is read twice: as any JSON value, to see whether it is a dry run, and as
the request that the worker gets (`worker.rs`).

## Main definitions

* `Json` — a JSON document.
* `JobRequest.ofJson` — the request in a document.
* `Serde` — the reader of JSON texts, as it is used.

## Main results

* `JobRequest.dryRun_of_isDry` — **a document that looks like a dry run is one**.

## Implementation notes

The members of an object stand in the order of the text, equal ones too. How a selection and the
steps are read is a parameter.
-/

namespace StormDrive

/-! ## JSON documents -/

/-- A JSON document; a number is its text. -/
inductive Json
  | null
  | bool (b : Bool)
  | num (text : String)
  | str (s : String)
  | arr (values : List Json)
  | obj (members : List (String × Json))

namespace Json

/-- The member of an object, the last of those with this name; otherwise null. -/
def index (v : Json) (key : String) : Json :=
  match v with
  | obj members => ((members.reverse.find? fun m => m.1 = key).map Prod.snd).getD null
  | _ => null

def isTrue : Json → Bool
  | bool true => true
  | _ => false

def readBool : Json → Option Bool
  | bool b => some b
  | _ => none

def readString : Json → Option String
  | str s => some s
  | _ => none

def readStrings : Json → Option (List String)
  | arr values => values.mapM readString
  | _ => none

/-- What is indexed and true is a member of the object. -/
lemma mem_of_index {v : Json} {key : String} (h : (v.index key).isTrue = true) :
    ∃ members, v = obj members ∧ (key, bool true) ∈ members := by
  cases v with
  | obj members =>
    refine ⟨members, rfl, ?_⟩
    rw [index] at h
    cases found : members.reverse.find? fun m => m.1 = key with
    | none =>
      rw [found] at h
      exact absurd h Bool.false_ne_true
    | some m =>
      rw [found] at h
      have mem := List.mem_reverse.mp (List.mem_of_find?_eq_some found)
      have name : m.1 = key := by simpa using List.find?_some found
      obtain ⟨k, u⟩ := m
      obtain rfl : k = key := name
      cases u with
      | bool b =>
        obtain rfl : b = true := by
          cases b with
          | true => rfl
          | false => exact absurd h Bool.false_ne_true
        exact mem
      | _ => exact absurd h Bool.false_ne_true
  | _ => exact absurd h Bool.false_ne_true

end Json

/-! ## Job requests -/

/-- Which drives. Every field that is given must match. -/
structure Select where
  drives : List String := []
  shelf : Option String := none
  bays : Option String := none
  model : Option String := none
  unusable : Bool := false
  deriving DecidableEq

/-- A job request, with its selection. -/
structure JobRequest extends Request where
  select : Select
  deriving DecidableEq

namespace JobRequest

/-- How a selection and the steps are read. -/
structure Readers where
  select : Json → Option Select
  steps : Json → Option (List Step)

/-- The members that were read so far. -/
structure Slots where
  select : Option Select := none
  steps : Option (List Step) := none
  destroy : Option (List String) := none
  iKnowInUse : Option (List String) := none
  dryRun : Option Bool := none

/-- A member goes into its slot, which must be free. -/
def once {α : Type} (slot : Option α) (value : Option α) : Option (Option α) :=
  match slot with
  | some _ => none
  | none => value.map some

/-- One member; a name that the request does not have is passed over. -/
def Slots.member (readers : Readers) (s : Slots) (m : String × Json) : Option Slots :=
  match m.1 with
  | "select" => (once s.select (readers.select m.2)).map fun x => { s with select := x }
  | "steps" => (once s.steps (readers.steps m.2)).map fun x => { s with steps := x }
  | "destroy" => (once s.destroy m.2.readStrings).map fun x => { s with destroy := x }
  | "i_know_in_use" | "iKnowInUse" =>
    (once s.iKnowInUse m.2.readStrings).map fun x => { s with iKnowInUse := x }
  | "dry_run" | "dryRun" => (once s.dryRun m.2.readBool).map fun x => { s with dryRun := x }
  | _ => some s

/-- The request: the selection and the steps must be there, the rest has defaults. -/
def Slots.finish (s : Slots) : Option JobRequest :=
  match s.select, s.steps with
  | some select, some steps => some
    { select, steps
      destroy := s.destroy.getD []
      iKnowInUse := s.iKnowInUse.getD []
      dryRun := s.dryRun.getD false }
  | _, _ => none

/-- A member that may be left out at the end of a list. -/
def atEnd {α : Type} (value : Option Json) (read : Json → Option α) (default : α) : Option α :=
  match value with
  | some v => read v
  | none => some default

/-- The members in their order, without their names. -/
def ofValues (readers : Readers) : List Json → Option JobRequest
  | select :: steps :: rest =>
    if 3 < rest.length then none
    else do
      let select ← readers.select select
      let steps ← readers.steps steps
      let destroy ← atEnd rest[0]? Json.readStrings []
      let iKnowInUse ← atEnd rest[1]? Json.readStrings []
      let dryRun ← atEnd rest[2]? Json.readBool false
      return { select, steps, destroy, iKnowInUse, dryRun }
  | _ => none

/-- **The request in a document**. -/
def ofJson (readers : Readers) : Json → Option JobRequest
  | .obj members => (members.foldlM (Slots.member readers) {}).bind Slots.finish
  | .arr values => ofValues readers values
  | _ => none

/-- The document looks like a dry run. -/
def isDry (v : Json) : Bool := (v.index "dry_run").isTrue || (v.index "dryRun").isTrue

/-! ## Dry runs -/

/-- A name under which a dry run is asked for. -/
def IsDryName (name : String) : Prop := name = "dry_run" ∨ name = "dryRun"

variable {readers : Readers}

/-- A member under another name leaves the slot for the dry run as it is. -/
lemma dryRun_of_member {s t : Slots} {m : String × Json} (other : ¬ IsDryName m.1)
    (read : s.member readers m = some t) : t.dryRun = s.dryRun := by
  unfold Slots.member at read
  split at read
  case h_6 | h_7 => simp_all [IsDryName]
  case h_8 =>
    obtain rfl := Option.some.inj read
    rfl
  all_goals
    obtain ⟨x, -, rfl⟩ := Option.map_eq_some_iff.mp read
    rfl

/-- A member under its name fills the slot for the dry run, which was free. -/
lemma dryRun_of_named {s t : Slots} {m : String × Json} (named : IsDryName m.1)
    (read : s.member readers m = some t) : s.dryRun = none ∧ t.dryRun = m.2.readBool := by
  obtain ⟨name, v⟩ := m
  have same : s.member readers (name, v) =
      (once s.dryRun v.readBool).map fun x => { s with dryRun := x } := by
    obtain rfl | rfl := named
    · rfl
    · rfl
  rw [same] at read
  obtain ⟨x, filled, rfl⟩ := Option.map_eq_some_iff.mp read
  cases slot : s.dryRun with
  | some b =>
    rw [slot] at filled
    exact absurd filled nofun
  | none =>
    rw [slot] at filled
    obtain ⟨b, value, rfl⟩ := Option.map_eq_some_iff.mp filled
    exact ⟨rfl, value.symm⟩

/-- A slot that is full stays as it is. -/
lemma dryRun_of_full {members : List (String × Json)} {s t : Slots} {b : Bool}
    (full : s.dryRun = some b) (read : members.foldlM (Slots.member readers) s = some t) :
    t.dryRun = some b := by
  induction members generalizing s with
  | nil =>
    obtain rfl := Option.some.inj read
    exact full
  | cons m members ih =>
    obtain ⟨u, first, rest⟩ := Option.bind_eq_some_iff.mp read
    by_cases named : IsDryName m.1
    · exact absurd ((dryRun_of_named named first).1.symm.trans full) nofun
    · exact ih ((dryRun_of_member named first).trans full) rest

/-- A member that says so makes a dry run. -/
lemma dryRun_of_mem {members : List (String × Json)} {s t : Slots} {name : String} {b : Bool}
    (named : IsDryName name) (mem : (name, Json.bool b) ∈ members)
    (read : members.foldlM (Slots.member readers) s = some t) : t.dryRun = some b := by
  induction members generalizing s with
  | nil => exact absurd mem List.not_mem_nil
  | cons m members ih =>
    obtain ⟨u, first, rest⟩ := Option.bind_eq_some_iff.mp read
    obtain rfl | mem := List.mem_cons.mp mem
    · exact dryRun_of_full (dryRun_of_named named first).2 rest
    · exact ih mem rest

/-- **A document that looks like a dry run is one**, if it is a request at all.

**Proof sketch.** What is indexed is a member (`Json.mem_of_index`), a member fills the slot
(`dryRun_of_mem`), and no second one may (`dryRun_of_full`). -/
theorem dryRun_of_isDry {v : Json} {r : JobRequest} (dry : isDry v = true)
    (read : ofJson readers v = some r) : r.dryRun = true := by
  have some_name : ∃ name members, IsDryName name ∧ v = .obj members ∧
      (name, Json.bool true) ∈ members := by
    rcases Bool.or_eq_true_iff.mp dry with h | h
    · obtain ⟨members, is, mem⟩ := Json.mem_of_index h
      exact ⟨_, members, .inl rfl, is, mem⟩
    · obtain ⟨members, is, mem⟩ := Json.mem_of_index h
      exact ⟨_, members, .inr rfl, is, mem⟩
  obtain ⟨name, members, named, rfl, mem⟩ := some_name
  obtain ⟨s, slots, done⟩ := Option.bind_eq_some_iff.mp read
  have filled := dryRun_of_mem named mem slots
  unfold Slots.finish at done
  split at done
  · obtain rfl := Option.some.inj done
    rw [filled]
    rfl
  · exact absurd done nofun

end JobRequest

/-! ## Reading texts -/

/-- The reader of JSON texts, as it is used: for any value, and for a job request. -/
structure Serde where
  value : List UInt8 → Option Json
  request : List UInt8 → Option JobRequest

/-- **Both readings of a text are of one document**. -/
def Serde.Reads (j : Serde) (readers : JobRequest.Readers) : Prop :=
  ∀ {text v r}, j.value text = some v → j.request text = some r →
    JobRequest.ofJson readers v = some r

end StormDrive
