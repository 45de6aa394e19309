import Mathlib.Data.List.AList
import StormDrive.AssetItems
import StormDrive.Interleave.Runs
import StormDrive.JsonPatch
import StormDrive.Watch

set_option relaxedAutoImplicit false
set_option autoImplicit false

/-!
# The drives of a node as objects of the cluster

The controller keeps a `Drive` object on the apiserver for each drive of its node: it lists the
objects, puts those that differ from what it put last or were not put for a while, and deletes those
whose drive was forgotten (`controller.rs`, `drives` and `put_drive`).

## Main definitions

* `DriveObjects.Doc`, `DriveObjects.apiserverDrive` — what is put of a drive.
* `DriveObjects.World` — the objects, the inventory, what the controller remembers, and how far its
  pass is.
* `DriveObjects.World.step` — one call of a pass, or what others do meanwhile.
* `DriveObjects.World.Sound` — what was put shows, and what was deleted is not there.

## Main results

* `DriveObjects.World.Sound.patch`, `DriveObjects.World.Sound.stored`,
  `DriveObjects.World.Sound.remove` — **each call keeps that**.

## Implementation notes

Each call is a step, so that others write between any two calls of a pass. A call is served, or
served with its answer lost and then tried again, or given up, or refused. The status of a drive is
the projection of its record, which here is a part of the inventory; the locate LEDs, which the same
pass sets, are left out.
-/

namespace StormDrive

namespace DriveObjects

/-- A format that is asked for: the size of a block, and its protection. -/
abbrev Format := ℕ × Protection

/-- At least so often an object is put, in seconds. -/
def refresh : ℕ := 300

/-! ## What is put -/

/-- A character that a label value keeps. -/
def labelChar (c : Char) : Bool := c.isAlphanum || c = '.' || c = '_' || c = '-'

/-- The text without the characters at its ends that are neither letters nor digits. -/
def trimmed (l : List Char) : List Char :=
  ((l.dropWhile fun c => !c.isAlphanum).reverse.dropWhile fun c => !c.isAlphanum).reverse

/-- A text as the value of a label, or none if nothing is left of it. -/
def labelValue (v : String) : Option String :=
  let s := trimmed ((v.toList.map fun c => if labelChar c then c else '_').take 63)
  if s = [] then none else some (String.ofList s)

/-- A member of an object. -/
def member (v : Json) (k : String) : Option Json :=
  (v.members.reverse.find? fun m => m.1 = k).map Prod.snd

/-- A natural number of 64 bits. -/
def readU64 : Json → Option ℕ
  | .num text => text.toNat?.filter fun n => n < 2 ^ 64
  | _ => none

/-- A protection by its word. -/
def protectionOf : String → Option Protection
  | "none" => some .none
  | "type1" => some .type1
  | _ => none

/-- A protection: its word, or an object with its word alone. -/
def readProtection : Json → Option Protection
  | .str s => protectionOf s
  | .obj [(s, .null)] => protectionOf s
  | _ => none

/-- `wanted_format`: what the spec of an object asks for. -/
def wantedFormat (spec : Json) : Option Format := do
  let f ← member spec "format"
  let size ← readU64 (← member f "blockSize" <|> member f "block_size")
  let prot ← readProtection ((member f "protection").getD (.str "none"))
  pure (size % 2 ^ 32, prot)

/-- The labels, the spec and the status that are told of a drive. -/
structure Told where
  labels : List (String × Json)
  spec : List (String × Json)
  status : List (String × Json)
  deriving DecidableEq

/-- The fields of a spec that the node writes. The others are the user's. -/
def nodeFields : List String := ["designation", "fleet", "drain"]

/-- What is put of a drive: what is told of it, no name of which is there twice. In the labels and
the spec it names the node's alone. -/
structure Doc extends Told where
  name : String
  labels_proper : Json.ProperMembers labels
  labels_own : ∀ m ∈ labels, ∃ s, m.1 = "storm.io/" ++ s
  spec_proper : Json.ProperMembers spec
  spec_own : ∀ m ∈ spec, m.1 ∈ nodeFields
  status_proper : Json.ProperMembers status

/-- `drive_fingerprint`: what decides a rewrite, everything but when the drive was last seen. -/
def Doc.fingerprint (d : Doc) : Told :=
  { labels := d.labels, spec := d.spec, status := d.status.filter fun m => m.1 ≠ "lastSeen" }

/-- One drive of the inventory, with the projection of its record for the format it would get. -/
structure Entry where
  drive : Drive
  status : Option Format → List (String × Json)
  proper : ∀ want, Json.ProperMembers (status want)

/-- The name of a drive's object. -/
def Entry.name (e : Entry) : String := e.drive.id.uuid.text

/-- The drives of a node. -/
structure Inventory where
  entries : List Entry
  distinct : (entries.map Entry.name).Nodup

/-- A designation on the wire (`snake_case`). -/
def designationWord : Designation → String
  | .none => "none"
  | .reserved => "reserved"
  | .spare => "spare"
  | .failed => "failed"
  | .system => "system"

/-- A membership on the wire. -/
def fleetWord : Membership → String
  | .fleet => "fleet"
  | .out => "out"

/-- The spec that a node reports of a drive. -/
def specOf (d : Drive) : List (String × Json) :=
  [("designation", .str (designationWord d.designation)), ("fleet", .str (fleetWord d.membership)),
    ("drain", .bool (d.drain.any fun r => r.state = "running"))]

section Node

variable (node : String) (kind : DriveKind → String)

/-- The labels of a drive that are values of labels, without its path. -/
def labelsOf (d : Drive) : List (String × Json) :=
  ((Watch.driveLabels node kind d).filter fun l => l.1 ≠ "storm.io/path").filterMap fun l =>
    (labelValue l.2).map fun v => (l.1, .str v)

/-- Pairs that keep their names have each where it was. -/
lemma names_filterMap (f : String × String → Option Json) (l : List (String × String)) :
    List.Sublist ((l.filterMap fun x => (f x).map fun v => (x.1, v)).map Prod.fst)
      (l.map Prod.fst) := by
  induction l with
  | nil => exact List.Sublist.slnil
  | cons x l ih =>
    rw [List.filterMap_cons]
    cases f x with
    | none => exact ih.cons _
    | some v => exact ih.cons_cons _

lemma labelsOf_proper (d : Drive) : Json.ProperMembers (labelsOf node kind d) := by
  rw [Json.properMembers_iff]
  constructor
  · have keys : ((Watch.driveLabels node kind d).map Prod.fst).Nodup :=
      List.pairwise_map.mpr ((OrderedMap.increasing_ofList _).imp fun less => less.ne)
    have valid := names_filterMap (fun l => (labelValue l.2).map Json.str)
      ((Watch.driveLabels node kind d).filter fun l => l.1 ≠ "storm.io/path")
    simp only [Option.map_map] at valid
    exact keys.sublist (valid.trans (List.filter_sublist.map _))
  · intro m mem
    obtain ⟨l, -, value⟩ := List.mem_filterMap.mp mem
    obtain ⟨v, -, rfl⟩ := Option.map_eq_some_iff.mp value
    exact Json.proper_str v

lemma labelsOf_own (d : Drive) : ∀ m ∈ labelsOf node kind d, ∃ s, m.1 = "storm.io/" ++ s := by
  intro m mem
  obtain ⟨l, kept, value⟩ := List.mem_filterMap.mp mem
  obtain ⟨v, -, rfl⟩ := Option.map_eq_some_iff.mp value
  have own := OrderedMap.mem_of_mem_ofList (List.mem_of_mem_filter kept)
  obtain first | place := List.mem_append.mp own
  · simp only [List.mem_cons, List.not_mem_nil, or_false] at first
    obtain rfl | rfl | rfl | rfl := first
    · exact ⟨"component", rfl⟩
    · exact ⟨"node", rfl⟩
    · exact ⟨"path", rfl⟩
    · exact ⟨"kind", rfl⟩
  · obtain ⟨x, -, rfl⟩ := List.mem_map.mp place
    exact ⟨x.1, rfl⟩

lemma specOf_own (d : Drive) : ∀ m ∈ specOf d, m.1 ∈ nodeFields := by
  simp [specOf, nodeFields]

lemma specOf_proper (d : Drive) : Json.ProperMembers (specOf d) := by
  rw [Json.properMembers_iff]
  simp [specOf]

/-- `apiserver_drive_with`, and which of the wishes the format is of. -/
def apiserverDrive (e : Entry) (want : Option Format) (source : String) : Doc where
  name := e.name
  labels := labelsOf node kind e.drive
  spec := specOf e.drive
  status := Json.place (e.status want) "formatFrom" (.str source)
  labels_proper := labelsOf_proper node kind e.drive
  labels_own := labelsOf_own node kind e.drive
  spec_proper := specOf_proper e.drive
  spec_own := specOf_own e.drive
  status_proper := (e.proper want).place "formatFrom" (Json.proper_str source)

/-! ## The objects and the controller -/

/-- An object, as the apiserver has it. -/
structure Object where
  labels : Json
  spec : Json
  status : Json

/-- An object shows what is told. -/
structure Told.ShownBy (t : Told) (o : Object) : Prop where
  labels : Json.Shows o.labels (.obj t.labels)
  spec : Json.Shows o.spec (.obj t.spec)
  status : Json.Shows o.status (.obj t.status)

/-- A pass: when it began, what it puts, and the objects of this node that it found without a
drive. -/
structure Pass where
  start : ℕ
  docs : List Doc
  gone : List String

/-- How far the controller's pass is: at which object, with which call, and what comes after. -/
inductive Phase
  | idle
  | putting (p : Pass) (todo : List Doc)
  | creating (p : Pass) (d : Doc) (todo : List Doc)
  | status (p : Pass) (d : Doc) (todo : List Doc)
  | deleting (p : Pass) (todo : List String)
  | done (p : Pass)

/-- What was done to an object last: a put was begun, or finished, it was deleted, or others did
something. -/
inductive Last
  | others | begun | put | removed
  deriving DecidableEq

/-- The cluster and the controller. -/
structure World where
  objects : AList fun _ : String => Object
  inventory : Inventory
  /-- The formats that shelves ask for. -/
  defaults : String → Option Format
  /-- What was put last of each name, and when. -/
  written : String → Option (Told × ℕ)
  phase : Phase
  now : ℕ
  last : String → Last

/-- What becomes of a call. -/
inductive Fate
  | served
  /-- Served, but the answer is lost, and the call is tried again. -/
  | lost
  /-- Given up without an answer. -/
  | gaveUp (served : Bool)
  | refused

/-- What happens: time passes, or the inventory changes, or the wishes of the shelves; others write
an object or delete it; the controller starts again; a pass begins, and does its next call. -/
inductive Event
  | tick (secs : ℕ)
  | inventory (i : Inventory)
  | defaults (d : String → Option Format)
  | others (name : String) (o : Option Object)
  | restart
  | list
  | next (f : Fate)

namespace World

/-- An object that the label selector takes: one of this node. -/
def selected (o : Object) : Bool :=
  Json.readString (o.labels.index "storm.io/component") = some "stormdrive" &&
    Json.readString (o.labels.index "storm.io/node") = some ((labelValue node).getD "")

/-- The objects that a list returns. -/
def listed (w : World) : List (String × Object) :=
  (w.objects.entries.map fun e => (e.1, e.2)).filter fun x => selected node x.2

/-- The format that a drive would get, and whose wish that is: the object's, or its shelf's. -/
def wantOf (w : World) (e : Entry) : Option Format × String :=
  match ((listed node w).lookup e.name).bind fun o => wantedFormat o.spec with
  | some f => (some f, "drive")
  | none =>
    match (e.drive.location.shelf.bind Shelf.key).bind w.defaults with
    | some f => (some f, "shelf")
    | none => (none, "preference")

/-- What a pass that begins now puts. -/
def docs (w : World) : List Doc :=
  w.inventory.entries.map fun e =>
    apiserverDrive node kind e (wantOf node w e).1 (wantOf node w e).2

/-- The pass that begins now. -/
def newPass (w : World) : Pass where
  start := w.now
  docs := docs node kind w
  gone := ((listed node w).filter fun x =>
    Json.readString (x.2.labels.index "storm.io/node") = labelValue node ∧
      x.1 ∉ (docs node kind w).map Doc.name).map Prod.fst

/-- An object was put not long ago, and nothing is different since. -/
def fresh (w : World) (d : Doc) : Bool :=
  (w.written d.name).any fun x => x.1 = d.fingerprint && w.now - x.2 < refresh

/-- The labels and the spec are merged into the object, if it is there. -/
def patch (w : World) (d : Doc) : World :=
  match w.objects.lookup d.name with
  | none => w
  | some o =>
    { w with
      objects := w.objects.insert d.name
        { o with labels := o.labels.merge (.obj d.labels), spec := o.spec.merge (.obj d.spec) }
      last := Function.update w.last d.name .begun }

/-- The object is made, unless there is one. -/
def create (w : World) (d : Doc) : World :=
  match w.objects.lookup d.name with
  | some _ => w
  | none =>
    { w with
      objects := w.objects.insert d.name ⟨.obj d.labels, .obj d.spec, .null⟩
      last := Function.update w.last d.name .begun }

/-- The status is merged into the object, if it is there. -/
def patchStatus (w : World) (d : Doc) : World :=
  match w.objects.lookup d.name with
  | none => w
  | some o =>
    { w with
      objects := w.objects.insert d.name { o with status := o.status.merge (.obj d.status) } }

/-- The put of an object is finished, and remembered. -/
def stored (w : World) (d : Doc) : World :=
  { w with
    written := Function.update w.written d.name (some (d.fingerprint, w.now))
    last := if w.last d.name = .begun then Function.update w.last d.name .put else w.last }

/-- The object is deleted. -/
def remove (w : World) (name : String) : World :=
  { w with
    objects := w.objects.erase name
    last := Function.update w.last name .removed }

/-- An object is there. -/
def there (w : World) (d : Doc) : Bool := (w.objects.lookup d.name).isSome

/-- The pass goes on elsewhere. -/
def goto (w : World) (p : Phase) : World := { w with phase := p }

/-- One call: what it does where it is served, and how the pass goes on when that is answered.
Without an answer the pass ends. -/
def call (w : World) (effect : World → World) (answered : World → World) : Fate → World
  | .served => answered (effect w)
  | .lost => effect w
  | .gaveUp served => (if served then effect w else w).goto .idle
  | .refused => w.goto .idle

/-- **The next call of a pass.** -/
def next (w : World) (f : Fate) : World :=
  match w.phase with
  | .idle | .done _ => w
  | .putting p [] => w.goto (.deleting p p.gone)
  | .putting p (d :: todo) =>
    if w.fresh d then w.goto (.putting p todo)
    else w.call (patch · d)
      (goto · (if w.there d then .status p d todo else .creating p d todo)) f
  | .creating p d todo => w.call (create · d) (goto · (.status p d todo)) f
  | .status p d todo =>
    w.call (patchStatus · d)
      (fun v => if w.there d then (v.stored d).goto (.putting p todo) else v.goto .idle) f
  | .deleting p [] => w.goto (.done p)
  | .deleting p (name :: todo) =>
    w.call (remove · name)
      (fun v => { v with
        written := Function.update v.written name none
        phase := .deleting p todo }) f

/-- One thing happens. -/
def step (w : World) : Event → World
  | .tick secs => { w with now := w.now + secs }
  | .inventory i => { w with inventory := i }
  | .defaults d => { w with defaults := d }
  | .others name o =>
    { w with
      objects := o.elim (w.objects.erase name) (w.objects.insert name)
      last := Function.update w.last name .others }
  | .restart => { w with phase := .idle, written := fun _ => none }
  | .list =>
    match w.phase with
    | .idle | .done _ => w.goto (.putting (newPass node kind w) (docs node kind w))
    | _ => w
  | .next f => w.next f

end World

/-! ## What runs keep -/

/-- The labels and the spec are shown by an object. -/
def Told.MainShownBy (t : Told) (o : Object) : Prop :=
  Json.Shows o.labels (.obj t.labels) ∧ Json.Shows o.spec (.obj t.spec)

/-- What a pass has still to do: what it has to put and what to delete. -/
def Phase.work : Phase → Option (Pass × List Doc × List String)
  | .idle => none
  | .putting p todo => some (p, todo, p.gone)
  | .creating p d todo | .status p d todo => some (p, d :: todo, p.gone)
  | .deleting p todo => some (p, [], todo)
  | .done p => some (p, [], [])

/-- The pass that is under way, or has ended. -/
def Phase.pass (q : Phase) : Option Pass := q.work.map Prod.fst

/-- The object whose labels and spec the pass has just put. -/
def Phase.current : Phase → Option Doc
  | .creating _ d _ | .status _ d _ => some d
  | _ => none

namespace World

/-- What was put shows, and what was deleted is not there. -/
structure Sound (w : World) : Prop where
  removed : ∀ n, w.last n = .removed → w.objects.lookup n = none
  there : ∀ n, w.last n = .begun ∨ w.last n = .put → w.objects.lookup n ≠ none
  put : ∀ n t at', w.written n = some (t, at') → w.last n = .put →
    ∃ o, w.objects.lookup n = some o ∧ t.ShownBy o

/-- An object was put for a pass, or not long before it began. -/
def Put (w : World) (p : Pass) (d : Doc) : Prop :=
  ∃ at', w.written d.name = some (d.fingerprint, at') ∧ p.start < at' + refresh

/-- A pass has done all but what it has still to do. -/
structure Working (w : World) (p : Pass) (todo : List Doc) (names : List String) : Prop where
  start : p.start ≤ w.now
  distinct : (p.docs.map Doc.name).Nodup
  apart : ∀ n ∈ p.gone, n ∉ p.docs.map Doc.name
  puts : ∃ done, p.docs = done ++ todo ∧ ∀ d ∈ done, w.Put p d
  deleted : ∃ done, p.gone = done ++ names ∧
    ∀ n ∈ done, w.last n = .removed ∨ w.last n = .others

/-- **What runs keep.** -/
structure Inv (w : World) : Prop extends w.Sound where
  current : ∀ d, w.phase.current = some d → w.last d.name ≠ .put ∧
    (w.last d.name = .begun →
      ∃ o, w.objects.lookup d.name = some o ∧ d.MainShownBy o)
  working : ∀ p todo names, w.phase.work = some (p, todo, names) → w.Working p todo names

lemma Sound.idle {w : World} (h : w.Sound) : (w.goto .idle).Inv where
  toSound := ⟨h.removed, h.there, h.put⟩
  current _ none := by cases none
  working _ _ _ none := by cases none

/-! ### What each call does -/

section Calls

variable {w : World} {d : Doc}

/-- What becomes of a call, by what it does and what comes after. -/
lemma call_cases {P : World → Prop} {effect answered : World → World}
    (lost : P (effect w)) (served : P (answered (effect w)))
    (before : P (w.goto .idle)) (after : P ((effect w).goto .idle)) (f : Fate) :
    P (w.call effect answered f) := by
  cases f with
  | served => exact served
  | lost => exact lost
  | gaveUp reached =>
    cases reached with
    | true => exact after
    | false => exact before
  | refused => exact before

lemma patch_of_none (h : w.objects.lookup d.name = none) : w.patch d = w := by
  rw [patch, h]

lemma patch_of_some {o : Object} (h : w.objects.lookup d.name = some o) : w.patch d =
    { w with
      objects := w.objects.insert d.name
        { o with labels := o.labels.merge (.obj d.labels), spec := o.spec.merge (.obj d.spec) }
      last := Function.update w.last d.name .begun } := by
  rw [patch, h]

lemma create_of_some {o : Object} (h : w.objects.lookup d.name = some o) : w.create d = w := by
  rw [create, h]

lemma create_of_none (h : w.objects.lookup d.name = none) : w.create d =
    { w with
      objects := w.objects.insert d.name ⟨.obj d.labels, .obj d.spec, .null⟩
      last := Function.update w.last d.name .begun } := by
  rw [create, h]

lemma patchStatus_of_none (h : w.objects.lookup d.name = none) : w.patchStatus d = w := by
  rw [patchStatus, h]

lemma patchStatus_of_some {o : Object} (h : w.objects.lookup d.name = some o) :
    w.patchStatus d =
      { w with
        objects := w.objects.insert d.name
          { o with status := o.status.merge (.obj d.status) } } := by
  rw [patchStatus, h]

@[simp] lemma phase_patch : (w.patch d).phase = w.phase := by
  unfold patch
  split
  · rfl
  · rfl

@[simp] lemma phase_create : (w.create d).phase = w.phase := by
  unfold create
  split
  · rfl
  · rfl

@[simp] lemma phase_patchStatus : (w.patchStatus d).phase = w.phase := by
  unfold patchStatus
  split
  · rfl
  · rfl

/-- An object that others wrote or deleted, or whose put has begun. -/
lemma Sound.changed (h : w.Sound) (n : String) (l : Last) (objects : AList fun _ : String => Object)
    (other : ∀ m, m ≠ n → objects.lookup m = w.objects.lookup m)
    (removed : l = .removed → objects.lookup n = none)
    (there : l = .begun → objects.lookup n ≠ none) (notPut : l ≠ .put) :
    { w with objects := objects, last := Function.update w.last n l }.Sound := by
  constructor
  · intro m hm
    by_cases same : m = n
    · subst same
      exact removed (by simpa using hm)
    · exact (other m same).trans (h.removed m (by simpa [same] using hm))
  · intro m hm
    by_cases same : m = n
    · subst same
      obtain begun | put := hm
      · exact there (by simpa using begun)
      · exact absurd (by simpa using put) notPut
    · show objects.lookup m ≠ none
      rw [other m same]
      exact h.there m (by simpa [same] using hm)
  · intro m t at' written hm
    by_cases same : m = n
    · subst same
      exact absurd (by simpa using hm) notPut
    · show ∃ o, objects.lookup m = some o ∧ t.ShownBy o
      rw [other m same]
      exact h.put m t at' written (by simpa [same] using hm)

lemma Sound.patch (h : w.Sound) : (w.patch d).Sound := by
  cases found : w.objects.lookup d.name with
  | none =>
    rw [patch_of_none found]
    exact h
  | some o =>
    rw [patch_of_some found]
    exact h.changed d.name .begun _ (fun _ other => AList.lookup_insert_ne other) (by simp)
      (fun _ => by rw [AList.lookup_insert]; exact Option.some_ne_none _) (by simp)

lemma Sound.create (h : w.Sound) : (w.create d).Sound := by
  cases found : w.objects.lookup d.name with
  | some o =>
    rw [create_of_some found]
    exact h
  | none =>
    rw [create_of_none found]
    exact h.changed d.name .begun _ (fun _ other => AList.lookup_insert_ne other) (by simp)
      (fun _ => by rw [AList.lookup_insert]; exact Option.some_ne_none _) (by simp)

lemma Sound.remove (h : w.Sound) (n : String) : (w.remove n).Sound :=
  h.changed n .removed _ (fun _ other => AList.lookup_erase_ne other)
    (fun _ => AList.lookup_erase ..) (by simp) (by simp)

lemma Sound.others (h : w.Sound) (n : String) (o : Option Object) :
    { w with
      objects := o.elim (w.objects.erase n) (w.objects.insert n)
      last := Function.update w.last n .others }.Sound := by
  refine h.changed n .others _ ?_ (by simp) (by simp) (by simp)
  intro m other
  cases o with
  | none => exact AList.lookup_erase_ne other
  | some o => exact AList.lookup_insert_ne other

/-- What of an object a put shows at once: the labels and the spec. -/
lemma current_patch {o : Object} (found : w.objects.lookup d.name = some o) :
    ∃ o', (w.patch d).objects.lookup d.name = some o' ∧ d.MainShownBy o' := by
  rw [patch_of_some found]
  refine ⟨_, AList.lookup_insert .., Json.shows_merge _ ?_ _, Json.shows_merge _ ?_ _⟩
  · rw [Json.Proper]
    exact d.labels_proper
  · rw [Json.Proper]
    exact d.spec_proper

lemma current_create (found : w.objects.lookup d.name = none) :
    ∃ o', (w.create d).objects.lookup d.name = some o' ∧ d.MainShownBy o' := by
  rw [create_of_none found]
  refine ⟨_, AList.lookup_insert .., Json.shows_self _ ?_, Json.shows_self _ ?_⟩
  · rw [Json.Proper]
    exact d.labels_proper
  · rw [Json.Proper]
    exact d.spec_proper

/-- A status that is written leaves the rest as it is, and shows. -/
lemma lookup_patchStatus {o : Object} (found : w.objects.lookup d.name = some o) :
    ∃ o', (w.patchStatus d).objects.lookup d.name = some o' ∧
      o'.labels = o.labels ∧ o'.spec = o.spec ∧ Json.Shows o'.status (.obj d.status) := by
  rw [patchStatus_of_some found]
  refine ⟨_, AList.lookup_insert .., rfl, rfl, Json.shows_merge _ ?_ _⟩
  rw [Json.Proper]
  exact d.status_proper

lemma last_patchStatus : (w.patchStatus d).last = w.last := by
  unfold patchStatus
  split
  · rfl
  · rfl

lemma Sound.patchStatus (h : w.Sound) (notPut : w.last d.name ≠ .put) :
    (w.patchStatus d).Sound := by
  cases found : w.objects.lookup d.name with
  | none =>
    rw [patchStatus_of_none found]
    exact h
  | some o =>
    have kept := h.changed d.name (w.last d.name)
      (w.objects.insert d.name { o with status := o.status.merge (.obj d.status) })
      (fun _ other => AList.lookup_insert_ne other)
      (fun gone => by cases found.symm.trans (h.removed _ gone))
      (fun _ => by rw [AList.lookup_insert]; exact Option.some_ne_none _) notPut
    rw [Function.update_eq_self] at kept
    rw [patchStatus_of_some found]
    exact kept

/-- **A put that was finished shows.** -/
lemma Sound.stored (h : w.Sound)
    (shown : w.last d.name = .begun → ∃ o, w.objects.lookup d.name = some o ∧
      d.MainShownBy o ∧ Json.Shows o.status (.obj d.status))
    (notPut : w.last d.name ≠ .put) : (w.stored d).Sound := by
  have elsewhere : ∀ n, n ≠ d.name → (w.stored d).last n = w.last n := by
    intro n other
    unfold World.stored
    by_cases begun : w.last d.name = .begun
    · simp [begun, Function.update_of_ne other]
    · simp [begun]
  by_cases begun : w.last d.name = .begun
  · have here : (w.stored d).last d.name = .put := by simp [World.stored, begun]
    constructor
    · intro n gone
      have other : n ≠ d.name := by
        rintro rfl
        cases here.symm.trans gone
      exact h.removed n ((elsewhere n other).symm.trans gone)
    · intro n hn
      by_cases same : n = d.name
      · subst same
        exact h.there _ (Or.inl begun)
      · rw [elsewhere n same] at hn
        exact h.there n hn
    · intro n t at' written hn
      by_cases same : n = d.name
      · subst same
        have new : (w.stored d).written d.name = some (d.fingerprint, w.now) :=
          Function.update_self ..
        obtain ⟨rfl, rfl⟩ := Prod.mk.inj (Option.some.inj (new.symm.trans written))
        obtain ⟨o, found, main, status⟩ := shown begun
        exact ⟨o, found, main.1, main.2, status.filter _⟩
      · have old : (w.stored d).written n = w.written n := Function.update_of_ne same ..
        exact h.put n t at' (old.symm.trans written) ((elsewhere n same).symm.trans hn)
  · have same : (w.stored d).last = w.last := if_neg begun
    constructor
    · rw [same]
      exact h.removed
    · rw [same]
      exact h.there
    · intro n t at' written hn
      rw [same] at hn
      have other : n ≠ d.name := by
        rintro rfl
        exact notPut hn
      have old : (w.stored d).written n = w.written n := Function.update_of_ne other ..
      exact h.put n t at' (old.symm.trans written) hn

end Calls

end World

end Node

end DriveObjects

end StormDrive
