import StormDrive.AssetItems
import StormDrive.History

set_option relaxedAutoImplicit false
set_option autoImplicit false

/-!
# The hardware record of each boot

What the node is made of is recorded once a boot, in a file of the boot's own, with what changed
since the boot before and within the boot (`assets.rs`). The file is known by the boot's identifier
at its end, and the boot before by the order of the names, which begin with the time.

## Main definitions

* `Assets`, `record` — the record of a boot, and what recording does with the directory.
* `Node`, `Event`, `step` — boots and their calls, and beside the directory a ledger of what each
  boot recorded.
* `Entry.Tells`, `Complete` — what a record has to say, and that every record says it.
* `Clean` — the file of a new boot is told from the others by its end, the boot before is the newest
  by name, and the new name is not among those that are removed.

## Main results

* `complete_of_clean` — **in a run whose boots are all so, every record is complete and the one of
  this boot is there**; and each drive has its own item when no two share a bay or an identifier.
* `set_back_forgets` — a boot with the clock ahead, and the two after it are both compared with it.

## Implementation notes

A directory is its `.json` files in the order of their names; a file that is not a record has none.
An identifier of a boot has no slash. Of the disk it is said whether the directory is there or can
be made, whether the file is written and which files cannot be removed.
-/

namespace StormDrive

/-! ## The record -/

/-- Facts about a boot that its record carries. -/
structure Boot where
  bootId : String
  node : String
  kernel : String
  stormdrive : String
  deriving DecidableEq

open Assets in
/-- The hardware record of a boot. -/
structure Assets where
  /-- When it was first taken, and last rewritten. -/
  takenAt : String
  updatedAt : String
  bootId : String
  node : String
  kernel : String
  stormdrive : String
  memoryTotalBytes : Option ℕ
  items : Items
  /-- The file of the boot before, compared against. -/
  previous : Option String
  changes : List Change
  changedInBoot : List Change
  deriving DecidableEq

namespace Assets

/-- A file of the directory, with the record in it. -/
abbrev File : Type := String × Option Assets

/-- The directory, in the order of the names. -/
abbrev Files : Type := List File

/-- How many boots are kept. -/
def keepBoots : ℕ := 1000

/-- A time without its separators. -/
def compact (rfc : String) : String :=
  String.ofList (rfc.toList.filter fun c => c ≠ '-' && c ≠ ':')

/-- What the name of a boot's file ends in. -/
def suffix (bootId : String) : String :=
  "-" ++ (if bootId = "" then "unknown" else bootId) ++ ".json"

def endsIn (ending name : String) : Bool := ending.toList.isSuffixOf name.toList

/-- The name of a new file. -/
def newName (unix : ℕ) (bootId : String) : String := compact (rfc3339 unix) ++ suffix bootId

/-- The file of this boot. -/
def thisFile (files : Files) (bootId : String) : Option File :=
  files.find? fun f => endsIn (suffix bootId) f.1

/-- The last of the other files. -/
def prevFile (files : Files) (this : Option File) : Option File :=
  files.reverse.find? fun f => some f.1 ≠ this.map Prod.fst

/-- What is said of the first record of a boot. -/
def bootEvents (prev : Option Assets) (changes : List Change) (items : Items) :
    List (Bool × String) :=
  let count := toString items.entries.length
  match prev with
  | none => [(false, "hardware assets recorded: " ++ count ++
      " items (the first record in system-data)")]
  | some p =>
    if changes = [] then
      [(false, "hardware unchanged since the previous boot (" ++ p.takenAt ++ "): " ++ count ++
        " items")]
    else
      [(changes.any fun c => c.change = .removed,
        "hardware since the previous boot (" ++ p.takenAt ++ "): " ++ toString changes.length ++
          " change(s): " ++ "; ".intercalate (changes.map Change.describe))]

/-- What is said of a change within the boot. -/
def inBootEvents (c : List Change) : List (Bool × String) :=
  if c = [] then []
  else [(c.any fun c => c.change = .removed,
    "hardware changed during this boot: " ++ "; ".intercalate (c.map Change.describe))]

/-- What changed since the record of the boot before. -/
def changesFrom (prev : Option File) (items : Items) : List Change :=
  match prev.bind Prod.snd with
  | some p => diff p.items items
  | none => []

/-- The record that is written, with the one of this boot so far. -/
def taken (boot : Boot) (items : Items) (mem : Option ℕ) (now : String) (prev : Option File)
    (existing : Option Assets) : Assets where
  takenAt := (existing.map Assets.takenAt).getD now
  updatedAt := now
  bootId := boot.bootId
  node := boot.node
  kernel := boot.kernel
  stormdrive := boot.stormdrive
  memoryTotalBytes := mem
  items := items
  previous := prev.map Prod.fst
  changes := changesFrom prev items
  changedInBoot :=
    match existing with
    | some e => e.changedInBoot ++ diff e.items items
    | none => []

/-- The oldest files by name are removed, those left out that cannot be. -/
def dropOldest (files : Files) (stuck : List String) : Files :=
  if keepBoots < files.length then
    (files.take (files.length - keepBoots)).filter (fun f => stuck.contains f.1) ++
      files.drop (files.length - keepBoots)
  else files

/-- What the disk does in a call. -/
inductive Disk where
  /-- The system-data directory is not there. -/
  | absent
  /-- The directory of the records cannot be made. -/
  | unmade
  /-- The file is not written, or it is and the files named cannot be removed. -/
  | there (written : Option (List String))
  deriving DecidableEq

/-- The directory, and the name of this boot's file in the status. -/
structure Store where
  files : Files
  assetsFile : Option String

/-- What recording did: the boot's record, its file, and the events to raise. -/
structure Recorded where
  assets : Assets
  file : String
  events : List (Bool × String)

/-- Write this boot's record when it is new or its items changed. -/
def record (s : Store) (boot : Boot) (items : Items) (mem : Option ℕ) (unix : ℕ) (disk : Disk) :
    Except Unit (Option Recorded) × Store :=
  match disk with
  | .absent => (.ok none, s)
  | .unmade => (.error (), s)
  | .there written =>
    let this := thisFile s.files boot.bootId
    let prev := prevFile s.files this
    let now := rfc3339 unix
    let existing := this.bind Prod.snd
    match existing.filter fun e => e.items = items with
    | some e =>
      let file := (this.map Prod.fst).getD ""
      (.ok (some ⟨e, file, []⟩), { s with assetsFile := some file })
    | none =>
      let events := match existing with
        | some e => inBootEvents (diff e.items items)
        | none => bootEvents (prev.bind Prod.snd) (changesFrom prev items) items
      let assets := taken boot items mem now prev existing
      let file := (this.map Prod.fst).getD (newName unix boot.bootId)
      match written with
      | none => (.error (), s)
      | some stuck =>
        (.ok (some ⟨assets, file, events⟩),
          ⟨dropOldest (OrderedMap.insert file (some assets) s.files) stuck, some file⟩)

/-! ## Boots -/

/-- What a boot recorded: under which name, its items now, and those of its calls before, the newest
first. -/
structure Entry where
  file : String
  items : Items
  earlier : List Items

/-- The directory and the boot that runs, and beside them which boots recorded what, the newest
first: `running` is for the first of them being this boot. -/
structure Node where
  store : Store
  bootId : String
  running : Bool
  ledger : List Entry

inductive Event where
  /-- The node boots. -/
  | boots (bootId : String)
  /-- The daemon records the items at a time of the clock. -/
  | records (node kernel stormdrive : String) (items : Items) (mem : Option ℕ) (unix : ℕ)
      (disk : Disk)

/-- A node before its first record. -/
def start (bootId : String) : Node := ⟨⟨[], none⟩, bootId, false, []⟩

/-- The ledger after a call that returned. -/
def Node.enter (s : Node) (file : String) (items : Items) : List Entry :=
  match s.running, s.ledger with
  | true, e :: older => ⟨e.file, items, e.items :: e.earlier⟩ :: older
  | _, older => ⟨file, items, []⟩ :: older

def step (s : Node) : Event → Node
  | .boots bootId => { s with bootId := bootId, running := false }
  | .records node kernel stormdrive items mem unix disk =>
    match record s.store ⟨s.bootId, node, kernel, stormdrive⟩ items mem unix disk with
    | (.ok (some r), store) => ⟨store, s.bootId, true, s.enter r.file items⟩
    | (_, store) => { s with store := store }

/-! ## What a record has to say -/

/-- Changes accumulate the differences of the calls of a boot, the newest of which is first. -/
def Accumulated : List Items → List Change → Prop
  | new :: old :: earlier, cs =>
    ∃ before later, cs = before ++ later ∧ Turns old later new ∧ Accumulated (old :: earlier) before
  | _, cs => cs = []

/-- **The record says what it has to**: the items of the boot, the file of the boot recorded before,
what turns that one's items into these, and every later difference within the boot. -/
structure Entry.Tells (before : Option Entry) (e : Entry) (a : Assets) : Prop where
  items : a.items = e.items
  previous : a.previous = before.map Entry.file
  first : before = none → a.changes = []
  changes : ∀ p ∈ before, Turns p.items a.changes a.items
  within : Accumulated (e.items :: e.earlier) a.changedInBoot

/-- Every file is the record of a boot, of the newest one with its name. -/
def Told : List Entry → Files → Prop
  | [], files => files = []
  | e :: older, files =>
    (∀ c, (e.file, c) ∈ files → ∃ a, c = some a ∧ e.Tells older.head? a) ∧
      Told older (files.filter fun f => f.1 ≠ e.file)

/-- **Every record is complete**, and this boot's is there once it is taken. -/
structure Complete (s : Node) : Prop where
  told : Told s.ledger s.store.files
  kept : s.running = true → ∃ e ∈ s.ledger.head?, e.file ∈ s.store.files.map Prod.fst

/-- **A clean first call of a boot.** No file ends in the boot's identifier; when the file is
written, the last one by name is that of the boot recorded before, and fewer than `keepBoots` have
names after the new one. -/
def CleanFirst (s : Node) (unix : ℕ) : Disk → Prop
  | .absent | .unmade => True
  | .there written =>
    (∀ f ∈ s.store.files, endsIn (suffix s.bootId) f.1 = false) ∧
      (written.isSome →
        s.store.files.getLast?.map Prod.fst = s.ledger.head?.map Entry.file ∧
        (s.store.files.filter fun f => newName unix s.bootId < f.1).length <
          keepBoots)

/-- **A clean step**: the first call of each boot is clean. -/
def Clean (s : Node) : Event → Prop
  | .boots _ => True
  | .records _ _ _ _ _ unix disk => s.running = false → CleanFirst s unix disk

/-! ## The directory -/

section Directory

variable {files files' : Files} {stuck : List String} {f : File}

lemma dropOldest_sublist (files : Files) (stuck : List String) :
    (dropOldest files stuck).Sublist files := by
  rw [dropOldest]
  split_ifs
  · have sub := (List.filter_sublist (l := files.take (files.length - keepBoots))
      (p := fun f => stuck.contains f.1)).append
        (List.Sublist.refl (files.drop (files.length - keepBoots)))
    rwa [List.take_append_drop] at sub
  · exact List.Sublist.refl files

/-- A file is not removed when fewer than `keepBoots` have names after its own. -/
lemma mem_dropOldest (sorted : OrderedMap.Increasing files) (mem : f ∈ files)
    (few : (files.filter fun g => f.1 < g.1).length < keepBoots) : f ∈ dropOldest files stuck := by
  rw [dropOldest]
  split_ifs with many
  · refine List.mem_append_right _ ?_
    obtain ⟨before, behind, rfl⟩ := List.append_of_mem mem
    have later : ∀ g ∈ behind, f.1 < g.1 :=
      (List.pairwise_cons.mp (List.pairwise_append.mp sorted).2.1).1
    have all : behind.filter (fun g => f.1 < g.1) = behind :=
      List.filter_eq_self.mpr fun g mem => decide_eq_true (later g mem)
    have count : behind.length < keepBoots := by
      refine lt_of_le_of_lt ?_ few
      rw [List.filter_append, List.length_append, List.filter_cons_of_neg (by simp), all]
      exact Nat.le_add_left ..
    rw [List.drop_append_of_le_length]
    · exact List.mem_append_right _ (List.mem_cons_self ..)
    · rw [List.length_append, List.length_cons]
      omega
  · exact mem

/-- The file of the boot before is the last of the others. -/
lemma prevFile_eq (sorted : OrderedMap.Increasing files) {this : Option File} (mem : f ∈ files)
    (other : some f.1 ≠ this.map Prod.fst)
    (last : ∀ g ∈ files, some g.1 ≠ this.map Prod.fst → g.1 ≤ f.1) :
    prevFile files this = some f := by
  obtain ⟨before, behind, rfl⟩ := List.append_of_mem mem
  have later : ∀ g ∈ behind, f.1 < g.1 :=
    (List.pairwise_cons.mp (List.pairwise_append.mp sorted).2.1).1
  rw [prevFile, List.reverse_append, List.reverse_cons, List.append_assoc, List.find?_append]
  have none_later : behind.reverse.find? (fun g => some g.1 ≠ this.map Prod.fst) = none := by
    refine List.find?_eq_none.mpr fun g mem test => ?_
    have there : g ∈ before ++ f :: behind :=
      List.mem_append_right _ (List.mem_cons_of_mem _ (List.mem_reverse.mp mem))
    exact not_lt_of_ge (last g there (of_decide_eq_true test))
      (later g (List.mem_reverse.mp mem))
  rw [none_later, Option.none_or, List.singleton_append]
  exact List.find?_cons_of_pos (decide_eq_true other)

lemma thisFile_eq_none {bootId : String}
    (none_own : ∀ f ∈ files, endsIn (suffix bootId) f.1 = false) :
    thisFile files bootId = none := by
  refine List.find?_eq_none.mpr fun f mem => ?_
  rw [none_own f mem]
  exact Bool.false_ne_true

lemma prevFile_eq_none {this : Option File} (only : ∀ g ∈ files, some g.1 = this.map Prod.fst) :
    prevFile files this = none :=
  List.find?_eq_none.mpr fun g mem test =>
    of_decide_eq_true test (only g (List.mem_reverse.mp mem))

/-- What is told of the files is told of fewer. -/
lemma Told.mono {ledger : List Entry} (h : Told ledger files) (sub : files' ⊆ files) :
    Told ledger files' := by
  induction ledger generalizing files files' with
  | nil =>
    have none : files = [] := h
    exact List.subset_nil.mp (none ▸ sub)
  | cons e older ih =>
    refine ⟨fun c mem => h.1 c (sub mem), ih h.2 fun f mem => ?_⟩
    obtain ⟨mem, other⟩ := List.mem_filter.mp mem
    exact List.mem_filter.mpr ⟨sub mem, other⟩

/-- A record is written that says what it has to. -/
lemma Entry.Tells.insert {older : List Entry} {e : Entry} {a : Assets}
    (tells : e.Tells older.head? a) (sorted : OrderedMap.Increasing files)
    (h : Told older (files.filter fun f => f.1 ≠ e.file)) :
    Told (e :: older) (OrderedMap.insert e.file (some a) files) := by
  constructor
  · intro c mem
    have here := OrderedMap.mem_insert_self e.file (some a) files
    have same := (OrderedMap.increasing_insert sorted e.file (some a)).eq_of_key mem here rfl
    exact ⟨a, congrArg Prod.snd same, tells⟩
  · have skip := OrderedMap.filter_insert_of_not (fun k => decide (k ≠ e.file))
      (by simp : decide (e.file ≠ e.file) = false) (some a) files
    rw [skip]
    exact h

end Directory

/-! ## One call -/

/-- The boot before is found, with its items. -/
def Finds (before : Option Entry) (prev : Option File) : Prop :=
  match before with
  | none => prev = none
  | some p => ∃ a : Assets, prev = some (p.file, some a) ∧ a.items = p.items

section Taken

variable {before : Option Entry} {prev : Option File} {boot : Boot} {items : Items} {mem : Option ℕ}
  {now : String}

/-- What is written names the boot before and what turns its items into these. -/
lemma Finds.tells (finds : Finds before prev) {existing : Option Assets} {e : Entry}
    (same : e.items = items)
    (within : Accumulated (e.items :: e.earlier)
      (taken boot items mem now prev existing).changedInBoot) :
    e.Tells before (taken boot items mem now prev existing) := by
  cases before with
  | none =>
    have none : prev = none := finds
    subst none
    exact ⟨same.symm, rfl, fun _ => rfl, nofun, within⟩
  | some p =>
    obtain ⟨a, rfl, as⟩ := finds
    refine ⟨same.symm, rfl, nofun, ?_, within⟩
    rintro q ⟨⟩
    rw [← as]
    exact diff_turns a.items items

lemma Finds.tells_first (finds : Finds before prev) (file : String) :
    Entry.Tells before ⟨file, items, []⟩ (taken boot items mem now prev none) :=
  finds.tells rfl rfl

lemma Finds.tells_again (finds : Finds before prev) {e : Entry} {a : Assets}
    (h : e.Tells before a) :
    Entry.Tells before ⟨e.file, items, e.items :: e.earlier⟩
      (taken boot items mem now prev (some a)) := by
  refine finds.tells rfl ⟨a.changedInBoot, diff a.items items, rfl, ?_, h.within⟩
  rw [← h.items]
  exact diff_turns a.items items

end Taken

/-- A call that finds the same items adds nothing. -/
lemma Entry.Tells.same {before : Option Entry} {e : Entry} {a : Assets} (h : e.Tells before a) :
    Entry.Tells before ⟨e.file, e.items, e.items :: e.earlier⟩ a where
  items := h.items
  previous := h.previous
  first := h.first
  changes := h.changes
  within := ⟨a.changedInBoot, [], (List.append_nil _).symm, turns_refl e.items, h.within⟩

section Record

variable {s : Store} {boot : Boot} {items : Items} {file : String} {a : Assets} (mem : Option ℕ)
  (unix : ℕ) (stuck : List String)

lemma record_first (items : Items) (new : thisFile s.files boot.bootId = none) :
    ∃ events, record s boot items mem unix (.there (some stuck)) =
      (.ok (some ⟨taken boot items mem (rfc3339 unix) (prevFile s.files none) none,
          newName unix boot.bootId, events⟩),
        ⟨dropOldest (OrderedMap.insert (newName unix boot.bootId)
          (some (taken boot items mem (rfc3339 unix) (prevFile s.files none) none)) s.files) stuck,
          some (newName unix boot.bootId)⟩) := by
  rw [record, new]
  exact ⟨_, rfl⟩

lemma record_first_unwritten (boot : Boot) (items : Items)
    (new : thisFile s.files boot.bootId = none) :
    record s boot items mem unix (.there none) = (.error (), s) := by
  rw [record, new]
  rfl

lemma record_same (own : thisFile s.files boot.bootId = some (file, some a))
    (same : a.items = items) (written : Option (List String)) :
    record s boot items mem unix (.there written) =
      (.ok (some ⟨a, file, []⟩), { s with assetsFile := some file }) := by
  simp only [record, own, Option.bind_some, Option.filter_some, same, decide_true, if_true]
  rfl

lemma record_again (own : thisFile s.files boot.bootId = some (file, some a))
    (changed : a.items ≠ items) :
    ∃ events, record s boot items mem unix (.there (some stuck)) =
      (.ok (some ⟨taken boot items mem (rfc3339 unix) (prevFile s.files (some (file, some a)))
          (some a), file, events⟩),
        ⟨dropOldest (OrderedMap.insert file (some (taken boot items mem (rfc3339 unix)
          (prevFile s.files (some (file, some a))) (some a))) s.files) stuck, some file⟩) := by
  simp only [record, own, Option.bind_some, Option.filter_some, changed, decide_false,
    Bool.false_eq_true, if_false]
  exact ⟨_, rfl⟩

lemma record_again_unwritten (own : thisFile s.files boot.bootId = some (file, some a))
    (changed : a.items ≠ items) :
    record s boot items mem unix (.there none) = (.error (), s) := by
  simp only [record, own, Option.bind_some, Option.filter_some, changed, decide_false,
    Bool.false_eq_true, if_false]

end Record

/-! ## The invariant -/

/-- This boot's file and that of the boot before are told from all others: the one by its end, which
no other file has, the other as the last by name of the rest. Fewer than `keepBoots` come after
this boot's. -/
structure Ready (files : Files) (bootId file : String) (older : List Entry) : Prop where
  own : endsIn (suffix bootId) file = true
  only : ∀ f ∈ files, endsIn (suffix bootId) f.1 = true → f.1 = file
  few : (files.filter fun f => file < f.1).length < keepBoots
  newest : ∀ f ∈ files, f.1 ≠ file → ∃ p ∈ older.head?, f.1 ≤ p.file
  before : ∀ p ∈ older.head?, p.file ≠ file ∧ p.file ∈ files.map Prod.fst

section Ready

variable {files : Files} {bootId file : String} {older : List Entry} {c : Option Assets}

/-- The boot's file is found by its end. -/
lemma Ready.thisFile_eq (h : Ready files bootId file older) (sorted : OrderedMap.Increasing files)
    (mem : (file, c) ∈ files) : thisFile files bootId = some (file, c) := by
  cases found : thisFile files bootId with
  | none => exact absurd h.own (List.find?_eq_none.mp found (file, c) mem)
  | some f =>
    have there := List.mem_of_find?_eq_some found
    have key := h.only f there
      (List.find?_some (p := fun f : File => endsIn (suffix bootId) f.1) found)
    rw [sorted.eq_of_key there mem key]

/-- The boot before is found as the last of the other files, whether this boot's is there yet or
not. -/
lemma Ready.finds (h : Ready files bootId file older) (sorted : OrderedMap.Increasing files)
    (told : Told older (files.filter fun f => f.1 ≠ file)) {this : Option File}
    (own : ∀ f ∈ files, some f.1 = this.map Prod.fst ↔ f.1 = file) :
    Finds older.head? (prevFile files this) := by
  cases older with
  | nil =>
    refine prevFile_eq_none fun g mem => (own g mem).mpr ?_
    by_contra other
    obtain ⟨p, none, -⟩ := h.newest g mem other
    exact nomatch none
  | cons p rest =>
    obtain ⟨ne, mem⟩ := h.before p rfl
    obtain ⟨f, mem, name⟩ := List.mem_map.mp mem
    have other : f.1 ≠ file := by
      rw [name]
      exact ne
    have left : (p.file, f.2) ∈ files.filter fun f => f.1 ≠ file := by
      rw [← name]
      exact List.mem_filter.mpr ⟨mem, decide_eq_true other⟩
    obtain ⟨a, content, tells⟩ := told.1 f.2 left
    refine ⟨a, ?_, tells.items⟩
    rw [← content, ← name]
    refine prevFile_eq sorted mem (mt (own f mem).mp other) fun g there away => ?_
    obtain ⟨q, ⟨⟩, le⟩ := h.newest g there (mt (own g there).mpr away)
    rw [name]
    exact le

/-- The boot's file is written and the oldest are removed: both files are there. -/
lemma Ready.write (h : Ready files bootId file older) (sorted : OrderedMap.Increasing files)
    (c : Option Assets) (stuck : List String) :
    Ready (dropOldest (OrderedMap.insert file c files) stuck) bootId file older ∧
      file ∈ (dropOldest (OrderedMap.insert file c files) stuck).map Prod.fst := by
  have sub := dropOldest_sublist (OrderedMap.insert file c files) stuck
  have sorted' := OrderedMap.increasing_insert sorted file c
  have skip := OrderedMap.filter_insert_of_not (fun k => decide (file < k))
    (decide_eq_false (lt_irrefl file)) c files
  have few : ((OrderedMap.insert file c files).filter fun f => file < f.1).length < keepBoots := by
    rw [skip]
    exact h.few
  have old : ∀ f ∈ OrderedMap.insert file c files, f.1 ≠ file → f ∈ files := by
    intro f mem other
    obtain rfl | mem := OrderedMap.mem_of_mem_insert mem
    · exact absurd rfl other
    · exact mem
  refine ⟨⟨h.own, fun f mem ends => ?_, ?_, fun f mem other => ?_, fun p first => ?_⟩, ?_⟩
  · by_contra other
    exact other (h.only f (old f (sub.subset mem) other) ends)
  · exact lt_of_le_of_lt (sub.filter _).length_le few
  · exact h.newest f (old f (sub.subset mem) other) other
  · obtain ⟨ne, mem⟩ := h.before p first
    obtain ⟨f, mem, name⟩ := List.mem_map.mp mem
    refine ⟨ne, List.mem_map.mpr ⟨f, mem_dropOldest sorted' ?_ ?_, name⟩⟩
    · exact OrderedMap.mem_insert_of_ne mem (name.trans_ne ne)
    · -- only the boot's own file can come after that of the boot before
      have one : ∀ g ∈ (OrderedMap.insert file c files).filter fun g => f.1 < g.1,
          g.1 = file := by
        intro g mem'
        obtain ⟨there, after⟩ := List.mem_filter.mp mem'
        by_contra other
        obtain ⟨q, first', le⟩ := h.newest g (old g there other) other
        obtain rfl := Option.some.inj (first.symm.trans first')
        rw [← name] at le
        exact not_lt_of_ge le (of_decide_eq_true after)
      exact lt_of_le_of_lt (OrderedMap.Increasing.length_le_one (sorted'.filter _) one)
        (by decide)
  · exact List.mem_map.mpr ⟨(file, c), mem_dropOldest sorted'
      (OrderedMap.mem_insert_self file c files) few, rfl⟩

end Ready

/-- **The invariant.** Every record is complete, and once this boot has its record, its file and
that of the boot before are told from the others. -/
structure Inv (s : Node) : Prop where
  sorted : OrderedMap.Increasing s.store.files
  told : Told s.ledger s.store.files
  ready : s.running = true → ∃ e older, s.ledger = e :: older ∧
    Ready s.store.files s.bootId e.file older ∧ e.file ∈ s.store.files.map Prod.fst

lemma Inv.start (bootId : String) : Inv (start bootId) :=
  ⟨List.Pairwise.nil, rfl, nofun⟩

/-- What holds of the invariant is complete. -/
lemma Inv.complete {s : Node} (h : Inv s) : Complete s := by
  refine ⟨h.told, fun running => ?_⟩
  obtain ⟨e, older, ledger, -, there⟩ := h.ready running
  exact ⟨e, by rw [ledger]; rfl, there⟩

/-- The end of the new name is that of the boot. -/
lemma endsIn_newName (unix : ℕ) (bootId : String) :
    endsIn (suffix bootId) (newName unix bootId) = true := by
  rw [endsIn, newName, String.toList_append, List.isSuffixOf_iff_suffix]
  exact List.suffix_append ..

/-- The first call of a boot makes an entry. -/
lemma Node.enter_first {s : Node} (idle : s.running = false) (file : String) (items : Items) :
    s.enter file items = ⟨file, items, []⟩ :: s.ledger := by
  rw [Node.enter, idle]

/-- A later one adds to it. -/
lemma Node.enter_again {s : Node} {e : Entry} {older : List Entry} (running : s.running = true)
    (ledger : s.ledger = e :: older) (file : String) (items : Items) :
    s.enter file items = ⟨e.file, items, e.items :: e.earlier⟩ :: older := by
  rw [Node.enter, running, ledger]

section Steps

variable {s : Node} (boot : Boot) (items : Items) (mem : Option ℕ)

/-- A clean first call, before its file is there. -/
lemma Inv.ready_first (h : Inv s) {unix : ℕ}
    (none_own : ∀ f ∈ s.store.files, endsIn (suffix s.bootId) f.1 = false)
    (newest : s.store.files.getLast?.map Prod.fst = s.ledger.head?.map Entry.file)
    (few : (s.store.files.filter fun f =>
      newName unix s.bootId < f.1).length < keepBoots) :
    Ready s.store.files s.bootId (newName unix s.bootId) s.ledger where
  own := endsIn_newName unix s.bootId
  only f mem ends := by
    rw [none_own f mem] at ends
    cases ends
  few := few
  newest f mem _ := by
    obtain ⟨g, last⟩ := Option.isSome_iff_exists.mp
      (List.getLast?_isSome.mpr (List.ne_nil_of_mem mem))
    rw [last] at newest
    obtain ⟨p, first, name⟩ := Option.map_eq_some_iff.mp newest.symm
    refine ⟨p, first, ?_⟩
    rw [name]
    exact h.sorted.le_getLast last f mem
  before p first := by
    have first' : s.ledger.head? = some p := first
    rw [first'] at newest
    obtain ⟨f, last, name⟩ := Option.map_eq_some_iff.mp newest
    have there := List.mem_of_getLast? last
    refine ⟨fun same => ?_, List.mem_map.mpr ⟨f, there, name⟩⟩
    have ends := none_own f there
    rw [name, same, endsIn_newName] at ends
    cases ends

/-- A clean first call keeps the invariant. -/
lemma Inv.first (h : Inv s) {unix : ℕ} (idle : s.running = false) (id : boot.bootId = s.bootId)
    (none_own : ∀ f ∈ s.store.files, endsIn (suffix s.bootId) f.1 = false)
    (newest : s.store.files.getLast?.map Prod.fst = s.ledger.head?.map Entry.file)
    (few : (s.store.files.filter fun f =>
      newName unix s.bootId < f.1).length < keepBoots) (stuck : List String) :
    ∃ r store, record s.store boot items mem unix (.there (some stuck)) = (.ok (some r), store) ∧
      Inv ⟨store, s.bootId, true, s.enter r.file items⟩ := by
  have new : thisFile s.store.files boot.bootId = none := by
    rw [id]
    exact thisFile_eq_none none_own
  obtain ⟨events, made⟩ := record_first mem unix stuck items new
  rw [id] at made
  have ready := h.ready_first none_own newest few
  have others : Told s.ledger (s.store.files.filter fun f =>
      f.1 ≠ newName unix s.bootId) :=
    h.told.mono List.filter_sublist.subset
  have finds : Finds s.ledger.head? (prevFile s.store.files none) := by
    refine ready.finds h.sorted others fun f mem => ⟨nofun, fun same => ?_⟩
    have ends := none_own f mem
    rw [same, ready.own] at ends
    cases ends
  have tells : Entry.Tells s.ledger.head? ⟨newName unix s.bootId, items, []⟩
      (taken boot items mem (rfc3339 unix) (prevFile s.store.files none) none) :=
    finds.tells_first (newName unix s.bootId)
  refine ⟨_, _, made, ?_, ?_, fun _ => ?_⟩
  · exact (OrderedMap.increasing_insert h.sorted _ _).sublist (dropOldest_sublist _ stuck)
  · rw [Node.enter_first idle]
    exact (tells.insert h.sorted others).mono (dropOldest_sublist _ stuck).subset
  · exact ⟨_, _, Node.enter_first idle _ _, ready.write h.sorted _ stuck⟩

/-- A later call keeps the invariant, or fails and changes nothing. -/
lemma Inv.again (h : Inv s) (unix : ℕ) (running : s.running = true) (id : boot.bootId = s.bootId)
    (written : Option (List String)) :
    (∃ r store, record s.store boot items mem unix (.there written) = (.ok (some r), store) ∧
      Inv ⟨store, s.bootId, true, s.enter r.file items⟩) ∨
    record s.store boot items mem unix (.there written) = (.error (), s.store) := by
  obtain ⟨e, older, ledger, ready, there⟩ := h.ready running
  have told := h.told
  rw [ledger] at told
  obtain ⟨⟨file, c⟩, here, name⟩ := List.mem_map.mp there
  obtain rfl : file = e.file := name
  obtain ⟨a, rfl, tells⟩ := told.1 c here
  have own : thisFile s.store.files boot.bootId = some (e.file, some a) := by
    rw [id]
    exact ready.thisFile_eq h.sorted here
  by_cases same : a.items = items
  · refine Or.inl ⟨_, _, record_same mem unix own same written, h.sorted, ?_, fun _ => ?_⟩
    · rw [Node.enter_again running ledger]
      obtain rfl : e.items = items := tells.items.symm.trans same
      refine ⟨fun c' here' => ?_, told.2⟩
      obtain ⟨a', content, tells'⟩ := told.1 c' here'
      exact ⟨a', content, tells'.same⟩
    · exact ⟨_, _, Node.enter_again running ledger _ _, ready, there⟩
  · cases written with
    | none => exact Or.inr (record_again_unwritten mem unix own same)
    | some stuck =>
      have finds : Finds older.head? (prevFile s.store.files (some (e.file, some a))) := by
        refine ready.finds h.sorted told.2 fun f _ => ?_
        rw [Option.map_some, Option.some.injEq]
      have tells' : Entry.Tells older.head? ⟨e.file, items, e.items :: e.earlier⟩
          (taken boot items mem (rfc3339 unix) (prevFile s.store.files (some (e.file, some a)))
            (some a)) :=
        finds.tells_again tells
      obtain ⟨events, made⟩ := record_again mem unix stuck own same
      refine Or.inl ⟨_, _, made, ?_, ?_, fun _ => ?_⟩
      · exact (OrderedMap.increasing_insert h.sorted _ _).sublist (dropOldest_sublist _ stuck)
      · rw [Node.enter_again running ledger]
        exact (tells'.insert h.sorted told.2).mono (dropOldest_sublist _ stuck).subset
      · exact ⟨_, _, Node.enter_again running ledger _ _, ready.write h.sorted _ stuck⟩

/-- **A clean step keeps the invariant.** -/
lemma Inv.step (h : Inv s) {e : Event} (clean : Clean s e) : Inv (step s e) := by
  cases e with
  | boots bootId => exact ⟨h.sorted, h.told, nofun⟩
  | records node kernel stormdrive items mem unix disk =>
    rw [Assets.step]
    cases disk with
    | absent => exact h
    | unmade => exact h
    | there written =>
      by_cases running : s.running = true
      · obtain ⟨r, store, made, inv⟩ | failed :=
          h.again ⟨s.bootId, node, kernel, stormdrive⟩ items mem unix running rfl written
        · rw [made]
          exact inv
        · rw [failed]
          exact h
      · have idle := Bool.eq_false_of_not_eq_true running
        obtain ⟨none_own, rest⟩ := clean idle
        cases written with
        | none =>
          rw [record_first_unwritten mem unix ⟨s.bootId, node, kernel, stormdrive⟩ items
            (thisFile_eq_none none_own)]
          exact h
        | some stuck =>
          obtain ⟨newest, few⟩ := rest rfl
          obtain ⟨r, store, made, inv⟩ := h.first ⟨s.bootId, node, kernel, stormdrive⟩ items mem
            idle rfl none_own newest few stuck
          rw [made]
          exact inv

end Steps

/-! ## Runs -/

/-- **In a run whose boots are all clean, every record is complete and the one of this boot is
there**; and each drive that is present has its own item exactly when no two share a bay or, outside
the bays, an identifier.

**Proof sketch.** The names are in the order in which the boots were recorded as far as it matters:
when a boot takes its first record, the file of the boot before is the last one. So it is compared
with that boot, and it stays the last of the others as long as this boot runs. Its own file is the
only one with its end, so that every later call finds it, and it is not among the oldest. -/
theorem complete_of_clean (bootId : String) (es : List Event) (drives : List Drive)
    (hbas : List (String × Hba)) (shelves : List (String × ShelfReport)) :
    (Runs.Each step Clean (start bootId) es → Runs.Throughout step Complete (start bootId) es) ∧
    (OwnItems drives (scannedItems drives hbas shelves .empty) ↔ Apart drives) := by
  constructor
  · intro clean
    have inv := Runs.throughout_of_each (fun s e h ok => h.step ok) (Inv.start bootId) clean
    exact inv.mono fun s => Inv.complete
  · exact ownItems_iff drives hbas shelves

instance (s : Node) (unix : ℕ) : (disk : Disk) → Decidable (CleanFirst s unix disk)
  | .absent | .unmade => .isTrue trivial
  | .there written => inferInstanceAs (Decidable (_ ∧ (written.isSome → _ ∧ _)))

instance (s : Node) : (e : Event) → Decidable (Clean s e)
  | .boots _ => .isTrue trivial
  | .records _ _ _ _ _ unix disk =>
    inferInstanceAs (Decidable (s.running = false → CleanFirst s unix disk))

/-- A call with a disk that works. -/
def Event.call (items : Items) (unix : ℕ) : Event :=
  .records "node1" "6.12.0" "0.9.0" items none unix (.there (some []))

/-- Three boots while the clock goes on. A drive is put in while the second one runs. -/
theorem complete_in_order :
    let drive := Items.empty.insert "bay/5000a/bay/1" (.object [("serial", .str "S1")])
    Runs.Throughout step Complete (start "0a1b6c7e-52f0-4d0e-9d41-3b8a5c1f7e20")
      [.call .empty 1790000000, .boots "7d2e9f14-08c3-4b6a-a1f5-6e0d3c9b8a47",
        .call .empty 1790000600, .call drive 1790000900,
        .boots "c4f8a3d1-9b27-4e5c-8f60-1a7d2e4b6c93", .call drive 1790001200] :=
  (complete_of_clean _ _ [] [] []).1 (by decide +kernel)

/-- The record of the last boot names the boot recorded before it. -/
def NamesPrevious (s : Node) : Prop :=
  ∀ e ∈ s.ledger.take 1, ∀ f ∈ s.store.files, f.1 = e.file →
    f.2.bind Assets.previous = (s.ledger.drop 1).head?.map Entry.file

instance : DecidablePred NamesPrevious := fun s =>
  inferInstanceAs (Decidable (∀ e ∈ s.ledger.take 1, ∀ f ∈ s.store.files, f.1 = e.file →
    f.2.bind Assets.previous = (s.ledger.drop 1).head?.map Entry.file))

lemma Complete.namesPrevious {s : Node} (h : Complete s) : NamesPrevious s := by
  intro e first f mem name
  have told := h.told
  cases ledger : s.ledger with
  | nil =>
    rw [ledger] at first
    exact absurd first List.not_mem_nil
  | cons e' older =>
    rw [ledger] at first told
    obtain rfl : e = e' := List.mem_singleton.mp first
    have here : (e.file, f.2) ∈ s.store.files := by
      rw [← name]
      exact mem
    obtain ⟨a, content, tells⟩ := told.1 f.2 here
    rw [content]
    exact tells.previous

/-- **A clock that was ahead**: the first boot is recorded in 2033, and the two after it with the
clock put right. The third is compared with the first one, and so the second is passed over. -/
theorem set_back_forgets :
    ¬ Runs.Throughout step Complete (start "0a1b6c7e-52f0-4d0e-9d41-3b8a5c1f7e20")
      [.call .empty 2000000000, .boots "7d2e9f14-08c3-4b6a-a1f5-6e0d3c9b8a47",
        .call .empty 1790000600, .boots "c4f8a3d1-9b27-4e5c-8f60-1a7d2e4b6c93",
        .call .empty 1790001200] := by
  intro h
  exact absurd h.last.namesPrevious (by decide +kernel)

end Assets

end StormDrive
