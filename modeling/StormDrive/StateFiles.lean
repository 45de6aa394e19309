import StormDrive.Interleave.Replaced
import StormDrive.Interleave.Runs
import StormDrive.ShelfReport

set_option relaxedAutoImplicit false
set_option autoImplicit false

/-!
# The state files

`inventory.rs` keeps the daemon's state in files of the data directory: the inventory, the events,
the jobs and the thermal limits. Each is replaced as a whole by `write_atomic`, by one call at a
time, and read by `load_state` when the daemon starts. A file that cannot be read is moved out of
the way.

## Main definitions

* `StateFiles.StateFile` — the files and their names.
* `StateFiles.Codec` — what `serde_json` does.
* `StateFiles.loadState`, `StateFiles.setAside` — reading a file at start.
* `StateFiles.Store.step` — the calls of `write_atomic`, one file operation at a time, with starts,
  kills and power cuts.

## Main results

* `StateFiles.Sound.step` — what happens keeps the files sound.
* `StateFiles.load_whole` — **a start finds each file as some save wrote it**, none from before the
  last one whose directory was synced, and nothing to be set aside; without power cuts it finds what
  was saved last.

## Implementation notes

`create_dir_all` and the log lines are left out. A call of `write_atomic` that fails at an operation
is one that finishes there; the sync of the directory is an event of its own, since it may not
work.
-/

namespace StormDrive

namespace StateFiles

open Files (Layout Replaced Replacing ReplacedEvent)

/-! ## Names -/

/-- The files in the data directory. -/
inductive StateFile
  | inventory
  | events
  | jobs
  | thermalLimits
  deriving DecidableEq, Repr

def StateFile.name : StateFile → String
  | .inventory => "inventory.json"
  | .events => "events.json"
  | .jobs => "jobs.json"
  | .thermalLimits => "thermal-limits.json"

/-- The temporary file of `write_atomic`. -/
def StateFile.tmp (f : StateFile) : String := f.name ++ ".tmp"

/-- Where `set_aside` moves a file. -/
def StateFile.unreadable (f : StateFile) : String := f.name ++ ".unreadable"

/-- The first letter of a name. -/
def StateFile.first : StateFile → Char
  | .inventory => 'i'
  | .events => 'e'
  | .jobs => 'j'
  | .thermalLimits => 't'

lemma StateFile.head_name (f : StateFile) (x : List Char) :
    (f.name.toList ++ x).head? = some f.first := by
  cases f <;> simp [StateFile.name, StateFile.first]

/-- The first letter of a name tells the file. -/
lemma StateFile.eq_of_head {f g : StateFile} {x y : List Char}
    (h : f.name.toList ++ x = g.name.toList ++ y) : f = g := by
  have first := congrArg List.head? h
  rw [StateFile.head_name, StateFile.head_name] at first
  revert first
  cases f <;> cases g <;> decide

lemma StateFile.name_injective : Function.Injective StateFile.name := fun f g h =>
  StateFile.eq_of_head (x := []) (y := []) (by rw [h])

lemma StateFile.append_injective {f g : StateFile} {x y : String}
    (h : f.name ++ x = g.name ++ y) : f = g ∧ x = y := by
  have chars := congrArg String.toList h
  rw [String.toList_append, String.toList_append] at chars
  obtain rfl := StateFile.eq_of_head chars
  exact ⟨rfl, String.toList_inj.mp (List.append_cancel_left chars)⟩

/-- The names of the files, the temporary ones and the unreadable ones. -/
def layout : Layout StateFile String where
  name := StateFile.name
  temp := StateFile.tmp
  aside := StateFile.unreadable
  name_injective := StateFile.name_injective
  temp_injective _ _ h := (StateFile.append_injective h).1
  name_ne_temp f g h := by
    have same : f.name ++ "" = g.name ++ ".tmp" := String.append_empty.trans h
    exact absurd (StateFile.append_injective same).2 (by decide)
  name_ne_aside f g h := by
    have same : f.name ++ "" = g.name ++ ".unreadable" := String.append_empty.trans h
    exact absurd (StateFile.append_injective same).2 (by decide)
  aside_ne_temp f g h := absurd (StateFile.append_injective h).2 (by decide)

/-! ## Reading a file -/

/-- Nothing a writer meant to keep: no bytes, or only NULs and whitespace. -/
def isBlank (bytes : List UInt8) : Bool :=
  bytes.all fun b => b == 0 || b == 0x20 || b == 0x09 || b == 0x0A || b == 0x0C || b == 0x0D

/-- Values as JSON texts and back, as `serde_json` does it: what was written is read, and a blank
text is none. -/
structure Codec (V : StateFile → Type) where
  toVec : (f : StateFile) → V f → List UInt8
  fromSlice : (f : StateFile) → List UInt8 → Except String (V f)
  fromSlice_toVec : ∀ f v, fromSlice f (toVec f v) = .ok v
  fromSlice_blank : ∀ f bytes, isBlank bytes = true → ∃ why, fromSlice f bytes = .error why

variable {V : StateFile → Type} (c : Codec V) (dir : String)

/-- The data directory with the calls of `write_atomic`. -/
abbrev Store := Replaced StateFile String

/-- The path of a file. -/
def pathOf (name : String) : String := dir ++ "/" ++ name

/-- Move a state file out of the way of the next write, and say so. `stuck`: why it cannot be
moved. -/
def setAside (s : Store) (f : StateFile) (why : String) (stuck : Option String) :
    String × Store :=
  match stuck with
  | none =>
    (pathOf dir f.name ++ ": " ++ why ++ "; moved to " ++ pathOf dir f.unreadable ++
      ", starting without it", s.step layout (.giveUp f))
  | some e =>
    (pathOf dir f.name ++ ": " ++ why ++ "; could not move it to " ++ pathOf dir f.unreadable ++
      " (" ++ e ++ "), starting without it", s)

/-- What is said of bytes that are not what we wrote. -/
def whyBad (e : String) (bytes : List UInt8) : String :=
  e ++ " (" ++ toString bytes.length ++ " bytes, starts " ++
    " ".intercalate ((bytes.take 16).map fun b => Ses.hexText [b]) ++ ")"

/-- Read one of our state files at start: the value, a note, and the files after it. `fails`: why
the file that is there cannot be read. -/
def loadState (s : Store) (f : StateFile) (fails stuck : Option String) :
    (Option (V f) × Option String) × Store :=
  match s.disk.read f.name with
  | none => ((none, none), s)
  | some bytes =>
    match fails with
    | some e =>
      let out := setAside dir s f e stuck
      ((none, some out.1), out.2)
    | none =>
      if isBlank bytes then
        ((none, some (pathOf dir f.name ++ ": blank (" ++ toString bytes.length ++
          " bytes), starting without it")), s)
      else
        match c.fromSlice f bytes with
        | .ok v => ((some v, none), s)
        | .error e =>
          let out := setAside dir s f (whyBad e bytes) stuck
          ((none, some out.1), out.2)

/-! ## Saves, starts and crashes -/

/-- What can happen. -/
inductive Event (V : StateFile → Type)
  /-- `write_atomic` is called with the text of a value. -/
  | save (f : StateFile) (v : V f)
  | create (f : StateFile)
  | write (f : StateFile) (len : ℕ)
  | sync (f : StateFile)
  | rename (f : StateFile)
  | syncDir (f : StateFile)
  /-- The call returns, or an operation of it fails. -/
  | finish (f : StateFile)
  /-- `load_state` at a start. -/
  | load (f : StateFile) (fails stuck : Option String)
  /-- The daemon ends. -/
  | kill
  | powerCut (version : ℕ) (junk : ℕ → List UInt8)

def Store.step (s : Store) : Event V → Store
  | .save f v => Replaced.step layout s (.begin f (c.toVec f v))
  | .create f => Replaced.step layout s (.create f)
  | .write f len => Replaced.step layout s (.write f len)
  | .sync f => Replaced.step layout s (.sync f)
  | .rename f => Replaced.step layout s (.rename f)
  | .syncDir f => Replaced.step layout s (.syncDir f)
  | .finish f => Replaced.step layout s (.finish f)
  | .load f fails stuck => (loadState c dir s f fails stuck).2
  | .kill => Replaced.step layout s .kill
  | .powerCut version junk => Replaced.step layout s (.powerCut version junk)

/-! ## What a start finds -/

variable {c : Codec V} {dir : String} {s : Store}

/-- The contents of a file are the texts of values. -/
abbrev Texts (c : Codec V) : Store → Prop := Replaced.Only fun f b => ∃ v, b = c.toVec f v

/-- What holds of the files in every run. -/
structure Sound (c : Codec V) (s : Store) : Prop where
  whole : Replaced.Inv layout s
  texts : Texts c s

/-- No text of a value is blank. -/
lemma Codec.not_blank (c : Codec V) (f : StateFile) (v : V f) : isBlank (c.toVec f v) = false := by
  by_contra blank
  obtain ⟨why, error⟩ := c.fromSlice_blank f _ (Bool.eq_true_of_not_eq_false blank)
  rw [c.fromSlice_toVec] at error
  cases error

/-- A file that is the text of a value is read as the value. -/
lemma loadState_text {f : StateFile} {v : V f} (there : s.disk.read f.name = some (c.toVec f v))
    (stuck : Option String) : loadState c dir s f none stuck = ((some v, none), s) := by
  simp only [loadState, there, c.not_blank f v, c.fromSlice_toVec, Bool.false_eq_true, if_false]

/-- A file that is not there is read as none. -/
lemma loadState_absent {f : StateFile} (absent : s.disk.read f.name = none)
    (fails stuck : Option String) : loadState c dir s f fails stuck = ((none, none), s) := by
  simp only [loadState, absent]

/-- A start leaves the files, or gives one up that it cannot read. -/
lemma loadState_cases (f : StateFile) (fails stuck : Option String) :
    (loadState c dir s f fails stuck).2 = s ∨
      (loadState c dir s f fails stuck).2 = Replaced.step layout s (.giveUp f) := by
  have aside : ∀ why, (setAside dir s f why stuck).2 = s ∨
      (setAside dir s f why stuck).2 = Replaced.step layout s (.giveUp f) := by
    intro why
    cases stuck
    · exact Or.inr rfl
    · exact Or.inl rfl
  unfold loadState
  split
  · exact Or.inl rfl
  · split
    · exact aside _
    · split
      · exact Or.inl rfl
      · split
        · exact Or.inl rfl
        · exact aside _

/-- What happens is an operation of a call, or leaves the files. -/
lemma step_cases (c : Codec V) (dir : String) (s : Store) (e : Event V) :
    Store.step c dir s e = s ∨
    ∃ r, Store.step c dir s e = Replaced.step layout s r ∧
      Replaced.Gives (fun f b => ∃ v, b = c.toVec f v) r := by
  cases e with
  | save f v => exact Or.inr ⟨.begin f (c.toVec f v), rfl, v, rfl⟩
  | create f => exact Or.inr ⟨.create f, rfl, trivial⟩
  | write f len => exact Or.inr ⟨.write f len, rfl, trivial⟩
  | sync f => exact Or.inr ⟨.sync f, rfl, trivial⟩
  | rename f => exact Or.inr ⟨.rename f, rfl, trivial⟩
  | syncDir f => exact Or.inr ⟨.syncDir f, rfl, trivial⟩
  | finish f => exact Or.inr ⟨.finish f, rfl, trivial⟩
  | load f fails stuck =>
    exact (loadState_cases f fails stuck).imp_right fun aside => ⟨.giveUp f, aside, trivial⟩
  | kill => exact Or.inr ⟨.kill, rfl, trivial⟩
  | powerCut version junk => exact Or.inr ⟨.powerCut version junk, rfl, trivial⟩

/-- **What happens keeps the files sound.** -/
theorem Sound.step (h : Sound c s) (e : Event V) : Sound c (Store.step c dir s e) := by
  obtain same | ⟨r, same, gives⟩ := step_cases c dir s e
  · rw [same]
    exact h
  · rw [same]
    exact ⟨h.whole.step r, h.texts.step gives⟩

lemma Sound.start : Sound c ({} : Store) := ⟨Replaced.Inv.start, Replaced.only_start⟩

/-- A run without power cuts in which every file that is there can be read. -/
def Calm : Event V → Prop
  | .powerCut _ _ => False
  | .load _ fails _ => fails = none
  | _ => True

/-- A start finds the text of a value in every file that is there, and leaves it. -/
lemma Sound.loadState_readable (h : Sound c s) (latest : Replaced.Latest layout s) (f : StateFile)
    (stuck : Option String) : (loadState c dir s f none stuck).2 = s := by
  cases there : s.disk.read f.name with
  | none => rw [loadState_absent there]
  | some b =>
    have last : (s.log f).getLast? = some b := (latest f).symm.trans there
    obtain ⟨v, rfl⟩ := h.texts.log f b (List.mem_of_getLast? last)
    rw [loadState_text there]

/-- Without power cuts a file is the last of its contents. -/
lemma Sound.latest_step (h : Sound c s) (latest : Replaced.Latest layout s) {e : Event V}
    (calm : Calm e) : Replaced.Latest layout (Store.step c dir s e) := by
  cases e with
  | load f fails stuck =>
    obtain rfl : fails = none := calm
    rw [Store.step, h.loadState_readable latest]
    exact latest
  | powerCut version junk => exact calm.elim
  | save f v => exact latest.step h.whole (e := .begin f (c.toVec f v)) trivial
  | create f => exact latest.step h.whole (e := .create f) trivial
  | write f len => exact latest.step h.whole (e := .write f len) trivial
  | sync f => exact latest.step h.whole (e := .sync f) trivial
  | rename f => exact latest.step h.whole (e := .rename f) trivial
  | syncDir f => exact latest.step h.whole (e := .syncDir f) trivial
  | finish f => exact latest.step h.whole (e := .finish f) trivial
  | kill => exact latest.step h.whole (e := .kill) trivial

/-- Without power cuts every file is the last of its contents after a run. -/
lemma latest_after (c : Codec V) (dir : String) (es : List (Event V)) (calm : ∀ e ∈ es, Calm e) :
    Replaced.Latest layout (Runs.after (Store.step c dir) ({} : Store) es) := by
  have keep : ∀ (s : Store) (e : Event V), Sound c s ∧ Replaced.Latest layout s → Calm e →
      Sound c (s.step c dir e) ∧ Replaced.Latest layout (s.step c dir e) :=
    fun _ e h ok => ⟨h.1.step e, h.1.latest_step h.2 ok⟩
  exact (Runs.keeps_of_forall keep ⟨Sound.start, fun _ => rfl⟩ calm).2

/-- **A start finds each file as some save wrote it.** After any saves of the state files, in any
order and with failures anywhere, kills and power cuts: reading a file gives the value of one of the
saves that replaced it, no older than the last one whose directory was synced, or there is no such
save and no file; and nothing is said or set aside. Without power cuts it is the value of the last
save that replaced the file. -/
theorem load_whole (c : Codec V) (dir : String) (es : List (Event V)) (f : StateFile)
    (stuck : Option String) :
    let s := Runs.after (Store.step c dir) ({} : Store) es
    (((loadState c dir s f none stuck).1 = (none, none) ∧ s.kept f = 0) ∨
      ∃ k v, (s.log f)[k]? = some (c.toVec f v) ∧ s.kept f ≤ k + 1 ∧
        (loadState c dir s f none stuck).1 = (some v, none)) ∧
    ((∀ e ∈ es, Calm e) → ∀ v, (s.log f).getLast? = some (c.toVec f v) →
      (loadState c dir s f none stuck).1 = (some v, none)) := by
  intro s
  have sound : Sound c s := Runs.keeps (fun _ e h => h.step e) .start es
  constructor
  · obtain ⟨absent, none⟩ | ⟨k, b, there, logged, le⟩ := sound.whole.found f
    · exact Or.inl ⟨by rw [loadState_absent absent], none⟩
    · obtain ⟨v, rfl⟩ := sound.texts.log f b (List.mem_of_getElem? logged)
      exact Or.inr ⟨k, v, logged, le, by rw [loadState_text there]⟩
  · intro calm v last
    have there : s.disk.read f.name = some (c.toVec f v) :=
      (latest_after c dir es calm f).trans last
    rw [loadState_text there]

/-- The bits as JSON texts. -/
def bits : Codec fun _ => Bool where
  toVec _ v := if v then [0x31] else [0x30]
  fromSlice _ bytes :=
    if bytes = [0x31] then .ok true else if bytes = [0x30] then .ok false else .error "no bit"
  fromSlice_toVec _ v := by cases v <;> rfl
  fromSlice_blank _ bytes blank := by
    refine ⟨"no bit", ?_⟩
    rw [if_neg, if_neg]
    · rintro rfl
      exact absurd blank (by decide)
    · rintro rfl
      exact absurd blank (by decide)

/-- The jobs saved twice; the daemon is killed while it writes the second text. -/
def killedInWrite : List (Event fun _ => Bool) :=
  [.save .jobs true, .create .jobs, .write .jobs 1, .sync .jobs, .rename .jobs, .finish .jobs,
    .save .jobs false, .create .jobs, .kill]

/-- A start after that finds the first. -/
theorem load_killed :
    (loadState bits "/data" (Runs.after (Store.step bits "/data") ({} : Store) killedInWrite) .jobs
      none none).1 = (some true, none) := by
  refine (load_whole bits "/data" killedInWrite .jobs none).2 ?_ true (by decide)
  intro e mem
  simp only [killedInWrite, List.mem_cons, List.not_mem_nil, or_false] at mem
  rcases mem with rfl | rfl | rfl | rfl | rfl | rfl | rfl | rfl | rfl <;> trivial

end StateFiles

end StormDrive
