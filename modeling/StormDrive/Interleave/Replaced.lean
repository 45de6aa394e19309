import Mathlib.Data.List.Basic
import StormDrive.Interleave.Files

set_option relaxedAutoImplicit false
set_option autoImplicit false

/-!
# Files that are replaced as a whole

Some files of a directory are each replaced as a whole: the new content goes to a temporary file of
its own, that is synced and gets the file's name, and then the directory is synced where that works.
One call at a time replaces a file; the calls of several files come in any order.

## Main definitions

* `Files.Layout` — the files, their temporary names, and the names they are moved to when they are
  given up.
* `Files.Replaced`, `Files.Replaced.step` — the directory with the calls on their way, one file
  operation at a time; the process can be killed and the power can be cut.
* `Files.Replaced.log`, `Files.Replaced.kept` — all that a file ever was, and how much of it is
  behind a sync of the directory.

## Main results

* `Files.Replaced.Inv.step`, `Files.Replaced.Inv.found` — **what is read is the whole of one of the
  contents**, and none from before the last one whose directory was synced.
* `Files.Replaced.Only.step` — **contents of a kind stay so**.
* `Files.Replaced.Latest.step` — **without a power cut it is the last one**.

## Implementation notes

A power cut leaves one of the directories since the last sync, and anything in a file that was not
synced itself. Nothing is assumed about the order in which calls of different files take turns.
-/

namespace Files

/-- The names of the files, of their temporary files, and where files go that are given up. -/
structure Layout (ι κ : Type) where
  name : ι → κ
  temp : ι → κ
  aside : ι → κ
  name_injective : Function.Injective name
  temp_injective : Function.Injective temp
  name_ne_temp : ∀ f g, name f ≠ temp g
  name_ne_aside : ∀ f g, name f ≠ aside g
  aside_ne_temp : ∀ f g, aside f ≠ temp g

/-- A name is that of a temporary file. -/
def Layout.IsTemp {ι κ : Type} (L : Layout ι κ) (x : κ) : Prop := ∃ f, x = L.temp f

lemma Layout.isTemp {ι κ : Type} (L : Layout ι κ) (f : ι) : L.IsTemp (L.temp f) := ⟨f, rfl⟩

/-- What a name is after a file was renamed, if it is not the old one. -/
lemma Disk.dir_rename {κ : Type} [DecidableEq κ] (d : Disk κ) {x z : κ} (y : κ) (ne : z ≠ x) :
    (z = y ∧ (d.rename x y).dir z = d.dir x) ∨ (z ≠ y ∧ (d.rename x y).dir z = d.dir z) := by
  by_cases same : z = y
  · exact Or.inl ⟨same, by rw [same]; exact Function.update_self ..⟩
  · exact Or.inr ⟨same, (Function.update_of_ne same ..).trans (Function.update_of_ne ne ..)⟩

/-- What is read stays where the link and the file stay. -/
lemma Disk.read_congr {κ : Type} {d d' : Disk κ} {x : κ} (dir : d'.dir x = d.dir x)
    (content : ∀ i, d.dir x = some i → d'.content i = d.content i) : d'.read x = d.read x := by
  rw [Disk.read, Disk.read, dir]
  cases link : d.dir x with
  | none => rfl
  | some i => exact congrArg some (content i link)

/-- How far a call is. -/
inductive Stage
  | begun
  /-- It has the temporary file open and has written so many bytes. -/
  | writing (inode off : ℕ)
  | synced
  | renamed
  deriving DecidableEq

/-- A call that replaces a file. -/
structure Replacing where
  body : List UInt8
  stage : Stage
  deriving DecidableEq

/-- The directory and the calls. -/
structure Replaced (ι κ : Type) where
  disk : Disk κ := {}
  calls : ι → Option Replacing := fun _ => none
  /-- The contents that a file has got, one after the other. -/
  log : ι → List (List UInt8) := fun _ => []
  /-- How many of them are behind a sync of the directory. -/
  kept : ι → ℕ := fun _ => 0

/-- What can happen. -/
inductive ReplacedEvent (ι : Type) where
  /-- A call begins, if no other one replaces the file. -/
  | begin (f : ι) (body : List UInt8)
  /-- It creates the temporary file, or empties the one that was left. -/
  | create (f : ι)
  /-- It writes the next bytes. -/
  | write (f : ι) (len : ℕ)
  | sync (f : ι)
  | rename (f : ι)
  | syncDir (f : ι)
  /-- It returns, or an operation of it fails. -/
  | finish (f : ι)
  /-- A file is moved out of the way. -/
  | giveUp (f : ι)
  /-- The process ends, and its calls with it. -/
  | kill
  | powerCut (version : ℕ) (junk : ℕ → List UInt8)

namespace Replaced

variable {ι κ : Type} (L : Layout ι κ)

section Steps

variable [DecidableEq ι] [DecidableEq κ]

/-- A call goes on. -/
def goOn (s : Replaced ι κ) (f : ι) (c : Replacing) (stage : Stage) : Replaced ι κ :=
  { s with calls := Function.update s.calls f (some { c with stage := stage }) }

/-- The call of a file that has one. -/
def onCall (s : Replaced ι κ) (f : ι) (act : Replacing → Replaced ι κ) : Replaced ι κ :=
  match s.calls f with
  | some c => act c
  | none => s

/-- The temporary file of a call gets the file's name. -/
def renamed (s : Replaced ι κ) (f : ι) (c : Replacing) : Replaced ι κ :=
  { s.goOn f c .renamed with
    disk := s.disk.rename (L.temp f) (L.name f)
    log := Function.update s.log f (s.log f ++ [c.body]) }

/-- The directory is synced by a call that has renamed. -/
def dirSynced (s : Replaced ι κ) (f : ι) : Replaced ι κ :=
  { s with
    disk := s.disk.syncDir
    kept := Function.update s.kept f (s.log f).length }

def step (s : Replaced ι κ) : ReplacedEvent ι → Replaced ι κ
  | .begin f body =>
    if (s.calls f).isNone then
      { s with calls := Function.update s.calls f (some ⟨body, .begun⟩) }
    else s
  | .create f => s.onCall f fun c =>
    match c.stage with
    | .begun =>
      { s.goOn f c (.writing (s.disk.created (L.temp f)) 0) with
        disk := s.disk.create (L.temp f) }
    | _ => s
  | .write f len => s.onCall f fun c =>
    match c.stage with
    | .writing i off =>
      { s.goOn f c (.writing i (min (off + len) c.body.length)) with
        disk := s.disk.write i off ((c.body.drop off).take len) }
    | _ => s
  | .sync f => s.onCall f fun c =>
    match c.stage with
    | .writing i off =>
      if off = c.body.length then { s.goOn f c .synced with disk := s.disk.sync i } else s
    | _ => s
  | .rename f => s.onCall f fun c =>
    match c.stage with
    | .synced => s.renamed L f c
    | _ => s
  | .syncDir f => s.onCall f fun c =>
    match c.stage with
    | .renamed => s.dirSynced f
    | _ => s
  | .finish f => { s with calls := Function.update s.calls f none }
  | .giveUp f =>
    if (s.calls f).isNone && (s.disk.dir (L.name f)).isSome then
      { s with
        disk := s.disk.rename (L.name f) (L.aside f)
        kept := Function.update s.kept f 0 }
    else s
  | .kill => { s with calls := fun _ => none }
  | .powerCut version junk =>
    match s.disk.versions[version]? with
    | some dir => { s with disk := s.disk.crash dir junk, calls := fun _ => none }
    | none => s

end Steps

/-! ## What every run keeps -/

/-- What is so of a call in its stage. -/
def Ok (s : Replaced ι κ) (f : ι) (c : Replacing) : Prop :=
  match c.stage with
  | .begun => True
  | .writing i off =>
    s.disk.dir (L.temp f) = some i ∧ s.disk.content i = c.body.take off ∧ off ≤ c.body.length
  | .synced =>
    ∃ i, s.disk.dir (L.temp f) = some i ∧ s.disk.content i = c.body ∧ s.disk.safe i = true
  | .renamed =>
    ∃ i, s.disk.dir (L.name f) = some i ∧ s.disk.content i = c.body ∧ s.disk.safe i = true ∧
      (s.log f).getLast? = some c.body

/-- An inode has a content of a file that is not from before the last one that is kept. -/
structure Holds (s : Replaced ι κ) (f : ι) (i : ℕ) : Prop where
  logged : ∃ k, (s.log f)[k]? = some (s.disk.content i) ∧ s.kept f ≤ k + 1
  safe : s.disk.safe i = true

/-- **In every directory that a power cut may leave, a file is one of its contents.** -/
structure Inv (s : Replaced ι κ) : Prop where
  disk : WellFormed L.IsTemp s.disk
  names : ∀ v ∈ s.disk.versions, ∀ f,
    (v (L.name f) = none ∧ s.kept f = 0) ∨ ∃ i, v (L.name f) = some i ∧ s.Holds f i
  calls : ∀ f c, s.calls f = some c → s.Ok L f c

variable {L} {s s' : Replaced ι κ} {f : ι} {c : Replacing}

lemma Holds.mono {i : ℕ} (h : s.Holds f i)
    (log : ∀ (k : ℕ) b, (s.log f)[k]? = some b → (s'.log f)[k]? = some b)
    (kept : s'.kept f ≤ s.kept f) (content : s'.disk.content i = s.disk.content i)
    (safe : s'.disk.safe i = true) : s'.Holds f i := by
  obtain ⟨k, logged, le⟩ := h.logged
  exact ⟨⟨k, content ▸ log k _ logged, kept.trans le⟩, safe⟩

/-- What is so of a call stays so where its files and its contents stay. -/
lemma Ok.mono (h : s.Ok L f c) (temp : s'.disk.dir (L.temp f) = s.disk.dir (L.temp f))
    (name : s'.disk.dir (L.name f) = s.disk.dir (L.name f)) (log : s'.log f = s.log f)
    (same : ∀ i, s.disk.dir (L.temp f) = some i ∨ s.disk.dir (L.name f) = some i →
      s'.disk.content i = s.disk.content i ∧ (s.disk.safe i = true → s'.disk.safe i = true)) :
    s'.Ok L f c := by
  unfold Ok at h ⊢
  split at h
  · trivial
  · obtain ⟨link, written, le⟩ := h
    exact ⟨temp.trans link, ((same _ (Or.inl link)).1).trans written, le⟩
  · obtain ⟨i, link, written, safe⟩ := h
    obtain ⟨content, stays⟩ := same i (Or.inl link)
    exact ⟨i, temp.trans link, content.trans written, stays safe⟩
  · obtain ⟨i, link, written, safe, last⟩ := h
    obtain ⟨content, stays⟩ := same i (Or.inr link)
    exact ⟨i, name.trans link, content.trans written, stays safe, log ▸ last⟩

lemma Ok.writing (h : s.Ok L f c) {i off : ℕ} (hc : c.stage = .writing i off) :
    s.disk.dir (L.temp f) = some i ∧ s.disk.content i = c.body.take off ∧ off ≤ c.body.length := by
  simpa only [Ok, hc] using h

lemma Ok.synced (h : s.Ok L f c) (hc : c.stage = .synced) :
    ∃ i, s.disk.dir (L.temp f) = some i ∧ s.disk.content i = c.body ∧ s.disk.safe i = true := by
  simpa only [Ok, hc] using h

lemma Ok.renamed (h : s.Ok L f c) (hc : c.stage = .renamed) :
    ∃ i, s.disk.dir (L.name f) = some i ∧ s.disk.content i = c.body ∧ s.disk.safe i = true ∧
      (s.log f).getLast? = some c.body := by
  simpa only [Ok, hc] using h

lemma not_isTemp_name (f : ι) : ¬ L.IsTemp (L.name f) := by
  rintro ⟨g, same⟩
  exact L.name_ne_temp f g same

lemma not_isTemp_aside (f : ι) : ¬ L.IsTemp (L.aside f) := by
  rintro ⟨g, same⟩
  exact L.aside_ne_temp f g same

namespace Inv

/-- No file is in the making under its own name. -/
lemma ne_of_temp (h : Inv L s) {i j : ℕ} {v : κ → Option ℕ} (mem : v ∈ s.disk.versions) {g : ι}
    (link : v (L.name g) = some i) (temp : s.disk.dir (L.temp f) = some j) : i ≠ j := by
  rintro rfl
  exact h.disk.left v mem _ _ (not_isTemp_name g) link _ (L.isTemp f) temp

/-- Two temporary files are two files. -/
lemma temp_ne (h : Inv L s) {i j : ℕ} {g : ι} (other : g ≠ f)
    (link : s.disk.dir (L.temp g) = some i) (temp : s.disk.dir (L.temp f) = some j) : i ≠ j := by
  rintro rfl
  exact other (L.temp_injective
    (h.disk.alone _ h.disk.current _ _ i (L.isTemp g) link temp))

/-- The process ends. -/
lemma kill (h : Inv L s) : Inv L { s with calls := fun _ => none } := by
  refine ⟨h.disk, fun v mem g => (h.names v mem g).imp_right ?_, fun _ _ none => by cases none⟩
  rintro ⟨i, link, holds⟩
  exact ⟨i, link, holds.mono (fun _ _ => id) le_rfl rfl holds.safe⟩

/-- The power is cut. -/
lemma powerCut (h : Inv L s) {v : κ → Option ℕ} (mem : v ∈ s.disk.versions)
    (junk : ℕ → List UInt8) :
    Inv L { s with disk := s.disk.crash v junk, calls := fun _ => none } := by
  refine ⟨h.disk.crash mem junk, fun w memw g => ?_, fun _ _ none => by cases none⟩
  obtain rfl := List.mem_singleton.mp memw
  refine (h.names _ mem g).imp_right ?_
  rintro ⟨i, link, holds⟩
  exact ⟨i, link, holds.mono (fun _ _ => id) le_rfl (if_pos holds.safe) holds.safe⟩

lemma start : Inv L ({} : Replaced ι κ) where
  disk := .start
  names v mem f := by
    rw [List.mem_singleton.mp mem]
    exact Or.inl ⟨rfl, rfl⟩
  calls f c none := by cases none

variable [DecidableEq ι]

/-- **A call goes on.** The invariant stays where the directory stays well-formed, each name is in
each directory what it was in one of before or has a content now, the files that were there stay,
what the call has done is so, and the temporary files of the others stay. -/
lemma goOn (h : Inv L s) {o : Option Replacing} (on : s'.calls = Function.update s.calls f o)
    (disk : WellFormed L.IsTemp s'.disk)
    (names : ∀ v ∈ s'.disk.versions, ∀ g, (∃ w ∈ s.disk.versions, v (L.name g) = w (L.name g)) ∨
      (v (L.name g) = none ∧ s'.kept g = 0) ∨ ∃ i, v (L.name g) = some i ∧ s'.Holds g i)
    (log : ∀ g (k : ℕ) b, (s.log g)[k]? = some b → (s'.log g)[k]? = some b)
    (kept : ∀ g, s'.kept g ≤ s.kept g)
    (same : ∀ v ∈ s.disk.versions, ∀ g i, v (L.name g) = some i →
      s'.disk.content i = s.disk.content i ∧ (s.disk.safe i = true → s'.disk.safe i = true))
    (ok : ∀ c, o = some c → s'.Ok L f c)
    (others : ∀ g c, g ≠ f → s.calls g = some c → s'.Ok L g c) : Inv L s' := by
  refine ⟨disk, fun v mem g => ?_, fun g c hc => ?_⟩
  · obtain ⟨w, memw, eq⟩ | new := names v mem g
    · rw [eq]
      refine (h.names w memw g).imp (fun none => ⟨none.1, ?_⟩) ?_
      · exact Nat.le_zero.mp (none.2 ▸ kept g)
      · rintro ⟨i, link, holds⟩
        obtain ⟨content, stays⟩ := same w memw g i link
        exact ⟨i, link, holds.mono (log g) (kept g) content (stays holds.safe)⟩
    · exact new
  · rw [on] at hc
    by_cases own : g = f
    · subst own
      rw [Function.update_self] at hc
      exact ok c hc
    · rw [Function.update_of_ne own] at hc
      exact others g c own hc

/-- A call goes on that does nothing to the files, or ends. -/
lemma setCall (h : Inv L s) {o : Option Replacing} (ok : ∀ c, o = some c → s.Ok L f c) :
    Inv L { s with calls := Function.update s.calls f o } :=
  h.goOn rfl h.disk (fun v mem _ => Or.inl ⟨v, mem, rfl⟩) (fun _ _ _ => id) (fun _ => le_rfl)
    (fun _ _ _ _ _ => ⟨rfl, id⟩) ok fun g c _ hc => h.calls g c hc

/-- A call writes on. -/
lemma write (h : Inv L s) (hc : s.calls f = some c) {i off : ℕ} (stage : c.stage = .writing i off)
    (len : ℕ) :
    Inv L { s.goOn f c (.writing i (min (off + len) c.body.length)) with
      disk := s.disk.write i off ((c.body.drop off).take len) } := by
  obtain ⟨temp, written, le⟩ := (h.calls f c hc).writing stage
  have name : ∀ v ∈ s.disk.versions, ∀ g j, v (L.name g) = some j → j ≠ i :=
    fun _ mem _ _ link => h.ne_of_temp mem link temp
  refine h.goOn rfl (h.disk.write ..) (fun v mem _ => Or.inl ⟨v, mem, rfl⟩) (fun _ _ _ => id)
    (fun _ => le_rfl) ?_ ?_ ?_
  · intro v mem g j link
    have ne := name v mem g j link
    exact ⟨Function.update_of_ne ne .., (Function.update_of_ne ne ..).trans⟩
  · rintro _ ⟨⟩
    refine ⟨temp, (Function.update_self ..).trans ?_, min_le_right ..⟩
    rw [written, writeAt_take _ _ _ le, List.take_eq_take_iff, Nat.min_assoc, Nat.min_self]
  · intro g c' ne hc'
    refine (h.calls g c' hc').mono rfl rfl rfl ?_
    rintro j (link | link)
    · have ne := h.temp_ne ne link temp
      exact ⟨Function.update_of_ne ne .., (Function.update_of_ne ne ..).trans⟩
    · have ne := name _ h.disk.current g j link
      exact ⟨Function.update_of_ne ne .., (Function.update_of_ne ne ..).trans⟩

/-- A call that has written everything syncs the file. -/
lemma sync (h : Inv L s) (hc : s.calls f = some c) {i : ℕ}
    (stage : c.stage = .writing i c.body.length) :
    Inv L { s.goOn f c .synced with disk := s.disk.sync i } := by
  obtain ⟨temp, written, -⟩ := (h.calls f c hc).writing stage
  have stays : ∀ j, s.disk.safe j = true → (s.disk.sync i).safe j = true := by
    intro j safe
    by_cases same : j = i
    · rw [same]
      exact Function.update_self ..
    · exact (Function.update_of_ne same ..).trans safe
  refine h.goOn rfl (h.disk.sync i) (fun v mem _ => Or.inl ⟨v, mem, rfl⟩) (fun _ _ _ => id)
    (fun _ => le_rfl) (fun _ _ _ j _ => ⟨rfl, stays j⟩) ?_ ?_
  · rintro _ ⟨⟩
    exact ⟨i, temp, written.trans (List.take_length ..), Function.update_self ..⟩
  · intro g c' _ hc'
    exact (h.calls g c' hc').mono rfl rfl rfl fun j _ => ⟨rfl, stays j⟩

/-- The directory is synced: what the call renamed is there for good. -/
lemma dirSynced (h : Inv L s) (hc : s.calls f = some c) (stage : c.stage = .renamed) :
    Inv L (s.dirSynced f) := by
  obtain ⟨i, link, written, safe, last⟩ := (h.calls f c hc).renamed stage
  refine ⟨h.disk.syncDir, fun v mem g => ?_, fun g c' hc' => ?_⟩
  · obtain rfl := List.mem_singleton.mp mem
    by_cases same : g = f
    · subst same
      have kept : (s.dirSynced g).kept g = (s.log g).length := Function.update_self ..
      refine Or.inr ⟨i, link, ⟨(s.log g).length - 1, ?_, ?_⟩, safe⟩
      · rw [List.getLast?_eq_getElem?] at last
        exact last.trans (congrArg some written.symm)
      · omega
    · have kept : (s.dirSynced f).kept g = s.kept g := Function.update_of_ne same ..
      refine (h.names _ h.disk.current g).imp (fun none => ⟨none.1, kept.trans none.2⟩) ?_
      rintro ⟨j, link, holds⟩
      exact ⟨j, link, holds.mono (fun _ _ => id) (le_of_eq kept) rfl holds.safe⟩
  · exact (h.calls g c' hc').mono rfl rfl rfl fun j _ => ⟨rfl, id⟩

variable [DecidableEq κ]

/-- A call creates its temporary file. -/
lemma create (h : Inv L s) :
    Inv L { s.goOn f c (.writing (s.disk.created (L.temp f)) 0) with
      disk := s.disk.create (L.temp f) } := by
  have temp := L.isTemp f
  -- the inode is none that a file or another call has
  have name : ∀ v ∈ s.disk.versions, ∀ g i, v (L.name g) = some i →
      i ≠ s.disk.created (L.temp f) := fun _ mem _ _ link =>
    h.disk.ne_created temp mem (not_isTemp_name _) link
  have other : ∀ g, g ≠ f → ∀ i, s.disk.dir (L.temp g) = some i →
      i ≠ s.disk.created (L.temp f) := by
    rintro g ne i link rfl
    exact ne (L.temp_injective (h.disk.eq_of_created temp link)).symm
  refine h.goOn rfl (h.disk.create temp) ?_ (fun _ _ _ => id) (fun _ => le_rfl) ?_ ?_ ?_
  · intro v mem g
    obtain rfl | mem := List.mem_cons.mp mem
    · exact Or.inl ⟨s.disk.dir, h.disk.current, Function.update_of_ne (L.name_ne_temp g f) ..⟩
    · exact Or.inl ⟨v, mem, rfl⟩
  · intro v mem g i link
    have ne := name v mem g i link
    exact ⟨Function.update_of_ne ne .., (Function.update_of_ne ne ..).trans⟩
  · rintro _ ⟨⟩
    exact ⟨Function.update_self .., Function.update_self .., Nat.zero_le _⟩
  · intro g c' ne hc
    refine (h.calls g c' hc).mono
      (Function.update_of_ne (fun same => ne (L.temp_injective same)) ..)
      (Function.update_of_ne (L.name_ne_temp g f) ..) rfl ?_
    rintro i (link | link)
    · have ne := other g ne i link
      exact ⟨Function.update_of_ne ne .., (Function.update_of_ne ne ..).trans⟩
    · have ne := name _ h.disk.current g i link
      exact ⟨Function.update_of_ne ne .., (Function.update_of_ne ne ..).trans⟩

/-- **The new content gets the name.** -/
lemma rename (h : Inv L s) (hc : s.calls f = some c) (stage : c.stage = .synced) :
    Inv L (s.renamed L f c) := by
  obtain ⟨i, temp, written, safe⟩ := (h.calls f c hc).synced stage
  have log : ∀ g (k : ℕ) b, (s.log g)[k]? = some b →
      ((s.renamed L f c).log g)[k]? = some b := by
    intro g k b logged
    by_cases same : g = f
    · subst same
      have : (s.renamed L g c).log g = s.log g ++ [c.body] := Function.update_self ..
      rw [this, List.getElem?_append_left (List.getElem?_eq_some_iff.mp logged).1, logged]
    · have : (s.renamed L f c).log g = s.log g := Function.update_of_ne same ..
      rw [this, logged]
  have own : (s.renamed L f c).log f = s.log f ++ [c.body] := Function.update_self ..
  have last : (s.renamed L f c).disk.dir (L.name f) = some i := (Function.update_self ..).trans temp
  refine h.goOn rfl (h.disk.rename _ (not_isTemp_name f)) ?_ log (fun _ => le_rfl)
    (fun _ _ _ _ _ => ⟨rfl, id⟩) ?_ ?_
  · intro v mem g
    obtain rfl | mem := List.mem_cons.mp mem
    · obtain ⟨same, -⟩ | ⟨-, old⟩ := s.disk.dir_rename (L.name f) (L.name_ne_temp g f)
      · obtain rfl := L.name_injective same
        refine Or.inr (Or.inr ⟨i, last, ⟨(s.log g).length, ?_, ?_⟩, safe⟩)
        · rw [own, List.getElem?_concat_length]
          exact congrArg some written.symm
        · -- no more was kept than there was
          show s.kept g ≤ _
          obtain ⟨-, none⟩ | ⟨j, -, holds⟩ := h.names _ h.disk.current g
          · omega
          · obtain ⟨k, logged, le⟩ := holds.logged
            have := (List.getElem?_eq_some_iff.mp logged).1
            omega
      · exact Or.inl ⟨s.disk.dir, h.disk.current, old⟩
    · exact Or.inl ⟨v, mem, rfl⟩
  · rintro _ ⟨⟩
    exact ⟨i, last, written, safe, by rw [own, List.getLast?_concat]⟩
  · intro g c' ne hc'
    refine (h.calls g c' hc').mono ?_ ?_ (Function.update_of_ne ne ..) fun j _ => ⟨rfl, id⟩
    · exact (Function.update_of_ne (L.name_ne_temp f g).symm ..).trans
        (Function.update_of_ne (fun same => ne (L.temp_injective same)) ..)
    · exact (Function.update_of_ne (fun same => ne (L.name_injective same)) ..).trans
        (Function.update_of_ne (L.name_ne_temp g f) ..)

/-- A file is moved out of the way. -/
lemma giveUp (h : Inv L s) (free : s.calls f = none) :
    Inv L { s with
      disk := s.disk.rename (L.name f) (L.aside f)
      kept := Function.update s.kept f 0 } := by
  have kept : ∀ g, Function.update s.kept f 0 g ≤ s.kept g := by
    intro g
    by_cases same : g = f
    · rw [same, Function.update_self]
      exact Nat.zero_le _
    · rw [Function.update_of_ne same]
  refine h.goOn (f := f) (o := none) (free ▸ (Function.update_eq_self f s.calls).symm)
    (h.disk.rename _ (not_isTemp_aside f)) ?_ (fun _ _ _ => id) kept (fun _ _ _ _ _ => ⟨rfl, id⟩)
    (by simp) ?_
  · intro v mem g
    obtain rfl | mem := List.mem_cons.mp mem
    · by_cases same : g = f
      · subst same
        refine Or.inr (Or.inl ⟨?_, Function.update_self ..⟩)
        exact (Function.update_of_ne (L.name_ne_aside g g) ..).trans (Function.update_self ..)
      · refine Or.inl ⟨s.disk.dir, h.disk.current, ?_⟩
        exact (Function.update_of_ne (L.name_ne_aside g f) ..).trans
          (Function.update_of_ne (fun eq => same (L.name_injective eq)) ..)
    · exact Or.inl ⟨v, mem, rfl⟩
  · intro g c' ne hc'
    refine (h.calls g c' hc').mono ?_ ?_ rfl fun j _ => ⟨rfl, id⟩
    · exact (Function.update_of_ne (L.aside_ne_temp f g).symm ..).trans
        (Function.update_of_ne (L.name_ne_temp f g).symm ..)
    · exact (Function.update_of_ne (L.name_ne_aside g f) ..).trans
        (Function.update_of_ne (fun eq => ne (L.name_injective eq)) ..)

/-- **Every step keeps the invariant.** -/
theorem step (h : Inv L s) (e : ReplacedEvent ι) : Inv L (s.step L e) := by
  unfold Replaced.step
  cases e with
  | begin f body =>
    simp only
    split
    · exact h.setCall (by rintro _ ⟨⟩; trivial)
    · exact h
  | create f =>
    simp only [onCall]
    split
    · split
      · exact h.create
      · exact h
    · exact h
  | write f len =>
    simp only [onCall]
    split
    · next c hc =>
      split
      · next i off stage => exact h.write hc stage len
      · exact h
    · exact h
  | sync f =>
    simp only [onCall]
    split
    · next c hc =>
      split
      · next i off stage =>
        split
        · next all => exact h.sync hc (all ▸ stage)
        · exact h
      · exact h
    · exact h
  | rename f =>
    simp only [onCall]
    split
    · next c hc =>
      split
      · next stage => exact h.rename hc stage
      · exact h
    · exact h
  | syncDir f =>
    simp only [onCall]
    split
    · next c hc =>
      split
      · next stage => exact h.dirSynced hc stage
      · exact h
    · exact h
  | finish f => exact h.setCall (by simp)
  | giveUp f =>
    simp only
    split
    · next free =>
      rw [Bool.and_eq_true, Option.isNone_iff_eq_none] at free
      exact h.giveUp free.1
    · exact h
  | kill => exact h.kill
  | powerCut version junk =>
    simp only
    split
    · next dir there => exact h.powerCut (List.mem_of_getElem? there) junk
    · exact h

end Inv

/-- **What is read is the whole of one of the contents**, or there is no file and none was kept. The
content is no older than the last one whose directory was synced, since the file was last given up.
-/
theorem Inv.found (h : Inv L s) (f : ι) : (s.disk.read (L.name f) = none ∧ s.kept f = 0) ∨
    ∃ k body, s.disk.read (L.name f) = some body ∧ (s.log f)[k]? = some body ∧
      s.kept f ≤ k + 1 := by
  refine (h.names _ h.disk.current f).imp (fun none => ⟨?_, none.2⟩) ?_
  · rw [Disk.read, none.1, Option.map_none]
  · rintro ⟨i, link, holds⟩
    obtain ⟨k, logged, le⟩ := holds.logged
    exact ⟨k, _, by rw [Disk.read, link, Option.map_some], logged, le⟩

/-! ## Whose contents they are -/

/-- Every content that a file has got, or is to get, is of a kind. -/
structure Only (P : ι → List UInt8 → Prop) (s : Replaced ι κ) : Prop where
  log : ∀ f, ∀ b ∈ s.log f, P f b
  calls : ∀ f c, s.calls f = some c → P f c.body

/-- A call that begins is given a content of the kind. -/
def Gives (P : ι → List UInt8 → Prop) : ReplacedEvent ι → Prop
  | .begin f body => P f body
  | _ => True

variable {P : ι → List UInt8 → Prop}

lemma only_start : Only P ({} : Replaced ι κ) :=
  ⟨fun _ _ mem => absurd mem List.not_mem_nil, fun _ _ none => by cases none⟩

/-- A call goes on with the content it has, or ends. -/
lemma Only.setCall [DecidableEq ι] (h : Only P s) {o : Option Replacing}
    (ok : ∀ c, o = some c → P f c.body) (log : s'.log = s.log)
    (on : s'.calls = Function.update s.calls f o) : Only P s' := by
  refine ⟨fun g b mem => h.log g b (log ▸ mem), fun g c hc => ?_⟩
  rw [on] at hc
  obtain ⟨rfl, new⟩ | ⟨-, old⟩ := update_cases hc
  · exact ok c new
  · exact h.calls g c old

/-- **Contents of a kind stay so**, where only such are given. -/
theorem Only.step [DecidableEq ι] [DecidableEq κ] (h : Only P s) {e : ReplacedEvent ι}
    (gives : Gives P e) : Only P (s.step L e) := by
  have goes : ∀ {f c}, s.calls f = some c → ∀ stage c', some { c with stage := stage } = some c' →
      P f c'.body := by
    rintro f c hc stage _ ⟨⟩
    exact h.calls f c hc
  unfold Replaced.step
  cases e with
  | begin f body =>
    simp only
    split
    · exact h.setCall (by rintro _ ⟨⟩; exact gives) rfl rfl
    · exact h
  | create f =>
    simp only [onCall]
    split
    · next c hc =>
      split
      · exact h.setCall (goes hc _) rfl rfl
      · exact h
    · exact h
  | write f len =>
    simp only [onCall]
    split
    · next c hc =>
      split
      · exact h.setCall (goes hc _) rfl rfl
      · exact h
    · exact h
  | sync f =>
    simp only [onCall]
    split
    · next c hc =>
      split
      · split
        · exact h.setCall (goes hc _) rfl rfl
        · exact h
      · exact h
    · exact h
  | rename f =>
    simp only [onCall]
    split
    · next c hc =>
      split
      · refine ⟨fun g b mem => ?_, fun g c' hc' => ?_⟩
        · have cases : b ∈ s.log g ∨ (g = f ∧ b = c.body) := by
            by_cases same : g = f
            · subst same
              have log : (s.renamed L g c).log g = s.log g ++ [c.body] := Function.update_self ..
              rw [log] at mem
              simpa using mem
            · have log : (s.renamed L f c).log g = s.log g := Function.update_of_ne same ..
              exact Or.inl (log ▸ mem)
          obtain old | ⟨rfl, rfl⟩ := cases
          · exact h.log g b old
          · exact h.calls g c hc
        · obtain ⟨rfl, new⟩ | ⟨-, old⟩ := update_cases hc'
          · exact goes hc _ c' new
          · exact h.calls g c' old
      · exact h
    · exact h
  | syncDir f =>
    simp only [onCall]
    split
    · split
      · exact ⟨h.log, h.calls⟩
      · exact h
    · exact h
  | finish f => exact h.setCall (o := none) (by simp) rfl rfl
  | giveUp f =>
    simp only
    split
    · exact ⟨h.log, h.calls⟩
    · exact h
  | kill => exact ⟨h.log, fun _ _ none => by cases none⟩
  | powerCut version junk =>
    simp only
    split
    · exact ⟨h.log, fun _ _ none => by cases none⟩
    · exact h

/-! ## Without power cuts -/

/-- A file is the last of its contents. -/
def Latest (L : Layout ι κ) (s : Replaced ι κ) : Prop :=
  ∀ f, s.disk.read (L.name f) = (s.log f).getLast?

/-- Neither is the power cut nor a file given up. -/
def Calm : ReplacedEvent ι → Prop
  | .powerCut _ _ => False
  | .giveUp _ => False
  | _ => True

variable [DecidableEq ι] [DecidableEq κ]

/-- **Without a power cut a file is the last of its contents**, however often the process was killed
in the middle of a call. -/
theorem Latest.step (inv : Inv L s) (h : Latest L s) {e : ReplacedEvent ι} (calm : Calm e) :
    Latest L (s.step L e) := by
  unfold Replaced.step
  cases e with
  | begin f body =>
    simp only
    split
    · exact h
    · exact h
  | create f =>
    simp only [onCall]
    split
    · split
      · intro g
        refine (Disk.read_congr (Function.update_of_ne (L.name_ne_temp g f) ..) ?_).trans (h g)
        intro i link
        exact Function.update_of_ne (inv.disk.ne_created (L.isTemp f) inv.disk.current
          (not_isTemp_name g) link) ..
      · exact h
    · exact h
  | write f len =>
    simp only [onCall]
    split
    · next c hc =>
      split
      · next i off stage =>
        obtain ⟨temp, -, -⟩ := (inv.calls f c hc).writing stage
        intro g
        have same : (s.disk.write i off ((c.body.drop off).take len)).read (L.name g) =
            s.disk.read (L.name g) := Disk.read_congr rfl fun j link =>
          Function.update_of_ne (inv.ne_of_temp inv.disk.current link temp) ..
        exact same.trans (h g)
      · exact h
    · exact h
  | sync f =>
    simp only [onCall]
    split
    · split
      · split
        · exact h
        · exact h
      · exact h
    · exact h
  | rename f =>
    simp only [onCall]
    split
    · next c hc =>
      split
      · next stage =>
        obtain ⟨i, temp, written, -⟩ := (inv.calls f c hc).synced stage
        intro g
        obtain ⟨same, new⟩ | ⟨other, old⟩ := s.disk.dir_rename (L.name f) (L.name_ne_temp g f)
        · obtain rfl := L.name_injective same
          have log : (s.renamed L g c).log g = s.log g ++ [c.body] := Function.update_self ..
          have link : (s.renamed L g c).disk.dir (L.name g) = some i := new.trans temp
          rw [log, List.getLast?_concat, Disk.read, link]
          exact congrArg some written
        · have log : (s.renamed L f c).log g = s.log g :=
            Function.update_of_ne (fun eq => other (congrArg L.name eq)) ..
          rw [log]
          exact (Disk.read_congr old fun _ _ => rfl).trans (h g)
      · exact h
    · exact h
  | syncDir f =>
    simp only [onCall]
    split
    · split
      · exact h
      · exact h
    · exact h
  | finish f => exact h
  | giveUp f => exact calm.elim
  | kill => exact h
  | powerCut version junk => exact calm.elim

end Replaced

end Files
