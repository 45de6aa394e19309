import Mathlib.Data.List.Basic
import Mathlib.Logic.Function.Basic
import Mathlib.Order.MinMax

set_option relaxedAutoImplicit false
set_option autoImplicit false

/-!
# A directory of files

What programs do to the files of one directory, and what a crash leaves of it. A name is a link to
an inode, and who has a file open holds the inode: a rename takes the link and leaves the holders,
so that they write into the file under its new name.

## Main definitions

* `Files.Disk` — the links, the contents, what of them is safe, and the directories that a crash
  may leave.
* `Files.Disk.create`, `Files.Disk.write`, `Files.Disk.rename` and the other operations.
* `Files.Disk.crash` — a crash: the directory is one of those since it was last synced, and a file
  that was not synced since it was written has anything in it.
* `Files.WellFormed` — temporary names link inodes of their own, now and after any crash.

## Main results

* `Files.WellFormed.create`, `Files.WellFormed.rename`, `Files.WellFormed.remove`,
  `Files.WellFormed.syncDir`, `Files.WellFormed.crash` — **every operation keeps this**, if what
  is created has a temporary name and is renamed to another.
-/

namespace Files

variable {κ : Type}

/-- One directory and the inodes of its files. -/
structure Disk (κ : Type) where
  /-- The inode of a name. -/
  dir : κ → Option ℕ := fun _ => none
  content : ℕ → List UInt8 := fun _ => []
  /-- The content is on the disk as it is. -/
  safe : ℕ → Bool := fun _ => false
  /-- The directories that a crash may leave. -/
  versions : List (κ → Option ℕ) := [fun _ => none]
  /-- The next inode. -/
  next : ℕ := 0

/-- An entry of a table that was changed at a key is the new one, or one of before. -/
lemma update_cases {α : Type} [DecidableEq κ] {table : κ → Option α} {x y : κ} {new : Option α}
    {a : α} (h : Function.update table x new y = some a) :
    (y = x ∧ new = some a) ∨ (y ≠ x ∧ table y = some a) := by
  by_cases same : y = x
  · rw [same, Function.update_self] at h
    exact Or.inl ⟨same, h⟩
  · rw [Function.update_of_ne same] at h
    exact Or.inr ⟨same, h⟩

/-- A content with data written at an offset; a gap before it is filled with zeros. -/
def writeAt (content : List UInt8) (off : ℕ) (data : List UInt8) : List UInt8 :=
  content.take off ++ List.replicate (off - content.length) 0 ++ data ++
    content.drop (off + data.length)

/-- Writing the next piece of a text behind the beginning of it. -/
lemma writeAt_take (b : List UInt8) (off len : ℕ) (h : off ≤ b.length) :
    writeAt (b.take off) off ((b.drop off).take len) = b.take (off + len) := by
  have length : (b.take off).length = off := by rw [List.length_take, Nat.min_eq_left h]
  have nothing : (b.take off).drop (off + ((b.drop off).take len).length) = [] :=
    List.drop_eq_nil_of_le (by omega)
  rw [writeAt, nothing, length, Nat.sub_self, List.take_take, Nat.min_self, List.replicate_zero,
    List.append_nil, List.append_nil, List.take_add]

namespace Disk

/-- The content of a file. -/
def read (d : Disk κ) (x : κ) : Option (List UInt8) := (d.dir x).map d.content

/-- The directory changes, and is not synced. -/
def relink (d : Disk κ) (dir : κ → Option ℕ) : Disk κ :=
  { d with dir := dir, versions := dir :: d.versions }

/-- The inode that a created file has: that of the name, or a new one. -/
def created (d : Disk κ) (x : κ) : ℕ := (d.dir x).getD d.next

/-- A file is created, or emptied if there is one. -/
def create [DecidableEq κ] (d : Disk κ) (x : κ) : Disk κ :=
  { d with
    dir := Function.update d.dir x (some (d.created x))
    versions := Function.update d.dir x (some (d.created x)) :: d.versions
    content := Function.update d.content (d.created x) []
    safe := Function.update d.safe (d.created x) false
    next := max d.next (d.created x + 1) }

/-- Data is written at an offset of an open file. -/
def write (d : Disk κ) (i off : ℕ) (data : List UInt8) : Disk κ :=
  { d with
    content := Function.update d.content i (writeAt (d.content i) off data)
    safe := Function.update d.safe i false }

/-- An open file is synced. -/
def sync (d : Disk κ) (i : ℕ) : Disk κ := { d with safe := Function.update d.safe i true }

/-- A file gets another name, instead of the file that had it. -/
def rename [DecidableEq κ] (d : Disk κ) (x y : κ) : Disk κ :=
  d.relink (Function.update (Function.update d.dir x none) y (d.dir x))

/-- A file is removed. -/
def remove [DecidableEq κ] (d : Disk κ) (x : κ) : Disk κ := d.relink (Function.update d.dir x none)

/-- The directory is synced. -/
def syncDir (d : Disk κ) : Disk κ := { d with versions := [d.dir] }

/-- A crash leaves a directory, and of what is not safe anything. -/
def crash (d : Disk κ) (dir : κ → Option ℕ) (junk : ℕ → List UInt8) : Disk κ :=
  { d with
    dir := dir, versions := [dir]
    content := fun i => if d.safe i then d.content i else junk i }

end Disk

/-- Every inode is an old one; an inode with a temporary name has no other, in any directory that a
crash may leave; and what any of these has under another name has no temporary name now. -/
structure WellFormed (temp : κ → Prop) (d : Disk κ) : Prop where
  current : d.dir ∈ d.versions
  bound : ∀ v ∈ d.versions, ∀ x i, v x = some i → i < d.next
  alone : ∀ v ∈ d.versions, ∀ x y i, temp x → v x = some i → v y = some i → x = y
  left : ∀ v ∈ d.versions, ∀ y i, ¬ temp y → v y = some i → ∀ x, temp x → d.dir x ≠ some i

namespace WellFormed

variable {temp : κ → Prop} {d : Disk κ}

lemma start : WellFormed temp ({} : Disk κ) where
  current := List.mem_singleton.mpr rfl
  bound v hv x i h := by
    rw [List.mem_singleton.mp hv] at h
    exact absurd h (Option.some_ne_none i).symm
  alone v hv x y i _ h := by
    rw [List.mem_singleton.mp hv] at h
    exact absurd h (Option.some_ne_none i).symm
  left v hv y i _ h := by
    rw [List.mem_singleton.mp hv] at h
    exact absurd h (Option.some_ne_none i).symm

/-- The inode of a created file is a new one, or the one that the name has. -/
lemma created_eq (x : κ) : d.created x = d.next ∨ d.dir x = some (d.created x) := by
  cases h : d.dir x with
  | none => exact Or.inl (by rw [Disk.created, h, Option.getD_none])
  | some i => exact Or.inr (by rw [Disk.created, h, Option.getD_some])

/-- The inode of a created file has no other name. -/
lemma eq_of_created (h : WellFormed temp d) {x y : κ} (hx : temp x)
    (hy : d.dir y = some (d.created x)) : x = y := by
  obtain new | old := created_eq (d := d) x
  · rw [new] at hy
    exact absurd (h.bound _ h.current y _ hy) (lt_irrefl _)
  · exact h.alone _ h.current x y _ hx old hy

/-- The inode of a created file is none that a name which is not temporary has, in any directory
that a crash may leave. -/
lemma ne_created (h : WellFormed temp d) {x : κ} (hx : temp x) {v : κ → Option ℕ}
    (hv : v ∈ d.versions) {y : κ} (hy : ¬ temp y) {i : ℕ} (linked : v y = some i) :
    i ≠ d.created x := by
  rintro rfl
  obtain new | old := created_eq (d := d) x
  · rw [new] at linked
    exact absurd (h.bound v hv y _ linked) (lt_irrefl _)
  · exact h.left v hv y _ hy linked x hx old

/-- A directory that can be again after a crash is well-formed by itself. -/
lemma crash (h : WellFormed temp d) {v : κ → Option ℕ} (hv : v ∈ d.versions)
    (junk : ℕ → List UInt8) : WellFormed temp (d.crash v junk) where
  current := List.mem_singleton.mpr rfl
  bound w hw x i hx := by
    rw [List.mem_singleton.mp hw] at hx
    exact h.bound v hv x i hx
  alone w hw x y i := by
    rw [List.mem_singleton.mp hw]
    exact h.alone v hv x y i
  left w hw y i hy linked x hx same := by
    rw [List.mem_singleton.mp hw] at linked
    have one := h.alone v hv x y i hx same linked
    exact hy (one ▸ hx)

/-- After a sync only the directory as it is can be left. -/
lemma syncDir (h : WellFormed temp d) : WellFormed temp d.syncDir where
  current := List.mem_singleton.mpr rfl
  bound w hw x i hx := by
    rw [List.mem_singleton.mp hw] at hx
    exact h.bound _ h.current x i hx
  alone w hw x y i := by
    rw [List.mem_singleton.mp hw]
    exact h.alone _ h.current x y i
  left w hw y i hy linked := by
    rw [List.mem_singleton.mp hw] at linked
    exact h.left _ h.current y i hy linked

lemma write (h : WellFormed temp d) (i off : ℕ) (data : List UInt8) :
    WellFormed temp (d.write i off data) :=
  ⟨h.current, h.bound, h.alone, h.left⟩

lemma sync (h : WellFormed temp d) (i : ℕ) : WellFormed temp (d.sync i) :=
  ⟨h.current, h.bound, h.alone, h.left⟩

variable [DecidableEq κ]

/-- Creating a temporary file. -/
lemma create (h : WellFormed temp d) {x : κ} (hx : temp x) : WellFormed temp (d.create x) where
  current := List.mem_cons_self ..
  bound w hw y i hy := by
    obtain rfl | hw := List.mem_cons.mp hw
    · obtain ⟨-, new⟩ | ⟨-, old⟩ := update_cases hy
      · rw [← Option.some.inj new]
        exact lt_max_of_lt_right (Nat.lt_succ_self _)
      · exact lt_max_of_lt_left (h.bound _ h.current y i old)
    · exact lt_max_of_lt_left (h.bound w hw y i hy)
  alone w hw a b i ha la lb := by
    obtain rfl | hw := List.mem_cons.mp hw
    · obtain ⟨rfl, newa⟩ | ⟨-, olda⟩ := update_cases la
      · obtain ⟨rfl, -⟩ | ⟨-, oldb⟩ := update_cases lb
        · rfl
        · rw [← Option.some.inj newa] at oldb
          exact h.eq_of_created hx oldb
      · obtain ⟨rfl, newb⟩ | ⟨-, oldb⟩ := update_cases lb
        · rw [← Option.some.inj newb] at olda
          exact (h.eq_of_created hx olda).symm
        · exact h.alone _ h.current a b i ha olda oldb
    · exact h.alone w hw a b i ha la lb
  left w hw y i hy linked a ha := by
    have old : ∃ v ∈ d.versions, v y = some i := by
      obtain rfl | hw := List.mem_cons.mp hw
      · obtain ⟨rfl, -⟩ | ⟨-, linked⟩ := update_cases linked
        · exact absurd hx hy
        · exact ⟨d.dir, h.current, linked⟩
      · exact ⟨w, hw, linked⟩
    obtain ⟨v, hv, linked⟩ := old
    intro same
    obtain ⟨-, new⟩ | ⟨-, now⟩ := update_cases same
    · exact h.ne_created hx hv hy linked (Option.some.inj new).symm
    · exact h.left v hv y i hy linked a ha now

/-- Removing a file. -/
lemma remove (h : WellFormed temp d) (y : κ) : WellFormed temp (d.remove y) := by
  have sub : ∀ a i, Function.update d.dir y none a = some i → d.dir a = some i := by
    intro a i la
    obtain ⟨-, gone⟩ | ⟨-, now⟩ := update_cases la
    · exact absurd gone (Option.some_ne_none i).symm
    · exact now
  refine ⟨List.mem_cons_self .., ?_, ?_, ?_⟩
  · intro w hw a i la
    obtain rfl | hw := List.mem_cons.mp hw
    · exact h.bound _ h.current a i (sub a i la)
    · exact h.bound w hw a i la
  · intro w hw a b i ha la lb
    obtain rfl | hw := List.mem_cons.mp hw
    · exact h.alone _ h.current a b i ha (sub a i la) (sub b i lb)
    · exact h.alone w hw a b i ha la lb
  · intro w hw b i hb lb a ha la
    have now := sub a i la
    obtain rfl | hw := List.mem_cons.mp hw
    · exact h.left _ h.current b i hb (sub b i lb) a ha now
    · exact h.left w hw b i hb lb a ha now

/-- Renaming a file to a name that is not temporary. -/
lemma rename (h : WellFormed temp d) (x : κ) {y : κ} (hy : ¬ temp y) :
    WellFormed temp (d.rename x y) := by
  -- what a link of the new directory was in the old one
  have sub : ∀ a i, Function.update (Function.update d.dir x none) y (d.dir x) a = some i →
      (a = y ∧ d.dir x = some i) ∨ (a ≠ x ∧ d.dir a = some i) := by
    intro a i la
    obtain ⟨hay, la⟩ | ⟨-, la⟩ := update_cases la
    · exact Or.inl ⟨hay, la⟩
    · obtain ⟨-, gone⟩ | ⟨hax, la⟩ := update_cases la
      · exact absurd gone (Option.some_ne_none i).symm
      · exact Or.inr ⟨hax, la⟩
  have notTemp : ∀ a, temp a → a ≠ y := fun a ha same => hy (same ▸ ha)
  refine ⟨List.mem_cons_self .., ?_, ?_, ?_⟩
  · intro w hw a i la
    obtain rfl | hw := List.mem_cons.mp hw
    · obtain ⟨-, la⟩ | ⟨-, la⟩ := sub a i la
      · exact h.bound _ h.current x i la
      · exact h.bound _ h.current a i la
    · exact h.bound w hw a i la
  · intro w hw a b i ha la lb
    obtain rfl | hw := List.mem_cons.mp hw
    · obtain ⟨same, -⟩ | ⟨hax, la⟩ := sub a i la
      · exact absurd same (notTemp a ha)
      · obtain ⟨-, lb⟩ | ⟨-, lb⟩ := sub b i lb
        · exact absurd (h.alone _ h.current a x i ha la lb) hax
        · exact h.alone _ h.current a b i ha la lb
    · exact h.alone w hw a b i ha la lb
  · intro w hw b i hb lb a ha la
    obtain ⟨same, -⟩ | ⟨hax, now⟩ := sub a i la
    · exact notTemp a ha same
    · obtain rfl | hw := List.mem_cons.mp hw
      · obtain ⟨-, lb⟩ | ⟨-, lb⟩ := sub b i lb
        · exact hax (h.alone _ h.current a x i ha now lb)
        · exact h.left _ h.current b i hb lb a ha now
      · exact h.left w hw b i hb lb a ha now

end WellFormed

end Files
