import StormDrive.Interleave.Files
import StormDrive.Interleave.Runs
import StormDrive.ShelfReport

set_option relaxedAutoImplicit false
set_option autoImplicit false

/-!
# The store of firmware images

An upload is written to a temporary file, synced and renamed to the image's name. Every upload of a
name has the same temporary file, and nothing keeps two of them apart: one can write into the file
of the other, also after it was renamed.

## Main definitions

* `FirmwareImages.sha256Hex` — the digest that an upload answers with.
* `FirmwareImages.Store`, `FirmwareImages.Store.step` — the files and the calls, one file operation
  at a time, and crashes.
* `FirmwareImages.OneUpload` — **a stored image is exactly one upload**.
* `FirmwareImages.Alone` — no upload creates the temporary file while another one of the same name
  has it.

## Main results

* `FirmwareImages.oneUpload_of_alone` — in every run in which uploads of one name have the temporary
  file one after the other, every image is at every moment the body of one upload of its name.
* `FirmwareImages.read_of_alone` — and what a reader of an image has read is the beginning of one.

## Implementation notes

A run may have any number of calls, each known by a number. A directory that a crash leaves is one
of those since it was last synced, as on a journaled file system. The time in an answer is left
out.
-/

namespace StormDrive

namespace FirmwareImages

open Bytes

/-! ## The digest -/

/-- The constants of the rounds. -/
def roundConstants : List UInt32 := [
  0x428a2f98, 0x71374491, 0xb5c0fbcf, 0xe9b5dba5, 0x3956c25b, 0x59f111f1, 0x923f82a4, 0xab1c5ed5,
  0xd807aa98, 0x12835b01, 0x243185be, 0x550c7dc3, 0x72be5d74, 0x80deb1fe, 0x9bdc06a7, 0xc19bf174,
  0xe49b69c1, 0xefbe4786, 0x0fc19dc6, 0x240ca1cc, 0x2de92c6f, 0x4a7484aa, 0x5cb0a9dc, 0x76f988da,
  0x983e5152, 0xa831c66d, 0xb00327c8, 0xbf597fc7, 0xc6e00bf3, 0xd5a79147, 0x06ca6351, 0x14292967,
  0x27b70a85, 0x2e1b2138, 0x4d2c6dfc, 0x53380d13, 0x650a7354, 0x766a0abb, 0x81c2c92e, 0x92722c85,
  0xa2bfe8a1, 0xa81a664b, 0xc24b8b70, 0xc76c51a3, 0xd192e819, 0xd6990624, 0xf40e3585, 0x106aa070,
  0x19a4c116, 0x1e376c08, 0x2748774c, 0x34b0bcb5, 0x391c0cb3, 0x4ed8aa4a, 0x5b9cca4f, 0x682e6ff3,
  0x748f82ee, 0x78a5636f, 0x84c87814, 0x8cc70208, 0x90befffa, 0xa4506ceb, 0xbef9a3f7, 0xc67178f2]

/-- The digest of nothing. -/
def digestStart : List UInt32 := [
  0x6a09e667, 0xbb67ae85, 0x3c6ef372, 0xa54ff53a, 0x510e527f, 0x9b05688c, 0x1f83d9ab, 0x5be0cd19]

/-- The message with its padding and its length in bits, a whole number of chunks. -/
def padded (data : List UInt8) : List UInt8 :=
  data ++ [0x80] ++ List.replicate ((119 - data.length % 64) % 64) 0 ++
    be 8 (data.length * 8 % 2 ^ 64)

def rotateRight (x n : UInt32) : UInt32 := (x >>> n) ||| (x <<< (32 - n))

/-- The words of the rounds: those of the chunk, and 48 more. -/
def schedule (chunk : List UInt8) : List UInt32 :=
  let words := (List.range 16).map fun i => UInt32.ofNat (ofBe (slice chunk (4 * i) 4))
  (List.range 48).foldl (fun w i =>
    let x := w.getD (i + 1) 0
    let y := w.getD (i + 14) 0
    let s0 := rotateRight x 7 ^^^ rotateRight x 18 ^^^ (x >>> 3)
    let s1 := rotateRight y 17 ^^^ rotateRight y 19 ^^^ (y >>> 10)
    w ++ [w.getD i 0 + s0 + w.getD (i + 9) 0 + s1]) words

/-- One round, with its constant and its word. -/
def digestRound : List UInt32 → UInt32 × UInt32 → List UInt32
  | [a0, a1, a2, a3, a4, a5, a6, a7], (k, w) =>
    let s1 := rotateRight a4 6 ^^^ rotateRight a4 11 ^^^ rotateRight a4 25
    let ch := (a4 &&& a5) ^^^ (~~~a4 &&& a6)
    let t1 := a7 + s1 + ch + k + w
    let s0 := rotateRight a0 2 ^^^ rotateRight a0 13 ^^^ rotateRight a0 22
    let maj := (a0 &&& a1) ^^^ (a0 &&& a2) ^^^ (a1 &&& a2)
    [t1 + (s0 + maj), a0, a1, a2, a3 + t1, a4, a5, a6]
  | a, _ => a

/-- One chunk. -/
def compress (h : List UInt32) (chunk : List UInt8) : List UInt32 :=
  List.zipWith (· + ·) h ((roundConstants.zip (schedule chunk)).foldl digestRound h)

/-- The digest of a message in hexadecimal digits. -/
def sha256Hex (data : List UInt8) : String :=
  let msg := padded data
  let h := ((List.range (msg.length / 64)).map fun i => slice msg (64 * i) 64).foldl compress
    digestStart
  Ses.hexText (h.flatMap fun x => be 4 x.toNat)

example : sha256Hex [0x61, 0x62, 0x63] =
    "ba7816bf8f01cfea414140de5dae2223b00361a396177a9cb410ff61f20015ad" := by
  decide +kernel

/-! ## Names -/

/-- Image names are plain file names. -/
def validImageName (n : String) : Bool :=
  !n.isEmpty && decide (n.utf8ByteSize ≤ 128) && n.toList.head? != some '.' &&
    n.toList.all fun c => c.isAlphanum || c == '.' || c == '_' || c == '-' || c == '+'

/-- The temporary file of an image. -/
def tempName (n : String) : String := "." ++ n ++ ".upload"

/-- A name is that of a temporary file. -/
def IsTemp (x : String) : Prop := ∃ n, x = tempName n

lemma tempName_injective {n m : String} (h : tempName n = tempName m) : n = m := by
  have chars := congrArg String.toList h
  simp only [tempName, String.toList_append] at chars
  exact String.toList_inj.mp (List.append_cancel_left (List.append_cancel_right chars))

/-- An image has no temporary name: it does not begin with a dot. -/
lemma not_isTemp_of_valid {n : String} (h : validImageName n = true) : ¬ IsTemp n := by
  rintro ⟨m, rfl⟩
  have dot : (tempName m).toList.head? = some '.' := by simp [tempName]
  simp [validImageName, dot] at h

lemma isTemp_tempName (n : String) : IsTemp (tempName n) := ⟨n, rfl⟩

/-! ## Calls -/

/-- What an upload answers with. -/
structure Image where
  name : String
  size : ℕ
  sha256 : String
  deriving DecidableEq

/-- How far an upload is. -/
inductive Phase
  | begun
  /-- It has the temporary file open and has written so many bytes. -/
  | writing (inode off : ℕ)
  | synced
  | renamed
  | answered (img : Image)
  | failed

/-- An upload. -/
structure Upload where
  name : String
  body : List UInt8
  phase : Phase

/-- It has the temporary file: it created it, and has not renamed it. -/
def Upload.HasTemp (u : Upload) : Prop :=
  match u.phase with
  | .writing _ _ => True
  | .synced => True
  | _ => False

/-- What a crash leaves of a call: its answer, if it had one. -/
def Upload.died (u : Upload) : Upload :=
  match u.phase with
  | .answered _ => u
  | _ => { u with phase := .failed }

/-- A call that reads an image, and what it has read. -/
structure Reader where
  name : String
  inode : ℕ
  got : List UInt8

/-- The files and the calls. -/
structure Store where
  disk : Files.Disk String := {}
  uploads : ℕ → Option Upload := fun _ => none
  readers : ℕ → Option Reader := fun _ => none
  /-- What was under a name at some moment. -/
  seen : String → List UInt8 → Prop := fun _ _ => False

/-- What can happen. -/
inductive Event
  /-- An upload comes in. -/
  | begin (k : ℕ) (name : String) (body : List UInt8)
  /-- It creates its temporary file. -/
  | create (k : ℕ)
  /-- It writes the next bytes of its body. -/
  | write (k len : ℕ)
  | sync (k : ℕ)
  | rename (k : ℕ)
  | syncDir (k : ℕ)
  | answer (k : ℕ)
  /-- An operation of it fails, and it with it. -/
  | fail (k : ℕ)
  | delete (name : String)
  /-- An image is opened, for the list or for an update. -/
  | openFile (r : ℕ) (name : String)
  | readOn (r len : ℕ)
  /-- A crash, which leaves one of the directories there were. -/
  | crash (version : ℕ) (junk : ℕ → List UInt8)

namespace Store

/-- An upload goes on. -/
def setPhase (s : Store) (k : ℕ) (u : Upload) (phase : Phase) : Store :=
  { s with uploads := Function.update s.uploads k (some { u with phase := phase }) }

/-- An operation of an upload that is in the phase for it. -/
def onUpload (s : Store) (k : ℕ) (f : Upload → Store) : Store :=
  match s.uploads k with
  | some u => f u
  | none => s

/-- What happens to the files and the calls. -/
def act (s : Store) : Event → Store
  | .begin k name body =>
    if (s.uploads k).isNone && validImageName name && !body.isEmpty then
      { s with uploads := Function.update s.uploads k (some ⟨name, body, .begun⟩) }
    else s
  | .create k => s.onUpload k fun u =>
    match u.phase with
    | .begun =>
      { s.setPhase k u (.writing (s.disk.created (tempName u.name)) 0) with
        disk := s.disk.create (tempName u.name) }
    | _ => s
  | .write k len => s.onUpload k fun u =>
    match u.phase with
    | .writing i off =>
      { s.setPhase k u (.writing i (min (off + len) u.body.length)) with
        disk := s.disk.write i off ((u.body.drop off).take len) }
    | _ => s
  | .sync k => s.onUpload k fun u =>
    match u.phase with
    | .writing i off =>
      if off = u.body.length then { s.setPhase k u .synced with disk := s.disk.sync i } else s
    | _ => s
  | .rename k => s.onUpload k fun u =>
    match u.phase with
    | .synced =>
      if (s.disk.dir (tempName u.name)).isSome then
        { s.setPhase k u .renamed with disk := s.disk.rename (tempName u.name) u.name }
      else s.setPhase k u .failed
    | _ => s
  | .syncDir k => s.onUpload k fun u =>
    match u.phase with
    | .renamed => { s with disk := s.disk.syncDir }
    | _ => s
  | .answer k => s.onUpload k fun u =>
    match u.phase with
    | .renamed => s.setPhase k u (.answered ⟨u.name, u.body.length, sha256Hex u.body⟩)
    | _ => s
  | .fail k => s.onUpload k fun u =>
    match u.phase with
    | .answered _ => s
    | _ => s.setPhase k u .failed
  | .delete name =>
    if validImageName name && (s.disk.dir name).isSome then
      { s with disk := s.disk.remove name }
    else s
  | .openFile r name =>
    match s.disk.dir name with
    | some i =>
      if validImageName name then
        { s with readers := Function.update s.readers r (some ⟨name, i, []⟩) }
      else s
    | none => s
  | .readOn r len =>
    match s.readers r with
    | some f =>
      { s with
        readers := Function.update s.readers r
          (some { f with got := f.got ++ ((s.disk.content f.inode).drop f.got.length).take len }) }
    | none => s
  | .crash version junk =>
    match s.disk.versions[version]? with
    | some dir =>
      { s with
        disk := s.disk.crash dir junk
        uploads := fun k => (s.uploads k).map Upload.died
        readers := fun _ => none }
    | none => s

/-- What is under the names now was seen there. -/
def look (s : Store) : Store :=
  { s with seen := fun n b => s.seen n b ∨ s.disk.read n = some b }

def step (s : Store) (e : Event) : Store := (s.act e).look

/-- There is an upload of the name with the body. -/
def Submitted (s : Store) (n : String) (b : List UInt8) : Prop :=
  ∃ k u, s.uploads k = some u ∧ u.name = n ∧ u.body = b

end Store

/-! ## The promise -/

/-- **A stored image is exactly one upload.** -/
structure OneUpload (s : Store) : Prop where
  /-- Under an image's name there is nothing, or the body of an upload of that name. -/
  file : ∀ n, validImageName n = true → ∀ b, s.disk.read n = some b → s.Submitted n b
  /-- An answer has the size and the digest of a body that was under the name. -/
  answered : ∀ k u img, s.uploads k = some u → u.phase = .answered img →
    ∃ b, s.seen u.name b ∧ img.size = b.length ∧ img.sha256 = sha256Hex b

/-- An upload creates the temporary file while no other of its name has it. -/
def Alone (s : Store) : Event → Prop
  | .create k => ∀ u, s.uploads k = some u → ∀ k' u', k' ≠ k → s.uploads k' = some u' →
    u'.name = u.name → ¬ u'.HasTemp
  | _ => True

/-! ## What runs keep -/

/-- A file that is an upload of a name and is not written any more: it is safe, and no temporary
name links it. -/
structure Fixed (s : Store) (n : String) (i : ℕ) : Prop where
  submitted : s.Submitted n (s.disk.content i)
  safe : s.disk.safe i = true
  old : i < s.disk.next
  left : ∀ x, IsTemp x → s.disk.dir x ≠ some i

/-- What is so of an upload that is in its phase: who writes has written the beginning of its body
to the temporary file, and who has renamed it has had its body under the name. -/
def Store.Ok (s : Store) (u : Upload) : Prop :=
  match u.phase with
  | .begun => True
  | .writing i off =>
    s.disk.dir (tempName u.name) = some i ∧ s.disk.content i = u.body.take off ∧
      off ≤ u.body.length
  | .synced =>
    ∃ i, s.disk.dir (tempName u.name) = some i ∧ s.disk.content i = u.body ∧ s.disk.safe i = true
  | .renamed => s.seen u.name u.body
  | .answered img => s.seen u.name u.body ∧ img = ⟨u.name, u.body.length, sha256Hex u.body⟩
  | .failed => True

/-- What every run keeps in which the uploads of a name have its temporary file one after the
other. -/
structure Inv (s : Store) : Prop where
  disk : Files.WellFormed IsTemp s.disk
  names : ∀ k u, s.uploads k = some u → validImageName u.name = true
  /-- In every directory that a crash may leave, an image is fixed. -/
  images : ∀ v ∈ s.disk.versions, ∀ n i, validImageName n = true → v n = some i → Fixed s n i
  ok : ∀ k u, s.uploads k = some u → s.Ok u
  alone : ∀ k u k' u', s.uploads k = some u → s.uploads k' = some u' → u.HasTemp → u'.HasTemp →
    u.name = u'.name → k = k'
  readers : ∀ r f, s.readers r = some f → Fixed s f.name f.inode ∧ f.got <+: s.disk.content f.inode

variable {s s' : Store}

/-- An upload stays submitted when one goes on. -/
lemma Store.Submitted.goOn {k : ℕ} {u : Upload} (hu : s.uploads k = some u) {phase : Phase}
    (on : s'.uploads = Function.update s.uploads k (some { u with phase := phase })) {n : String}
    {b : List UInt8} (h : s.Submitted n b) : s'.Submitted n b := by
  obtain ⟨k', u', hu', name, body⟩ := h
  by_cases same : k' = k
  · rw [same, hu] at hu'
    obtain rfl := Option.some.inj hu'
    exact ⟨k, { u with phase := phase }, by rw [on, Function.update_self], name, body⟩
  · exact ⟨k', u', by rw [on, Function.update_of_ne same, hu'], name, body⟩

/-- A fixed file stays one where its content, its safety and the temporary links to it stay. -/
lemma Fixed.mono {n : String} {i : ℕ} (h : Fixed s n i)
    (submitted : ∀ b, s.Submitted n b → s'.Submitted n b)
    (content : s'.disk.content i = s.disk.content i) (safe : s'.disk.safe i = true)
    (next : s.disk.next ≤ s'.disk.next)
    (left : ∀ x, IsTemp x → s'.disk.dir x = some i → s.disk.dir x = some i) : Fixed s' n i where
  submitted := content ▸ submitted _ h.submitted
  safe := safe
  old := lt_of_lt_of_le h.old next
  left x hx link := h.left x hx (left x hx link)

/-- What is so of an upload stays so where its temporary file stays, if it has one. -/
lemma Store.Ok.mono {u : Upload} (h : s.Ok u) (seen : ∀ n b, s.seen n b → s'.seen n b)
    (dir : u.HasTemp → s'.disk.dir (tempName u.name) = s.disk.dir (tempName u.name))
    (content : u.HasTemp → ∀ i, s.disk.dir (tempName u.name) = some i →
      s'.disk.content i = s.disk.content i)
    (safe : u.HasTemp → ∀ i, s.disk.dir (tempName u.name) = some i → s.disk.safe i = true →
      s'.disk.safe i = true) : s'.Ok u := by
  cases hp : u.phase with
  | begun => simp only [Store.Ok, hp]
  | writing i off =>
    have has : u.HasTemp := by simp only [Upload.HasTemp, hp]
    simp only [Store.Ok, hp] at h ⊢
    obtain ⟨link, same, le⟩ := h
    exact ⟨(dir has).trans link, (content has i link).trans same, le⟩
  | synced =>
    have has : u.HasTemp := by simp only [Upload.HasTemp, hp]
    simp only [Store.Ok, hp] at h ⊢
    obtain ⟨i, link, same, hs⟩ := h
    exact ⟨i, (dir has).trans link, (content has i link).trans same, safe has i link hs⟩
  | renamed =>
    simp only [Store.Ok, hp] at h ⊢
    exact seen _ _ h
  | answered img =>
    simp only [Store.Ok, hp] at h ⊢
    exact ⟨seen _ _ h.1, h.2⟩
  | failed => simp only [Store.Ok, hp]

/-- Who writes has the temporary file, with what it has written. -/
lemma Store.Ok.writing {u : Upload} (h : s.Ok u) {i off : ℕ} (hp : u.phase = .writing i off) :
    s.disk.dir (tempName u.name) = some i ∧ s.disk.content i = u.body.take off ∧
      off ≤ u.body.length := by
  simpa only [Store.Ok, hp] using h

/-- Who has synced has the temporary file with its body. -/
lemma Store.Ok.synced {u : Upload} (h : s.Ok u) (hp : u.phase = .synced) :
    ∃ i, s.disk.dir (tempName u.name) = some i ∧ s.disk.content i = u.body ∧
      s.disk.safe i = true := by
  simpa only [Store.Ok, hp] using h

/-- Who has renamed it has had its body under the name. -/
lemma Store.Ok.renamed {u : Upload} (h : s.Ok u) (hp : u.phase = .renamed) :
    s.seen u.name u.body := by
  simpa only [Store.Ok, hp] using h

/-- And who has answered, with the size and the digest of that. -/
lemma Store.Ok.answered {u : Upload} (h : s.Ok u) {img : Image} (hp : u.phase = .answered img) :
    s.seen u.name u.body ∧ img = ⟨u.name, u.body.length, sha256Hex u.body⟩ := by
  simpa only [Store.Ok, hp] using h

namespace Inv

/-- **An upload goes on.** The invariant stays where the disk stays well-formed, what is fixed stays
fixed, a new image is fixed, what the upload has done is so, and nothing is taken from another. -/
lemma goOn (h : Inv s) {k : ℕ} {u : Upload} (hu : s.uploads k = some u) {phase : Phase}
    (on : s'.uploads = Function.update s.uploads k (some { u with phase := phase }))
    (readers : s'.readers = s.readers) (disk : Files.WellFormed IsTemp s'.disk)
    (images : ∀ v ∈ s'.disk.versions, ∀ n i, validImageName n = true → v n = some i →
      (∃ w ∈ s.disk.versions, w n = some i) ∨ Fixed s' n i)
    (fixed : ∀ n i, Fixed s n i → Fixed s' n i ∧ s'.disk.content i = s.disk.content i)
    (ok : s'.Ok { u with phase := phase })
    (others : ∀ k' u', k' ≠ k → s.uploads k' = some u' → s'.Ok u')
    (alone : Upload.HasTemp { u with phase := phase } → ∀ k' u', k' ≠ k →
      s.uploads k' = some u' → u'.HasTemp → u'.name ≠ u.name) : Inv s' := by
  -- an upload is the one that goes on, or one of before
  have cases : ∀ {k' u'}, s'.uploads k' = some u' →
      (k' = k ∧ u' = { u with phase := phase }) ∨ (k' ≠ k ∧ s.uploads k' = some u') := by
    intro k' u' hu'
    rw [on] at hu'
    exact (Files.update_cases hu').imp_left fun h => ⟨h.1, (Option.some.inj h.2).symm⟩
  refine ⟨disk, ?_, ?_, ?_, ?_, ?_⟩
  · intro k' u' hu'
    obtain ⟨-, rfl⟩ | ⟨-, hu'⟩ := cases hu'
    · exact h.names k u hu
    · exact h.names k' u' hu'
  · intro v hv n i hn link
    obtain ⟨w, hw, link⟩ | new := images v hv n i hn link
    · exact (fixed n i (h.images w hw n i hn link)).1
    · exact new
  · intro k' u' hu'
    obtain ⟨-, rfl⟩ | ⟨ne, hu'⟩ := cases hu'
    · exact ok
    · exact others k' u' ne hu'
  · intro a x b y hx hy hasx hasy name
    obtain ⟨rfl, rfl⟩ | ⟨nea, hx⟩ := cases hx
    · obtain ⟨rfl, -⟩ | ⟨neb, hy⟩ := cases hy
      · rfl
      · exact absurd name.symm (alone hasx b y neb hy hasy)
    · obtain ⟨rfl, rfl⟩ | ⟨neb, hy⟩ := cases hy
      · exact absurd name (alone hasy a x nea hx hasx)
      · exact h.alone a x b y hx hy hasx hasy name
  · intro r f hf
    rw [readers] at hf
    obtain ⟨hfix, pre⟩ := h.readers r f hf
    obtain ⟨hfix', same⟩ := fixed _ _ hfix
    exact ⟨hfix', same ▸ pre⟩

variable {k : ℕ} {u : Upload}

/-- Two uploads that have their temporary files have two names. -/
lemma name_ne (h : Inv s) (hu : s.uploads k = some u) (has : u.HasTemp) {k' : ℕ} {u' : Upload}
    (ne : k' ≠ k) (hu' : s.uploads k' = some u') (has' : u'.HasTemp) : u'.name ≠ u.name :=
  fun name => ne (h.alone k' u' k u hu' hu has' has name)

/-- A temporary name is none of an image. -/
lemma name_ne_temp (h : Inv s) (hu : s.uploads k = some u) {x : String} (hx : IsTemp x) :
    x ≠ u.name :=
  fun same => not_isTemp_of_valid (h.names k u hu) (same ▸ hx)

/-- An upload creates its temporary file. -/
lemma create (h : Inv s) (hu : s.uploads k = some u)
    (alone : ∀ k' u', k' ≠ k → s.uploads k' = some u' → u'.name = u.name → ¬ u'.HasTemp) :
    Inv { s.setPhase k u (.writing (s.disk.created (tempName u.name)) 0) with
      disk := s.disk.create (tempName u.name) } := by
  have temp := isTemp_tempName u.name
  refine h.goOn hu rfl rfl (h.disk.create temp) ?_ ?_ ?_ ?_ ?_
  · intro v hv n i hn link
    obtain rfl | hv := List.mem_cons.mp hv
    · obtain ⟨rfl, -⟩ | ⟨-, old⟩ := Files.update_cases link
      · exact absurd temp (not_isTemp_of_valid hn)
      · exact Or.inl ⟨s.disk.dir, h.disk.current, old⟩
    · exact Or.inl ⟨v, hv, link⟩
  · intro n i hfix
    have other : i ≠ s.disk.created (tempName u.name) := by
      rintro rfl
      obtain new | old := Files.WellFormed.created_eq (d := s.disk) (tempName u.name)
      · exact absurd (new ▸ hfix.old) (lt_irrefl _)
      · exact hfix.left _ temp old
    have content : (s.disk.create (tempName u.name)).content i = s.disk.content i :=
      Function.update_of_ne other ..
    refine ⟨hfix.mono (fun _ => Store.Submitted.goOn hu rfl) content
      ((Function.update_of_ne other ..).trans hfix.safe) (le_max_left ..) ?_, content⟩
    intro x hx link
    obtain ⟨-, new⟩ | ⟨-, old⟩ := Files.update_cases link
    · exact absurd (Option.some.inj new).symm other
    · exact old
  · exact ⟨Function.update_self .., Function.update_self .., Nat.zero_le _⟩
  · intro k' u' ne hu'
    have away : u'.HasTemp → tempName u'.name ≠ tempName u.name := fun has same =>
      alone k' u' ne hu' (tempName_injective same) has
    have kept : u'.HasTemp → ∀ i, s.disk.dir (tempName u'.name) = some i →
        i ≠ s.disk.created (tempName u.name) := by
      rintro has i link rfl
      exact away has (h.disk.eq_of_created temp link).symm
    refine (h.ok k' u' hu').mono (fun _ _ => id) ?_ ?_ ?_
    · intro has
      exact Function.update_of_ne (away has) ..
    · intro has i link
      exact Function.update_of_ne (kept has i link) ..
    · intro has i link safe
      exact (Function.update_of_ne (kept has i link) ..).trans safe
  · intro _ k' u' ne hu' has name
    exact alone k' u' ne hu' name has

/-- An upload writes on. -/
lemma write (h : Inv s) (hu : s.uploads k = some u) {i off : ℕ} (hp : u.phase = .writing i off)
    (len : ℕ) :
    Inv { s.setPhase k u (.writing i (min (off + len) u.body.length)) with
      disk := s.disk.write i off ((u.body.drop off).take len) } := by
  have has : u.HasTemp := by simp only [Upload.HasTemp, hp]
  obtain ⟨link, written, le⟩ := (h.ok k u hu).writing hp
  refine h.goOn hu rfl rfl (h.disk.write ..) (fun v hv n j _ hj => Or.inl ⟨v, hv, hj⟩) ?_ ?_ ?_ ?_
  · intro n j hfix
    have other : j ≠ i := by
      rintro rfl
      exact hfix.left _ (isTemp_tempName _) link
    have content : (s.disk.write i off ((u.body.drop off).take len)).content j =
      s.disk.content j := Function.update_of_ne other ..
    exact ⟨hfix.mono (fun _ => Store.Submitted.goOn hu rfl) content
      ((Function.update_of_ne other ..).trans hfix.safe) le_rfl fun _ _ => id, content⟩
  · refine ⟨link, (Function.update_self ..).trans ?_, min_le_right ..⟩
    rw [written, Files.writeAt_take _ _ _ le, List.take_eq_take_iff, Nat.min_assoc, Nat.min_self]
  · intro k' u' ne hu'
    have kept : u'.HasTemp → ∀ j, s.disk.dir (tempName u'.name) = some j → j ≠ i := by
      rintro has' j link' rfl
      have same := h.disk.alone _ h.disk.current _ _ j (isTemp_tempName u'.name) link' link
      exact h.name_ne hu has ne hu' has' (tempName_injective same)
    refine (h.ok k' u' hu').mono (fun _ _ => id) (fun _ => rfl) ?_ ?_
    · intro has' j link'
      exact Function.update_of_ne (kept has' j link') ..
    · intro has' j link' safe
      exact (Function.update_of_ne (kept has' j link') ..).trans safe
  · exact fun _ k' u' ne hu' has' => h.name_ne hu has ne hu' has'

/-- An upload that has written its body syncs the file. -/
lemma sync (h : Inv s) (hu : s.uploads k = some u) {i : ℕ}
    (hp : u.phase = .writing i u.body.length) :
    Inv { s.setPhase k u .synced with disk := s.disk.sync i } := by
  have has : u.HasTemp := by simp only [Upload.HasTemp, hp]
  obtain ⟨link, written, -⟩ := (h.ok k u hu).writing hp
  have safe : ∀ j, s.disk.safe j = true → (s.disk.sync i).safe j = true := by
    intro j hj
    by_cases same : j = i
    · rw [same]
      exact Function.update_self ..
    · exact (Function.update_of_ne same ..).trans hj
  refine h.goOn hu rfl rfl (h.disk.sync i) (fun v hv n j _ hj => Or.inl ⟨v, hv, hj⟩) ?_ ?_ ?_ ?_
  · intro n j hfix
    exact ⟨hfix.mono (fun _ => Store.Submitted.goOn hu rfl) rfl (safe j hfix.safe) le_rfl
      fun _ _ => id, rfl⟩
  · exact ⟨i, link, written.trans (List.take_length ..), Function.update_self ..⟩
  · intro k' u' ne hu'
    exact (h.ok k' u' hu').mono (fun _ _ => id) (fun _ => rfl) (fun _ _ _ => rfl)
      fun _ j _ => safe j
  · exact fun _ k' u' ne hu' has' => h.name_ne hu has ne hu' has'

/-- An upload goes on that does nothing to the files: it answers, or fails. -/
lemma setPhase (h : Inv s) (hu : s.uploads k = some u) {phase : Phase}
    (ok : (s.setPhase k u phase).Ok { u with phase := phase })
    (done : ¬ Upload.HasTemp { u with phase := phase }) : Inv (s.setPhase k u phase) := by
  refine h.goOn hu rfl rfl h.disk (fun v hv n j _ hj => Or.inl ⟨v, hv, hj⟩) ?_ ok ?_ ?_
  · intro n j hfix
    exact ⟨hfix.mono (fun _ => Store.Submitted.goOn hu rfl) rfl hfix.safe le_rfl fun _ _ => id, rfl⟩
  · intro k' u' _ hu'
    exact (h.ok k' u' hu').mono (fun _ _ => id) (fun _ => rfl) (fun _ _ _ => rfl) fun _ _ _ => id
  · exact fun has => absurd has done

/-- **An upload becomes an image.** What it renames is its body, and no other upload has the
file. -/
lemma rename (h : Inv s) (hu : s.uploads k = some u) (hp : u.phase = .synced) :
    Inv (Store.look { s.setPhase k u .renamed with
      disk := s.disk.rename (tempName u.name) u.name }) := by
  have has : u.HasTemp := by simp only [Upload.HasTemp, hp]
  have valid := not_isTemp_of_valid (h.names k u hu)
  obtain ⟨i, link, written, safe⟩ := (h.ok k u hu).synced hp
  have image : (s.disk.rename (tempName u.name) u.name).dir u.name = some i :=
    (Function.update_self ..).trans link
  -- a temporary link of the new directory was one before, and another
  have left : ∀ x, IsTemp x → ∀ j, (s.disk.rename (tempName u.name) u.name).dir x = some j →
      x ≠ tempName u.name ∧ s.disk.dir x = some j := by
    intro x hx j linked
    obtain ⟨own, -⟩ | ⟨-, linked⟩ := Files.update_cases linked
    · exact absurd own (h.name_ne_temp hu hx)
    · obtain ⟨-, gone⟩ | before := Files.update_cases linked
      · exact absurd gone (Option.some_ne_none j).symm
      · exact before
  refine h.goOn hu rfl rfl (h.disk.rename _ valid) ?_ ?_ ?_ ?_ ?_
  · intro v hv n j hn linked
    obtain rfl | hv := List.mem_cons.mp hv
    · obtain ⟨own, linked⟩ | ⟨-, linked⟩ := Files.update_cases linked
      · obtain rfl := Option.some.inj (link.symm.trans linked)
        refine Or.inr ⟨?_, safe, h.disk.bound _ h.disk.current _ i link, ?_⟩
        · exact ⟨k, { u with phase := .renamed }, Function.update_self .., own.symm, written.symm⟩
        · intro x hx linked
          obtain ⟨other, linked⟩ := left x hx i linked
          exact other (h.disk.alone _ h.disk.current x _ i hx linked link)
      · obtain ⟨-, gone⟩ | ⟨-, old⟩ := Files.update_cases linked
        · exact absurd gone (Option.some_ne_none j).symm
        · exact Or.inl ⟨s.disk.dir, h.disk.current, old⟩
    · exact Or.inl ⟨v, hv, linked⟩
  · intro n j hfix
    exact ⟨hfix.mono (fun _ => Store.Submitted.goOn hu rfl) rfl hfix.safe le_rfl
      fun x hx linked => (left x hx j linked).2, rfl⟩
  · exact Or.inr ((congrArg (Option.map s.disk.content) image).trans (congrArg some written))
  · intro k' u' ne hu'
    refine (h.ok k' u' hu').mono (fun _ _ => Or.inl) ?_ (fun _ _ _ => rfl) fun _ _ _ => id
    intro has'
    have other : tempName u'.name ≠ tempName u.name := fun same =>
      h.name_ne hu has ne hu' has' (tempName_injective same)
    exact (Function.update_of_ne (h.name_ne_temp hu (isTemp_tempName u'.name)) ..).trans
      (Function.update_of_ne other ..)
  · exact fun done => absurd done (by simp only [Upload.HasTemp, not_false_eq_true])

/-- An upload comes in. -/
lemma begin (h : Inv s) (free : s.uploads k = none) {name : String} {body : List UInt8}
    (valid : validImageName name = true) :
    Inv { s with uploads := Function.update s.uploads k (some ⟨name, body, .begun⟩) } := by
  have cases : ∀ {k' u'},
      Function.update s.uploads k (some ⟨name, body, Phase.begun⟩) k' = some u' →
      u' = ⟨name, body, .begun⟩ ∨ s.uploads k' = some u' :=
    fun hu' => (Files.update_cases hu').imp (fun h => (Option.some.inj h.2).symm) And.right
  have fixed : ∀ n i, Fixed s n i →
      Fixed { s with uploads := Function.update s.uploads k (some ⟨name, body, .begun⟩) } n i := by
    intro n i hfix
    refine hfix.mono ?_ rfl hfix.safe le_rfl fun _ _ => id
    rintro b ⟨k', u', hu', hn, hb⟩
    have other : k' ≠ k := by
      rintro rfl
      exact absurd (free.symm.trans hu') (Option.some_ne_none u').symm
    exact ⟨k', u', (Function.update_of_ne other ..).trans hu', hn, hb⟩
  have idle : ¬ Upload.HasTemp ⟨name, body, .begun⟩ := by
    simp only [Upload.HasTemp, not_false_eq_true]
  refine ⟨h.disk, ?_, ?_, ?_, ?_, ?_⟩
  · intro k' u' hu'
    obtain rfl | hu' := cases hu'
    · exact valid
    · exact h.names k' u' hu'
  · exact fun v hv n i hn link => fixed n i (h.images v hv n i hn link)
  · intro k' u' hu'
    obtain rfl | hu' := cases hu'
    · exact trivial
    · exact h.ok k' u' hu'
  · intro a x b y hx hy hasx hasy
    obtain rfl | hx := cases hx
    · exact absurd hasx idle
    · obtain rfl | hy := cases hy
      · exact absurd hasy idle
      · exact h.alone a x b y hx hy hasx hasy
  · intro r f hf
    exact ⟨fixed _ _ (h.readers r f hf).1, (h.readers r f hf).2⟩

/-- The directory is synced. -/
lemma syncDir (h : Inv s) : Inv { s with disk := s.disk.syncDir } := by
  have fixed : ∀ n i, Fixed s n i → Fixed { s with disk := s.disk.syncDir } n i :=
    fun n i hfix => hfix.mono (fun _ => id) rfl hfix.safe le_rfl fun _ _ => id
  refine ⟨h.disk.syncDir, h.names, ?_, h.ok, h.alone, ?_⟩
  · intro v hv n i hn link
    rw [List.mem_singleton.mp hv] at link
    exact fixed n i (h.images _ h.disk.current n i hn link)
  · intro r f hf
    exact ⟨fixed _ _ (h.readers r f hf).1, (h.readers r f hf).2⟩

/-- An image is deleted. -/
lemma delete (h : Inv s) {name : String} (valid : validImageName name = true) :
    Inv { s with disk := s.disk.remove name } := by
  have temp : ∀ x, IsTemp x → x ≠ name := fun x hx same => not_isTemp_of_valid valid (same ▸ hx)
  have kept : ∀ x, IsTemp x → (s.disk.remove name).dir x = s.disk.dir x :=
    fun x hx => Function.update_of_ne (temp x hx) ..
  have fixed : ∀ n i, Fixed s n i → Fixed { s with disk := s.disk.remove name } n i :=
    fun n i hfix => hfix.mono (fun _ => id) rfl hfix.safe le_rfl
      fun x hx link => (kept x hx).symm.trans link
  refine ⟨h.disk.remove name, h.names, ?_, ?_, h.alone, ?_⟩
  · intro v hv n i hn link
    obtain rfl | hv := List.mem_cons.mp hv
    · obtain ⟨-, gone⟩ | ⟨-, old⟩ := Files.update_cases link
      · exact absurd gone (Option.some_ne_none i).symm
      · exact fixed n i (h.images _ h.disk.current n i hn old)
    · exact fixed n i (h.images v hv n i hn link)
  · intro k' u' hu'
    exact (h.ok k' u' hu').mono (fun _ _ => id) (fun _ => kept _ (isTemp_tempName _))
      (fun _ _ _ => rfl) fun _ _ _ => id
  · intro r f hf
    exact ⟨fixed _ _ (h.readers r f hf).1, (h.readers r f hf).2⟩

/-- A reader reads on. -/
lemma reader (h : Inv s) {r : ℕ} {f : Reader} (hfix : Fixed s f.name f.inode)
    (pre : f.got <+: s.disk.content f.inode) :
    Inv { s with readers := Function.update s.readers r (some f) } := by
  have fixed : ∀ n i, Fixed s n i →
      Fixed { s with readers := Function.update s.readers r (some f) } n i :=
    fun n i hfix => hfix.mono (fun _ => id) rfl hfix.safe le_rfl fun _ _ => id
  refine ⟨h.disk, h.names, fun v hv n i hn link => fixed n i (h.images v hv n i hn link), h.ok,
    h.alone, ?_⟩
  intro r' f' hf'
  obtain ⟨-, new⟩ | ⟨-, old⟩ := Files.update_cases hf'
  · obtain rfl := Option.some.inj new
    exact ⟨fixed _ _ hfix, pre⟩
  · exact ⟨fixed _ _ (h.readers r' f' old).1, (h.readers r' f' old).2⟩

/-- **A crash.** What it leaves under an image's name is fixed, so that it was safe. -/
lemma crash (h : Inv s) {v : String → Option ℕ} (hv : v ∈ s.disk.versions)
    (junk : ℕ → List UInt8) :
    Inv { s with
      disk := s.disk.crash v junk
      uploads := fun k => (s.uploads k).map Upload.died
      readers := fun _ => none } := by
  have kept : ∀ w : Upload, w.died.name = w.name ∧ w.died.body = w.body ∧ ¬ w.died.HasTemp ∧
      (s.Ok w → s.Ok w.died) := by
    intro w
    cases hp : w.phase <;>
      simp [Upload.died, Upload.HasTemp, Store.Ok, hp]
  have back : ∀ {k' u'}, (s.uploads k').map Upload.died = some u' →
      ∃ w, s.uploads k' = some w ∧ w.died = u' := fun hu' => Option.map_eq_some_iff.mp hu'
  refine ⟨h.disk.crash hv junk, ?_, ?_, ?_, ?_, ?_⟩
  · intro k' u' hu'
    obtain ⟨w, hw, rfl⟩ := back hu'
    exact (kept w).1 ▸ h.names k' w hw
  · intro w hw n i hn link
    rw [List.mem_singleton.mp hw] at link
    have hfix := h.images v hv n i hn link
    have content : (s.disk.crash v junk).content i = s.disk.content i := if_pos hfix.safe
    have submitted : Store.Submitted { s with
        disk := s.disk.crash v junk
        uploads := fun k => (s.uploads k).map Upload.died
        readers := fun _ => none } n (s.disk.content i) := by
      obtain ⟨k', u', hu', name, body⟩ := hfix.submitted
      exact ⟨k', u'.died, congrArg (Option.map Upload.died) hu', (kept u').1.trans name,
        (kept u').2.1.trans body⟩
    refine ⟨content ▸ submitted, hfix.safe, hfix.old, ?_⟩
    intro x hx same
    have one := h.disk.alone v hv x n i hx same link
    exact not_isTemp_of_valid hn (one ▸ hx)
  · intro k' u' hu'
    obtain ⟨w, hw, rfl⟩ := back hu'
    exact ((kept w).2.2.2 (h.ok k' w hw)).mono (fun _ _ => id)
      (fun has => absurd has (kept w).2.2.1) (fun has => absurd has (kept w).2.2.1)
      fun has => absurd has (kept w).2.2.1
  · intro a x b y hx _ hasx
    obtain ⟨w, -, rfl⟩ := back hx
    exact absurd hasx (kept w).2.2.1
  · intro r f hf
    exact absurd hf (Option.some_ne_none f).symm

/-- Looking at what is under the names changes nothing. -/
lemma look (h : Inv s) : Inv s.look := by
  have fixed : ∀ n i, Fixed s n i → Fixed s.look n i :=
    fun n i hfix => hfix.mono (fun _ => id) rfl hfix.safe le_rfl fun _ _ => id
  refine ⟨h.disk, h.names, fun v hv n i hn link => fixed n i (h.images v hv n i hn link), ?_,
    h.alone, ?_⟩
  · intro k' u' hu'
    exact (h.ok k' u' hu').mono (fun _ _ => Or.inl) (fun _ => rfl) (fun _ _ _ => rfl)
      fun _ _ _ => id
  · intro r f hf
    exact ⟨fixed _ _ (h.readers r f hf).1, (h.readers r f hf).2⟩

/-- At first there is nothing. -/
lemma start : Inv {} where
  disk := Files.WellFormed.start
  names k u hu := absurd hu (Option.some_ne_none u).symm
  images v hv n i _ link := by
    rw [List.mem_singleton.mp hv] at link
    exact absurd link (Option.some_ne_none i).symm
  ok k u hu := absurd hu (Option.some_ne_none u).symm
  alone k u k' u' hu := absurd hu (Option.some_ne_none u).symm
  readers r f hf := absurd hf (Option.some_ne_none f).symm

/-- **Every step keeps the invariant** that does not create the temporary file of another upload. -/
lemma step (h : Inv s) {e : Event} (hok : Alone s e) : Inv (s.step e) := by
  cases e with
  | begin k name body =>
    refine Inv.look ?_
    rw [Store.act]
    split
    · next hb =>
      rw [Bool.and_eq_true, Bool.and_eq_true, Option.isNone_iff_eq_none] at hb
      exact h.begin hb.1.1 hb.1.2
    · exact h
  | create k =>
    refine Inv.look ?_
    rw [Store.act, Store.onUpload]
    cases hu : s.uploads k with
    | none => exact h
    | some u =>
      dsimp only
      split
      · exact h.create hu fun k' u' ne hu' name => hok u hu k' u' ne hu' name
      · exact h
  | write k len =>
    refine Inv.look ?_
    rw [Store.act, Store.onUpload]
    cases hu : s.uploads k with
    | none => exact h
    | some u =>
      dsimp only
      split
      · next i off hp => exact h.write hu hp len
      · exact h
  | sync k =>
    refine Inv.look ?_
    rw [Store.act, Store.onUpload]
    cases hu : s.uploads k with
    | none => exact h
    | some u =>
      dsimp only
      split
      · next i off hp =>
        split
        · next whole => exact h.sync hu (whole ▸ hp)
        · exact h
      · exact h
  | rename k =>
    rw [Store.step, Store.act, Store.onUpload]
    cases hu : s.uploads k with
    | none => exact h.look
    | some u =>
      dsimp only
      split
      · next hp =>
        split
        · exact h.rename hu hp
        · have failed : Inv (s.setPhase k u .failed) := h.setPhase hu trivial id
          exact failed.look
      · exact h.look
  | syncDir k =>
    refine Inv.look ?_
    rw [Store.act, Store.onUpload]
    cases hu : s.uploads k with
    | none => exact h
    | some u =>
      dsimp only
      split
      · exact h.syncDir
      · exact h
  | answer k =>
    refine Inv.look ?_
    rw [Store.act, Store.onUpload]
    cases hu : s.uploads k with
    | none => exact h
    | some u =>
      dsimp only
      split
      · next hp => exact h.setPhase hu ⟨(h.ok k u hu).renamed hp, rfl⟩ id
      · exact h
  | fail k =>
    refine Inv.look ?_
    rw [Store.act, Store.onUpload]
    cases hu : s.uploads k with
    | none => exact h
    | some u =>
      dsimp only
      split
      · exact h
      · exact h.setPhase hu trivial id
  | delete name =>
    refine Inv.look ?_
    rw [Store.act]
    split
    · next hd => exact h.delete (Bool.and_eq_true_iff.mp hd).1
    · exact h
  | openFile r name =>
    refine Inv.look ?_
    rw [Store.act]
    cases link : s.disk.dir name with
    | none => exact h
    | some i =>
      dsimp only
      split
      · next valid =>
        exact h.reader (h.images _ h.disk.current name i valid link) List.nil_prefix
      · exact h
  | readOn r len =>
    refine Inv.look ?_
    rw [Store.act]
    cases hf : s.readers r with
    | none => exact h
    | some f =>
      obtain ⟨hfix, rest, whole⟩ := h.readers r f hf
      refine h.reader hfix ?_
      -- what is read on is the next part
      rw [← whole, List.drop_left]
      exact List.prefix_append_right_inj _ |>.mpr (List.take_prefix ..)
  | crash version junk =>
    refine Inv.look ?_
    rw [Store.act]
    split
    · next v hv => exact h.crash (List.mem_of_getElem? hv) junk
    · exact h

/-- The invariant is what is promised, and more. -/
lemma oneUpload (h : Inv s) : OneUpload s where
  file n hn b hb := by
    obtain ⟨i, link, rfl⟩ := Option.map_eq_some_iff.mp hb
    exact (h.images _ h.disk.current n i hn link).submitted
  answered k u img hu hp := by
    obtain ⟨seen, rfl⟩ := (h.ok k u hu).answered hp
    exact ⟨u.body, seen, rfl, rfl⟩

end Inv

/-- **A stored image is exactly one upload**, in every run in which the uploads of a name have its
temporary file one after the other: whatever else is uploaded, deleted and read, in any order of
the file operations, and wherever it crashes.

**Proof sketch.** The invariant says that who has the temporary file of a name has written to it the
beginning of its body and nothing else, and that an image is a whole body that no one writes any
more. It is kept by every step; the rename is where the one becomes the other. -/
theorem oneUpload_of_alone (es : List Event) (h : Runs.Each Store.step Alone {} es) :
    Runs.Throughout Store.step OneUpload {} es :=
  (Runs.throughout_of_each (fun _ _ inv ok => inv.step ok) Inv.start h).mono
    fun _ => Inv.oneUpload

/-- An image is uploaded, and replaced after the upload was answered. -/
theorem oneUpload_of_replaced :
    Runs.Throughout Store.step OneUpload {} [.begin 0 "fw" [1, 2], .create 0, .write 0 2, .sync 0,
      .rename 0, .syncDir 0, .answer 0, .begin 1 "fw" [3], .create 1, .write 1 1, .sync 1,
      .rename 1] := by
  refine oneUpload_of_alone _ ⟨trivial, ?_, trivial, trivial, trivial, trivial, trivial, trivial,
    ?_, trivial, trivial, trivial, trivial⟩
  · rintro u - k' u' ne hu' - has
    match k', hu' with
    | 0, _ => exact ne rfl
    | k' + 1, hu' => exact absurd hu' (Option.some_ne_none u').symm
  · rintro u - k' u' ne hu' - has
    match k', hu' with
    | 0, hu' =>
      obtain rfl := Option.some.inj hu'
      exact has
    | 1, _ => exact ne rfl
    | k' + 2, hu' => exact absurd hu' (Option.some_ne_none u').symm

/-- Two uploads of a name write into one temporary file, and the first of them to be done renames
what the other has written into. -/
theorem mixed_image :
    ¬ ∀ es : List Event, Runs.Throughout Store.step OneUpload {} es := by
  intro h
  have last := (h [.begin 0 "fw" [1, 2], .begin 1 "fw" [3, 4], .create 0, .create 1, .write 0 2,
    .write 1 1, .sync 0, .rename 0]).last
  obtain ⟨k, u, hu, -, body⟩ := last.file "fw" (by decide) [3, 2] (by decide)
  match k, hu with
  | 0, hu =>
    obtain rfl := Option.some.inj hu
    exact absurd body (by decide)
  | 1, hu =>
    obtain rfl := Option.some.inj hu
    exact absurd body (by decide)
  | k + 2, hu => exact absurd hu (Option.some_ne_none u).symm

/-- What a reader has read is the beginning of an upload, whatever becomes of the image
meanwhile. -/
theorem read_of_alone (es : List Event) (h : Runs.Each Store.step Alone {} es) :
    Runs.Throughout Store.step (fun s => ∀ r f, s.readers r = some f →
      ∃ b, s.Submitted f.name b ∧ f.got <+: b) {} es :=
  (Runs.throughout_of_each (fun _ _ inv ok => inv.step ok) Inv.start h).mono
    fun _ inv r f hf => ⟨_, (inv.readers r f hf).1.submitted, (inv.readers r f hf).2⟩

end FirmwareImages

end StormDrive
