import StormDrive.Microcode
import StormDrive.Bytes.Cut

set_option relaxedAutoImplicit false
set_option autoImplicit false

/-!
# Images that arrive whole

What the device is delivered is the image, piece after piece, or it is not: the fields of the
commands are narrower than the numbers that go into them.

## Main definitions

* `Microcode.Transport` — the three ways in which an image goes out.
* `Microcode.Whole` — the commands deliver the image, in order and on the boundary of the device.
* `Microcode.Transport.Fits` — the numbers go into the fields.

## Main results

* `Microcode.whole_iff` — **an image arrives whole exactly when it fits**.
* `Microcode.long_image_wraps` — an image past 16 MiB that is written over its own beginning.

## Implementation notes

A drive names its offset boundary in its READ BUFFER descriptor. An NVMe controller and an IOM have
one too, which nothing asks for; it is a parameter of the transport.
-/

namespace StormDrive

namespace Microcode

open Bytes Interleave Interleave.Prog Scsi

/-! ## Downloads -/

/-- How an image goes out. The granularity is the boundary of a device that is not asked for it. -/
inductive Transport
  | scsi (path : String)
  | nvme (granularity : ℕ)
  | esp (sg : String) (granularity : ℕ)

/-- What the drive answered to READ BUFFER. -/
def descriptor (t : Script) : Except ScsiError (List UInt8) :=
  (t.findSome? fun
    | ⟨.readBufferDescriptor, raw⟩ => some raw
    | _ => none).getD (.error (.short 0))

/-- The boundary that a descriptor names: a power of 2, or that 0 is the only offset. -/
def namedBoundary : Except ScsiError (List UInt8) → ℕ
  | .error _ => 1
  | .ok raw =>
    if raw.length < 4 then 1 else if raw.getD 0 0 = 0xFF then 0 else 2 ^ (raw.getD 0 0).toNat

namespace Transport

/-- The download of an image. -/
def download (checks : Bool) (chunkKib : ℕ) (image : List UInt8) (rounds : ℕ) :
    Transport → Talk (Except String Unit)
  | .scsi path =>
    okThen (downloadScsi checks path chunkKib image rounds) fun _ => pure (.ok ())
  | .nvme _ => downloadNvme checks chunkKib image rounds
  | .esp sg _ => downloadEsp sg chunkKib image rounds

/-- The boundary that offsets are on: every multiple of it, and 0 for no other offset than 0. -/
def boundary (t : Script) : Transport → ℕ
  | .scsi _ => namedBoundary (descriptor t)
  | .nvme granularity => granularity
  | .esp _ granularity => granularity

/-- The length of a piece. -/
def chunk (checks : Bool) (chunkKib : ℕ) (t : Script) : Transport → Option ℕ
  | .scsi _ => driveChunk checks chunkKib (askedBoundary (descriptor t))
  | .nvme _ => driveChunk checks chunkKib 4096
  | .esp _ _ => some (espChunkLen (chunkKib * 1024))

/-- The modes in which an image goes out. -/
def modes : Transport → List ℕ
  | .scsi _ => [0x0e, 0x07]
  | .nvme _ => [0x11]
  | .esp _ _ => [0x07]

/-- The data comes in units of so many bytes. -/
def unit : Transport → ℕ
  | .nvme _ => 4
  | .scsi _ | .esp _ _ => 1

/-- The numbers go into the fields, and the boundary is kept. -/
def Fits (boundary chunk length : ℕ) : Transport → Prop
  | .scsi _ =>
    lastOffset chunk length < 2 ^ 24 ∧ min chunk length < 2 ^ 24 ∧
      (boundary ∣ chunk ∨ length ≤ chunk)
  | .nvme _ => lastOffset chunk length < 2 ^ 34 ∧ (boundary ∣ chunk ∨ length ≤ chunk)
  | .esp _ _ => length < 2 ^ 32 ∧ (boundary ∣ chunk ∨ length ≤ chunk)

end Transport

/-- The image arrives whole: what the device takes begins at 0 and goes on where it ended, on the
boundary, in one mode, and is the image with less than a unit of zeros behind; every command says
what it carries, and one that is refused is for the offset 0. -/
structure Whole (T : Transport) (image : List UInt8) (t : Script) : Prop where
  contiguous : Contiguous 0 ((received t).map fun q => (q.offset, q.length))
  boundary : ∀ q ∈ received t, T.boundary t ∣ q.offset
  mode : ∃ m ∈ T.modes, ∀ q ∈ received t, q.mode = m
  data : ∃ pad < T.unit, (received t).flatMap (·.data) = image ++ List.replicate pad 0
  sent : ∀ e ∈ t, ∀ q, e.1.piece = some q →
    q.length = q.data.length ∧ q.framed = true ∧ (∀ n, q.total = some n → n = image.length) ∧
      (accepted e = false → q.offset = 0)

/-! ## The loop -/

section Loop

variable {σ : Type} {send : σ → ℕ → List UInt8 → Talk (Except String σ)} {s s' : σ}
  {ps : List (ℕ × List UInt8)} {t : Script}

/-- These pieces are sent, one after the other. -/
inductive Sent (send : σ → ℕ → List UInt8 → Talk (Except String σ)) :
    σ → List (ℕ × List UInt8) → Script → σ → Prop
  | nil (s : σ) : Sent send s [] [] s
  | cons {s s₁ s₂ : σ} {p : ℕ × List UInt8} {ps : List (ℕ × List UInt8)} {t₁ t₂ : Script}
      (first : Trace (send s p.1 p.2) t₁ (.ok s₁)) (rest : Sent send s₁ ps t₂ s₂) :
      Sent send s (p :: ps) (t₁ ++ t₂) s₂

/-- A loop that ends has sent the pieces of the image. -/
lemma trace_sendAll {image : List UInt8} {chunk rounds off : ℕ}
    (run : Trace (sendAll send image chunk rounds off s) t (.ok s')) :
    ∃ ps, Cut chunk image off ps ∧ Sent send s ps t s' := by
  induction rounds generalizing off s t with
  | zero => exact absurd ((trace_ret_iff _ _ _).mp run).2 nofun
  | succ rounds ih =>
    rw [sendAll] at run
    by_cases within : off < image.length
    · rw [if_pos within] at run
      obtain ⟨s₁, t₁, t₂, rfl, first, second⟩ := (trace_okThen_iff _ _ _ _).mp run
      obtain ⟨ps, cut, sent⟩ := ih second
      exact ⟨_, .more within cut, .cons first sent⟩
    · rw [if_neg within] at run
      obtain ⟨rfl, same⟩ := (trace_ret_iff _ _ _).mp run
      obtain rfl := Except.ok.inj same
      exact ⟨[], .done (by omega), .nil _⟩

/-- What a piece is sent as: the device takes it once, in the mode that is left, and only the first
piece is sent another time or in another mode. -/
structure Encodes (send : σ → ℕ → List UInt8 → Talk (Except String σ)) (inv : σ → Prop)
    (mode : σ → ℕ) (enc : ℕ × List UInt8 → Piece) (p : ℕ × List UInt8) : Prop where
  stays : ∀ s t s', inv s → Trace (send s p.1 p.2) t (.ok s') → inv s'
  keeps : ∀ s t s', inv s → Trace (send s p.1 p.2) t (.ok s') → p.1 ≠ 0 → mode s' = mode s
  received : ∀ s t s', inv s → Trace (send s p.1 p.2) t (.ok s') →
    received t = [{ enc p with mode := mode s' }]
  sent : ∀ s t s', inv s → Trace (send s p.1 p.2) t (.ok s') → ∀ e ∈ t, ∀ q,
    e.1.piece = some q → (∃ m, q = { enc p with mode := m }) ∧ (accepted e = false → p.1 = 0)

variable {inv : σ → Prop} {mode : σ → ℕ} {enc : ℕ × List UInt8 → Piece}

lemma Sent.stays (sent : Sent send s ps t s') (encodes : ∀ p ∈ ps, Encodes send inv mode enc p)
    (first : inv s) : inv s' := by
  induction sent with
  | nil s => exact first
  | cons one rest ih =>
    obtain ⟨here, behind⟩ := List.forall_mem_cons.mp encodes
    exact ih behind (here.stays _ _ _ first one)

lemma Sent.keeps (sent : Sent send s ps t s') (encodes : ∀ p ∈ ps, Encodes send inv mode enc p)
    (first : inv s) (later : ∀ p ∈ ps, p.1 ≠ 0) : mode s' = mode s := by
  induction sent with
  | nil s => rfl
  | cons one rest ih =>
    obtain ⟨here, behind⟩ := List.forall_mem_cons.mp encodes
    obtain ⟨now, then_⟩ := List.forall_mem_cons.mp later
    rw [ih behind (here.stays _ _ _ first one) then_, here.keeps _ _ _ first one now]

/-- **The device takes every piece once**, and all in the mode that is left in the end. -/
lemma Sent.received (sent : Sent send s ps t s') (encodes : ∀ p ∈ ps, Encodes send inv mode enc p)
    (first : inv s) (later : ∀ p ∈ ps.tail, p.1 ≠ 0) :
    received t = ps.map fun p => { enc p with mode := mode s' } := by
  induction sent with
  | nil s => rfl
  | cons one rest ih =>
    obtain ⟨here, behind⟩ := List.forall_mem_cons.mp encodes
    have next := here.stays _ _ _ first one
    have taken := ih behind next fun p h => later p (List.mem_of_mem_tail h)
    have kept := rest.keeps behind next later
    rw [Microcode.received, List.filterMap_append]
    show Microcode.received _ ++ Microcode.received _ = _
    rw [taken, here.received _ _ _ first one, List.map_cons, List.singleton_append, kept]

/-- Every command is one for a piece. -/
lemma Sent.sent (sent : Sent send s ps t s') (encodes : ∀ p ∈ ps, Encodes send inv mode enc p)
    (first : inv s) : ∀ e ∈ t, ∀ q, e.1.piece = some q →
      ∃ p ∈ ps, (∃ m, q = { enc p with mode := m }) ∧ (accepted e = false → p.1 = 0) := by
  induction sent with
  | nil s => exact fun _ h => absurd h List.not_mem_nil
  | cons one rest ih =>
    obtain ⟨here, behind⟩ := List.forall_mem_cons.mp encodes
    intro e h q piece
    obtain h | h := List.mem_append.mp h
    · exact ⟨_, List.mem_cons_self .., here.sent _ _ _ first one e h q piece⟩
    · obtain ⟨p, mem, facts⟩ := ih behind (here.stays _ _ _ first one) e h q piece
      exact ⟨p, List.mem_cons_of_mem _ mem, facts⟩

end Loop

/-- **When the pieces arrive whole**: when their commands say their offsets, their lengths and the
length of the image, and the offsets are on the boundary. -/
lemma whole_iff_of_pieces {T : Transport} {image : List UInt8} {t : Script} {c m : ℕ}
    {ps : List (ℕ × List UInt8)} {enc : ℕ × List UInt8 → Piece} (cut : Cut c image 0 ps)
    (took : received t = ps.map fun p => { enc p with mode := m })
    (sent : ∀ e ∈ t, ∀ q, e.1.piece = some q →
      ∃ p ∈ ps, (∃ m, q = { enc p with mode := m }) ∧ (accepted e = false → p.1 = 0))
    (mode : m ∈ T.modes) (framed : ∀ p ∈ ps, (enc p).framed = true)
    (data : ∃ pad < T.unit,
      (ps.flatMap fun p => (enc p).data) = image ++ List.replicate pad 0)
    (full : ∀ p ∈ ps, p.1 + c < image.length → (enc p).data.length = c) :
    Whole T image t ↔
      (∀ p ∈ ps, (enc p).offset = p.1) ∧ (∀ p ∈ ps, (enc p).length = (enc p).data.length) ∧
        (∀ p ∈ ps, ∀ n, (enc p).total = some n → n = image.length) ∧
          ∀ p ∈ ps, T.boundary t ∣ p.1 := by
  have spans : ((received t).map fun q => (q.offset, q.length)) =
      ps.map fun p => ((enc p).offset, (enc p).length) := by
    rw [took, List.map_map]
    rfl
  have mem : ∀ p ∈ ps, { enc p with mode := m } ∈ received t := fun p h =>
    took ▸ List.mem_map_of_mem h
  constructor
  · intro whole
    have said : ∀ p ∈ ps, (enc p).length = (enc p).data.length ∧
        ∀ n, (enc p).total = some n → n = image.length := by
      intro p h
      obtain ⟨e, inTrace, piece⟩ := List.mem_filterMap.mp (mem p h)
      by_cases taken : accepted e = true
      · rw [if_pos taken] at piece
        obtain ⟨length, -, total, -⟩ := whole.sent e inTrace _ piece
        exact ⟨length, total⟩
      · rw [if_neg taken] at piece
        exact absurd piece nofun
    have offsets : ∀ p ∈ ps, (enc p).offset = p.1 := by
      have contiguous := whole.contiguous
      rw [spans] at contiguous
      exact (cut.contiguous_iff fun p h before => by rw [(said p h).1, full p h before]).mp
        contiguous
    refine ⟨offsets, fun p h => (said p h).1, fun p h => (said p h).2, fun p h => ?_⟩
    have on : T.boundary t ∣ (enc p).offset := whole.boundary { enc p with mode := m } (mem p h)
    rw [offsets p h] at on
    exact on
  · rintro ⟨offsets, lengths, totals, on⟩
    refine ⟨?_, fun q h => ?_, ⟨m, mode, fun q h => ?_⟩, ?_, fun e h q piece => ?_⟩
    · rw [spans]
      exact (cut.contiguous_iff fun p h before => by rw [lengths p h, full p h before]).mpr offsets
    · rw [took] at h
      obtain ⟨p, mem, rfl⟩ := List.mem_map.mp h
      rw [offsets p mem]
      exact on p mem
    · rw [took] at h
      obtain ⟨p, mem, rfl⟩ := List.mem_map.mp h
      rfl
    · rw [took, List.flatMap_map]
      exact data
    · obtain ⟨p, mem, ⟨m', rfl⟩, first⟩ := sent e h q piece
      refine ⟨lengths p mem, framed p mem, totals p mem, fun refused => ?_⟩
      rw [offsets p mem]
      exact first refused

/-! ## WRITE BUFFER -/

/-- What WRITE BUFFER says of a piece: offset and length have 24 bits. -/
def scsiPiece (p : ℕ × List UInt8) : Piece :=
  { mode := 0x0e, offset := p.1 % 2 ^ 24, length := p.2.length % 2 ^ 24, data := p.2 }

/-- The fields of a WRITE BUFFER. -/
lemma writeBufferCdb_eq (mode off len : ℕ) :
    writeBufferCdb mode off len =
      ([0x3b, UInt8.ofNat mode &&& 0x1f, 0] ++ be 3 off) ++ (be 3 len ++ [0]) := by
  rw [writeBufferCdb, drop_be 3 1 off, drop_be 3 1 len, List.append_assoc]

lemma writeBufferPiece_cdb {mode : ℕ} (known : mode = 0x0e ∨ mode = 0x07) (p : ℕ × List UInt8) :
    writeBufferPiece (writeBufferCdb mode p.1 p.2.length) p.2 =
      some { scsiPiece p with mode := mode } := by
  have front : ([0x3b, UInt8.ofNat mode &&& 0x1f, 0] ++ be 3 p.1).length = 6 := by
    rw [List.length_append, length_be]
    rfl
  have offset : ofBe (slice (writeBufferCdb mode p.1 p.2.length) 3 3) = p.1 % 2 ^ 24 := by
    rw [writeBufferCdb_eq, slice_append_left (le_of_eq front.symm),
      slice_append_right (le_refl 3)]
    show ofBe (slice (be 3 p.1) 0 3) = p.1 % 2 ^ 24
    rw [slice_all (length_be 3 _), ofBe_be]
    rfl
  have length : ofBe (slice (writeBufferCdb mode p.1 p.2.length) 6 3) = p.2.length % 2 ^ 24 := by
    rw [writeBufferCdb_eq, slice_append_right (le_of_eq front), front,
      slice_append_left (by rw [length_be]), slice_all (length_be 3 _), ofBe_be]
    rfl
  have ten : (writeBufferCdb mode p.1 p.2.length).length = 10 := by
    rw [writeBufferCdb_eq, List.length_append, front, List.length_append, length_be]
    rfl
  have said : ((writeBufferCdb mode p.1 p.2.length).getD 1 0).toNat % 32 = mode := by
    obtain rfl | rfl := known
    · rfl
    · rfl
  have first : (writeBufferCdb mode p.1 p.2.length).getD 0 0 = 0x3b := rfl
  rw [writeBufferPiece]
  dsimp only
  rw [said, if_pos known, offset, length, ten, first]
  rfl

/-- One turn of the loop sends the piece, or the first one in one mode and then in the other. -/
lemma trace_sendWriteBuffer {mode m off : ℕ} {data : List UInt8} {t : Script}
    (run : Trace (sendWriteBuffer mode off data) t (.ok m)) :
    (m = mode ∧ t = [⟨.writeBuffer (writeBufferCdb mode off data.length) data, .ok ()⟩]) ∨
      (off = 0 ∧ mode = 0x0e ∧ m = 0x07 ∧
        ∃ e, t = [⟨.writeBuffer (writeBufferCdb mode off data.length) data, .error e⟩,
          ⟨.writeBuffer (writeBufferCdb 0x07 0 data.length) data, .ok ()⟩]) := by
  obtain ⟨answer, t', rfl, rest⟩ := (trace_op_bind_iff _ _ _ _).mp run
  cases answer with
  | ok u =>
    obtain ⟨rfl, same⟩ := (trace_ret_iff _ _ _).mp rest
    exact .inl ⟨Except.ok.inj same, rfl⟩
  | error e =>
    dsimp only at rest
    by_cases again : off = 0 ∧ mode = 0x0e ∧ e.isIllegalRequest = true
    · rw [if_pos again] at rest
      obtain ⟨answer, t'', rfl, last⟩ := (trace_op_bind_iff _ _ _ _).mp rest
      cases answer with
      | ok u =>
        obtain ⟨rfl, same⟩ := (trace_ret_iff _ _ _).mp last
        exact .inr ⟨again.1, again.2.1, Except.ok.inj same, e, rfl⟩
      | error e' => exact absurd ((trace_ret_iff _ _ _).mp last).2 nofun
    · rw [if_neg again] at rest
      exact absurd ((trace_ret_iff _ _ _).mp rest).2 nofun

lemma encodes_writeBuffer (p : ℕ × List UInt8) :
    Encodes sendWriteBuffer (fun m => m = 0x0e ∨ m = 0x07) id scsiPiece p where
  stays := by
    intro m t m' known run
    obtain ⟨rfl, -⟩ | ⟨-, -, rfl, -⟩ := trace_sendWriteBuffer run
    · exact known
    · exact .inr rfl
  keeps := by
    intro m t m' known run later
    obtain ⟨rfl, -⟩ | ⟨first, -⟩ := trace_sendWriteBuffer run
    · rfl
    · exact absurd first later
  received := by
    intro m t m' known run
    obtain ⟨rfl, rfl⟩ | ⟨first, rfl, rfl, e, rfl⟩ := trace_sendWriteBuffer run
    · have piece := writeBufferPiece_cdb known p
      simp only [received, accepted, Command.piece, List.filterMap_cons, List.filterMap_nil,
        if_true, piece, id]
    · have piece := writeBufferPiece_cdb (.inr rfl) p
      rw [first] at piece
      simp only [received, accepted, Command.piece, List.filterMap_cons, List.filterMap_nil,
        if_true, piece, id, Bool.false_eq_true, if_false]
  sent := by
    intro m t m' known run e mem q piece
    obtain ⟨rfl, rfl⟩ | ⟨first, rfl, rfl, why, rfl⟩ := trace_sendWriteBuffer run
    · obtain rfl := List.mem_singleton.mp mem
      have said := writeBufferPiece_cdb known p
      exact ⟨⟨m', Option.some.inj (piece.symm.trans said)⟩, nofun⟩
    · obtain rfl | mem := List.mem_cons.mp mem
      · have said := writeBufferPiece_cdb known p
        exact ⟨⟨_, Option.some.inj (piece.symm.trans said)⟩, fun _ => first⟩
      · obtain rfl := List.mem_singleton.mp mem
        have said := writeBufferPiece_cdb (.inr rfl) p
        rw [first] at said
        exact ⟨⟨_, Option.some.inj (piece.symm.trans said)⟩, nofun⟩

/-! ## Firmware Image Download -/

/-- What a Firmware Image Download says of a piece: offset and length in words, of 32 bits. -/
def nvmePiece (p : ℕ × List UInt8) : Piece :=
  { mode := 0x11
    offset := 4 * (p.1 / 4 % 2 ^ 32)
    length := 4 * (((pad4 p.2).length / 4 - 1) % 2 ^ 32 + 1)
    data := pad4 p.2 }

lemma length_pad4 (data : List UInt8) :
    (pad4 data).length = data.length + (4 - data.length % 4) % 4 := by
  rw [pad4, List.length_append, List.length_replicate]

lemma pad4_of_dvd {data : List UInt8} (words : data.length % 4 = 0) : pad4 data = data := by
  rw [pad4, words]
  exact List.append_nil data

/-- The pieces with their padding are the image with less than a word of zeros. -/
lemma flatMap_pad4 {c off : ℕ} {image : List UInt8} {ps : List (ℕ × List UInt8)}
    (cut : Cut c image off ps) (words : c % 4 = 0) :
    ∃ pad < 4, (ps.flatMap fun p => pad4 p.2) = image.drop off ++ List.replicate pad 0 := by
  induction cut with
  | done past =>
    exact ⟨0, by omega, by rw [List.drop_eq_nil_of_le past, List.flatMap_nil]; rfl⟩
  | @more off ps within rest ih =>
    have whole : slice image off (min (off + c) image.length - off) ++
        image.drop (min (off + c) image.length) = image.drop off :=
      slice_append_drop image (by omega)
    by_cases last : image.length ≤ off + c
    · obtain rfl := rest.eq_nil (by omega)
      rw [List.drop_eq_nil_of_le (by omega), List.append_nil] at whole
      refine ⟨(4 - (image.drop off).length % 4) % 4, Nat.mod_lt _ (by decide), ?_⟩
      rw [List.flatMap_cons, List.flatMap_nil, List.append_nil, whole, pad4]
    · obtain ⟨pad, small, same⟩ := ih
      refine ⟨pad, small, ?_⟩
      have length : (slice image off (min (off + c) image.length - off)).length = c := by
        rw [length_slice (by omega)]
        omega
      rw [List.flatMap_cons, same, pad4_of_dvd (by rw [length, words]), ← whole, List.append_assoc]

lemma trace_sendImageDownload {u v : Unit} {off : ℕ} {data : List UInt8} {t : Script}
    (run : Trace (sendImageDownload u off data) t (.ok v)) :
    t = [⟨.admin 0x11 0 (((pad4 data).length / 4 - 1) % 2 ^ 32) (off / 4 % 2 ^ 32) (pad4 data),
      .ok 0⟩] := by
  obtain ⟨answer, t', rfl, rest⟩ := (trace_op_bind_iff _ _ _ _).mp run
  cases answer with
  | error e => exact absurd ((trace_ret_iff _ _ _).mp rest).2 nofun
  | ok st =>
    dsimp only at rest
    by_cases failed : st ≠ 0
    · rw [if_pos failed] at rest
      exact absurd ((trace_ret_iff _ _ _).mp rest).2 nofun
    · rw [if_neg failed] at rest
      obtain ⟨rfl, -⟩ := (trace_ret_iff _ _ _).mp rest
      rw [not_not.mp failed]

lemma encodes_imageDownload (p : ℕ × List UInt8) :
    Encodes sendImageDownload (fun _ => True) (fun _ => 0x11) nvmePiece p where
  stays := fun _ _ _ _ _ => trivial
  keeps := fun _ _ _ _ _ _ => rfl
  received := by
    intro u t v _ run
    obtain rfl := trace_sendImageDownload run
    rfl
  sent := by
    intro u t v _ run e mem q piece
    obtain rfl := trace_sendImageDownload run
    obtain rfl := List.mem_singleton.mp mem
    exact ⟨⟨0x11, (Option.some.inj piece).symm⟩, nofun⟩

/-! ## Download Microcode pages -/

/-- What a page says of a piece of an image of this length. -/
def espPiece (total : ℕ) (p : ℕ × List UInt8) : Piece :=
  { mode := 0x07
    offset := p.1 % 2 ^ 32
    length := p.2.length
    data := p.2
    total := some (total % 2 ^ 32) }

/-- The length of the data with its padding. -/
def padded (n : ℕ) : ℕ := n + 3 - (n + 3) % 4

/-- The fields of a page. -/
def pageFields (subenclosure generation offset total : ℕ) (chunk : List UInt8) :
    List (ℕ × List UInt8) :=
  [(0, [UInt8.ofNat pageMicrocode]), (1, [UInt8.ofNat subenclosure]),
    (2, be 2 (24 + padded chunk.length - 4)), (4, be 4 generation),
    (8, [modeOffsetsSaveActivate]), (12, be 4 offset), (16, be 4 total),
    (20, be 4 chunk.length), (24, chunk)]

section Page

variable (subenclosure generation offset total : ℕ) (chunk : List UInt8)

lemma controlPage_eq :
    controlPage subenclosure generation offset total chunk =
      putAll (List.replicate (24 + padded chunk.length) 0)
        (pageFields subenclosure generation offset total chunk) := rfl

lemma spans_pageFields :
    spans (pageFields subenclosure generation offset total chunk) =
      [(0, 1), (1, 1), (2, 2), (4, 4), (8, 1), (12, 4), (16, 4), (20, 4), (24, chunk.length)] := by
  simp only [spans, pageFields, List.map_cons, List.map_nil, List.length_singleton, length_be]

lemma pageFields_fit : ∀ s ∈ spans (pageFields subenclosure generation offset total chunk),
    s.1 + s.2 ≤ (List.replicate (24 + padded chunk.length) (0 : UInt8)).length := by
  rw [spans_pageFields, List.length_replicate]
  simp only [List.forall_mem_cons, List.not_mem_nil, false_implies, implies_true, and_true, padded]
  omega

lemma pageFields_apart :
    (spans (pageFields subenclosure generation offset total chunk)).Pairwise Bytes.Apart := by
  rw [spans_pageFields]
  simp only [List.pairwise_cons, List.forall_mem_cons, List.not_mem_nil, false_implies,
    implies_true, and_true, List.Pairwise.nil, Bytes.Apart]
  omega

lemma length_controlPage :
    (controlPage subenclosure generation offset total chunk).length =
      24 + padded chunk.length := by
  rw [controlPage_eq, length_putAll (pageFields_fit _ _ _ _ _), List.length_replicate]

/-- A field of a page is read back. -/
lemma slice_controlPage {f : ℕ × List UInt8}
    (mem : f ∈ pageFields subenclosure generation offset total chunk) :
    slice (controlPage subenclosure generation offset total chunk) f.1 f.2.length = f.2 :=
  slice_putAll (pageFields_fit _ _ _ _ _) (pageFields_apart _ _ _ _ _) mem

/-- A number of a page is read back, as far as its field holds it. -/
lemma ofBe_controlPage (pos n v : ℕ)
    (mem : (pos, be n v) ∈ pageFields subenclosure generation offset total chunk) :
    ofBe (slice (controlPage subenclosure generation offset total chunk) pos n) = v % 256 ^ n := by
  have field := slice_controlPage _ _ _ _ _ mem
  dsimp only at field
  rw [length_be] at field
  rw [field, ofBe_be]

lemma getD_controlPage {pos : ℕ} {v : UInt8}
    (mem : (pos, [v]) ∈ pageFields subenclosure generation offset total chunk) :
    (controlPage subenclosure generation offset total chunk).getD pos 0 = v := by
  have field := slice_controlPage _ _ _ _ _ mem
  have first : (slice (controlPage subenclosure generation offset total chunk) pos
      [v].length).getD 0 0 = (controlPage subenclosure generation offset total chunk).getD (pos + 0)
        0 := getD_slice Nat.one_pos
  dsimp only at field
  rw [Nat.add_zero] at first
  rw [← first, field]
  rfl

/-- Behind the data there are only zeros. -/
lemma drop_controlPage :
    (controlPage subenclosure generation offset total chunk).drop (24 + chunk.length) =
      List.replicate (padded chunk.length - chunk.length) 0 := by
  have length := length_controlPage subenclosure generation offset total chunk
  have rest : (controlPage subenclosure generation offset total chunk).drop (24 + chunk.length) =
      slice (controlPage subenclosure generation offset total chunk) (24 + chunk.length)
        (padded chunk.length - chunk.length) := by
    rw [slice, List.take_of_length_le]
    rw [List.length_drop, length]
    omega
  have room : chunk.length ≤ padded chunk.length := by
    rw [padded]
    omega
  rw [rest, controlPage_eq, slice_putAll_of_apart (pageFields_fit _ _ _ _ _), slice_replicate]
  · omega
  · rw [spans_pageFields]
    simp only [List.forall_mem_cons, List.not_mem_nil, false_implies, implies_true, and_true, Bytes.Apart]
    omega

/-- **A page delivers its piece**. -/
lemma microcodePiece_controlPage (short : chunk.length ≤ maxChunk) :
    microcodePiece
        (sendDiagnosticCdb (controlPage subenclosure generation offset total chunk).length)
        (controlPage subenclosure generation offset total chunk) =
      espPiece total (offset, chunk) := by
  have room : chunk.length ≤ padded chunk.length ∧ padded chunk.length < chunk.length + 4 ∧
      24 + padded chunk.length < 2 ^ 16 := by
    rw [maxChunk] at short
    rw [padded]
    omega
  have length : ofBe (slice (controlPage subenclosure generation offset total chunk) 20 4) =
      chunk.length := by
    rw [ofBe_controlPage _ _ _ _ _ 20 4 chunk.length (by simp [pageFields])]
    exact Nat.mod_eq_of_lt (by omega)
  have data : slice (controlPage subenclosure generation offset total chunk) 24 chunk.length =
      chunk := slice_controlPage (f := (24, chunk)) _ _ _ _ _ (by simp [pageFields])
  have mode : (controlPage subenclosure generation offset total chunk).getD 8 0 = 0x07 :=
    getD_controlPage _ _ _ _ _ (by simp [pageFields, modeOffsetsSaveActivate])
  have code : (controlPage subenclosure generation offset total chunk).getD 0 0 = 0x0E :=
    getD_controlPage _ _ _ _ _ (by simp [pageFields, pageMicrocode])
  have said : ofBe (slice (controlPage subenclosure generation offset total chunk) 2 2) =
      24 + padded chunk.length - 4 := by
    rw [ofBe_controlPage _ _ _ _ _ 2 2 (24 + padded chunk.length - 4)
      (by simp [pageFields])]
    exact Nat.mod_eq_of_lt (by omega)
  have listed : ofBe (slice (sendDiagnosticCdb (24 + padded chunk.length)) 3 2) =
      24 + padded chunk.length := by
    show ofBe (slice (be 2 (24 + padded chunk.length) ++ [0]) 0 2) = _
    rw [slice_append_left (by rw [length_be]), slice_all (length_be 2 _), ofBe_be]
    exact Nat.mod_eq_of_lt (by omega)
  rw [microcodePiece]
  rw [length, data, mode, code, said, length_controlPage, listed, drop_controlPage,
    ofBe_controlPage _ _ _ _ _ 12 4 offset (by simp [pageFields]),
    ofBe_controlPage _ _ _ _ _ 16 4 total (by simp [pageFields]),
    List.length_replicate]
  have framed : decide (24 + padded chunk.length = 24 + padded chunk.length ∧
      (0x0E : UInt8) = 0x0E ∧ 24 + padded chunk.length - 4 + 4 = 24 + padded chunk.length ∧
      padded chunk.length - chunk.length < 4 ∧
      ∀ b ∈ List.replicate (padded chunk.length - chunk.length) (0 : UInt8), b = 0) = true := by
    rw [decide_eq_true_eq]
    exact ⟨rfl, rfl, by omega, by omega, fun b h => List.eq_of_mem_replicate h⟩
  rw [framed]
  rfl

end Page

/-- A program that delivers nothing. -/
def Quiet {α : Type} (p : Talk α) : Prop := Only (fun c => c.piece = none) p

lemma received_of_quiet {t : Script} (quiet : ∀ e ∈ t, e.1.piece = none) : received t = [] := by
  refine List.filterMap_eq_nil_iff.mpr fun e mem => ?_
  rw [quiet e mem]
  exact ite_self none

lemma received_append (t₁ t₂ : Script) : received (t₁ ++ t₂) = received t₁ ++ received t₂ :=
  List.filterMap_append

lemma Quiet.wording {E α : Type} {p : Talk (Except E α)} {say : E → String} (quiet : Quiet p) :
    Quiet (wording p say) :=
  Only.bind quiet fun _ => only_ret _

lemma trace_wording {E α : Type} {p : Talk (Except E α)} {say : E → String} {t : Script} {a : α}
    (run : Trace (wording p say) t (.ok a)) : Trace p t (.ok a) := by
  obtain ⟨r, t₁, t₂, rfl, first, second⟩ := (trace_bind_iff _ _ _ _).mp run
  obtain ⟨rfl, same⟩ := (trace_ret_iff _ _ _).mp second
  rw [List.append_nil]
  cases r with
  | ok b =>
    obtain rfl := Except.ok.inj same
    exact first
  | error e => exact absurd same nofun

lemma quiet_status (sg : String) : Quiet (status sg) := by
  refine Only.okThen (Quiet.wording ((only_op_iff _).mpr rfl)) fun _ =>
    Only.okThen (Quiet.wording ((only_op_iff _).mpr rfl)) fun raw => ?_
  cases parseStatus raw with
  | none => exact only_ret _
  | some st => exact only_ret _

/-- One turn of the loop sends its page, and asks for the status at most. -/
lemma trace_sendPage {sg : String} {st : DownloadStatus} {total off : ℕ} {u v : Unit}
    {data : List UInt8} {t : Script} (run : Trace (sendPage sg st total u off data) t (.ok v)) :
    let page := controlPage st.primary.subenclosure st.generation off total data
    ∃ t', t = ⟨.sendDiagnostic (sendDiagnosticCdb page.length) page, .ok ()⟩ :: t' ∧
      ∀ e ∈ t', e.1.piece = none := by
  obtain ⟨w, t₁, t₂, rfl, first, second⟩ := (trace_okThen_iff _ _ _ _).mp run
  obtain rfl := (trace_op_iff _ _ _).mp (trace_wording first)
  refine ⟨t₂, rfl, Trace.only (N := fun c => c.piece = none) second (Only.ite ?_ (only_ret _))⟩
  refine Only.bind (quiet_status sg) fun s => ?_
  cases s with
  | error e => exact only_ret _
  | ok s =>
    dsimp only
    cases phase s.primary with
    | idle => exact only_ret _
    | awaiting => exact only_ret _
    | updating => exact only_ret _
    | done a => exact only_ret _
    | failed why => exact only_ret _

lemma encodes_page (sg : String) (st : DownloadStatus) (total : ℕ) {p : ℕ × List UInt8}
    (short : p.2.length ≤ maxChunk) :
    Encodes (sendPage sg st total) (fun _ => True) (fun _ => 0x07) (espPiece total) p where
  stays := fun _ _ _ _ _ => trivial
  keeps := fun _ _ _ _ _ _ => rfl
  received := by
    intro u t v _ run
    obtain ⟨t', rfl, quiet⟩ := trace_sendPage run
    have piece := microcodePiece_controlPage st.primary.subenclosure st.generation p.1 total p.2
      short
    have rest := received_of_quiet quiet
    rw [← List.singleton_append, received_append, rest, List.append_nil]
    simp only [received, accepted, Command.piece, List.filterMap_cons, List.filterMap_nil, if_true,
      piece]
    rfl
  sent := by
    intro u t v _ run e mem q piece
    obtain ⟨t', rfl, quiet⟩ := trace_sendPage run
    obtain rfl | mem := List.mem_cons.mp mem
    · have said := microcodePiece_controlPage st.primary.subenclosure st.generation p.1 total p.2
        short
      exact ⟨⟨0x07, Option.some.inj (piece.symm.trans (congrArg some said))⟩, nofun⟩
    · rw [quiet e mem] at piece
      exact absurd piece nofun

/-! ## The three downloads -/

/-- A run that has sent the pieces of its image, behind a front that delivers nothing. -/
structure Ran {σ : Type} (send : σ → ℕ → List UInt8 → Talk (Except String σ)) (s s' : σ)
    (c : ℕ) (image : List UInt8) (ps : List (ℕ × List UInt8)) (t : Script) : Prop where
  cut : Cut c image 0 ps
  sent : ∃ front back, t = front ++ back ∧ (∀ e ∈ front, e.1.piece = none) ∧ Sent send s ps back s'

lemma Ran.received {σ : Type} {send : σ → ℕ → List UInt8 → Talk (Except String σ)} {s s' : σ}
    {c : ℕ} {image : List UInt8} {ps : List (ℕ × List UInt8)} {t : Script}
    {inv : σ → Prop} {mode : σ → ℕ} {enc : ℕ × List UInt8 → Piece}
    (ran : Ran send s s' c image ps t) (encodes : ∀ p ∈ ps, Encodes send inv mode enc p)
    (first : inv s) :
    inv s' ∧ (Microcode.received t = ps.map fun p => { enc p with mode := mode s' }) ∧
      ∀ e ∈ t, ∀ q, e.1.piece = some q →
        ∃ p ∈ ps, (∃ m, q = { enc p with mode := m }) ∧ (accepted e = false → p.1 = 0) := by
  obtain ⟨cut, front, back, rfl, quiet, sent⟩ := ran
  refine ⟨sent.stays encodes first, ?_, fun e mem q piece => ?_⟩
  · rw [received_append, received_of_quiet quiet, List.nil_append]
    exact sent.received encodes first cut.tail_ne_zero
  · obtain mem | mem := List.mem_append.mp mem
    · rw [quiet e mem] at piece
      exact absurd piece nofun
    · exact sent.sent encodes first e mem q piece

lemma trace_downloadScsi {checks : Bool} {path : String} {chunkKib rounds m : ℕ}
    {image : List UInt8} {t : Script}
    (run : Trace (downloadScsi checks path chunkKib image rounds) t (.ok m)) :
    ∃ c ps, driveChunk checks chunkKib (askedBoundary (descriptor t)) = some c ∧
      Ran sendWriteBuffer 0x0e m c image ps t := by
  obtain ⟨u, t₁, t₂, rfl, opened, rest⟩ := (trace_okThen_iff _ _ _ _).mp run
  obtain rfl := (trace_op_iff _ _ _).mp (trace_wording opened)
  obtain ⟨ready, t₃, rfl, rest₁⟩ := (trace_op_bind_iff _ _ _ _).mp rest
  obtain ⟨before, t₄, rfl, rest₂⟩ := (trace_op_bind_iff _ _ _ _).mp rest₁
  obtain ⟨raw, t₅, rfl, loop⟩ := (trace_op_bind_iff _ _ _ _).mp rest₂
  have asked : descriptor ([⟨.openDevice path, .ok u⟩] ++
      ⟨.testUnitReady, ready⟩ :: ⟨.inquiry, before⟩ :: ⟨.readBufferDescriptor, raw⟩ :: t₅) =
        raw := rfl
  rw [asked]
  cases chunk : driveChunk checks chunkKib (askedBoundary raw) with
  | none =>
    rw [chunk] at loop
    exact absurd ((trace_ret_iff _ _ _).mp loop).2 nofun
  | some c =>
    rw [chunk] at loop
    obtain ⟨ps, cut, sent⟩ := trace_sendAll loop
    refine ⟨c, ps, rfl, cut, [⟨.openDevice path, .ok u⟩, ⟨.testUnitReady, ready⟩,
      ⟨.inquiry, before⟩, ⟨.readBufferDescriptor, raw⟩], t₅, rfl, ?_, sent⟩
    simp only [List.forall_mem_cons, Command.piece, List.not_mem_nil, false_implies, implies_true,
      and_self]

lemma trace_downloadNvme {checks : Bool} {chunkKib rounds : ℕ} {image : List UInt8} {t : Script}
    {u : Unit} (run : Trace (downloadNvme checks chunkKib image rounds) t (.ok u)) :
    ∃ c ps, driveChunk checks chunkKib 4096 = some c ∧ Ran sendImageDownload () u c image ps t := by
  rw [downloadNvme] at run
  cases chunk : driveChunk checks chunkKib 4096 with
  | none =>
    rw [chunk] at run
    exact absurd ((trace_ret_iff _ _ _).mp run).2 nofun
  | some c =>
    rw [chunk] at run
    obtain ⟨ps, cut, sent⟩ := trace_sendAll run
    exact ⟨c, ps, rfl, cut, [], t, rfl, fun _ h => absurd h List.not_mem_nil, sent⟩

lemma trace_downloadEsp {sg : String} {chunkKib rounds : ℕ} {image : List UInt8} {t : Script}
    {u : Unit} (run : Trace (downloadEsp sg chunkKib image rounds) t (.ok u)) :
    ∃ st ps, Ran (sendPage sg st image.length) () u (espChunkLen (chunkKib * 1024)) image ps t := by
  obtain ⟨st, t₁, t₂, rfl, asked, rest⟩ := (trace_okThen_iff _ _ _ _).mp run
  have quiet : ∀ e ∈ t₁, e.1.piece = none := Trace.only asked (quiet_status sg)
  have goes : Trace (if 0 < st.primary.maxSize ∧ st.primary.maxSize < image.length then
      pure (.error ("the image is " ++ toString image.length ++ " bytes; this IOM takes at most " ++
        toString st.primary.maxSize))
    else
      okThen (wording (op (Command.openDevice sg)) fun e => "open " ++ sg ++ ": " ++ e) fun _ =>
      sendAll (sendPage sg st image.length) image (espChunkLen (chunkKib * 1024)) rounds 0 ())
      t₂ (.ok u) := by
    cases found : phase st.primary with
    | awaiting =>
      rw [found] at rest
      exact absurd ((trace_ret_iff _ _ _).mp rest).2 nofun
    | updating =>
      rw [found] at rest
      exact absurd ((trace_ret_iff _ _ _).mp rest).2 nofun
    | idle =>
      rw [found] at rest
      exact rest
    | done a =>
      rw [found] at rest
      exact rest
    | failed why =>
      rw [found] at rest
      exact rest
  by_cases large : 0 < st.primary.maxSize ∧ st.primary.maxSize < image.length
  · rw [if_pos large] at goes
    exact absurd ((trace_ret_iff _ _ _).mp goes).2 nofun
  · rw [if_neg large] at goes
    obtain ⟨w, t₃, t₄, rfl, opened, loop⟩ := (trace_okThen_iff _ _ _ _).mp goes
    obtain rfl := (trace_op_iff _ _ _).mp (trace_wording opened)
    obtain ⟨ps, cut, sent⟩ := trace_sendAll loop
    refine ⟨st, ps, cut, t₁ ++ [⟨.openDevice sg, .ok w⟩], t₄, by
      rw [List.append_assoc], fun e mem => ?_, sent⟩
    obtain mem | mem := List.mem_append.mp mem
    · exact quiet e mem
    · rw [List.mem_singleton.mp mem]
      rfl

/-! ## When an image arrives whole -/

lemma mod_eq_self_iff {a n : ℕ} (pos : 0 < n) : a % n = a ↔ a < n :=
  ⟨fun h => h ▸ Nat.mod_lt a pos, Nat.mod_eq_of_lt⟩

lemma mul32_lt {checks : Bool} {a b n : ℕ} (h : mul32 checks a b = some n) : n < 2 ^ 32 := by
  rw [mul32] at h
  by_cases small : a * b < 2 ^ 32
  · rw [if_pos small] at h
    exact Option.some.inj h ▸ small
  · rw [if_neg small] at h
    cases checks with
    | true => exact absurd h nofun
    | false => exact Option.some.inj h ▸ Nat.mod_lt _ (by decide)

lemma dvd_mul32 {checks : Bool} {a b n d : ℕ} (h : mul32 checks a b = some n) (width : d ∣ 2 ^ 32)
    (divides : d ∣ b) : d ∣ n := by
  have product : d ∣ a * b := Dvd.dvd.mul_left divides a
  rw [mul32] at h
  by_cases small : a * b < 2 ^ 32
  · rw [if_pos small] at h
    exact Option.some.inj h ▸ product
  · rw [if_neg small] at h
    cases checks with
    | true => exact absurd h nofun
    | false => exact Option.some.inj h ▸ (Nat.dvd_mod_iff width).mpr product

/-- The pieces of an image for an NVMe controller are words, and less than 4 GiB. -/
lemma driveChunk_nvme {checks : Bool} {chunkKib c : ℕ}
    (h : driveChunk checks chunkKib 4096 = some c) : c % 4 = 0 ∧ c < 2 ^ 32 := by
  obtain ⟨configured, -, rounded⟩ := Option.bind_eq_some_iff.mp h
  rw [chunkLen] at rounded
  rw [if_neg (by decide)] at rounded
  exact ⟨Nat.mod_eq_zero_of_dvd (dvd_mul32 rounded (by decide) (by decide)), mul32_lt rounded⟩

lemma espChunkLen_le (configured : ℕ) : espChunkLen configured ≤ maxChunk := by
  rw [espChunkLen, maxChunk]
  omega

section Fits

variable {image : List UInt8} {t : Script} {c : ℕ} {ps : List (ℕ × List UInt8)}

/-- A piece that is not the last is as long as the others. -/
lemma length_of_before (cut : Cut c image 0 ps) {p : ℕ × List UInt8} (h : p ∈ ps)
    (before : p.1 + c < image.length) : p.2.length = c := by
  rw [cut.length_of_mem h]
  omega

lemma flatMap_image (cut : Cut c image 0 ps) :
    ∃ pad < 1, (ps.flatMap fun p => p.2) = image ++ List.replicate pad 0 :=
  ⟨0, Nat.one_pos, by rw [cut.flatMap_eq, List.drop_zero, List.replicate_zero, List.append_nil]⟩

lemma whole_scsi_iff {m : ℕ} (path : String) (ran : Ran sendWriteBuffer 0x0e m c image ps t) :
    Whole (.scsi path) image t ↔
      (Transport.scsi path).Fits ((Transport.scsi path).boundary t) c image.length := by
  obtain ⟨known, took, sent⟩ := ran.received (fun p _ => encodes_writeBuffer p) (.inl rfl)
  have cut := ran.cut
  have mode : m ∈ (Transport.scsi path).modes := List.mem_pair.mpr known
  rw [whole_iff_of_pieces cut took sent mode (fun _ _ => rfl) (flatMap_image cut) fun p h =>
    length_of_before cut h, Transport.Fits, ← cut.lt_iff (by decide),
    ← cut.length_lt_iff (by decide), ← cut.dvd_iff]
  constructor
  · rintro ⟨offsets, lengths, -, on⟩
    exact ⟨fun p h => (mod_eq_self_iff (by decide)).mp (offsets p h),
      fun p h => (mod_eq_self_iff (by decide)).mp (lengths p h), on⟩
  · rintro ⟨offsets, lengths, on⟩
    exact ⟨fun p h => Nat.mod_eq_of_lt (offsets p h), fun p h => Nat.mod_eq_of_lt (lengths p h),
      fun p _ => nofun, on⟩

lemma whole_nvme_iff {u : Unit} (granularity : ℕ) (words : c % 4 = 0) (small : c < 2 ^ 32)
    (ran : Ran sendImageDownload () u c image ps t) :
    Whole (.nvme granularity) image t ↔
      (Transport.nvme granularity).Fits granularity c image.length := by
  obtain ⟨-, took, sent⟩ := ran.received (fun p _ => encodes_imageDownload p) trivial
  have cut := ran.cut
  have padded : ∀ p ∈ ps, p.1 % 4 = 0 ∧ (pad4 p.2).length % 4 = 0 ∧ 0 < (pad4 p.2).length ∧
      (pad4 p.2).length < 2 ^ 32 := by
    intro p h
    obtain ⟨-, before, multiple, -⟩ := cut.mem h
    have length := cut.length_of_mem h
    have pos := cut.pos (Nat.lt_of_le_of_lt (Nat.zero_le _) before)
    have word : 4 ∣ p.1 - 0 := dvd_trans (Nat.dvd_of_mod_eq_zero words) multiple
    rw [length_pad4]
    omega
  have full : ∀ p ∈ ps, p.1 + c < image.length → (nvmePiece p).data.length = c := by
    intro p h before
    have length := length_of_before cut h before
    show (pad4 p.2).length = c
    rw [pad4_of_dvd (by rw [length, words]), length]
  have mode : 0x11 ∈ (Transport.nvme granularity).modes := List.mem_singleton.mpr rfl
  rw [whole_iff_of_pieces cut took sent mode (fun _ _ => rfl) (flatMap_pad4 cut words) full,
    Transport.Fits, ← cut.lt_iff (by decide), ← cut.dvd_iff]
  constructor
  · rintro ⟨offsets, -, -, on⟩
    refine ⟨fun p h => ?_, on⟩
    have offset : 4 * (p.1 / 4 % 2 ^ 32) = p.1 := offsets p h
    have word := (padded p h).1
    omega
  · rintro ⟨offsets, on⟩
    refine ⟨fun p h => ?_, fun p h => ?_, fun p _ => nofun, on⟩
    · show 4 * (p.1 / 4 % 2 ^ 32) = p.1
      have below := offsets p h
      have word := (padded p h).1
      omega
    · show 4 * (((pad4 p.2).length / 4 - 1) % 2 ^ 32 + 1) = (pad4 p.2).length
      have facts := padded p h
      omega

lemma whole_esp_iff {u : Unit} {st : DownloadStatus} (sg : String) (granularity : ℕ)
    (page : c ≤ maxChunk) (ran : Ran (sendPage sg st image.length) () u c image ps t) :
    Whole (.esp sg granularity) image t ↔
      (Transport.esp sg granularity).Fits granularity c image.length := by
  have cut := ran.cut
  have short : ∀ p ∈ ps, p.2.length ≤ maxChunk := by
    intro p h
    rw [cut.length_of_mem h]
    omega
  obtain ⟨-, took, sent⟩ := ran.received (fun p h => encodes_page sg st image.length (short p h))
    trivial
  have mode : 0x07 ∈ (Transport.esp sg granularity).modes := List.mem_singleton.mpr rfl
  rw [whole_iff_of_pieces cut took sent mode (fun _ _ => rfl) (flatMap_image cut) fun p h =>
    length_of_before cut h, Transport.Fits, ← cut.dvd_iff]
  constructor
  · rintro ⟨-, -, totals, on⟩
    refine ⟨?_, on⟩
    by_cases some : 0 < image.length
    · obtain ⟨p, h, -⟩ := cut.exists_mem le_rfl some (dvd_zero c)
      exact (mod_eq_self_iff (by decide)).mp (totals p h _ rfl)
    · omega
  · rintro ⟨small, on⟩
    refine ⟨fun p h => ?_, fun p _ => rfl, fun p _ n total => ?_, on⟩
    · have before := (cut.mem h).2.1
      exact Nat.mod_eq_of_lt (by omega)
    · have said : image.length % 2 ^ 32 = n := Option.some.inj total
      rw [← said, Nat.mod_eq_of_lt small]

end Fits

/-- **An image arrives whole exactly when it fits**: the numbers go into the fields of the commands
and the length of a piece keeps the boundary.

**Proof sketch.** A download that ends well has sent the pieces of the image one after the other
(`trace_sendAll`), each in one command that is taken. What the commands say of the pieces is
contiguous exactly when it says the offsets (`Cut.contiguous_iff`), which the fields do below their
width. -/
theorem whole_iff (T : Transport) {checks : Bool} {chunkKib rounds : ℕ} {image : List UInt8}
    {t : Script} (run : Trace (T.download checks chunkKib image rounds) t (.ok ())) :
    ∃ c, T.chunk checks chunkKib t = some c ∧
      (Whole T image t ↔ T.Fits (T.boundary t) c image.length) := by
  cases T with
  | scsi path =>
    obtain ⟨m, t₁, t₂, rfl, first, last⟩ := (trace_okThen_iff _ _ _ _).mp run
    obtain ⟨rfl, -⟩ := (trace_ret_iff _ _ _).mp last
    rw [List.append_nil]
    obtain ⟨c, ps, chunk, ran⟩ := trace_downloadScsi first
    exact ⟨c, chunk, whole_scsi_iff path ran⟩
  | nvme granularity =>
    obtain ⟨c, ps, chunk, ran⟩ := trace_downloadNvme run
    obtain ⟨words, small⟩ := driveChunk_nvme chunk
    exact ⟨c, chunk, whole_nvme_iff granularity words small ran⟩
  | esp sg granularity =>
    obtain ⟨st, ps, ran⟩ := trace_downloadEsp run
    exact ⟨_, rfl, whole_esp_iff sg granularity (espChunkLen_le _) ran⟩

/-! ## Whole updates -/

lemma quiet_waitReady (rounds : ℕ) : Quiet (waitReady rounds) := by
  induction rounds with
  | zero => exact only_ret _
  | succ rounds ih =>
    refine Only.op_bind rfl fun answer => ?_
    cases answer with
    | ok u => exact only_ret _
    | error e =>
      have late : ∀ late, Only (fun c : Command => c.piece = none) (if late = true then
            pure (.error ("not ready after activation: " ++ e.text))
          else do
            let late ← op (Command.elapsed 300)
            if late then pure (.error "drive did not come ready within 5 minutes of activation")
            else waitReady rounds : Talk (Except String Unit)) := fun late =>
        Only.ite (only_ret _) (Only.op_bind rfl fun late => Only.ite (only_ret _) ih)
      exact Only.ite (late false) (Only.op_bind rfl late)

lemma quiet_rescanAll (names : List String) : Quiet (rescanAll names) := by
  induction names with
  | nil => exact only_ret _
  | cons name rest ih => exact Only.op_bind rfl fun _ => ih

lemma quiet_activateScsi (names : List String) (rounds mode : ℕ) :
    Quiet (activateScsi names rounds mode) := by
  -- mode 0x0f carries no piece
  have activate : Quiet (writeBuffer 0x0f 0 []) := (only_op_iff _).mpr rfl
  exact Only.okThen (Only.ite (Quiet.wording activate) (only_ret _)) fun _ =>
    Only.okThen (quiet_waitReady rounds) fun _ =>
    Only.okThen (Quiet.wording ((only_op_iff _).mpr rfl)) fun _ =>
    Only.bind (quiet_rescanAll names) fun _ => only_ret _

lemma quiet_commit (action : ℕ) (words : String) : Quiet (commit action words) :=
  Quiet.wording ((only_op_iff _).mpr rfl)

lemma quiet_activateNvme : Quiet activateNvme := by
  refine Only.okThen (quiet_commit 3 _) fun st => Only.okThen ?_ fun _ =>
    Only.op_bind rfl fun _ => only_ret _
  cases interpretCommitStatus st with
  | ok reset => exact only_ret _
  | error e =>
    refine Only.okThen (quiet_commit 1 _) fun st₁ => ?_
    cases interpretCommitStatus st₁ with
    | ok reset => exact only_ret _
    | error e => exact only_ret _

lemma quiet_awaitEsp (sg : String) (rounds : ℕ) : Quiet (awaitEsp sg rounds) := by
  induction rounds with
  | zero => exact only_ret _
  | succ rounds ih =>
    have again : Only (fun c : Command => c.piece = none) (do
        let late ← op (Command.elapsed 900)
        if late then pure (.error "the IOM did not report a finished update within 15 min")
        else awaitEsp sg rounds : Talk (Except String Activation)) :=
      Only.op_bind rfl fun late => Only.ite (only_ret _) ih
    refine Only.op_bind rfl fun now => Only.bind (quiet_status _) fun s => ?_
    cases s with
    | error e => exact again
    | ok s =>
      dsimp only
      cases phase s.primary with
      | idle => exact only_ret _
      | awaiting => exact only_ret _
      | updating => exact again
      | done a => exact only_ret _
      | failed why => exact only_ret _

/-- An update that ends well is a download that does, and behind it nothing is delivered. -/
lemma received_okThen {α β : Type} {p : Talk (Except String α)}
    {rest : α → Talk (Except String β)} (quiet : ∀ a, Quiet (rest a)) {t : Script} {b : β}
    (run : Trace (okThen p rest) t (.ok b)) :
    ∃ a t₁ t₂, t = t₁ ++ t₂ ∧ Trace p t₁ (.ok a) ∧ received t = received t₁ := by
  obtain ⟨a, t₁, t₂, rfl, first, second⟩ := (trace_okThen_iff _ _ _ _).mp run
  refine ⟨a, t₁, t₂, rfl, first, ?_⟩
  rw [received_append, received_of_quiet (Trace.only second (quiet a)), List.append_nil]

/-- The whole update of a device. -/
def Transport.update (checks : Bool) (names : List String) (chunkKib : ℕ) (image : List UInt8)
    (rounds : ℕ) : Transport → Talk (Except String Unit)
  | .scsi path => okThen (runScsi checks path names chunkKib image rounds) fun _ => pure (.ok ())
  | .nvme _ => okThen (runNvme checks chunkKib image rounds) fun _ => pure (.ok ())
  | .esp sg _ => okThen (updateEsp (some sg) chunkKib image rounds) fun _ => pure (.ok ())

/-- **What an update delivers is what its download delivers**. -/
theorem received_update {T : Transport} {checks : Bool} {names : List String} {chunkKib rounds : ℕ}
    {image : List UInt8} {t : Script}
    (run : Trace (T.update checks names chunkKib image rounds) t (.ok ())) :
    ∃ t₁ t₂, t = t₁ ++ t₂ ∧ Trace (T.download checks chunkKib image rounds) t₁ (.ok ()) ∧
      received t = received t₁ := by
  cases T with
  | scsi path =>
    obtain ⟨r, t', t₃, rfl, update, last⟩ := (trace_okThen_iff _ _ _ _).mp run
    obtain ⟨rfl, -⟩ := (trace_ret_iff _ _ _).mp last
    obtain ⟨m, t₁, t₂, rfl, download, same⟩ :=
      received_okThen (quiet_activateScsi names rounds) update
    rw [List.append_nil]
    exact ⟨t₁, t₂, rfl, (trace_okThen_iff _ _ _ _).mpr
      ⟨m, t₁, [], (List.append_nil _).symm, download, .ret _⟩, same⟩
  | nvme granularity =>
    obtain ⟨r, t', t₃, rfl, update, last⟩ := (trace_okThen_iff _ _ _ _).mp run
    obtain ⟨rfl, -⟩ := (trace_ret_iff _ _ _).mp last
    obtain ⟨u, t₁, t₂, rfl, download, same⟩ := received_okThen (fun _ => quiet_activateNvme) update
    rw [List.append_nil]
    exact ⟨t₁, t₂, rfl, download, same⟩
  | esp sg granularity =>
    obtain ⟨r, t', t₃, rfl, update, last⟩ := (trace_okThen_iff _ _ _ _).mp run
    obtain ⟨rfl, -⟩ := (trace_ret_iff _ _ _).mp last
    obtain ⟨u, t₁, t₂, rfl, download, same⟩ :=
      received_okThen (fun _ => quiet_awaitEsp sg rounds) update
    rw [List.append_nil]
    exact ⟨t₁, t₂, rfl, download, same⟩

/-! ## Runs -/

/-- The commands of a download to a drive that takes every piece. -/
def taken (mode : ℕ) (ps : List (ℕ × List UInt8)) : Script :=
  ps.map fun p => ⟨.writeBuffer (writeBufferCdb mode p.1 p.2.length) p.2, .ok ()⟩

/-- A drive that takes every piece is sent the whole image. -/
lemma trace_taken {c off m : ℕ} {image : List UInt8} {ps : List (ℕ × List UInt8)}
    (cut : Cut c image off ps) {rounds : ℕ} (enough : ps.length < rounds) :
    Trace (sendAll sendWriteBuffer image c rounds off m) (taken m ps) (.ok m) := by
  induction cut generalizing rounds with
  | done past =>
    cases rounds with
    | zero => exact absurd enough (Nat.not_lt_zero _)
    | succ rounds =>
      rw [sendAll, if_neg (by omega)]
      exact .ret _
  | @more off ps within rest ih =>
    cases rounds with
    | zero => exact absurd enough (Nat.not_lt_zero _)
    | succ rounds =>
      rw [sendAll, if_pos within]
      refine (trace_okThen_iff _ _ _ _).mpr ⟨m, [_], _, rfl, .act _ _ _ (.ret _), ih ?_⟩
      rw [List.length_cons] at enough
      omega

/-- What a download asks the drive first; it names no boundary. -/
def asks : Script :=
  [⟨.openDevice "/dev/sg1", .ok ()⟩, ⟨.testUnitReady, .ok ()⟩, ⟨.inquiry, .ok "0001"⟩,
    ⟨.readBufferDescriptor, .ok [0, 0, 0, 0]⟩]

/-- A download in pieces of 32 KiB to a drive that takes every piece. -/
lemma trace_downloadScsi_taken {image : List UInt8} {ps : List (ℕ × List UInt8)}
    (cut : Cut 32768 image 0 ps) {rounds : ℕ} (enough : ps.length < rounds) :
    Trace (downloadScsi false "/dev/sg1" 32 image rounds) (asks ++ taken 0x0e ps) (.ok 0x0e) :=
  .act _ _ _ (.act _ _ _ (.act _ _ _ (.act _ _ _ (trace_taken cut enough))))

lemma trace_download_taken {image : List UInt8} {ps : List (ℕ × List UInt8)}
    (cut : Cut 32768 image 0 ps) {rounds : ℕ} (enough : ps.length < rounds) :
    Trace ((Transport.scsi "/dev/sg1").download false 32 image rounds) (asks ++ taken 0x0e ps)
      (.ok ()) :=
  (trace_okThen_iff _ _ _ _).mpr
    ⟨0x0e, _, [], (List.append_nil _).symm, trace_downloadScsi_taken cut enough, .ret _⟩

/-- An image of 20 MiB, in pieces of 32 KiB: the offsets have 24 bits, so what comes after 16 MiB is
written over the beginning of the image. -/
theorem long_image_wraps :
    ¬ ∀ (T : Transport) (checks : Bool) (chunkKib rounds : ℕ) (image : List UInt8) (t : Script),
      Trace (T.download checks chunkKib image rounds) t (.ok ()) → Whole T image t := by
  intro always
  obtain ⟨ps, cut⟩ := Cut.exists_of_pos (List.replicate (20 * 2 ^ 20) (0 : UInt8))
    (by decide : 0 < 32768) 0
  have whole := always _ _ _ _ _ _ (trace_download_taken cut (Nat.lt_succ_self _))
  obtain ⟨c, ps', chunk, ran⟩ := trace_downloadScsi
    (trace_downloadScsi_taken cut (Nat.lt_succ_self _))
  have asked : descriptor (asks ++ taken 0x0e ps) = .ok [0, 0, 0, 0] := rfl
  rw [asked] at chunk
  obtain rfl : 32768 = c := Option.some.inj ((by decide : some 32768 = _).trans chunk)
  have fits := ((whole_scsi_iff "/dev/sg1" ran).mp whole).1
  rw [List.length_replicate] at fits
  exact absurd fits (by decide)

/-- Three bytes go out in one piece. -/
theorem three_bytes_whole :
    Whole (.scsi "/dev/sg1") [1, 2, 3] (asks ++ taken 0x0e [(0, [1, 2, 3])]) := by
  have cut : Cut 32768 [(1 : UInt8), 2, 3] 0 [(0, [1, 2, 3])] :=
    .more (by decide) (.done (by decide))
  obtain ⟨c, chunk, whole⟩ := whole_iff (.scsi "/dev/sg1") (trace_download_taken cut Nat.one_lt_two)
  obtain rfl : 32768 = c := Option.some.inj ((by decide : some 32768 = _).trans chunk)
  refine whole.mpr ⟨by decide, by decide, .inr (by decide)⟩

end Microcode

end StormDrive
