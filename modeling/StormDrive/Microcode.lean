import Mathlib.Algebra.Ring.Nat
import Mathlib.Data.FinEnum
import StormDrive.Scsi
import StormDrive.Interleave.Trace

set_option relaxedAutoImplicit false
set_option autoImplicit false

/-!
# Firmware images on their way

An image goes to a drive by WRITE BUFFER or by the Firmware Image Download of NVMe, and to a shelf
by Download Microcode pages; then the new firmware is activated (`firmware.rs`, `iomfw.rs`).

## Main definitions

* `Microcode.chunkLen`, `Microcode.espChunkLen` — the length of a piece.
* `Microcode.sendAll` — the loop of a download.
* `Microcode.runScsi`, `Microcode.runNvme`, `Microcode.updateEsp` — an update, for every answer of
  the device.
* `Microcode.Command.piece` — what a command delivers, read field by field as the standards lay it
  out.

## Implementation notes

A `u32` that overflows is a panic in a build that checks for it and wraps in one that does not. A
loop has a number of rounds, and one that goes on is an error. The progress of a run, its log lines,
the text of a panic, and the status descriptors of subenclosures other than the first are left out.
-/

namespace StormDrive

namespace Microcode

open Bytes Interleave Interleave.Prog Scsi

/-! ## The length of a piece -/

/-- A product of `u32`s. -/
def mul32 (checks : Bool) (a b : ℕ) : Option ℕ :=
  if a * b < 2 ^ 32 then some (a * b) else if checks then none else some (a * b % 2 ^ 32)

/-- `firmware::chunk_len`: the configured length, up to the next multiple of the boundary. -/
def chunkLen (checks : Bool) (configured boundary : ℕ) : Option ℕ :=
  let c := max configured 512
  if boundary = 0 then some c
  else mul32 checks (if c % boundary = 0 then c / boundary else c / boundary + 1) boundary

/-- The length of a piece for a drive, from the configured KiB. -/
def driveChunk (checks : Bool) (chunkKib boundary : ℕ) : Option ℕ :=
  (mul32 checks chunkKib 1024).bind fun configured => chunkLen checks configured boundary

/-- What a diagnostic page has room for. -/
def maxChunk : ℕ := 65508

/-- `iomfw::chunk_len`: the configured length, as far as a page holds it, a multiple of 4. -/
def espChunkLen (configured : ℕ) : ℕ :=
  let c := max 4 (min configured maxChunk)
  c - c % 4

/-! ## The commands -/

/-- What an update needs of the device and its host. -/
inductive Command
  | openDevice (path : String)
  | testUnitReady
  | inquiry
  | readBufferDescriptor
  | writeBuffer (cdb data : List UInt8)
  /-- An NVMe admin command. -/
  | admin (opcode nsid cdw10 cdw11 : ℕ) (data : List UInt8)
  | firmwareRev
  | receiveDiagnostic (page : ℕ)
  | sendDiagnostic (cdb page : List UInt8)
  /-- The ESP's node now, after it may have come back under another. -/
  | sgPathNow
  | rescanBlock (name : String)
  /-- Have so many seconds passed? -/
  | elapsed (secs : ℕ)

/-- What a command is answered with. -/
@[reducible] def Answer : Command → Type
  | .openDevice _ => Except String Unit
  | .testUnitReady => Except ScsiError Unit
  | .inquiry => Except ScsiError String
  | .readBufferDescriptor => Except ScsiError (List UInt8)
  | .writeBuffer _ _ => Except ScsiError Unit
  | .admin _ _ _ _ _ => Except String ℕ
  | .firmwareRev => String
  | .receiveDiagnostic _ => Except ScsiError (List UInt8)
  | .sendDiagnostic _ _ => Except ScsiError Unit
  | .sgPathNow => Option String
  | .rescanBlock _ => Unit
  | .elapsed _ => Bool

/-- Commands, with their answers. -/
abbrev Script := List (Σ c, Answer c)

/-- A program that sends commands. -/
abbrev Talk (α : Type) := Prog Command Answer α

/-- A program whose errors are put in other words. -/
def wording {E α : Type} (p : Talk (Except E α)) (say : E → String) : Talk (Except String α) := do
  let r ← p
  pure (r.mapError say)

def endless : String := "the download does not end"

/-- The loop of a download: piece after piece, with what a piece leaves for the next. -/
def sendAll {σ : Type} (send : σ → ℕ → List UInt8 → Talk (Except String σ)) (image : List UInt8)
    (chunk : ℕ) : ℕ → ℕ → σ → Talk (Except String σ)
  | 0, _, _ => pure (.error endless)
  | rounds + 1, off, s =>
    if off < image.length then
      let stop := min (off + chunk) image.length
      okThen (send s off (slice image off (stop - off))) fun s' =>
        sendAll send image chunk rounds stop s'
    else pure (.ok s)

/-! ## WRITE BUFFER -/

/-- `cdb::write_buffer`. -/
def writeBufferCdb (mode off len : ℕ) : List UInt8 :=
  [0x3b, UInt8.ofNat mode &&& 0x1f, 0] ++ (be 4 off).drop 1 ++ (be 4 len).drop 1 ++ [0]

def writeBuffer (mode off : ℕ) (data : List UInt8) : Talk (Except ScsiError Unit) :=
  op (Command.writeBuffer (writeBufferCdb mode off data.length) data)

/-- The offset boundary in bytes, 0 for none, and the capacity of the buffer. -/
def parseReadBufferDescriptor (raw : List UInt8) : Option (ℕ × ℕ) :=
  if raw.length < 4 then none
  else
    let exponent := (raw.getD 0 0).toNat
    some (if exponent = 0 ∨ exponent > 24 then 0 else 2 ^ exponent, ofBe (slice raw 1 3))

/-- The boundary that the drive is asked for; 0 when it does not answer. -/
def askedBoundary (raw : Except ScsiError (List UInt8)) : ℕ :=
  match raw with
  | .ok raw => ((parseReadBufferDescriptor raw).map (·.1)).getD 0
  | .error _ => 0

/-- One piece in the mode that is in use; a drive that does not know the first one is sent the first
piece again in the second. -/
def sendWriteBuffer (mode off : ℕ) (data : List UInt8) : Talk (Except String ℕ) := do
  match ← writeBuffer mode off data with
  | .ok () => pure (.ok mode)
  | .error e =>
    if off = 0 ∧ mode = 0x0e ∧ e.isIllegalRequest = true then do
      let again ← writeBuffer 0x07 0 data
      match again with
      | .ok () => pure (.ok 0x07)
      | .error e => pure (.error ("write buffer (mode 0x07) at 0: " ++ e.text))
    else
      pure (.error ("write buffer (mode 0x" ++ hex2 mode ++ ") at " ++ toString off ++ ": " ++
        e.text))

def panicked : String := "firmware task panicked"

/-- `run_scsi` up to the end of its download: the mode that worked. -/
def downloadScsi (checks : Bool) (path : String) (chunkKib : ℕ) (image : List UInt8) (rounds : ℕ) :
    Talk (Except String ℕ) :=
  okThen (wording (op (Command.openDevice path)) ("open: " ++ ·)) fun _ => do
  let _ ← op Command.testUnitReady
  let _ ← op Command.inquiry
  let raw ← op Command.readBufferDescriptor
  match driveChunk checks chunkKib (askedBoundary raw) with
  | none => pure (.error panicked)
  | some chunk => sendAll sendWriteBuffer image chunk rounds 0 0x0e

/-- Wait until the drive answers TEST UNIT READY. -/
def waitReady : ℕ → Talk (Except String Unit)
  | 0 => pure (.error endless)
  | rounds + 1 => do
    match ← op Command.testUnitReady with
    | .ok () => pure (.ok ())
    | .error e => do
      let coming := match e with
        | .sense s => s.isUnitAttention || s.key = 2
        | _ => false
      let late ← if coming then pure false else op (Command.elapsed 20)
      if late then pure (.error ("not ready after activation: " ++ e.text))
      else do
        let late ← op (Command.elapsed 300)
        if late then pure (.error "drive did not come ready within 5 minutes of activation")
        else waitReady rounds

def rescanAll : List String → Talk Unit
  | [] => pure ()
  | name :: rest => do
    op (Command.rescanBlock name)
    rescanAll rest

/-- `run_scsi` from its activation on: the new revision, and no reset is needed. -/
def activateScsi (names : List String) (rounds mode : ℕ) : Talk (Except String (String × Bool)) :=
  okThen (if mode = 0x0e then
      wording (writeBuffer 0x0f 0 []) ("activate deferred microcode: " ++ ScsiError.text ·)
    else pure (.ok ())) fun _ =>
  okThen (waitReady rounds) fun _ =>
  okThen (wording (op Command.inquiry) ("inquiry after activation: " ++ ScsiError.text ·))
    fun after => do
  rescanAll names
  pure (.ok (after, false))

def runScsi (checks : Bool) (path : String) (names : List String) (chunkKib : ℕ)
    (image : List UInt8) (rounds : ℕ) : Talk (Except String (String × Bool)) :=
  okThen (downloadScsi checks path chunkKib image rounds) (activateScsi names rounds)

/-! ## Firmware Image Download -/

/-- A piece, padded with zeros to a multiple of 4. -/
def pad4 (data : List UInt8) : List UInt8 := data ++ List.replicate ((4 - data.length % 4) % 4) 0

def sendImageDownload (_ : Unit) (off : ℕ) (data : List UInt8) : Talk (Except String Unit) := do
  let buf := pad4 data
  let at_ := "firmware image download at " ++ toString off ++ ": "
  match ← op (Command.admin 0x11 0 ((buf.length / 4 - 1) % 2 ^ 32) (off / 4 % 2 ^ 32) buf) with
  | .error e => pure (.error (at_ ++ e))
  | .ok st =>
    if st ≠ 0 then pure (.error (at_ ++ "nvme status 0x" ++ hex st)) else pure (.ok ())

/-- `run_nvme` up to the end of its download. -/
def downloadNvme (checks : Bool) (chunkKib : ℕ) (image : List UInt8) (rounds : ℕ) :
    Talk (Except String Unit) :=
  match driveChunk checks chunkKib 4096 with
  | none => pure (.error panicked)
  | some chunk => sendAll sendImageDownload image chunk rounds 0 ()

/-- The status of a Firmware Commit: does it need a reset? -/
def interpretCommitStatus : ℕ → Except String Bool
  | 0 => .ok false
  | 0x10b | 0x10c | 0x10d | 0x110 => .ok true
  | 0x106 => .error "invalid firmware slot"
  | 0x107 => .error "invalid firmware image"
  | 0x111 => .error "firmware activation prohibited"
  | 0x112 => .error "overlapping range"
  | other => .error ("nvme status 0x" ++ hex other)

/-- A Firmware Commit with this commit action. -/
def commit (action : ℕ) (words : String) : Talk (Except String ℕ) :=
  wording (op (Command.admin 0x10 0 (action * 8) 0 [])) (words ++ ": " ++ ·)

/-- `run_nvme` from its commit on. -/
def activateNvme : Talk (Except String (String × Bool)) :=
  okThen (commit 3 "firmware commit") fun st =>
  okThen (match interpretCommitStatus st with
    | .ok reset => pure (.ok reset)
    | .error _ =>
      okThen (commit 1 "firmware commit (CA=1)") fun st₁ =>
      match interpretCommitStatus st₁ with
      | .ok _ => pure (.ok true)
      | .error e => pure (.error ("firmware commit (CA=1): " ++ e))) fun reset => do
  let after ← op Command.firmwareRev
  pure (.ok (after, reset))

def runNvme (checks : Bool) (chunkKib : ℕ) (image : List UInt8) (rounds : ℕ) :
    Talk (Except String (String × Bool)) :=
  okThen (downloadNvme checks chunkKib image rounds) fun _ => activateNvme

/-! ## Download Microcode pages -/

/-- The page code of Download Microcode. -/
def pageMicrocode : ℕ := 0x0E

def modeOffsetsSaveActivate : UInt8 := 0x07

/-- One piece as a Download Microcode Control page. -/
def controlPage (subenclosure generation offset total : ℕ) (chunk : List UInt8) : List UInt8 :=
  let padded := chunk.length + 3 - (chunk.length + 3) % 4
  putAll (List.replicate (24 + padded) 0)
    [(0, [UInt8.ofNat pageMicrocode]),
     (1, [UInt8.ofNat subenclosure]),
     (2, be 2 (24 + padded - 4)),
     (4, be 4 generation),
     (8, [modeOffsetsSaveActivate]),
     (12, be 4 offset),
     (16, be 4 total),
     (20, be 4 chunk.length),
     (24, chunk)]

def sendDiagnosticCdb (len : ℕ) : List UInt8 := [0x1d, 0x10, 0] ++ be 2 len ++ [0]

/-- The descriptor of the first subenclosure in a Download Microcode Status page. -/
structure SubStatus where
  subenclosure : ℕ
  status : ℕ
  additional : ℕ
  /-- The largest image that it takes, 0 for not said. -/
  maxSize : ℕ
  expectedOffset : ℕ

structure DownloadStatus where
  generation : ℕ
  primary : SubStatus

def parseStatus (raw : List UInt8) : Option DownloadStatus :=
  if raw.length < 24 ∨ (raw.getD 0 0).toNat ≠ pageMicrocode then none
  else some
    { generation := ofBe (slice raw 4 4)
      primary :=
        { subenclosure := (raw.getD 9 0).toNat
          status := (raw.getD 10 0).toNat
          additional := (raw.getD 11 0).toNat
          maxSize := ofBe (slice raw 12 4)
          expectedOffset := ofBe (slice raw 20 4) } }

/-- When the new microcode runs. -/
inductive Activation
  | now
  | afterReset
  | afterPowerCycle
  | afterActivate

inductive Phase
  | idle
  | awaiting
  | updating
  | done (a : Activation)
  | failed (why : String)

def phase (s : SubStatus) : Phase :=
  match s.status with
  | 0x00 => .idle
  | 0x01 => .awaiting
  | 0x10 => .done .now
  | 0x11 => .done .afterReset
  | 0x12 => .done .afterPowerCycle
  | 0x13 => .done .afterActivate
  | n =>
    if n ≥ 0x80 then
      .failed ("the enclosure discarded the microcode (status 0x" ++ (hex2 n).toUpper ++
        ", additional 0x" ++ (hex2 s.additional).toUpper ++
        (match n with
          | 0x80 => ": error"
          | 0x81 => ": vendor-specific error"
          | 0x82 => ": invalid image"
          | _ => "") ++ ")")
    else .updating

def status (sg : String) : Talk (Except String DownloadStatus) :=
  okThen (wording (op (Command.openDevice sg)) fun e => "open " ++ sg ++ ": " ++ e) fun _ =>
  okThen (wording (op (Command.receiveDiagnostic pageMicrocode))
    ("download microcode status: " ++ ScsiError.text ·)) fun raw =>
  match parseStatus raw with
  | some st => pure (.ok st)
  | none => pure (.error "download microcode status: short or not page 0x0E")

/-- One piece as a page; the enclosure is asked whether it refuses it, unless it is the last. -/
def sendPage (sg : String) (st : DownloadStatus) (total : ℕ) (_ : Unit) (off : ℕ)
    (data : List UInt8) : Talk (Except String Unit) :=
  let page := controlPage st.primary.subenclosure st.generation off total data
  okThen (wording (op (Command.sendDiagnostic (sendDiagnosticCdb page.length) page)) fun e =>
    "SEND DIAGNOSTIC at offset " ++ toString off ++ ": " ++ ScsiError.text e) fun _ =>
  if off + data.length < total then do
    match ← status sg with
    | .error _ => pure (.ok ())
    | .ok s =>
      match phase s.primary with
      | .failed why => pure (.error why)
      | _ => pure (.ok ())
  else pure (.ok ())

/-- `update_esp` up to the end of its download. -/
def downloadEsp (sg : String) (chunkKib : ℕ) (image : List UInt8) (rounds : ℕ) :
    Talk (Except String Unit) :=
  okThen (status sg) fun st =>
  match phase st.primary with
  | .awaiting | .updating =>
    pure (.error "a microcode download is already in progress on this IOM")
  | _ =>
    if 0 < st.primary.maxSize ∧ st.primary.maxSize < image.length then
      pure (.error ("the image is " ++ toString image.length ++ " bytes; this IOM takes at most " ++
        toString st.primary.maxSize))
    else
      okThen (wording (op (Command.openDevice sg)) fun e => "open " ++ sg ++ ": " ++ e) fun _ =>
      sendAll (sendPage sg st image.length) image (espChunkLen (chunkKib * 1024)) rounds 0 ()

/-- `update_esp` after its download: wait until the IOM runs the image, or says when it will. -/
def awaitEsp (sg : String) : ℕ → Talk (Except String Activation)
  | 0 => pure (.error endless)
  | rounds + 1 => do
    let again : Talk (Except String Activation) := do
      let late ← op (Command.elapsed 900)
      if late then pure (.error "the IOM did not report a finished update within 15 min")
      else awaitEsp sg rounds
    let now ← op Command.sgPathNow
    match ← status (now.getD sg) with
    | .error _ => again
    | .ok s =>
      match phase s.primary with
      | .done a => pure (.ok a)
      | .idle => pure (.ok .now)
      | .failed why => pure (.error why)
      | .awaiting =>
        pure (.error ("the IOM still waits for data at offset " ++
          toString s.primary.expectedOffset ++ " after the whole image"))
      | .updating => again

def updateEsp (sgPath : Option String) (chunkKib : ℕ) (image : List UInt8) (rounds : ℕ) :
    Talk (Except String Activation) :=
  match sgPath with
  | none => pure (.error "the ESP has no sg node")
  | some sg => okThen (downloadEsp sg chunkKib image rounds) fun _ => awaitEsp sg rounds

/-! ## What a command delivers -/

/-- A piece of an image, as a command delivers it. -/
structure Piece where
  mode : ℕ
  offset : ℕ
  /-- What the command says that it carries. -/
  length : ℕ
  data : List UInt8
  /-- The length of the image, where the command says it. -/
  total : Option ℕ := none
  /-- The rest of the command is as the standard lays it out. -/
  framed : Bool := true
  deriving DecidableEq

/-- A WRITE BUFFER with offsets: byte 1 holds the mode, bytes 3 to 5 the offset, 6 to 8 the
length. -/
def writeBufferPiece (cdb data : List UInt8) : Option Piece :=
  let mode := (cdb.getD 1 0).toNat % 32
  if mode = 0x0e ∨ mode = 0x07 then
    some
      { mode := mode
        offset := ofBe (slice cdb 3 3)
        length := ofBe (slice cdb 6 3)
        data := data
        framed := cdb.length = 10 ∧ cdb.getD 0 0 = 0x3b }
  else none

/-- A Download Microcode page: the mode in byte 8, the offset in bytes 12 to 15, the length of the
image in 16 to 19, that of the data in 20 to 23, and the data, with less than 4 zeros behind. -/
def microcodePiece (cdb page : List UInt8) : Piece :=
  let length := ofBe (slice page 20 4)
  let behind := page.drop (24 + length)
  { mode := (page.getD 8 0).toNat
    offset := ofBe (slice page 12 4)
    length := length
    data := slice page 24 length
    total := some (ofBe (slice page 16 4))
    framed := ofBe (slice cdb 3 2) = page.length ∧ page.getD 0 0 = 0x0E ∧
      ofBe (slice page 2 2) + 4 = page.length ∧ behind.length < 4 ∧ ∀ b ∈ behind, b = 0 }

/-- What a command delivers. NVMe counts in words of 4 bytes, and the number of words less one. -/
def Command.piece : Command → Option Piece
  | .writeBuffer cdb data => writeBufferPiece cdb data
  | .admin opcode _ cdw10 cdw11 data =>
    if opcode = 0x11 then
      some { mode := opcode, offset := 4 * cdw11, length := 4 * (cdw10 + 1), data := data }
    else none
  | .sendDiagnostic cdb page => some (microcodePiece cdb page)
  | _ => none

/-- The device took the command. -/
def accepted (e : Σ c, Answer c) : Bool :=
  match e with
  | ⟨.writeBuffer _ _, .ok _⟩ => true
  | ⟨.admin _ _ _ _ _, .ok st⟩ => st = 0
  | ⟨.sendDiagnostic _ _, .ok _⟩ => true
  | _ => false

/-- What the device has been delivered. -/
def received (t : Script) : List Piece :=
  t.filterMap fun e => if accepted e then e.1.piece else none

end Microcode

end StormDrive
