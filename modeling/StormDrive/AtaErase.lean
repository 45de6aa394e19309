import StormDrive.Bytes.Layout
import StormDrive.Daemon.Operations
import StormDrive.Interleave.Lines
import StormDrive.Interleave.Runs
import StormDrive.Scsi

set_option relaxedAutoImplicit false
set_option autoImplicit false

/-!
# The ATA security erase, byte by byte

`erase.rs` erases a SATA drive with its Security feature set: it sets a one-time password, prepares
and starts the erase, which takes the password off again, and reads back that security is off. The
commands go through a SCSI layer as sixteen bytes and a block of 512. `worker.rs` keeps the password
in the record of the job, so that the next attempt has it.

## Main definitions

* `Ata.ataPt16`, `Ata.securityBlock`, `Ata.parseAtaSecurity` — what is sent, and what is read.
* `Ata.ataSecurityErase` — the erase.
* `Ata.SataDrive`, `Ata.SataDrive.io` — a drive with the Security feature set, and one command.
* `Ata.Site.step` — attempts of a step, restarts of the daemon and power cycles.

## Main results

* `Ata.decode_ataPt16`, `Ata.parse_identify` — the drive is told the command that is meant, and
  its state is read as it is.
* `Ata.Kept.step` — an attempt keeps the password of the drive on record.
* `Ata.password_on_record` — **in every run a drive that came without a password has none or the one
  on record**, and a drive that came with one is left as it is; an attempt that reports success has
  erased the drive.
* `Ata.attempt_completes` — **the next attempt finishes what was begun**, also on a drive that is
  locked.

## Implementation notes

A command may be answered though the drive did not take it, taken though the answer is an error, or
the daemon ends while it waits. The drive refuses what the standard has it refuse. The phases that a
run shows, the events and the activity of the drive are left out.
-/

namespace StormDrive

namespace Ata

open Bytes (slice le ofLe)

/-! ## What is sent -/

/-- The commands. -/
inductive Command
  | identify
  | setPassword
  | erasePrepare
  | eraseUnit
  | disablePassword
  deriving DecidableEq, Repr

/-- The opcode of a command. -/
def Command.code : Command → UInt8
  | .identify => 0xEC
  | .setPassword => 0xF1
  | .erasePrepare => 0xF3
  | .eraseUnit => 0xF4
  | .disablePassword => 0xF6

/-- The data phase of a command. -/
inductive AtaData
  | none
  | in
  | out
  deriving DecidableEq, Repr

/-- The data phase that `erase.rs` gives a command. -/
def Command.data : Command → AtaData
  | .identify => .in
  | .erasePrepare => .none
  | .setPassword | .eraseUnit | .disablePassword => .out

/-- The protocol field: non-data, PIO in, PIO out. -/
def AtaData.protocol : AtaData → UInt8
  | .none => 3
  | .in => 4
  | .out => 5

/-- Direction, and the length in blocks in the sector count. -/
def AtaData.flags : AtaData → UInt8
  | .none => 0
  | .in => 0x08 ||| 0x04 ||| 0x02
  | .out => 0x04 ||| 0x02

/-- ATA PASS-THROUGH(16) for a command with at most one block of data. -/
def ataPt16 (command : UInt8) (data : AtaData) : List UInt8 :=
  [0x85, data.protocol <<< 1, data.flags, 0, 0, 0, if data = .none then 0 else 1, 0, 0, 0, 0, 0, 0,
    0x40, command, 0]

/-- The bytes of a password that go into a block. -/
def passwordBytes (password : String) : List UInt8 := (Lines.utf8 password.toList).take 32

/-- The data block of SET PASSWORD, ERASE UNIT and DISABLE PASSWORD. -/
def securityBlock (password : String) (enhanced : Bool) : List UInt8 :=
  (if enhanced then 2 else 0) :: 0 ::
    (passwordBytes password ++ List.replicate (510 - (passwordBytes password).length) 0)

/-! ## What is read -/

/-- `AtaSecurity` with the times that the drive gives. -/
structure Security extends AtaSecurity where
  normalMinutes : Option ℕ
  enhancedMinutes : Option ℕ
  deriving DecidableEq

/-- Word `w` of a block. -/
def word (buf : List UInt8) (w : ℕ) : ℕ := ofLe (slice buf (2 * w) 2)

/-- An erase time in minutes: units of two minutes in 15 bits, or in eight. -/
def eraseMinutes (w : ℕ) : Option ℕ :=
  let units := if w.testBit 15 then w % 32768 else w % 256
  if units = 0 then none else some (units * 2)

def parseAtaSecurity (buf : List UInt8) : Option Security :=
  if buf.length < 512 then none
  else
    let w82 := word buf 82
    let w128 := word buf 128
    let in82 := w82 ≠ 0xFFFF ∧ w82.testBit 1
    some
      { supported := in82 || w128.testBit 0
        enabled := w128.testBit 1
        locked := w128.testBit 2
        frozen := w128.testBit 3
        countExpired := w128.testBit 4
        enhancedSupported := w128.testBit 5
        normalMinutes := eraseMinutes (word buf 89)
        enhancedMinutes := eraseMinutes (word buf 90) }

/-- `AtaErasePlan` with the drive's estimate. -/
structure Plan extends AtaErasePlan where
  minutes : Option ℕ
  deriving DecidableEq

/-- `erase::plan_security_erase`, with the estimate. -/
def plan (sec : Security) (ours : Bool) (enhanced : Option Bool) : Except String Plan :=
  (planSecurityErase sec.toAtaSecurity ours enhanced).map fun p =>
    { toAtaErasePlan := p
      minutes := if p.enhanced then sec.enhancedMinutes else sec.normalMinutes }

/-- The time that ERASE UNIT is given: one and a half times the estimate and half an hour, or two
days. -/
def eraseTimeoutMs (minutes : Option ℕ) : ℕ :=
  let longest := 48 * 60 * 60 * 1000
  match minutes with
  | some m => if m < 508 then min ((m * 3 / 2 + 30) * 60000) longest else longest
  | none => longest

/-! ## The drive -/

/-- A SATA drive with the Security feature set. -/
structure SataDrive where
  /-- The other words of IDENTIFY DEVICE. -/
  words : ℕ → ℕ
  /-- Word 128 says that the feature set is there. -/
  listed : Bool := true
  password : Option (List UInt8) := none
  locked : Bool := false
  frozen : Bool := false
  countExpired : Bool := false
  enhancedSupported : Bool := false
  /-- The command before was ERASE PREPARE. -/
  prepared : Bool := false
  /-- The data was erased, and was it the enhanced erase. -/
  erased : Option Bool := none

namespace SataDrive

/-- Word 128: the security status. -/
def status (u : SataDrive) : ℕ :=
  u.listed.toNat + 2 * u.password.isSome.toNat + 4 * u.locked.toNat + 8 * u.frozen.toNat +
    16 * u.countExpired.toNat + 32 * u.enhancedSupported.toNat

def wordAt (u : SataDrive) (w : ℕ) : ℕ := if w = 128 then u.status else u.words w

/-- The block of IDENTIFY DEVICE. -/
def identify (u : SataDrive) : List UInt8 :=
  (List.range 256).flatMap fun w => le 2 (u.wordAt w)

/-- The password in a block. -/
def field (block : List UInt8) : List UInt8 := slice block 2 32

/-- A bit of the first word of a block: a master password, the enhanced erase. -/
def flag (block : List UInt8) (bit : ℕ) : Bool := (word block 0).testBit bit

/-- What a command does to the drive, or none where the drive aborts it. -/
def exec (u : SataDrive) (block : List UInt8) : Command → Option SataDrive
  | .identify => some { u with prepared := false }
  | .setPassword =>
    if u.locked || u.frozen then none
    else if flag block 0 then some { u with prepared := false }
    else some { u with password := some (field block), prepared := false }
  | .disablePassword =>
    if u.locked || u.frozen then none
    else if u.password.all fun p => p = field block then
      some { u with password := none, prepared := false }
    else none
  | .erasePrepare => if u.frozen then none else some { u with prepared := true }
  | .eraseUnit =>
    if u.frozen || u.countExpired || !u.prepared then none
    else if u.password = some (field block) ∧ (flag block 1 → u.enhancedSupported) then
      some { u with password := none, locked := false, prepared := false
                    erased := some (flag block 1) }
    else none

end SataDrive

/-- The command with an opcode. -/
def Command.ofCode (c : UInt8) : Option Command :=
  [Command.identify, .setPassword, .erasePrepare, .eraseUnit, .disablePassword].find? fun x =>
    x.code = c

/-- What the SCSI layer makes of sixteen bytes: a command whose data phase is as the bytes say. -/
def decode (cdb : List UInt8) : Option Command :=
  if cdb.length = 16 ∧ cdb.getD 0 0 = 0x85 then
    (Command.ofCode (cdb.getD 14 0)).filter fun c =>
      (cdb.getD 1 0 >>> 1) &&& 0x0F = c.data.protocol ∧ cdb.getD 2 0 = c.data.flags ∧
        cdb.getD 6 0 = (if c.data = .none then 0 else 1)
  else none

/-- What becomes of a command. -/
inductive Fate
  | executes
  /-- An error, and the drive did not take it. -/
  | refuses
  /-- An error, and the drive did take it. -/
  | unheard
  /-- The daemon ends while it waits. -/
  | killed (taken : Bool)
  deriving DecidableEq

/-- What becomes of a command, and the text of an error. -/
structure Outcome where
  fate : Fate := .executes
  why : String := ""

/-- The answer to a command. -/
inductive Answer (α : Type)
  | ok (a : α)
  | error (why : String)
  | killed

/-- One command through the SCSI layer. -/
def SataDrive.io (u : SataDrive) (cdb block : List UInt8) (o : Outcome) :
    Answer (List UInt8) × SataDrive :=
  match decode cdb with
  | none => (.error o.why, u)
  | some c =>
    let aborted := { u with prepared := false }
    let taken := (u.exec block c).getD aborted
    match o.fate with
    | .executes =>
      (if (u.exec block c).isSome then .ok (if c.data = .in then u.identify else [])
        else .error o.why, taken)
    | .refuses => (.error o.why, aborted)
    | .unheard => (.error o.why, taken)
    | .killed true => (.killed, taken)
    | .killed false => (.killed, aborted)

/-! ## The erase -/

/-- `ata`: one command, with what an error is about. -/
def ata (u : SataDrive) (c : Command) (block : List UInt8) (o : Outcome) :
    Answer (List UInt8) × SataDrive :=
  match u.io (ataPt16 c.code c.data) block o with
  | (.error why, u) => (.error ("ATA 0x" ++ (Scsi.hex2 c.code.toNat).toUpper ++ ": " ++ why), u)
  | out => out

/-- `erase::ata_security`: IDENTIFY DEVICE. The device can be opened or not. -/
def ataSecurity (u : SataDrive) (opens : Option String) (o : Outcome) :
    Answer Security × SataDrive :=
  match opens with
  | some why => (.error ("open: " ++ why), u)
  | none =>
    match ata u .identify [] o with
    | (.ok buf, u) =>
      match parseAtaSecurity buf with
      | some sec => (.ok sec, u)
      | none => (.error "IDENTIFY DEVICE: short", u)
    | (.error why, u) =>
      (.error ("IDENTIFY DEVICE (not a SATA drive, or the HBA does not pass ATA through): " ++ why),
        u)
    | (.killed, u) => (.killed, u)

/-- What becomes of the commands of an erase. -/
structure Fates where
  opens : Option String := none
  setPassword : Outcome := {}
  erasePrepare : Outcome := {}
  disablePassword : Outcome := {}
  eraseUnit : Outcome := {}
  /-- How long ERASE UNIT takes. -/
  eraseMs : ℕ := 0
  reopens : Option String := none
  identify : Outcome := {}

/-- How an erase ends. -/
inductive Ended
  | ok
  | failed (e : AtaEraseError)
  | killed

/-- Until ERASE UNIT is sent, a failure can take the password off again. -/
def undo (u : SataDrive) (password why : String) (f : Fates) : Ended × SataDrive :=
  match ata u .disablePassword (securityBlock password false) f.disablePassword with
  | (.ok _, u) => (.failed ⟨why ++ " (the password was taken off again)", false⟩, u)
  | (.error e, u) =>
    (.failed ⟨why ++ "; disabling the password failed too: " ++ e, true⟩, u)
  | (.killed, u) => (.killed, u)

/-- ERASE UNIT as far as it is waited for. -/
def Fates.waited (f : Fates) (minutes : Option ℕ) : Outcome :=
  if f.eraseMs ≤ eraseTimeoutMs minutes ∨ f.eraseUnit.fate ≠ .executes then f.eraseUnit
  else { fate := .unheard, why := f.eraseUnit.why }

/-- ERASE UNIT, and IDENTIFY: done only when security reads off again. -/
def eraseUnit (u : SataDrive) (password : String) (p : Plan) (f : Fates) : Ended × SataDrive :=
  match ata u .eraseUnit (securityBlock password p.enhanced) (f.waited p.minutes) with
  | (.error why, u) => (.failed ⟨"security erase unit: " ++ why, true⟩, u)
  | (.killed, u) => (.killed, u)
  | (.ok _, u) =>
    match ataSecurity u f.reopens f.identify with
    | (.error why, u) => (.failed ⟨"after the erase: " ++ why, true⟩, u)
    | (.killed, u) => (.killed, u)
    | (.ok sec, u) =>
      if sec.enabled || sec.locked then
        (.failed ⟨"the erase returned but the drive still has security enabled", true⟩, u)
      else (.ok, u)

/-- ERASE PREPARE, and what follows it. -/
def prepareAndErase (u : SataDrive) (password : String) (p : Plan) (f : Fates) :
    Ended × SataDrive :=
  match ata u .erasePrepare [] f.erasePrepare with
  | (.error why, u) => undo u password why f
  | (.killed, u) => (.killed, u)
  | (.ok _, u) => eraseUnit u password p f

/-- `erase::ata_security_erase`. The password is on record before this is called. -/
def ataSecurityErase (u : SataDrive) (password : String) (p : Plan) (f : Fates) :
    Ended × SataDrive :=
  match f.opens with
  | some why => (.failed ⟨"open: " ++ why, !p.setPassword⟩, u)
  | none =>
    if p.setPassword then
      match ata u .setPassword (securityBlock password false) f.setPassword with
      -- a failed SET PASSWORD may still have set it
      | (.error why, u) => (.failed ⟨why, true⟩, u)
      | (.killed, u) => (.killed, u)
      | (.ok _, u) => prepareAndErase u password p f
    else prepareAndErase u password p f

/-! ## The step of a job -/

/-- A drive, and the password on the record of the job, in memory and in `jobs.json`. -/
structure Site where
  drive : SataDrive
  record : Option String := none
  filed : Option String := none

/-- What becomes of an attempt. -/
structure Tries where
  opens : Option String := none
  identify : Outcome := {}
  /-- A password, should one be needed. -/
  fresh : String
  enhanced : Option Bool := none
  /-- The record of the password reaches the file. -/
  saves : Bool := true
  erase : Fates := {}
  /-- What comes of it reaches the file. -/
  savesAfter : Bool := true

/-- The password goes on record before the drive sees it. -/
def recorded (s : Site) (t : Tries) : String × Site :=
  match s.record with
  | some p => (p, s)
  | none =>
    (t.fresh,
      { s with record := some t.fresh, filed := if t.saves then some t.fresh else s.filed })

/-- The daemon ends and starts. -/
def Site.restart (s : Site) : Site := { s with record := s.filed }

/-- What an erase leaves on record: the password only where the drive may still have it. -/
def Site.conclude (s : Site) (r : Ended) (saves : Bool) : Site :=
  let dropped := { s with record := none, filed := if saves then none else s.filed }
  match r with
  | .ok => dropped
  | .failed e =>
    if e.passwordSet then { s with filed := if saves then s.record else s.filed } else dropped
  | .killed => s.restart

/-- The security erase of `run_step`: how the erase ended, if it came to one. -/
def attempt (s : Site) (t : Tries) : Option Ended × Site :=
  match ataSecurity s.drive t.opens t.identify with
  | (.error _, u) => (none, { s with drive := u })
  | (.killed, u) => (none, { s with drive := u }.restart)
  | (.ok sec, u) =>
    match plan sec s.record.isSome t.enhanced with
    | .error _ => (none, { s with drive := u })
    | .ok p =>
      let out := recorded s t
      let r := ataSecurityErase u out.1 p t.erase
      (some r.1, { out.2 with drive := r.2 }.conclude r.1 t.savesAfter)

/-- What can happen. -/
inductive Event
  | attempt (t : Tries)
  | restart
  /-- The drive loses power, and is frozen when it is back, or not. -/
  | powerCycle (frozen : Bool)

/-- A drive that was without power: locked if there is a password. -/
def SataDrive.powerCycle (u : SataDrive) (frozen : Bool) : SataDrive :=
  { u with locked := u.password.isSome, frozen := frozen, countExpired := false, prepared := false }

def Site.step (s : Site) : Event → Site
  | .attempt t => (attempt s t).2
  | .restart => s.restart
  | .powerCycle frozen => { s with drive := s.drive.powerCycle frozen }

/-- The record of a new password reaches the file. -/
def Event.Saves : Event → Prop
  | .attempt t => t.saves = true
  | _ => True

/-! ## The bytes -/

/-- **The drive is told the command that is meant.** -/
theorem decode_ataPt16 (c : Command) : decode (ataPt16 c.code c.data) = some c := by
  cases c <;> decide

/-- The password that a drive keeps of a text. -/
def stored (password : String) : List UInt8 := SataDrive.field (securityBlock password false)

lemma field_securityBlock (password : String) (enhanced : Bool) :
    SataDrive.field (securityBlock password enhanced) = stored password := by
  cases enhanced <;> rfl

lemma flag_securityBlock (password : String) (enhanced : Bool) :
    SataDrive.flag (securityBlock password enhanced) 0 = false ∧
      SataDrive.flag (securityBlock password enhanced) 1 = enhanced := by
  have first : word (securityBlock password enhanced) 0 = if enhanced then 2 else 0 := by
    cases enhanced <;> rfl
  rw [SataDrive.flag, SataDrive.flag, first]
  cases enhanced <;> decide

namespace SataDrive

lemma length_identify (u : SataDrive) : u.identify.length = 512 := by
  rw [identify, Bytes.length_pieces (fun w => Bytes.length_le 2 (u.wordAt w)), List.length_range]

lemma word_identify (u : SataDrive) {w : ℕ} (h : w < 256) :
    word u.identify w = u.wordAt w % 65536 := by
  have part : slice u.identify (2 * w) 2 = le 2 (u.wordAt w) := by
    rw [identify, Bytes.slice_pieces (fun w => Bytes.length_le 2 (u.wordAt w))
      (by rwa [List.length_range]), List.getElem_range]
  rw [word, part, Bytes.ofLe_le]
  rfl

/-- The security state of a drive. -/
def security (u : SataDrive) : Security where
  supported := (u.words 82 % 65536 ≠ 0xFFFF ∧ (u.words 82 % 65536).testBit 1) || u.listed
  enabled := u.password.isSome
  locked := u.locked
  frozen := u.frozen
  countExpired := u.countExpired
  enhancedSupported := u.enhancedSupported
  normalMinutes := eraseMinutes (u.words 89 % 65536)
  enhancedMinutes := eraseMinutes (u.words 90 % 65536)

/-- The bits of the security status. -/
lemma status_bits : ∀ listed enabled locked frozen expired enhanced : Bool,
    let w := (listed.toNat + 2 * enabled.toNat + 4 * locked.toNat + 8 * frozen.toNat +
      16 * expired.toNat + 32 * enhanced.toNat) % 65536
    w.testBit 0 = listed ∧ w.testBit 1 = enabled ∧ w.testBit 2 = locked ∧ w.testBit 3 = frozen ∧
      w.testBit 4 = expired ∧ w.testBit 5 = enhanced := by
  decide

end SataDrive

/-- **The state of a drive is read as it is.** -/
theorem parse_identify (u : SataDrive) : parseAtaSecurity u.identify = some u.security := by
  obtain ⟨b0, b1, b2, b3, b4, b5⟩ := SataDrive.status_bits u.listed u.password.isSome u.locked
    u.frozen u.countExpired u.enhancedSupported
  have w128 : word u.identify 128 = u.status % 65536 := by
    rw [u.word_identify (by decide), SataDrive.wordAt, if_pos rfl]
  have other : ∀ w, w < 256 → w ≠ 128 → word u.identify w = u.words w % 65536 := by
    intro w h ne
    rw [u.word_identify h, SataDrive.wordAt, if_neg ne]
  unfold parseAtaSecurity SataDrive.security
  rw [if_neg (by rw [u.length_identify]; decide), w128, other 82 (by decide) (by decide),
    other 89 (by decide) (by decide), other 90 (by decide) (by decide)]
  simp only [SataDrive.status, b0, b1, b2, b3, b4, b5]

/-! ## One command -/

/-- The state of a drive that did not take a command. -/
def SataDrive.aborted (u : SataDrive) : SataDrive := { u with prepared := false }

lemma io_ataPt16 (u : SataDrive) (c : Command) (block : List UInt8) (o : Outcome) :
    u.io (ataPt16 c.code c.data) block o =
      match o.fate with
      | .executes =>
        (if (u.exec block c).isSome then .ok (if c.data = .in then u.identify else [])
          else .error o.why, (u.exec block c).getD u.aborted)
      | .refuses => (.error o.why, u.aborted)
      | .unheard => (.error o.why, (u.exec block c).getD u.aborted)
      | .killed true => (.killed, (u.exec block c).getD u.aborted)
      | .killed false => (.killed, u.aborted) := by
  simp only [SataDrive.io, decode_ataPt16]
  rfl

/-- A command is taken, or it is not. -/
lemma ata_drive (u : SataDrive) (c : Command) (block : List UInt8) (o : Outcome) :
    u.exec block c = some (ata u c block o).2 ∨ (ata u c block o).2 = u.aborted := by
  have either : u.exec block c = some ((u.exec block c).getD u.aborted) ∨
      (u.exec block c).getD u.aborted = u.aborted := by
    cases u.exec block c
    · exact Or.inr rfl
    · exact Or.inl rfl
  have io : u.exec block c = some (u.io (ataPt16 c.code c.data) block o).2 ∨
      (u.io (ataPt16 c.code c.data) block o).2 = u.aborted := by
    rw [io_ataPt16]
    cases o.fate with
    | executes => exact either
    | refuses => exact Or.inr rfl
    | unheard => exact either
    | killed taken =>
      cases taken
      · exact Or.inr rfl
      · exact either
  unfold ata
  split
  · next same => rwa [same] at io
  · exact io

/-- A command that is answered was taken. -/
lemma ata_ok {u : SataDrive} {c : Command} {block buf : List UInt8} {o : Outcome}
    (ok : (ata u c block o).1 = .ok buf) :
    u.exec block c = some (ata u c block o).2 ∧ buf = if c.data = .in then u.identify else [] := by
  have io : (u.io (ataPt16 c.code c.data) block o).1 = .ok buf →
      u.exec block c = some (u.io (ataPt16 c.code c.data) block o).2 ∧
        buf = if c.data = .in then u.identify else [] := by
    rw [io_ataPt16]
    cases o.fate with
    | executes =>
      cases u.exec block c with
      | none => intro answer; cases answer
      | some taken =>
        intro answer
        exact ⟨rfl, (Answer.ok.inj answer).symm⟩
    | refuses => intro answer; cases answer
    | unheard => intro answer; cases answer
    | killed taken => cases taken <;> (intro answer; cases answer)
  unfold ata at ok ⊢
  split at ok
  · cases ok
  · exact io ok

/-- A command that executes is answered. -/
lemma ata_executes {u taken : SataDrive} {c : Command} {block : List UInt8} {o : Outcome}
    (executes : o.fate = .executes) (exec : u.exec block c = some taken) :
    ata u c block o = (.ok (if c.data = .in then u.identify else []), taken) := by
  have io : u.io (ataPt16 c.code c.data) block o =
      (.ok (if c.data = .in then u.identify else []), taken) := by
    rw [io_ataPt16, executes, exec]
    rfl
  rw [ata, io]

/-! ## The erase -/

/-- The drive has no password and is not locked. -/
def SataDrive.Open (u : SataDrive) : Prop := u.password = none ∧ u.locked = false

/-- The drive has no password, or this one. -/
def Ours (password : String) (u : SataDrive) : Prop :=
  u.Open ∨ u.password = some (stored password)

variable {password : String} {u : SataDrive}

/-- A drive that took DISABLE PASSWORD has no password. -/
lemma disabled {block : List UInt8} {taken : SataDrive}
    (exec : u.exec block .disablePassword = some taken) : taken.Open := by
  simp only [SataDrive.exec] at exec
  split at exec
  · cases exec
  · next free =>
    split at exec
    · obtain rfl := Option.some.inj exec
      have free : u.locked = false ∧ u.frozen = false := by simpa using free
      exact ⟨rfl, free.1⟩
    · cases exec

/-- A command with this password, or with none, leaves the drive with none or this one. -/
lemma Ours.exec (h : Ours password u) {c : Command} {block : List UInt8} {taken : SataDrive}
    (mine : c = .setPassword → SataDrive.field block = stored password)
    (exec : u.exec block c = some taken) : Ours password taken := by
  cases c with
  | identify =>
    obtain rfl := Option.some.inj exec
    exact h
  | setPassword =>
    simp only [SataDrive.exec] at exec
    split at exec
    · cases exec
    · split at exec
      · obtain rfl := Option.some.inj exec
        exact h
      · obtain rfl := Option.some.inj exec
        exact Or.inr (congrArg some (mine rfl))
  | erasePrepare =>
    simp only [SataDrive.exec] at exec
    split at exec
    · cases exec
    · obtain rfl := Option.some.inj exec
      exact h
  | eraseUnit =>
    simp only [SataDrive.exec] at exec
    split at exec
    · cases exec
    · split at exec
      · obtain rfl := Option.some.inj exec
        exact Or.inl ⟨rfl, rfl⟩
      · cases exec
  | disablePassword => exact Or.inl (disabled exec)

lemma Ours.ata (h : Ours password u) (c : Command) (block : List UInt8) (o : Outcome)
    (mine : c = .setPassword → SataDrive.field block = stored password) :
    Ours password (ata u c block o).2 := by
  obtain taken | same := ata_drive u c block o
  · exact h.exec mine taken
  · rw [same]
    exact h

/-- **How an erase may end**: the drive has no password or this one; after a success it is erased,
with security off, and after a failure that says so it has no password. -/
structure Good (password : String) (p : Plan) (out : Ended × SataDrive) : Prop where
  ours : Ours password out.2
  ok : out.1 = .ok → out.2.Open ∧ out.2.erased = some p.enhanced
  unset : ∀ e, out.1 = .failed e → e.passwordSet = false → out.2.Open

/-- An end that is no success and says that the password may be set. -/
lemma Ours.good {p : Plan} (h : Ours password u) {r : Ended} (notOk : r ≠ .ok)
    (set : ∀ e, r = .failed e → e.passwordSet = true) : Good password p (r, u) where
  ours := h
  ok same := absurd same notOk
  unset e same unset := by
    rw [set e same] at unset
    cases unset

lemma Ours.failed {p : Plan} (h : Ours password u) (message : String) :
    Good password p (.failed ⟨message, true⟩, u) :=
  h.good (by rintro ⟨⟩) (by rintro _ ⟨⟩; rfl)

lemma Ours.killed {p : Plan} (h : Ours password u) : Good password p (.killed, u) :=
  h.good (by rintro ⟨⟩) (by rintro _ ⟨⟩)

/-- Taking the password off again. -/
lemma Ours.undo {p : Plan} (h : Ours password u) (why : String) (f : Fates) :
    Good password p (undo u password why f) := by
  have kept := h.ata .disablePassword (securityBlock password false) f.disablePassword
    (by rintro ⟨⟩)
  unfold Ata.undo
  split
  · next buf v same =>
    have ok := (ata_ok (congrArg Prod.fst same)).1
    rw [same] at kept ok
    exact ⟨kept, by rintro ⟨⟩, fun _ _ _ => disabled ok⟩
  · next why v same =>
    rw [same] at kept
    exact kept.failed _
  · next v same =>
    rw [same] at kept
    exact kept.killed

/-- Reading the state of a drive leaves it. -/
lemma ataSecurity_drive (u : SataDrive) (opens : Option String) (o : Outcome) :
    (ataSecurity u opens o).2 = u ∨ (ataSecurity u opens o).2 = u.aborted := by
  have drive : (ata u .identify [] o).2 = u.aborted := by
    obtain taken | same := ata_drive u .identify [] o
    · exact (Option.some.inj taken).symm
    · exact same
  unfold ataSecurity
  split
  · exact Or.inl rfl
  · split
    · next same =>
      rw [same] at drive
      split <;> exact Or.inr drive
    · next same => rw [same] at drive; exact Or.inr drive
    · next same => rw [same] at drive; exact Or.inr drive

lemma Ours.ataSecurity (h : Ours password u) (opens : Option String) (o : Outcome) :
    Ours password (ataSecurity u opens o).2 := by
  obtain same | same := ataSecurity_drive u opens o
  · rw [same]
    exact h
  · rw [same]
    exact h

/-- What is read of a drive is its state. -/
lemma ataSecurity_ok {opens : Option String} {o : Outcome} {sec : Security}
    (ok : (ataSecurity u opens o).1 = .ok sec) :
    sec = u.security ∧ (ataSecurity u opens o).2 = u.aborted := by
  unfold Ata.ataSecurity at ok ⊢
  split at ok
  · cases ok
  · split at ok
    · next buf v same =>
      obtain ⟨exec, rfl⟩ := ata_ok (congrArg Prod.fst same)
      rw [same] at exec
      simp only [Command.data, if_true, parse_identify] at ok ⊢
      exact ⟨(Answer.ok.inj ok).symm, (Option.some.inj exec).symm⟩
    · cases ok
    · cases ok

/-- ERASE UNIT, and what follows it. -/
lemma Ours.eraseUnit (h : Ours password u) (p : Plan) (f : Fates) :
    Good password p (eraseUnit u password p f) := by
  have kept := h.ata .eraseUnit (securityBlock password p.enhanced) (f.waited p.minutes)
    (by rintro ⟨⟩)
  unfold Ata.eraseUnit
  split
  · next same =>
    rw [same] at kept
    exact kept.failed _
  · next same =>
    rw [same] at kept
    exact kept.killed
  · next buf v same =>
    have exec := (ata_ok (congrArg Prod.fst same)).1
    rw [same] at kept exec
    have erased : v.Open ∧ v.erased = some p.enhanced := by
      simp only [SataDrive.exec, (flag_securityBlock password p.enhanced).2] at exec
      split at exec
      · cases exec
      · split at exec
        · rw [← Option.some.inj exec]
          exact ⟨⟨rfl, rfl⟩, rfl⟩
        · cases exec
    have after := kept.ataSecurity f.reopens f.identify
    split
    · next same => rw [same] at after; exact after.failed _
    · next same => rw [same] at after; exact after.killed
    · next sec w same =>
      have read := (ataSecurity_ok (congrArg Prod.fst same)).2
      rw [same] at after read
      split
      · exact after.failed _
      · refine ⟨after, fun _ => ?_, by rintro _ ⟨⟩⟩
        rw [show w = v.aborted from read]
        exact erased

lemma Ours.prepareAndErase (h : Ours password u) (p : Plan) (f : Fates) :
    Good password p (prepareAndErase u password p f) := by
  have kept := h.ata .erasePrepare [] f.erasePrepare (by rintro ⟨⟩)
  unfold Ata.prepareAndErase
  split
  · next same => rw [same] at kept; exact kept.undo _ f
  · next same => rw [same] at kept; exact kept.killed
  · next same => rw [same] at kept; exact kept.eraseUnit p f

/-- **An erase ends well**, where the plan sets a password on a drive that has none. -/
theorem Ours.ataSecurityErase (h : Ours password u) (p : Plan) (f : Fates)
    (unset : p.setPassword = true → u.Open) :
    Good password p (ataSecurityErase u password p f) := by
  unfold Ata.ataSecurityErase
  split
  · refine ⟨h, by rintro ⟨⟩, ?_⟩
    rintro e ⟨⟩ off
    exact unset (by simpa using off)
  · split
    · have kept := h.ata .setPassword (securityBlock password false) f.setPassword fun _ => rfl
      split
      · next same => rw [same] at kept; exact kept.failed _
      · next same => rw [same] at kept; exact kept.killed
      · next same => rw [same] at kept; exact kept.prepareAndErase p f
    · exact h.prepareAndErase p f

/-! ## Every run -/

/-- What a plan says. -/
lemma plan_ok {sec : Security} {ours : Bool} {enhanced : Option Bool} {p : Plan}
    (planned : plan sec ours enhanced = .ok p) :
    p.setPassword = !sec.enabled ∧ (sec.enabled = true → ours = true) := by
  unfold plan planSecurityErase at planned
  split at planned
  · cases planned
  · split at planned
    · cases planned
    · split at planned
      · cases planned
      · split at planned
        · cases planned
        · next known =>
          split at planned
          · cases planned
          · obtain rfl := Except.ok.inj planned
            refine ⟨rfl, fun enabled => ?_⟩
            simpa [enabled] using known

/-- **What holds of a drive that came without a password**: a password that is on record is in the
file, and the drive has none or the one on record. -/
structure Kept (s : Site) : Prop where
  filed : ∀ p, s.record = some p → s.filed = some p
  drive : s.drive.Open ∨ ∃ p, s.record = some p ∧ s.drive.password = some (stored p)

/-- What holds of a drive that came with a password. -/
structure Foreign (password : List UInt8) (erased : Option Bool) (s : Site) : Prop where
  record : s.record = none
  filed : s.filed = none
  password : s.drive.password = some password
  erased : s.drive.erased = erased

/-- The state of a drive is kept where only its reading state changes. -/
lemma Kept.of_drive {s : Site} (h : Kept s) (same : u = s.drive ∨ u = s.drive.aborted) :
    Kept { s with drive := u } := by
  obtain rfl | rfl := same
  · exact h
  · exact ⟨h.filed, h.drive⟩

lemma Kept.restart {s : Site} (h : Kept s) : Kept s.restart := by
  refine ⟨fun p same => same, h.drive.imp_right ?_⟩
  rintro ⟨p, record, password⟩
  exact ⟨p, h.filed p record, password⟩

/-- The password that an attempt uses is on record, and the drive has none or this one. -/
lemma Kept.recorded {s : Site} (h : Kept s) {t : Tries} (saves : t.saves = true) :
    (recorded s t).2.record = some (recorded s t).1 ∧
      (recorded s t).2.filed = some (recorded s t).1 ∧ Ours (recorded s t).1 s.drive := by
  unfold Ata.recorded
  cases record : s.record with
  | some p =>
    refine ⟨record, h.filed p record, h.drive.imp_right ?_⟩
    rintro ⟨q, same, password⟩
    rwa [← Option.some.inj (record.symm.trans same)] at password
  | none =>
    refine ⟨rfl, if_pos saves, Or.inl (h.drive.resolve_right ?_)⟩
    rintro ⟨q, same, -⟩
    rw [record] at same
    cases same

lemma Site.drive_conclude (s : Site) (r : Ended) (saves : Bool) :
    (s.conclude r saves).drive = s.drive := by
  unfold Site.conclude
  cases r with
  | failed e =>
    dsimp only
    split <;> rfl
  | ok => rfl
  | killed => rfl

/-- What an erase leaves on record is the password that the drive may have. -/
lemma Kept.conclude {s : Site} {p : Plan} {r : Ended × SataDrive}
    (record : s.record = some password) (filed : s.filed = some password)
    (good : Good password p r) (saves : Bool) :
    Kept ({ s with drive := r.2 }.conclude r.1 saves) := by
  have inFile : (if saves then s.record else s.filed) = some password := by
    cases saves
    · exact filed
    · exact record
  obtain ⟨ended, v⟩ := r
  cases ended with
  | ok => exact ⟨by rintro _ ⟨⟩, Or.inl (good.ok rfl).1⟩
  | killed => exact ⟨fun _ same => same, good.ours.imp_right fun mine => ⟨_, filed, mine⟩⟩
  | failed e =>
    unfold Site.conclude
    dsimp only
    split
    · refine ⟨fun q same => ?_, good.ours.imp_right fun mine => ⟨_, record, mine⟩⟩
      exact inFile.trans (record.symm.trans same)
    · next unset =>
      exact ⟨by rintro _ ⟨⟩, Or.inl (good.unset e rfl (Bool.eq_false_of_not_eq_true unset))⟩

/-- **An attempt keeps the password of the drive on record**, and a success has erased it. -/
theorem Kept.attempt {s : Site} (h : Kept s) {t : Tries} (saves : t.saves = true) :
    Kept (attempt s t).2 ∧ ((attempt s t).1 = some .ok →
      (attempt s t).2.drive.Open ∧ ∃ e, (attempt s t).2.drive.erased = some e) := by
  have read := ataSecurity_drive s.drive t.opens t.identify
  unfold Ata.attempt
  split
  · next same =>
    rw [same] at read
    exact ⟨h.of_drive read, by rintro ⟨⟩⟩
  · next same =>
    rw [same] at read
    exact ⟨(h.of_drive read).restart, by rintro ⟨⟩⟩
  · next sec v same =>
    obtain ⟨rfl, sameDrive⟩ := ataSecurity_ok (congrArg Prod.fst same)
    rw [same] at read sameDrive
    split
    · exact ⟨h.of_drive read, by rintro ⟨⟩⟩
    · next p planned =>
      obtain ⟨set, -⟩ := plan_ok planned
      obtain ⟨record, filed, ours⟩ := h.recorded saves
      have ours : Ours (Ata.recorded s t).1 v := by
        rw [show v = s.drive.aborted from sameDrive]
        exact ours
      have unset : p.setPassword = true → v.Open := by
        intro isSet
        refine ours.resolve_right fun password => ?_
        rw [show v = s.drive.aborted from sameDrive] at password
        have some : s.drive.password = Option.some (stored (Ata.recorded s t).1) := password
        rw [set, SataDrive.security, some] at isSet
        cases isSet
      have good := ours.ataSecurityErase p t.erase unset
      refine ⟨Kept.conclude record filed good t.savesAfter, fun ended => ?_⟩
      dsimp only
      rw [Site.drive_conclude]
      have erased := good.ok (Option.some.inj ended)
      exact ⟨erased.1, _, erased.2⟩

/-- What happens keeps the password of the drive on record. -/
theorem Kept.step {s : Site} (h : Kept s) {e : Event} (saves : e.Saves) : Kept (s.step e) := by
  cases e with
  | attempt t => exact (h.attempt saves).1
  | restart => exact h.restart
  | powerCycle frozen =>
    refine ⟨h.filed, ?_⟩
    obtain ⟨none, -⟩ | password := h.drive
    · exact Or.inl ⟨none, by simp [Site.step, SataDrive.powerCycle, none]⟩
    · exact Or.inr password

/-- What happens leaves a drive that came with a password. -/
theorem Foreign.step {s : Site} {password : List UInt8} {erased : Option Bool}
    (h : Foreign password erased s) (e : Event) : Foreign password erased (s.step e) := by
  have same : ∀ v, v = s.drive ∨ v = s.drive.aborted →
      Foreign password erased { s with drive := v } := by
    rintro v (rfl | rfl)
    · exact h
    · exact ⟨h.record, h.filed, h.password, h.erased⟩
  have restarted : ∀ {s : Site}, Foreign password erased s → Foreign password erased s.restart :=
    fun h => ⟨h.filed, h.filed, h.password, h.erased⟩
  cases e with
  | restart => exact restarted h
  | powerCycle frozen => exact ⟨h.record, h.filed, h.password, h.erased⟩
  | attempt t =>
    have read := ataSecurity_drive s.drive t.opens t.identify
    unfold Site.step
    dsimp only
    unfold Ata.attempt
    split
    · next out => rw [out] at read; exact same _ read
    · next out => rw [out] at read; exact restarted (same _ read)
    · next sec v out =>
      obtain ⟨rfl, -⟩ := ataSecurity_ok (congrArg Prod.fst out)
      rw [out] at read
      split
      · exact same _ read
      · next p planned =>
        have known := (plan_ok planned).2 (by simp [SataDrive.security, h.password])
        rw [h.record] at known
        cases known

/-- **The password of a drive is on record.** In every run of a step with a security erase, in which
the record of a new password reaches the file: whatever becomes of the commands, with restarts of
the daemon, also while a command runs, and power cycles anywhere, a drive that came without a
password has none and is not locked, or it has the one on record and in the file, and an attempt
that reports success has erased it and left it without a password; a drive that came with a
password keeps it, and its data. -/
theorem password_on_record (u : SataDrive) (es : List Event) (saves : ∀ e ∈ es, e.Saves) :
    let s := Runs.after Site.step { drive := u } es
    (u.Open → (s.drive.Open ∨ ∃ p, s.record = some p ∧ s.filed = some p ∧
        s.drive.password = some (stored p)) ∧
      ∀ t : Tries, t.saves = true → (attempt s t).1 = some .ok →
        (attempt s t).2.drive.Open ∧ ∃ e, (attempt s t).2.drive.erased = some e) ∧
    ∀ password, u.password = some password →
      s.drive.password = some password ∧ s.drive.erased = u.erased := by
  intro s
  constructor
  · intro none
    have start : Kept { drive := u } := ⟨by rintro _ ⟨⟩, Or.inl none⟩
    have kept : Kept s := Runs.keeps_of_forall (fun _ _ h ok => h.step ok) start saves
    refine ⟨kept.drive.imp_right ?_, fun t saves => (kept.attempt saves).2⟩
    rintro ⟨p, record, password⟩
    exact ⟨p, record, kept.filed p record, password⟩
  · intro password some
    have foreign : Foreign password u.erased s :=
      Runs.keeps (fun _ e h => h.step e) ⟨rfl, rfl, some, rfl⟩ es
    exact ⟨foreign.password, foreign.erased⟩

/-- A drive with the enhanced erase. -/
def ssd : SataDrive := { words := fun _ => 0, enhancedSupported := true }

/-- The daemon is killed while it waits for ERASE UNIT, which the drive did not take, and the drive
loses power. -/
def brokenOff : List Event :=
  [.attempt { fresh := "sd-ABC", erase := { eraseUnit := { fate := .killed false } } },
    .powerCycle false]

lemma saves_brokenOff : ∀ e ∈ brokenOff, e.Saves := by
  intro e mem
  simp only [brokenOff, List.mem_cons, List.not_mem_nil, or_false] at mem
  rcases mem with rfl | rfl <;> trivial

/-- The password that the drive is left with is on record. -/
theorem password_on_record_killed :
    let s := Runs.after Site.step { drive := ssd } brokenOff
    s.drive.Open ∨ ∃ p, s.record = some p ∧ s.filed = some p ∧
      s.drive.password = some (stored p) :=
  ((password_on_record ssd brokenOff saves_brokenOff).1 ⟨rfl, rfl⟩).1

/-! ## Finishing what was begun -/

/-- Every command executes. -/
structure Fates.Executes (f : Fates) : Prop where
  opens : f.opens = none
  setPassword : f.setPassword.fate = .executes
  erasePrepare : f.erasePrepare.fate = .executes
  eraseUnit : f.eraseUnit.fate = .executes
  reopens : f.reopens = none
  identify : f.identify.fate = .executes

/-- The drive can be erased: the feature set is there, not frozen, with attempts left. -/
structure SataDrive.Erasable (u : SataDrive) : Prop where
  supported : u.security.supported = true
  frozen : u.frozen = false
  attempts : u.countExpired = false

/-- The drive takes at most half as long again as its estimate, and at most two days. -/
def InTime (ms : ℕ) (minutes : Option ℕ) : Prop :=
  ms ≤ 172800000 ∧ ∀ m, minutes = some m → m < 508 → ms ≤ 90000 * m

lemma InTime.le {ms : ℕ} {minutes : Option ℕ} (h : InTime ms minutes) :
    ms ≤ eraseTimeoutMs minutes := by
  unfold eraseTimeoutMs
  cases minutes with
  | none => exact h.1
  | some m =>
    dsimp only
    split
    · next short =>
      have half := h.2 m rfl short
      exact Nat.le_min.mpr ⟨by omega, h.1⟩
    · exact h.1

lemma ataSecurity_executes (u : SataDrive) {o : Outcome} (executes : o.fate = .executes) :
    ataSecurity u none o = (.ok u.security, u.aborted) := by
  have read : ata u .identify [] o = (.ok u.identify, u.aborted) := ata_executes executes rfl
  simp only [ataSecurity, read, parse_identify]

/-- An erase of a drive that has this password. -/
lemma prepareAndErase_executes {p : Plan} {f : Fates} (executes : f.Executes)
    (inTime : f.eraseMs ≤ eraseTimeoutMs p.minutes) (frozen : u.frozen = false)
    (attempts : u.countExpired = false) (mine : u.password = some (stored password))
    (able : p.enhanced = true → u.enhancedSupported = true) :
    (prepareAndErase u password p f).1 = .ok ∧ (prepareAndErase u password p f).2.Open ∧
      (prepareAndErase u password p f).2.erased = some p.enhanced := by
  let prepared : SataDrive := { u with prepared := true }
  let erased : SataDrive :=
    { prepared with password := none, locked := false, prepared := false
                    erased := some p.enhanced }
  have prepare : ata u .erasePrepare [] f.erasePrepare = (.ok [], prepared) :=
    ata_executes executes.erasePrepare (by simp [SataDrive.exec, frozen, prepared])
  have waited : (f.waited p.minutes).fate = .executes := by
    rw [Fates.waited, if_pos (Or.inl inTime)]
    exact executes.eraseUnit
  have erase : ata prepared .eraseUnit (securityBlock password p.enhanced) (f.waited p.minutes) =
      (.ok [], erased) := by
    refine ata_executes waited ?_
    simp only [SataDrive.exec, (flag_securityBlock password p.enhanced).2, field_securityBlock]
    rw [if_neg (by simp [prepared, frozen, attempts]), if_pos ⟨mine, able⟩]
  have run : prepareAndErase u password p f = (.ok, erased.aborted) := by
    simp only [prepareAndErase, prepare, eraseUnit, erase, executes.reopens,
      ataSecurity_executes erased executes.identify]
    rfl
  rw [run]
  exact ⟨rfl, ⟨rfl, rfl⟩, rfl⟩

/-- An erase of a drive that has no password or this one, as it was planned. -/
lemma ataSecurityErase_executes {p : Plan} {f : Fates} (executes : f.Executes)
    (inTime : f.eraseMs ≤ eraseTimeoutMs p.minutes) (frozen : u.frozen = false)
    (attempts : u.countExpired = false) (mine : Ours password u)
    (set : p.setPassword = !u.password.isSome)
    (able : p.enhanced = true → u.enhancedSupported = true) :
    (ataSecurityErase u password p f).1 = .ok ∧ (ataSecurityErase u password p f).2.Open ∧
      (ataSecurityErase u password p f).2.erased = some p.enhanced := by
  unfold ataSecurityErase
  rw [executes.opens]
  obtain ⟨unset, unlocked⟩ | mine := mine
  · let set' : SataDrive := { u with password := some (stored password), prepared := false }
    have sets : ata u .setPassword (securityBlock password false) f.setPassword =
        (.ok [], set') := by
      refine ata_executes executes.setPassword ?_
      simp only [SataDrive.exec]
      rw [if_neg (by simp [unlocked, frozen]), if_neg (by simp [flag_securityBlock])]
      rfl
    rw [unset] at set
    simp only [set, Option.isSome_none, Bool.not_false, if_true, sets]
    exact prepareAndErase_executes (u := set') executes inTime frozen attempts rfl able
  · rw [mine] at set
    simp only [set, Option.isSome_some, Bool.not_true, Bool.false_eq_true, if_false]
    exact prepareAndErase_executes executes inTime frozen attempts mine able

/-- An erase that is possible is planned. -/
lemma plan_erasable (erasable : u.Erasable) {ours : Bool} {enhanced : Option Bool}
    (known : u.password.isSome = true → ours = true)
    (able : enhanced = some true → u.enhancedSupported = true) :
    ∃ p, plan u.security ours enhanced = .ok p ∧ p.setPassword = (!u.password.isSome) ∧
      p.enhanced = enhanced.getD u.enhancedSupported ∧
      p.minutes = if p.enhanced then u.security.enhancedMinutes else u.security.normalMinutes := by
  refine ⟨{ setPassword := !u.password.isSome
            enhanced := enhanced.getD u.enhancedSupported
            minutes := if enhanced.getD u.enhancedSupported then u.security.enhancedMinutes
              else u.security.normalMinutes }, ?_, rfl, rfl, rfl⟩
  unfold plan planSecurityErase
  rw [if_neg (by rw [erasable.supported]; decide),
    if_neg (by simp [SataDrive.security, erasable.frozen]),
    if_neg (by simp [SataDrive.security, erasable.attempts]), if_neg ?_, if_neg ?_]
  · rfl
  · rintro ⟨wanted, unable⟩
    rw [show u.enhancedSupported = false from unable] at able
    cases able wanted
  · simpa [SataDrive.security] using known

/-- **The next attempt finishes what was begun.** After any such run on a drive that came without a
password, whatever it left: when the drive can be erased, as the attempt asks, its commands execute
and it takes no longer than half as long again as its estimate, the attempt succeeds. It leaves the
data erased, and no password on the drive or on record. -/
theorem attempt_completes (u : SataDrive) (es : List Event) (saves : ∀ e ∈ es, e.Saves)
    (came : u.Open) (t : Tries) :
    let s := Runs.after Site.step { drive := u } es
    let enhanced := t.enhanced.getD s.drive.enhancedSupported
    s.drive.Erasable → (t.enhanced = some true → s.drive.enhancedSupported = true) →
    t.opens = none → t.identify.fate = .executes → t.erase.Executes → t.saves = true →
    InTime t.erase.eraseMs
      (if enhanced then s.drive.security.enhancedMinutes else s.drive.security.normalMinutes) →
    (attempt s t).1 = some .ok ∧ (attempt s t).2.drive.Open ∧
      (attempt s t).2.drive.erased = some enhanced ∧ (attempt s t).2.record = none := by
  intro s enhanced erasable able opens identify executes saved inTime
  have kept : Kept s :=
    Runs.keeps_of_forall (fun _ _ h ok => h.step ok) ⟨by rintro _ ⟨⟩, Or.inl came⟩ saves
  have known : s.drive.password.isSome = true → s.record.isSome = true := by
    intro some
    obtain ⟨none, -⟩ | ⟨p, record, -⟩ := kept.drive
    · rw [none] at some
      cases some
    · rw [record]
      rfl
  obtain ⟨p, planned, set, asked, minutes⟩ := plan_erasable erasable known able
  obtain ⟨-, -, ours⟩ := kept.recorded saved
  have within : t.erase.eraseMs ≤ eraseTimeoutMs p.minutes := by
    rw [minutes, asked]
    exact inTime.le
  have supports : p.enhanced = true → s.drive.enhancedSupported = true := by
    rw [asked]
    cases want : t.enhanced with
    | none => exact id
    | some e => exact fun yes => able (want.trans (congrArg some yes))
  have done := ataSecurityErase_executes (u := s.drive.aborted) executes within erasable.frozen
    erasable.attempts ours set supports
  have run : attempt s t =
      (some (ataSecurityErase s.drive.aborted (recorded s t).1 p t.erase).1,
        { (recorded s t).2 with
          drive := (ataSecurityErase s.drive.aborted (recorded s t).1 p t.erase).2 }.conclude
          (ataSecurityErase s.drive.aborted (recorded s t).1 p t.erase).1 t.savesAfter) := by
    simp only [attempt, opens, ataSecurity_executes s.drive identify, planned]
  rw [run, done.1, Site.drive_conclude]
  exact ⟨rfl, done.2.1, done.2.2.trans (congrArg some asked), rfl⟩

/-- The attempt after that succeeds on the drive, which is locked. -/
theorem attempt_completes_locked :
    let s := Runs.after Site.step { drive := ssd } brokenOff
    s.drive.locked = true ∧ (attempt s { fresh := "sd-DEF" }).1 = some .ok := by
  intro s
  have locked : s.drive.locked = true := by decide +kernel
  have erasable : s.drive.Erasable :=
    ⟨by decide +kernel, by decide +kernel, by decide +kernel⟩
  have atOnce : ∀ minutes, InTime 0 minutes := fun _ =>
    ⟨Nat.zero_le 172800000, fun m _ _ => Nat.zero_le (90000 * m)⟩
  have executes : Fates.Executes {} := ⟨rfl, rfl, rfl, rfl, rfl, rfl⟩
  have completes := attempt_completes ssd brokenOff saves_brokenOff ⟨rfl, rfl⟩
    { fresh := "sd-DEF" }
  exact ⟨locked, (completes erasable (by rintro ⟨⟩) rfl rfl executes rfl (atOnce _)).1⟩

end Ata

end StormDrive
