/-
**Block reads of a USB mass storage device.**

`tegrabl_usbmsd_bdev_read_block` reads a range of blocks in chunks. Each chunk is one exchange with
the device: a command (`usbmsd_send_cbw`), its data (`usbmsd_transfer_data`) and its status
(`usbmsd_get_csw`). The host driver below is any state machine, so that every transfer may fail, be
short, stall or bring any bytes.

What the data phase returns is dropped: `tegrabl_usbmsd_io` goes on to the status, and the length
that was transferred is not compared with the length asked for.
-/

import Cboot.Error
import Cboot.Lib.ByteMem
import Cboot.Lib.Chunks
import Cboot.Lib.Program

namespace Cboot.UsbMsd

open Prog Chunks ByteMem

/-! ### Transfers -/

def usbmsdMaxReadWriteSectors : Nat := 128

def sectorSize : Nat := 2 ^ 9

def cbwSize : Nat := 31

def cswSize : Nat := 13

def compStallError : Nat := 6

structure Host (σ : Type) where
  /-- `tegrabl_usbh_snd_data`: its result and the length that it transferred. -/
  sndData : List Byte → σ → (Result Unit × Nat) × σ
  /-- `tegrabl_usbh_rcv_data`: its result and the bytes that it transferred. -/
  rcvData : Nat → σ → (Result Unit × List Byte) × σ
  rcvData_le : ∀ length s, (rcvData length s).1.2.length ≤ length
  /-- The completion code, if there is a host context. -/
  compCode : σ → Option Nat
  /-- `clear_endpoint_stall`, for the endpoint IN (`true`) or OUT. -/
  clearEndpointStall : Bool → σ → σ
  /-- `do_bulk_reset`. -/
  bulkReset : σ → σ

structure DataPhase where
  cdb : List Byte
  buf : Nat
  length : Nat
  result : Result Unit
  bytes : List Byte

structure Msd (σ : Type) where
  blockCount : Nat
  isWrite : Bool
  tag : BitVec 32
  cmd : List Byte
  cswStatus : Byte
  currentLun : Byte
  mem : ByteMem
  host : σ
  phases : List DataPhase

section Model

variable {σ : Type} (host : Host σ)

def sndData (bytes : List Byte) : Prog ErrorValue (Msd σ) (Result Unit × Nat) := fun s =>
  let out := host.sndData bytes s.host
  some (.ok out.1, { s with host := out.2 })

def rcvData (length : Nat) : Prog ErrorValue (Msd σ) (Result Unit × List Byte) := fun s =>
  let out := host.rcvData length s.host
  some (.ok out.1, { s with host := out.2 })

def clearStall (inward : Bool) : Prog ErrorValue (Msd σ) Bool := do
  let s ← read
  if (host.compCode s.host).getD 0 = compStallError then do
    modify fun s => { s with host := host.clearEndpointStall inward s.host }
    return true
  else return false

def cbwBytes (s : Msd σ) (numBytes : Nat) : List Byte :=
  bytes32 0x43425355 ++ bytes32 s.tag ++ bytes32 (BitVec.ofNat 32 numBytes) ++
    [if s.isWrite then 0 else 0x80, s.currentLun, BitVec.ofNat 8 s.cmd.length] ++
    (s.cmd ++ List.replicate (16 - s.cmd.length) 0)

def usbmsdSendCbw (numBytes : Nat) : Prog ErrorValue (Msd σ) Unit := do
  let s ← read
  if s.cmd.length = 0 ∨ 16 < s.cmd.length then
    ofResult (tegrablError .usbmsd .badParameter 0x0B)
  else do
    let (result, xferLength) ← sndData host (cbwBytes s numBytes)
    if xferLength ≠ cbwSize then ofResult (tegrablError .usbmsd .sendFailed 0x0C)
    else ofResult result

def usbmsdTransferData (buf numBytes : Nat) : Prog ErrorValue (Msd σ) Unit :=
  if numBytes = 0 then return ()
  else if buf = 0 then ofResult (tegrablError .noModule .noMemory 0)
  else do
    let s ← read
    if s.isWrite then do
      let (result, _) ← sndData host (s.mem.load buf numBytes)
      ofResult result
    else do
      let (result, bytes) ← rcvData host numBytes
      modify fun s => { s with
        mem := s.mem.store buf bytes,
        phases := s.phases ++ [⟨s.cmd, buf, numBytes, result, bytes⟩] }
      ofResult result

def checkCsw (result : Result Unit) (length : Nat) (csw : ByteMem) :
    Prog ErrorValue (Msd σ) Byte := do
  let s ← read
  if length ≠ cswSize then ofResult (tegrablError .usbmsd .unknownStatus 0x13)
  else if word32 csw 0 ≠ 0x53425355 then do
    modify fun s => { s with host := host.bulkReset s.host }
    ofResult (tegrablError .usbmsd .invalid 0x11)
  else if word32 csw 4 ≠ s.tag then do
    modify fun s => { s with host := host.bulkReset s.host }
    ofResult (tegrablError .usbmsd .invalid 0x12)
  else if 2 ≤ (csw 12).toNat then do
    modify fun s => { s with
      cswStatus := csw 12,
      host := host.clearEndpointStall false (host.clearEndpointStall true (host.bulkReset s.host)) }
    ofResult (tegrablError .usbmsd .unknownStatus 0x14)
  else do
    modify fun s => { s with cswStatus := csw 12 }
    ofResult (result.map fun _ => csw 12)

def usbmsdGetCsw : Prog ErrorValue (Msd σ) Byte :=
  always (do
    let (result, bytes) ← rcvData host cswSize
    let csw := ByteMem.store (fun _ => 0) 0 bytes
    let stalled ← clearStall host true
    if stalled then do
      let (again, more) ← rcvData host cswSize
      checkCsw host again more.length (csw.store 0 more)
    else checkCsw host result bytes.length csw)
    fun s => some { s with tag := s.tag + 1 }

def tegrablUsbmsdIo (buf length : Nat) : Prog ErrorValue (Msd σ) Unit :=
  if buf = 0 then stuck
  else do
    usbmsdSendCbw host length
    recover (usbmsdTransferData host buf length) fun _ => return ()
    let s ← read
    let _ ← clearStall host (!s.isWrite)
    let status ← usbmsdGetCsw host
    if status ≠ 0 then ofResult (tegrablError .usbmsd .condition 0x13)
    else return ()

def read10 (block count : Nat) : List Byte :=
  [0x28, 0, BitVec.ofNat 8 (block >>> 24), BitVec.ofNat 8 (block >>> 16), BitVec.ofNat 8 (block >>> 8),
    BitVec.ofNat 8 block, 0, BitVec.ofNat 8 (count >>> 8), BitVec.ofNat 8 count, 0]

def readLoop : Nat → Nat → Nat → Nat → Prog ErrorValue (Msd σ) Unit
  | rounds, buf, block, count =>
    if count = 0 then return ()
    else match rounds with
    | 0 => stuck
    | rounds + 1 => do
      let bulkCount := min count usbmsdMaxReadWriteSectors
      modify fun s => { s with cmd := read10 block bulkCount }
      tegrablUsbmsdIo host buf (bulkCount * sectorSize % 2 ^ 32)
      readLoop rounds (buf + bulkCount * sectorSize % 2 ^ 32) ((block + bulkCount) % 2 ^ 32)
        (count - bulkCount)

def tegrablUsbmsdBdevReadBlock (buf block count : Nat) : Prog ErrorValue (Msd σ) Unit := do
  let s ← read
  if buf = 0 then ofResult (tegrablError .usbmsd .badParameter 0x04)
  else if s.blockCount < block + count then ofResult (tegrablError .usbmsd .overflow 0x04)
  else do
    modify fun s => { s with isWrite := false, cmd := read10 0 0 }
    readLoop host count buf block count

end Model

/-! ### What a read does -/

def DataPhase.Full (phase : DataPhase) : Prop :=
  phase.result = .ok () ∧ phase.bytes.length = phase.length

def DataPhase.request (phase : DataPhase) : List Byte × Nat × Nat :=
  (phase.cdb, phase.buf, phase.length)

def chunkRequest (buf block : Nat) (c : Nat × Nat) : List Byte × Nat × Nat :=
  (read10 c.1 c.2, buf + (c.1 - block) * sectorSize, c.2 * sectorSize)

def ForChunks (buf block count : Nat) (phases : List DataPhase) : Prop :=
  phases.map DataPhase.request =
    (chunks usbmsdMaxReadWriteSectors block count).map (chunkRequest buf block)

/-- **The read is right**: every chunk has had its data phase, which succeeded and transferred the
full length, and the buffer holds what they brought, `count` blocks in all. -/
structure ReadAll {σ : Type} (buf block count : Nat) (phases : List DataPhase) (s s' : Msd σ) :
    Prop where
  chunks : ForChunks buf block count phases
  full : ∀ phase ∈ phases, phase.Full
  data : s'.mem = s.mem.store buf (phases.flatMap DataPhase.bytes)
  blocks : (phases.flatMap DataPhase.bytes).length = count * sectorSize

/-! ### One exchange -/

section Exchange

variable {σ : Type} {host : Host σ}

structure View where
  mem : ByteMem
  phases : List DataPhase
  cmd : List Byte
  isWrite : Bool

def view (s : Msd σ) : View := ⟨s.mem, s.phases, s.cmd, s.isWrite⟩

def Quiet {α : Type} (p : Prog ErrorValue (Msd σ) α) : Prop := ∀ v, Keeps (fun s => view s = v) p

variable {α : Type}

theorem Quiet.triple {p : Prog ErrorValue (Msd σ) α} (quiet : Quiet p)
    (holds : View → Prop) :
    Triple (fun s => holds (view s)) p (fun _ s => holds (view s)) fun _ => True :=
  fun s start => (quiet (view s)).mono (fun _ => id) (fun _ _ same => same ▸ start)
    (fun _ _ => trivial) s rfl

theorem Quiet.bind {α β : Type} {p : Prog ErrorValue (Msd σ) α} {f : α → Prog ErrorValue (Msd σ) β}
    (first : Quiet p) (second : ∀ a, Quiet (f a)) : Quiet (p >>= f) := fun v =>
  (first v).bind fun a => second a v

theorem Quiet.ite {c : Prop} [Decidable c] {p q : Prog ErrorValue (Msd σ) α}
    (yes : Quiet p) (no : Quiet q) : Quiet (if c then p else q) := fun v =>
  Triple.ite (fun _ => yes v) fun _ => no v

theorem Quiet.read {α : Type} {f : Msd σ → Prog ErrorValue (Msd σ) α} (rest : ∀ s, Quiet (f s)) :
    Quiet (read >>= f) := fun v => Triple.readAny fun s => rest s v

theorem Quiet.ofResult (result : Result α) : Quiet (ofResult result : Prog ErrorValue (Msd σ) α) :=
  fun _ =>
  Triple.ofResult (fun _ _ => id) fun _ => id

theorem Quiet.pure (a : α) : Quiet (pure a : Prog ErrorValue (Msd σ) α) := fun _ =>
  Keeps.pure

theorem Quiet.modify {f : Msd σ → Msd σ} (same : ∀ s, view (f s) = view s) :
    Quiet (modify f : Prog ErrorValue (Msd σ) Unit) := fun _ =>
  Triple.modify fun s holds => (same s).trans holds

theorem sndData_quiet (bytes : List Byte) : Quiet (sndData host bytes) := by
  intro v s same x run
  cases run
  exact same

theorem rcvData_quiet (length : Nat) : Quiet (rcvData host length) := by
  intro v s same x run
  cases run
  exact same

theorem clearStall_quiet (inward : Bool) : Quiet (clearStall host inward) :=
  .read fun _ => .ite (.bind (.modify fun _ => rfl) fun _ => .pure _) (.pure _)

theorem sendCbw_quiet (numBytes : Nat) : Quiet (usbmsdSendCbw host numBytes) :=
  .read fun _ => .ite (.ofResult _) <| .bind (sndData_quiet _) fun _ =>
    .ite (.ofResult _) (.ofResult _)

theorem checkCsw_quiet (result : Result Unit) (length : Nat) (csw : ByteMem) :
    Quiet (checkCsw host result length csw) :=
  .read fun _ => .ite (.ofResult _) <|
    .ite (.bind (.modify fun _ => rfl) fun _ => .ofResult _) <|
    .ite (.bind (.modify fun _ => rfl) fun _ => .ofResult _) <|
    .ite (.bind (.modify fun _ => rfl) fun _ => .ofResult _) <|
    .bind (.modify fun _ => rfl) fun _ => .ofResult _

theorem getCsw_quiet : Quiet (usbmsdGetCsw host) := by
  have body : Quiet (do
      let (result, bytes) ← rcvData host cswSize
      let csw := ByteMem.store (fun _ => 0) 0 bytes
      let stalled ← clearStall host true
      if stalled then do
        let (again, more) ← rcvData host cswSize
        checkCsw host again more.length (csw.store 0 more)
      else checkCsw host result bytes.length csw) :=
    .bind (rcvData_quiet _) fun _ => .bind (clearStall_quiet _) fun _ =>
      .ite (.bind (rcvData_quiet _) fun _ => checkCsw_quiet _ _ _) (checkCsw_quiet _ _ _)
  intro v
  refine (body v).always (fun _ s s' same counted => ?_) fun s s' same counted => ?_
  · obtain rfl := Option.some.inj counted
    exact same
  · obtain rfl := Option.some.inj counted
    exact same

def Moved (buf length : Nat) (before after : View) : Prop :=
  ∃ phase : DataPhase, phase.request = (before.cmd, buf, length) ∧
    after = { before with
      mem := before.mem.store buf phase.bytes, phases := before.phases ++ [phase] }

variable {buf length : Nat} {v : View}

theorem transferData_triple (buffer : buf ≠ 0) (some_ : length ≠ 0) (reading : v.isWrite = false) :
    Triple (fun s => view s = v) (usbmsdTransferData host buf length)
      (fun _ s => Moved buf length v (view s)) fun s => Moved buf length v (view s) := by
  rw [usbmsdTransferData, if_neg some_, if_neg buffer]
  rintro s rfl ⟨result, s'⟩ run
  have direction : s.isWrite = false := reading
  rw [read_bind, direction] at run
  have moved : Moved buf length (view s) (view s') := by
    cases run
    exact ⟨⟨s.cmd, buf, length, (host.rcvData length s.host).1.1, (host.rcvData length s.host).1.2⟩,
      rfl, rfl⟩
  cases result with
  | ok _ | error _ => exact moved

theorem io_triple (buffer : buf ≠ 0) (some_ : length ≠ 0) (reading : v.isWrite = false) :
    Triple (fun s => view s = v) (tegrablUsbmsdIo host buf length)
      (fun _ s => Moved buf length v (view s)) fun _ => True := by
  rw [tegrablUsbmsdIo, if_neg buffer]
  refine ((sendCbw_quiet length).triple (· = v)).bind fun _ => ?_
  -- Both ends of the data phase go on to the status.
  refine ((transferData_triple buffer some_ reading).recover fun _ =>
    Keeps.pure).bind fun _ => Triple.readAny fun s => ?_
  refine ((clearStall_quiet _).triple (Moved buf length v)).bind fun _ => ?_
  refine (getCsw_quiet.triple (Moved buf length v)).bind fun status => ?_
  exact Triple.ite (fun _ => Triple.ofResult (fun _ _ => id) fun _ _ => trivial)
    fun _ => Keeps.pure

end Exchange

/-! ### The chunks of a read -/

section Reads

variable {σ : Type} {host : Host σ} {v : View}

theorem chunk_le {most block count : Nat} {c : Nat × Nat} (member : c ∈ chunks most block count) :
    block ≤ c.1 := by
  obtain ⟨i, -, rfl⟩ := List.mem_map.mp member
  exact Nat.le_add_right _ _

theorem ForChunks.cons {buf block count : Nat} {phase : DataPhase} {phases : List DataPhase}
    (some_ : 0 < count)
    (first : phase.request = (read10 block (min count usbmsdMaxReadWriteSectors), buf,
      min count usbmsdMaxReadWriteSectors * sectorSize))
    (rest : ForChunks (buf + min count usbmsdMaxReadWriteSectors * sectorSize)
      (block + min count usbmsdMaxReadWriteSectors) (count - min count usbmsdMaxReadWriteSectors)
      phases) : ForChunks buf block count (phase :: phases) := by
  rw [ForChunks, chunks_cons (by decide) block some_, List.map_cons, List.map_cons, rest]
  refine congrArg₂ List.cons ?_ (List.map_congr_left fun c member => ?_)
  · rw [first, chunkRequest, Nat.sub_self, Nat.zero_mul, Nat.add_zero]
  · have lower := chunk_le member
    have place : (c.1 - block) * sectorSize = min count usbmsdMaxReadWriteSectors * sectorSize +
        (c.1 - (block + min count usbmsdMaxReadWriteSectors)) * sectorSize := by
      rw [← Nat.add_mul]
      congr 1
      omega
    rw [chunkRequest, chunkRequest, place, Nat.add_assoc]

def LoopDone (buf block count : Nat) (before after : View) : Prop :=
  ∃ phases, after.phases = before.phases ++ phases ∧ ForChunks buf block count phases ∧
    ((∀ phase ∈ phases, phase.Full) →
      after.mem = before.mem.store buf (phases.flatMap DataPhase.bytes) ∧
        (phases.flatMap DataPhase.bytes).length = count * sectorSize)

theorem LoopDone.zero (buf block : Nat) (v : View) : LoopDone buf block 0 v v := by
  refine ⟨[], (List.append_nil _).symm, rfl, fun _ => ⟨?_, by simp⟩⟩
  funext a
  exact (store_outside _ _ _ _ (Nat.lt_or_ge a buf)).symm

theorem LoopDone.cons {buf block count : Nat} {before mid after : View} (some_ : 0 < count)
    (first : Moved buf (min count usbmsdMaxReadWriteSectors * sectorSize)
      { before with cmd := read10 block (min count usbmsdMaxReadWriteSectors) } mid)
    (rest : LoopDone (buf + min count usbmsdMaxReadWriteSectors * sectorSize)
      (block + min count usbmsdMaxReadWriteSectors) (count - min count usbmsdMaxReadWriteSectors)
      mid after) : LoopDone buf block count before after := by
  obtain ⟨phase, asked, rfl⟩ := first
  obtain ⟨phases, logged, forChunks, data⟩ := rest
  refine ⟨phase :: phases, ?_, forChunks.cons some_ asked, fun full => ?_⟩
  · rw [logged, List.append_assoc]
    rfl
  · obtain ⟨stored, length⟩ := data fun later member => full later (.tail _ member)
    have size : phase.bytes.length = min count usbmsdMaxReadWriteSectors * sectorSize :=
      (full phase (.head _)).2.trans (congrArg (·.2.2) asked)
    rw [List.flatMap_cons, List.length_append, length, size, ← Nat.add_mul]
    refine ⟨?_, by congr 1; omega⟩
    rw [stored, ← size]
    exact store_append _ _ _ _

theorem readLoop_triple (rounds : Nat) :
    ∀ (v : View) buf block count, buf ≠ 0 → block + count < 2 ^ 32 → v.isWrite = false →
      Triple (fun s => view s = v) (readLoop host rounds buf block count)
        (fun _ s => LoopDone buf block count v (view s)) fun _ => True := by
  induction rounds with
  | zero =>
    intro v buf block count buffer range reading
    rw [readLoop]
    refine Triple.ite (fun zero => Triple.pure fun s same => ?_) fun _ => Triple.stuck
    rw [same, zero]
    exact .zero _ _ _
  | succ rounds ih =>
    intro v buf block count buffer range reading
    rw [readLoop]
    refine Triple.ite (fun zero => Triple.pure fun s same => ?_) fun some_ => ?_
    · rw [same, zero]
      exact .zero _ _ _
    · have most : min count usbmsdMaxReadWriteSectors ≤ usbmsdMaxReadWriteSectors :=
        Nat.min_le_right _ _
      have least : 0 < min count usbmsdMaxReadWriteSectors :=
        Nat.lt_min.mpr ⟨Nat.pos_of_ne_zero some_, by decide⟩
      have within : min count usbmsdMaxReadWriteSectors ≤ count := Nat.min_le_left _ _
      have bytes : min count usbmsdMaxReadWriteSectors * sectorSize % 2 ^ 32 =
          min count usbmsdMaxReadWriteSectors * sectorSize :=
        Nat.mod_eq_of_lt (Nat.lt_of_le_of_lt (Nat.mul_le_mul_right _ most) (by decide))
      have next : (block + min count usbmsdMaxReadWriteSectors) % 2 ^ 32 =
          block + min count usbmsdMaxReadWriteSectors := Nat.mod_eq_of_lt (by omega)
      have commanded : Triple (fun s => view s = v)
          (modify fun s => { s with cmd := read10 block (min count usbmsdMaxReadWriteSectors) } :
            Prog ErrorValue (Msd σ) Unit)
          (fun _ s => view s =
            { v with cmd := read10 block (min count usbmsdMaxReadWriteSectors) }) fun _ => True :=
        Triple.modify fun s same => same ▸ rfl
      dsimp only
      rw [bytes, next]
      refine commanded.bind fun _ => (io_triple
        (v := { v with cmd := read10 block (min count usbmsdMaxReadWriteSectors) }) buffer
        (Nat.mul_pos least (by decide : 0 < sectorSize)).ne' reading).bind fun _ s moved => ?_
      refine (ih (view s) _ _ _ (by omega) (by omega) ?_).mono (fun _ => id)
        (fun _ s' done => done.cons (Nat.pos_of_ne_zero some_) moved) (fun _ _ => trivial) s rfl
      obtain ⟨phase, -, after⟩ := moved
      rw [after]
      exact reading

/-- **A read is right exactly when no data phase failed or was short.** -/
theorem read_block_iff (host : Host σ) (buf block count : Nat) (s s' : Msd σ)
    (small : s.blockCount < 2 ^ 32)
    (ok : tegrablUsbmsdBdevReadBlock host buf block count s = some (.ok (), s')) :
    ∃ phases, s'.phases = s.phases ++ phases ∧
      (ReadAll buf block count phases s s' ↔ ∀ phase ∈ phases, phase.Full) := by
  rw [tegrablUsbmsdBdevReadBlock, read_bind] at ok
  by_cases null : buf = 0
  · rw [if_pos null] at ok
    cases ok
  · rw [if_neg null] at ok
    by_cases beyond : s.blockCount < block + count
    · rw [if_pos beyond] at ok
      cases ok
    · rw [if_neg beyond, modify_bind] at ok
      obtain ⟨phases, logged, forChunks, data⟩ :=
        readLoop_triple count _ buf block count null (by omega) rfl _ rfl _ ok
      refine ⟨phases, logged, fun right => right.full, fun full => ?_⟩
      exact ⟨forChunks, full, (data full).1, (data full).2⟩

end Reads

/-! ### Samples -/

def passingHost (data : Result Unit) (bytes : Nat → List Byte) (le : ∀ n, (bytes n).length ≤ n) :
    Host (BitVec 32) where
  sndData _ tag := ((.ok (), cbwSize), tag)
  rcvData length tag :=
    if length = cswSize then
      ((.ok (), bytes32 0x53425355 ++ bytes32 tag ++ bytes32 0 ++ [0]), tag + 1)
    else ((data, bytes length), tag)
  rcvData_le length tag := by
    by_cases status : length = cswSize
    · rw [if_pos status, status]
      exact Nat.le_refl cswSize
    · rw [if_neg status]
      exact le length
  compCode _ := some 1
  clearEndpointStall _ tag := tag
  bulkReset tag := tag

def freshMsd : Msd (BitVec 32) := ⟨8, false, 0, [], 0, 0, fun _ => 0, 0, []⟩

def afterRead (host : Host (BitVec 32)) : Msd (BitVec 32) :=
  ((tegrablUsbmsdBdevReadBlock host 4096 0 1 freshMsd).map Prod.snd).getD freshMsd

def fullHost : Host (BitVec 32) :=
  passingHost (.ok ()) (fun n => List.replicate n 7) fun _ => (List.length_replicate ..).le

theorem read_block_full :
    freshMsd.blockCount < 2 ^ 32 ∧
      tegrablUsbmsdBdevReadBlock fullHost 4096 0 1 freshMsd = some (.ok (), afterRead fullHost) ∧
      ∃ phases, (afterRead fullHost).phases = freshMsd.phases ++ phases ∧
        (ReadAll 4096 0 1 phases freshMsd (afterRead fullHost) ↔ ∀ phase ∈ phases, phase.Full) :=
  ⟨by decide, rfl, read_block_iff fullHost 4096 0 1 freshMsd (afterRead fullHost) (by decide) rfl⟩

def failingHost : Host (BitVec 32) :=
  passingHost (tegrablError .usbmsd .readFailed 0) (fun _ => []) fun _ => Nat.zero_le _

/-- The data phase fails, the status passes, and the read returns without an error. -/
theorem failed_data_accepted :
    tegrablUsbmsdBdevReadBlock failingHost 4096 0 1 freshMsd = some (.ok (), afterRead failingHost) ∧
      ¬ ReadAll 4096 0 1 (afterRead failingHost).phases freshMsd (afterRead failingHost) := by
  refine ⟨rfl, fun right => ?_⟩
  have length := right.blocks
  exact absurd length (by decide)

end Cboot.UsbMsd
