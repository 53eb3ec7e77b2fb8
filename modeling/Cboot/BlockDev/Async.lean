/-
**Asynchronous transfers of a partition.**

`tegrabl_partition_async_read` and `tegrabl_partition_async_write` make the description of a transfer
and hand it to the block device. The driver reads or writes as the type of the transfer says; a
transfer is seen here when it is complete.
-/

import Cboot.BlockDev.Partition

namespace Cboot.BlockDev

open Prog

/-! ### Transfers -/

def blockdevWrite : Nat := 1

def blockdevRead : Nat := 2

structure XferInfo where
  xferType : Nat
  buf : Nat
  startBlock : Nat
  blockCount : Nat
  isNonBlocking : Bool

def XferDriver (σ : Type) : Type := XferInfo → ByteMem → σ → Result Unit × ByteMem × σ

structure AsyncSession (σ : Type) where
  session : Session σ
  xfer : Option XferInfo

def AsyncSession.setWorld {σ : Type} (w : World σ) (s : AsyncSession σ) : AsyncSession σ :=
  ⟨⟨w, s.session.partition⟩, s.xfer⟩

section Model

variable {σ : Type} (dev : Bdev) (drv : XferDriver σ)

def xferCallback (request : XferInfo) : Prog ErrorValue (World σ) Unit := fun w =>
  let out := drv request w.mem w.driver
  some (out.1, ⟨out.2.1, out.2.2, w.calls ++ [(request.startBlock, request.blockCount)]⟩)

def xferRequest (info : PartitionInfo) (xferType buf startSector numSectors : Nat) : XferInfo :=
  ⟨xferType, buf, (info.startSector + startSector) % 2 ^ 64 % 2 ^ 32, numSectors % 2 ^ 32, true⟩

def asyncTransfer (firstError xferType : Nat) (hasRoom : Bool) (buf startSector numSectors : Nat) :
    Prog ErrorValue (AsyncSession σ) Unit :=
  if buf = 0 ∨ numSectors = 0 then ofResult (tegrablError .partitionManager .invalid firstError)
  else do
    let s ← read
    match s.session.partition.partitionInfo with
    | none => ofResult (tegrablError .partitionManager .invalid (firstError + 1))
    | some info =>
      if info.numSectors < (startSector + numSectors) % 2 ^ 64 then
        ofResult (tegrablError .partitionManager .invalid (firstError + 2))
      else if hasRoom = false then
        ofResult (tegrablError .partitionManager .invalid (firstError + 3))
      else
        let request := xferRequest info xferType buf startSector numSectors
        always (zoom (fun s => s.session.world) AsyncSession.setWorld
            (tegrablBlockdevXfer dev (fun _ _ => xferCallback drv request) request.startBlock
              request.blockCount))
          fun s => some { s with xfer := some request }

def tegrablPartitionAsyncRead (hasRoom : Bool) (buf startSector numSectors : Nat) :
    Prog ErrorValue (AsyncSession σ) Unit :=
  asyncTransfer dev drv 7 blockdevRead hasRoom buf startSector numSectors

def tegrablPartitionAsyncWrite (hasRoom : Bool) (buf startSector numSectors : Nat) :
    Prog ErrorValue (AsyncSession σ) Unit :=
  asyncTransfer dev drv 11 blockdevRead hasRoom buf startSector numSectors

end Model

structure Honours {σ : Type} (dev : Bdev) (content : σ → ByteMem) (drv : XferDriver σ) : Prop where
  read : ∀ request mem s mem' s', request.xferType = blockdevRead →
    drv request mem s = (.ok (), mem', s') →
    content s' = content s ∧ mem' = mem.copyFrom (content s) request.buf
      (request.startBlock * dev.blockSize) (request.blockCount * dev.blockSize)
  write : ∀ request mem s mem' s', request.xferType = blockdevWrite →
    drv request mem s = (.ok (), mem', s') →
    mem' = mem ∧ content s' = (content s).copyFrom mem (request.startBlock * dev.blockSize)
      request.buf (request.blockCount * dev.blockSize)

/-! ### A transfer of the type of a read -/

section Transfers

variable {σ : Type} {dev : Bdev} {drv : XferDriver σ} {content : σ → ByteMem} {info : PartitionInfo}
  {buf startSector numSectors : Nat}

theorem xferRequest_blocks (inside : info.Inside dev)
    (range : startSector + numSectors ≤ info.numSectors) (xferType : Nat) :
    xferRequest info xferType buf startSector numSectors =
      ⟨xferType, buf, info.startSector + startSector, numSectors, true⟩ := by
  have blocks := inside.blocks
  have extent := inside.extent
  unfold xferRequest
  rw [Nat.mod_eq_of_lt (a := info.startSector + startSector) (by omega),
    Nat.mod_eq_of_lt (a := info.startSector + startSector) (by omega),
    Nat.mod_eq_of_lt (by omega)]

structure ReadInto (dev : Bdev) (content : σ → ByteMem) (buf block count : Nat)
    (s s' : Session σ) : Prop where
  mem : s'.world.mem = s.world.mem.copyFrom (content s.world.driver) buf (block * dev.blockSize)
    (count * dev.blockSize)
  driver : content s'.world.driver = content s.world.driver
  partition : s'.partition = s.partition

theorem blockdevXfer_read (honours : Honours dev content drv) (w : World σ) {block count : Nat} :
    Triple (· = w) (tegrablBlockdevXfer dev
        (fun _ _ => xferCallback drv ⟨blockdevRead, buf, block, count, true⟩) block count)
      (fun _ w' => w'.mem = w.mem.copyFrom (content w.driver) buf (block * dev.blockSize)
          (count * dev.blockSize) ∧ content w'.driver = content w.driver)
      fun _ => True := by
  refine Triple.guarded (fun _ _ => trivial) fun _ => ?_
  intro before same x run
  rw [same] at run
  cases run
  cases called : drv ⟨blockdevRead, buf, block, count, true⟩ w.mem w.driver with
  | mk result after =>
    obtain ⟨mem', s'⟩ := after
    cases result with
    | error e => trivial
    | ok done =>
      obtain ⟨kept, copied⟩ := honours.read _ w.mem w.driver mem' s' rfl called
      exact ⟨copied, kept⟩

theorem asyncTransfer_read (honours : Honours dev content drv) (inside : info.Inside dev)
    (range : startSector + numSectors ≤ info.numSectors) {firstError : Nat} {hasRoom : Bool}
    {a a' : AsyncSession σ} (opened : a.session.partition.partitionInfo = some info)
    (run : asyncTransfer dev drv firstError blockdevRead hasRoom buf startSector numSectors a =
      some (.ok (), a')) :
    ReadInto dev content buf (info.startSector + startSector) numSectors a.session a'.session := by
  have triple : Triple (· = a)
      (asyncTransfer dev drv firstError blockdevRead hasRoom buf startSector numSectors)
      (fun _ a' => ReadInto dev content buf (info.startSector + startSector) numSectors
        a.session a'.session) fun _ => True := by
    unfold asyncTransfer
    refine Triple.ite (fun _ => Triple.fail fun _ _ => trivial) fun _ => ?_
    refine Triple.readThen fun s start => ?_
    rw [start, opened]
    refine Triple.ite (fun _ => Triple.fail fun _ _ => trivial) fun _ => ?_
    refine Triple.ite (fun _ => Triple.fail fun _ _ => trivial) fun _ => ?_
    rw [xferRequest_blocks inside range]
    have zoomed : Triple (· = a) (zoom (fun s => s.session.world) AsyncSession.setWorld
        (tegrablBlockdevXfer dev (fun _ _ => xferCallback drv
          ⟨blockdevRead, buf, info.startSector + startSector, numSectors, true⟩)
          (info.startSector + startSector) numSectors))
        (fun _ a' => ReadInto dev content buf (info.startSector + startSector) numSectors
          a.session a'.session) fun _ => True := by
      refine Triple.zoom (blockdevXfer_read honours a.session.world) ?_ ?_ ?_
      · exact fun _ same => same ▸ rfl
      · intro s _ w' same ⟨mem, driver⟩
        exact ⟨mem, driver, congrArg (fun s => s.session.partition) same⟩
      · exact fun _ _ _ _ => trivial
    refine Triple.always zoomed ?_ fun _ _ _ _ => trivial
    intro _ done done' into cleaned
    obtain rfl := Option.some.inj cleaned
    exact into
  exact triple a rfl _ run

end Transfers

/-! ### Reading back -/

section ReadBack

variable {σ : Type} {dev : Bdev} {drv : Driver σ} {scratch : Scratch} {content : σ → ByteMem}
  {info : PartitionInfo} {buf startSector numSectors : Nat} {s s' : Session σ}

theorem seek_set (opened : s.partition.partitionInfo = some info) {offset : Nat}
    (bound : info.totalSize < 2 ^ 63) (inside : offset ≤ info.totalSize) :
    tegrablPartitionSeek offset .set s = some (.ok (), s.setOffset offset) := by
  have small : toInt64 (0 + (offset : Int)) = offset := by
    unfold toInt64
    rw [Int.zero_add]
    refine Int.bmod_eq_of_le ?_ ?_ <;> omega
  unfold tegrablPartitionSeek
  rw [read_bind, opened]
  dsimp only [Partition.seekBase]
  rw [small, if_neg (by omega), if_neg (by omega)]
  rfl

theorem onDevice_filled (log2 : dev.blockSizeLog2 < 32) (blocks : dev.blockCount < 2 ^ 32)
    (reads : Reads dev content drv) {offset len : Nat} (noWrap : offset + len < 2 ^ 64)
    (apart : scratch.Apart dev ⟨buf, offset, len⟩) (s : Session σ) :
    Triple (· = s) (onDevice (readBytes dev drv scratch buf offset len))
      (fun _ s' => ∀ i < len, s'.world.mem (buf + i) = content s.world.driver (offset + i))
      fun _ => True := by
  have zoomed : Triple (· = s) (zoom Session.world (fun w s => { s with world := w })
      (readBytes dev drv scratch buf offset len))
      (fun _ s' => ∀ i < len, s'.world.mem (buf + i) = content s.world.driver (offset + i))
      fun _ => True := by
    have filled : Triple (· = s.world) (readBytes dev drv scratch buf offset len)
        (fun _ w' => ∀ i < len, w'.mem (buf + i) = content s.world.driver (offset + i))
        fun _ => True := by
      rintro _ rfl ⟨result, w'⟩ ran
      cases result with
      | error e => trivial
      | ok done => exact (read_exact log2 blocks reads noWrap apart ran).1
    refine Triple.zoom filled ?_ ?_ ?_
    · exact fun _ same => same ▸ rfl
    · exact fun _ _ _ _ => id
    · exact fun _ _ _ _ => trivial
  exact Triple.recover zoomed fun _ => Triple.fail fun _ _ => trivial

section

variable (log2 : dev.blockSizeLog2 < 32) (reads : Reads dev content drv) (inside : info.Inside dev)
  (opened : s.partition.partitionInfo = some info)
include log2 reads inside opened

theorem partitionRead_exact
    {numBytes : Nat} (range : s.partition.offset + numBytes ≤ info.totalSize)
    (apart : scratch.Apart dev
      ⟨buf, s.partition.offset + info.startSector * dev.blockSize, numBytes⟩)
    (run : tegrablPartitionRead dev drv scratch buf numBytes s = some (.ok (), s')) :
    ∀ i < numBytes, s'.world.mem (buf + i) =
      content s.world.driver (s.partition.offset + info.startSector * dev.blockSize + i) := by
  have fits := inside.fits
  have end_ : info.startSector * dev.blockSize + info.totalSize ≤
      dev.blockCount * dev.blockSize := by
    rw [inside.size, ← Nat.add_mul]
    exact Nat.mul_le_mul_right _ inside.extent
  have noWrap : s.partition.offset + info.startSector * dev.blockSize + numBytes < 2 ^ 64 := by
    omega
  have triple : Triple (· = s) (tegrablPartitionRead dev drv scratch buf numBytes)
      (fun _ s' => ∀ i < numBytes, s'.world.mem (buf + i) =
        content s.world.driver (s.partition.offset + info.startSector * dev.blockSize + i))
      fun _ => True := by
    unfold tegrablPartitionRead checked
    refine Triple.ite (fun _ => Triple.fail fun _ _ => trivial) fun _ => ?_
    refine Triple.readThen fun before start => ?_
    rw [start, opened]
    refine Triple.ite (fun _ => Triple.fail fun _ _ => trivial) fun _ => ?_
    rw [Nat.mod_eq_of_lt (a := info.startSector * dev.blockSize) (by omega),
      Nat.mod_eq_of_lt (by omega)]
    refine Triple.bind (onDevice_filled log2 inside.blocks reads noWrap apart s) fun _ => ?_
    exact Triple.modify fun _ => id
  exact triple s rfl _ run

theorem readBack_exact
    (range : startSector + numSectors ≤ info.numSectors)
    (apart : scratch.Apart dev
      ⟨buf, (info.startSector + startSector) * dev.blockSize, numSectors * dev.blockSize⟩)
    (run : (do
      tegrablPartitionSeek (startSector * dev.blockSize : Nat) .set
      tegrablPartitionRead dev drv scratch buf (numSectors * dev.blockSize)) s = some (.ok (), s')) :
    ∀ i < numSectors * dev.blockSize, s'.world.mem (buf + i) =
      content s.world.driver ((info.startSector + startSector) * dev.blockSize + i) := by
  have end_ : startSector * dev.blockSize + numSectors * dev.blockSize ≤ info.totalSize := by
    rw [inside.size, ← Nat.add_mul]
    exact Nat.mul_le_mul_right _ range
  have place : startSector * dev.blockSize + info.startSector * dev.blockSize =
      (info.startSector + startSector) * dev.blockSize := by
    rw [Nat.add_mul, Nat.add_comm]
  rw [bind_ok (seek_set opened inside.bound (by omega))] at run
  have bytes := partitionRead_exact (s := s.setOffset (startSector * dev.blockSize)) log2 reads inside
    opened end_ (by rw [show (s.setOffset (startSector * dev.blockSize)).partition.offset =
      startSector * dev.blockSize from rfl, place]; exact apart) run
  intro i bound
  rw [bytes i bound, ← place]
  rfl

end

/-- **Writing asynchronously and reading back** returns what was in the buffer, and leaves the buffer
as it was, exactly when the device had these bytes before. -/
theorem async_write_iff (log2 : dev.blockSizeLog2 < 32) {xfer : XferDriver σ}
    (honours : Honours dev content xfer) (reads : Reads dev content drv) (inside : info.Inside dev)
    {a a' : AsyncSession σ} (opened : a.session.partition.partitionInfo = some info)
    (range : startSector + numSectors ≤ info.numSectors) {hasRoom : Bool}
    (written : tegrablPartitionAsyncWrite dev xfer hasRoom buf startSector numSectors a =
      some (.ok (), a')) {target : Nat}
    (apart : scratch.Apart dev
      ⟨target, (info.startSector + startSector) * dev.blockSize, numSectors * dev.blockSize⟩)
    (readBack : (do
      tegrablPartitionSeek (startSector * dev.blockSize : Nat) .set
      tegrablPartitionRead dev drv scratch target (numSectors * dev.blockSize)) a'.session =
        some (.ok (), s')) :
    (∀ i < numSectors * dev.blockSize,
        s'.world.mem (target + i) = a.session.world.mem (buf + i) ∧
        a'.session.world.mem (buf + i) = a.session.world.mem (buf + i)) ↔
      ∀ i < numSectors * dev.blockSize, content a.session.world.driver
        ((info.startSector + startSector) * dev.blockSize + i) = a.session.world.mem (buf + i) := by
  have into := asyncTransfer_read honours inside range opened written
  have back := readBack_exact log2 reads inside
    ((congrArg Partition.partitionInfo into.partition).trans opened) range apart readBack
  have buffer : ∀ i < numSectors * dev.blockSize, a'.session.world.mem (buf + i) =
      content a.session.world.driver ((info.startSector + startSector) * dev.blockSize + i) := by
    intro i bound
    rw [into.mem, ByteMem.copyFrom_inside _ _ (Nat.le_add_right _ _) (by omega),
      Nat.add_sub_cancel_left]
  rw [into.driver] at back
  constructor
  · intro same i bound
    rw [← buffer i bound]
    exact (same i bound).2
  · intro same i bound
    rw [back i bound, buffer i bound]
    exact ⟨same i bound, same i bound⟩

end ReadBack

/-! ### A disk that honours the type -/

def honestXfer (dev : Bdev) : XferDriver Disk := fun request mem s =>
  if request.xferType = blockdevRead then
    (.ok (), mem.copyFrom s.bytes request.buf (request.startBlock * dev.blockSize)
      (request.blockCount * dev.blockSize), s)
  else
    (.ok (), mem, ⟨s.bytes.copyFrom mem (request.startBlock * dev.blockSize) request.buf
      (request.blockCount * dev.blockSize), s.faults⟩)

theorem honestXfer_honours (dev : Bdev) : Honours dev Disk.bytes (honestXfer dev) where
  read request mem s mem' s' isRead called := by
    unfold honestXfer at called
    rw [if_pos isRead] at called
    cases called
    exact ⟨rfl, rfl⟩
  write request mem s mem' s' isWrite called := by
    unfold honestXfer at called
    rw [if_neg (by rw [isWrite]; decide)] at called
    cases called
    exact ⟨rfl, rfl⟩

theorem tinyInfo_inside : tinyInfo.Inside tinyDev := by
  constructor <;> decide

def tinyAsync (first : Byte) : AsyncSession Disk :=
  ⟨⟨⟨fun a => if a = 0x1000 then first else 0, ⟨fun _ => 0, []⟩, []⟩, ⟨some tinyInfo, 0⟩⟩, none⟩

/-- The byte is lost: it is neither on the device nor in the buffer. -/
theorem async_write_lost :
    ∃ a', tegrablPartitionAsyncWrite tinyDev (honestXfer tinyDev) true 0x1000 1 1 (tinyAsync 0xAA) =
        some (.ok (), a') ∧
      a'.session.world.driver.bytes 8 = 0 ∧ a'.session.world.mem 0x1000 = 0 :=
  ⟨_, rfl, rfl, rfl⟩

theorem async_write_same :
    ∃ a' s', tegrablPartitionAsyncWrite tinyDev (honestXfer tinyDev) true 0x1000 1 1 (tinyAsync 0) =
        some (.ok (), a') ∧
      (do
        tegrablPartitionSeek (1 * tinyDev.blockSize : Nat) .set
        tegrablPartitionRead tinyDev (faultyDisk tinyDev) tinyScratch 0x1100 (1 * tinyDev.blockSize))
        a'.session = some (.ok (), s') ∧
      ∀ i < 1 * tinyDev.blockSize,
        s'.world.mem (0x1100 + i) = (tinyAsync 0).session.world.mem (0x1000 + i) ∧
        a'.session.world.mem (0x1000 + i) = (tinyAsync 0).session.world.mem (0x1000 + i) := by
  obtain ⟨a', s', written, readBack⟩ : ∃ a' s', tegrablPartitionAsyncWrite tinyDev
      (honestXfer tinyDev) true 0x1000 1 1 (tinyAsync 0) = some (.ok (), a') ∧ (do
        tegrablPartitionSeek (1 * tinyDev.blockSize : Nat) .set
        tegrablPartitionRead tinyDev (faultyDisk tinyDev) tinyScratch 0x1100
          (1 * tinyDev.blockSize)) a'.session = some (.ok (), s') := ⟨_, _, rfl, rfl⟩
  refine ⟨a', s', written, readBack, ?_⟩
  refine (async_write_iff (by decide) (honestXfer_honours tinyDev) (faultyDisk_reads tinyDev)
    tinyInfo_inside rfl (by decide) written ?_ readBack).mpr ?_
  · intro a lower upper
    simp only [tinyDev, Bdev.blockSize] at lower upper
    simp only [Scratch.Holds, tinyScratch, tinyDev, Bdev.blockSize]
    omega
  · intro i _
    show (0 : Byte) = if 0x1000 + i = 0x1000 then 0 else 0
    rw [ite_self]

end Cboot.BlockDev
