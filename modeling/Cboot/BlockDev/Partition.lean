/-
**Partitions.**

A handle on a partition has an offset, which `tegrabl_partition_seek` moves and which reads and
writes advance. The partition manager checks the range against the size of the partition, adds the
start of the partition and hands the transfer to the block device.
-/

import Cboot.BlockDev.Transfer

namespace Cboot.BlockDev

open Prog

/-! ### The partition manager -/

structure PartitionInfo where
  startSector : Nat
  numSectors : Nat
  totalSize : Nat
  deriving DecidableEq

structure Partition where
  partitionInfo : Option PartitionInfo
  offset : Nat

inductive SeekOrigin
  | set
  | cur
  | fromEnd
  | other
  deriving DecidableEq, Repr

structure Session (σ : Type) where
  world : World σ
  partition : Partition

def toInt64 (n : Int) : Int := n.bmod (2 ^ 64)

def Partition.seekBase (partition : Partition) (info : PartitionInfo) : SeekOrigin → Option Int
  | .set => some 0
  | .cur => some (toInt64 partition.offset)
  | .fromEnd => some (toInt64 info.totalSize)
  | .other => none

section Manager

variable {σ : Type}

def Session.setOffset (s : Session σ) (offset : Nat) : Session σ :=
  { s with partition := { s.partition with offset := offset } }

def Session.advance (s : Session σ) (numBytes : Nat) : Session σ :=
  s.setOffset ((s.partition.offset + numBytes) % 2 ^ 64)

def onDevice (transfer : Prog ErrorValue (World σ) Unit) : Prog ErrorValue (Session σ) Unit :=
  recover (zoom Session.world (fun w s => { s with world := w }) transfer) fun error =>
    fail (setHighestModule .partitionManager error)

def tegrablPartitionSeek (offset : Int) (origin : SeekOrigin) :
    Prog ErrorValue (Session σ) Unit := do
  let s ← read
  match s.partition.partitionInfo with
  | none => ofResult (tegrablError .partitionManager .notInitialized 5)
  | some info =>
    match s.partition.seekBase info origin with
    | none => ofResult (tegrablError .partitionManager .invalid 6)
    | some base =>
      let newOffset := toInt64 (base + offset)
      if newOffset < 0 then ofResult (tegrablError .partitionManager .underflow 0)
      else if info.totalSize < newOffset.toNat then
        ofResult (tegrablError .partitionManager .overflow 2)
      else modify fun s => s.setOffset newOffset.toNat

variable (dev : Bdev) (drv : Driver σ) (scratch : Scratch)

def checked (buf numBytes invalid notInitialized overflow : Nat)
    (transfer : Nat → Prog ErrorValue (Session σ) Unit) : Prog ErrorValue (Session σ) Unit :=
  if buf = 0 ∨ numBytes = 0 then ofResult (tegrablError .partitionManager .invalid invalid)
  else do
    let s ← read
    match s.partition.partitionInfo with
    | none => ofResult (tegrablError .partitionManager .notInitialized notInitialized)
    | some info =>
      if info.totalSize < (numBytes + s.partition.offset) % 2 ^ 64 then
        ofResult (tegrablError .partitionManager .overflow overflow)
      else transfer ((s.partition.offset + info.startSector * dev.blockSize % 2 ^ 64) % 2 ^ 64)

def tegrablPartitionRead (buf numBytes : Nat) : Prog ErrorValue (Session σ) Unit :=
  checked dev buf numBytes 4 4 1 fun offset => do
    onDevice (readBytes dev drv scratch buf offset numBytes)
    modify fun s => s.advance numBytes

def tegrablPartitionWrite (buf numBytes : Nat) : Prog ErrorValue (Session σ) Unit :=
  checked dev buf numBytes 2 3 0 fun offset =>
    always (onDevice (writeBytes dev drv scratch buf offset numBytes)) fun s =>
      some (s.advance numBytes)

end Manager

/-! ### The blocks that a transfer asks for -/

def CallsIn {σ : Type} (low high : Nat) (w : World σ) : Prop :=
  ∀ call ∈ w.calls, low ≤ call.1 ∧ call.1 + call.2 ≤ high

structure Transfer.Within (t : Transfer) (dev : Bdev) (low high : Nat) : Prop where
  lower : low * dev.blockSize ≤ t.offset
  upper : t.offset + t.len ≤ high * dev.blockSize

section Calls

variable {σ : Type} {dev : Bdev} {drv : Driver σ} {scratch : Scratch} {t : Transfer} {c : Cursor}
  {low high buf block count : Nat}

theorem callback_calls (asked : low ≤ block ∧ block + count ≤ high)
    (f : Nat → Nat → Nat → ByteMem → σ → Result Unit × ByteMem × σ) :
    Keeps (CallsIn low high) (callback f buf block count) := by
  intro w calls x run
  cases run
  have after : ∀ call ∈ w.calls ++ [(block, count)], low ≤ call.1 ∧ call.1 + call.2 ≤ high := by
    intro call member
    obtain old | new := List.mem_append.mp member
    · exact calls call old
    · rw [List.mem_singleton.mp new]
      exact asked
  cases (f buf block count w.mem w.driver).1 with
  | ok _ | error _ => exact after

theorem memcpy_calls (dest src n : Nat) :
    Keeps (CallsIn low high) (memcpy dest src n : Prog ErrorValue (World σ) Unit) :=
  Triple.modify fun _ => id

theorem readBlocks_calls (asked : count ≠ 0 → low ≤ block ∧ block + count ≤ high) :
    Triple (CallsIn low high) (readBlocks dev drv buf block count)
      (fun _ w => count ≠ 0 ∧ CallsIn low high w) (CallsIn low high) := by
  refine Triple.guarded (fun _ => id) fun passed => ?_
  have some : count ≠ 0 := of_decide_eq_false (passed (decide (count = 0), .invalid, 8) (by simp))
  exact (callback_calls (asked some) _).weaken (fun _ _ calls => ⟨some, calls⟩)

theorem writeBlocks_calls (asked : count ≠ 0 → low ≤ block ∧ block + count ≤ high) :
    Triple (CallsIn low high) (writeBlocks dev drv buf block count)
      (fun _ w => count ≠ 0 ∧ CallsIn low high w) (CallsIn low high) := by
  refine Triple.guarded (fun _ => id) fun passed => ?_
  have some : count ≠ 0 := by
    have check := passed (decide (count = 0) || decide (buf = 0), .invalid, 12) (by simp)
    exact of_decide_eq_false (Bool.or_eq_false_iff.mp check).1
  exact (callback_calls (asked some) _).weaken (fun _ _ calls => ⟨some, calls⟩)

theorem Transfer.Within.first_block (within : t.Within dev low high) (inside : t.Inside dev) :
    low ≤ (t.start dev).block ∧ (t.start dev).block + 1 ≤ high := by
  have some := inside.some
  have upper := within.upper
  show low ≤ t.offset / dev.blockSize % 2 ^ 32 ∧ t.offset / dev.blockSize % 2 ^ 32 + 1 ≤ high
  rw [inside.first_block]
  refine ⟨(Nat.le_div_iff_mul_le (blockSize_pos dev)).mpr within.lower, ?_⟩
  exact (Nat.div_lt_iff_lt_mul (blockSize_pos dev)).mpr (by omega)

section

variable (at_ : At dev t c) (within : t.Within dev low high)
include at_ within

theorem At.blocks_within (some : 0 < c.len)
    (le : count * dev.blockSize < c.len + dev.blockSize) :
    low ≤ c.block ∧ c.block + count ≤ high := by
  have place := at_.block some
  have len := at_.le
  have lower := within.lower
  have upper := within.upper
  have below : (c.block + count) * dev.blockSize < (high + 1) * dev.blockSize := by
    rw [Nat.add_mul, Nat.add_mul, Nat.one_mul]
    omega
  refine ⟨Nat.le_of_mul_le_mul_right ?_ (blockSize_pos dev), ?_⟩
  · show low * dev.blockSize ≤ c.block * dev.blockSize
    omega
  · exact Nat.le_of_lt_succ (Nat.lt_of_mul_lt_mul_right below)

theorem At.middle_within (inside : t.Inside dev)
    (some : c.len / dev.blockSize % 2 ^ 32 ≠ 0) :
    (low ≤ c.block ∧ c.block + c.len / dev.blockSize % 2 ^ 32 ≤ high) ∧
      At dev t (c.advance (c.len / dev.blockSize * dev.blockSize % 2 ^ 64)
        (c.len / dev.blockSize)) := by
  have big : dev.blockSize ≤ c.len := by
    by_contra small
    exact some (by rw [Nat.div_eq_of_lt (Nat.lt_of_not_le small), Nat.zero_mod])
  obtain ⟨bytes, blocks, after, -⟩ := at_.middle inside big
  have whole := Nat.div_mul_le_self c.len dev.blockSize
  have positive := blockSize_pos dev
  rw [bytes, blocks]
  exact ⟨at_.blocks_within within (by omega) (by omega), after⟩

theorem At.last_within (more : 0 < c.len) :
    low ≤ c.block ∧ c.block + 1 ≤ high := at_.blocks_within within more (by omega)

end

theorem readHead_calls (inside : t.Inside dev) (within : t.Within dev low high) :
    Triple (CallsIn low high) (readHead dev drv scratch t.offset (t.start dev))
      (fun c w => At dev t c ∧ CallsIn low high w) (CallsIn low high) := by
  unfold readHead
  refine Triple.ite (fun _ => ?_) fun aligned => ?_
  · refine Triple.bind (readBlocks_calls fun _ => within.first_block inside) fun _ => ?_
    refine Triple.fact fun _ => Triple.bind (memcpy_calls _ _ _) fun _ => ?_
    exact Triple.pure fun w calls => ⟨at_head inside, calls⟩
  · exact Triple.pure fun w calls => ⟨at_start inside (not_not.mp aligned), calls⟩

theorem readMiddle_calls (inside : t.Inside dev) (within : t.Within dev low high)
    (at_ : At dev t c) :
    Triple (CallsIn low high) (readMiddle dev drv scratch c)
      (fun c w => At dev t c ∧ CallsIn low high w) (CallsIn low high) := by
  unfold readMiddle
  have reached := at_.middle_within within inside
  refine Triple.ite (fun _ => ?_) fun _ => Triple.pure fun w calls => ⟨at_, calls⟩
  refine Triple.ite (fun _ => Keeps.fail) fun _ => ?_
  refine Triple.ite (fun _ => ?_) fun _ => ?_
  · refine Triple.ite (fun _ => Keeps.fail) fun _ => ?_
    refine Triple.bind (readBlocks_calls fun some => (reached some).1) fun _ => ?_
    refine Triple.fact fun some => Triple.bind (memcpy_calls _ _ _) fun _ => ?_
    exact Triple.pure fun w calls => ⟨(reached some).2, calls⟩
  · refine Triple.bind (readBlocks_calls fun some => (reached some).1) fun _ => ?_
    exact Triple.fact fun some => Triple.pure fun w calls => ⟨(reached some).2, calls⟩

theorem readTail_calls (within : t.Within dev low high) (at_ : At dev t c) :
    Keeps (CallsIn low high) (readTail dev drv scratch c) := by
  unfold readTail
  refine Triple.ite (fun more => ?_) fun _ => Triple.pure fun w calls => calls
  refine Triple.bind (readBlocks_calls fun _ => at_.last_within within more) fun _ => ?_
  exact Triple.fact fun _ => memcpy_calls _ _ _

theorem writeHead_calls (inside : t.Inside dev) (within : t.Within dev low high) :
    Triple (CallsIn low high) (writeHead dev drv scratch t.offset (t.start dev))
      (fun c w => At dev t c ∧ CallsIn low high w) (CallsIn low high) := by
  unfold writeHead
  refine Triple.ite (fun _ => ?_) fun aligned => ?_
  · have asked := fun _ : 1 ≠ 0 => within.first_block inside
    refine Triple.bind (readBlocks_calls asked) fun _ => ?_
    refine Triple.fact fun _ => Triple.bind (memcpy_calls _ _ _) fun _ => ?_
    refine Triple.bind (Triple.recover (writeBlocks_calls asked) fun _ => ?_) fun _ => ?_
    · exact Triple.pure fun w calls => ⟨Nat.one_ne_zero, calls⟩
    · exact Triple.fact fun _ => Triple.pure fun w calls => ⟨at_head inside, calls⟩
  · exact Triple.pure fun w calls => ⟨at_start inside (not_not.mp aligned), calls⟩

theorem writeMiddle_calls (inside : t.Inside dev) (within : t.Within dev low high)
    (at_ : At dev t c) :
    Triple (CallsIn low high) (writeMiddle dev drv scratch c)
      (fun c w => At dev t c ∧ CallsIn low high w) (CallsIn low high) := by
  unfold writeMiddle
  have reached := at_.middle_within within inside
  refine Triple.ite (fun _ => ?_) fun _ => Triple.pure fun w calls => ⟨at_, calls⟩
  refine Triple.ite (fun _ => Keeps.fail) fun _ => ?_
  refine Triple.ite (fun _ => ?_) fun _ => ?_
  · refine Triple.ite (fun _ => Keeps.fail) fun _ => ?_
    refine Triple.bind (memcpy_calls _ _ _) fun _ => ?_
    refine Triple.bind (writeBlocks_calls fun some => (reached some).1) fun _ => ?_
    exact Triple.fact fun some => Triple.pure fun w calls => ⟨(reached some).2, calls⟩
  · refine Triple.bind (writeBlocks_calls fun some => (reached some).1) fun _ => ?_
    exact Triple.fact fun some => Triple.pure fun w calls => ⟨(reached some).2, calls⟩

theorem writeTail_calls (within : t.Within dev low high) (at_ : At dev t c) :
    Keeps (CallsIn low high) (writeTail dev drv scratch c) := by
  unfold writeTail
  refine Triple.ite (fun more => ?_) fun _ => Triple.pure fun w calls => calls
  have asked := fun _ : 1 ≠ 0 => at_.last_within within more
  refine Triple.bind (readBlocks_calls asked) fun _ => ?_
  refine Triple.fact fun _ => Triple.bind (memcpy_calls _ _ _) fun _ => ?_
  exact (writeBlocks_calls asked).weaken (fun _ _ reached => reached.2)

variable (fits : dev.blockCount * dev.blockSize < 2 ^ 64) (blocks : dev.blockCount < 2 ^ 32)
  (le : high ≤ dev.blockCount) (within : t.Within dev low high)
include fits blocks le within

theorem readBytes_calls :
    Keeps (CallsIn low high) (readBytes dev drv scratch t.buffer t.offset t.len) := by
  refine Triple.guarded (fun _ => id) fun passed => ?_
  have some := passed (decide (t.len = 0), .invalid, 6) (by simp)
  have inside : t.Inside dev := ⟨fits, blocks, Nat.pos_of_ne_zero (of_decide_eq_false some),
    Nat.le_trans within.upper (Nat.mul_le_mul_right _ le)⟩
  refine Triple.ite (fun _ => Keeps.fail) fun _ => ?_
  refine Triple.ite (fun _ => Keeps.fail) fun _ => ?_
  refine Triple.bind (readHead_calls inside within) fun c => Triple.fact fun at_ => ?_
  refine Triple.bind (readMiddle_calls inside within at_) fun c => Triple.fact fun at_ => ?_
  exact readTail_calls within at_

theorem writeBytes_calls :
    Keeps (CallsIn low high) (writeBytes dev drv scratch t.buffer t.offset t.len) := by
  refine Triple.guarded (fun _ => id) fun passed => ?_
  have some := passed (decide (t.len = 0), .invalid, 10) (by simp)
  have inside : t.Inside dev := ⟨fits, blocks, Nat.pos_of_ne_zero (of_decide_eq_false some),
    Nat.le_trans within.upper (Nat.mul_le_mul_right _ le)⟩
  refine Triple.ite (fun _ => Keeps.fail) fun _ => ?_
  refine Triple.ite (fun _ => Keeps.fail) fun _ => ?_
  refine Triple.bind (writeHead_calls inside within) fun c => Triple.fact fun at_ => ?_
  refine Triple.bind (writeMiddle_calls inside within at_) fun c => Triple.fact fun at_ => ?_
  exact writeTail_calls within at_

end Calls

/-! ### Operations on a handle -/

inductive Op
  | seek (offset : Int) (origin : SeekOrigin)
  | read (scratch : Scratch) (buf numBytes : Nat)
  | write (scratch : Scratch) (buf numBytes : Nat)

def Op.numBytes : Op → Nat
  | .seek _ _ => 0
  | .read _ _ numBytes => numBytes
  | .write _ _ numBytes => numBytes

section Ops

variable {σ : Type} (dev : Bdev) (drv : Driver σ)

def Op.run : Op → Prog ErrorValue (Session σ) Unit
  | .seek offset origin => tegrablPartitionSeek offset origin
  | .read scratch buf numBytes => tegrablPartitionRead dev drv scratch buf numBytes
  | .write scratch buf numBytes => tegrablPartitionWrite dev drv scratch buf numBytes

def runOps : List Op → Prog ErrorValue (Session σ) Unit
  | [] => return ()
  | op :: ops => do
    recover (op.run dev drv) fun _ => pure ()
    runOps ops

end Ops

structure PartitionInfo.Inside (info : PartitionInfo) (dev : Bdev) : Prop where
  blocks : dev.blockCount < 2 ^ 32
  fits : dev.blockCount * dev.blockSize < 2 ^ 64
  extent : info.startSector + info.numSectors ≤ dev.blockCount
  size : info.totalSize = info.numSectors * dev.blockSize
  bound : info.totalSize < 2 ^ 63

structure Confined {σ : Type} (info : PartitionInfo) (s : Session σ) : Prop where
  open_ : s.partition.partitionInfo = some info
  offset : s.partition.offset ≤ info.totalSize
  calls : CallsIn info.startSector (info.startSector + info.numSectors) s.world

section Confinement

variable {σ : Type} {dev : Bdev} {drv : Driver σ} {scratch : Scratch} {info : PartitionInfo}
  {s : Session σ} {buf numBytes : Nat}

theorem Confined.setOffset (confined : Confined info s) {offset : Nat}
    (le : offset ≤ info.totalSize) : Confined info (s.setOffset offset) :=
  ⟨confined.open_, le, confined.calls⟩

structure Roomy (info : PartitionInfo) (numBytes : Nat) (s : Session σ) : Prop where
  confined : Confined info s
  room : s.partition.offset + numBytes ≤ info.totalSize

theorem Roomy.advance (roomy : Roomy info numBytes s) (small : info.totalSize < 2 ^ 63) :
    Confined info (s.advance numBytes) := by
  have room := roomy.room
  refine roomy.confined.setOffset ?_
  rw [Nat.mod_eq_of_lt (by omega)]
  exact room

theorem onDevice_roomy {transfer : Prog ErrorValue (World σ) Unit}
    (keeps : Keeps (CallsIn info.startSector (info.startSector + info.numSectors)) transfer) :
    Keeps (Roomy info numBytes) (onDevice transfer) := by
  refine Triple.recover (Triple.zoom keeps (fun s roomy => roomy.confined.calls) ?_ ?_)
    fun _ => Keeps.fail
  · exact fun s _ w roomy calls => ⟨⟨roomy.confined.open_, roomy.confined.offset, calls⟩, roomy.room⟩
  · exact fun s w roomy calls => ⟨⟨roomy.confined.open_, roomy.confined.offset, calls⟩, roomy.room⟩

section

variable (inside : info.Inside dev) (small : numBytes < 2 ^ 63)
include inside small

theorem checked_confined
    {invalid notInitialized overflow : Nat} {transfer : Nat → Prog ErrorValue (Session σ) Unit}
    (rest : ∀ offset, Transfer.Within ⟨buf, offset, numBytes⟩ dev info.startSector
        (info.startSector + info.numSectors) →
      Triple (Roomy info numBytes) (transfer offset) (fun _ => Confined info) (Confined info)) :
    Keeps (Confined info) (checked dev buf numBytes invalid notInitialized overflow transfer) := by
  unfold checked
  refine Triple.ite (fun _ => Keeps.fail) fun _ => ?_
  refine Triple.readThen fun s confined => ?_
  rw [confined.open_]
  refine Triple.ite (fun _ => Triple.fail fun _ same => same ▸ confined) fun passed => ?_
  have bound := inside.bound
  have offset := confined.offset
  have room : s.partition.offset + numBytes ≤ info.totalSize := by
    rw [Nat.mod_eq_of_lt (by omega)] at passed
    omega
  -- The extent ends inside the device, so the offset on the device does not wrap.
  have end_ : info.startSector * dev.blockSize + info.totalSize ≤
      dev.blockCount * dev.blockSize := by
    rw [inside.size, ← Nat.add_mul]
    exact Nat.mul_le_mul_right _ inside.extent
  have fits := inside.fits
  rw [Nat.mod_eq_of_lt (a := info.startSector * dev.blockSize) (by omega),
    Nat.mod_eq_of_lt (by omega)]
  refine (rest _ ⟨?_, ?_⟩).start ⟨confined, room⟩
  · show _ ≤ s.partition.offset + info.startSector * dev.blockSize
    omega
  · show s.partition.offset + info.startSector * dev.blockSize + numBytes ≤ _
    rw [Nat.add_mul, ← inside.size]
    omega

theorem tegrablPartitionRead_confined :
    Keeps (Confined info) (tegrablPartitionRead dev drv scratch buf numBytes) := by
  refine checked_confined inside small fun offset within => ?_
  have keeps : Keeps (CallsIn info.startSector (info.startSector + info.numSectors))
      (readBytes dev drv scratch buf offset numBytes) :=
    readBytes_calls inside.fits inside.blocks inside.extent within
  refine Triple.bind ((onDevice_roomy keeps).mono (fun _ => id) (fun _ _ => id)
    fun _ roomy => roomy.confined) fun _ => ?_
  exact Triple.modify fun s roomy => roomy.advance inside.bound

theorem tegrablPartitionWrite_confined :
    Keeps (Confined info) (tegrablPartitionWrite dev drv scratch buf numBytes) := by
  refine checked_confined inside small fun offset within => ?_
  have keeps : Keeps (CallsIn info.startSector (info.startSector + info.numSectors))
      (writeBytes dev drv scratch buf offset numBytes) :=
    writeBytes_calls inside.fits inside.blocks inside.extent within
  refine Triple.always (onDevice_roomy keeps) ?_ ?_
  · intro _ s s' roomy advanced
    rw [← Option.some.inj advanced]
    exact roomy.advance inside.bound
  · intro s s' roomy advanced
    rw [← Option.some.inj advanced]
    exact roomy.advance inside.bound

end

theorem tegrablPartitionSeek_confined (offset : Int) (origin : SeekOrigin) :
    Keeps (Confined info) (tegrablPartitionSeek offset origin : Prog ErrorValue (Session σ) Unit) := by
  unfold tegrablPartitionSeek
  refine Triple.readThen fun s confined => ?_
  rw [confined.open_]
  have unchanged : ∀ s', s' = s → Confined info s' := fun s' same => same ▸ confined
  dsimp only
  cases s.partition.seekBase info origin with
  | none => exact Triple.fail unchanged
  | some base =>
    refine Triple.ite (fun _ => Triple.fail unchanged) fun _ => ?_
    refine Triple.ite (fun _ => Triple.fail unchanged) fun within => ?_
    exact Triple.modify fun s' same => (unchanged s' same).setOffset (Nat.le_of_not_lt within)

theorem Op.keeps (inside : info.Inside dev) (op : Op) (small : op.numBytes < 2 ^ 63) :
    Keeps (Confined info) (op.run dev drv) := by
  cases op with
  | seek offset origin => exact tegrablPartitionSeek_confined offset origin
  | read scratch buf numBytes => exact tegrablPartitionRead_confined inside small
  | write scratch buf numBytes => exact tegrablPartitionWrite_confined inside small

theorem runOps_keeps (inside : info.Inside dev) :
    ∀ ops : List Op, (∀ op ∈ ops, op.numBytes < 2 ^ 63) → Keeps (Confined info) (runOps dev drv ops)
  | [], _ => Keeps.pure
  | op :: ops, small => by
    have first : Keeps (Confined info) (op.run dev drv) :=
      op.keeps inside (small op (.head _))
    refine Triple.bind (Triple.recover first fun _ => Keeps.pure)
      fun _ => ?_
    exact runOps_keeps inside ops fun op member => small op (.tail _ member)

/-- **Every sequence of calls** on an opened partition keeps the offset inside the partition and asks
the driver for no block outside it. -/
theorem partition_confined (inside : info.Inside dev) (ops : List Op)
    (small : ∀ op ∈ ops, op.numBytes < 2 ^ 63) {s s' : Session σ} {result : Result Unit}
    (opened : s.partition = ⟨some info, 0⟩) (unused : s.world.calls = [])
    (run : runOps dev drv ops s = some (result, s')) :
    s'.partition.offset ≤ info.totalSize ∧ ∀ call ∈ s'.world.calls,
      info.startSector ≤ call.1 ∧ call.1 + call.2 ≤ info.startSector + info.numSectors := by
  have start : Confined info s := by
    refine ⟨by rw [opened], by rw [opened]; exact Nat.zero_le _, fun call member => ?_⟩
    rw [unused] at member
    cases member
  have reached := runOps_keeps inside ops small s start _ run
  cases result with
  | ok _ | error _ => exact ⟨reached.offset, reached.calls⟩

end Confinement

def tinyInfo : PartitionInfo := ⟨1, 2, 8⟩

def tinyOps : List Op :=
  [.seek 3 .set, .write tinyScratch 0x1001 4, .seek (-4) .cur, .read tinyScratch 0x1001 5,
    .seek 1 .fromEnd]

theorem partition_confined_tiny :
    ∃ s', runOps tinyDev (faultyDisk tinyDev) tinyOps ⟨tinyWorld [false, true, true],
        ⟨some tinyInfo, 0⟩⟩ = some (.ok (), s') ∧
      s'.partition.offset ≤ 8 ∧ ∀ call ∈ s'.world.calls, 1 ≤ call.1 ∧ call.1 + call.2 ≤ 1 + 2 := by
  obtain ⟨s', run⟩ : ∃ s', runOps tinyDev (faultyDisk tinyDev) tinyOps
      ⟨tinyWorld [false, true, true], ⟨some tinyInfo, 0⟩⟩ = some (.ok (), s') := ⟨_, rfl⟩
  have inside : tinyInfo.Inside tinyDev := ⟨by decide, by decide, by decide, by decide, by decide⟩
  exact ⟨s', run, partition_confined inside tinyOps (by decide) rfl rfl run⟩

end Cboot.BlockDev
