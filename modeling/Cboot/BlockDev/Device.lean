/-
**Block devices.**

A block device is read and written by bytes through `tegrabl_blockdev_read` and
`tegrabl_blockdev_write`, and by blocks through the callbacks of its driver. The functions between
the two handle a partial first block, the whole blocks and a partial last block, with buffers of
their own where the caller's buffer does not do.

A driver is any state machine with these callbacks; whether a call succeeds may depend on its whole
past. Numbers of blocks have 32 bits and offsets 64; a sum or a conversion that can wrap is taken
modulo 2^32 or 2^64, as in the source. The addresses that the allocator gives for the buffers are
an input, null included.
-/

import Cboot.Error
import Cboot.Lib.ByteMem
import Cboot.Lib.Program

namespace Cboot.BlockDev

open Prog

/-! ### Devices and their checks -/

structure Bdev where
  ref : Nat
  blockSizeLog2 : Nat
  blockCount : Nat
  bufAlignSize : Nat

def Bdev.blockSize (dev : Bdev) : Nat := 2 ^ dev.blockSizeLog2

def Bdev.size (dev : Bdev) : Nat := dev.blockCount * dev.blockSize % 2 ^ 64

def Bdev.bufferAligned (dev : Bdev) (buf : Nat) : Bool :=
  buf &&& ((dev.bufAlignSize + (2 ^ 32 - 1)) % 2 ^ 32) = 0

def Bdev.blocksBeyond (dev : Bdev) (block count : Nat) : Bool :=
  dev.blockCount < block || dev.blockCount < (block + count) % 2 ^ 32

def Bdev.bytesBeyond (dev : Bdev) (offset len : Nat) : Bool :=
  dev.size ≤ offset || dev.size < (offset + len) % 2 ^ 64

section Checks

variable {dev : Bdev}

theorem not_blocksBeyond {block count : Nat} (passed : dev.blocksBeyond block count = false) :
    block ≤ dev.blockCount ∧ (block + count) % 2 ^ 32 ≤ dev.blockCount := by
  simpa [Bdev.blocksBeyond] using passed

theorem not_bytesBeyond {offset len : Nat} (passed : dev.bytesBeyond offset len = false) :
    offset < dev.size ∧ (offset + len) % 2 ^ 64 ≤ dev.size := by
  simpa [Bdev.bytesBeyond] using passed

end Checks

section Entries

variable {σ : Type}

def guarded (checks : List (Bool × ErrReason × Nat)) (call : Prog ErrorValue σ Unit) :
    Prog ErrorValue σ Unit :=
  match checks.find? Prod.fst with
  | some (_, reason, auxInfo) => ofResult (tegrablError .blockDev reason auxInfo)
  | none => recover call fun error => fail (setHighestModule .blockDev error)

theorem guarded_passed {checks : List (Bool × ErrReason × Nat)} (call : Prog ErrorValue σ Unit)
    (passed : ∀ check ∈ checks, check.1 = false) :
    guarded checks call = recover call fun error => fail (setHighestModule .blockDev error) := by
  have none : checks.find? Prod.fst = none :=
    List.find?_eq_none.mpr fun check member => by rw [passed check member]; exact Bool.false_ne_true
  rw [guarded, none]

theorem guarded_refused {checks : List (Bool × ErrReason × Nat)} (call : Prog ErrorValue σ Unit)
    {check : Bool × ErrReason × Nat} (member : check ∈ checks) (failed : check.1 = true) :
    ∃ e, guarded checks call = fail e := by
  cases found : checks.find? Prod.fst with
  | none => exact absurd failed (List.find?_eq_none.mp found check member)
  | some first =>
    rw [guarded, found]
    exact ⟨_, rfl⟩

variable (dev : Bdev)

def tegrablBlockdevRead (read : Nat → Nat → Nat → Prog ErrorValue σ Unit) (buf offset len : Nat) :
    Prog ErrorValue σ Unit :=
  guarded [(len = 0, .invalid, 6), (dev.ref = 0, .invalid, 7),
    (dev.bytesBeyond offset len, .overflow, 0)] (read buf offset len)

def tegrablBlockdevReadBlock (readBlock : Nat → Nat → Nat → Prog ErrorValue σ Unit)
    (buf block count : Nat) : Prog ErrorValue σ Unit :=
  guarded [(count = 0, .invalid, 8), (!dev.bufferAligned buf, .invalid, 25),
    (dev.ref = 0, .invalid, 9), (dev.blocksBeyond block count, .overflow, 1)]
    (readBlock buf block count)

def tegrablBlockdevWrite (write : Nat → Nat → Nat → Prog ErrorValue σ Unit) (buf offset len : Nat) :
    Prog ErrorValue σ Unit :=
  guarded [(len = 0, .invalid, 10), (dev.ref = 0, .invalid, 11),
    (dev.bytesBeyond offset len, .overflow, 2)] (write buf offset len)

def tegrablBlockdevWriteBlock (writeBlock : Nat → Nat → Nat → Prog ErrorValue σ Unit)
    (buf block count : Nat) : Prog ErrorValue σ Unit :=
  guarded [(decide (count = 0) || decide (buf = 0), .invalid, 12),
    (!dev.bufferAligned buf, .invalid, 26), (dev.blocksBeyond block count, .overflow, 3),
    (dev.ref = 0, .invalid, 13)] (writeBlock buf block count)

def tegrablBlockdevErase (erase : Nat → Nat → Bool → Prog ErrorValue σ Unit) (block count : Nat)
    (isSecure : Bool) : Prog ErrorValue σ Unit :=
  guarded [(count = 0, .invalid, 14), (dev.blocksBeyond block count, .overflow, 4),
    (dev.ref = 0, .invalid, 15)] (erase block count isSecure)

def tegrablBlockdevXfer (xfer : Nat → Nat → Prog ErrorValue σ Unit) (startBlock blockCount : Nat) :
    Prog ErrorValue σ Unit :=
  guarded [(dev.blocksBeyond startBlock blockCount, .overflow, 5), (dev.ref = 0, .invalid, 23)]
    (xfer startBlock blockCount)

end Entries

/-! ### Drivers -/

structure Driver (σ : Type) where
  readBlock : Nat → Nat → Nat → ByteMem → σ → Result Unit × ByteMem × σ
  writeBlock : Nat → Nat → Nat → ByteMem → σ → Result Unit × ByteMem × σ

structure World (σ : Type) where
  mem : ByteMem
  driver : σ
  calls : List (Nat × Nat)

structure Scratch where
  partialBlockBuf : Nat
  tempBuf : Nat

section Default

variable {σ : Type}

def callback (f : Nat → Nat → Nat → ByteMem → σ → Result Unit × ByteMem × σ) (buf block count : Nat) :
    Prog ErrorValue (World σ) Unit := fun w =>
  let out := f buf block count w.mem w.driver
  some (out.1, ⟨out.2.1, out.2.2, w.calls ++ [(block, count)]⟩)

def memcpy (dest src n : Nat) : Prog ErrorValue (World σ) Unit :=
  modify fun w => { w with mem := w.mem.memmove dest src n }

structure Cursor where
  buf : Nat
  len : Nat
  block : Nat

def Cursor.advance (c : Cursor) (bytes blocks : Nat) : Cursor :=
  ⟨c.buf + bytes, c.len - bytes, (c.block + blocks) % 2 ^ 32⟩

variable (dev : Bdev) (drv : Driver σ) (scratch : Scratch)

def readBlocks (buf block count : Nat) : Prog ErrorValue (World σ) Unit :=
  tegrablBlockdevReadBlock dev (callback drv.readBlock) buf block count

def writeBlocks (buf block count : Nat) : Prog ErrorValue (World σ) Unit :=
  tegrablBlockdevWriteBlock dev (callback drv.writeBlock) buf block count

def noPartialBuf (offset len : Nat) : Bool :=
  (decide (offset % dev.blockSize ≠ 0) || decide (len % dev.blockSize ≠ 0)) &&
    decide (scratch.partialBlockBuf = 0)

def headBytes (offset len : Nat) : Nat := min (dev.blockSize - offset % dev.blockSize) len

def readHead (offset : Nat) (c : Cursor) : Prog ErrorValue (World σ) Cursor :=
  if offset % dev.blockSize ≠ 0 then do
    readBlocks dev drv scratch.partialBlockBuf c.block 1
    memcpy c.buf (scratch.partialBlockBuf + offset % dev.blockSize) (headBytes dev offset c.len)
    return c.advance (headBytes dev offset c.len) 1
  else return c

def readMiddle (c : Cursor) : Prog ErrorValue (World σ) Cursor :=
  if 2 ^ dev.blockSizeLog2 % 2 ^ 32 ≤ c.len then do
    let blockCount := c.len / dev.blockSize
    let bytes := blockCount * dev.blockSize % 2 ^ 64
    if c.len < bytes then ofResult (tegrablError .blockDev .invalid 1)
    else if !dev.bufferAligned c.buf then do
      if scratch.tempBuf = 0 then ofResult (tegrablError .blockDev .noMemory 1)
      else do
        readBlocks dev drv scratch.tempBuf c.block (blockCount % 2 ^ 32)
        memcpy c.buf scratch.tempBuf bytes
        return c.advance bytes blockCount
    else do
      readBlocks dev drv c.buf c.block (blockCount % 2 ^ 32)
      return c.advance bytes blockCount
  else return c

def readTail (c : Cursor) : Prog ErrorValue (World σ) Unit :=
  if 0 < c.len then do
    readBlocks dev drv scratch.partialBlockBuf c.block 1
    memcpy c.buf scratch.partialBlockBuf c.len
  else return ()

def tegrablBlockdevDefaultRead (buffer offset len : Nat) : Prog ErrorValue (World σ) Unit :=
  if buffer = 0 then ofResult (tegrablError .blockDev .invalid 0)
  else if noPartialBuf dev scratch offset len then ofResult (tegrablError .blockDev .noMemory 0)
  else do
    let c ← readHead dev drv scratch offset ⟨buffer, len, offset / dev.blockSize % 2 ^ 32⟩
    let c ← readMiddle dev drv scratch c
    readTail dev drv scratch c

def writeHead (offset : Nat) (c : Cursor) : Prog ErrorValue (World σ) Cursor :=
  if offset % dev.blockSize ≠ 0 then do
    readBlocks dev drv scratch.partialBlockBuf c.block 1
    memcpy (scratch.partialBlockBuf + offset % dev.blockSize) c.buf (headBytes dev offset c.len)
    recover (writeBlocks dev drv scratch.partialBlockBuf c.block 1) fun _ => pure ()
    return c.advance (headBytes dev offset c.len) 1
  else return c

def writeMiddle (c : Cursor) : Prog ErrorValue (World σ) Cursor :=
  if 2 ^ dev.blockSizeLog2 % 2 ^ 32 ≤ c.len then do
    let blockCount := c.len / dev.blockSize
    let bytes := blockCount * dev.blockSize % 2 ^ 64
    if c.len < bytes then ofResult (tegrablError .blockDev .invalid 3)
    else if !dev.bufferAligned c.buf then do
      if scratch.tempBuf = 0 then ofResult (tegrablError .blockDev .noMemory 2)
      else do
        memcpy scratch.tempBuf c.buf bytes
        writeBlocks dev drv scratch.tempBuf c.block (blockCount % 2 ^ 32)
        return c.advance bytes blockCount
    else do
      writeBlocks dev drv c.buf c.block (blockCount % 2 ^ 32)
      return c.advance bytes blockCount
  else return c

def writeTail (c : Cursor) : Prog ErrorValue (World σ) Unit :=
  if 0 < c.len then do
    readBlocks dev drv scratch.partialBlockBuf c.block 1
    memcpy scratch.partialBlockBuf c.buf c.len
    writeBlocks dev drv scratch.partialBlockBuf c.block 1
  else return ()

def tegrablBlockdevDefaultWrite (buffer offset len : Nat) : Prog ErrorValue (World σ) Unit :=
  if buffer = 0 then ofResult (tegrablError .blockDev .invalid 2)
  else if noPartialBuf dev scratch offset len then ofResult (tegrablError .blockDev .noMemory 0)
  else do
    let c ← writeHead dev drv scratch offset ⟨buffer, len, offset / dev.blockSize % 2 ^ 32⟩
    let c ← writeMiddle dev drv scratch c
    writeTail dev drv scratch c

def readBytes (buf offset len : Nat) : Prog ErrorValue (World σ) Unit :=
  tegrablBlockdevRead dev (tegrablBlockdevDefaultRead dev drv scratch) buf offset len

def writeBytes (buf offset len : Nat) : Prog ErrorValue (World σ) Unit :=
  tegrablBlockdevWrite dev (tegrablBlockdevDefaultWrite dev drv scratch) buf offset len

end Default

end Cboot.BlockDev
