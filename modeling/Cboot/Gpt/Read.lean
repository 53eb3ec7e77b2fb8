/-
**Reading a partition table.**

`tegrabl_gpt_read_validate` reads the header and the table behind it into one buffer and checks both;
`tegrabl_gpt_read` tries the place it is given or, without one, the second block and then the last
block of the device. `tegrabl_gpt_publish` makes the array of partitions and frees the buffer.

The state has, besides the memory and the device, the pointer to the buffer and the caller's two
variables. It also records the buffers that are allocated and freed, and the ranges of memory that a
device read has filled or a checksum has covered. The addresses that the allocator returns are an
input, null included.
-/

import Cboot.Gpt.Table
import Cboot.Utils.Crc32

namespace Cboot.Gpt

open Prog BlockDev

/-! ### State -/

inductive HeapOp
  | alloc (addr : Nat)
  | free (addr : Nat)
  deriving DecidableEq, Repr

structure GptState (σ : Type) where
  world : World σ
  heapOps : List HeapOp
  filled : List (Nat × Nat)
  summed : List (Nat × Nat)
  buf : Nat
  bufSize : Nat
  partitionList : List NamedPartition
  numPartitions : Nat

def gptError {α : Type} (reason : ErrReason) (auxInfo : Nat) : Result α :=
  tegrablError .gpt reason auxInfo

def divCeilLog2 (n logd : Nat) : Nat := (n + (2 ^ logd - 1)) % 2 ^ 64 / 2 ^ logd

def bufferSize (dev : Bdev) : Nat := (tableBytes + dev.blockSize) % 2 ^ 32

def headerBlock (dev : Bdev) (offset : Nat) : Nat :=
  divCeilLog2 offset dev.blockSizeLog2 % 2 ^ 32

def Header.tableBlock (hdr : Header) : Nat := hdr.tableStartLba % 2 ^ 32

def Header.tableCount (hdr : Header) (dev : Bdev) : Nat :=
  divCeilLog2 hdr.tableSize dev.blockSizeLog2 % 2 ^ 32

section Model

variable {σ : Type} (s : GptState σ)

def GptState.setMem (mem : ByteMem) : GptState σ :=
  { s with world := { s.world with mem := mem } }

def GptState.addSummed (addr n : Nat) : GptState σ :=
  { s with summed := s.summed ++ [(addr, n)] }

def GptState.addFilled (addr n : Nat) : GptState σ :=
  { s with filled := s.filled ++ [(addr, n)] }

def GptState.newBuffer (fresh n : Nat) : GptState σ :=
  { s.setMem (s.world.mem.memset fresh 0 n) with
    heapOps := s.heapOps ++ [.alloc fresh]
    bufSize := n }

def onMem (f : ByteMem → ByteMem) : Prog ErrorValue (GptState σ) Unit :=
  modify fun s => s.setMem (f s.world.mem)

def tegrablFree (buffer : Nat) (s : GptState σ) : GptState σ :=
  if buffer = 0 then s else { s with heapOps := s.heapOps ++ [.free buffer] }

def crc32Of (buf n : Nat) : Prog ErrorValue (GptState σ) (BitVec 32) := fun s =>
  some (.ok (tegrablUtilsCrc32 0 (s.world.mem.load buf n)), s.addSummed buf n)

variable (dev : Bdev) (drv : Driver σ)

def fillBlocks (buf block count : Nat) : Prog ErrorValue (GptState σ) Unit := do
  recover (zoom GptState.world (fun w s => { s with world := w }) (readBlocks dev drv buf block count))
    fun error => fail (setHighestModule .gpt error)
  modify fun s => s.addFilled buf (count * dev.blockSize)

def tegrablGptValidateHeader (buf totalBlocks : Nat) : Prog ErrorValue (GptState σ) Unit := do
  let s ← read
  let hdr := headerAt s.world.mem buf
  if totalBlocks = 0 then ofResult (gptError .invalid 0)
  else if hdr.signature ≠ efiPart then ofResult (gptError .verifyFailed 0)
  else if hdr.hdrSize ≠ 0x5C then ofResult (gptError .invalid 1)
  else do
    onMem fun mem => mem.store (buf + 16) (bytes32 0)
    let crc ← crc32Of buf hdr.hdrSize
    if hdr.hdrCrc32 ≠ crc then ofResult (gptError .verifyFailed 1)
    else do
      onMem fun mem => mem.store (buf + 16) (bytes32 hdr.hdrCrc32)
      if totalBlocks ≤ hdr.firstLba ∨ totalBlocks ≤ hdr.lastLba then ofResult (gptError .invalid 2)
      else return ()

def takeBuffer (fresh : Nat) : Prog ErrorValue (GptState σ) Nat := do
  let s ← read
  if s.buf ≠ 0 then return s.buf
  else if fresh = 0 then ofResult (gptError .noMemory 0)
  else do
    modify fun s => s.newBuffer fresh (bufferSize dev)
    return fresh

def loadHeader (buffer offset : Nat) : Prog ErrorValue (GptState σ) Unit := do
  let s ← read
  if s.bufSize < bufferSize dev then ofResult (gptError .overflow 139)
  else do
    fillBlocks dev drv buffer (headerBlock dev offset) 1
    tegrablGptValidateHeader buffer dev.blockCount

def loadTable (buffer : Nat) : Prog ErrorValue (GptState σ) Unit := do
  let s ← read
  let hdr := headerAt s.world.mem buffer
  fillBlocks dev drv (buffer + dev.blockSize) hdr.tableBlock (hdr.tableCount dev)
  let crc ← crc32Of (buffer + dev.blockSize) hdr.tableSize
  let s ← read
  if (headerAt s.world.mem buffer).tableCrc32 ≠ crc then ofResult (gptError .verifyFailed 2)
  else return ()

def tegrablGptReadValidate (fresh offset : Nat) : Prog ErrorValue (GptState σ) Unit := do
  let buffer ← takeBuffer dev fresh
  recover (do
      loadHeader dev drv buffer offset
      loadTable dev drv buffer
      modify fun s => if s.buf = 0 then { s with buf := buffer } else s)
    fun error => do
      modify (tegrablFree buffer)
      fail error

def tryOffsets : List (Nat × Nat) → Prog ErrorValue (GptState σ) Unit
  | [] => ofResult (gptError .notFound 0)
  | (offset, fresh) :: rest =>
    recover (tegrablGptReadValidate dev drv fresh offset) fun _ => tryOffsets rest

def primaryOffset : Nat := dev.blockSize % 2 ^ 32

def secondaryOffset : Nat := (dev.size + (2 ^ 64 - dev.blockSize % 2 ^ 32)) % 2 ^ 64

def gptOffsets (offset : Nat) : List Nat :=
  if 0 < offset then [offset] else [primaryOffset dev, secondaryOffset dev]

def gptPlaces (fresh : Nat → Nat) (offset : Nat) : List (Nat × Nat) :=
  (gptOffsets dev offset).zipIdx.map fun place => (place.1, fresh place.2)

def partitionInfoBytes : Nat := 144

def publishSlots (hasRoom : Nat → Bool) : Prog ErrorValue (GptState σ) Unit := do
  let s ← read
  let slots := slotsAt s.world.mem (s.buf + dev.blockSize)
  let numEntries := countEntries slots 0
  let size := partitionInfoBytes * numEntries
  if size = 0 ∨ hasRoom size = false then ofResult (gptError .noMemory 1)
  else modify fun s => { s with
    partitionList := fillPartitions dev.blockSizeLog2 numEntries slots []
    numPartitions := numEntries }

def publishFrom (hasRoom : Nat → Bool) (places : List (Nat × Nat)) :
    Prog ErrorValue (GptState σ) Unit := do
  modify fun s => { s with buf := 0, bufSize := 0 }
  always (do
      tryOffsets dev drv places
      publishSlots dev hasRoom)
    fun s => some (tegrablFree s.buf s)

def tegrablGptPublish (hasRoom : Nat → Bool) (fresh : Nat → Nat) (offset : Nat) :
    Prog ErrorValue (GptState σ) Unit :=
  publishFrom dev drv hasRoom (gptPlaces dev fresh offset)

end Model

end Cboot.Gpt
