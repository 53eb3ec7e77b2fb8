/-
**The heap: blocks in band, and a free list.**

The heap is a range of memory that holds its own bookkeeping. A free block starts with a record of
32 bytes: a magic number, the size of the block and the two links of the free list, which is sorted
by address. An allocated block has a record of 24 bytes right in front of the pointer given out: a
magic number, the size of the block and where the block starts.

Every function reads and writes these records in a byte memory. Addresses and sizes are natural
numbers, and sums that can wrap are taken modulo 2^64. A loop over the free list gets as many rounds
as the heap has bytes; a function that runs out of rounds, fails an assertion or finds the heap
corrupted has no outcome.
-/

import Cboot.Error
import Cboot.Lib.ByteMem

namespace Cboot.Malloc

/-! ### The records -/

def freeMagic : BitVec 32 := 0xDEEFBEEE

def allocMagic : BitVec 32 := 0xDEADBEEE

def minSize : Nat := 32

def sizeofAllocBlock : Nat := 24

section Fields

variable (mem : ByteMem) (block : Nat)

def blockMagic : BitVec 32 := word32 mem block

def blockSize : Nat := (word64 mem (block + 8)).toNat

def blockPrev : Nat := (word64 mem (block + 16)).toNat

def blockNext : Nat := (word64 mem (block + 24)).toNat

def blockStart : Nat := (word64 mem (block + 16)).toNat

def setMagic (magic : BitVec 32) : ByteMem := mem.store block (bytes32 magic)

def setSize (size : Nat) : ByteMem := mem.store (block + 8) (bytes64 (BitVec.ofNat 64 size))

def setPrev (prev : Nat) : ByteMem := mem.store (block + 16) (bytes64 (BitVec.ofNat 64 prev))

def setNext (next : Nat) : ByteMem := mem.store (block + 24) (bytes64 (BitVec.ofNat 64 next))

def setStart (start : Nat) : ByteMem := mem.store (block + 16) (bytes64 (BitVec.ofNat 64 start))

end Fields

/-! ### The heaps -/

inductive HeapType
  | default
  | dma
  deriving DecidableEq

structure Heaps where
  mem : ByteMem
  freeList : HeapType → Nat
  maxHeapSize : HeapType → Nat

variable (s : Heaps)

def Heaps.write (change : ByteMem → ByteMem) : Heaps := { s with mem := change s.mem }

variable (heapType : HeapType)

def Heaps.setHead (block : Nat) : Heaps :=
  { s with freeList := Function.update s.freeList heapType block }

def Heaps.rounds : Nat := s.maxHeapSize heapType + 1

def wadd (a b : Nat) : Nat := (a + b) % 2 ^ 64

def wsub (a b : Nat) : Nat := (a + (2 ^ 64 - b)) % 2 ^ 64

def tegrablHeapInit (start size : Nat) : Result Unit × Heaps :=
  if size < minSize then (tegrablError .heap .tooSmall 0, s)
  else if s.freeList heapType ≠ 0 then (tegrablError .heap .alreadyExists 0, s)
  else
    let s := s.write fun mem =>
      setMagic (setSize (setNext (setPrev mem start 0) start 0) start size) start freeMagic
    (.ok (), { s.setHead heapType start with
      maxHeapSize := Function.update s.maxHeapSize heapType size })

/-! ### Splitting a free block -/

def moveHead (block head : Nat) : Heaps :=
  if block = s.freeList .default then s.setHead .default head
  else if block = s.freeList .dma then s.setHead .dma head
  else s

def linkPrev (next block : Nat) (mem : ByteMem) : ByteMem :=
  if next ≠ 0 then setPrev mem next block else mem

def linkNext (prev block : Nat) (mem : ByteMem) : ByteMem :=
  if prev ≠ 0 then setNext mem prev block else mem

def takeWhole (freeBlock : Nat) : Heaps :=
  let s := moveHead s freeBlock (blockNext s.mem freeBlock)
  let s := s.write (linkPrev (blockNext s.mem freeBlock) (blockPrev s.mem freeBlock))
  s.write (linkNext (blockPrev s.mem freeBlock) (blockNext s.mem freeBlock))

def takeFront (freeBlock size remainingSize : Nat) : Heaps :=
  let newFree := wadd freeBlock size
  let s := s.write fun mem => setPrev mem newFree (blockPrev mem freeBlock)
  let s := s.write fun mem => setNext mem newFree (blockNext mem freeBlock)
  let s := s.write fun mem => linkNext (blockPrev mem newFree) newFree mem
  let s := s.write fun mem => linkPrev (blockNext mem newFree) newFree mem
  let s := s.write fun mem => setSize mem newFree remainingSize
  let s := s.write fun mem => setMagic mem newFree freeMagic
  let s := s.write fun mem => setSize mem freeBlock size
  moveHead s freeBlock newFree

def tegrablHeapSplitBlock (freeBlock size : Nat) : Heaps :=
  let remainingSize := wsub (blockSize s.mem freeBlock) size
  if remainingSize ≤ minSize then takeWhole s freeBlock
  else takeFront s freeBlock size remainingSize

/-! ### Allocation -/

def findFree (mem : ByteMem) (accepts : Nat → Bool) : Nat → Nat → Option Nat
  | 0, _ => none
  | rounds + 1, freeBlock =>
    if freeBlock = 0 then some 0
    else if blockMagic mem freeBlock ≠ freeMagic then none
    else if accepts freeBlock then some freeBlock
    else findFree mem accepts rounds (blockNext mem freeBlock)

def roundUpWord (size : Nat) : Nat := wadd size 7 / 8 * 8

def blockSizeFor (size : Nat) : Nat := wadd (roundUpWord size) sizeofAllocBlock

def giveBlock (freeBlock allocSize : Nat) : Heaps :=
  (tegrablHeapSplitBlock s freeBlock allocSize).write fun mem =>
    setMagic (setStart mem freeBlock freeBlock) freeBlock allocMagic

def tegrablGenericMalloc (size : Nat) : Option (Nat × Heaps) :=
  if size = 0 then some (0, s)
  else if blockSizeFor size < size then some (0, s)
  else do
    let allocSize := max (blockSizeFor size) minSize
    let freeBlock ← findFree s.mem (fun block => allocSize < blockSize s.mem block)
      (s.rounds heapType) (s.freeList heapType)
    if freeBlock = 0 then return (0, s)
    else return (wadd freeBlock sizeofAllocBlock, giveBlock s freeBlock allocSize)

def tegrablMalloc (size : Nat) : Option (Nat × Heaps) :=
  if s.maxHeapSize .default < size then some (0, s) else tegrablGenericMalloc s .default size

def tegrablCalloc (nmemb size : Nat) : Option (Nat × Heaps) :=
  let totalSize := size * nmemb % 2 ^ 64
  if size = 0 then some (0, s)
  else if s.maxHeapSize .default / size < nmemb then some (0, s)
  else if totalSize / size ≠ nmemb then none
  else do
    let (ptr, s) ← tegrablMalloc s totalSize
    if ptr = 0 then return (ptr, s)
    else return (ptr, s.write fun mem => mem.memset ptr 0 totalSize)

/-! ### Aligned allocation -/

def isSizeAlignmentValid (alignment size : Nat) : Bool :=
  let maxSize := wadd size alignment
  !(s.maxHeapSize heapType < size || s.maxHeapSize heapType < alignment ||
    s.maxHeapSize heapType < maxSize || maxSize < size || maxSize < alignment)

def alignSize (alignment freeBlock : Nat) : Nat :=
  alignment - wadd freeBlock sizeofAllocBlock % alignment

def nextOfSkipped (prevBlock nextBlock : Nat) : Nat :=
  if prevBlock = 0 ∧ nextBlock = 0 then s.freeList heapType
  else if nextBlock = 0 then blockNext s.mem prevBlock
  else if blockPrev s.mem nextBlock ≠ prevBlock then blockPrev s.mem nextBlock
  else nextBlock

def giveAligned (ptr skipped : Nat) : Heaps :=
  let s := s.write fun mem => setStart mem ptr ptr
  let origSize := blockSize s.mem ptr
  s.write fun mem => setStart (setMagic (setSize mem (ptr + skipped) origSize) (ptr + skipped)
    allocMagic) (ptr + skipped) ptr

def giveBackSkipped (ptr skipped allocSize prevBlock nextBlock : Nat) : Heaps :=
  let nextBlock := nextOfSkipped s heapType prevBlock nextBlock
  let s := s.write fun mem => setStart (setSize mem (ptr + skipped) allocSize) (ptr + skipped)
    (ptr + skipped)
  let s := s.write fun mem => setMagic (setSize (setPrev (setNext mem ptr nextBlock) ptr prevBlock)
    ptr skipped) ptr freeMagic
  let s := s.write (linkPrev nextBlock ptr)
  let s := s.write (linkNext prevBlock ptr)
  if s.freeList heapType = 0 ∨ ptr < s.freeList heapType then s.setHead heapType ptr else s

def takeAligned (freeBlock skipped allocSize : Nat) : Heaps :=
  let prevBlock := blockPrev s.mem freeBlock
  let nextBlock := blockNext s.mem freeBlock
  let s := giveAligned (tegrablHeapSplitBlock s freeBlock (wadd allocSize skipped)) freeBlock skipped
  if skipped < minSize then s
  else giveBackSkipped s heapType freeBlock skipped allocSize prevBlock nextBlock

def acceptsAligned (mem : ByteMem) (alignment allocSize block : Nat) : Bool :=
  !(blockSize mem block < allocSize) &&
    !(blockSize mem block < wadd (alignSize alignment block) allocSize)

def findAligned (alignment allocSize : Nat) : Option Nat :=
  findFree s.mem (acceptsAligned s.mem alignment allocSize) (s.rounds heapType) (s.freeList heapType)

def tegrablMemalignGeneric (alignment size : Nat) : Option (Nat × Heaps) :=
  if size = 0 then some (0, s)
  else if !isSizeAlignmentValid s heapType alignment size then some (0, s)
  else do
    let allocSize := max (blockSizeFor size) minSize
    let freeBlock ← findAligned s heapType alignment allocSize
    if freeBlock = 0 then return (0, s)
    else
      let skipped := alignSize alignment freeBlock
      return (freeBlock + sizeofAllocBlock + skipped,
        takeAligned s heapType freeBlock skipped allocSize)

def tegrablMemalign (alignment size : Nat) : Option (Nat × Heaps) :=
  tegrablMemalignGeneric s .default alignment size

/-! ### Freeing -/

def findPlace (mem : ByteMem) (ptr : Nat) : Nat → Nat → Nat → Option (Nat × Nat)
  | 0, _, _ => none
  | rounds + 1, prevBlock, freeBlock =>
    if freeBlock ≠ 0 ∧ freeBlock < ptr then
      findPlace mem ptr rounds freeBlock (blockNext mem freeBlock)
    else some (prevBlock, freeBlock)

def joinNext (mem : ByteMem) (block next : Nat) : ByteMem :=
  let mem := setSize mem block (wadd (blockSize mem block) (blockSize mem next))
  let mem := setNext mem block (blockNext mem next)
  linkPrev (blockNext mem next) block mem

def joinPrev (mem : ByteMem) (prev block : Nat) : ByteMem :=
  let mem := setSize mem prev (wadd (blockSize mem prev) (blockSize mem block))
  let mem := setNext mem prev (blockNext mem block)
  linkPrev (blockNext mem block) prev mem

def tegrablHeapMergeBlocks (mem : ByteMem) (freeBlock : Nat) : Nat × ByteMem :=
  let next := blockNext mem freeBlock
  let prev := blockPrev mem freeBlock
  let mem := if next ≠ 0 ∧ wadd freeBlock (blockSize mem freeBlock) = next then
    joinNext mem freeBlock next else mem
  if prev ≠ 0 ∧ wadd prev (blockSize mem prev) = freeBlock then (prev, joinPrev mem prev freeBlock)
  else (freeBlock, mem)

def mergeAll : Nat → Nat → ByteMem → Option (Nat × ByteMem)
  | 0, _, _ => none
  | rounds + 1, tmpFree, mem =>
    let (freeBlock, mem) := tegrablHeapMergeBlocks mem tmpFree
    if freeBlock = tmpFree then some (tmpFree, mem) else mergeAll rounds freeBlock mem

def linkFreed (mem : ByteMem) (prevBlock tmpFree freeBlock : Nat) : ByteMem :=
  let mem := linkNext prevBlock tmpFree mem
  let mem := setMagic (setNext (setPrev mem tmpFree prevBlock) tmpFree freeBlock) tmpFree freeMagic
  linkPrev freeBlock tmpFree mem

def tegrablGenericFree (ptr : Nat) : Option (Nat × Heaps) :=
  if ptr = 0 then some (0, s)
  else
    let allocBlock := wsub ptr sizeofAllocBlock
    if blockMagic s.mem allocBlock ≠ allocMagic then none
    else do
      let tmpFree := blockStart s.mem allocBlock
      let mem := setSize s.mem tmpFree (blockSize s.mem allocBlock)
      let (prevBlock, freeBlock) ← findPlace mem ptr (s.rounds heapType) 0 (s.freeList heapType)
      let (merged, mem) ← mergeAll (s.rounds heapType) tmpFree
        (linkFreed mem prevBlock tmpFree freeBlock)
      return (merged, { s with mem := mem })

def tegrablFree (ptr : Nat) : Option Heaps := do
  let (tmpFree, s) ← tegrablGenericFree s .default ptr
  if tmpFree = 0 then return s
  else if s.freeList .default = 0 ∨ tmpFree < s.freeList .default then
    return s.setHead .default tmpFree
  else return s

end Cboot.Malloc
