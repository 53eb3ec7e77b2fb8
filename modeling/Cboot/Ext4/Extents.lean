/-
**The extents of a file.**

An inode of ext4 holds the root of a tree: a header and behind it, at depth 0, the extents of the
file, else index entries with the numbers of the blocks that hold the leaves. `ext4_read_extent` reads
what the extents of one leaf point to, `ext4_read_data_from_extent` what those of a tree do, and
`ext4_read_file` is called for a regular file.

The device fails a read or not by the number of the read, and what a failed one leaves in its buffer
is an input; so is whether an allocation finds memory. The state records the ranges of memory that
the reads have written, and whether a block that was asked for could not be read.
-/

import Cboot.Lib.Copies
import Cboot.BlockDev.Transfer

namespace Cboot.Ext4

open ByteMem

/-! ### Error numbers -/

def errGeneric : Int := -1

def errNoMemory : Int := -5

def errNotValid : Int := -7

/-! ### The device and the memory -/

structure Disk where
  bytes : ByteMem
  fails : Nat → Bool
  junk : Nat → ByteMem
  hasRoom : Nat → Bool

structure Io where
  mem : ByteMem
  reads : Nat
  allocs : Nat
  writes : List (Nat × Nat)
  failed : Bool

abbrev Outcome (α : Type) := Except Int α × Io

def Io.filled (io : Io) (source : ByteMem) (buf addr len : Nat) : Io :=
  { io with
    mem := io.mem.copyFrom source buf addr len
    reads := io.reads + 1
    writes := io.writes ++ [(buf, len)] }

def Io.fail (io : Io) : Io := { io with failed := true }

def tegrablBlockdevRead (disk : Disk) (buf addr len : Nat) (io : Io) : Outcome Unit :=
  if len = 0 ∨ disk.fails io.reads = true then
    (.error errGeneric, (io.filled (disk.junk io.reads) buf 0 len).fail)
  else (.ok (), io.filled disk.bytes buf addr len)

/-! ### Nodes of the tree -/

structure Fs where
  blockSize : Nat
  fsOffset : Nat

def extentsMagic : BitVec 16 := 0xF30A

structure Extent where
  blockNo : Nat
  len : Nat
  startHi : Nat
  startLo : Nat
  deriving DecidableEq, Repr

def Extent.start (e : Extent) : Nat := e.startHi * 2 ^ 32 + e.startLo

def nodeMagic (node : ByteMem) : BitVec 16 := word16 node 0

def nodeEntries (node : ByteMem) : Nat := (word16 node 2).toNat

def nodeDepth (node : ByteMem) : Nat := (word16 node 6).toNat

def extentAt (node : ByteMem) (i : Nat) : Extent where
  blockNo := (word32 node (12 + 12 * i)).toNat
  len := (word16 node (12 + 12 * i + 4)).toNat
  startHi := (word16 node (12 + 12 * i + 6)).toNat
  startLo := (word32 node (12 + 12 * i + 8)).toNat

def nodeExtents (node : ByteMem) : List Extent := (List.range (nodeEntries node)).map (extentAt node)

def leafBlock (node : ByteMem) (i : Nat) : Nat :=
  (word16 node (12 + 12 * i + 8)).toNat * 2 ^ 32 + (word32 node (12 + 12 * i + 4)).toNat

section Model

variable (fs : Fs)

def Fs.blockAddr (block : Nat) : Nat := (block * fs.blockSize % 2 ^ 64 + fs.fsOffset) % 2 ^ 64

def Extent.dest (e : Extent) : Nat := e.blockNo * fs.blockSize % 2 ^ 32

def Extent.lenBytes (e : Extent) : Nat := e.len * fs.blockSize % 2 ^ 32

def Fs.blockAt (bytes : ByteMem) (block : Nat) : ByteMem := fun a =>
  if a < fs.blockSize then bytes (fs.blockAddr block + a) else 0

variable (disk : Disk)

def readNode (block : Nat) (io : Io) : Outcome ByteMem :=
  let asked := { io with allocs := io.allocs + 1 }
  if disk.hasRoom io.allocs = false then (.error errNoMemory, asked.fail)
  else if disk.fails io.reads = true then
    (.error errGeneric, ({ asked with reads := io.reads + 1 } : Io).fail)
  else (.ok (fs.blockAt disk.bytes block), { asked with reads := io.reads + 1 })

/-! ### Reading the data -/

structure ExtentCursor where
  dest : Nat
  lenBytes : Nat
  bytesRead : Nat

def ExtentCursor.next (cursor : ExtentCursor) (e : Extent) : ExtentCursor :=
  ⟨e.dest fs, e.lenBytes fs, cursor.bytesRead + e.lenBytes fs⟩

def ExtentCursor.total (cursor : ExtentCursor) : Nat :=
  if cursor.dest = 0 then cursor.bytesRead else cursor.dest + cursor.lenBytes

def extentLoop (buf : Nat) : List Extent → ExtentCursor → Io → Outcome ExtentCursor
  | [], cursor, io => (.ok cursor, io)
  | e :: rest, cursor, io =>
    match tegrablBlockdevRead disk (buf + e.dest fs) (fs.blockAddr e.start) (e.lenBytes fs) io with
    | (.error _, io') => (.error errGeneric, io')
    | (.ok _, io') => extentLoop buf rest (cursor.next fs e) io'

def ext4ReadExtent (node : ByteMem) (buf : Nat) (io : Io) : Outcome Nat :=
  match extentLoop fs disk buf (nodeExtents node) ⟨0, 0, 0⟩ io with
  | (.error err, io') => (.error err, io')
  | (.ok cursor, io') => (.ok cursor.total, io')

structure Inode where
  mode : BitVec 16
  size : Nat
  flags : BitVec 32
  blocks : ByteMem

structure IndexCursor where
  bufPtr : Nat
  bytesRead : Nat
  total : Nat
  err : Int

def IndexCursor.next (cursor : IndexCursor) : Except Int Nat → IndexCursor
  | .ok bytes => ⟨cursor.bufPtr + bytes, bytes, cursor.total + bytes, 0⟩
  | .error err =>
    ⟨cursor.bufPtr + cursor.bytesRead, cursor.bytesRead, cursor.total + cursor.bytesRead, err⟩

def indexLoop (root : ByteMem) : Nat → IndexCursor → Io → Outcome IndexCursor
  | 0, cursor, io => (.ok cursor, io)
  | count + 1, cursor, io =>
    match readNode fs disk (leafBlock root 0) io with
    | (.error err, io') => (.error err, io')
    | (.ok node, io') =>
      let out := ext4ReadExtent fs disk node cursor.bufPtr io'
      indexLoop root count (cursor.next out.1) out.2

def ext4ReadDataFromExtent (inode : Inode) (buf : Nat) (io : Io) : Int × Io :=
  if nodeMagic inode.blocks ≠ extentsMagic then (errNotValid, io)
  else if 0 < nodeDepth inode.blocks then
    match indexLoop fs disk inode.blocks (nodeEntries inode.blocks) ⟨buf, 0, 0, 0⟩ io with
    | (.error err, io') => (err, io')
    | (.ok cursor, io') => (if cursor.err < 0 then cursor.err else cursor.total, io')
  else
    match ext4ReadExtent fs disk inode.blocks buf io with
    | (.error err, io') => (err, io')
    | (.ok bytes, io') => (bytes, io')

def Inode.isRegular (inode : Inode) : Bool := inode.mode &&& 0xF000 == 0x8000

def ext4ReadFile (inode : Inode) (buf _offset _len : Nat) (io : Io) : Int × Io :=
  if inode.isRegular = false then (-1, io) else ext4ReadDataFromExtent fs disk inode buf io

end Model

end Cboot.Ext4
