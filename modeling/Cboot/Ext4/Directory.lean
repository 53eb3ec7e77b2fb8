/-
**Directories.**

A block of a directory is a chain of records with a length, an inode number and a name.
`ext4_dir_lookup` looks for a name in one of two ways: `lookup_linear_dir` reads the whole directory
and goes through its first block, `lookup_hashed_dir` goes through the blocks that the root of the
hash tree lists. The latter gets its blocks from `get_extents_blk`, which looks at the first leaf of
the tree of extents only and does not pass on a failure to read the block itself.

A record of a well-formed block ends inside it, so nothing behind a block is looked at.
-/

import Cboot.Ext4.FileBytes

namespace Cboot.Ext4

open ByteMem

/-! ### Records -/

structure Record where
  inode : Nat
  name : List Byte
  deriving DecidableEq, Repr

def recLen (block : ByteMem) (pos : Nat) : Nat := (word16 block (pos + 4)).toNat

def nameLen (block : ByteMem) (pos : Nat) : Nat := (block (pos + 6)).toNat

def recordAt (block : ByteMem) (pos : Nat) : Record :=
  ⟨(word32 block pos).toNat, block.load (pos + 8) (nameLen block pos)⟩

def roundup4 (n : Nat) : Nat := (n + 3) / 4 * 4

def scan (blockSize : Nat) (block : ByteMem) (name : List Byte) : Nat → Nat → Option Nat
  | 0, _ => none
  | fuel + 1, pos =>
    if pos < blockSize then
      if recLen block pos = 0 then none
      else if nameLen block pos = name.length ∧ block.load (pos + 8) (nameLen block pos) = name then
        some (recordAt block pos).inode
      else scan blockSize block name fuel (pos + roundup4 (recLen block pos))
    else none

def findInBlock (fs : Fs) (block : ByteMem) (name : List Byte) : Option Nat :=
  scan fs.blockSize block name fs.blockSize 0

/-! ### Blocks of a directory by number -/

def blkNum (extents : List Extent) (num : Nat) : Nat :=
  match extents.find? fun e => num < (e.blockNo + e.len) % 2 ^ 32 with
  | some e => e.start + (num + (2 ^ 32 - e.blockNo)) % 2 ^ 32
  | none => 0

section Model

variable (fs : Fs) (disk : Disk)

def extentsBlkLookup (extents : List Extent) (num : Nat) (io : Io) :
    Except Int Unit × ByteMem × Io :=
  let asked := { io with reads := io.reads + 1 }
  if disk.fails io.reads = true then (.error errGeneric, disk.junk io.reads, asked.fail)
  else (.ok (), fs.blockAt disk.bytes (blkNum extents num), asked)

def getExtentsBlk (inode : Inode) (num : Nat) (io : Io) : Outcome ByteMem :=
  if 0 < nodeDepth inode.blocks then
    match readNode fs disk (leafBlock inode.blocks 0) io with
    | (.error err, io') => (.error err, io')
    | (.ok node, io') =>
      let out := extentsBlkLookup fs disk (nodeExtents node) num io'
      (.ok out.2.1, out.2.2)
  else
    let out := extentsBlkLookup fs disk (nodeExtents inode.blocks) num io
    (.ok out.2.1, out.2.2)

/-! ### Lookup in a hashed directory -/

def hashCount (root : ByteMem) : Nat := (word16 root 34).toNat

def hashBlocks (root : ByteMem) : List Nat :=
  (word32 root 36).toNat ::
    (List.range (hashCount root - 1)).map fun i => (word32 root (40 + 8 * i + 4)).toNat

def hashedLoop (inode : Inode) (name : List Byte) : List Nat → Io → Outcome (Option Nat)
  | [], io => (.ok none, io)
  | num :: rest, io =>
    match getExtentsBlk fs disk inode num io with
    | (.error err, io') => (.error err, io')
    | (.ok block, io') =>
      match findInBlock fs block name with
      | some inum => (.ok (some inum), io')
      | none => hashedLoop inode name rest io'

def lookupHashedDir (inode : Inode) (name : List Byte) (io : Io) : Outcome (Option Nat) :=
  match getExtentsBlk fs disk inode 0 io with
  | (.error err, io') => (.error err, io')
  | (.ok root, io') =>
    let asked := { io' with allocs := io'.allocs + 1 }
    if hashCount root = 0 then (.error errNoMemory, asked)
    else if disk.hasRoom io'.allocs = false then (.error errNoMemory, asked.fail)
    else hashedLoop fs disk inode name (hashBlocks root) asked

/-! ### Lookup in a linear directory -/

def Fs.bufferAt (mem : ByteMem) (buf : Nat) : ByteMem := fun a =>
  if a < fs.blockSize then mem (buf + a) else 0

def linearLoop (inode : Inode) (name : List Byte) (buf : Nat) : Nat → Io → Int × Option Nat × Io
  | 0, io => (-1, none, io)
  | rounds + 1, io =>
    let out := ext4ReadDataFromExtent fs disk inode buf io
    if out.1.bmod (2 ^ 32) ≤ 0 then (-1, none, out.2)
    else
      match findInBlock fs (fs.bufferAt out.2.mem buf) name with
      | some inum => (out.1.bmod (2 ^ 32), some inum, out.2)
      | none => linearLoop inode name buf rounds out.2

def lookupLinearDir (inode : Inode) (name : List Byte) (buf : Nat) (io : Io) : Int × Option Nat × Io :=
  linearLoop fs disk inode name buf 1025 io

/-! ### `ext4_dir_lookup` -/

def errNotDir : Int := -21

def Inode.isDirectory (inode : Inode) : Bool := inode.mode &&& 0xF000 == 0x4000

def Inode.isHashed (inode : Inode) : Bool := inode.flags &&& 0x1000 == 0x1000

def ext4DirLookup (inode : Inode) (name : List Byte) (buf inum : Nat) (io : Io) : Int × Nat × Io :=
  let asked := { io with allocs := io.allocs + 1 }
  if inode.isDirectory = false then (errNotDir, inum, io)
  else if nodeMagic inode.blocks ≠ extentsMagic then (errNotValid, inum, io)
  else if disk.hasRoom io.allocs = false then (errNoMemory, inum, asked.fail)
  else if inode.isHashed = true then
    match lookupHashedDir fs disk inode name asked with
    | (.error err, io') => (err, inum, io')
    | (.ok found, io') => (0, found.getD inum, io')
  else
    let out := lookupLinearDir fs disk inode name buf asked
    (out.1, out.2.1.getD inum, out.2.2)

end Model

end Cboot.Ext4
