/-
**The partition table of a device.**

A GPT header names a table of entries. The two loops of `tegrabl_gpt_publish` go over the 128 slots
of the buffer that the table is read into: the first counts the slots whose last block is behind the
first one, the second copies them into the array of partitions.
-/

import Cboot.BlockDev.Partition

namespace Cboot.Gpt

open BlockDev

/-! ### Headers and entries -/

def maxPartitionEntries : Nat := 128

def maxPartitionName : Nat := 36

def entryBytes : Nat := 128

def tableBytes : Nat := entryBytes * maxPartitionEntries

structure Header where
  signature : List Byte
  hdrSize : Nat
  hdrCrc32 : BitVec 32
  firstLba : Nat
  lastLba : Nat
  tableStartLba : Nat
  numEntries : Nat
  entrySize : Nat
  tableCrc32 : BitVec 32

def headerAt (mem : ByteMem) (buf : Nat) : Header where
  signature := mem.load buf 8
  hdrSize := (word32 mem (buf + 12)).toNat
  hdrCrc32 := word32 mem (buf + 16)
  firstLba := (word64 mem (buf + 40)).toNat
  lastLba := (word64 mem (buf + 48)).toNat
  tableStartLba := (word64 mem (buf + 72)).toNat
  numEntries := (word32 mem (buf + 80)).toNat
  entrySize := (word32 mem (buf + 84)).toNat
  tableCrc32 := word32 mem (buf + 88)

def Header.tableSize (hdr : Header) : Nat := hdr.numEntries * hdr.entrySize % 2 ^ 32

def efiPart : List Byte := [0x45, 0x46, 0x49, 0x20, 0x50, 0x41, 0x52, 0x54]

structure Entry where
  ptypeGuid : List Byte
  uniqueGuid : List Byte
  firstLba : Nat
  lastLba : Nat
  pname : List (BitVec 16)

def entryAt (mem : ByteMem) (addr : Nat) : Entry where
  ptypeGuid := mem.load addr 16
  uniqueGuid := mem.load (addr + 16) 16
  firstLba := (word64 mem (addr + 32)).toNat
  lastLba := (word64 mem (addr + 40)).toNat
  pname := (List.range maxPartitionName).map fun i => word16 mem (addr + 56 + 2 * i)

def slotsAt (mem : ByteMem) (base : Nat) : List Entry :=
  (List.range maxPartitionEntries).map fun k => entryAt mem (base + entryBytes * k)

def Entry.isUsed (entry : Entry) : Bool := entry.firstLba < entry.lastLba

/-! ### What is published -/

def setHex (guid : Byte) : List Char :=
  let digit (n : Nat) : Char :=
    if 9 < n then Char.ofNat ('a'.toNat + n - 10) else Char.ofNat ('0'.toNat + n)
  [digit (guid.toNat / 16), digit (guid.toNat % 16)]

def guidToStr (guid : List Byte) : List Char :=
  let digits (order : List Nat) : List Char := order.flatMap fun i => setHex (guid.getD i 0)
  digits [3, 2, 1, 0] ++ ['-'] ++ digits [5, 4] ++ ['-'] ++ digits [7, 6] ++ ['-'] ++
    digits [8, 9] ++ ['-'] ++ digits [10, 11, 12, 13, 14, 15]

structure NamedPartition extends PartitionInfo where
  name : List Byte
  guid : List Char
  ptypeGuid : List Char
  deriving DecidableEq

def Entry.publish (entry : Entry) (blockSizeLog2 : Nat) : NamedPartition :=
  let numSectors := (entry.lastLba + (2 ^ 64 - entry.firstLba) + 1) % 2 ^ 64
  { startSector := entry.firstLba
    numSectors := numSectors
    totalSize := numSectors * 2 ^ blockSizeLog2 % 2 ^ 64
    name := entry.pname.map (fun c => (c &&& 0xFF).setWidth 8) ++ [0]
    guid := guidToStr entry.uniqueGuid
    ptypeGuid := guidToStr entry.ptypeGuid }

def countEntries : List Entry → Nat → Nat
  | [], numEntries => numEntries
  | entry :: rest, numEntries =>
    countEntries rest (if entry.lastLba > entry.firstLba then numEntries + 1 else numEntries)

def fillPartitions (blockSizeLog2 numEntries : Nat) :
    List Entry → List NamedPartition → List NamedPartition
  | [], partitions => partitions
  | entry :: rest, partitions =>
    if entry.lastLba ≤ entry.firstLba then fillPartitions blockSizeLog2 numEntries rest partitions
    else
      let partitions := partitions ++ [entry.publish blockSizeLog2]
      if partitions.length = numEntries then partitions
      else fillPartitions blockSizeLog2 numEntries rest partitions

def publishedOf (blockSizeLog2 : Nat) (slots : List Entry) : List NamedPartition :=
  (slots.filter Entry.isUsed).map fun entry => entry.publish blockSizeLog2

section Loops

variable (blockSizeLog2 : Nat)

theorem publishedOf_used {entry : Entry} (used : entry.firstLba < entry.lastLba)
    (rest : List Entry) : publishedOf blockSizeLog2 (entry :: rest) =
      entry.publish blockSizeLog2 :: publishedOf blockSizeLog2 rest := by
  have isUsed : entry.isUsed = true := decide_eq_true used
  rw [publishedOf, List.filter_cons_of_pos isUsed, List.map_cons]
  rfl

theorem publishedOf_unused {entry : Entry} (unused : ¬ entry.firstLba < entry.lastLba)
    (rest : List Entry) :
    publishedOf blockSizeLog2 (entry :: rest) = publishedOf blockSizeLog2 rest := by
  have notUsed : ¬ entry.isUsed = true := by simpa [Entry.isUsed] using unused
  rw [publishedOf, List.filter_cons_of_neg notUsed]
  rfl

theorem countEntries_eq (slots : List Entry) (numEntries : Nat) :
    countEntries slots numEntries = numEntries + (publishedOf blockSizeLog2 slots).length := by
  induction slots generalizing numEntries with
  | nil => rfl
  | cons entry rest ih =>
    rw [countEntries, ih]
    by_cases used : entry.firstLba < entry.lastLba
    · rw [if_pos used, publishedOf_used blockSizeLog2 used, List.length_cons]
      omega
    · rw [if_neg used, publishedOf_unused blockSizeLog2 used]

theorem fillPartitions_append (slots : List Entry) (done : List NamedPartition) :
    fillPartitions blockSizeLog2 (done.length + (publishedOf blockSizeLog2 slots).length) slots
      done = done ++ publishedOf blockSizeLog2 slots := by
  induction slots generalizing done with
  | nil => simp [fillPartitions, publishedOf]
  | cons entry rest ih =>
    rw [fillPartitions]
    by_cases used : entry.firstLba < entry.lastLba
    · have next := ih (done ++ [entry.publish blockSizeLog2])
      rw [if_neg (Nat.not_le.mpr used), publishedOf_used blockSizeLog2 used]
      dsimp only
      rw [List.append_cons done _ (publishedOf blockSizeLog2 rest)]
      by_cases last : publishedOf blockSizeLog2 rest = []
      · rw [if_pos (by simp [last]), last, List.append_nil]
      · have more := List.length_pos_iff.mpr last
        rw [if_neg (by simp; omega), ← next]
        congr 1
        simp only [List.length_append, List.length_cons, List.length_nil]
        omega
    · rw [if_pos (Nat.not_lt.mp used), publishedOf_unused blockSizeLog2 used, ih]

theorem fillPartitions_eq (slots : List Entry) :
    fillPartitions blockSizeLog2 (countEntries slots 0) slots [] =
      publishedOf blockSizeLog2 slots := by
  rw [countEntries_eq blockSizeLog2]
  exact fillPartitions_append blockSizeLog2 slots []

end Loops

end Cboot.Gpt
