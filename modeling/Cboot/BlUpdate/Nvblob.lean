/-
**An update payload in memory.**

The functions of `tegrabl_nvblob.c` on a payload that is already in memory. A payload starts with a
header, or with a signed header that a header follows; the header tells where the entries are, and an
entry tells where its data is. No function compares any of these offsets with the size of the
payload, and the size that `tegrabl_blob_get_size` returns is not read from the payload.
-/

import Cboot.BlUpdate.World

namespace Cboot.BlUpdate

open PartitionManager

def signedUpdateMagic : List Byte :=
  [0x53, 0x49, 0x47, 0x4E, 0x45, 0x44, 0x2D, 0x42, 0x59, 0x2D, 0x54, 0x45, 0x47, 0x52, 0x41, 0x53,
    0x49, 0x47, 0x4E, 0x2D]

def updateMagic : List Byte :=
  [0x4E, 0x56, 0x49, 0x44, 0x49, 0x41, 0x5F, 0x5F, 0x42, 0x4C, 0x4F, 0x42, 0x5F, 0x5F, 0x56, 0x32]

def signedHeaderSize : Nat := 28

def blobHeaderSize : Nat := 48

def imageEntrySize : Nat := 120

structure BlobInfo where
  start : Nat
  offset : Nat
  deriving DecidableEq, Repr

variable (mem : ByteMem)

def tegrablBlobInit (bptr : Nat) (hasRoom : Bool) : Result BlobInfo :=
  if hasRoom = false then tegrablError .nvblob .noMemory 0
  else if mem.load bptr 20 = signedUpdateMagic then .ok ⟨bptr, signedHeaderSize⟩
  else if mem.load bptr 16 = updateMagic then .ok ⟨bptr, 0⟩
  else tegrablError .nvblob .invalid 0

def tegrablBlobGetSize (_ : BlobInfo) : Nat := 0

variable (info : BlobInfo)

def BlobInfo.header : Nat := info.start + info.offset

def isUpdateType : Bool := word32 mem (info.header + 32) == 0

def tegrablBlobGetNumEntries : Nat :=
  (word32 mem (info.header + 28)).toNat

def entryAt (index : Nat) : Nat :=
  info.header + (word32 mem (info.header + 24)).toNat + index * imageEntrySize

def tegrablBlobGetEntry (index : Nat) : Result ImageEntry :=
  let entry := entryAt mem info index
  .ok { partname := cString (mem.load entry 40)
        imageSize := (word32 mem (entry + 44)).toNat
        opMode := (word32 mem (entry + 52)).toNat
        specInfo := cString (mem.load (entry + 56) 64) }

def tegrablBlobGetEntryData (index : Nat) : Result (Nat × Nat) :=
  let entry := entryAt mem info index
  .ok (info.header + (word32 mem (entry + 40)).toNat, (word32 mem (entry + 44)).toNat)

def blobInfo (buff : Nat) : BlobInfo :=
  match tegrablBlobInit mem buff true with
  | .ok info => info
  | .error _ => ⟨buff, 0⟩

def blobAt (buff : Nat) (hasRoom : Bool) : Blob :=
  let info := blobInfo mem buff
  { init := (tegrablBlobInit mem buff hasRoom).map fun _ => ()
    size := tegrablBlobGetSize info
    isUpdate := isUpdateType mem info
    numEntries := tegrablBlobGetNumEntries mem info
    getEntry := tegrablBlobGetEntry mem info
    getEntryData := tegrablBlobGetEntryData mem info }

def parsedRanges (buff : Nat) : List (Nat × Nat) :=
  let info := blobInfo mem buff
  (buff, 20) :: if (tegrablBlobInit mem buff true).isOk then
    [(info.header, blobHeaderSize),
      (entryAt mem info 0, tegrablBlobGetNumEntries mem info * imageEntrySize)]
  else []

def DataInside (buff low high : Nat) : Prop :=
  ∀ i < tegrablBlobGetNumEntries mem (blobInfo mem buff), ∀ data size,
    tegrablBlobGetEntryData mem (blobInfo mem buff) i = .ok (data, size) →
    low ≤ data ∧ data + size ≤ high

theorem DataInside.entryData {mem : ByteMem} {buff low high : Nat} (inside : DataInside mem buff low high)
    {hasRoom : Bool} {data size : Nat} (ofEntry : EntryData (blobAt mem buff hasRoom) data size) :
    low ≤ data ∧ data + size ≤ high := by
  obtain ⟨i, entry, length, listed, found, located, rfl⟩ := ofEntry
  have same : entry.imageSize = length := by
    cases found
    cases located
    rfl
  rw [same]
  exact inside i listed data length located

end Cboot.BlUpdate
