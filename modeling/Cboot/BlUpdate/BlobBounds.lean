/-
**What bounds a payload.**

`tegrabl_check_and_update_bl_payload` gets the size of the buffer, and `tegrabl_blob_init` reads the
size of a blob in a partition. Neither protects the memory around it: the size that the payload
states is never compared, and `blob_decompress` gives the whole output buffer as the room behind the
header it has copied.
-/

import Cboot.BlUpdate.Complete
import Cboot.BlUpdate.Nvblob

namespace Cboot.BlUpdate

open PartitionManager

/-! ### A payload in a buffer -/

section Buffer

variable {σ : Type} {cbs : Callbacks σ} {mem : ByteMem} {buff size : Nat} {hasRoom : Bool}

def statedSize (mem : ByteMem) (buff : Nat) : Nat :=
  (word32 mem ((blobInfo mem buff).header + 20)).toNat

def InBuffer (buff size start length : Nat) : Prop := buff ≤ start ∧ start + length ≤ buff + size

instance (buff size start length : Nat) : Decidable (InBuffer buff size start length) :=
  inferInstanceAs (Decidable (_ ∧ _))

structure Contained (blob : Blob) (mem : ByteMem) (buff size : Nat) : Prop where
  complete : statedSize mem buff ≤ size
  entries : ∀ i < blob.numEntries,
    InBuffer buff size (entryAt mem (blobInfo mem buff) i) imageEntrySize
  data : ∀ start length, EntryData blob start length → InBuffer buff size start length

/-- A payload that states more than the buffer holds is rejected, and of one that is accepted the
entries and the data that is written are in the buffer. -/
structure Vetted (cbs : Callbacks σ) (blob : Blob) (mem : ByteMem) (buff size : Nat) : Prop where
  short : size < statedSize mem buff → asks cbs blob size = false
  entries : asks cbs blob size = true → ∀ i < blob.numEntries,
    InBuffer buff size (entryAt mem (blobInfo mem buff) i) imageEntrySize
  data : asks cbs blob size = true → ∀ start length, EntryData blob start length →
    InBuffer buff size start length

theorem asks_iff : asks cbs (blobAt mem buff hasRoom) size = true ↔
    (tegrablBlobInit mem buff hasRoom).isOk ∧ (cbs.verifyPayload.getD (.ok ())).isOk ∧
      isUpdateType mem (blobInfo mem buff) = true := by
  unfold asks
  dsimp only [blobAt, tegrablBlobGetSize]
  cases tegrablBlobInit mem buff hasRoom with
  | error e => simp [Except.map, Result.isOk]
  | ok info => cases cbs.verifyPayload.getD (.ok ()) <;> simp [Except.map, Result.isOk]

def shortPayload : ByteMem := ByteMem.store (fun _ => 0) 0 (updateMagic ++ bytes32 2 ++
  bytes32 0x1010 ++ bytes32 48 ++ bytes32 1 ++ List.replicate 16 0 ++ [0x78] ++
  List.replicate 39 0 ++ bytes32 0x1000 ++ bytes32 16)

end Buffer

/-! ### A compressed blob in a partition -/

section Compressed

variable {mem : ByteMem} {header : Nat}

def blobDataSize (mem : ByteMem) (header : Nat) : Result (BitVec 32) :=
  if mem.load header 20 = signedUpdateMagic then
    .ok (word32 mem (header + 20) + word32 mem (header + 24) + 28)
  else if mem.load header 16 = updateMagic then .ok (word32 mem (header + 20))
  else tegrablError .nvblob .invalid 0

def decompressorList : List (Byte × Byte) :=
  [(0x1F, 0x8B), (0x5A, 0x56), (0x02, 0x21), (0x04, 0x22)]

def isCompressedContent (mem : ByteMem) (headBuf : Nat) : Bool :=
  decompressorList.any fun magic => magic.1 == mem headBuf && magic.2 == mem (headBuf + 1)

/-- What `blob_decompress` asks for: the size of the output buffer, the bytes it copies to its start,
and the sizes it gives to the decompressor. -/
structure Decompression where
  outbuf : BitVec 32
  copied : BitVec 32
  readSize : BitVec 32
  capacity : BitVec 32
  deriving DecidableEq

def entriesOffset (mem : ByteMem) (header : Nat) : BitVec 32 := word32 mem (header + 24)

def blobDecompress (mem : ByteMem) (header : Nat) (hdrSize dataSize : BitVec 32) : Decompression :=
  let outbufSize := if entriesOffset mem header = 36 then 60 * 1024 * 1024 else word32 mem (header + 36)
  ⟨outbufSize, hdrSize, dataSize - hdrSize, outbufSize⟩

def blobInitDecompress (mem : ByteMem) (header : Nat) : Option Decompression :=
  match blobDataSize mem header with
  | .error _ => none
  | .ok dataSize =>
    if isCompressedContent mem (header + (entriesOffset mem header).toNat) then
      some (blobDecompress mem header (entriesOffset mem header) dataSize)
    else none

theorem magic_not_compressed {dataSize : BitVec 32} (blob : blobDataSize mem header = .ok dataSize) :
    isCompressedContent mem header = false := by
  have start (n : Nat) (bytes : List Byte) (loaded : mem.load header (n + 2) = bytes) :
      mem header = bytes.getD 0 0 ∧ mem (header + 1) = bytes.getD 1 0 := by
    subst loaded
    simp [ByteMem.load, List.getD]
  unfold isCompressedContent
  unfold blobDataSize at blob
  split at blob
  · next signed =>
    obtain ⟨first, second⟩ := start 18 _ signed
    rw [first, second]
    decide
  · split at blob
    · next plain =>
      obtain ⟨first, second⟩ := start 14 _ plain
      rw [first, second]
      decide
    · cases blob

def compressedBlob : ByteMem := ByteMem.store (fun _ => 0) 0 (updateMagic ++ bytes32 2 ++
  bytes32 100 ++ bytes32 48 ++ bytes32 1 ++ bytes32 0 ++ bytes32 4096 ++ List.replicate 8 0 ++
  [0x1F, 0x8B])

end Compressed

end Cboot.BlUpdate
