/-
**A sparse image and back.**

`tegrabl_sparse_add_chunk` appends a chunk to an image that grows in memory, and keeps the numbers of
blocks and chunks in the header at its start.
-/

import Cboot.Sparse.Pieces

namespace Cboot.Sparse

/-! ### The encoder -/

structure SparseState where
  buffer : ByteMem
  bufferSize : Nat
  imageSize : Nat

def imageHeaderBytes (blockSize totalBlks totalChunks : BitVec 32) : List Byte :=
  bytes32 sparseHeaderMagic ++ bytes16 1 ++ bytes16 0 ++ bytes16 28 ++ bytes16 12 ++
    bytes32 blockSize ++ bytes32 totalBlks ++ bytes32 totalChunks ++ bytes32 0

@[simp] theorem imageHeaderBytes_length (blockSize totalBlks totalChunks : BitVec 32) :
    (imageHeaderBytes blockSize totalBlks totalChunks).length = imageHeaderSize := rfl

def chunkHeaderBytes (type blocks size : BitVec 32) : List Byte :=
  bytes16 (type.setWidth 16) ++ bytes16 0 ++ bytes32 blocks ++ bytes32 size

def tegrablSparseInit (memory : Option ByteMem) (blockSize : BitVec 32) : Result SparseState :=
  if blockSize % 4096 ≠ 0 then .error (sparseError .invalid 0)
  else match memory with
    | none => .error (sparseError .noMemory 0)
    | some mem => .ok ⟨mem.store 0 (imageHeaderBytes blockSize 0 0), imageHeaderSize, 0⟩

def divCeil (n d : BitVec 32) : BitVec 32 := (n + d - 1) / d

def roundUp (n w : BitVec 32) : BitVec 32 := divCeil n w * w

def dataSize (type : BitVec 32) (data : List Byte) (writeSize blockSize : BitVec 32) :
    Result (BitVec 32) :=
  if type = 0xCAC1 then
    if data.length ≠ writeSize.toNat then .error (sparseError .invalid 0)
    else .ok (roundUp writeSize blockSize)
  else if type = 0xCAC2 ∨ type = 0xCAC4 then
    if data.length ≠ 4 then .error (sparseError .invalid 0) else .ok 4
  else if type = 0xCAC3 then
    if data.length ≠ 0 then .error (sparseError .invalid 0) else .ok 0
  else .error (sparseError .invalid 0)

def tegrablSparseAddChunk (memory : Option ByteMem) (s : SparseState) (type : BitVec 32)
    (data : List Byte) (writeSize : BitVec 32) : Result SparseState :=
  if writeSize = 0 ∨ s.bufferSize = 0 then .error (sparseError .invalid 0)
  else match dataSize type data writeSize (blkSz s.buffer) with
    | .error error => .error error
    | .ok behind => match memory with
      | none => .error (sparseError .noMemory 0)
      | some mem =>
        let size := BitVec.ofNat 32 (chunkHdrSz s.buffer) + behind
        let blocks := divCeil writeSize (blkSz s.buffer)
        let start := s.bufferSize
        let buffer := (mem.store 0 (s.buffer.load 0 start)).memset start 0 size.toNat
        let buffer := buffer.store start (chunkHeaderBytes type blocks size)
        -- total_blks and total_chunks
        let buffer := buffer.store 16 (bytes32 (totalBlks s.buffer + blocks) ++
          bytes32 (word32 s.buffer 20 + 1))
        .ok ⟨buffer.store (start + chunkHdrSz s.buffer) data, start + size.toNat,
          s.imageSize + (roundUp writeSize (blkSz s.buffer)).toNat⟩

def tegrablSparseGetBuffer (s : SparseState) : Result (ByteMem × Nat) :=
  if s.bufferSize = 0 then .error (sparseError .invalid 0) else .ok (s.buffer, s.bufferSize)

inductive Chunk
  | raw (data : List Byte)
  | fill (value : BitVec 32) (writeSize : Nat)
  | dontCare (writeSize : Nat)

namespace Chunk

def type : Chunk → BitVec 32
  | .raw _ => 0xCAC1
  | .fill _ _ => 0xCAC2
  | .dontCare _ => 0xCAC3

def data : Chunk → List Byte
  | .raw data => data
  | .fill value _ => bytes32 value
  | .dontCare _ => []

def writeSize : Chunk → Nat
  | .raw data => data.length
  | .fill _ writeSize | .dontCare writeSize => writeSize

variable (c : Chunk) (blockSize : BitVec 32)

def blocks : Nat :=
  (c.writeSize + blockSize.toNat - 1) / blockSize.toNat

def behind : Nat :=
  match c with
  | .raw _ => c.blocks blockSize * blockSize.toNat
  | .fill _ _ => 4
  | .dontCare _ => 0

def header : List Byte :=
  chunkHeaderBytes c.type (BitVec.ofNat 32 (c.blocks blockSize))
    (BitVec.ofNat 32 (chunkHeaderSize + c.behind blockSize))

def body : List Byte :=
  c.data ++ List.replicate (c.behind blockSize - c.data.length) 0

def expand : List Item :=
  match c with
  | .raw _ => (c.body blockSize).map .byte
  | .fill value _ => (repeated value (c.blocks blockSize * blockSize.toNat)).map .byte
  | .dontCare _ => [.skip (c.blocks blockSize * blockSize.toNat)]

def encode : List Byte := c.header blockSize ++ c.body blockSize

end Chunk

inductive Added (blockSize : BitVec 32) : List Chunk → SparseState → Prop
  | init {mem : ByteMem} {s : SparseState} (ok : tegrablSparseInit (some mem) blockSize = .ok s) :
      Added blockSize [] s
  | add {mem : ByteMem} {s s' : SparseState} {chunks : List Chunk} {c : Chunk}
      (added : Added blockSize chunks s)
      (ok : tegrablSparseAddChunk (some mem) s c.type c.data (BitVec.ofNat 32 c.writeSize) = .ok s') :
      Added blockSize (chunks ++ [c]) s'

def imageBytes (blockSize : BitVec 32) (chunks : List Chunk) : List Byte :=
  imageHeaderBytes blockSize (BitVec.ofNat 32 (chunks.map (·.blocks blockSize)).sum)
    (BitVec.ofNat 32 chunks.length) ++ chunks.flatMap (·.encode blockSize)

section Encoder

variable {mem : ByteMem} {before mid after new : List Byte} {n addr : Nat}

theorem load_parts (loaded : mem.load 0 n = before ++ (mid ++ after)) :
    n = before.length + (mid.length + after.length) ∧ mem.load 0 before.length = before ∧
      mem.load before.length mid.length = mid ∧
      mem.load (before.length + mid.length) after.length = after := by
  have total := congrArg List.length loaded
  simp only [ByteMem.load_length, List.length_append] at total
  rw [total, ByteMem.load_add, ByteMem.load_add, Nat.zero_add] at loaded
  obtain ⟨first, rest⟩ := List.append_inj loaded (ByteMem.load_length ..)
  obtain ⟨second, third⟩ := List.append_inj rest (ByteMem.load_length ..)
  exact ⟨total, first, second, third⟩

theorem load_splice (before : List Byte) (loaded : mem.load 0 n = before ++ (mid ++ after))
    (place : before.length = addr) (size : new.length = mid.length) :
    (mem.store addr new).load 0 n = before ++ (new ++ after) := by
  obtain ⟨rfl, first, -, third⟩ := load_parts loaded
  subst place
  rw [ByteMem.load_add, ByteMem.load_add, Nat.zero_add, ← size, ByteMem.load_store_self]
  congr 1
  · exact (ByteMem.load_congr fun i inside => ByteMem.store_outside _ _ _ _ (by omega)).trans first
  · congr 1
    rw [size]
    exact (ByteMem.load_congr fun i inside => ByteMem.store_outside _ _ _ _ (by omega)).trans third

variable {c : Chunk} {blockSize : BitVec 32}

theorem divCeil_toNat {w : BitVec 32} (positive : 0 < blockSize.toNat)
    (small : w.toNat + blockSize.toNat < 2 ^ 32) :
    (divCeil w blockSize).toNat = (w.toNat + blockSize.toNat - 1) / blockSize.toNat := by
  rw [divCeil, BitVec.toNat_udiv, BitVec.toNat_sub, BitVec.toNat_add]
  congr 1
  simp
  omega

theorem le_blocks (c : Chunk) (positive : 0 < blockSize.toNat) :
    c.writeSize ≤ c.blocks blockSize * blockSize.toNat := by
  have := Nat.div_add_mod (c.writeSize + blockSize.toNat - 1) blockSize.toNat
  have := Nat.mod_lt (c.writeSize + blockSize.toNat - 1) positive
  rw [Chunk.blocks, Nat.mul_comm]
  omega

theorem dataSize_ok {size : BitVec 32} (positive : 0 < blockSize.toNat)
    (small : c.writeSize + blockSize.toNat < 2 ^ 32)
    (ok : dataSize c.type c.data (BitVec.ofNat 32 c.writeSize) blockSize = .ok size) :
    size = BitVec.ofNat 32 (c.behind blockSize) ∧ c.data.length ≤ c.behind blockSize ∧
      divCeil (BitVec.ofNat 32 c.writeSize) blockSize = BitVec.ofNat 32 (c.blocks blockSize) := by
  have write : (BitVec.ofNat 32 c.writeSize).toNat = c.writeSize := by
    simp
    omega
  have ceil : divCeil (BitVec.ofNat 32 c.writeSize) blockSize =
      BitVec.ofNat 32 (c.blocks blockSize) := by
    rw [← BitVec.toNat_inj, divCeil_toNat positive (by omega), write, BitVec.toNat_ofNat]
    refine (Nat.mod_eq_of_lt ?_).symm
    have := Nat.div_le_self (c.writeSize + blockSize.toNat - 1) blockSize.toNat
    omega
  cases c with
  | raw data =>
    simp only [dataSize, Chunk.type, if_pos] at ok
    split at ok <;> cases ok
    refine ⟨?_, ?_, ceil⟩
    · rw [roundUp, ceil, ← BitVec.toNat_inj]
      simp [Chunk.behind]
    · exact le_blocks (.raw data) positive
  | fill value size | dontCare size =>
    cases ok
    exact ⟨rfl, le_rfl, ceil⟩

theorem imageBytes_add (blockSize : BitVec 32) (chunks : List Chunk) (c : Chunk) :
    imageBytes blockSize (chunks ++ [c]) =
      imageHeaderBytes blockSize (BitVec.ofNat 32 (chunks.map (·.blocks blockSize)).sum +
          BitVec.ofNat 32 (c.blocks blockSize)) (BitVec.ofNat 32 chunks.length + 1) ++
        (chunks.flatMap (·.encode blockSize) ++ c.encode blockSize) := by
  simp [imageBytes, BitVec.ofNat_add]

theorem load_grown {old : List Byte} {size : Nat} :
    ((mem.store 0 old).memset old.length 0 size).load 0 (old.length + size) =
      old ++ List.replicate size 0 := by
  rw [ByteMem.load_add, Nat.zero_add]
  congr 1
  · refine (ByteMem.load_congr fun i inside => ?_).trans (ByteMem.load_store_self mem 0 old)
    exact if_neg (by omega)
  · refine List.ext_getElem (by simp) fun i inside _ => ?_
    rw [ByteMem.load_getElem, List.getElem_replicate]
    exact ByteMem.memset_inside _ _ _ _ _ (by omega) (by simpa using inside)

theorem load_three {start value value' old header header' data data' pad : List Byte} {place total : Nat}
    (loaded : mem.load 0 total = (start ++ (value ++ old)) ++ (header ++ (data ++ pad)))
    (begins : (start ++ (value ++ old)).length = place) (sizeValue : value'.length = value.length)
    (sizeHeader : header'.length = header.length) (sizeData : data'.length = data.length) :
    (((mem.store place header').store start.length value').store (place + header.length) data').load 0
      total = (start ++ (value' ++ old)) ++ (header' ++ (data' ++ pad)) := by
  have first := load_splice _ loaded begins sizeHeader
  have second : ((mem.store place header').store start.length value').load 0 total = _ :=
    @load_splice _ value (old ++ (header' ++ (data ++ pad))) value' total _ start
      (by rw [first]; simp only [List.append_assoc]) rfl sizeValue
  refine (@load_splice _ data pad data' total _ (start ++ (value' ++ old) ++ header')
    (by rw [second]; simp only [List.append_assoc]) ?_ sizeData).trans (by simp only [List.append_assoc])
  simp only [List.length_append] at begins ⊢
  omega

theorem byte_of_load {bytes : List Byte} (same : mem.load 0 n = bytes) {i : Nat} (inside : i < n) :
    mem i = bytes.getD i 0 := by
  rw [← same]
  simp [ByteMem.load, inside]

theorem header_fields {blocks count : BitVec 32}
    (same : mem.load 0 imageHeaderSize = imageHeaderBytes blockSize blocks count) :
    majorVersion mem = 1 ∧ chunkHdrSz mem = chunkHeaderSize ∧ blkSz mem = blockSize ∧
      totalBlks mem = blocks ∧ word32 mem 20 = count := by
  have byte : ∀ i < 28, mem i = (imageHeaderBytes blockSize blocks count).getD i 0 :=
    fun i inside => byte_of_load same inside
  refine ⟨?_, ?_, ?_, ?_, ?_⟩
  · rw [majorVersion, word16, byte 5 (by decide), byte 4 (by decide)]
    exact append_bytes16 1
  · rw [chunkHdrSz, word16, byte 11 (by decide), byte 10 (by decide)]
    exact congrArg BitVec.toNat (append_bytes16 12)
  · rw [blkSz, word32, byte 15 (by decide), byte 14 (by decide), byte 13 (by decide), byte 12 (by decide)]
    exact append_bytes32 blockSize
  · rw [totalBlks, word32, byte 19 (by decide), byte 18 (by decide), byte 17 (by decide), byte 16 (by decide)]
    exact append_bytes32 blocks
  · rw [word32, byte 23 (by decide), byte 22 (by decide), byte 21 (by decide), byte 20 (by decide)]
    exact append_bytes32 count

theorem addChunk_content {s s' : SparseState} {blocks count : BitVec 32} {old : List Byte}
    (positive : 0 < blockSize.toNat) (small : c.writeSize + blockSize.toNat < 2 ^ 32)
    (fits : chunkHeaderSize + c.behind blockSize < 2 ^ 32)
    (loaded : s.buffer.load 0 s.bufferSize = imageHeaderBytes blockSize blocks count ++ old)
    (ok : tegrablSparseAddChunk (some mem) s c.type c.data (BitVec.ofNat 32 c.writeSize) = .ok s') :
    0 < c.writeSize ∧ s'.bufferSize = s.bufferSize + (chunkHeaderSize + c.behind blockSize) ∧
      s'.buffer.load 0 s'.bufferSize =
        imageHeaderBytes blockSize (blocks + BitVec.ofNat 32 (c.blocks blockSize)) (count + 1) ++
          (old ++ c.encode blockSize) := by
  obtain ⟨-, header, -⟩ := load_parts (loaded.trans (congrArg _ (List.append_nil old).symm))
  obtain ⟨-, isSize, isBlk, isBlocks, isCount⟩ := header_fields header
  unfold tegrablSparseAddChunk at ok
  rw [isSize, isBlk, isBlocks, isCount] at ok
  split at ok
  · cases ok
  next some_ =>
  split at ok
  · cases ok
  next size sized =>
  cases ok
  obtain ⟨rfl, within, ceil⟩ := dataSize_ok positive small sized
  have size : BitVec.ofNat 32 chunkHeaderSize + BitVec.ofNat 32 (c.behind blockSize) =
      BitVec.ofNat 32 (chunkHeaderSize + c.behind blockSize) := (BitVec.ofNat_add ..).symm
  have sizeNat : (BitVec.ofNat 32 (chunkHeaderSize + c.behind blockSize)).toNat =
      chunkHeaderSize + c.behind blockSize := by
    rw [BitVec.toNat_ofNat, Nat.mod_eq_of_lt fits]
  rw [size, sizeNat, ceil]
  refine ⟨Nat.pos_of_ne_zero fun zero => some_ (.inl (by rw [zero]; rfl)), rfl, ?_⟩
  dsimp only
  have zeros : List.replicate (chunkHeaderSize + c.behind blockSize) (0 : Byte) =
      List.replicate chunkHeaderSize 0 ++ (List.replicate c.data.length 0 ++
        List.replicate (c.behind blockSize - c.data.length) 0) := by
    rw [← List.replicate_add, Nat.add_sub_cancel' within, ← List.replicate_add]
  have parts : ∀ a b : BitVec 32, imageHeaderBytes blockSize a b ++ old =
      (imageHeaderBytes blockSize 0 0).take 16 ++ ((bytes32 a ++ bytes32 b) ++ (bytes32 0 ++ old)) :=
    fun _ _ => rfl
  have length : (imageHeaderBytes blockSize blocks count ++ old).length = s.bufferSize := by
    rw [← loaded, ByteMem.load_length]
  have grown := @load_grown mem (imageHeaderBytes blockSize blocks count ++ old)
    (chunkHeaderSize + c.behind blockSize)
  rw [length, zeros, parts] at grown
  rw [loaded, ← List.append_assoc, parts, parts]
  exact load_three grown (parts blocks count ▸ length) rfl rfl (by simp)

theorem Added.content {chunks : List Chunk} {s : SparseState} (added : Added blockSize chunks s)
    (positive : 0 < blockSize.toNat) (small : ∀ c ∈ chunks, c.writeSize + blockSize.toNat < 2 ^ 32)
    (total : (imageBytes blockSize chunks).length < 2 ^ 32) :
    s.buffer.load 0 s.bufferSize = imageBytes blockSize chunks ∧ ∀ c ∈ chunks, 0 < c.writeSize := by
  induction added with
  | init ok =>
    unfold tegrablSparseInit at ok
    split at ok <;> cases ok
    exact ⟨ByteMem.load_store_self _ 0 (imageHeaderBytes blockSize 0 0), nofun⟩
  | @add mem s s' chunks c added ok ih =>
    rw [imageBytes_add] at total ⊢
    have large : chunkHeaderSize + c.behind blockSize ≤ (c.encode blockSize).length := by
      simp [Chunk.encode, Chunk.header, Chunk.body, chunkHeaderBytes, bytes16, chunkHeaderSize]
      omega
    simp only [List.length_append, imageHeaderBytes_length] at total
    obtain ⟨loaded, some_⟩ := ih (fun c' member => small c' (List.mem_append_left _ member))
      (by rw [imageBytes, List.length_append, imageHeaderBytes_length]; omega)
    obtain ⟨positiveSize, -, content⟩ := addChunk_content positive (small c (by simp)) (by omega) loaded ok
    refine ⟨content, fun c' member => ?_⟩
    rcases List.mem_append.mp member with earlier | last
    · exact some_ c' earlier
    · exact List.mem_singleton.mp last ▸ positiveSize

end Encoder

/-! ### The decoder -/

section Decoder

variable {blockSize count : BitVec 32} {done : Nat} {s : UnsparseState} {rest : List Byte}
  {t : List Item} {c : Chunk}

structure Ready (blockSize count : BitVec 32) (done : Nat) (s : UnsparseState) : Prop where
  state : s.state = .chunkHeader
  offset : s.offset = 0
  remaining : s.remaining = chunkHeaderSize
  size : chunkHdrSz s.imageHeader = chunkHeaderSize
  block : blkSz s.imageHeader = blockSize
  total : totalChunks s.imageHeader = count.toNat
  processed : s.chunksProcessed = done

theorem chunk_fields {mem : ByteMem} (type blocks size : BitVec 32) :
    chunkType (mem.store 0 (chunkHeaderBytes type blocks size)) = type.setWidth 16 ∧
      chunkSz (mem.store 0 (chunkHeaderBytes type blocks size)) = blocks ∧
      totalSz (mem.store 0 (chunkHeaderBytes type blocks size)) = size := by
  have byte : ∀ i < 12, mem.store 0 (chunkHeaderBytes type blocks size) i =
      (chunkHeaderBytes type blocks size).getD i 0 := fun i inside => if_pos ⟨Nat.zero_le _, by
    rw [Nat.zero_add]
    exact inside⟩
  refine ⟨?_, ?_, ?_⟩
  · rw [chunkType, word16, byte 1 (by decide), byte 0 (by decide)]
    exact append_bytes16 _
  · rw [chunkSz, word32, byte 7 (by decide), byte 6 (by decide), byte 5 (by decide), byte 4 (by decide)]
    exact append_bytes32 blocks
  · rw [totalSz, word32, byte 11 (by decide), byte 10 (by decide), byte 9 (by decide), byte 8 (by decide)]
    exact append_bytes32 size

theorem consume_part {s' : UnsparseState} {bytes : List Byte} {u : List Item}
    (goesOn : bytes ≠ [] ∨ s.state = .dontCare) (whole : bytes.length = want s)
    (took : taking s bytes t = (some (.ok s'), u)) (rounds : Nat) :
    consume (rounds + 1) s (bytes ++ rest) t = consume rounds s' rest u := by
  rw [consume, if_pos (goesOn.imp_left fun some_ => by simp [some_]), ← whole, List.take_left,
    List.drop_left, took]

def Chunk.part : Chunk → Part
  | .raw _ => .raw
  | .fill _ _ => .fill
  | .dontCare _ => .dontCare

theorem taking_header (ready : Ready blockSize count done s) (more : done < count.toNat)
    (small : c.blocks blockSize < 2 ^ 32) :
    ∃ s', taking s (c.header blockSize) t = (some (.ok s'), t) ∧ s'.state = c.part ∧
      s'.offset = 0 ∧ s'.remaining = c.blocks blockSize * blockSize.toNat ∧
      Ready blockSize count (done + 1) (s'.toHeader chunkHeaderSize) := by
  obtain ⟨isType, isBlocks, isSize⟩ := @chunk_fields s.chunkHeader c.type
    (BitVec.ofNat 32 (c.blocks blockSize)) (BitVec.ofNat 32 (chunkHeaderSize + c.behind blockSize))
  have accepted : tegrablSparseValidateChunkHeader s.imageHeader
      (s.chunkHeader.store 0 (c.header blockSize)) = .ok c.part := by
    rw [Chunk.header, tegrablSparseValidateChunkHeader, isType, isBlocks, isSize, ready.size,
      ready.block]
    cases c with
    | raw data => simp [Chunk.type, Chunk.part, Chunk.behind, BitVec.ofNat_add, BitVec.ofNat_mul]
    | fill value size | dontCare size => rfl
  have blocks : (BitVec.ofNat 32 (c.blocks blockSize)).toNat = c.blocks blockSize := by
    rw [BitVec.toNat_ofNat, Nat.mod_eq_of_lt small]
  have length : (c.header blockSize).length = chunkHeaderSize := rfl
  change chunkSz (s.chunkHeader.store 0 (c.header blockSize)) = _ at isBlocks
  generalize c.header blockSize = bytes at *
  refine ⟨{ s with
    chunkHeader := s.chunkHeader.store 0 bytes
    chunksProcessed := s.chunksProcessed + 1
    state := c.part
    offset := 0
    remaining := (chunkSz (s.chunkHeader.store 0 bytes)).toNat * (blkSz s.imageHeader).toNat }, ?_,
    rfl, rfl, by rw [isBlocks, blocks, ready.block], rfl, rfl, rfl, ready.size, ready.block,
    ready.total, by rw [← ready.processed]; rfl⟩
  have room : ¬count.toNat < done + 1 := by omega
  simp [taking, UnsparseState.got, ready.state, ready.offset, ready.remaining, length,
    UnsparseState.startChunk, accepted, ready.total, ready.processed, room, chunkHeaderSize]

theorem consume_chunk (ready : Ready blockSize count done s) (more : done < count.toNat)
    (positive : 0 < blockSize.toNat) (some_ : 0 < c.writeSize)
    (small : c.writeSize + blockSize.toNat < 2 ^ 32) (rounds : Nat) :
    ∃ s', consume (rounds + 2) s (c.encode blockSize ++ rest) t =
        consume rounds s' rest (t ++ c.expand blockSize) ∧
      Ready blockSize count (done + 1) s' := by
  have few : c.blocks blockSize < 2 ^ 32 := by
    have := Nat.div_le_self (c.writeSize + blockSize.toNat - 1) blockSize.toNat
    unfold Chunk.blocks
    omega
  obtain ⟨s', took, part, offset, remaining, ready'⟩ := taking_header ready more few (t := t)
  have goes : ∀ s'' : UnsparseState, s''.imageHeader = s'.imageHeader →
      s''.chunksProcessed = s'.chunksProcessed →
      Ready blockSize count (done + 1) (s''.toHeader chunkHeaderSize) := fun s'' image processed =>
    ⟨rfl, rfl, rfl, image ▸ ready'.size, image ▸ ready'.block, image ▸ ready'.total,
      processed.trans ready'.processed⟩
  have first := @consume_part s (c.body blockSize ++ rest) t s' _ t
    (.inl (by simp [Chunk.header, chunkHeaderBytes, bytes16]))
    (by simp [want, ready.state, ready.remaining]; rfl)
    took (rounds + 1)
  rw [Chunk.encode, List.append_assoc, first]
  cases c with
  | raw data =>
    have within : data.length ≤ Chunk.blocks (.raw data) blockSize * blockSize.toNat :=
      le_blocks (.raw data) positive
    have length : (Chunk.body (.raw data) blockSize).length = s'.remaining := by
      rw [remaining]
      simp [Chunk.body, Chunk.data, Chunk.behind]
      omega
    refine ⟨_, consume_part (.inl fun empty => ?_) (by simp [want, part, Chunk.part, length]) ?_ rounds,
      goes (s'.got (Chunk.body (.raw data) blockSize)) ?_ ?_⟩
    · rw [empty] at length
      have : 0 < data.length := some_
      simp at length
      omega
    · simp [taking, part, Chunk.part, UnsparseState.got, length, Chunk.expand]
    · simp [UnsparseState.got, part, Chunk.part]
    · simp [UnsparseState.got, part, Chunk.part]
  | fill value size =>
    have isBody : Chunk.body (.fill value size) blockSize = bytes32 value := by
      simp [Chunk.body, Chunk.data, Chunk.behind]
    rw [isBody]
    refine ⟨_, consume_part (.inl (by simp [bytes32])) (by simp [want, part, offset, Chunk.part]) ?_ rounds,
      goes (s'.got (bytes32 value)) ?_ ?_⟩
    · simp [taking, part, offset, Chunk.part, UnsparseState.got, word32_store, remaining, Chunk.expand]
    · simp [UnsparseState.got, part, Chunk.part]
    · simp [UnsparseState.got, part, Chunk.part]
  | dontCare size =>
    refine ⟨_, consume_part (.inr part) (by simp [want, part, Chunk.part]; rfl) ?_ rounds, ready'⟩
    simp [taking, part, Chunk.part, remaining, Chunk.expand]

theorem consume_chunks {chunks : List Chunk} (positive : 0 < blockSize.toNat)
    (some_ : ∀ c ∈ chunks, 0 < c.writeSize)
    (small : ∀ c ∈ chunks, c.writeSize + blockSize.toNat < 2 ^ 32)
    (ready : Ready blockSize count done s) (enough : done + chunks.length ≤ count.toNat) :
    ∃ last, consume (2 * chunks.length + 1) s (chunks.flatMap (·.encode blockSize)) t =
      (.done last, t ++ chunks.flatMap (·.expand blockSize)) := by
  induction chunks generalizing done s t with
  | nil => exact ⟨s, by simp [consume, ready.state]⟩
  | cons c chunks ih =>
    rw [List.length_cons] at enough
    obtain ⟨s', first, ready'⟩ := @consume_chunk blockSize count done s
      (chunks.flatMap (·.encode blockSize)) t c ready (by omega) positive (some_ c (by simp))
      (small c (by simp)) (2 * chunks.length + 1)
    obtain ⟨last, others⟩ := @ih _ s' (t ++ c.expand blockSize)
      (fun d member => some_ d (.tail _ member))
      (fun d member => small d (.tail _ member)) ready' (by omega)
    refine ⟨last, ?_⟩
    rw [List.flatMap_cons, List.flatMap_cons, ← List.append_assoc, ← others, ← first]
    rfl

theorem taking_image {blocks : BitVec 32} {limit : Nat} {first : UnsparseState}
    (enough : blockSize.toNat * blocks.toNat ≤ limit)
    (fresh : tegrablSparseInitUnsparseState limit = .ok first) :
    (imageHeaderBytes blockSize blocks count).length = want first ∧
      ∃ s', taking first (imageHeaderBytes blockSize blocks count) t = (some (.ok s'), t) ∧
        Ready blockSize count 0 s' := by
  unfold tegrablSparseInitUnsparseState at fresh
  split at fresh <;> cases fresh
  obtain ⟨version, size, block, total, chunks⟩ := header_fields
    (ByteMem.load_store_self (fun _ => 0) 0 (imageHeaderBytes blockSize blocks count))
  have accepted : tegrablSparseValidateHeader (ByteMem.store (fun _ => 0) 0
      (imageHeaderBytes blockSize blocks count)) limit = .ok () := by
    rw [tegrablSparseValidateHeader, version, block, total, if_neg (by simp), if_neg (by omega)]
  generalize isBytes : imageHeaderBytes blockSize blocks count = bytes at *
  have length : bytes.length = imageHeaderSize := isBytes ▸ rfl
  refine ⟨length, _, by simp only [taking, UnsparseState.got, length, Nat.sub_self, accepted]; rfl, ?_⟩
  exact ⟨rfl, rfl, size, size, block, congrArg BitVec.toNat chunks, rfl⟩

theorem length_le_encoded (size : BitVec 32) (chunks : List Chunk) :
    chunks.length ≤ (chunks.flatMap (·.encode size)).length := by
  induction chunks with
  | nil => simp
  | cons c chunks ih =>
    simp [Chunk.encode, Chunk.header, chunkHeaderBytes] at ih ⊢
    omega

/-- **The round trip.** An image that was built from chunks is accepted in one call, and its expansion
is what the chunks stand for. -/
theorem round_trip {chunks : List Chunk} {image : SparseState} {limit size : Nat} {buffer : ByteMem}
    {first : UnsparseState} (positive : 0 < blockSize.toNat) (added : Added blockSize chunks image)
    (small : ∀ c ∈ chunks, c.writeSize + blockSize.toNat < 2 ^ 32)
    (total : (imageBytes blockSize chunks).length < 2 ^ 32)
    (got : tegrablSparseGetBuffer image = .ok (buffer, size))
    (enough : (chunks.map (·.blocks blockSize)).sum * blockSize.toNat ≤ limit)
    (fresh : tegrablSparseInitUnsparseState limit = .ok first) :
    ∃ rounds last, tegrablSparseUnsparse (record buffer) buffer rounds first size [] =
      (.done last, chunks.flatMap (·.expand blockSize)) := by
  obtain ⟨content, some_⟩ := added.content positive small total
  have few : chunks.length < 2 ^ 32 := by
    refine Nat.lt_of_le_of_lt (Nat.le_trans (length_le_encoded blockSize chunks) ?_) total
    rw [imageBytes, List.length_append]
    exact Nat.le_add_left ..
  have count : (BitVec.ofNat 32 chunks.length).toNat = chunks.length := by
    rw [BitVec.toNat_ofNat, Nat.mod_eq_of_lt few]
  have room : blockSize.toNat * (BitVec.ofNat 32 (chunks.map (·.blocks blockSize)).sum).toNat
      ≤ limit := by
    refine Nat.le_trans ?_ enough
    rw [Nat.mul_comm, BitVec.toNat_ofNat]
    exact Nat.mul_le_mul_right _ (Nat.mod_le ..)
  have sound := (init_sound fresh).1
  obtain ⟨whole, s, took, ready⟩ := @taking_image blockSize (BitVec.ofNat 32 chunks.length) [] _ limit
    first room fresh
  unfold tegrablSparseGetBuffer at got
  split at got <;> cases got
  next nonzero =>
  obtain ⟨last, decoded⟩ := @consume_chunks blockSize _ 0 s [] chunks positive some_ small ready
    (by omega)
  refine ⟨2 * chunks.length + 2, last, ?_⟩
  rw [tegrablSparseUnsparse, if_neg nonzero, loop_consume _ sound]
  dsimp only
  rw [content, imageBytes, consume_part (.inl (List.ne_nil_of_length_pos (by simp [imageHeaderSize]))) whole
    took, decoded]
  rfl

/-- A word and a skip. -/
theorem word_and_skip_trip : ∃ image buffer size first rounds last,
    Added 4096 [.fill 7 1, .dontCare 4097] image ∧
      tegrablSparseGetBuffer image = .ok (buffer, size) ∧
      tegrablSparseInitUnsparseState 12288 = .ok first ∧
      tegrablSparseUnsparse (record buffer) buffer rounds first size [] =
        (.done last, (repeated 7 4096).map .byte ++ [.skip 8192]) := by
  have word := @Added.add 4096 (fun _ => 9) _ _ [] (.fill 7 1) (@Added.init 4096 (fun _ => 9) _ rfl) rfl
  have added := @Added.add 4096 (fun _ => 9) _ _ _ (.dontCare 4097) word rfl
  obtain ⟨rounds, last, same⟩ := @round_trip 4096 _ _ 12288 _ _ _ (by decide) added (by decide)
    (by decide) rfl (by decide) rfl
  exact ⟨_, _, _, _, rounds, last, added, rfl, rfl, same⟩

end Decoder

end Cboot.Sparse
