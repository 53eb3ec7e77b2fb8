/-
**Expanding a sparse image.**

`tegrabl_sparse_unsparse` walks over a sparse image, or over the next piece of one, and hands what it
expands to a writer and a seeker. It is a loop over a state that survives the call: which part of the
image comes next, the headers so far, and how much of the part is left.

The check value of an image is not computed in this configuration: in a chunk with it the loop goes
round without an end, and a number of rounds is seen here. A chunk header that is said to be longer
than its structure is copied over what follows the structure, which ends the model.
-/

import Cboot.Error
import Cboot.Lib.ByteMem
import Cboot.Lib.Chunks

namespace Cboot.Sparse

open Chunks

/-! ### Headers -/

def sparseHeaderMagic : BitVec 32 := 0xED26FF3A

def tegrablSparseImageCheck (buffer : ByteMem) (size : Nat) : Bool :=
  if size < 4 then false else word32 buffer 0 == sparseHeaderMagic

def imageHeaderSize : Nat := 28

def chunkHeaderSize : Nat := 12

variable (image : ByteMem)

def majorVersion : BitVec 16 := word16 image 4

def chunkHdrSz : Nat := (word16 image 10).toNat

def blkSz : BitVec 32 := word32 image 12

def totalBlks : BitVec 32 := word32 image 16

def totalChunks : Nat := (word32 image 20).toNat

def chunkType (chunk : ByteMem) : BitVec 16 := word16 chunk 0

def chunkSz (chunk : ByteMem) : BitVec 32 := word32 chunk 4

def totalSz (chunk : ByteMem) : BitVec 32 := word32 chunk 8

def sparseError (reason : ErrReason) (auxInfo : Nat) : ErrorValue := ⟨.sparse, .sparse, auxInfo, reason⟩

def tegrablSparseValidateHeader (maxUnsparseSize : Nat) : Result Unit :=
  if majorVersion image ≠ 1 then .error (sparseError .invalidVersion 0)
  else if maxUnsparseSize < (blkSz image).toNat * (totalBlks image).toNat then
    .error (sparseError .overflow 0)
  else .ok ()

inductive Part
  | imageHeader
  | chunkHeader
  | raw
  | fill
  | dontCare
  | crc
  deriving DecidableEq, Repr

def tegrablSparseValidateChunkHeader (image chunk : ByteMem) : Result Part :=
  let header := BitVec.ofNat 32 (chunkHdrSz image)
  if chunkType chunk = 0xCAC1 then
    if totalSz chunk ≠ header + chunkSz chunk * blkSz image then .error (sparseError .invalidConfig 0)
    else .ok .raw
  else if chunkType chunk = 0xCAC3 then
    if totalSz chunk ≠ header then .error (sparseError .invalidConfig 1) else .ok .dontCare
  else if chunkType chunk = 0xCAC2 then
    if totalSz chunk ≠ header + 4 then .error (sparseError .invalidConfig 2) else .ok .fill
  else if chunkType chunk = 0xCAC4 then .ok .crc
  else .error (sparseError .invalid 0)

/-! ### The loop -/

inductive Source
  | buffer (offset : Nat)
  | fill (value : BitVec 32)
  deriving DecidableEq, Repr

structure Output (τ : Type) where
  writer : Source → Nat → τ → Result Unit × τ
  seeker : Nat → τ → Result Unit × τ

structure UnsparseState where
  state : Part
  imageHeader : ByteMem
  chunkHeader : ByteMem
  offset : Nat
  remaining : Nat
  maxUnsparseSize : Nat
  fillValue : ByteMem
  chunksProcessed : Nat

def tegrablSparseInitUnsparseState (maxUnsparseSize : Nat) : Result UnsparseState :=
  if maxUnsparseSize = 0 then .error (sparseError .badParameter 0)
  else .ok { state := .imageHeader, imageHeader := fun _ => 0, chunkHeader := fun _ => 0, offset := 0,
             remaining := imageHeaderSize, maxUnsparseSize, fillValue := fun _ => 0,
             chunksProcessed := 0 }

structure Work extends UnsparseState where
  sparseBuffer : Nat
  length : Nat

inductive RoundEnd
  | next (work : Work)
  | failed (error : ErrorValue)
  | overrun

def Work.take (work : Work) (size : Nat) : Work :=
  { work with
    length := work.length - size
    offset := work.offset + size
    sparseBuffer := work.sparseBuffer + size }

def Work.toChunkHeader (work : Work) (remaining : Nat) : Work :=
  { work with state := .chunkHeader, chunkHeader := fun _ => 0, remaining, offset := 0 }

def startChunk (work : Work) : RoundEnd :=
  match tegrablSparseValidateChunkHeader work.imageHeader work.chunkHeader with
  | .error error => .failed error
  | .ok part =>
    if totalChunks work.imageHeader < work.chunksProcessed + 1 then .failed (sparseError .outOfRange 0)
    else .next { work with
      chunksProcessed := work.chunksProcessed + 1
      state := part
      offset := 0
      remaining := (chunkSz work.chunkHeader).toNat * (blkSz work.imageHeader).toNat }

section Loop

variable {τ : Type} (out : Output τ) (buff : ByteMem)

def afterOutput (result : Result Unit × τ) (work : Work) : RoundEnd × τ :=
  match result.1 with
  | .error error => (.failed (setHighestModule .sparse error), result.2)
  | .ok () => (.next work, result.2)

def sparseMaxLocalBuffer : Nat := 1024

def fillLoop (value : BitVec 32) : List (Nat × Nat) → τ → Result Unit × τ
  | [], t => (.ok (), t)
  | (_, size) :: rest, t =>
    match out.writer (.fill value) size t with
    | (.error error, t) => (.error error, t)
    | (.ok (), t) => fillLoop value rest t

variable (work : Work)

def imageHeaderRound : RoundEnd :=
  let size := min work.length work.remaining
  let work : Work := { work.take size with
    imageHeader := work.imageHeader.store work.offset (buff.load work.sparseBuffer size)
    remaining := work.remaining - size }
  if work.remaining ≠ 0 then .next work
  else match tegrablSparseValidateHeader work.imageHeader work.maxUnsparseSize with
    | .error error => .failed error
    | .ok () => .next (work.toChunkHeader (chunkHdrSz work.imageHeader))

def chunkHeaderRound : RoundEnd :=
  let size := min work.length work.remaining
  if work.offset < chunkHeaderSize ∧ chunkHeaderSize < work.offset + size then .overrun
  else
    let work : Work := { work.take size with
      chunkHeader := if work.offset < chunkHeaderSize then
        work.chunkHeader.store work.offset (buff.load work.sparseBuffer size) else work.chunkHeader
      remaining := work.remaining - size }
    if work.remaining ≠ 0 then .next work else startChunk work

def rawRound (t : τ) : RoundEnd × τ :=
  let size := min work.length work.remaining
  let next : Work := { work.take size with remaining := work.remaining - size }
  afterOutput (out.writer (.buffer work.sparseBuffer) size t)
    (if next.remaining = 0 then next.toChunkHeader chunkHeaderSize else next)

def fillRound (t : τ) : RoundEnd × τ :=
  let size := min work.length 4
  let work : Work := if work.offset < 4 then { work.take size with
    fillValue := work.fillValue.store work.offset (buff.load work.sparseBuffer size) } else work
  if work.offset < 4 then (.next work, t)
  else afterOutput (fillLoop out (word32 work.fillValue 0) (chunks sparseMaxLocalBuffer 0 work.remaining) t)
    (work.toChunkHeader chunkHeaderSize)

def round (t : τ) : RoundEnd × τ :=
  match work.state with
  | .imageHeader => (imageHeaderRound buff work, t)
  | .chunkHeader => (chunkHeaderRound buff work, t)
  | .raw => rawRound out work t
  | .fill => fillRound out buff work t
  | .dontCare => afterOutput (out.seeker work.remaining t) (work.toChunkHeader chunkHeaderSize)
  | .crc => (.next work, t)

inductive CallEnd
  | done (state : UnsparseState)
  | failed (error : ErrorValue)
  | unseen
  | overrun

def unsparseLoop : Nat → Work → τ → CallEnd × τ
  | 0, _, t => (.unseen, t)
  | rounds + 1, work, t =>
    if work.length ≠ 0 ∨ work.state = .dontCare then
      match round out buff work t with
      | (.next work, t) => unsparseLoop rounds work t
      | (.failed error, t) => (.failed error, t)
      | (.overrun, t) => (.overrun, t)
    else (.done work.toUnsparseState, t)

def tegrablSparseUnsparse (rounds : Nat) (state : UnsparseState) (length : Nat) (t : τ) : CallEnd × τ :=
  if length = 0 then (.failed (sparseError .badParameter 1), t)
  else unsparseLoop out buff rounds { state with sparseBuffer := 0, length } t

end Loop

/-! ### What a call hands out -/

section Keeps

variable {τ : Type} {out : Output τ} {buff : ByteMem} {total : Nat} {inv : τ → Prop}

structure OutputKept (out : Output τ) (buff : ByteMem) (total : Nat) (inv : τ → Prop) : Prop where
  buffer : ∀ offset size t, offset + size ≤ total → inv t → inv (out.writer (.buffer offset) size t).2
  fill : ∀ offset size t, offset + 4 ≤ total → inv t →
    inv (out.writer (.fill (word32 buff offset)) size t).2
  seek : ∀ size t, inv t → inv (out.seeker size t).2

structure Work.Inside (total : Nat) (work : Work) : Prop where
  place : work.sparseBuffer + work.length = total
  whole : work.state = .fill → work.offset = 0 ∨ work.length = 0

def RoundEnd.Inside (total : Nat) : RoundEnd → Prop
  | .next work => work.Inside total
  | _ => True

variable {work : Work}

theorem take_place {size : Nat} (inside : work.Inside total) (fits : size ≤ work.length) :
    (work.take size).sparseBuffer + (work.take size).length = total := by
  have place := inside.place
  simp only [Work.take]
  omega

theorem toChunkHeader_inside {remaining : Nat}
    (place : work.sparseBuffer + work.length = total) : (work.toChunkHeader remaining).Inside total :=
  ⟨place, nofun⟩

theorem startChunk_inside (place : work.sparseBuffer + work.length = total) :
    (startChunk work).Inside total := by
  unfold startChunk
  split
  · trivial
  · split
    · trivial
    · exact ⟨place, fun _ => .inl rfl⟩

theorem imageHeaderRound_inside (inside : work.Inside total)
    (isHeader : work.state = .imageHeader) : (imageHeaderRound buff work).Inside total := by
  have place := take_place inside (Nat.min_le_left work.length work.remaining)
  unfold imageHeaderRound
  dsimp only
  split
  · exact ⟨place, fun isFill => by cases isHeader.symm.trans isFill⟩
  · split
    · trivial
    · exact toChunkHeader_inside place

theorem chunkHeaderRound_inside (inside : work.Inside total)
    (isHeader : work.state = .chunkHeader) : (chunkHeaderRound buff work).Inside total := by
  have place := take_place inside (Nat.min_le_left work.length work.remaining)
  unfold chunkHeaderRound
  dsimp only
  split
  · trivial
  · split
    · exact ⟨place, fun isFill => by cases isHeader.symm.trans isFill⟩
    · exact startChunk_inside place

theorem afterOutput_inside {result : Result Unit × τ} (kept : inv result.2)
    (inside : work.Inside total) :
    inv (afterOutput result work).2 ∧ (afterOutput result work).1.Inside total := by
  unfold afterOutput
  split
  · exact ⟨kept, trivial⟩
  · exact ⟨kept, inside⟩

variable (kept : OutputKept out buff total inv)

include kept

theorem fillLoop_keeps {offset : Nat} (fits : offset + 4 ≤ total) (sizes : List (Nat × Nat)) (t : τ)
    (holds : inv t) : inv (fillLoop out (word32 buff offset) sizes t).2 := by
  induction sizes generalizing t with
  | nil => exact holds
  | cons first rest ih =>
    have after := kept.fill offset first.2 t fits holds
    rw [fillLoop]
    split
    · next ended =>
      rw [ended] at after
      exact after
    · next ended =>
      rw [ended] at after
      exact ih _ after

variable {t : τ}

theorem rawRound_keeps (inside : work.Inside total) (holds : inv t)
    (isRaw : work.state = .raw) :
    inv (rawRound out work t).2 ∧ (rawRound out work t).1.Inside total := by
  have place := take_place inside (Nat.min_le_left work.length work.remaining)
  have fits : work.sparseBuffer + min work.length work.remaining ≤ total := by
    have := inside.place
    omega
  refine afterOutput_inside (kept.buffer _ _ t fits holds) ?_
  split
  · exact toChunkHeader_inside place
  · exact ⟨place, fun isFill => by cases isRaw.symm.trans isFill⟩

theorem fillRound_keeps (inside : work.Inside total) (holds : inv t)
    (some_ : work.length ≠ 0) (isFill : work.state = .fill) :
    inv (fillRound out buff work t).2 ∧ (fillRound out buff work t).1.Inside total := by
  have start : work.offset = 0 := (inside.whole isFill).resolve_right some_
  have place := take_place inside (Nat.min_le_left work.length 4)
  have early : work.offset < 4 := start ▸ by decide
  unfold fillRound
  dsimp only
  rw [if_pos early]
  by_cases short : work.length < 4
  · have size : min work.length 4 = work.length := by omega
    rw [if_pos (show (work.take (min work.length 4)).offset < 4 by simp only [Work.take]; omega)]
    refine ⟨holds, place, fun _ => .inr ?_⟩
    simp only [Work.take, size, Nat.sub_self]
  · have size : min work.length 4 = 4 := by omega
    have fits : work.sparseBuffer + 4 ≤ total := by
      have := inside.place
      omega
    rw [if_neg (show ¬ (work.take (min work.length 4)).offset < 4 by simp only [Work.take]; omega)]
    have read : word32 (work.fillValue.store work.offset (buff.load work.sparseBuffer 4)) 0 =
        word32 buff work.sparseBuffer := by
      rw [start]
      rfl
    refine afterOutput_inside ?_ (toChunkHeader_inside place)
    simp only [size, read]
    exact fillLoop_keeps kept fits _ t holds

theorem round_keeps (inside : work.Inside total) (holds : inv t)
    (goesOn : work.length ≠ 0 ∨ work.state = .dontCare) :
    inv (round out buff work t).2 ∧ (round out buff work t).1.Inside total := by
  unfold round
  split
  · next isHeader => exact ⟨holds, imageHeaderRound_inside inside isHeader⟩
  · next isHeader => exact ⟨holds, chunkHeaderRound_inside inside isHeader⟩
  · next isRaw => exact rawRound_keeps kept inside holds isRaw
  · next isFill =>
    have some_ := goesOn.resolve_right fun other => by cases isFill.symm.trans other
    exact fillRound_keeps kept inside holds some_ isFill
  · exact afterOutput_inside (kept.seek _ t holds) (toChunkHeader_inside inside.place)
  · exact ⟨holds, inside⟩

theorem unsparseLoop_keeps (rounds : Nat) (inside : work.Inside total)
    (holds : inv t) : inv (unsparseLoop out buff rounds work t).2 := by
  induction rounds generalizing work t with
  | zero => exact holds
  | succ rounds ih =>
    rw [unsparseLoop]
    split
    · next goesOn =>
      have after := round_keeps kept inside holds goesOn
      split
      · next ended =>
        rw [ended] at after
        exact ih after.2 after.1
      · next ended =>
        rw [ended] at after
        exact after.1
      · next ended =>
        rw [ended] at after
        exact after.1
    · exact holds

theorem unsparse_keeps (rounds : Nat) {maxUnsparseSize : Nat} {state : UnsparseState}
    (fresh : tegrablSparseInitUnsparseState maxUnsparseSize = .ok state) (holds : inv t) :
    inv (tegrablSparseUnsparse out buff rounds state total t).2 := by
  unfold tegrablSparseUnsparse
  split
  · exact holds
  · refine unsparseLoop_keeps kept rounds ⟨Nat.zero_add total, fun isFill => ?_⟩ holds
    unfold tegrablSparseInitUnsparseState at fresh
    split at fresh
    · cases fresh
    · cases fresh
      cases isFill

end Keeps

end Cboot.Sparse
