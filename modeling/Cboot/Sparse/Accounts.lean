/-
**What a chunk takes from the image.**

The variable `offset` counts the bytes taken for a header, or for what follows it. The header of the
first chunk has the size that the image header states, every other one the size of the structure; the
size of a raw chunk is compared in 32 bits and followed in 64; and for a word to be repeated that is
cut, up to four bytes are taken again.
-/

import Cboot.Sparse.Rounds

namespace Cboot.Sparse

def headerSize (image : ByteMem) (number : Nat) : Nat :=
  if number = 0 then chunkHdrSz image else chunkHeaderSize

def chunkBytes (image chunk : ByteMem) : Nat := (chunkSz chunk).toNat * (blkSz image).toNat

def taken (work next : Work) : Nat := work.offset + (work.length - next.length)

section Accounts

variable {τ : Type} {out : Output τ} {buff : ByteMem} {work next : Work} {t u : τ}

structure UnsparseState.Counts (s : UnsparseState) : Prop where
  image : s.state = .imageHeader → s.chunksProcessed = 0
  header : s.state = .chunkHeader →
    s.offset + s.remaining = headerSize s.imageHeader s.chunksProcessed
  some_ : s.state.InChunk → 0 < s.chunksProcessed
  valid : s.state.InChunk → tegrablSparseValidateChunkHeader s.imageHeader s.chunkHeader = .ok s.state
  raw : s.state = .raw → s.offset + s.remaining = chunkBytes s.imageHeader s.chunkHeader
  fill : s.state = .fill → s.offset < 4
  skip : s.state = .dontCare → s.offset = 0

theorem toChunkHeader_counts (some_ : 0 < work.chunksProcessed) :
    (work.toChunkHeader chunkHeaderSize).Counts := by
  refine ⟨nofun, fun _ => ?_, False.elim, False.elim, nofun, nofun, nofun⟩
  simp [headerSize, Work.toChunkHeader, Nat.ne_of_gt some_]

theorem startChunk_counts (ran : startChunk work = .next next) : next.Counts := by
  unfold startChunk at ran
  split at ran
  · cases ran
  · next part ok =>
    split at ran <;> cases ran
    have inChunk := (validateChunkHeader_ok ok).1
    refine ⟨fun is => ?_, fun is => ?_, fun _ => Nat.succ_pos _, fun _ => ok,
      fun _ => Nat.zero_add _, fun _ => Nat.succ_pos 3, fun _ => rfl⟩
    · simp [show part = _ from is, Part.InChunk] at inChunk
    · simp [show part = _ from is, Part.InChunk] at inChunk

theorem round_counts (counts : work.Counts) (ran : round out buff work t = (.next next, u)) :
    next.Counts ∧ next.offset = if next.state = work.state then taken work next else 0 := by
  unfold round at ran
  cases part : work.state <;> simp only [part] at ran
  case imageHeader =>
    unfold imageHeaderRound at ran
    dsimp only at ran
    split at ran
    · cases ran
      constructor
      · constructor <;> simp [Work.take, part, Part.InChunk, counts.image part]
      · simp [Work.take, part, taken]
        omega
    · split at ran <;> cases ran
      refine ⟨⟨by rintro ⟨⟩, fun _ => ?_, False.elim, False.elim, by rintro ⟨⟩, by rintro ⟨⟩,
        by rintro ⟨⟩⟩, rfl⟩
      simp [headerSize, Work.toChunkHeader, Work.take, counts.image part]
  case chunkHeader =>
    have whole := counts.header part
    unfold chunkHeaderRound at ran
    dsimp only at ran
    split at ran
    · cases ran
    split at ran
    · cases ran
      constructor
      · constructor <;> simp [Work.take, part, Part.InChunk]
        omega
      · simp [Work.take, part, taken]
        omega
    · have ended := (Prod.mk.inj ran).1
      obtain ⟨-, start, inChunk, -⟩ := startChunk_next ended
      refine ⟨startChunk_counts ended, start.trans (if_neg fun is => ?_).symm⟩
      simp [is, Part.InChunk] at inChunk
  case raw =>
    have whole := counts.raw part
    have some_ := counts.some_ (by simp [part, Part.InChunk])
    have valid := counts.valid (by simp [part, Part.InChunk])
    obtain ⟨-, rfl⟩ := afterOutput_next ran
    split
    · exact ⟨toChunkHeader_counts some_, rfl⟩
    · constructor
      · constructor <;> simp [Work.take, part, some_, part ▸ valid]
        omega
      · simp [Work.take, part, taken]
        omega
  case fill =>
    have some_ := counts.some_ (by simp [part, Part.InChunk])
    have valid := counts.valid (by simp [part, Part.InChunk])
    simp only [fillRound, if_pos (counts.fill part)] at ran
    split at ran
    · next early =>
      cases ran
      constructor
      · constructor <;> simp [Work.take, part, some_, part ▸ valid]
        exact early
      · simp [Work.take, part, taken]
        omega
    · obtain ⟨-, rfl⟩ := afterOutput_next ran
      exact ⟨toChunkHeader_counts some_, rfl⟩
  case dontCare =>
    obtain ⟨-, rfl⟩ := afterOutput_next ran
    exact ⟨toChunkHeader_counts (counts.some_ (by simp [part, Part.InChunk])), rfl⟩
  case crc =>
    cases ran
    exact ⟨counts, by simp [part, taken]⟩

theorem validateChunkHeader_totalSz {image chunk : ByteMem} {part : Part}
    (ok : tegrablSparseValidateChunkHeader image chunk = .ok part) :
    (part = .raw → (totalSz chunk).toNat = (chunkHdrSz image + chunkBytes image chunk) % 2 ^ 32) ∧
      (part = .fill → (totalSz chunk).toNat = chunkHdrSz image + 4) ∧
      (part = .dontCare → (totalSz chunk).toNat = chunkHdrSz image) := by
  have small : chunkHdrSz image < 2 ^ 16 := (word16 image 10).isLt
  unfold tegrablSparseValidateChunkHeader at ok
  dsimp only at ok
  split_ifs at ok with raw total skip total fill total crc <;> cases ok
  · refine ⟨fun _ => ?_, nofun, nofun⟩
    simp [not_not.mp total, chunkBytes, BitVec.toNat_add, BitVec.toNat_mul]
  · refine ⟨nofun, nofun, fun _ => ?_⟩
    rw [not_not.mp total, BitVec.toNat_ofNat]
    omega
  · refine ⟨nofun, fun _ => ?_, nofun⟩
    rw [not_not.mp total, BitVec.toNat_add, BitVec.toNat_ofNat]
    show (_ + 4) % 2 ^ 32 = _
    omega
  · exact ⟨nofun, nofun, nofun⟩

/-- The header of the chunk has the size that is stated, the size of a raw chunk does not wrap, and a
word is not cut, or the piece ends with it. -/
structure Work.Plain (work : Work) : Prop where
  header : work.chunksProcessed = 1 ∨ chunkHdrSz work.imageHeader = chunkHeaderSize
  raw : work.state = .raw →
    chunkHdrSz work.imageHeader + chunkBytes work.imageHeader work.chunkHeader < 2 ^ 32
  fill : work.state = .fill → work.offset = 0 ∨ work.offset + work.length = 4

def Work.Exact (work next : Work) : Prop :=
  headerSize work.imageHeader (work.chunksProcessed - 1) = chunkHdrSz work.imageHeader ∧
    chunkHdrSz work.imageHeader + taken work next = (totalSz work.chunkHeader).toNat

theorem fill_whole (isFill : work.state = .fill) (before : work.offset < 4)
    (ran : round out buff work t = (.next next, u)) (ends : next.state = .chunkHeader) :
    4 ≤ work.offset + work.length := by
  by_contra short
  simp only [round, isFill, fillRound, if_pos before] at ran
  rw [if_pos (by simp only [Work.take]; omega)] at ran
  cases ran
  cases isFill.symm.trans ends

theorem exact_iff (counts : work.Counts) (inChunk : work.state.InChunk)
    (ran : round out buff work t = (.next next, u)) (ends : next.state = .chunkHeader) :
    (work.Exact next ↔ work.Plain) ∧ (work.state = .raw →
      taken work next = chunkBytes work.imageHeader work.chunkHeader) := by
  have size : headerSize work.imageHeader (work.chunksProcessed - 1) = chunkHdrSz work.imageHeader ↔
      work.chunksProcessed = 1 ∨ chunkHdrSz work.imageHeader = chunkHeaderSize := by
    have := counts.some_ inChunk
    unfold headerSize
    split <;> omega
  have total := validateChunkHeader_totalSz (counts.valid inChunk)
  have small : (totalSz work.chunkHeader).toNat < 2 ^ 32 := (totalSz work.chunkHeader).isLt
  unfold Work.Exact taken
  cases round_took ran with
  | headerPart other => exact absurd inChunk other
  | imageHeader was | chunkHeader was => simp [was, Part.InChunk] at inChunk
  | rawPart was is | fillPart was is => cases is.symm.trans ends
  | crc was same => cases (same ▸ was).symm.trans ends
  | raw was is whole used =>
    have data := counts.raw was
    have stated := total.1 was
    refine ⟨⟨fun exact_ => ⟨size.mp exact_.1, fun _ => by omega, by simp [was]⟩, fun plain =>
      ⟨size.mpr plain.header, ?_⟩⟩, fun _ => by omega⟩
    have := plain.raw was
    omega
  | fill was is used =>
    have before := counts.fill was
    have stated := total.2.1 was
    have enough := fill_whole was before ran ends
    rw [if_pos before] at used
    refine ⟨⟨fun exact_ => ⟨size.mp exact_.1, by simp [was], fun _ => by omega⟩, fun plain =>
      ⟨size.mpr plain.header, ?_⟩⟩, by simp [was]⟩
    have := plain.fill was
    omega
  | dontCare was is used =>
    have start := counts.skip was
    have stated := total.2.2 was
    exact ⟨⟨fun exact_ => ⟨size.mp exact_.1, by simp [was], by simp [was]⟩, fun plain =>
      ⟨size.mpr plain.header, by omega⟩⟩, by simp [was]⟩

structure Work.Sticks (work : Work) : Prop where
  header : work.state = .chunkHeader
  first : work.chunksProcessed = 0
  long : chunkHeaderSize < chunkHdrSz work.imageHeader
  inside : work.offset < chunkHeaderSize
  past : chunkHeaderSize < work.offset + work.length

theorem afterOutput_ne_overrun (result : Result Unit × τ) :
    (afterOutput result work).1 ≠ .overrun := by
  unfold afterOutput
  split <;> nofun

theorem startChunk_ne_overrun : startChunk work ≠ .overrun := by
  unfold startChunk
  split
  · nofun
  · split <;> nofun

theorem round_overrun (ran : (round out buff work t).1 = .overrun) :
    work.state = .chunkHeader ∧ work.offset < chunkHeaderSize ∧
      chunkHeaderSize < work.offset + min work.length work.remaining := by
  unfold round at ran
  cases part : work.state <;> simp only [part] at ran
  case imageHeader =>
    unfold imageHeaderRound at ran
    dsimp only at ran
    split at ran
    · cases ran
    · split at ran <;> cases ran
  case chunkHeader =>
    unfold chunkHeaderRound at ran
    dsimp only at ran
    split at ran
    · next past => exact ⟨rfl, past⟩
    · split at ran
      · cases ran
      · exact absurd ran startChunk_ne_overrun
  case fill =>
    simp only [fillRound] at ran
    generalize (if work.offset < 4 then _ else work) = read at ran
    split at ran
    · cases ran
    · exact absurd ran (afterOutput_ne_overrun _)
  case crc => cases ran
  all_goals exact absurd ran (afterOutput_ne_overrun _)

theorem overrun_iff (counts : work.Counts) :
    (round out buff work t).1 = .overrun ↔ work.Sticks := by
  constructor
  · intro ran
    obtain ⟨isHeader, inside, past⟩ := round_overrun ran
    have whole := counts.header isHeader
    unfold headerSize at whole
    split at whole
    · next first => exact ⟨isHeader, first, by omega, inside, by omega⟩
    · omega
  · intro sticks
    have whole := counts.header sticks.header
    rw [headerSize, if_pos sticks.first] at whole
    have long := sticks.long
    have past := sticks.past
    simp only [round, sticks.header, chunkHeaderRound]
    rw [if_pos ⟨sticks.inside, by omega⟩]

end Accounts

theorem Run.counts {τ : Type} {out : ByteMem → Output τ} {first : UnsparseState} {start t : τ}
    {buff : ByteMem} {work : Work} {promised limit : Nat}
    (fresh : tegrablSparseInitUnsparseState limit = .ok first)
    (run : Run out first start buff work t promised) : work.Counts := by
  induction run with
  | first =>
    unfold tegrablSparseInitUnsparseState at fresh
    split at fresh <;> cases fresh
    exact ⟨fun _ => rfl, nofun, False.elim, False.elim, nofun, nofun, nofun⟩
  | round _ goes ih => exact (round_counts ih goes.2).1
  | call _ _ _ ih => exact ih

end Cboot.Sparse
