/-
**What a read of a file places in the buffer.**

The first part runs the loops: when nothing fails, the reads are a list of copies from the device
(`placed`), made once for each index entry but with the extents of the first leaf each time. The
second part says which byte of the device a byte of the file is (`mapByte`) and compares the two.
-/

import Cboot.Ext4.Extents

namespace Cboot.Ext4

open ByteMem

/-! ### Runs of the loops -/

structure Transferred (disk : Disk) (copies : List Copy) (io io' : Io) : Prop where
  mem : io'.mem = copyAll disk.bytes io.mem copies
  writes : io'.writes = io.writes ++ copies.map fun c => (c.dest, c.len)
  failed : io'.failed = io.failed

def Extent.copy (fs : Fs) (e : Extent) : Copy := ⟨e.dest fs, fs.blockAddr e.start, e.lenBytes fs⟩

def leafTotal (fs : Fs) (extents : List Extent) : Nat :=
  (extents.foldl (ExtentCursor.next fs) ⟨0, 0, 0⟩).total

def placed (fs : Fs) (extents : List Extent) (count : Nat) : List Copy :=
  (List.range count).flatMap fun pass =>
    extents.map fun e => (e.copy fs).shift (pass * leafTotal fs extents)

def Disk.Faultless (disk : Disk) : Prop :=
  (∀ n, disk.fails n = false) ∧ ∀ n, disk.hasRoom n = true

def HasEmpty (fs : Fs) (extents : List Extent) : Prop := ∃ e ∈ extents, e.lenBytes fs = 0

section Loops

variable {fs : Fs} {disk : Disk} {io io' : Io} {root : ByteMem} {leaf : List Extent}

theorem Transferred.refl (disk : Disk) (io : Io) : Transferred disk [] io io :=
  ⟨rfl, (List.append_nil _).symm, rfl⟩

theorem Transferred.trans {copies later : List Copy} {io'' : Io}
    (first : Transferred disk copies io io') (second : Transferred disk later io' io'') :
    Transferred disk (copies ++ later) io io'' where
  mem := by rw [second.mem, first.mem, copyAll_append]
  writes := by rw [second.writes, first.writes, List.map_append, List.append_assoc]
  failed := second.failed.trans first.failed

theorem blockdevRead_cases (disk : Disk) (buf addr len : Nat) (io : Io) :
    (∃ io', tegrablBlockdevRead disk buf addr len io = (.ok (), io') ∧
        Transferred disk [⟨buf, addr, len⟩] io io') ∨
      ∃ io', tegrablBlockdevRead disk buf addr len io = (.error errGeneric, io') ∧
        io'.failed = true ∧ (disk.Faultless → len = 0) := by
  unfold tegrablBlockdevRead
  split
  · next refused =>
    refine .inr ⟨_, rfl, rfl, fun faultless => ?_⟩
    rcases refused with zero | fails
    · exact zero
    · exact absurd ((faultless.1 _).symm.trans fails) Bool.noConfusion
  · exact .inl ⟨_, rfl, rfl, rfl, rfl⟩

theorem extentLoop_cases (fs : Fs) (disk : Disk) (buf : Nat) (extents : List Extent)
    (cursor : ExtentCursor) (io : Io) :
    (∃ io', extentLoop fs disk buf extents cursor io =
          (.ok (extents.foldl (ExtentCursor.next fs) cursor), io') ∧
        Transferred disk (extents.map fun e => (e.copy fs).shift buf) io io') ∨
      ∃ io', extentLoop fs disk buf extents cursor io = (.error errGeneric, io') ∧
        io'.failed = true ∧ (disk.Faultless → HasEmpty fs extents) := by
  induction extents generalizing cursor io with
  | nil => exact .inl ⟨io, rfl, Transferred.refl disk io⟩
  | cons e rest ih =>
    rw [extentLoop]
    rcases blockdevRead_cases disk (buf + e.dest fs) (fs.blockAddr e.start) (e.lenBytes fs) io with
      ⟨mid, ran, copied⟩ | ⟨mid, ran, failed, empty⟩
    · rw [ran]
      rcases ih (cursor.next fs e) mid with ⟨io', ran', rest'⟩ | ⟨io', ran', failed, empty⟩
      · exact .inl ⟨io', ran', copied.trans rest'⟩
      · refine .inr ⟨io', ran', failed, fun faultless => ?_⟩
        obtain ⟨f, inRest, none⟩ := empty faultless
        exact ⟨f, .tail e inRest, none⟩
    · rw [ran]
      exact .inr ⟨mid, rfl, failed, fun faultless => ⟨e, .head _, empty faultless⟩⟩

theorem readExtent_cases (fs : Fs) (disk : Disk) (node : ByteMem) (buf : Nat) (io : Io) :
    (∃ io', ext4ReadExtent fs disk node buf io = (.ok (leafTotal fs (nodeExtents node)), io') ∧
        Transferred disk ((nodeExtents node).map fun e => (e.copy fs).shift buf) io io') ∨
      ∃ io', ext4ReadExtent fs disk node buf io = (.error errGeneric, io') ∧ io'.failed = true ∧
        (disk.Faultless → HasEmpty fs (nodeExtents node)) := by
  unfold ext4ReadExtent
  rcases extentLoop_cases fs disk buf (nodeExtents node) ⟨0, 0, 0⟩ io with
    ⟨io', ran, copied⟩ | ⟨io', ran, failed, empty⟩
  · rw [ran]
    exact .inl ⟨io', rfl, copied⟩
  · rw [ran]
    exact .inr ⟨io', rfl, failed, empty⟩

def IsReadError (err : Int) : Prop := err = errGeneric ∨ err = errNoMemory

theorem IsReadError.negative {err : Int} (isError : IsReadError err) : err < 0 := by
  rcases isError with rfl | rfl <;> decide

theorem readNode_cases (fs : Fs) (disk : Disk) (block : Nat) (io : Io) :
    (∃ io', readNode fs disk block io = (.ok (fs.blockAt disk.bytes block), io') ∧
        Transferred disk [] io io') ∨
      ∃ err io', readNode fs disk block io = (.error err, io') ∧ IsReadError err ∧
        io'.failed = true ∧ ¬ disk.Faultless := by
  unfold readNode
  dsimp only
  split
  · next noRoom =>
    exact .inr ⟨_, _, rfl, .inr rfl, rfl, fun faultless =>
      Bool.noConfusion (noRoom.symm.trans (faultless.2 _))⟩
  · split
    · next fails =>
      exact .inr ⟨_, _, rfl, .inl rfl, rfl, fun faultless =>
        Bool.noConfusion (fails.symm.trans (faultless.1 _))⟩
    · exact .inl ⟨_, rfl, rfl, (List.append_nil _).symm, rfl⟩

theorem indexLoop_cases (isLeaf : nodeExtents (fs.blockAt disk.bytes (leafBlock root 0)) = leaf)
    (count : Nat) (cursor : IndexCursor) (io : Io) :
    (∃ cursor' io', indexLoop fs disk root count cursor io = (.ok cursor', io') ∧
        cursor'.err = (if count = 0 then cursor.err else 0) ∧
        cursor'.total = cursor.total + count * leafTotal fs leaf ∧
        Transferred disk ((List.range count).flatMap fun pass =>
          leaf.map fun e => (e.copy fs).shift (cursor.bufPtr + pass * leafTotal fs leaf)) io io') ∨
      (indexLoop fs disk root count cursor io).2.failed = true ∧
        (disk.Faultless → HasEmpty fs leaf) := by
  induction count generalizing cursor io with
  | zero => exact .inl ⟨cursor, io, rfl, rfl, by rw [Nat.zero_mul, Nat.add_zero], .refl disk io⟩
  | succ count ih =>
    rw [indexLoop]
    rcases readNode_cases fs disk (leafBlock root 0) io with
      ⟨mid, ran, kept⟩ | ⟨err, mid, ran, -, failed, faulty⟩
    · rw [ran]
      dsimp only
      rcases readExtent_cases fs disk (fs.blockAt disk.bytes (leafBlock root 0)) cursor.bufPtr mid with
        ⟨next, ran', copied⟩ | ⟨next, ran', failed, empty⟩
      · rw [isLeaf] at ran' copied
        rw [ran']
        rcases ih (cursor.next (.ok (leafTotal fs leaf))) next with
          ⟨cursor', io', ran'', noError, total, rest⟩ | missing
        · refine .inl ⟨cursor', io', ran'', ?_, ?_, ?_⟩
          · rw [noError, if_neg (Nat.succ_ne_zero count)]
            exact ite_self 0
          · rw [total, Nat.succ_mul, Nat.add_comm (count * _), ← Nat.add_assoc]
            rfl
          · have moved : ∀ pass : Nat, cursor.bufPtr + pass.succ * leafTotal fs leaf =
                cursor.bufPtr + leafTotal fs leaf + pass * leafTotal fs leaf := by
              intro pass
              rw [Nat.succ_mul]
              omega
            rw [List.range_succ_eq_map, List.flatMap_cons, List.flatMap_map, Nat.zero_mul,
              Nat.add_zero]
            simp only [moved]
            exact (kept.trans copied).trans rest
        · exact .inr missing
      · -- The error is dropped, but the block stays missing.
        rw [isLeaf] at empty
        rw [ran']
        rcases ih (cursor.next (.error errGeneric)) next with ⟨_, io', ran'', -, -, rest⟩ | missing
        · refine .inr ⟨?_, empty⟩
          rw [ran'']
          exact rest.failed.trans failed
        · exact .inr missing
    · rw [ran]
      exact .inr ⟨failed, fun faultless => absurd faultless faulty⟩

theorem indexLoop_empty (isLeaf : nodeExtents (fs.blockAt disk.bytes (leafBlock root 0)) = [])
    (count : Nat) {cursor cursor' : IndexCursor}
    (ran : indexLoop fs disk root count cursor io = (.ok cursor', io')) :
    cursor'.total = cursor.total := by
  induction count generalizing cursor io with
  | zero => exact congrArg IndexCursor.total (Except.ok.inj (congrArg Prod.fst ran)).symm
  | succ count ih =>
    rw [indexLoop] at ran
    rcases readNode_cases fs disk (leafBlock root 0) io with
      ⟨mid, read, -⟩ | ⟨err, mid, read, -⟩
    · have nothing : ext4ReadExtent fs disk (fs.blockAt disk.bytes (leafBlock root 0)) cursor.bufPtr mid =
          (.ok 0, mid) := by
        unfold ext4ReadExtent
        rw [isLeaf]
        rfl
      rw [read] at ran
      dsimp only at ran
      rw [nothing] at ran
      have same := ih ran
      exact same
    · rw [read] at ran
      cases congrArg Prod.fst ran

theorem indexLoop_error (count : Nat) {cursor : IndexCursor} {err : Int}
    (ran : indexLoop fs disk root count cursor io = (.error err, io')) : IsReadError err := by
  induction count generalizing cursor io with
  | zero => cases congrArg Prod.fst ran
  | succ count ih =>
    rw [indexLoop] at ran
    rcases readNode_cases fs disk (leafBlock root 0) io with
      ⟨mid, read, -⟩ | ⟨err', mid, read, isError, -⟩
    · rw [read] at ran
      exact ih ran
    · rw [read] at ran
      exact Except.error.inj (congrArg Prod.fst ran) ▸ isError

end Loops

/-! ### The whole tree -/

def firstLeaf (fs : Fs) (bytes : ByteMem) (inode : Inode) : List Extent :=
  if 0 < nodeDepth inode.blocks then nodeExtents (fs.blockAt bytes (leafBlock inode.blocks 0))
  else nodeExtents inode.blocks

def passes (inode : Inode) : Nat :=
  if 0 < nodeDepth inode.blocks then nodeEntries inode.blocks else 1

def treeCopies (fs : Fs) (bytes : ByteMem) (inode : Inode) : List Copy :=
  placed fs (firstLeaf fs bytes inode) (passes inode)

def treeTotal (fs : Fs) (bytes : ByteMem) (inode : Inode) : Nat :=
  passes inode * leafTotal fs (firstLeaf fs bytes inode)

section Tree

variable {fs : Fs} {disk : Disk} {inode : Inode} {io io' : Io} {buf : Nat} {ret : Int}

theorem placed_shift (fs : Fs) (extents : List Extent) (count base : Nat) :
    (placed fs extents count).map (Copy.shift base) = (List.range count).flatMap fun pass =>
      extents.map fun e => (e.copy fs).shift (base + pass * leafTotal fs extents) := by
  unfold placed
  rw [List.map_flatMap]
  simp only [List.map_map, Function.comp_def, Copy.shift_shift]

theorem placed_one (fs : Fs) (extents : List Extent) (base : Nat) :
    (placed fs extents 1).map (Copy.shift base) =
      extents.map fun e => (e.copy fs).shift base := by
  rw [placed_shift, List.range_one, List.flatMap_singleton, Nat.zero_mul, Nat.add_zero]

theorem readData_cases (magic : nodeMagic inode.blocks = extentsMagic) (disk : Disk) (buf : Nat)
    (io : Io) :
    (∃ io', ext4ReadDataFromExtent fs disk inode buf io =
          ((treeTotal fs disk.bytes inode : Int), io') ∧
        Transferred disk ((treeCopies fs disk.bytes inode).map (Copy.shift buf)) io io') ∨
      (ext4ReadDataFromExtent fs disk inode buf io).2.failed = true ∧
        (disk.Faultless → HasEmpty fs (firstLeaf fs disk.bytes inode)) := by
  unfold ext4ReadDataFromExtent treeTotal treeCopies
  rw [if_neg (not_not_intro magic)]
  by_cases deep : 0 < nodeDepth inode.blocks
  · have isLeaf : firstLeaf fs disk.bytes inode =
        nodeExtents (fs.blockAt disk.bytes (leafBlock inode.blocks 0)) := if_pos deep
    have isCount : passes inode = nodeEntries inode.blocks := if_pos deep
    rw [if_pos deep, isCount, placed_shift]
    rcases indexLoop_cases isLeaf.symm (nodeEntries inode.blocks) ⟨buf, 0, 0, 0⟩ io with
      ⟨cursor', io', ran, noError, total, copied⟩ | ⟨failed, empty⟩
    · rw [ran]
      refine .inl ⟨io', ?_, copied⟩
      have fine : cursor'.err = 0 := noError.trans (ite_self 0)
      dsimp only
      rw [fine, if_neg (Int.lt_irrefl 0), total, Nat.zero_add]
    · refine .inr ⟨?_, empty⟩
      split
      · next err io' ran => rwa [ran] at failed
      · next cursor io' ran => rwa [ran] at failed
  · have isLeaf : firstLeaf fs disk.bytes inode = nodeExtents inode.blocks := if_neg deep
    have isCount : passes inode = 1 := if_neg deep
    rw [if_neg deep, isCount, placed_one, Nat.one_mul, isLeaf]
    rcases readExtent_cases fs disk inode.blocks buf io with
      ⟨io', ran, copied⟩ | ⟨io', ran, failed, empty⟩
    · rw [ran]
      exact .inl ⟨io', rfl, copied⟩
    · rw [ran]
      exact .inr ⟨failed, empty⟩

theorem readData_single (magic : nodeMagic inode.blocks = extentsMagic) (single : passes inode = 1)
    (ran : ext4ReadDataFromExtent fs disk inode buf io = (ret, io')) :
    (ret = treeTotal fs disk.bytes inode ∧
        Transferred disk ((treeCopies fs disk.bytes inode).map (Copy.shift buf)) io io') ∨
      IsReadError ret := by
  unfold ext4ReadDataFromExtent at ran
  unfold treeTotal treeCopies
  rw [if_neg (not_not_intro magic)] at ran
  rw [single, placed_one, Nat.one_mul]
  by_cases deep : 0 < nodeDepth inode.blocks
  · have isLeaf : firstLeaf fs disk.bytes inode =
        nodeExtents (fs.blockAt disk.bytes (leafBlock inode.blocks 0)) := if_pos deep
    have isCount : nodeEntries inode.blocks = 1 := (if_pos deep).symm.trans single
    rw [if_pos deep, isCount, indexLoop] at ran
    rw [isLeaf]
    rcases readNode_cases fs disk (leafBlock inode.blocks 0) io with
      ⟨mid, read, kept⟩ | ⟨err, mid, read, isError, -⟩
    · rw [read] at ran
      dsimp only at ran
      rcases readExtent_cases fs disk (fs.blockAt disk.bytes (leafBlock inode.blocks 0)) buf mid with
        ⟨next, read', copied⟩ | ⟨next, read', -⟩
      · rw [read', indexLoop] at ran
        obtain ⟨rfl, rfl⟩ := Prod.mk.inj ran
        refine .inl ⟨?_, kept.trans copied⟩
        show ((0 + _ : Nat) : Int) = _
        rw [Nat.zero_add]
      · rw [read', indexLoop] at ran
        have isError : errGeneric = ret := congrArg Prod.fst ran
        exact .inr (.inl isError.symm)
    · rw [read] at ran
      obtain ⟨rfl, rfl⟩ := Prod.mk.inj ran
      exact .inr isError
  · have isLeaf : firstLeaf fs disk.bytes inode = nodeExtents inode.blocks := if_neg deep
    rw [if_neg deep] at ran
    rw [isLeaf]
    rcases readExtent_cases fs disk inode.blocks buf io with
      ⟨next, read, copied⟩ | ⟨next, read, -⟩
    · rw [read] at ran
      obtain ⟨rfl, rfl⟩ := Prod.mk.inj ran
      exact .inl ⟨rfl, copied⟩
    · rw [read] at ran
      obtain ⟨rfl, rfl⟩ := Prod.mk.inj ran
      exact .inr (.inl rfl)

theorem readData_empty (magic : nodeMagic inode.blocks = extentsMagic)
    (deep : 0 < nodeDepth inode.blocks) (empty : firstLeaf fs disk.bytes inode = [])
    (ran : ext4ReadDataFromExtent fs disk inode buf io = (ret, io')) (succeeded : 0 ≤ ret) :
    ret = 0 := by
  have isLeaf : nodeExtents (fs.blockAt disk.bytes (leafBlock inode.blocks 0)) = [] :=
    (if_pos deep).symm.trans empty
  unfold ext4ReadDataFromExtent at ran
  rw [if_neg (not_not_intro magic), if_pos deep] at ran
  split at ran
  · next err mid stopped =>
    have same : err = ret := congrArg Prod.fst ran
    exact absurd (same ▸ (indexLoop_error _ stopped).negative) (Int.not_lt.mpr succeeded)
  · next cursor mid passed =>
    have same : (if cursor.err < 0 then cursor.err else (cursor.total : Int)) = ret :=
      congrArg Prod.fst ran
    split at same
    · next negative => exact absurd (same ▸ negative) (Int.not_lt.mpr succeeded)
    · rw [← same, indexLoop_empty isLeaf _ passed]
      rfl

end Tree

end Cboot.Ext4
