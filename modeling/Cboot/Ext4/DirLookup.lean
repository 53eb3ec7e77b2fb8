/-
**Lookups in a directory.**

What a directory lists is the records of all its blocks, the blocks being those that the tree of
extents gives. A lookup in which no read fails is computed from the contents of the device
(`lookupAnswer`), and compared with what the directory lists.
-/

import Cboot.Ext4.Directory

namespace Cboot.Ext4

open ByteMem

/-! ### What a directory lists -/

def records (blockSize : Nat) (block : ByteMem) : Nat → Nat → List Record
  | 0, _ => []
  | fuel + 1, pos =>
    if pos < blockSize then
      if recLen block pos = 0 then []
      else recordAt block pos :: records blockSize block fuel (pos + roundup4 (recLen block pos))
    else []

def blockRecords (fs : Fs) (block : ByteMem) : List Record := records fs.blockSize block fs.blockSize 0

def dirBlock (fs : Fs) (bytes : ByteMem) (inode : Inode) (num : Nat) : ByteMem := fun a =>
  if a < fs.blockSize then
    fileByte fs (treeExtents fs bytes inode) bytes (num * fs.blockSize + a)
  else 0

def dirRecords (fs : Fs) (bytes : ByteMem) (inode : Inode) : List Record :=
  (List.range (inode.size / fs.blockSize)).flatMap fun num =>
    blockRecords fs (dirBlock fs bytes inode num)

def Lists (fs : Fs) (bytes : ByteMem) (inode : Inode) (name : List Byte) (inum : Nat) : Prop :=
  ∃ r ∈ dirRecords fs bytes inode, r.name = name ∧ r.inode ≠ 0 ∧ r.inode = inum

@[mk_iff]
structure DirWellFormed (fs : Fs) (bytes : ByteMem) (inode : Inode) : Prop
    extends WellFormed fs bytes inode where
  directory : inode.isDirectory = true
  small : Small fs bytes inode
  filled : 0 < inode.size / fs.blockSize
  dense : ∀ num < inode.size / fs.blockSize, mapBlock (treeExtents fs bytes inode) num ≠ none

instance (fs : Fs) (bytes : ByteMem) (inode : Inode) : Decidable (DirWellFormed fs bytes inode) :=
  decidable_of_iff' _ (dirWellFormed_iff fs bytes inode)

section Records

theorem scan_eq_find (blockSize : Nat) (block : ByteMem) (name : List Byte) (fuel pos : Nat) :
    scan blockSize block name fuel pos =
      ((records blockSize block fuel pos).find? (·.name = name)).map (·.inode) := by
  induction fuel generalizing pos with
  | zero => rfl
  | succ fuel ih =>
    rw [scan, records]
    by_cases inBlock : pos < blockSize
    · rw [if_pos inBlock, if_pos inBlock]
      by_cases last : recLen block pos = 0
      · rw [if_pos last, if_pos last]
        rfl
      · rw [if_neg last, if_neg last]
        by_cases same : (recordAt block pos).name = name
        · have hit : nameLen block pos = name.length ∧
              block.load (pos + 8) (nameLen block pos) = name :=
            ⟨by rw [← same]; exact (load_length _ _ _).symm, same⟩
          rw [if_pos hit, List.find?_cons_of_pos (by simpa using same)]
          rfl
        · rw [if_neg (fun hit => same hit.2), List.find?_cons_of_neg (by simpa using same), ih]
    · rw [if_neg inBlock, if_neg inBlock]
      rfl

theorem findInBlock_eq (fs : Fs) (block : ByteMem) (name : List Byte) :
    findInBlock fs block name =
      ((blockRecords fs block).find? (·.name = name)).map (·.inode) :=
  scan_eq_find _ _ _ _ _

end Records

/-! ### Runs of the loops -/

section Loops

variable {fs : Fs} {disk : Disk} {inode : Inode} {name : List Byte}

theorem extentsBlkLookup_cases (fs : Fs) (disk : Disk) (extents : List Extent) (num : Nat) (io : Io) :
    ((extentsBlkLookup fs disk extents num io).2.1 = fs.blockAt disk.bytes (blkNum extents num) ∧
        (extentsBlkLookup fs disk extents num io).2.2.failed = io.failed) ∨
      (extentsBlkLookup fs disk extents num io).2.2.failed = true := by
  unfold extentsBlkLookup
  dsimp only
  split
  · exact .inr rfl
  · exact .inl ⟨rfl, rfl⟩

theorem getExtentsBlk_cases (fs : Fs) (disk : Disk) (inode : Inode) (num : Nat) (io : Io) :
    (∃ io', getExtentsBlk fs disk inode num io =
          (.ok (fs.blockAt disk.bytes (blkNum (firstLeaf fs disk.bytes inode) num)), io') ∧
        io'.failed = io.failed) ∨
      (getExtentsBlk fs disk inode num io).2.failed = true := by
  unfold getExtentsBlk firstLeaf
  split
  · rcases readNode_cases fs disk (leafBlock inode.blocks 0) io with
      ⟨mid, read, kept⟩ | ⟨err, mid, read, -, failed, -⟩
    · rw [read]
      dsimp only
      rcases extentsBlkLookup_cases fs disk
        (nodeExtents (fs.blockAt disk.bytes (leafBlock inode.blocks 0))) num mid with
        ⟨block, same⟩ | failed
      · rw [block]
        exact .inl ⟨_, rfl, same.trans kept.failed⟩
      · exact .inr failed
    · rw [read]
      exact .inr failed
  · dsimp only
    rcases extentsBlkLookup_cases fs disk (nodeExtents inode.blocks) num io with
      ⟨block, same⟩ | failed
    · rw [block]
      exact .inl ⟨_, rfl, same⟩
    · exact .inr failed

def firstFound (fs : Fs) (bytes : ByteMem) (extents : List Extent) (name : List Byte)
    (nums : List Nat) : Option Nat :=
  nums.findSome? fun num => findInBlock fs (fs.blockAt bytes (blkNum extents num)) name

def hashedAnswer (fs : Fs) (bytes : ByteMem) (inode : Inode) (name : List Byte) :
    Except Int (Option Nat) :=
  let extents := firstLeaf fs bytes inode
  let root := fs.blockAt bytes (blkNum extents 0)
  if hashCount root = 0 then .error errNoMemory
  else .ok (firstFound fs bytes extents name (hashBlocks root))

theorem hashedLoop_cases (fs : Fs) (disk : Disk) (inode : Inode) (name : List Byte)
    (nums : List Nat) (io : Io) :
    ((hashedLoop fs disk inode name nums io).1 =
          .ok (firstFound fs disk.bytes (firstLeaf fs disk.bytes inode) name nums) ∧
        (hashedLoop fs disk inode name nums io).2.failed = io.failed) ∨
      (hashedLoop fs disk inode name nums io).2.failed = true := by
  induction nums generalizing io with
  | nil => exact .inl ⟨rfl, rfl⟩
  | cons num rest ih =>
    rw [hashedLoop]
    rcases getExtentsBlk_cases fs disk inode num io with ⟨io', got, same⟩ | failed
    · rw [got]
      unfold firstFound
      rw [List.findSome?_cons]
      dsimp only
      cases findInBlock fs
        (fs.blockAt disk.bytes (blkNum (firstLeaf fs disk.bytes inode) num)) name with
      | some inum => exact .inl ⟨rfl, same⟩
      | none =>
        rw [← same]
        exact ih io'
    · -- Whatever is in the buffer then, the block stays missing.
      refine .inr ?_
      cases got : getExtentsBlk fs disk inode num io with
      | mk result io' =>
        rw [got] at failed
        cases result with
        | error err => exact failed
        | ok block =>
          dsimp only
          cases findInBlock fs block name with
          | some inum => exact failed
          | none =>
            rcases ih io' with ⟨-, same⟩ | missing
            · exact same.trans failed
            · exact missing

theorem lookupHashed_cases (fs : Fs) (disk : Disk) (inode : Inode) (name : List Byte) (io : Io) :
    ((lookupHashedDir fs disk inode name io).1 = hashedAnswer fs disk.bytes inode name ∧
        (lookupHashedDir fs disk inode name io).2.failed = io.failed) ∨
      (lookupHashedDir fs disk inode name io).2.failed = true := by
  unfold lookupHashedDir hashedAnswer
  rcases getExtentsBlk_cases fs disk inode 0 io with ⟨io', got, same⟩ | failed
  · rw [got]
    dsimp only
    split
    · exact .inl ⟨rfl, same⟩
    · split
      · exact .inr rfl
      · rw [← same]
        exact hashedLoop_cases fs disk inode name _ { io' with allocs := io'.allocs + 1 }
  · refine .inr ?_
    cases got : getExtentsBlk fs disk inode 0 io with
    | mk result io' =>
      rw [got] at failed
      cases result with
      | error err => exact failed
      | ok root =>
        dsimp only
        split
        · exact failed
        · split
          · rfl
          · rcases hashedLoop_cases fs disk inode name (hashBlocks root)
              { io' with allocs := io'.allocs + 1 } with ⟨-, same⟩ | missing
            · exact same.trans failed
            · exact missing

end Loops

/-! ### The first block -/

section FirstBlock

variable {fs : Fs} {bytes : ByteMem} {inode : Inode}

theorem last_len_le (fs : Fs) (init : List Extent) (last : Extent) :
    last.lenBytes fs ≤ leafTotal fs (init ++ [last]) := by
  unfold leafTotal
  rw [List.foldl_append]
  show _ ≤ if last.dest fs = 0 then _ + last.lenBytes fs else last.dest fs + last.lenBytes fs
  split <;> omega

theorem sourceOf_placed_first {extents : List Extent} {a : Nat} (below : a < leafTotal fs extents)
    (count : Nat) :
    sourceOf (placed fs extents (count + 1)) a = sourceOf (placed fs extents 1) a := by
  induction count with
  | zero => rfl
  | succ count ih =>
    rw [placed_succ, sourceOf_append_of_uncovered, ih]
    intro c inPass
    obtain ⟨e, -, rfl⟩ := List.mem_map.mp inPass
    rintro ⟨lower, -⟩
    have behind : (count + 1) * leafTotal fs extents ≤
        ((e.copy fs).shift ((count + 1) * leafTotal fs extents)).dest := Nat.le_add_right _ _
    rw [Nat.succ_mul] at behind lower
    omega

namespace WellFormed

variable (wf : WellFormed fs bytes inode)
include wf

theorem mapBlock_first (filled : firstLeaf fs bytes inode ≠ [])
    (mapped : mapBlock (treeExtents fs bytes inode) 0 ≠ none) :
    mapBlock (firstLeaf fs bytes inode) 0 = mapBlock (treeExtents fs bytes inode) 0 := by
  obtain ⟨rest, isTree⟩ := wf.tree_append
  have sorted := wf.sorted
  have lens := wf.lens
  rw [isTree] at sorted lens mapped ⊢
  obtain ⟨f, more, isFirst⟩ := List.exists_cons_of_ne_nil filled
  unfold mapBlock at mapped ⊢
  rw [List.find?_append] at mapped ⊢
  cases found : (firstLeaf fs bytes inode).find? (·.Covers 0) with
  | some e => rfl
  | none =>
    -- An extent behind the first one cannot start at block 0.
    exfalso
    rw [found, Option.none_or] at mapped
    have inRest : rest.find? (·.Covers 0) ≠ none := fun missing => mapped (by rw [missing]; rfl)
    obtain ⟨e, foundRest⟩ := Option.ne_none_iff_exists'.mp inRest
    have covers : e.Covers 0 := by simpa using List.find?_some foundRest
    have inFirst : f ∈ firstLeaf fs bytes inode := by rw [isFirst]; exact (.head _)
    have before := (List.pairwise_append.mp sorted).2.2 f inFirst e
      (List.mem_of_find?_eq_some foundRest)
    have some_ := (lens f (List.mem_append_left _ inFirst)).1
    unfold Extent.Covers at covers
    omega

end WellFormed

theorem DirWellFormed.first_block_placed (wf : DirWellFormed fs bytes inode)
    (filled : firstLeaf fs bytes inode ≠ []) {a : Nat} (inBlock : a < fs.blockSize) :
    sourceOf (treeCopies fs bytes inode) a = mapByte fs (treeExtents fs bytes inode) a := by
  obtain ⟨init, last, isLeaf⟩ := (List.eq_nil_or_concat' _).resolve_left filled
  have inTree : last ∈ treeExtents fs bytes inode :=
    wf.mem_tree (by rw [isLeaf]; exact List.mem_append_right _ (List.mem_singleton_self last))
  have atLeast : fs.blockSize ≤ leafTotal fs (firstLeaf fs bytes inode) := by
    have one := Nat.mul_le_mul_right fs.blockSize (wf.lens last inTree).1
    have whole := last_len_le fs init last
    rw [← isLeaf, wf.lenBytes inTree] at whole
    omega
  obtain ⟨rest, isTree⟩ := wf.tree_append
  have sub : (firstLeaf fs bytes inode).Sublist (treeExtents fs bytes inode) := by
    rw [isTree]
    exact List.sublist_append_left _ _
  obtain ⟨count, isCount⟩ := Nat.exists_eq_succ_of_ne_zero wf.passes_ne
  unfold treeCopies
  rw [isCount, sourceOf_placed_first (by omega), wf.source_one wf.small sub]
  unfold mapByte
  rw [Nat.div_eq_of_lt inBlock, wf.mapBlock_first filled (wf.dense 0 wf.filled)]

theorem DirWellFormed.buffer_first {disk : Disk} (wf : DirWellFormed fs disk.bytes inode)
    (filled : firstLeaf fs disk.bytes inode ≠ []) {buf : Nat} {io io' : Io}
    (done : Transferred disk ((treeCopies fs disk.bytes inode).map (Copy.shift buf)) io io') :
    fs.bufferAt io'.mem buf = dirBlock fs disk.bytes inode 0 := by
  funext a
  unfold Fs.bufferAt dirBlock
  split
  · next inBlock =>
    have mapped : mapByte fs (treeExtents fs disk.bytes inode) a ≠ none := by
      have block := wf.dense 0 wf.filled
      unfold mapByte
      rw [Nat.div_eq_of_lt inBlock]
      exact fun unmapped => block (Option.map_eq_none_iff.mp unmapped)
    obtain ⟨pos, isPos⟩ := Option.ne_none_iff_exists'.mp mapped
    rw [done.byte, wf.first_block_placed filled inBlock, isPos, Nat.zero_mul, Nat.zero_add, fileByte,
      isPos]
    rfl
  · rfl

end FirstBlock

/-! ### Linear lookups -/

def dirTotal (fs : Fs) (bytes : ByteMem) (inode : Inode) : Int :=
  (treeTotal fs bytes inode : Int).bmod (2 ^ 32)

def linearAnswer (fs : Fs) (bytes : ByteMem) (inode : Inode) (name : List Byte) : Int × Option Nat :=
  if dirTotal fs bytes inode ≤ 0 then (-1, none)
  else
    match findInBlock fs (dirBlock fs bytes inode 0) name with
    | some inum => (dirTotal fs bytes inode, some inum)
    | none => (-1, none)

section Linear

variable {fs : Fs} {disk : Disk} {inode : Inode}

theorem filled_of_dirTotal {bytes : ByteMem} (some_ : ¬ dirTotal fs bytes inode ≤ 0) :
    firstLeaf fs bytes inode ≠ [] := by
  intro empty
  refine some_ (le_of_eq ?_)
  have nothing : treeTotal fs bytes inode = 0 := by
    unfold treeTotal
    rw [empty]
    exact Nat.mul_zero _
  unfold dirTotal
  rw [nothing]
  rfl

theorem linearLoop_cases (wf : DirWellFormed fs disk.bytes inode) (name : List Byte) (buf rounds : Nat)
    (io : Io) :
    ((linearLoop fs disk inode name buf rounds io).2.2.failed = io.failed ∧
        (0 < rounds → ((linearLoop fs disk inode name buf rounds io).1,
          (linearLoop fs disk inode name buf rounds io).2.1) =
            linearAnswer fs disk.bytes inode name) ∧
        (rounds = 0 → ((linearLoop fs disk inode name buf rounds io).1,
          (linearLoop fs disk inode name buf rounds io).2.1) = (-1, none))) ∨
      (linearLoop fs disk inode name buf rounds io).2.2.failed = true := by
  induction rounds generalizing io with
  | zero => exact .inl ⟨rfl, fun more => absurd more (Nat.lt_irrefl 0), fun _ => rfl⟩
  | succ rounds ih =>
    rw [linearLoop]
    rcases readData_cases wf.magic disk buf io with ⟨mid, ran, done⟩ | ⟨failed, -⟩
    · have total : (treeTotal fs disk.bytes inode : Int).bmod (2 ^ 32) =
          dirTotal fs disk.bytes inode := rfl
      rw [ran]
      dsimp only
      rw [total]
      by_cases nothing : dirTotal fs disk.bytes inode ≤ 0
      · have here : linearAnswer fs disk.bytes inode name = (-1, none) := if_pos nothing
        rw [if_pos nothing]
        exact .inl ⟨done.failed, fun _ => here.symm, fun _ => rfl⟩
      · rw [if_neg nothing, wf.buffer_first (filled_of_dirTotal nothing) done]
        have here : linearAnswer fs disk.bytes inode name =
            match findInBlock fs (dirBlock fs disk.bytes inode 0) name with
            | some inum => (dirTotal fs disk.bytes inode, some inum)
            | none => (-1, none) := if_neg nothing
        cases found : findInBlock fs (dirBlock fs disk.bytes inode 0) name with
        | some inum =>
          rw [found] at here
          dsimp only at here ⊢
          exact .inl ⟨done.failed, fun _ => here.symm, fun zero =>
            absurd zero (Nat.succ_ne_zero rounds)⟩
        | none =>
          rw [found] at here
          rcases ih mid with ⟨same, more, none_⟩ | missing
          · refine .inl ⟨same.trans done.failed, fun _ => ?_, fun zero =>
              absurd zero (Nat.succ_ne_zero rounds)⟩
            rcases Nat.eq_zero_or_pos rounds with zero | some_
            · exact (none_ zero).trans here.symm
            · exact more some_
          · exact .inr missing
    · refine .inr ?_
      split
      · exact failed
      · split
        · exact failed
        · rcases ih (ext4ReadDataFromExtent fs disk inode buf io).2 with ⟨same, -⟩ | missing
          · exact same.trans failed
          · exact missing

end Linear

/-! ### Which lookups are right -/

structure LookupRight (fs : Fs) (bytes : ByteMem) (inode : Inode) (name : List Byte)
    (out : Int × Nat × Io) : Prop where
  success : 0 ≤ out.1 ↔ out.2.2.failed = false ∧ ∃ inum, Lists fs bytes inode name inum
  number : 0 ≤ out.1 → Lists fs bytes inode name out.2.1

def Decides (fs : Fs) (bytes : ByteMem) (inode : Inode) (name : List Byte) (inum : Nat) : Prop :=
  if inode.isHashed = true then
    match hashedAnswer fs bytes inode name with
    | .ok found => Lists fs bytes inode name (found.getD inum)
    | .error _ => ¬ ∃ inum, Lists fs bytes inode name inum
  else
    match (linearAnswer fs bytes inode name).2 with
    | some found => found ≠ 0
    | none => ¬ ∃ inum, Lists fs bytes inode name inum

section Lookup

variable {fs : Fs} {disk : Disk} {inode : Inode} {name : List Byte} {buf inum : Nat} {io : Io}
  {bytes : ByteMem}

theorem lists_of_found (wf : DirWellFormed fs bytes inode) {found : Nat}
    (isFound : findInBlock fs (dirBlock fs bytes inode 0) name = some found) (some_ : found ≠ 0) :
    Lists fs bytes inode name found := by
  rw [findInBlock_eq] at isFound
  obtain ⟨r, first, rfl⟩ := Option.map_eq_some_iff.mp isFound
  refine ⟨r, List.mem_flatMap.mpr ⟨0, List.mem_range.mpr wf.filled,
    List.mem_of_find?_eq_some first⟩, by simpa using List.find?_some first, some_, rfl⟩

theorem Lists.ne_zero (lists : Lists fs bytes inode name inum) : inum ≠ 0 := by
  obtain ⟨r, -, -, some_, rfl⟩ := lists
  exact some_

theorem right_error_iff {out : Int × Nat × Io} (negative : out.1 < 0)
    (clean : out.2.2.failed = false) :
    LookupRight fs bytes inode name out ↔ ¬ ∃ inum, Lists fs bytes inode name inum := by
  constructor
  · intro right listed
    exact absurd (right.success.mpr ⟨clean, listed⟩) (Int.not_le.mpr negative)
  · intro unlisted
    exact ⟨⟨fun success => absurd success (Int.not_le.mpr negative),
      fun both => absurd both.2 unlisted⟩, fun success => absurd success (Int.not_le.mpr negative)⟩

theorem right_success_iff {out : Int × Nat × Io} (success : 0 ≤ out.1)
    (clean : out.2.2.failed = false) :
    LookupRight fs bytes inode name out ↔ Lists fs bytes inode name out.2.1 := by
  constructor
  · exact fun right => right.number success
  · exact fun lists => ⟨⟨fun _ => ⟨clean, _, lists⟩, fun _ => success⟩, fun _ => lists⟩

theorem right_iff_decides (wf : DirWellFormed fs disk.bytes inode)
    (clean : (ext4DirLookup fs disk inode name buf inum io).2.2.failed = false) :
    LookupRight fs disk.bytes inode name (ext4DirLookup fs disk inode name buf inum io) ↔
      Decides fs disk.bytes inode name inum := by
  have isDir : ¬ inode.isDirectory = false := by
    rw [wf.directory]
    exact Bool.noConfusion
  unfold ext4DirLookup at clean ⊢
  unfold Decides
  dsimp only at clean ⊢
  rw [if_neg isDir, if_neg (not_not_intro wf.magic)] at clean ⊢
  by_cases noRoom : disk.hasRoom io.allocs = false
  · rw [if_pos noRoom] at clean
    cases clean
  rw [if_neg noRoom] at clean ⊢
  by_cases hashed : inode.isHashed = true
  · rw [if_pos hashed] at clean ⊢
    rw [if_pos hashed]
    rcases lookupHashed_cases fs disk inode name { io with allocs := io.allocs + 1 } with
      ⟨answer, -⟩ | failed
    · cases ran : lookupHashedDir fs disk inode name { io with allocs := io.allocs + 1 } with
      | mk result io' =>
        rw [ran] at answer clean
        dsimp only at answer
        rw [← answer]
        cases result with
        | ok found => exact right_success_iff le_rfl clean
        | error err =>
          have noMemory : err = errNoMemory := by
            unfold hashedAnswer at answer
            dsimp only at answer
            split at answer
            · exact Except.error.inj answer
            · cases answer
          have negative : err < 0 := by
            rw [noMemory]
            decide
          exact right_error_iff negative clean
    · exfalso
      split at clean
      · next err io' ran =>
        rw [ran] at failed
        exact Bool.noConfusion (failed.symm.trans clean)
      · next found io' ran =>
        rw [ran] at failed
        exact Bool.noConfusion (failed.symm.trans clean)
  · rw [if_neg hashed] at clean ⊢
    rw [if_neg hashed]
    unfold lookupLinearDir at clean ⊢
    have cases_ := linearLoop_cases wf name buf 1025 { io with allocs := io.allocs + 1 }
    generalize linearLoop fs disk inode name buf 1025 { io with allocs := io.allocs + 1 } = out
      at cases_ clean ⊢
    rcases cases_ with ⟨-, answer, -⟩ | failed
    · have isAnswer := answer (by decide)
      have result := congrArg Prod.fst isAnswer
      have found := congrArg Prod.snd isAnswer
      dsimp only at result found clean
      rw [found, result]
      have negative : (-1 : Int) < 0 := by decide
      unfold linearAnswer
      split
      · exact right_error_iff negative clean
      · next some_ =>
        generalize dirTotal fs disk.bytes inode = total at some_ ⊢
        have success : 0 ≤ total := Int.le_of_lt (Int.not_le.mp some_)
        cases isFound : findInBlock fs (dirBlock fs disk.bytes inode 0) name with
        | none => exact right_error_iff negative clean
        | some number =>
          exact (right_success_iff success clean).trans
            ⟨Lists.ne_zero, lists_of_found wf isFound⟩
    · exact absurd (failed.symm.trans clean) Bool.noConfusion

end Lookup

/-! #### Two small directories -/

def recordBytes (inode lenLow lenHigh : Byte) (name : List Byte) : List Byte :=
  [inode, 0, 0, 0, lenLow, lenHigh, BitVec.ofNat 8 name.length, 0] ++ name

def linearBytes : ByteMem := zeroMem.store 5120 (recordBytes 12 0 4 [0x61])

def linearInode : Inode := ⟨0x41ED, 1024, 0x80000, zeroMem.store 0 (headerBytes 1 0 ++ extentBytes 0 5)⟩

theorem linear_wellFormed : DirWellFormed sampleFs linearBytes linearInode := by
  decide +kernel

def rootBytes : List Byte :=
  [2, 0, 0, 0, 12, 0, 1, 2, 0x2E, 0, 0, 0] ++ [2, 0, 0, 0, 0xF4, 3, 2, 2, 0x2E, 0x2E, 0, 0] ++
    [0, 0, 0, 0, 0, 8, 0, 0] ++ [0x7C, 0, 1, 0] ++ [1, 0, 0, 0]

def hashedBytes : ByteMem :=
  (zeroMem.store 5120 rootBytes).store 6144 (recordBytes 12 0 4 [0x61])

def hashedInode : Inode :=
  ⟨0x41ED, 2048, 0x81000, zeroMem.store 0 (headerBytes 2 0 ++ extentBytes 0 5 ++ extentBytes 1 6)⟩

theorem hashed_wellFormed : DirWellFormed sampleFs hashedBytes hashedInode := by
  decide +kernel

end Cboot.Ext4
