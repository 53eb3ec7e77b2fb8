/-
**The bytes of a file.**

The extents of a tree say which block of the file system a block of the file is (`mapBlock`), and so
which byte of the device a byte of the file is; in a hole it is zero. A read through
`ext4_read_file` is compared with that.
-/

import Cboot.Ext4.ReadFile

namespace Cboot.Ext4

open ByteMem

/-! ### What the tree says -/

def treeExtents (fs : Fs) (bytes : ByteMem) (inode : Inode) : List Extent :=
  if 0 < nodeDepth inode.blocks then
    (List.range (nodeEntries inode.blocks)).flatMap fun i =>
      nodeExtents (fs.blockAt bytes (leafBlock inode.blocks i))
  else nodeExtents inode.blocks

def Extent.Covers (e : Extent) (block : Nat) : Prop := e.blockNo ≤ block ∧ block < e.blockNo + e.len

instance (e : Extent) (block : Nat) : Decidable (e.Covers block) := inferInstanceAs (Decidable (_ ∧ _))

def Extent.Apart (e f : Extent) : Prop := e.start + e.len ≤ f.start ∨ f.start + f.len ≤ e.start

instance : Std.Symm Extent.Apart := ⟨fun _ _ => Or.symm⟩

instance (e f : Extent) : Decidable (e.Apart f) := inferInstanceAs (Decidable (_ ∨ _))

def mapBlock (extents : List Extent) (block : Nat) : Option Nat :=
  (extents.find? (·.Covers block)).map fun e => e.start + (block - e.blockNo)

def mapByte (fs : Fs) (extents : List Extent) (k : Nat) : Option Nat :=
  (mapBlock extents (k / fs.blockSize)).map fun block =>
    block * fs.blockSize + fs.fsOffset + k % fs.blockSize

def fileByte (fs : Fs) (extents : List Extent) (bytes : ByteMem) (k : Nat) : Byte :=
  (mapByte fs extents k).elim 0 bytes

/-- A regular file with a well-formed tree of depth 0 or 1: the extents are in order, have blocks of
their own, apart from those of the leaves, and everything fits. -/
@[mk_iff]
structure WellFormed (fs : Fs) (bytes : ByteMem) (inode : Inode) : Prop where
  blockSize : 0 < fs.blockSize ∧ fs.blockSize ≤ 65536
  magic : nodeMagic inode.blocks = extentsMagic
  depth : nodeDepth inode.blocks ≤ 1
  indexed : 0 < nodeDepth inode.blocks → 0 < nodeEntries inode.blocks
  rootFits : 12 + 12 * nodeEntries inode.blocks ≤ 60
  leavesFit : 0 < nodeDepth inode.blocks → ∀ i < nodeEntries inode.blocks,
    12 + 12 * nodeEntries (fs.blockAt bytes (leafBlock inode.blocks i)) ≤ fs.blockSize
  lens : ∀ e ∈ treeExtents fs bytes inode, 1 ≤ e.len ∧ e.len ≤ 32768
  sorted : (treeExtents fs bytes inode).Pairwise fun e f => e.blockNo + e.len ≤ f.blockNo
  apart : (treeExtents fs bytes inode).Pairwise Extent.Apart
  leavesApart : 0 < nodeDepth inode.blocks → ∀ i < nodeEntries inode.blocks,
    ∀ e ∈ treeExtents fs bytes inode,
      leafBlock inode.blocks i < e.start ∨ e.start + e.len ≤ leafBlock inode.blocks i
  fits : ∀ e ∈ treeExtents fs bytes inode, (e.start + e.len) * fs.blockSize + fs.fsOffset < 2 ^ 64
  leavesInside : 0 < nodeDepth inode.blocks → ∀ i < nodeEntries inode.blocks,
    (leafBlock inode.blocks i + 1) * fs.blockSize + fs.fsOffset < 2 ^ 64

instance (fs : Fs) (bytes : ByteMem) (inode : Inode) : Decidable (WellFormed fs bytes inode) :=
  decidable_of_iff' _ (wellFormed_iff fs bytes inode)

section Mapping

variable {fs : Fs} {extents : List Extent} {block block' target k k' pos : Nat}

theorem mapBlock_some (mapped : mapBlock extents block = some target) :
    ∃ e ∈ extents, e.Covers block ∧ target = e.start + (block - e.blockNo) := by
  obtain ⟨e, found, same⟩ := Option.map_eq_some_iff.mp mapped
  exact ⟨e, List.mem_of_find?_eq_some found, by simpa using List.find?_some found, same.symm⟩

theorem mapBlock_injective (apart : extents.Pairwise Extent.Apart)
    (mapped : mapBlock extents block = some target)
    (mapped' : mapBlock extents block' = some target) : block = block' := by
  obtain ⟨e, mem, covers, same⟩ := mapBlock_some mapped
  obtain ⟨f, mem', covers', same'⟩ := mapBlock_some mapped'
  unfold Extent.Covers at covers covers'
  by_cases one : e = f
  · rw [one] at same covers
    omega
  · have disjoint := apart.forall mem mem' one
    unfold Extent.Apart at disjoint
    omega

theorem mapByte_some (mapped : mapByte fs extents k = some pos) :
    ∃ block, mapBlock extents (k / fs.blockSize) = some block ∧
      pos = block * fs.blockSize + fs.fsOffset + k % fs.blockSize := by
  obtain ⟨block, isBlock, same⟩ := Option.map_eq_some_iff.mp mapped
  exact ⟨block, isBlock, same.symm⟩

theorem mapByte_injective (some_ : 0 < fs.blockSize) (apart : extents.Pairwise Extent.Apart)
    (mapped : mapByte fs extents k = some pos) (mapped' : mapByte fs extents k' = some pos) :
    k = k' := by
  obtain ⟨block, isBlock, same⟩ := mapByte_some mapped
  obtain ⟨block', isBlock', same'⟩ := mapByte_some mapped'
  have rest : k % fs.blockSize < fs.blockSize := Nat.mod_lt _ some_
  have rest' : k' % fs.blockSize < fs.blockSize := Nat.mod_lt _ some_
  have shared : k % fs.blockSize + fs.blockSize * block =
      k' % fs.blockSize + fs.blockSize * block' := by
    rw [Nat.mul_comm _ block, Nat.mul_comm _ block']
    omega
  have sameBlock : block = block' := by
    have quotients := congrArg (· / fs.blockSize) shared
    simpa only [Nat.add_mul_div_left _ _ some_, Nat.div_eq_of_lt rest, Nat.div_eq_of_lt rest',
      Nat.zero_add] using quotients
  rw [sameBlock] at isBlock shared
  rw [← Nat.div_add_mod k fs.blockSize, ← Nat.div_add_mod k' fs.blockSize,
    mapBlock_injective apart isBlock isBlock', Nat.add_right_cancel shared]

end Mapping

/-! ### The passes -/

section Passes

variable {fs : Fs} {extents : List Extent}

theorem placed_succ (fs : Fs) (extents : List Extent) (count : Nat) :
    placed fs extents (count + 1) = placed fs extents count ++
      extents.map fun e => (e.copy fs).shift (count * leafTotal fs extents) := by
  unfold placed
  rw [List.range_succ, List.flatMap_append, List.flatMap_singleton]

theorem last_dest_lt (init : List Extent) {last : Extent} (some_ : last.lenBytes fs ≠ 0) :
    last.dest fs < leafTotal fs (init ++ [last]) := by
  unfold leafTotal
  rw [List.foldl_append]
  show _ < if last.dest fs = 0 then _ + last.lenBytes fs else last.dest fs + last.lenBytes fs
  split <;> omega

theorem placed_concat (fs : Fs) (init : List Extent) (last : Extent) (count : Nat) :
    ∃ before, placed fs (init ++ [last]) (count + 1) = before ++
      [(last.copy fs).shift (count * leafTotal fs (init ++ [last]))] := by
  rw [placed_succ, List.map_append, ← List.append_assoc]
  exact ⟨_, rfl⟩

theorem placed_twice (some_ : ∀ e ∈ extents, e.lenBytes fs ≠ 0) (filled : extents ≠ [])
    (count : Nat) :
    ∃ first second pos, first < second ∧ second < (count + 2) * leafTotal fs extents ∧
      sourceOf (placed fs extents (count + 2)) first = some pos ∧
      sourceOf (placed fs extents (count + 2)) second = some pos := by
  obtain ⟨init, last, rfl⟩ := (List.eq_nil_or_concat' extents).resolve_left filled
  have bytes : last.lenBytes fs ≠ 0 := some_ last (by simp)
  have below := last_dest_lt init bytes
  obtain ⟨before, isLast⟩ := placed_concat fs init last count
  obtain ⟨before', isLast'⟩ := placed_concat fs init last (count + 1)
  have covers : ∀ base, ((last.copy fs).shift base).Covers (base + last.dest fs) := fun base =>
    (Copy.shift_covers _ base _).mpr ⟨le_rfl, Nat.lt_add_of_pos_right (Nat.pos_of_ne_zero bytes)⟩
  have position : ∀ base, ((last.copy fs).shift base).position (base + last.dest fs) =
      fs.blockAddr last.start := fun base => by
    rw [Copy.shift_position]
    exact (congrArg _ (Nat.sub_self _)).trans (Nat.add_zero _)
  have more : (count + 1) * leafTotal fs (init ++ [last]) =
      count * leafTotal fs (init ++ [last]) + leafTotal fs (init ++ [last]) := Nat.succ_mul _ _
  have evenMore : (count + 2) * leafTotal fs (init ++ [last]) =
      (count + 1) * leafTotal fs (init ++ [last]) + leafTotal fs (init ++ [last]) := Nat.succ_mul _ _
  refine ⟨count * leafTotal fs (init ++ [last]) + last.dest fs,
    (count + 1) * leafTotal fs (init ++ [last]) + last.dest fs, fs.blockAddr last.start, ?_, ?_, ?_, ?_⟩
  · omega
  · omega
  · -- The last pass is behind the first of the two places.
    rw [placed_succ, sourceOf_append_of_uncovered, isLast, sourceOf_concat (covers _), position]
    intro c inPass
    obtain ⟨e, -, rfl⟩ := List.mem_map.mp inPass
    rintro ⟨lower, -⟩
    have atLeast : (count + 1) * leafTotal fs (init ++ [last]) ≤
        ((e.copy fs).shift ((count + 1) * leafTotal fs (init ++ [last]))).dest := Nat.le_add_right _ _
    omega
  · rw [isLast', sourceOf_concat (covers _), position]

end Passes

/-! ### Reads of a well-formed file -/

def Disk.Carries (disk : Disk) (fs : Fs) (bytes : ByteMem) (inode : Inode) : Prop :=
  0 < nodeDepth inode.blocks → ∀ i < nodeEntries inode.blocks,
    fs.blockAt disk.bytes (leafBlock inode.blocks i) = fs.blockAt bytes (leafBlock inode.blocks i)

def ReadsExactly (fs : Fs) (bytes : ByteMem) (inode : Inode) (offset len : Nat) : Prop :=
  ∀ (disk : Disk) (buf : Nat) (io io' : Io) (ret : Int), disk.Carries fs bytes inode →
    ext4ReadFile fs disk inode buf offset len io = (ret, io') → 0 ≤ ret →
      ret = len ∧ ∀ j < len, io'.mem (buf + j) =
        fileByte fs (treeExtents fs disk.bytes inode) disk.bytes (offset + j)

structure Matches (fs : Fs) (bytes : ByteMem) (inode : Inode) (offset len : Nat) : Prop where
  length : len = treeTotal fs bytes inode
  bytes : ∀ j < len, ∃ pos, sourceOf (treeCopies fs bytes inode) j = some pos ∧
    mapByte fs (treeExtents fs bytes inode) (offset + j) = some pos

section Reads

variable {fs : Fs} {bytes : ByteMem} {inode : Inode} {disk : Disk} {offset len : Nat} {e : Extent}

theorem Disk.Carries.treeExtents (carries : disk.Carries fs bytes inode) :
    treeExtents fs disk.bytes inode = treeExtents fs bytes inode := by
  unfold Ext4.treeExtents
  split
  · next deep =>
    refine List.flatMap_congr fun i inRange => ?_
    rw [carries deep i (List.mem_range.mp inRange)]
  · rfl

theorem Disk.Carries.firstLeaf (carries : disk.Carries fs bytes inode)
    (indexed : 0 < nodeDepth inode.blocks → 0 < nodeEntries inode.blocks) :
    firstLeaf fs disk.bytes inode = firstLeaf fs bytes inode := by
  unfold Ext4.firstLeaf
  split
  · next deep => rw [carries deep 0 (indexed deep)]
  · rfl

namespace WellFormed

variable (wf : WellFormed fs bytes inode)
include wf

theorem passes_ne : passes inode ≠ 0 := by
  unfold passes
  split
  · next deep => exact (wf.indexed deep).ne'
  · exact Nat.one_ne_zero

theorem tree_append : ∃ rest, treeExtents fs bytes inode = firstLeaf fs bytes inode ++ rest := by
  unfold treeExtents firstLeaf
  split
  · next deep =>
    obtain ⟨count, more⟩ := Nat.exists_eq_succ_of_ne_zero (wf.indexed deep).ne'
    rw [more, List.range_succ_eq_map, List.flatMap_cons]
    exact ⟨_, rfl⟩
  · exact ⟨[], (List.append_nil _).symm⟩

theorem mem_tree (inFirst : e ∈ firstLeaf fs bytes inode) : e ∈ treeExtents fs bytes inode := by
  obtain ⟨rest, isTree⟩ := wf.tree_append
  rw [isTree]
  exact List.mem_append_left rest inFirst

theorem lenBytes (inTree : e ∈ treeExtents fs bytes inode) : e.lenBytes fs = e.len * fs.blockSize := by
  have bound : e.len * fs.blockSize ≤ 32768 * 65536 :=
    Nat.mul_le_mul (wf.lens e inTree).2 wf.blockSize.2
  exact Nat.mod_eq_of_lt (by omega)

theorem lenBytes_ne (inTree : e ∈ treeExtents fs bytes inode) : e.lenBytes fs ≠ 0 := by
  rw [wf.lenBytes inTree]
  exact Nat.mul_ne_zero (Nat.one_le_iff_ne_zero.mp (wf.lens e inTree).1) wf.blockSize.1.ne'

theorem addr (inTree : e ∈ treeExtents fs bytes inode) :
    fs.blockAddr e.start = e.start * fs.blockSize + fs.fsOffset := by
  have fits := wf.fits e inTree
  rw [Nat.add_mul] at fits
  unfold Fs.blockAddr
  rw [Nat.mod_eq_of_lt (a := e.start * fs.blockSize) (by omega), Nat.mod_eq_of_lt (by omega)]

theorem leafAddr (deep : 0 < nodeDepth inode.blocks) {i : Nat} (inRange : i < nodeEntries inode.blocks) :
    fs.blockAddr (leafBlock inode.blocks i) =
      leafBlock inode.blocks i * fs.blockSize + fs.fsOffset := by
  have inside := wf.leavesInside deep i inRange
  rw [Nat.succ_mul] at inside
  unfold Fs.blockAddr
  rw [Nat.mod_eq_of_lt (a := leafBlock inode.blocks i * fs.blockSize) (by omega),
    Nat.mod_eq_of_lt (by omega)]

theorem source_data {j pos : Nat} (placed : sourceOf (treeCopies fs bytes inode) j = some pos) :
    ∃ e ∈ treeExtents fs bytes inode, e.start * fs.blockSize + fs.fsOffset ≤ pos ∧
      pos < (e.start + e.len) * fs.blockSize + fs.fsOffset := by
  obtain ⟨c, inCopies, ⟨lower, upper⟩, rfl⟩ := sourceOf_some placed
  obtain ⟨pass, -, inPass⟩ := List.mem_flatMap.mp inCopies
  obtain ⟨e, inFirst, rfl⟩ := List.mem_map.mp inPass
  have inTree := wf.mem_tree inFirst
  refine ⟨e, inTree, ?_⟩
  rw [← wf.addr inTree, Nat.add_mul, ← wf.lenBytes inTree]
  have addr := wf.addr inTree
  simp only [Copy.position, Copy.shift, Extent.copy] at lower upper ⊢
  omega

theorem carries_update {e : Extent} (inTree : e ∈ treeExtents fs bytes inode) {pos : Nat}
    (lower : e.start * fs.blockSize + fs.fsOffset ≤ pos)
    (upper : pos < (e.start + e.len) * fs.blockSize + fs.fsOffset) (value : Byte)
    (same : disk.bytes = Function.update bytes pos value) : disk.Carries fs bytes inode := by
  intro deep i inRange
  funext a
  unfold Fs.blockAt
  split
  · next inBlock =>
    have other : fs.blockAddr (leafBlock inode.blocks i) + a ≠ pos := by
      rw [wf.leafAddr deep inRange]
      rcases wf.leavesApart deep i inRange e inTree with before | after
      · have below := Nat.mul_le_mul_right fs.blockSize (Nat.succ_le_of_lt before)
        rw [Nat.succ_mul] at below
        omega
      · have above := Nat.mul_le_mul_right fs.blockSize after
        omega
    rw [same, Function.update_of_ne other]
  · rfl

end WellFormed

theorem Disk.Carries.treeCopies (carries : disk.Carries fs bytes inode)
    (wf : WellFormed fs bytes inode) :
    treeCopies fs disk.bytes inode = treeCopies fs bytes inode := by
  unfold Ext4.treeCopies
  rw [carries.firstLeaf wf.indexed]

theorem Disk.Carries.treeTotal (carries : disk.Carries fs bytes inode)
    (wf : WellFormed fs bytes inode) : treeTotal fs disk.bytes inode = treeTotal fs bytes inode := by
  unfold Ext4.treeTotal
  rw [carries.firstLeaf wf.indexed]

theorem Transferred.byte {copies : List Copy} {buf : Nat} {io io' : Io}
    (done : Transferred disk (copies.map (Copy.shift buf)) io io') (j : Nat) :
    io'.mem (buf + j) = (sourceOf copies j).elim (io.mem (buf + j)) disk.bytes := by
  rw [done.mem, copyAll_apply, sourceOf_shift]

def cleanDisk (bytes : ByteMem) : Disk := ⟨bytes, fun _ => false, fun _ _ => 0, fun _ => true⟩

def startIo (mem : ByteMem) : Io := ⟨mem, 0, 0, [], false⟩

theorem clean_read (wf : WellFormed fs bytes inode) (regular : inode.isRegular = true)
    {contents : ByteMem} (carries : (cleanDisk contents).Carries fs bytes inode) (mem : ByteMem)
    (offset len : Nat) :
    ∃ io', ext4ReadFile fs (cleanDisk contents) inode 0 offset len (startIo mem) =
        ((treeTotal fs bytes inode : Int), io') ∧
      ∀ j, io'.mem (0 + j) = (sourceOf (treeCopies fs bytes inode) j).elim (mem (0 + j)) contents := by
  unfold ext4ReadFile
  rw [if_neg (by rw [regular]; exact Bool.noConfusion)]
  rcases readData_cases wf.magic (cleanDisk contents) 0 (startIo mem) with
    ⟨io', ran, done⟩ | ⟨-, empty⟩
  · rw [carries.treeTotal wf] at ran
    rw [carries.treeCopies wf] at done
    exact ⟨io', ran, done.byte⟩
  · obtain ⟨e, inFirst, noBytes⟩ := empty ⟨fun _ => rfl, fun _ => rfl⟩
    rw [carries.firstLeaf wf.indexed] at inFirst
    exact absurd noBytes (wf.lenBytes_ne (wf.mem_tree inFirst))

theorem exists_byte_ne (value : Byte) : ∃ other : Byte, other ≠ value := ⟨value + 1, by bv_omega⟩

theorem matches_of_reads (wf : WellFormed fs bytes inode) (regular : inode.isRegular = true)
    (exactly : ReadsExactly fs bytes inode offset len) : Matches fs bytes inode offset len := by
  -- What the read says about one byte, for all contents of the file and all contents of the buffer.
  have each : ∀ (contents mem : ByteMem), (cleanDisk contents).Carries fs bytes inode → ∀ j < len,
      (sourceOf (treeCopies fs bytes inode) j).elim (mem (0 + j)) contents =
        fileByte fs (treeExtents fs bytes inode) contents (offset + j) := by
    intro contents mem carries j bound
    obtain ⟨io', ran, placed⟩ := clean_read wf regular carries mem offset len
    have right := (exactly _ 0 _ io' _ carries ran (Int.natCast_nonneg _)).2 j bound
    rw [placed, carries.treeExtents] at right
    exact right
  have unchanged : (cleanDisk bytes).Carries fs bytes inode := fun _ _ _ => rfl
  obtain ⟨io', ran, -⟩ := clean_read wf regular unchanged (fun _ => 0) offset len
  have length := (exactly _ 0 _ io' _ unchanged ran (Int.natCast_nonneg _)).1
  refine ⟨(Int.ofNat_inj.mp length).symm, fun j bound => ?_⟩
  cases source : sourceOf (treeCopies fs bytes inode) j with
  | none =>
    obtain ⟨other, differs⟩ :=
      exists_byte_ne (fileByte fs (treeExtents fs bytes inode) bytes (offset + j))
    have stale := each bytes (fun _ => other) unchanged j bound
    rw [source] at stale
    exact absurd stale differs
  | some pos =>
    refine ⟨pos, rfl, ?_⟩
    obtain ⟨e, inTree, lower, upper⟩ := wf.source_data source
    have written : ∀ value, value =
        fileByte fs (treeExtents fs bytes inode) (Function.update bytes pos value) (offset + j) := by
      intro value
      have carried : (cleanDisk (Function.update bytes pos value)).Carries fs bytes inode :=
        wf.carries_update inTree lower upper value rfl
      have here := each _ (fun _ => 0) carried j bound
      rw [source] at here
      have self : Function.update bytes pos value pos = value := Function.update_self pos value bytes
      exact self.symm.trans here
    unfold fileByte at written
    cases mapped : mapByte fs (treeExtents fs bytes inode) (offset + j) with
    | none =>
      have zero := written 1
      rw [mapped] at zero
      have isZero : (1 : Byte) = 0 := zero
      exact absurd isZero (by decide)
    | some pos' =>
      by_contra differ
      have apart : pos' ≠ pos := fun same => differ (congrArg some same)
      obtain ⟨other, differs⟩ := exists_byte_ne (bytes pos')
      have wrong := written other
      rw [mapped] at wrong
      have old : Function.update bytes pos other pos' = bytes pos' :=
        Function.update_of_ne apart other bytes
      exact differs (wrong.trans old)

theorem reads_of_matches (wf : WellFormed fs bytes inode) (regular : inode.isRegular = true)
    (fits : Matches fs bytes inode offset len) : ReadsExactly fs bytes inode offset len := by
  intro disk buf io io' ret carries ran succeeded
  unfold ext4ReadFile at ran
  rw [if_neg (by rw [regular]; exact Bool.noConfusion)] at ran
  by_cases single : passes inode = 1
  · obtain ⟨isTotal, done⟩ := (readData_single wf.magic single ran).resolve_right fun isError =>
      absurd isError.negative (Int.not_lt.mpr succeeded)
    rw [carries.treeTotal wf] at isTotal
    rw [carries.treeCopies wf] at done
    refine ⟨by rw [isTotal, fits.length], fun j bound => ?_⟩
    obtain ⟨pos, source, mapped⟩ := fits.bytes j bound
    rw [done.byte, source, carries.treeExtents, fileByte, mapped]
    rfl
  · have deep : 0 < nodeDepth inode.blocks := by
      by_contra flat
      exact single (if_neg flat)
    have isCount : passes inode = nodeEntries inode.blocks := if_pos deep
    have some_ := wf.indexed deep
    obtain ⟨count, isMore⟩ : ∃ count, passes inode = count + 2 := ⟨passes inode - 2, by omega⟩
    by_cases empty : firstLeaf fs bytes inode = []
    · have nothing := readData_empty wf.magic deep ((carries.firstLeaf wf.indexed).trans empty) ran
        succeeded
      have noLength : len = 0 := by
        rw [fits.length, treeTotal, empty]
        exact Nat.mul_zero _
      exact ⟨by rw [nothing, noLength]; rfl, fun j bound => absurd bound (by omega)⟩
    · -- The same byte of the device would be at two places of the file.
      exfalso
      obtain ⟨first, second, pos, before, inside, source, source'⟩ := placed_twice
        (fun e inFirst => wf.lenBytes_ne (wf.mem_tree inFirst)) empty count
      rw [← isMore] at inside source source'
      have length := fits.length
      unfold treeTotal at length
      obtain ⟨pos₁, first', mapped⟩ := fits.bytes first (by omega)
      obtain ⟨pos₂, second', mapped'⟩ := fits.bytes second (by omega)
      unfold treeCopies at first' second'
      rw [source] at first'
      rw [source'] at second'
      rw [← Option.some.inj first'] at mapped
      rw [← Option.some.inj second'] at mapped'
      have same := mapByte_injective wf.blockSize.1 wf.apart mapped mapped'
      omega

end Reads

/-! ### Files with one leaf -/

def Small (fs : Fs) (bytes : ByteMem) (inode : Inode) : Prop :=
  ∀ e ∈ treeExtents fs bytes inode, (e.blockNo + e.len) * fs.blockSize ≤ 2 ^ 32

instance (fs : Fs) (bytes : ByteMem) (inode : Inode) : Decidable (Small fs bytes inode) :=
  inferInstanceAs (Decidable (∀ e ∈ _, _))

section OneLeaf

variable {fs : Fs} {bytes : ByteMem} {inode : Inode} {e : Extent}

theorem firstLeaf_of_single (single : passes inode = 1) :
    firstLeaf fs bytes inode = treeExtents fs bytes inode := by
  unfold passes at single
  unfold firstLeaf treeExtents
  split
  · next deep =>
    rw [if_pos deep] at single
    rw [single, List.range_one, List.flatMap_singleton]
  · rfl

namespace WellFormed

variable (wf : WellFormed fs bytes inode) (small : Small fs bytes inode)
include wf small

theorem dest (inTree : e ∈ treeExtents fs bytes inode) : e.dest fs = e.blockNo * fs.blockSize := by
  have bound := small e inTree
  have some_ := Nat.mul_pos (wf.lens e inTree).1 wf.blockSize.1
  rw [Nat.add_mul] at bound
  exact Nat.mod_eq_of_lt (by omega)

theorem copy_covers (inTree : e ∈ treeExtents fs bytes inode) (j : Nat) :
    (e.copy fs).Covers j ↔ e.Covers (j / fs.blockSize) := by
  unfold Copy.Covers Extent.Covers
  rw [Nat.le_div_iff_mul_le wf.blockSize.1, Nat.div_lt_iff_lt_mul wf.blockSize.1, Nat.add_mul,
    ← wf.dest small inTree, ← wf.lenBytes inTree]
  rfl

theorem copy_position (inTree : e ∈ treeExtents fs bytes inode) {j : Nat}
    (covers : e.Covers (j / fs.blockSize)) : (e.copy fs).position j =
      (e.start + (j / fs.blockSize - e.blockNo)) * fs.blockSize + fs.fsOffset + j % fs.blockSize := by
  show fs.blockAddr e.start + (j - e.dest fs) = _
  have split := Nat.div_add_mod' j fs.blockSize
  have before := Nat.mul_le_mul_right fs.blockSize covers.1
  rw [wf.addr inTree, wf.dest small inTree, Nat.add_mul, Nat.sub_mul]
  omega

theorem source_sublist {extents : List Extent} (sub : extents.Sublist (treeExtents fs bytes inode))
    (j : Nat) : sourceOf (extents.map (Extent.copy fs)) j = mapByte fs extents j := by
  have once : (extents.map (Extent.copy fs)).Pairwise fun c d => ¬ (c.Covers j ∧ d.Covers j) := by
    rw [List.pairwise_map]
    refine (wf.sorted.sublist sub).imp_of_mem fun mem mem' before both => ?_
    have left := (wf.copy_covers small (sub.subset mem) j).mp both.1
    have right := (wf.copy_covers small (sub.subset mem') j).mp both.2
    unfold Extent.Covers at left right
    omega
  have sameTest : extents.find? ((fun c : Copy => decide (c.Covers j)) ∘ Extent.copy fs) =
      extents.find? (·.Covers (j / fs.blockSize)) := List.find?_congr fun e mem =>
    decide_eq_decide.mpr (wf.copy_covers small (sub.subset mem) j)
  rw [sourceOf_eq_find once, List.find?_map, sameTest]
  unfold mapByte mapBlock
  cases found : extents.find? (·.Covers (j / fs.blockSize)) with
  | none => rfl
  | some e =>
    have covers : e.Covers (j / fs.blockSize) := by simpa using List.find?_some found
    exact congrArg some
      (wf.copy_position small (sub.subset (List.mem_of_find?_eq_some found)) covers)

theorem source_one {extents : List Extent} (sub : extents.Sublist (treeExtents fs bytes inode))
    (j : Nat) : sourceOf (placed fs extents 1) j = mapByte fs extents j := by
  have moved : extents.map (fun e => (e.copy fs).shift 0) =
      (extents.map (Extent.copy fs)).map (Copy.shift 0) := by
    rw [List.map_map]
    rfl
  rw [← sourceOf_shift _ 0, placed_one, moved, sourceOf_shift, wf.source_sublist small sub]

theorem source_single (single : passes inode = 1) (j : Nat) :
    sourceOf (treeCopies fs bytes inode) j = mapByte fs (treeExtents fs bytes inode) j := by
  unfold treeCopies
  rw [single, firstLeaf_of_single single, wf.source_one small (List.Sublist.refl _)]

theorem matches_single_iff (single : passes inode = 1) (filled : treeExtents fs bytes inode ≠ [])
    (offset len : Nat) : Matches fs bytes inode offset len ↔
      offset = 0 ∧ len = treeTotal fs bytes inode ∧
        ∀ j < len, mapByte fs (treeExtents fs bytes inode) j ≠ none := by
  constructor
  · intro fits
    have fromStart : offset = 0 := by
      have some_ : 0 < len := by
        rw [fits.length, treeTotal, single, Nat.one_mul, firstLeaf_of_single single]
        obtain ⟨init, last, isTree⟩ := (List.eq_nil_or_concat' _).resolve_left filled
        have inTree : last ∈ treeExtents fs bytes inode := by rw [isTree]; simp
        rw [isTree]
        exact Nat.zero_lt_of_lt (last_dest_lt init (wf.lenBytes_ne inTree))
      obtain ⟨pos, source, mapped⟩ := fits.bytes 0 some_
      rw [wf.source_single small single] at source
      exact mapByte_injective wf.blockSize.1 wf.apart mapped source
    refine ⟨fromStart, fits.length, fun j bound hole => ?_⟩
    obtain ⟨pos, source, -⟩ := fits.bytes j bound
    rw [wf.source_single small single, hole] at source
    cases source
  · rintro ⟨rfl, length, dense⟩
    refine ⟨length, fun j bound => ?_⟩
    obtain ⟨pos, mapped⟩ := Option.ne_none_iff_exists'.mp (dense j bound)
    rw [wf.source_single small single, Nat.zero_add]
    exact ⟨pos, mapped, mapped⟩

end WellFormed

/-! ### Which reads are right -/

end OneLeaf

/-! #### Two small files -/

def headerBytes (entries depth : Byte) : List Byte := [0x0A, 0xF3, entries, 0, 4, 0, depth, 0, 0, 0, 0, 0]

def extentBytes (blockNo start : Byte) : List Byte := [blockNo, 0, 0, 0, 1, 0, 0, 0, start, 0, 0, 0]

def indexBytes (block leaf : Byte) : List Byte := [block, 0, 0, 0, leaf, 0, 0, 0, 0, 0, 0, 0]

def zeroMem : ByteMem := fun _ => 0

def sampleFs : Fs := ⟨1024, 0⟩

def flatInode : Inode := ⟨0x81A4, 1024, 0, zeroMem.store 0 (headerBytes 1 0 ++ extentBytes 0 5)⟩

theorem flat_wellFormed : WellFormed sampleFs zeroMem flatInode := by decide +kernel

theorem flat_small : Small sampleFs zeroMem flatInode := by decide +kernel

def splitInode : Inode :=
  ⟨0x81A4, 2048, 0, zeroMem.store 0 (headerBytes 2 1 ++ indexBytes 0 1 ++ indexBytes 1 2)⟩

def splitBytes : ByteMem :=
  ((zeroMem.store 1024 (headerBytes 1 0 ++ extentBytes 0 3)).store 2048
    (headerBytes 1 0 ++ extentBytes 1 4)).store 4096 [7]

def splitRun : Int × Io :=
  ext4ReadFile sampleFs (cleanDisk splitBytes) splitInode 0 0 2048 (startIo zeroMem)

end Cboot.Ext4
