/-
**What a read that succeeds has placed.**

Below 4 GiB the extents of the first leaf of a file are placed at their own distance from the start
of the buffer, and what is read later, once or several times, comes behind them. So a read that
succeeds has placed each byte of the file that lies in one of these extents, also when errors were
dropped on the way; and it has written up to the number of bytes that it returns.
-/

import Cboot.Ext4.FileBytes

namespace Cboot.Ext4

open ByteMem

/-! ### What is left alone -/

section Frame

variable {a : Nat}

theorem blockdevRead_frame (disk : Disk) {buf : Nat} (below : a < buf) (addr len : Nat) (io : Io) :
    (tegrablBlockdevRead disk buf addr len io).2.mem a = io.mem a := by
  unfold tegrablBlockdevRead
  split <;> exact copyFrom_outside _ _ (.inl below)

theorem extentLoop_frame (fs : Fs) (disk : Disk) {buf : Nat} (below : a < buf) (extents : List Extent)
    (cursor : ExtentCursor) (io : Io) :
    (extentLoop fs disk buf extents cursor io).2.mem a = io.mem a := by
  induction extents generalizing cursor io with
  | nil => rfl
  | cons e rest ih =>
    have kept := blockdevRead_frame disk (Nat.lt_add_right (e.dest fs) below)
      (fs.blockAddr e.start) (e.lenBytes fs) io
    rw [extentLoop]
    split
    · next io' ran => rwa [ran] at kept
    · next io' ran =>
      rw [ran] at kept
      exact (ih _ io').trans kept

theorem readExtent_frame (fs : Fs) (disk : Disk) {buf : Nat} (below : a < buf) (node : ByteMem) (io : Io) :
    (ext4ReadExtent fs disk node buf io).2.mem a = io.mem a := by
  have kept := extentLoop_frame fs disk below (nodeExtents node) ⟨0, 0, 0⟩ io
  unfold ext4ReadExtent
  split
  · next err io' ran => rwa [ran] at kept
  · next cursor io' ran => rwa [ran] at kept

theorem extentLoop_writes (fs : Fs) (disk : Disk) (buf : Nat) (extents : List Extent)
    (cursor : ExtentCursor) (io : Io) {w : Nat × Nat}
    (written : w ∈ (extentLoop fs disk buf extents cursor io).2.writes) :
    w ∈ io.writes ∨ ∃ e ∈ extents, w = (buf + e.dest fs, e.lenBytes fs) := by
  induction extents generalizing cursor io with
  | nil => exact .inl written
  | cons e rest ih =>
    have logged : (tegrablBlockdevRead disk (buf + e.dest fs) (fs.blockAddr e.start)
        (e.lenBytes fs) io).2.writes = io.writes ++ [(buf + e.dest fs, e.lenBytes fs)] := by
      unfold tegrablBlockdevRead
      split <;> rfl
    have first : ∀ {w : Nat × Nat}, w ∈ io.writes ++ [(buf + e.dest fs, e.lenBytes fs)] →
        w ∈ io.writes ∨ ∃ f ∈ e :: rest, w = (buf + f.dest fs, f.lenBytes fs) := by
      intro w inLog
      rcases List.mem_append.mp inLog with old | new
      · exact .inl old
      · exact .inr ⟨e, .head _, List.mem_singleton.mp new⟩
    rw [extentLoop] at written
    split at written
    · next io' ran =>
      rw [ran] at logged
      exact first (logged ▸ written)
    · next io' ran =>
      rw [ran] at logged
      rcases ih _ io' written with old | ⟨f, inRest, same⟩
      · exact first (logged ▸ old)
      · exact .inr ⟨f, .tail e inRest, same⟩

theorem readExtent_writes (fs : Fs) (disk : Disk) (node : ByteMem) (buf : Nat) (io : Io)
    {w : Nat × Nat} (written : w ∈ (ext4ReadExtent fs disk node buf io).2.writes) :
    w ∈ io.writes ∨ ∃ e ∈ nodeExtents node, w = (buf + e.dest fs, e.lenBytes fs) := by
  refine extentLoop_writes fs disk buf (nodeExtents node) ⟨0, 0, 0⟩ io ?_
  unfold ext4ReadExtent at written
  split at written
  · next err io' ran => rwa [ran]
  · next cursor io' ran => rwa [ran]

theorem readNode_mem (fs : Fs) (disk : Disk) (block : Nat) (io : Io) :
    (readNode fs disk block io).2.mem = io.mem ∧ (readNode fs disk block io).2.writes = io.writes := by
  unfold readNode
  dsimp only
  split
  · exact ⟨rfl, rfl⟩
  · split <;> exact ⟨rfl, rfl⟩

end Frame

/-! ### The places of the first leaf -/

section Cover

variable {fs : Fs} {disk : Disk} {inode : Inode}

namespace WellFormed

variable {bytes : ByteMem} (wf : WellFormed fs bytes inode) (small : Small fs bytes inode)
include wf small

theorem leafTotal_last {init : List Extent} {last : Extent}
    (isLeaf : firstLeaf fs bytes inode = init ++ [last]) :
    leafTotal fs (firstLeaf fs bytes inode) = (last.blockNo + last.len) * fs.blockSize := by
  obtain ⟨rest, isTree⟩ := wf.tree_append
  have inFirst : ∀ e ∈ init ++ [last], e ∈ treeExtents fs bytes inode := fun e mem =>
    wf.mem_tree (isLeaf ▸ mem)
  have inTree := inFirst last (List.mem_append_right _ (List.mem_singleton_self last))
  have dest := wf.dest small inTree
  unfold leafTotal
  rw [isLeaf, List.foldl_append]
  show (if last.dest fs = 0 then _ + last.lenBytes fs else last.dest fs + last.lenBytes fs) = _
  rw [wf.lenBytes inTree, dest, Nat.add_mul]
  split
  · next atStart =>
    -- Nothing comes before an extent at the start of the file.
    have first : init = [] := by
      by_contra some_
      obtain ⟨f, more, isInit⟩ := List.exists_cons_of_ne_nil some_
      have inInit : f ∈ init := by rw [isInit]; exact (.head _)
      have sorted := wf.sorted
      rw [isTree, isLeaf] at sorted
      have before := (List.pairwise_append.mp (List.pairwise_append.mp sorted).1).2.2 f inInit last
        (List.mem_singleton_self last)
      have filled := (wf.lens f (inFirst f (List.mem_append_left _ inInit))).1
      rcases Nat.mul_eq_zero.mp atStart with zero | noBlock
      · omega
      · exact absurd noBlock wf.blockSize.1.ne'
    rw [atStart, first]
    rfl
  · rfl

theorem extent_end_le {e : Extent} (inFirst : e ∈ firstLeaf fs bytes inode) :
    (e.blockNo + e.len) * fs.blockSize ≤ leafTotal fs (firstLeaf fs bytes inode) := by
  obtain ⟨init, last, isLeaf⟩ :=
    (List.eq_nil_or_concat' (firstLeaf fs bytes inode)).resolve_left (List.ne_nil_of_mem inFirst)
  rw [wf.leafTotal_last small isLeaf]
  refine Nat.mul_le_mul_right _ ?_
  obtain ⟨rest, isTree⟩ := wf.tree_append
  have sorted := wf.sorted
  rw [isTree, isLeaf] at sorted
  rw [isLeaf] at inFirst
  rcases List.mem_append.mp inFirst with inInit | isLast
  · have before := (List.pairwise_append.mp (List.pairwise_append.mp sorted).1).2.2 e inInit last
      (List.mem_singleton_self last)
    omega
  · rw [List.mem_singleton.mp isLast]

theorem mapped_lt {j pos : Nat} (mapped : mapByte fs (firstLeaf fs bytes inode) j = some pos) :
    j < leafTotal fs (firstLeaf fs bytes inode) := by
  obtain ⟨block, isBlock, -⟩ := mapByte_some mapped
  obtain ⟨e, inFirst, covers, -⟩ := mapBlock_some isBlock
  exact Nat.lt_of_lt_of_le ((Nat.div_lt_iff_lt_mul wf.blockSize.1).mp covers.2)
    (wf.extent_end_le small inFirst)

end WellFormed

def Covered (fs : Fs) (bytes : ByteMem) (extents : List Extent) (buf : Nat) (mem : ByteMem) : Prop :=
  ∀ j pos, mapByte fs extents j = some pos → mem (buf + j) = bytes pos

def Io.Below (limit : Nat) (io : Io) : Prop :=
  ∀ w ∈ io.writes, ∀ a, w.1 ≤ a → a < w.1 + w.2 → a < limit

def EndsBy (io : Io) (limit : Nat) (io' : Io) : Prop :=
  ∀ w ∈ io'.writes, w ∈ io.writes ∨ w.1 + w.2 ≤ limit

structure Placed (fs : Fs) (disk : Disk) (extents : List Extent) (buf total : Nat) (io io' : Io) :
    Prop where
  covered : Covered fs disk.bytes extents buf io'.mem
  below : EndsBy io (buf + total) io'
  reaches : extents ≠ [] → ∃ w ∈ io'.writes, w.2 ≠ 0 ∧ w.1 + w.2 = buf + total

def InPlace (fs : Fs) (disk : Disk) (extents : List Extent) (buf : Nat) (io : Io)
    (cursor : IndexCursor) (io' : Io) : Prop :=
  cursor.bufPtr = buf + cursor.total ∧
    (cursor.total = 0 ∧ cursor.bytesRead = 0 ∧ EndsBy io (buf + leafTotal fs extents) io' ∨
      leafTotal fs extents ≤ cursor.total ∧ cursor.bytesRead = leafTotal fs extents ∧
        Covered fs disk.bytes extents buf io'.mem ∧ EndsBy io cursor.bufPtr io')

variable {buf : Nat}

theorem Covered.of_frame {bytes mem mem' : ByteMem} {extents : List Extent}
    (covered : Covered fs bytes extents buf mem)
    (kept : ∀ j pos, mapByte fs extents j = some pos → mem' (buf + j) = mem (buf + j)) :
    Covered fs bytes extents buf mem' :=
  fun j pos mapped => (kept j pos mapped).trans (covered j pos mapped)

section Passes

variable (wf : WellFormed fs disk.bytes inode) (small : Small fs disk.bytes inode)
include wf small

variable {io io' : Io}

theorem covered_of_transferred
    (done : Transferred disk
      ((firstLeaf fs disk.bytes inode).map fun e => (e.copy fs).shift buf) io io') :
    Covered fs disk.bytes (firstLeaf fs disk.bytes inode) buf io'.mem := by
  intro j pos mapped
  obtain ⟨rest, isTree⟩ := wf.tree_append
  have sub : (firstLeaf fs disk.bytes inode).Sublist (treeExtents fs disk.bytes inode) := by
    rw [isTree]
    exact List.sublist_append_left _ _
  rw [← placed_one] at done
  rw [done.byte, wf.source_one small sub, mapped]
  rfl

theorem extent_write_le {e : Extent} (inFirst : e ∈ firstLeaf fs disk.bytes inode) (base : Nat) :
    base + e.dest fs + e.lenBytes fs ≤ base + leafTotal fs (firstLeaf fs disk.bytes inode) := by
  have inTree := wf.mem_tree inFirst
  have ends := wf.extent_end_le small inFirst
  rw [wf.dest small inTree, wf.lenBytes inTree]
  rw [Nat.add_mul] at ends
  omega

theorem last_write_eq {init : List Extent} {last : Extent}
    (isLeaf : firstLeaf fs disk.bytes inode = init ++ [last]) (base : Nat) :
    base + last.dest fs + last.lenBytes fs =
      base + leafTotal fs (firstLeaf fs disk.bytes inode) := by
  have inTree : last ∈ treeExtents fs disk.bytes inode :=
    wf.mem_tree (by rw [isLeaf]; exact List.mem_append_right _ (List.mem_singleton_self last))
  rw [wf.leafTotal_last small isLeaf, wf.dest small inTree, wf.lenBytes inTree, Nat.add_mul,
    Nat.add_assoc]

theorem readExtent_endsBy {node : ByteMem} (isLeaf : nodeExtents node = firstLeaf fs disk.bytes inode)
    {buf limit : Nat} (before : EndsBy io limit io') :
    EndsBy io (max limit (buf + leafTotal fs (firstLeaf fs disk.bytes inode)))
      (ext4ReadExtent fs disk node buf io').2 := by
  intro w written
  rcases readExtent_writes fs disk node buf io' written with old | ⟨e, inLeaf, rfl⟩
  · exact (before w old).imp_right fun ends => ends.trans (le_max_left _ _)
  · rw [isLeaf] at inLeaf
    exact .inr ((extent_write_le wf small inLeaf buf).trans (le_max_right _ _))

theorem reaches_of_transferred
    (done : Transferred disk
      ((firstLeaf fs disk.bytes inode).map fun e => (e.copy fs).shift buf) io io')
    (filled : firstLeaf fs disk.bytes inode ≠ []) :
    ∃ w ∈ io'.writes,
      w.2 ≠ 0 ∧ w.1 + w.2 = buf + leafTotal fs (firstLeaf fs disk.bytes inode) := by
  obtain ⟨init, last, isLeaf⟩ := (List.eq_nil_or_concat' _).resolve_left filled
  have inTree : last ∈ treeExtents fs disk.bytes inode :=
    wf.mem_tree (by rw [isLeaf]; exact List.mem_append_right _ (List.mem_singleton_self last))
  refine ⟨(buf + last.dest fs, last.lenBytes fs), ?_, wf.lenBytes_ne inTree,
    last_write_eq wf small isLeaf buf⟩
  rw [done.writes, isLeaf, List.map_append, List.map_append]
  exact List.mem_append_right _ (List.mem_append_right _ (List.mem_singleton_self _))

theorem pass_inPlace {node : ByteMem} (isLeaf : nodeExtents node = firstLeaf fs disk.bytes inode)
    {cursor : IndexCursor}
    (inPlace : InPlace fs disk (firstLeaf fs disk.bytes inode) buf io cursor io') :
    InPlace fs disk (firstLeaf fs disk.bytes inode) buf io
        (cursor.next (ext4ReadExtent fs disk node cursor.bufPtr io').1)
        (ext4ReadExtent fs disk node cursor.bufPtr io').2 ∧
      ((cursor.next (ext4ReadExtent fs disk node cursor.bufPtr io').1).err = errGeneric ∨
        (cursor.next (ext4ReadExtent fs disk node cursor.bufPtr io').1).err = 0 ∧
        Placed fs disk (firstLeaf fs disk.bytes inode) buf
          (cursor.next (ext4ReadExtent fs disk node cursor.bufPtr io').1).total io
          (ext4ReadExtent fs disk node cursor.bufPtr io').2) := by
  obtain ⟨isPtr, state⟩ := inPlace
  have endsBy : ∀ {limit : Nat}, EndsBy io limit io' → EndsBy io (max limit
      (cursor.bufPtr + leafTotal fs (firstLeaf fs disk.bytes inode)))
      (ext4ReadExtent fs disk node cursor.bufPtr io').2 := fun before =>
    readExtent_endsBy wf small isLeaf before
  -- What lies behind the first leaf does not touch it.
  have behind : leafTotal fs (firstLeaf fs disk.bytes inode) ≤ cursor.total →
      Covered fs disk.bytes (firstLeaf fs disk.bytes inode) buf io'.mem →
      Covered fs disk.bytes (firstLeaf fs disk.bytes inode) buf
        (ext4ReadExtent fs disk node cursor.bufPtr io').2.mem := by
    intro later covered
    refine covered.of_frame fun j pos mapped => ?_
    have below := wf.mapped_lt small mapped
    exact readExtent_frame fs disk (by omega) node io'
  rcases readExtent_cases fs disk node cursor.bufPtr io' with ⟨out, ran, done⟩ | ⟨out, ran, -⟩
  · rw [isLeaf] at ran done
    rw [ran] at endsBy behind ⊢
    have covered : Covered fs disk.bytes (firstLeaf fs disk.bytes inode) buf out.mem := by
      rcases state with ⟨atStart, -⟩ | ⟨later, -, covered, -⟩
      · rw [isPtr, atStart, Nat.add_zero] at done
        exact covered_of_transferred wf small done
      · exact behind later covered
    have ends : EndsBy io (cursor.bufPtr + leafTotal fs (firstLeaf fs disk.bytes inode)) out := by
      rcases state with ⟨atStart, -, before⟩ | ⟨-, -, -, before⟩
      · have both := endsBy before
        rw [isPtr, atStart, Nat.add_zero, max_self] at both
        rwa [isPtr, atStart, Nat.add_zero]
      · have both := endsBy before
        rwa [max_eq_right (Nat.le_add_right _ _)] at both
    have nextPtr : cursor.bufPtr + leafTotal fs (firstLeaf fs disk.bytes inode) =
        buf + (cursor.total + leafTotal fs (firstLeaf fs disk.bytes inode)) := by omega
    refine ⟨⟨nextPtr, .inr ⟨Nat.le_add_left _ _, rfl, covered, ends⟩⟩, .inr ⟨rfl, covered, ?_, ?_⟩⟩
    · exact nextPtr ▸ ends
    · exact fun filled => nextPtr ▸ reaches_of_transferred wf small done filled
  · refine ⟨?_, .inl (by rw [ran]; rfl)⟩
    rw [ran] at endsBy behind ⊢
    rcases state with ⟨atStart, nothing, before⟩ | ⟨later, stale, covered, before⟩
    · have both := endsBy before
      rw [isPtr, atStart, Nat.add_zero, max_self] at both
      refine ⟨?_, .inl ⟨?_, nothing, both⟩⟩
      · show cursor.bufPtr + cursor.bytesRead = buf + (cursor.total + cursor.bytesRead)
        omega
      · show cursor.total + cursor.bytesRead = 0
        omega
    · have both := endsBy before
      rw [max_eq_right (Nat.le_add_right _ _)] at both
      refine ⟨?_, .inr ⟨?_, stale, behind later covered, ?_⟩⟩
      · show cursor.bufPtr + cursor.bytesRead = buf + (cursor.total + cursor.bytesRead)
        omega
      · exact Nat.le_trans later (Nat.le_add_right _ _)
      · show EndsBy io (cursor.bufPtr + cursor.bytesRead) out
        rwa [stale]

theorem indexLoop_placed (isLeaf : nodeExtents (fs.blockAt disk.bytes (leafBlock inode.blocks 0)) =
      firstLeaf fs disk.bytes inode) (count : Nat) {cursor cursor' : IndexCursor}
    {io io' out : Io} (inPlace : InPlace fs disk (firstLeaf fs disk.bytes inode) buf io cursor io')
    (ran : indexLoop fs disk inode.blocks count cursor io' = (.ok cursor', out)) :
    InPlace fs disk (firstLeaf fs disk.bytes inode) buf io cursor' out ∧
      (0 < count → cursor'.err = errGeneric ∨ cursor'.err = 0 ∧
        Placed fs disk (firstLeaf fs disk.bytes inode) buf cursor'.total io out) := by
  induction count generalizing cursor io' with
  | zero =>
    obtain ⟨same, rfl⟩ := Prod.mk.inj ran
    obtain rfl := Except.ok.inj same
    exact ⟨inPlace, fun some_ => absurd some_ (Nat.lt_irrefl 0)⟩
  | succ count ih =>
    rw [indexLoop] at ran
    rcases readNode_cases fs disk (leafBlock inode.blocks 0) io' with
      ⟨mid, read, -⟩ | ⟨err, mid, read, -⟩
    · have midPlace : InPlace fs disk (firstLeaf fs disk.bytes inode) buf io cursor mid := by
        obtain ⟨sameMem, sameWrites⟩ := readNode_mem fs disk (leafBlock inode.blocks 0) io'
        rw [read] at sameMem sameWrites
        dsimp only at sameMem sameWrites
        unfold InPlace EndsBy
        rw [sameMem, sameWrites]
        exact inPlace
      rw [read] at ran
      dsimp only at ran
      obtain ⟨nextPlace, result⟩ := pass_inPlace wf small isLeaf midPlace
      obtain ⟨lastPlace, later⟩ := ih nextPlace ran
      refine ⟨lastPlace, fun _ => ?_⟩
      rcases Nat.eq_zero_or_pos count with rfl | some_
      · rw [indexLoop] at ran
        obtain ⟨same, rfl⟩ := Prod.mk.inj ran
        obtain rfl := Except.ok.inj same
        exact result
      · exact later some_
    · rw [read] at ran
      cases congrArg Prod.fst ran

theorem readData_placed {ret : Int}
    (ran : ext4ReadDataFromExtent fs disk inode buf io = (ret, io')) :
    IsReadError ret ∨ ∃ total : Nat, ret = total ∧
      Placed fs disk (firstLeaf fs disk.bytes inode) buf total io io' := by
  unfold ext4ReadDataFromExtent at ran
  rw [if_neg (not_not_intro wf.magic)] at ran
  by_cases deep : 0 < nodeDepth inode.blocks
  · have isLeaf : firstLeaf fs disk.bytes inode =
        nodeExtents (fs.blockAt disk.bytes (leafBlock inode.blocks 0)) := if_pos deep
    rw [if_pos deep] at ran
    split at ran
    · next err mid stopped =>
      have same : err = ret := congrArg Prod.fst ran
      exact .inl (same ▸ indexLoop_error _ stopped)
    · next cursor mid passed =>
      obtain ⟨isRet, rfl⟩ := Prod.mk.inj ran
      have start : InPlace fs disk (firstLeaf fs disk.bytes inode) buf io ⟨buf, 0, 0, 0⟩ io :=
        ⟨rfl, .inl ⟨rfl, rfl, fun w old => .inl old⟩⟩
      rcases (indexLoop_placed wf small isLeaf.symm _ start passed).2 (wf.indexed deep) with
        dropped | ⟨noError, placed⟩
      · have negative : cursor.err < 0 := by rw [dropped]; decide
        rw [if_pos negative, dropped] at isRet
        exact .inl (.inl isRet.symm)
      · rw [noError, if_neg (Int.lt_irrefl 0)] at isRet
        exact .inr ⟨cursor.total, isRet.symm, placed⟩
  · have isLeaf : firstLeaf fs disk.bytes inode = nodeExtents inode.blocks := if_neg deep
    have unwritten : EndsBy io 0 io := fun w old => .inl old
    have endsBy : EndsBy io (max 0 (buf + leafTotal fs (firstLeaf fs disk.bytes inode)))
        (ext4ReadExtent fs disk inode.blocks buf io).2 :=
      readExtent_endsBy wf small isLeaf.symm unwritten
    rw [if_neg deep] at ran
    rcases readExtent_cases fs disk inode.blocks buf io with ⟨mid, read, done⟩ | ⟨mid, read, -⟩
    · rw [read] at ran endsBy
      obtain ⟨rfl, rfl⟩ := Prod.mk.inj ran
      rw [max_eq_right (Nat.zero_le _)] at endsBy
      rw [← isLeaf] at done ⊢
      exact .inr ⟨_, rfl, covered_of_transferred wf small done, endsBy,
        reaches_of_transferred wf small done⟩
    · rw [read] at ran
      obtain ⟨rfl, -⟩ := Prod.mk.inj ran
      exact .inl (.inl rfl)

/-! ### How far the reads go -/

theorem readData_below_iff {buf n : Nat} {ret : Int} (unwritten : io.writes = [])
    (ran : ext4ReadDataFromExtent fs disk inode buf io = (ret, io')) (succeeded : ¬ IsReadError ret) :
    io'.Below (buf + n) ↔ ret ≤ n := by
  obtain ⟨total, rfl, placed⟩ := (readData_placed wf small ran).resolve_left succeeded
  constructor
  · intro below
    rcases eq_or_ne (firstLeaf fs disk.bytes inode) [] with empty | filled
    · have nothing : (total : Int) = 0 := by
        by_cases deep : 0 < nodeDepth inode.blocks
        · exact readData_empty wf.magic deep empty ran (Int.natCast_nonneg total)
        · have isLeaf : firstLeaf fs disk.bytes inode = nodeExtents inode.blocks := if_neg deep
          unfold ext4ReadDataFromExtent ext4ReadExtent at ran
          rw [if_neg (not_not_intro wf.magic), if_neg deep, ← isLeaf, empty] at ran
          exact (congrArg Prod.fst ran).symm
      omega
    · obtain ⟨w, written, some_, ends⟩ := placed.reaches filled
      have last := below w written (w.1 + w.2 - 1) (by omega) (by omega)
      omega
  · intro within w written a above before
    have ends := (placed.below w written).resolve_left (by rw [unwritten]; exact List.not_mem_nil)
    omega

end Passes

end Cover

end Cboot.Ext4
