/-
**Writes of bytes.**

`tegrabl_blockdev_write` reads, patches and writes back a partial first and a partial last block,
and writes the whole blocks between them. It looks at the result of every call but one: the error of
the write of the partial first block is dropped (`headCall` keeps it).
-/

import Cboot.BlockDev.Transfer

namespace Cboot.BlockDev

open Prog

/-! ### Rules for writes of the driver -/

section Calls

variable {σ : Type} {pre : World σ → Prop} {dev : Bdev} {drv : Driver σ} {content : σ → ByteMem}
  {buf block count : Nat}

structure Writes (dev : Bdev) (content : σ → ByteMem) (drv : Driver σ) : Prop where
  ok : ∀ buf block count mem s mem' s', drv.writeBlock buf block count mem s = (.ok (), mem', s') →
    mem' = mem ∧ content s' =
      (content s).copyFrom mem (block * dev.blockSize) buf (count * dev.blockSize)
  failed : ∀ buf block count mem s e mem' s',
    drv.writeBlock buf block count mem s = (.error e, mem', s') →
      mem' = mem ∧ ∀ a, a < block * dev.blockSize ∨
        block * dev.blockSize + count * dev.blockSize ≤ a → content s' a = content s a

theorem writeBlocks_triple (writes : Writes dev content drv) {post err : World σ → Prop}
    (refused : ∀ w, pre w → err w)
    (done : ∀ w s', pre w → content s' =
      (content w.driver).copyFrom w.mem (block * dev.blockSize) buf (count * dev.blockSize) →
        post ⟨w.mem, s', w.calls ++ [(block, count)]⟩)
    (torn : ∀ w s', pre w → (∀ a, a < block * dev.blockSize ∨
      block * dev.blockSize + count * dev.blockSize ≤ a → content s' a = content w.driver a) →
        err ⟨w.mem, s', w.calls ++ [(block, count)]⟩) :
    Triple pre (writeBlocks dev drv buf block count) (fun _ => post) err := by
  refine Triple.guarded refused fun _ w start x run => ?_
  cases run
  cases called : drv.writeBlock buf block count w.mem w.driver with
  | mk result after =>
    obtain ⟨mem', s'⟩ := after
    cases result with
    | error e =>
      obtain ⟨rfl, kept⟩ := writes.failed buf block count w.mem w.driver e mem' s' called
      exact torn w s' start kept
    | ok _ =>
      obtain ⟨rfl, written⟩ := writes.ok buf block count w.mem w.driver mem' s' called
      exact done w s' start written

end Calls

/-! ### The device between the phases -/

def Transfer.written (t : Transfer) (base mem : ByteMem) (skip upto : Nat) : ByteMem :=
  base.copyFrom mem (t.offset + skip) (t.buffer + skip) (upto - skip)

theorem Transfer.written_append (t : Transfer) (base mem : ByteMem) {skip upto : Nat}
    (le : skip ≤ upto) (n : Nat) :
    (t.written base mem skip upto).copyFrom mem (t.offset + upto) (t.buffer + upto) n =
      t.written base mem skip (upto + n) := by
  have place := ByteMem.copyFrom_append base mem (t.offset + skip) (t.buffer + skip) (upto - skip) n
  rw [Nat.add_assoc, Nat.add_assoc, Nat.add_sub_cancel' le] at place
  rw [Transfer.written, place, Transfer.written, Nat.sub_add_comm le]

theorem Transfer.written_self (t : Transfer) (base mem : ByteMem) (skip : Nat) :
    t.written base mem skip skip = base := by
  funext a
  exact ByteMem.copyFrom_outside _ _ (by omega)

section Write

variable {σ : Type} {dev : Bdev} {drv : Driver σ} {scratch : Scratch} {content : σ → ByteMem}
  {t : Transfer} {mem bytes base : ByteMem} {c : Cursor} {tmp first n skip source m : Nat}

structure Stands (dev : Bdev) (scratch : Scratch) (content : σ → ByteMem) (t : Transfer)
    (mem bytes : ByteMem) (w : World σ) : Prop where
  mem : ∀ a, ¬ scratch.Holds dev t.len a → w.mem a = mem a
  bytes : content w.driver = bytes

structure Filled (dev : Bdev) (scratch : Scratch) (content : σ → ByteMem) (t : Transfer)
    (mem bytes : ByteMem) (tmp first n skip m : Nat) (w : World σ) : Prop where
  stands : Stands dev scratch content t mem bytes w
  around : ∀ i < n, i < skip ∨ skip + m ≤ i → w.mem (tmp + i) = bytes (first + i)

structure Patched (dev : Bdev) (scratch : Scratch) (content : σ → ByteMem) (t : Transfer)
    (mem bytes : ByteMem) (tmp first n skip source m : Nat) (w : World σ) : Prop where
  filled : Filled dev scratch content t mem bytes tmp first n skip m w
  inner : ∀ i < m, w.mem (tmp + (skip + i)) = mem (source + i)

theorem fill_triple (reads : Reads dev content drv) {block count : Nat} (skip m : Nat)
    (own : ∀ a, tmp ≤ a → a < tmp + count * dev.blockSize → scratch.Holds dev t.len a) :
    Triple (Stands dev scratch content t mem bytes) (readBlocks dev drv tmp block count)
      (fun _ => Filled dev scratch content t mem bytes tmp (block * dev.blockSize)
        (count * dev.blockSize) skip m) fun _ => True := by
  refine readBlocks_triple reads fun w driver stands kept =>
    ⟨⟨fun a free => ?_, kept.trans stands.bytes⟩, fun i bound _ => ?_⟩
  · have away : a < tmp ∨ tmp + count * dev.blockSize ≤ a := by
      by_contra inBuffer
      exact free (own a (by omega) (by omega))
    rw [← stands.mem a free]
    exact ByteMem.copyFrom_outside _ _ away
  · rw [← stands.bytes]
    refine (ByteMem.copyFrom_inside _ _ (Nat.le_add_right _ _) (by omega)).trans ?_
    rw [Nat.add_sub_cancel_left]

theorem patch_triple (own : ∀ a, tmp ≤ a → a < tmp + n → scratch.Holds dev t.len a)
    (within : skip + m ≤ n) (caller : ∀ i < m, ¬ scratch.Holds dev t.len (source + i)) :
    Triple (Filled dev scratch content t mem bytes tmp first n skip m)
      (memcpy (tmp + skip) source m)
      (fun _ => Patched dev scratch content t mem bytes tmp first n skip source m)
      fun _ => True := by
  refine Triple.modify fun w filled =>
    ⟨⟨⟨fun a free => ?_, filled.stands.bytes⟩, fun i bound outside => ?_⟩, fun i bound => ?_⟩
  · have away : a < tmp + skip ∨ tmp + skip + m ≤ a := by
      by_contra inBuffer
      exact free (own a (by omega) (by omega))
    rw [← filled.stands.mem a free]
    exact ByteMem.memmove_outside _ _ _ _ _ away
  · rw [← filled.around i bound outside]
    exact ByteMem.memmove_outside _ _ _ _ _ (by omega)
  · rw [← filled.stands.mem _ (caller i bound), ← Nat.add_assoc]
    exact ByteMem.memmove_inside _ _ _ _ _ bound

theorem store_triple (writes : Writes dev content drv) {block count : Nat}
    (within : skip + m ≤ count * dev.blockSize) :
    Triple (Patched dev scratch content t mem bytes tmp (block * dev.blockSize)
        (count * dev.blockSize) skip source m) (writeBlocks dev drv tmp block count)
      (fun _ => Stands dev scratch content t mem
        (bytes.copyFrom mem (block * dev.blockSize + skip) source m))
      (fun w => (∀ a, ¬ scratch.Holds dev t.len a → w.mem a = mem a) ∧
        ∀ a, a < block * dev.blockSize ∨ block * dev.blockSize + count * dev.blockSize ≤ a →
          content w.driver a = bytes a) := by
  refine writeBlocks_triple writes (fun w patched => ?_) (fun w driver patched written => ?_)
    fun w driver patched kept => ?_
  · exact ⟨patched.filled.stands.mem, fun a _ => congrFun patched.filled.stands.bytes a⟩
  · refine ⟨patched.filled.stands.mem, ?_⟩
    show content driver = _
    rw [written, patched.filled.stands.bytes]
    exact ByteMem.copyFrom_patch within patched.inner patched.filled.around
  · refine ⟨patched.filled.stands.mem, fun a outside => ?_⟩
    show content driver a = _
    rw [kept a outside, patched.filled.stands.bytes]

/-! ### The phases -/

def headCall (dev : Bdev) (drv : Driver σ) (scratch : Scratch) (offset : Nat) (c : Cursor) :
    Prog ErrorValue (World σ) Unit := do
  readBlocks dev drv scratch.partialBlockBuf c.block 1
  memcpy (scratch.partialBlockBuf + offset % dev.blockSize) c.buf (headBytes dev offset c.len)
  writeBlocks dev drv scratch.partialBlockBuf c.block 1

def Transfer.headWritten (t : Transfer) (dev : Bdev) (base mem : ByteMem) : ByteMem :=
  base.copyFrom mem t.offset t.buffer (headBytes dev t.offset t.len)

structure HeadRun (dev : Bdev) (drv : Driver σ) (scratch : Scratch) (content : σ → ByteMem)
    (t : Transfer) (before after : World σ) : Prop where
  ran : ∃ result, headCall dev drv scratch t.offset (t.start dev) before = some (result, after) ∧
    (result = .ok () →
      content after.driver = t.headWritten dev (content before.driver) before.mem)
  kept : ∀ a, t.offset + headBytes dev t.offset t.len ≤ a → a < t.offset + t.len →
    content after.driver a = content before.driver a

structure Begun (dev : Bdev) (drv : Driver σ) (scratch : Scratch) (content : σ → ByteMem)
    (t : Transfer) (before : World σ) (c : Cursor) (after : World σ) : Prop where
  at_ : At dev t c
  stands : Stands dev scratch content t before.mem (content after.driver) after
  head : t.offset % dev.blockSize = 0 ∧ c.len = t.len ∧ after = before ∨
    t.offset % dev.blockSize ≠ 0 ∧ c.len = t.len - headBytes dev t.offset t.len ∧
      HeadRun dev drv scratch content t before after

theorem Transfer.Inside.past_head (inside : t.Inside dev) {a : Nat}
    (above : t.offset + headBytes dev t.offset t.len ≤ a) (below : a < t.offset + t.len) :
    t.offset / dev.blockSize % 2 ^ 32 * dev.blockSize + 1 * dev.blockSize ≤ a := by
  have division := Nat.div_add_mod t.offset dev.blockSize
  rw [Nat.mul_comm] at division
  have rest := Nat.mod_lt t.offset (blockSize_pos dev)
  rw [inside.first_block]
  unfold headBytes at above
  omega

theorem writeHead_triple (reads : Reads dev content drv) (writes : Writes dev content drv)
    (inside : t.Inside dev) (usable : scratch.Usable dev t) (apart : scratch.Apart dev t)
    {before : World σ} :
    Triple (· = before) (writeHead dev drv scratch t.offset (t.start dev))
      (Begun dev drv scratch content t before) fun _ => True := by
  have stands : Stands dev scratch content t before.mem (content before.driver) before :=
    ⟨fun _ _ => rfl, rfl⟩
  unfold writeHead
  refine Triple.ite (fun unaligned => ?_) fun aligned => ?_
  · have notNull : scratch.partialBlockBuf ≠ 0 := usable.resolve_left fun both => unaligned both.1
    have own : ∀ a, scratch.partialBlockBuf ≤ a →
        a < scratch.partialBlockBuf + 1 * dev.blockSize → scratch.Holds dev t.len a :=
      fun a lower upper => .inl ⟨notNull, lower, by omega⟩
    obtain ⟨low, high⟩ := headBytes_le dev t.offset t.len
    have within : t.offset % dev.blockSize + headBytes dev t.offset t.len ≤ 1 * dev.blockSize :=
      Nat.le_trans high (Nat.le_of_eq (Nat.one_mul _).symm)
    have division := Nat.div_add_mod t.offset dev.blockSize
    rw [Nat.mul_comm] at division
    have place : t.offset / dev.blockSize % 2 ^ 32 * dev.blockSize + t.offset % dev.blockSize =
        t.offset := by rw [inside.first_block, division]
    have caller : ∀ i < headBytes dev t.offset t.len, ¬ scratch.Holds dev t.len (t.buffer + i) :=
      fun i bound => apart _ (Nat.le_add_right _ _) (by omega)
    refine Triple.bindRun ((fill_triple reads (t.offset % dev.blockSize)
      (headBytes dev t.offset t.len) own).start stands) fun _ w₁ ran₁ filled => ?_
    refine Triple.bindRun ((patch_triple own within caller).start filled) fun _ w₂ ran₂ patched => ?_
    refine Triple.bind (Triple.dropError ((store_triple writes within).start patched)) fun _ => ?_
    refine Triple.pure fun w => ?_
    rintro ⟨result, ran₃, ended⟩
    have ran : headCall dev drv scratch t.offset (t.start dev) before = some (result, w) := by
      rw [headCall, bind_ok ran₁, bind_ok ran₂]
      exact ran₃
    cases result with
    | ok _ =>
      have written : content w.driver = t.headWritten dev (content before.driver) before.mem := by
        rw [ended.bytes]
        exact congrArg
          (fun dest => ByteMem.copyFrom _ before.mem dest t.buffer (headBytes dev t.offset t.len))
          place
      refine ⟨at_head inside, ⟨ended.mem, rfl⟩, .inr ⟨unaligned, rfl, ⟨_, ran, fun _ => written⟩, ?_⟩⟩
      intro a above below
      rw [written]
      exact ByteMem.copyFrom_outside _ _ (.inr above)
    | error e =>
      refine ⟨at_head inside, ⟨ended.1, rfl⟩, .inr ⟨unaligned, rfl, ⟨_, ran, nofun⟩, ?_⟩⟩
      intro a above below
      exact ended.2 a (.inr (inside.past_head above below))
  · refine Triple.pure fun w => ?_
    rintro rfl
    exact ⟨at_start inside (not_not.mp aligned), stands, .inl ⟨not_not.mp aligned, rfl, rfl⟩⟩

theorem At.written_advance (at_ : At dev t c) (some : 0 < c.len) {n : Nat} (le : n ≤ c.len)
    (begun : skip ≤ t.len - c.len) (blocks : Nat) :
    (t.written base mem skip (t.len - c.len)).copyFrom mem (c.block * dev.blockSize + 0) c.buf n =
      t.written base mem skip (t.len - (c.advance n blocks).len) := by
  have block := at_.block some
  have buf := at_.buf
  have len := at_.le
  have place : c.block * dev.blockSize + 0 = t.offset + (t.len - c.len) := by omega
  have from_ : c.buf = t.buffer + (t.len - c.len) := by omega
  have rest : t.len - c.len + n = t.len - (c.advance n blocks).len := by
    show t.len - c.len + n = t.len - (c.len - n)
    omega
  rw [place, from_, t.written_append base mem begun, rest]

theorem writeMiddle_triple (log2 : dev.blockSizeLog2 < 32) (writes : Writes dev content drv)
    (inside : t.Inside dev) (apart : scratch.Apart dev t) (at_ : At dev t c)
    (begun : skip ≤ t.len - c.len) :
    Triple (Stands dev scratch content t mem (t.written base mem skip (t.len - c.len)))
      (writeMiddle dev drv scratch c)
      (fun c w => (At dev t c ∧ skip ≤ t.len - c.len ∧ c.len < dev.blockSize) ∧
        Stands dev scratch content t mem (t.written base mem skip (t.len - c.len)) w)
      fun _ => True := by
  have word : 2 ^ dev.blockSizeLog2 % 2 ^ 32 = dev.blockSize := Nat.mod_eq_of_lt (blockSize_lt log2)
  unfold writeMiddle
  rw [word]
  refine Triple.ite (fun big => ?_) fun small => ?_
  · obtain ⟨bytes, count, after, small⟩ := at_.middle inside big
    have whole := Nat.div_mul_le_self c.len dev.blockSize
    have some : 0 < c.len := Nat.lt_of_lt_of_le (blockSize_pos dev) big
    have le := at_.le
    have buf := at_.buf
    have caller : ∀ i < c.len / dev.blockSize * dev.blockSize,
        ¬ scratch.Holds dev t.len (c.buf + i) := fun i bound => apart _ (by omega) (by omega)
    dsimp only
    rw [bytes, count]
    set moved := c.len / dev.blockSize * dev.blockSize
    have write : ∀ tmp, Triple (Patched dev scratch content t mem
          (t.written base mem skip (t.len - c.len)) tmp (c.block * dev.blockSize)
          moved 0 c.buf moved)
        (do
          writeBlocks dev drv tmp c.block (c.len / dev.blockSize)
          return c.advance moved (c.len / dev.blockSize))
        (fun c w => (At dev t c ∧ skip ≤ t.len - c.len ∧ c.len < dev.blockSize) ∧
          Stands dev scratch content t mem (t.written base mem skip (t.len - c.len)) w)
        fun _ => True := by
      intro tmp
      refine Triple.bind ((store_triple writes (Nat.le_of_eq (Nat.zero_add _))).mono
        (fun _ => id) (fun _ _ => id) fun _ _ => trivial) fun _ => ?_
      rw [at_.written_advance some whole begun (c.len / dev.blockSize)]
      refine Triple.pure fun w stands => ⟨⟨after, ?_, small⟩, stands⟩
      exact Nat.le_trans begun (Nat.sub_le_sub_left (Nat.sub_le _ _) _)
    refine Triple.ite (fun _ => Triple.fail fun _ _ => trivial) fun _ => ?_
    refine Triple.ite (fun _ => ?_) fun _ => ?_
    · refine Triple.ite (fun _ => Triple.fail fun _ _ => trivial) fun notNull => ?_
      have copy : Triple (Filled dev scratch content t mem (t.written base mem skip (t.len - c.len))
            scratch.tempBuf (c.block * dev.blockSize) moved 0
            moved)
          (memcpy (scratch.tempBuf + 0) c.buf moved)
          (fun _ => Patched dev scratch content t mem (t.written base mem skip (t.len - c.len))
            scratch.tempBuf (c.block * dev.blockSize) moved 0 c.buf
            moved)
          fun _ => True :=
        patch_triple (fun a lower upper => .inr ⟨notNull, lower, by omega⟩) (by omega) caller
      refine Triple.bind (copy.mono (fun w stands => ⟨stands, ?_⟩) (fun _ _ => id)
        fun _ => id) fun _ => write _
      intro i bound outside
      omega
    · refine (write c.buf).mono (fun w stands => ⟨⟨stands, ?_⟩, ?_⟩) (fun _ _ => id)
        fun _ => id
      · intro i bound outside
        omega
      · intro i bound
        rw [Nat.zero_add]
        exact stands.mem _ (caller i bound)
  · exact Triple.pure fun w stands => ⟨⟨at_, begun, Nat.not_le.mp small⟩, stands⟩

theorem writeTail_triple (reads : Reads dev content drv) (writes : Writes dev content drv)
    (usable : scratch.Usable dev t) (apart : scratch.Apart dev t) (at_ : At dev t c)
    (begun : skip ≤ t.len - c.len) (small : c.len < dev.blockSize) :
    Triple (Stands dev scratch content t mem (t.written base mem skip (t.len - c.len)))
      (writeTail dev drv scratch c)
      (fun _ => Stands dev scratch content t mem (t.written base mem skip t.len))
      fun _ => True := by
  have le := at_.le
  have buf := at_.buf
  unfold writeTail
  refine Triple.ite (fun more => ?_) fun none => ?_
  · have notNull := at_.partialBuf usable more small
    have own : ∀ a, scratch.partialBlockBuf ≤ a →
        a < scratch.partialBlockBuf + 1 * dev.blockSize → scratch.Holds dev t.len a :=
      fun a lower upper => .inl ⟨notNull, lower, by omega⟩
    have within : 0 + c.len ≤ 1 * dev.blockSize := by omega
    have copy : Triple (Filled dev scratch content t mem (t.written base mem skip (t.len - c.len))
          scratch.partialBlockBuf (c.block * dev.blockSize) (1 * dev.blockSize) 0 c.len)
        (memcpy (scratch.partialBlockBuf + 0) c.buf c.len)
        (fun _ => Patched dev scratch content t mem (t.written base mem skip (t.len - c.len))
          scratch.partialBlockBuf (c.block * dev.blockSize) (1 * dev.blockSize) 0 c.buf c.len)
        fun _ => True :=
      patch_triple own within fun i bound => apart _ (by omega) (by omega)
    refine Triple.bind (fill_triple reads 0 c.len own) fun _ => Triple.bind copy fun _ => ?_
    refine (store_triple writes within).noError (fun _ w stands => ?_)
    rw [at_.written_advance more le_rfl begun 1] at stands
    have done : t.len - (c.advance c.len 1).len = t.len := by
      show t.len - (c.len - c.len) = t.len
      omega
    rwa [done] at stands
  · refine Triple.pure fun w stands => ?_
    have done : t.len - c.len = t.len := by omega
    rwa [done] at stands

structure Finished (dev : Bdev) (drv : Driver σ) (scratch : Scratch) (content : σ → ByteMem)
    (t : Transfer) (before : World σ) (c : Cursor) (first after : World σ) : Prop where
  begun : Begun dev drv scratch content t before c first
  bytes : content after.driver =
    t.written (content first.driver) before.mem (t.len - c.len) t.len

theorem defaultWrite_triple (log2 : dev.blockSizeLog2 < 32) (reads : Reads dev content drv)
    (writes : Writes dev content drv) (inside : t.Inside dev) (apart : scratch.Apart dev t)
    {before : World σ} :
    Triple (· = before) (tegrablBlockdevDefaultWrite dev drv scratch t.buffer t.offset t.len)
      (fun _ w => ∃ c first, Finished dev drv scratch content t before c first w)
      fun _ => True := by
  unfold tegrablBlockdevDefaultWrite
  refine Triple.ite (fun _ => Triple.fail fun _ _ => trivial) fun _ => ?_
  refine Triple.ite (fun _ => Triple.fail fun _ _ => trivial) fun passed => ?_
  have usable := usable_of_noPartialBuf (Bool.not_eq_true _ ▸ passed)
  refine Triple.bindRun (writeHead_triple reads writes inside usable apart) fun c first _ begun => ?_
  have start : Stands dev scratch content t before.mem
      (t.written (content first.driver) before.mem (t.len - c.len) (t.len - c.len)) first := by
    rw [t.written_self]
    exact begun.stands
  refine Triple.bind
    ((writeMiddle_triple log2 writes inside apart begun.at_ le_rfl).start start)
    fun last => Triple.fact fun ⟨at_, le, small⟩ => ?_
  exact (writeTail_triple reads writes usable apart at_ le small).weaken fun _ w stands =>
    ⟨c, first, begun, stands.bytes⟩

def HeadWritten (dev : Bdev) (drv : Driver σ) (scratch : Scratch) (content : σ → ByteMem)
    (t : Transfer) (w : World σ) : Prop :=
  ∀ result first, headCall dev drv scratch t.offset (t.start dev) w = some (result, first) →
    result = .ok () ∨ content first.driver = t.headWritten dev (content w.driver) w.mem

theorem Transfer.headWritten_append (t : Transfer) (dev : Bdev) (base mem : ByteMem) :
    t.written (t.headWritten dev base mem) mem (headBytes dev t.offset t.len) t.len =
      base.copyFrom mem t.offset t.buffer t.len := by
  obtain ⟨low, -⟩ := headBytes_le dev t.offset t.len
  rw [Transfer.written, Transfer.headWritten, ByteMem.copyFrom_append, Nat.add_sub_cancel' low]

theorem HeadRun.exact_iff {before first : World σ}
    (head : HeadRun dev drv scratch content t before first) :
    t.written (content first.driver) before.mem (headBytes dev t.offset t.len) t.len =
        (content before.driver).copyFrom before.mem t.offset t.buffer t.len ↔
      content first.driver = t.headWritten dev (content before.driver) before.mem := by
  obtain ⟨low, -⟩ := headBytes_le dev t.offset t.len
  rw [← t.headWritten_append dev]
  refine ⟨fun same => ?_, fun same => by rw [same]⟩
  funext a
  by_cases later : t.offset + headBytes dev t.offset t.len ≤ a ∧ a < t.offset + t.len
  · rw [head.kept a later.1 later.2]
    exact (ByteMem.copyFrom_outside _ _ (.inr later.1)).symm
  · have byte := congrFun same a
    unfold Transfer.written at byte
    rwa [ByteMem.copyFrom_outside _ _ (by omega), ByteMem.copyFrom_outside _ _ (by omega)] at byte

/-- **A write that succeeds** has replaced the bytes of the range, and no others, exactly when it
starts at a block or the write whose error is dropped has written its bytes. -/
theorem write_exact_iff (log2 : dev.blockSizeLog2 < 32) (blocks : dev.blockCount < 2 ^ 32)
    (reads : Reads dev content drv) (writes : Writes dev content drv)
    (inside : t.offset + t.len ≤ dev.blockCount * dev.blockSize) (apart : scratch.Apart dev t)
    {w w' : World σ}
    (run : writeBytes dev drv scratch t.buffer t.offset t.len w = some (.ok (), w')) :
    content w'.driver = (content w.driver).copyFrom w.mem t.offset t.buffer t.len ↔
      t.offset % dev.blockSize = 0 ∨ HeadWritten dev drv scratch content t w := by
  have triple : Triple (· = w) (writeBytes dev drv scratch t.buffer t.offset t.len)
      (fun _ w' => ∃ c first, Finished dev drv scratch content t w c first w') fun _ => True := by
    refine Triple.guarded (fun _ _ => trivial) fun passed => ?_
    have some := passed (decide (t.len = 0), .invalid, 10) (by simp)
    exact defaultWrite_triple log2 reads writes
      ⟨capacity_lt log2 blocks, blocks, Nat.pos_of_ne_zero (of_decide_eq_false some), inside⟩ apart
  obtain ⟨c, first, begun, bytes⟩ := triple w rfl _ run
  obtain ⟨low, -⟩ := headBytes_le dev t.offset t.len
  rw [bytes]
  obtain ⟨aligned, len, rfl⟩ | ⟨unaligned, len, head⟩ := begun.head
  · refine iff_of_true ?_ (.inl aligned)
    rw [len, Nat.sub_self]
    rfl
  · have skip : t.len - c.len = headBytes dev t.offset t.len := by omega
    rw [skip, head.exact_iff, or_iff_right unaligned]
    obtain ⟨result, ran, wrote⟩ := head.ran
    constructor
    · intro same result' first' ran'
      obtain ⟨rfl, rfl⟩ := Prod.mk.inj (Option.some.inj (ran.symm.trans ran'))
      exact .inr same
    · intro written
      exact (written result first ran).elim wrote id

end Write

theorem faultyDisk_writes (dev : Bdev) : Writes dev Disk.bytes (faultyDisk dev) := by
  refine ⟨fun _ _ _ _ _ _ _ called => Disk.call_ok called, fun _ _ _ _ _ _ _ _ called => ?_⟩
  obtain ⟨mem, bytes⟩ := Disk.call_failed called
  exact ⟨mem, fun a _ => congrFun bytes a⟩

/-- **The error of the first write is dropped**: the second of five calls fails, the write succeeds,
and the first byte of the range is the old one. -/
theorem write_drops_error : ∃ w', writeBytes tinyDev (faultyDisk tinyDev) tinyScratch 0x1001 3 10
      (tinyWorld [false, true]) = some (.ok (), w') ∧
    w'.driver.bytes 3 = 3 ∧ (tinyWorld [false, true]).mem 0x1001 = 0 :=
  ⟨_, rfl, by decide +kernel⟩

/-- Without a fault the range is written. -/
theorem write_exact_iff_tiny : ∃ w', writeBytes tinyDev (faultyDisk tinyDev) tinyScratch 0x1001 3 10
      (tinyWorld []) = some (.ok (), w') ∧
    w'.driver.bytes = (tinyWorld []).driver.bytes.copyFrom (tinyWorld []).mem 3 0x1001 10 := by
  obtain ⟨w', run⟩ : ∃ w', writeBytes tinyDev (faultyDisk tinyDev) tinyScratch 0x1001 3 10
      (tinyWorld []) = some (.ok (), w') := ⟨_, rfl⟩
  refine ⟨w', run, (write_exact_iff (t := tinyTransfer) (by decide) (by decide)
    (faultyDisk_reads tinyDev) (faultyDisk_writes tinyDev) (by decide) tiny_apart run).mpr ?_⟩
  refine .inr fun result first ran => .inl ?_
  cases ran
  rfl

end Cboot.BlockDev
