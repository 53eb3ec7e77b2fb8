/-
**Transfers of bytes.**

`tegrabl_blockdev_read` and `tegrabl_blockdev_write` transfer a range of bytes in three phases: a
partial first block, whole blocks and a partial last block. `At` ties the cursor between the phases
to the range, for both directions. Each phase of a read then moves the cursor on and keeps
`Reading`: the bytes up to the cursor are in the buffer.
-/

import Cboot.BlockDev.Device

namespace Cboot.BlockDev

open Prog

/-! ### Rules for calls of the driver -/

section Calls

variable {σ : Type} {pre : World σ → Prop}

theorem Triple.guarded {σ : Type} {pre err : σ → Prop} {post : Unit → σ → Prop}
    {checks : List (Bool × ErrReason × Nat)} {call : Prog ErrorValue σ Unit}
    (refused : ∀ s, pre s → err s)
    (made : (∀ check ∈ checks, check.1 = false) → Triple pre call post err) :
    Triple pre (guarded checks call) post err := by
  unfold BlockDev.guarded
  split
  · exact Triple.fail refused
  · next passed =>
    refine Triple.recover (made fun check member => ?_) fun error => Triple.fail fun s holds => holds
    have notFailed := List.find?_eq_none.mp passed check member
    simpa using notFailed

variable {dev : Bdev} {drv : Driver σ} {content : σ → ByteMem} {buf block count : Nat}

structure Reads (dev : Bdev) (content : σ → ByteMem) (drv : Driver σ) : Prop where
  ok : ∀ buf block count mem s mem' s', drv.readBlock buf block count mem s = (.ok (), mem', s') →
    content s' = content s ∧
      mem' = mem.copyFrom (content s) buf (block * dev.blockSize) (count * dev.blockSize)

theorem readBlocks_triple (reads : Reads dev content drv) {post : World σ → Prop}
    (step : ∀ w s', pre w → content s' = content w.driver →
      post ⟨w.mem.copyFrom (content w.driver) buf (block * dev.blockSize) (count * dev.blockSize),
        s', w.calls ++ [(block, count)]⟩) :
    Triple pre (readBlocks dev drv buf block count) (fun _ => post) fun _ => True := by
  refine Triple.guarded (fun _ _ => trivial) fun _ w start x run => ?_
  cases run
  cases called : drv.readBlock buf block count w.mem w.driver with
  | mk result after =>
    obtain ⟨mem', s'⟩ := after
    cases result with
    | error e => trivial
    | ok done =>
      obtain ⟨kept, rfl⟩ := reads.ok buf block count w.mem w.driver mem' s' called
      exact step w s' start kept

end Calls

/-! ### The cursor between the phases -/

structure Transfer where
  buffer : Nat
  offset : Nat
  len : Nat

def Transfer.start (t : Transfer) (dev : Bdev) : Cursor :=
  ⟨t.buffer, t.len, t.offset / dev.blockSize % 2 ^ 32⟩

structure Transfer.Inside (t : Transfer) (dev : Bdev) : Prop where
  fits : dev.blockCount * dev.blockSize < 2 ^ 64
  blocks : dev.blockCount < 2 ^ 32
  some : 0 < t.len
  inside : t.offset + t.len ≤ dev.blockCount * dev.blockSize

structure At (dev : Bdev) (t : Transfer) (c : Cursor) : Prop where
  le : c.len ≤ t.len
  buf : c.buf + c.len = t.buffer + t.len
  block : 0 < c.len → c.block * dev.blockSize + c.len = t.offset + t.len

section Cursor

variable {dev : Bdev} {t : Transfer} {c : Cursor}

theorem blockSize_pos (dev : Bdev) : 0 < dev.blockSize := Nat.two_pow_pos _

theorem blockSize_lt (log2 : dev.blockSizeLog2 < 32) : dev.blockSize < 2 ^ 32 :=
  Nat.pow_lt_pow_right (by decide) log2

theorem capacity_lt (log2 : dev.blockSizeLog2 < 32) (blocks : dev.blockCount < 2 ^ 32) :
    dev.blockCount * dev.blockSize < 2 ^ 64 := by
  have product := Nat.mul_lt_mul'' blocks (blockSize_lt log2)
  omega

theorem Transfer.Inside.block_mod (inside : t.Inside dev) {block : Nat}
    (starts : block * dev.blockSize < t.offset + t.len) : block % 2 ^ 32 = block := by
  have below : block * dev.blockSize < dev.blockCount * dev.blockSize :=
    Nat.lt_of_lt_of_le starts inside.inside
  exact Nat.mod_eq_of_lt (Nat.lt_trans (Nat.lt_of_mul_lt_mul_right below) inside.blocks)

theorem Transfer.Inside.first_block (inside : t.Inside dev) :
    t.offset / dev.blockSize % 2 ^ 32 = t.offset / dev.blockSize := by
  refine inside.block_mod (Nat.lt_of_le_of_lt (Nat.div_mul_le_self _ _) ?_)
  exact Nat.lt_add_of_pos_right inside.some

theorem at_start (inside : t.Inside dev) (aligned : t.offset % dev.blockSize = 0) :
    At dev t (t.start dev) := by
  refine ⟨le_rfl, rfl, fun _ => ?_⟩
  show t.offset / dev.blockSize % 2 ^ 32 * dev.blockSize + t.len = t.offset + t.len
  rw [inside.first_block, Nat.div_mul_cancel (Nat.dvd_of_mod_eq_zero aligned)]

theorem headBytes_le (dev : Bdev) (offset len : Nat) :
    headBytes dev offset len ≤ len ∧
      offset % dev.blockSize + headBytes dev offset len ≤ dev.blockSize := by
  have rest := Nat.mod_lt offset (blockSize_pos dev)
  unfold headBytes
  omega

theorem at_head (inside : t.Inside dev) :
    At dev t ((t.start dev).advance (headBytes dev t.offset t.len) 1) := by
  obtain ⟨low, -⟩ := headBytes_le dev t.offset t.len
  have rest := Nat.mod_lt t.offset (blockSize_pos dev)
  have division := Nat.div_add_mod t.offset dev.blockSize
  rw [Nat.mul_comm] at division
  refine ⟨Nat.sub_le _ _, ?_, fun more => ?_⟩
  · show t.buffer + headBytes dev t.offset t.len + (t.len - headBytes dev t.offset t.len) = _
    omega
  · change 0 < t.len - headBytes dev t.offset t.len at more
    have whole : headBytes dev t.offset t.len = dev.blockSize - t.offset % dev.blockSize := by
      unfold headBytes at more ⊢
      omega
    have next : (t.offset / dev.blockSize + 1) * dev.blockSize =
        t.offset + headBytes dev t.offset t.len := by
      rw [Nat.add_mul, Nat.one_mul, whole]
      omega
    show (t.offset / dev.blockSize % 2 ^ 32 + 1) % 2 ^ 32 * dev.blockSize +
      (t.len - headBytes dev t.offset t.len) = t.offset + t.len
    rw [inside.first_block, inside.block_mod (by rw [next]; omega), next]
    omega

theorem At.middle (at_ : At dev t c) (inside : t.Inside dev) (big : dev.blockSize ≤ c.len) :
    c.len / dev.blockSize * dev.blockSize % 2 ^ 64 = c.len / dev.blockSize * dev.blockSize ∧
      c.len / dev.blockSize % 2 ^ 32 = c.len / dev.blockSize ∧
      At dev t (c.advance (c.len / dev.blockSize * dev.blockSize) (c.len / dev.blockSize)) ∧
      c.len - c.len / dev.blockSize * dev.blockSize < dev.blockSize := by
  have positive := blockSize_pos dev
  have rest := Nat.mod_lt c.len positive
  have division := Nat.div_add_mod c.len dev.blockSize
  rw [Nat.mul_comm] at division
  have place := at_.block (by omega)
  have within := inside.inside
  have fits := inside.fits
  have count : c.len / dev.blockSize < 2 ^ 32 := by
    have below : c.len / dev.blockSize * dev.blockSize ≤ dev.blockCount * dev.blockSize := by omega
    exact Nat.lt_of_le_of_lt (Nat.le_of_mul_le_mul_right below positive) inside.blocks
  have le := at_.le
  have buf := at_.buf
  refine ⟨Nat.mod_eq_of_lt (by omega), Nat.mod_eq_of_lt count, ⟨?_, ?_, fun more => ?_⟩, by omega⟩
  · exact Nat.le_trans (Nat.sub_le _ _) le
  · show c.buf + c.len / dev.blockSize * dev.blockSize +
      (c.len - c.len / dev.blockSize * dev.blockSize) = _
    omega
  · change 0 < c.len - c.len / dev.blockSize * dev.blockSize at more
    have next : (c.block + c.len / dev.blockSize) * dev.blockSize =
        c.block * dev.blockSize + c.len / dev.blockSize * dev.blockSize := Nat.add_mul _ _ _
    show (c.block + c.len / dev.blockSize) % 2 ^ 32 * dev.blockSize +
      (c.len - c.len / dev.blockSize * dev.blockSize) = t.offset + t.len
    rw [inside.block_mod (by rw [next]; omega), next]
    omega

end Cursor

/-! ### Buffers -/

def Scratch.Holds (scratch : Scratch) (dev : Bdev) (len a : Nat) : Prop :=
  scratch.partialBlockBuf ≠ 0 ∧ scratch.partialBlockBuf ≤ a ∧
      a < scratch.partialBlockBuf + dev.blockSize ∨
    scratch.tempBuf ≠ 0 ∧ scratch.tempBuf ≤ a ∧ a < scratch.tempBuf + len

def Scratch.Apart (scratch : Scratch) (dev : Bdev) (t : Transfer) : Prop :=
  ∀ a, t.buffer ≤ a → a < t.buffer + t.len → ¬ scratch.Holds dev t.len a

def Scratch.Usable (scratch : Scratch) (dev : Bdev) (t : Transfer) : Prop :=
  t.offset % dev.blockSize = 0 ∧ t.len % dev.blockSize = 0 ∨ scratch.partialBlockBuf ≠ 0

theorem usable_of_noPartialBuf {scratch : Scratch} {dev : Bdev} {t : Transfer}
    (passed : noPartialBuf dev scratch t.offset t.len = false) : scratch.Usable dev t := by
  unfold Scratch.Usable
  simp only [noPartialBuf, Bool.and_eq_false_iff, Bool.or_eq_false_iff, decide_eq_false_iff_not,
    not_not] at passed
  exact passed

theorem At.partialBuf {scratch : Scratch} {dev : Bdev} {t : Transfer} {c : Cursor}
    (at_ : At dev t c) (usable : scratch.Usable dev t) (more : 0 < c.len)
    (small : c.len < dev.blockSize) : scratch.partialBlockBuf ≠ 0 := by
  refine usable.resolve_left fun ⟨first, last⟩ => ?_
  have rest : (t.offset + t.len) % dev.blockSize = 0 := by
    rw [Nat.add_mod, first, last, Nat.zero_add, Nat.zero_mod]
  rw [← at_.block more, Nat.mul_comm, Nat.mul_add_mod, Nat.mod_eq_of_lt small] at rest
  omega

/-! ### Reading -/

section Read

variable {σ : Type} {dev : Bdev} {drv : Driver σ} {scratch : Scratch} {content : σ → ByteMem}
  {t : Transfer} {before : World σ} {c : Cursor}

structure Reading (dev : Bdev) (scratch : Scratch) (content : σ → ByteMem) (t : Transfer)
    (before : World σ) (c : Cursor) (w : World σ) : Prop where
  kept : content w.driver = content before.driver
  mem : ∀ a, ¬ scratch.Holds dev t.len a → w.mem a =
    before.mem.copyFrom (content before.driver) t.buffer t.offset (t.len - c.len) a

structure Fetched (dev : Bdev) (scratch : Scratch) (content : σ → ByteMem) (t : Transfer)
    (before : World σ) (c : Cursor) (tmp first n : Nat) (w : World σ) : Prop where
  reading : Reading dev scratch content t before c w
  bytes : ∀ i < n, w.mem (tmp + i) = content before.driver (first + i)

theorem fetch_triple (reads : Reads dev content drv) {tmp block count : Nat}
    (own : ∀ a, tmp ≤ a → a < tmp + count * dev.blockSize → scratch.Holds dev t.len a) :
    Triple (Reading dev scratch content t before c) (readBlocks dev drv tmp block count)
      (fun _ => Fetched dev scratch content t before c tmp (block * dev.blockSize)
        (count * dev.blockSize)) fun _ => True := by
  refine readBlocks_triple reads fun w driver reading kept => ⟨⟨kept.trans reading.kept, ?_⟩, ?_⟩
  · intro a free
    have away : a < tmp ∨ tmp + count * dev.blockSize ≤ a := by
      by_contra inBuffer
      exact free (own a (by omega) (by omega))
    rw [← reading.mem a free]
    exact ByteMem.copyFrom_outside _ _ away
  · intro i bound
    rw [← reading.kept]
    refine (ByteMem.copyFrom_inside _ _ (Nat.le_add_right _ _) (by omega)).trans ?_
    rw [Nat.add_sub_cancel_left]

theorem copy_triple (buf : c.buf + c.len = t.buffer + t.len) (len : c.len ≤ t.len)
    {tmp first m skip n : Nat} (blocks : Nat) (le : n ≤ c.len) (within : skip + n ≤ m)
    (place : first + skip = t.offset + (t.len - c.len)) :
    Triple (Fetched dev scratch content t before c tmp first m) (memcpy c.buf (tmp + skip) n)
      (fun _ => Reading dev scratch content t before (c.advance n blocks)) fun _ => True := by
  refine Triple.modify fun w fetched => ⟨fetched.reading.kept, fun a free => ?_⟩
  have rest : t.len - (c.advance n blocks).len = t.len - c.len + n := by
    show t.len - (c.len - n) = _
    omega
  rw [rest, ← ByteMem.copyFrom_append]
  dsimp only
  by_cases copied : c.buf ≤ a ∧ a < c.buf + n
  · obtain ⟨i, rfl⟩ := Nat.exists_eq_add_of_le copied.1
    rw [ByteMem.memmove_inside _ _ _ _ _ (by omega), Nat.add_assoc, fetched.bytes _ (by omega),
      ByteMem.copyFrom_inside _ _ (by omega) (by omega)]
    congr 1
    omega
  · rw [ByteMem.memmove_outside _ _ _ _ _ (by omega), fetched.reading.mem a free,
      ByteMem.copyFrom_outside (before.mem.copyFrom _ _ _ _) _ (by omega)]

theorem direct_triple (reads : Reads dev content drv) (at_ : At dev t c) {count : Nat} (some : 0 < c.len)
    (le : count * dev.blockSize ≤ c.len) (blocks : Nat) :
    Triple (Reading dev scratch content t before c) (readBlocks dev drv c.buf c.block count)
      (fun _ => Reading dev scratch content t before (c.advance (count * dev.blockSize) blocks))
      fun _ => True := by
  have buf := at_.buf
  have len := at_.le
  have block := at_.block some
  refine readBlocks_triple reads fun w driver reading kept => ⟨kept.trans reading.kept, ?_⟩
  intro a free
  have rest : t.len - (c.advance (count * dev.blockSize) blocks).len =
      t.len - c.len + count * dev.blockSize := by
    show t.len - (c.len - count * dev.blockSize) = _
    omega
  rw [rest, ← ByteMem.copyFrom_append]
  dsimp only
  by_cases copied : c.buf ≤ a ∧ a < c.buf + count * dev.blockSize
  · rw [ByteMem.copyFrom_inside _ _ copied.1 copied.2, reading.kept,
      ByteMem.copyFrom_inside _ _ (by omega) (by omega)]
    congr 1
    omega
  · rw [ByteMem.copyFrom_outside _ _ (by omega), reading.mem a free,
      ByteMem.copyFrom_outside (before.mem.copyFrom _ _ _ _) _ (by omega)]

theorem readHead_triple (reads : Reads dev content drv) (inside : t.Inside dev)
    (usable : scratch.Usable dev t) :
    Triple (· = before) (readHead dev drv scratch t.offset (t.start dev))
      (fun c w => At dev t c ∧ Reading dev scratch content t before c w) fun _ => True := by
  have begin : ∀ w, w = before → Reading dev scratch content t before (t.start dev) w := by
    rintro w rfl
    refine ⟨rfl, fun a _ => ?_⟩
    show w.mem a = w.mem.copyFrom (content w.driver) t.buffer t.offset (t.len - t.len) a
    rw [ByteMem.copyFrom_outside _ _ (by omega)]
  unfold readHead
  refine Triple.ite (fun unaligned => ?_) fun aligned => ?_
  · have notNull : scratch.partialBlockBuf ≠ 0 := usable.resolve_left fun both => unaligned both.1
    obtain ⟨low, high⟩ := headBytes_le dev t.offset t.len
    have division := Nat.div_add_mod t.offset dev.blockSize
    rw [Nat.mul_comm] at division
    have place : t.offset / dev.blockSize % 2 ^ 32 * dev.blockSize + t.offset % dev.blockSize =
        t.offset + (t.len - t.len) := by
      rw [inside.first_block]
      omega
    refine Triple.mono ?_ begin (fun _ _ => id) fun _ => id
    refine Triple.bind (fetch_triple reads fun a lower upper => ?_) fun _ => ?_
    · exact .inl ⟨notNull, lower, by omega⟩
    refine Triple.bind (copy_triple rfl le_rfl 1 low ?_ place) fun _ => ?_
    · exact Nat.le_trans high (Nat.le_of_eq (Nat.one_mul _).symm)
    exact Triple.pure fun w reading => ⟨at_head inside, reading⟩
  · exact Triple.pure fun w same => ⟨at_start inside (not_not.mp aligned), begin w same⟩

theorem readMiddle_triple (log2 : dev.blockSizeLog2 < 32) (reads : Reads dev content drv)
    (inside : t.Inside dev) (at_ : At dev t c) :
    Triple (Reading dev scratch content t before c) (readMiddle dev drv scratch c)
      (fun c w => At dev t c ∧ c.len < dev.blockSize ∧ Reading dev scratch content t before c w)
      fun _ => True := by
  have word : 2 ^ dev.blockSizeLog2 % 2 ^ 32 = dev.blockSize := Nat.mod_eq_of_lt (blockSize_lt log2)
  unfold readMiddle
  rw [word]
  refine Triple.ite (fun big => ?_) fun small => ?_
  · obtain ⟨bytes, count, after, small⟩ := at_.middle inside big
    have whole := Nat.div_mul_le_self c.len dev.blockSize
    have place := at_.block (Nat.lt_of_lt_of_le (blockSize_pos dev) big)
    have le := at_.le
    dsimp only
    rw [bytes, count]
    refine Triple.ite (fun _ => Triple.fail fun _ _ => trivial) fun _ => ?_
    refine Triple.ite (fun _ => ?_) fun _ => ?_
    · refine Triple.ite (fun _ => Triple.fail fun _ _ => trivial) fun notNull => ?_
      have copy : Triple (Fetched dev scratch content t before c scratch.tempBuf
          (c.block * dev.blockSize) (c.len / dev.blockSize * dev.blockSize))
          (memcpy c.buf (scratch.tempBuf + 0) (c.len / dev.blockSize * dev.blockSize))
          (fun _ => Reading dev scratch content t before
            (c.advance (c.len / dev.blockSize * dev.blockSize) (c.len / dev.blockSize)))
          fun _ => True :=
        copy_triple at_.buf le _ whole (by omega) (by omega)
      refine Triple.bind (fetch_triple reads fun a lower upper => ?_) fun _ => ?_
      · exact .inr ⟨notNull, lower, by omega⟩
      refine Triple.bind copy fun _ => ?_
      exact Triple.pure fun w reading => ⟨after, small, reading⟩
    · refine Triple.bind (direct_triple reads at_ (by omega) whole (c.len / dev.blockSize))
        fun _ => ?_
      exact Triple.pure fun w reading => ⟨after, small, reading⟩
  · exact Triple.pure fun w reading => ⟨at_, Nat.not_le.mp small, reading⟩

theorem readTail_triple (reads : Reads dev content drv) (at_ : At dev t c)
    (usable : scratch.Usable dev t) (small : c.len < dev.blockSize) :
    Triple (Reading dev scratch content t before c) (readTail dev drv scratch c)
      (fun _ w => Reading dev scratch content t before (c.advance c.len 1) w) fun _ => True := by
  unfold readTail
  refine Triple.ite (fun more => ?_) fun none => ?_
  · have notNull := at_.partialBuf usable more small
    have place := at_.block more
    have le := at_.le
    have copy : Triple (Fetched dev scratch content t before c scratch.partialBlockBuf
        (c.block * dev.blockSize) (1 * dev.blockSize))
        (memcpy c.buf (scratch.partialBlockBuf + 0) c.len)
        (fun _ => Reading dev scratch content t before (c.advance c.len 1)) fun _ => True :=
      copy_triple at_.buf le 1 le_rfl (by omega) (by omega)
    refine Triple.bind (fetch_triple reads fun a lower upper => ?_) fun _ => copy
    exact .inl ⟨notNull, lower, by omega⟩
  · refine Triple.pure fun w reading => ⟨reading.kept, fun a free => ?_⟩
    have same : (c.advance c.len 1).len = c.len := by
      show c.len - c.len = c.len
      omega
    rw [same]
    exact reading.mem a free

theorem defaultRead_triple (log2 : dev.blockSizeLog2 < 32) (reads : Reads dev content drv)
    (inside : t.Inside dev) :
    Triple (· = before) (tegrablBlockdevDefaultRead dev drv scratch t.buffer t.offset t.len)
      (fun _ w => ∃ c : Cursor, c.len = 0 ∧ Reading dev scratch content t before c w)
      fun _ => True := by
  unfold tegrablBlockdevDefaultRead
  refine Triple.ite (fun _ => Triple.fail fun _ _ => trivial) fun _ => ?_
  refine Triple.ite (fun _ => Triple.fail fun _ _ => trivial) fun passed => ?_
  have usable := usable_of_noPartialBuf (Bool.not_eq_true _ ▸ passed)
  refine Triple.bind (readHead_triple reads inside usable) fun first => Triple.fact fun at_ => ?_
  refine Triple.bind (readMiddle_triple log2 reads inside at_) fun last => Triple.fact fun at_ => ?_
  refine Triple.fact fun small => ?_
  refine (readTail_triple reads at_ usable small).weaken fun _ w reading =>
    ⟨last.advance last.len 1, Nat.sub_self _, reading⟩

theorem inside_of_passed (fits : dev.blockCount * dev.blockSize < 2 ^ 64)
    (blocks : dev.blockCount < 2 ^ 32) (noWrap : t.offset + t.len < 2 ^ 64)
    (some : t.len ≠ 0) (passed : dev.bytesBeyond t.offset t.len = false) : t.Inside dev := by
  obtain ⟨-, sum⟩ := not_bytesBeyond passed
  rw [Nat.mod_eq_of_lt noWrap] at sum
  exact ⟨fits, blocks, Nat.pos_of_ne_zero some, Nat.le_trans sum (Nat.mod_le _ _)⟩

/-- **A read that succeeds** has filled the buffer with the bytes of the range, and has written
nothing else but the buffers it has allocated. -/
theorem read_exact (log2 : dev.blockSizeLog2 < 32) (blocks : dev.blockCount < 2 ^ 32)
    (reads : Reads dev content drv) (noWrap : t.offset + t.len < 2 ^ 64)
    (apart : scratch.Apart dev t) {w w' : World σ}
    (run : readBytes dev drv scratch t.buffer t.offset t.len w = some (.ok (), w')) :
    (∀ i < t.len, w'.mem (t.buffer + i) = content w.driver (t.offset + i)) ∧
      ∀ a, ¬ (t.buffer ≤ a ∧ a < t.buffer + t.len) → ¬ scratch.Holds dev t.len a →
        w'.mem a = w.mem a := by
  have triple : Triple (· = w) (readBytes dev drv scratch t.buffer t.offset t.len)
      (fun _ w' => ∃ c : Cursor, c.len = 0 ∧ Reading dev scratch content t w c w')
      fun _ => True := by
    refine Triple.guarded (fun _ _ => trivial) fun passed => ?_
    have some := passed (decide (t.len = 0), .invalid, 6) (by simp)
    have range := passed (dev.bytesBeyond t.offset t.len, .overflow, 0) (by simp)
    exact defaultRead_triple log2 reads
      (inside_of_passed (capacity_lt log2 blocks) blocks noWrap (of_decide_eq_false some) range)
  obtain ⟨c, done, reading⟩ := triple w rfl _ run
  have mem := reading.mem
  rw [done, Nat.sub_zero] at mem
  refine ⟨fun i bound => ?_, fun a outside free => ?_⟩
  · rw [mem _ (apart _ (Nat.le_add_right _ _) (by omega)),
      ByteMem.copyFrom_inside _ _ (Nat.le_add_right _ _) (by omega), Nat.add_sub_cancel_left]
  · rw [mem a free, ByteMem.copyFrom_outside _ _ (by omega)]

end Read

/-! ### A disk with faults -/

structure Disk where
  bytes : ByteMem
  faults : List Bool

def Disk.call (s : Disk) (mem : ByteMem) (reason : ErrReason) (memAfter bytesAfter : ByteMem) :
    Result Unit × ByteMem × Disk :=
  if s.faults.headD false then (tegrablError .blockDev reason 0, mem, ⟨s.bytes, s.faults.tail⟩)
  else (.ok (), memAfter, ⟨bytesAfter, s.faults.tail⟩)

def faultyDisk (dev : Bdev) : Driver Disk where
  readBlock buf block count mem s := s.call mem .readFailed
    (mem.copyFrom s.bytes buf (block * dev.blockSize) (count * dev.blockSize)) s.bytes
  writeBlock buf block count mem s := s.call mem .writeFailed mem
    (s.bytes.copyFrom mem (block * dev.blockSize) buf (count * dev.blockSize))

theorem Disk.call_ok {s s' : Disk} {mem mem' memAfter bytesAfter : ByteMem} {reason : ErrReason}
    (called : s.call mem reason memAfter bytesAfter = (.ok (), mem', s')) :
    mem' = memAfter ∧ s'.bytes = bytesAfter := by
  unfold Disk.call at called
  split at called <;> cases called
  exact ⟨rfl, rfl⟩

theorem Disk.call_failed {s s' : Disk} {mem mem' memAfter bytesAfter : ByteMem} {reason : ErrReason}
    {e : ErrorValue} (called : s.call mem reason memAfter bytesAfter = (.error e, mem', s')) :
    mem' = mem ∧ s'.bytes = s.bytes := by
  unfold Disk.call at called
  split at called <;> cases called
  exact ⟨rfl, rfl⟩

theorem faultyDisk_reads (dev : Bdev) : Reads dev Disk.bytes (faultyDisk dev) :=
  ⟨fun _ _ _ _ _ _ _ called => (Disk.call_ok called).symm⟩

def tinyDev : Bdev := ⟨1, 2, 4, 4⟩

def tinyScratch : Scratch := ⟨0x2000, 0x3000⟩

def tinyTransfer : Transfer := ⟨0x1001, 3, 10⟩

def tinyWorld (faults : List Bool) : World Disk :=
  ⟨fun _ => 0, ⟨fun a => BitVec.ofNat 8 a, faults⟩, []⟩

theorem tiny_apart : tinyScratch.Apart tinyDev tinyTransfer := by
  intro a lower upper
  simp only [tinyTransfer] at lower upper
  simp only [Scratch.Holds, tinyScratch, tinyDev, tinyTransfer, Bdev.blockSize]
  omega

/-- A read that goes through all three phases. -/
theorem read_exact_tiny : ∃ w', readBytes tinyDev (faultyDisk tinyDev) tinyScratch 0x1001 3 10
      (tinyWorld []) = some (.ok (), w') ∧
    ∀ i < 10, w'.mem (0x1001 + i) = BitVec.ofNat 8 (3 + i) := by
  obtain ⟨w', run⟩ : ∃ w', readBytes tinyDev (faultyDisk tinyDev) tinyScratch 0x1001 3 10
      (tinyWorld []) = some (.ok (), w') := ⟨_, rfl⟩
  exact ⟨w', run, (read_exact (t := tinyTransfer) (by decide) (by decide) (faultyDisk_reads tinyDev)
    (by decide) tiny_apart run).1⟩

end Cboot.BlockDev
