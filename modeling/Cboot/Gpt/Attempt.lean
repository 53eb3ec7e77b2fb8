/-
**One attempt to read a partition table.**

What `tegrabl_gpt_read_validate` does with a device that has fixed bytes and a fixed pattern of reads
that fail: it succeeds exactly at the places where the header and the table can be read and are
valid.

* `readValidate_run`, `table_inside_iff`: the table is read and summed in the size that the header
  gives, into a buffer for 128 entries.
-/

import Cboot.Gpt.Read

namespace Cboot.Gpt

open Prog BlockDev

/-! ### Devices with fixed bytes -/

structure Shows {σ : Type} (dev : Bdev) (bytes : ByteMem) (fails : Nat → Nat → Bool)
    (drv : Driver σ) : Prop where
  reads : ∀ buf block count mem s, fails block count = false → ∃ s',
    drv.readBlock buf block count mem s =
      (.ok (), mem.copyFrom bytes buf (block * dev.blockSize) (count * dev.blockSize), s')
  failed : ∀ buf block count mem s, fails block count = true → ∃ e mem' s',
    drv.readBlock buf block count mem s = (.error e, mem', s')

def readable (dev : Bdev) (fails : Nat → Nat → Bool) (buf block count : Nat) : Bool :=
  decide (count ≠ 0) && dev.bufferAligned buf && decide (dev.ref ≠ 0) &&
    !dev.blocksBeyond block count && !fails block count

/-! ### Images -/

section Images

variable (dev : Bdev) (bytes : ByteMem) (fails : Nat → Nat → Bool) (block : Nat)

def headerImage : ByteMem := fun a =>
  if a < dev.blockSize then bytes (block * dev.blockSize + a) else 0

def headerIn : Header :=
  headerAt (headerImage dev bytes block) 0

def gptImage : ByteMem :=
  let hdr := headerIn dev bytes block
  (headerImage dev bytes block).copyFrom bytes dev.blockSize (hdr.tableBlock * dev.blockSize)
    (hdr.tableCount dev * dev.blockSize)

@[mk_iff]
structure HeaderOk (image : ByteMem) : Prop where
  blocks : dev.blockCount ≠ 0
  signature : (headerAt image 0).signature = efiPart
  size : (headerAt image 0).hdrSize = 0x5C
  crc : (headerAt image 0).hdrCrc32 =
    tegrablUtilsCrc32 0 ((image.store 16 (bytes32 0)).load 0 0x5C)
  first : (headerAt image 0).firstLba < dev.blockCount
  last : (headerAt image 0).lastLba < dev.blockCount

def TableOk : Prop :=
  (headerAt (gptImage dev bytes block) 0).tableCrc32 =
    tegrablUtilsCrc32 0 ((gptImage dev bytes block).load dev.blockSize
      (headerIn dev bytes block).tableSize)

@[mk_iff]
structure Valid (buf block : Nat) : Prop where
  room : buf ≠ 0
  headerRead : readable dev fails buf block 1 = true
  header : HeaderOk dev (headerImage dev bytes block)
  tableRead : readable dev fails (buf + dev.blockSize) (headerIn dev bytes block).tableBlock
    ((headerIn dev bytes block).tableCount dev) = true
  table : TableOk dev bytes block

instance (image : ByteMem) : Decidable (HeaderOk dev image) :=
  decidable_of_iff' _ (headerOk_iff dev image)

instance : Decidable (TableOk dev bytes block) :=
  inferInstanceAs (Decidable (_ = _))

instance (buf block : Nat) : Decidable (Valid dev bytes fails buf block) :=
  decidable_of_iff' _ (valid_iff dev bytes fails buf block)

end Images

section Fields

variable {first second : ByteMem} {n : Nat}

theorem headerAt_view (mem : ByteMem) (base : Nat) : headerAt (mem.view base) 0 = headerAt mem base := by
  unfold headerAt
  rw [ByteMem.load_view]
  rfl

theorem headerAt_congr (agree : AgreeOn 0 n first second) (size : 92 ≤ n) :
    headerAt first 0 = headerAt second 0 := by
  unfold headerAt
  rw [agree.load (Nat.zero_le _) (by omega), agree.word32 (Nat.zero_le _) (by omega),
    agree.word32 (Nat.zero_le _) (by omega), agree.word64 (Nat.zero_le _) (by omega),
    agree.word64 (Nat.zero_le _) (by omega), agree.word64 (Nat.zero_le _) (by omega),
    agree.word32 (Nat.zero_le _) (by omega), agree.word32 (Nat.zero_le _) (by omega),
    agree.word32 (Nat.zero_le _) (by omega)]

theorem HeaderOk.congr {dev : Bdev} (agree : AgreeOn 0 n first second) (size : 92 ≤ n)
    (ok : HeaderOk dev first) : HeaderOk dev second := by
  have fields := headerAt_congr agree size
  have summed := (agree.store 16 (bytes32 0)).load (Nat.zero_le 0) (show 0 + 0x5C ≤ n by omega)
  rw [headerOk_iff] at ok ⊢
  rwa [← fields, ← summed]

theorem entryAt_view (mem : ByteMem) (base addr : Nat) :
    entryAt (mem.view base) addr = entryAt mem (base + addr) := by
  unfold entryAt
  rw [ByteMem.load_view, ByteMem.load_view]
  rfl

theorem entryAt_congr {addr : Nat} (agree : AgreeOn 0 n first second) (size : addr + entryBytes ≤ n) :
    entryAt first addr = entryAt second addr := by
  unfold entryBytes at size
  unfold entryAt
  rw [agree.load (Nat.zero_le _) (by omega), agree.load (Nat.zero_le _) (by omega),
    agree.word64 (Nat.zero_le _) (by omega), agree.word64 (Nat.zero_le _) (by omega)]
  congr 1
  apply List.map_congr_left
  intro i member
  have bound : i < 36 := List.mem_range.mp member
  exact agree.word16 (Nat.zero_le _) (by omega)

theorem slotsAt_view (mem : ByteMem) (base addr : Nat) :
    slotsAt (mem.view base) addr = slotsAt mem (base + addr) := by
  unfold slotsAt
  apply List.map_congr_left
  intro k _
  rw [entryAt_view, Nat.add_assoc]

theorem slotsAt_congr {addr : Nat} (agree : AgreeOn 0 n first second) (size : addr + tableBytes ≤ n) :
    slotsAt first addr = slotsAt second addr := by
  unfold slotsAt
  apply List.map_congr_left
  intro k member
  have bound : k < 128 := List.mem_range.mp member
  refine entryAt_congr agree ?_
  simp only [tableBytes, entryBytes, maxPartitionEntries] at size ⊢
  omega

end Fields

section Run

variable {σ : Type} {dev : Bdev} {bytes : ByteMem} {fails : Nat → Nat → Bool} {drv : Driver σ}

/-! ### Reads of blocks -/

section Blocks

variable {buf block count : Nat} (shows : Shows dev bytes fails drv)
include shows

theorem readBlocks_ok
    (ok : readable dev fails buf block count = true) (w : World σ) :
    ∃ w', readBlocks dev drv buf block count w = some (.ok (), w') ∧
      w'.mem = w.mem.copyFrom bytes buf (block * dev.blockSize) (count * dev.blockSize) := by
  simp only [readable, Bool.and_eq_true, decide_eq_true_eq, Bool.not_eq_true'] at ok
  obtain ⟨⟨⟨⟨some, aligned⟩, opened⟩, inside⟩, works⟩ := ok
  obtain ⟨s', called⟩ := shows.reads buf block count w.mem w.driver works
  refine ⟨⟨w.mem.copyFrom bytes buf (block * dev.blockSize) (count * dev.blockSize), s',
    w.calls ++ [(block, count)]⟩, ?_, rfl⟩
  unfold readBlocks tegrablBlockdevReadBlock
  rw [guarded_passed _ (by simp [some, aligned, opened, inside])]
  refine recover_ok ?_ _
  unfold callback
  rw [called]

theorem readBlocks_error
    (bad : readable dev fails buf block count = false) (w : World σ) :
    ∃ e w', readBlocks dev drv buf block count w = some (.error e, w') := by
  unfold readBlocks tegrablBlockdevReadBlock
  by_cases passed : ∀ check ∈ ([(decide (count = 0), ErrReason.invalid, 8),
      (!dev.bufferAligned buf, .invalid, 25), (decide (dev.ref = 0), .invalid, 9),
      (dev.blocksBeyond block count, .overflow, 1)] : List (Bool × ErrReason × Nat)), check.1 = false
  · rw [guarded_passed _ passed]
    have works : fails block count = true := by
      by_contra works
      simp_all [readable]
    obtain ⟨e, mem', s', called⟩ := shows.failed buf block count w.mem w.driver works
    have ran : callback drv.readBlock buf block count w =
        some (.error e, ⟨mem', s', w.calls ++ [(block, count)]⟩) := by
      unfold callback
      rw [called]
    exact ⟨_, _, recover_error ran _⟩
  · simp only [not_forall, exists_prop, Bool.not_eq_false] at passed
    obtain ⟨check, member, failed⟩ := passed
    obtain ⟨e, refused⟩ := guarded_refused (callback drv.readBlock buf block count) member failed
    rw [refused]
    exact ⟨e, w, rfl⟩

theorem fillBlocks_ok
    (ok : readable dev fails buf block count = true) (s : GptState σ) :
    ∃ w', fillBlocks dev drv buf block count s =
        some (.ok (), { s with world := w' }.addFilled buf (count * dev.blockSize)) ∧
      w'.mem = s.world.mem.copyFrom bytes buf (block * dev.blockSize) (count * dev.blockSize) := by
  obtain ⟨w', ran, mem⟩ := readBlocks_ok shows ok s.world
  refine ⟨w', ?_, mem⟩
  have zoomed : zoom GptState.world (fun w s => { s with world := w })
      (readBlocks dev drv buf block count) s = some (.ok (), { s with world := w' }) := by
    unfold zoom
    rw [ran]
    rfl
  exact bind_ok (recover_ok zoomed _) _

theorem fillBlocks_error
    (bad : readable dev fails buf block count = false) (s : GptState σ) :
    ∃ e w', fillBlocks dev drv buf block count s = some (.error e, { s with world := w' }) := by
  obtain ⟨e, w', ran⟩ := readBlocks_error shows bad s.world
  refine ⟨setHighestModule .gpt e, w', ?_⟩
  have zoomed : zoom GptState.world (fun w s => { s with world := w })
      (readBlocks dev drv buf block count) s = some (.error e, { s with world := w' }) := by
    unfold zoom
    rw [ran]
    rfl
  exact bind_error (recover_error zoomed _) _

end Blocks

/-! ### The steps of an attempt -/

variable {s : GptState σ} {buf fresh offset : Nat}

structure Frame (s s' : GptState σ) : Prop where
  heapOps : s'.heapOps = s.heapOps
  buf : s'.buf = s.buf
  partitionList : s'.partitionList = s.partitionList
  numPartitions : s'.numPartitions = s.numPartitions

theorem Frame.trans {s s' s'' : GptState σ} (first : Frame s s') (second : Frame s' s'') :
    Frame s s'' :=
  ⟨second.heapOps.trans first.heapOps, second.buf.trans first.buf,
    second.partitionList.trans first.partitionList,
    second.numPartitions.trans first.numPartitions⟩

/-- What the check of a header in memory tests, with the CRC word cleared for the sum. -/
theorem headerOk_view_iff {mem : ByteMem} :
    HeaderOk dev (mem.view buf) ↔ dev.blockCount ≠ 0 ∧ (headerAt mem buf).signature = efiPart ∧
      (headerAt mem buf).hdrSize = 0x5C ∧ (headerAt mem buf).hdrCrc32 =
        tegrablUtilsCrc32 0 ((mem.store (buf + 16) (bytes32 0)).load buf 0x5C) ∧
      ¬ (dev.blockCount ≤ (headerAt mem buf).firstLba ∨
        dev.blockCount ≤ (headerAt mem buf).lastLba) := by
  have summed : (((mem.view buf).store 16 (bytes32 0)).load 0 0x5C) =
      (mem.store (buf + 16) (bytes32 0)).load buf 0x5C := by
    rw [← ByteMem.view_store, ByteMem.load_view]
    rfl
  rw [← headerAt_view, ← summed, not_or, Nat.not_le, Nat.not_le, headerOk_iff]

theorem validateHeader_run (s : GptState σ) :
    (HeaderOk dev (s.world.mem.view buf) ∧ tegrablGptValidateHeader buf dev.blockCount s =
        some (.ok (), s.addSummed buf 0x5C)) ∨
      (¬ HeaderOk dev (s.world.mem.view buf) ∧ ∃ e s',
        tegrablGptValidateHeader buf dev.blockCount s = some (.error e, s') ∧ Frame s s') := by
  rw [headerOk_view_iff]
  unfold tegrablGptValidateHeader
  rw [read_bind]
  by_cases blocks : dev.blockCount = 0
  · rw [if_pos blocks]
    exact .inr ⟨fun ok => ok.1 blocks, _, s, rfl, rfl, rfl, rfl, rfl⟩
  rw [if_neg blocks]
  by_cases signature : (headerAt s.world.mem buf).signature = efiPart
  swap
  · rw [if_pos signature]
    exact .inr ⟨fun ok => signature ok.2.1, _, s, rfl, rfl, rfl, rfl, rfl⟩
  rw [if_neg (not_not.mpr signature)]
  by_cases size : (headerAt s.world.mem buf).hdrSize = 0x5C
  swap
  · rw [if_pos size]
    exact .inr ⟨fun ok => size ok.2.2.1, _, s, rfl, rfl, rfl, rfl, rfl⟩
  rw [if_neg (not_not.mpr size), size]
  let cleared := s.setMem (s.world.mem.store (buf + 16) (bytes32 0))
  have clear : onMem (fun mem => mem.store (buf + 16) (bytes32 0)) s = some (.ok (), cleared) := rfl
  have sum : crc32Of buf 0x5C cleared = some (.ok (tegrablUtilsCrc32 0
      ((s.world.mem.store (buf + 16) (bytes32 0)).load buf 0x5C)), cleared.addSummed buf 0x5C) := rfl
  rw [bind_ok clear, bind_ok sum]
  by_cases crc : (headerAt s.world.mem buf).hdrCrc32 = tegrablUtilsCrc32 0
      ((s.world.mem.store (buf + 16) (bytes32 0)).load buf 0x5C)
  swap
  · rw [if_pos crc]
    exact .inr ⟨fun ok => crc ok.2.2.2.1, _, _, rfl, rfl, rfl, rfl, rfl⟩
  have restore : onMem (fun mem => mem.store (buf + 16) (bytes32 (headerAt s.world.mem buf).hdrCrc32))
      (cleared.addSummed buf 0x5C) = some (.ok (), s.addSummed buf 0x5C) := by
    have restored : (s.world.mem.store (buf + 16) (bytes32 0)).store (buf + 16)
        (bytes32 (word32 s.world.mem (buf + 16))) = s.world.mem := by
      rw [bytes32_word32]
      exact s.world.mem.store_restore (buf + 16) (bytes32 0)
    exact congrArg (fun mem => some (Except.ok (), (s.addSummed buf 0x5C).setMem mem)) restored
  rw [if_neg (not_not.mpr crc), bind_ok restore]
  by_cases range : dev.blockCount ≤ (headerAt s.world.mem buf).firstLba ∨
      dev.blockCount ≤ (headerAt s.world.mem buf).lastLba
  · rw [if_pos range]
    exact .inr ⟨fun ok => ok.2.2.2.2 range, _, _, rfl, rfl, rfl, rfl, rfl⟩
  · rw [if_neg range]
    exact .inl ⟨⟨blocks, signature, rfl, crc, range⟩, rfl⟩

theorem takeBuffer_new {fresh : Nat} (empty : s.buf = 0) (room : fresh ≠ 0) :
    takeBuffer dev fresh s = some (.ok fresh, s.newBuffer fresh (bufferSize dev)) := by
  unfold takeBuffer
  rw [read_bind, if_neg (not_not.mpr empty), if_neg room]
  rfl

def Image (image : ByteMem) (n buf : Nat) (s : GptState σ) : Prop :=
  AgreeOn 0 n (s.world.mem.view buf) image

theorem headerImage_copied (mem : ByteMem) (block fresh n : Nat) :
    AgreeOn 0 n (((mem.memset fresh 0 n).copyFrom bytes fresh (block * dev.blockSize)
      (1 * dev.blockSize)).view fresh) (headerImage dev bytes block) := by
  intro a _ below
  show ByteMem.copyFrom _ _ _ _ _ (fresh + a) = _
  unfold headerImage
  by_cases inBlock : a < dev.blockSize
  · rw [if_pos inBlock, ByteMem.copyFrom_inside _ _ (Nat.le_add_right _ _) (by omega),
      Nat.add_sub_cancel_left]
  · rw [if_neg inBlock, ByteMem.copyFrom_outside _ _ (by omega),
      ByteMem.memset_inside _ _ _ _ _ (Nat.le_add_right _ _) (by omega)]

theorem gptImage_copied {mem : ByteMem} {block fresh n : Nat}
    (header : AgreeOn 0 n (mem.view fresh) (headerImage dev bytes block)) (size : dev.blockSize ≤ n) :
    AgreeOn 0 (max n (dev.blockSize + (headerIn dev bytes block).tableCount dev * dev.blockSize))
      ((mem.copyFrom bytes (fresh + dev.blockSize)
        ((headerIn dev bytes block).tableBlock * dev.blockSize)
        ((headerIn dev bytes block).tableCount dev * dev.blockSize)).view fresh)
      (gptImage dev bytes block) := by
  intro a lower below
  show ByteMem.copyFrom _ _ _ _ _ (fresh + a) = ByteMem.copyFrom _ _ _ _ _ a
  by_cases inTable : dev.blockSize ≤ a ∧
      a < dev.blockSize + (headerIn dev bytes block).tableCount dev * dev.blockSize
  · rw [ByteMem.copyFrom_inside _ _ (by omega) (by omega),
      ByteMem.copyFrom_inside _ _ inTable.1 inTable.2]
    congr 1
    omega
  · rw [ByteMem.copyFrom_outside _ _ (by omega), ByteMem.copyFrom_outside _ _ (by omega)]
    exact header a lower (by omega)

theorem bufferSize_eq (log2 : dev.blockSizeLog2 < 32) :
    bufferSize dev = tableBytes + dev.blockSize := by
  have small : 2 ^ dev.blockSizeLog2 ≤ 2 ^ 31 := Nat.pow_le_pow_right (by decide) (by omega)
  refine Nat.mod_eq_of_lt ?_
  simp only [tableBytes, entryBytes, maxPartitionEntries, Bdev.blockSize]
  omega

theorem tableSize_le (log2 : dev.blockSizeLog2 < 32) (hdr : Header) :
    hdr.tableSize ≤ hdr.tableCount dev * dev.blockSize := by
  have small : dev.blockSize ≤ 2 ^ 31 := Nat.pow_le_pow_right (by decide) (by omega)
  have positive := blockSize_pos dev
  have word : hdr.tableSize < 2 ^ 32 := Nat.mod_lt _ (by decide)
  have count : hdr.tableCount dev = (hdr.tableSize + (dev.blockSize - 1)) / dev.blockSize := by
    have noWrap : (hdr.tableSize + (dev.blockSize - 1)) % 2 ^ 64 =
        hdr.tableSize + (dev.blockSize - 1) := Nat.mod_eq_of_lt (by omega)
    have below : (hdr.tableSize + (dev.blockSize - 1)) / dev.blockSize < 2 ^ 32 := by
      obtain ⟨b, size⟩ := Nat.exists_eq_succ_of_ne_zero positive.ne'
      rw [Nat.div_lt_iff_lt_mul positive, size]
      omega
    show (hdr.tableSize + (dev.blockSize - 1)) % 2 ^ 64 / dev.blockSize % 2 ^ 32 = _
    rw [noWrap, Nat.mod_eq_of_lt below]
  rw [count]
  have division := Nat.div_add_mod (hdr.tableSize + (dev.blockSize - 1)) dev.blockSize
  have rest := Nat.mod_lt (hdr.tableSize + (dev.blockSize - 1)) positive
  rw [Nat.mul_comm] at division
  omega

structure HeaderLoaded (dev : Bdev) (bytes : ByteMem) (block fresh : Nat) (s s' : GptState σ) : Prop where
  frame : Frame s s'
  image : Image (headerImage dev bytes block) (bufferSize dev) fresh s'
  filled : s'.filled = s.filled ++ [(fresh, 1 * dev.blockSize)]
  summed : s'.summed = s.summed ++ [(fresh, 0x5C)]

theorem header_size (log2 : dev.blockSizeLog2 < 32) : 92 ≤ bufferSize dev := by
  rw [bufferSize_eq log2]
  simp only [tableBytes, entryBytes, maxPartitionEntries]
  omega

theorem loadHeader_new {new : GptState σ} (taken : new = s.newBuffer fresh (bufferSize dev)) :
    loadHeader dev drv fresh offset new =
      (fillBlocks dev drv fresh (headerBlock dev offset) 1 >>= fun _ =>
        tegrablGptValidateHeader fresh dev.blockCount) new := by
  have sized : ¬ new.bufSize < bufferSize dev := taken ▸ Nat.lt_irrefl _
  unfold loadHeader
  rw [read_bind, if_neg sized]

theorem loadHeader_run (shows : Shows dev bytes fails drv) (log2 : dev.blockSizeLog2 < 32)
    {new : GptState σ} (taken : new = s.newBuffer fresh (bufferSize dev)) :
    ((readable dev fails fresh (headerBlock dev offset) 1 = true ∧
        HeaderOk dev (headerImage dev bytes (headerBlock dev offset))) ∧
      ∃ s', loadHeader dev drv fresh offset new = some (.ok (), s') ∧
        HeaderLoaded dev bytes (headerBlock dev offset) fresh new s') ∨
    (¬ (readable dev fails fresh (headerBlock dev offset) 1 = true ∧
        HeaderOk dev (headerImage dev bytes (headerBlock dev offset))) ∧
      ∃ e s', loadHeader dev drv fresh offset new = some (.error e, s') ∧ Frame new s') := by
  rw [loadHeader_new taken]
  generalize headerBlock dev offset = block
  by_cases read : readable dev fails fresh block 1 = true
  · obtain ⟨w', ran, mem⟩ := fillBlocks_ok shows read new
    let after := { new with world := w' }.addFilled fresh (1 * dev.blockSize)
    have image : Image (headerImage dev bytes block) (bufferSize dev) fresh after := by
      show AgreeOn 0 _ (w'.mem.view fresh) _
      rw [mem, taken]
      exact headerImage_copied s.world.mem _ fresh _
    rw [bind_ok ran]
    rcases validateHeader_run after with ⟨ok, checked⟩ | ⟨bad, e, s', checked, frame⟩
    · exact .inl ⟨⟨read, ok.congr image (header_size log2)⟩, _, checked, ⟨rfl, rfl, rfl, rfl⟩, image,
        rfl, rfl⟩
    · exact .inr ⟨fun ok => bad (ok.2.congr image.symm (header_size log2)), e, s', checked,
        frame.heapOps, frame.buf, frame.partitionList, frame.numPartitions⟩
  · obtain ⟨e, w', ran⟩ := fillBlocks_error shows (Bool.eq_false_of_not_eq_true read) new
    exact .inr ⟨fun ok => read ok.1, e, _, bind_error ran _, rfl, rfl, rfl, rfl⟩

/-- The header in the buffer is the header of the image. -/
theorem Image.fields {block : Nat}
    (header : Image (headerImage dev bytes block) (bufferSize dev) fresh s)
    (log2 : dev.blockSizeLog2 < 32) : headerAt s.world.mem fresh = headerIn dev bytes block := by
  rw [← headerAt_view]
  exact headerAt_congr header (header_size log2)

def tableReadable (dev : Bdev) (bytes : ByteMem) (fails : Nat → Nat → Bool) (fresh block : Nat) :
    Bool :=
  readable dev fails (fresh + dev.blockSize) (headerIn dev bytes block).tableBlock
    ((headerIn dev bytes block).tableCount dev)

/-- Where the table can be read it is placed behind the header, with its ranges recorded. -/
structure TableLoaded (dev : Bdev) (bytes : ByteMem) (fails : Nat → Nat → Bool) (block fresh : Nat)
    (s s' : GptState σ) (result : Result Unit) : Prop where
  frame : Frame s s'
  image : tableReadable dev bytes fails fresh block = true →
    Image (gptImage dev bytes block) (bufferSize dev) fresh s'
  filled : s'.filled = s.filled ++ if tableReadable dev bytes fails fresh block then
    [(fresh + dev.blockSize, (headerIn dev bytes block).tableCount dev * dev.blockSize)] else []
  summed : s'.summed = s.summed ++ if tableReadable dev bytes fails fresh block then
    [(fresh + dev.blockSize, (headerIn dev bytes block).tableSize)] else []
  result : result = .ok () ↔ tableReadable dev bytes fails fresh block = true ∧ TableOk dev bytes block

theorem loadTable_run (shows : Shows dev bytes fails drv) (log2 : dev.blockSizeLog2 < 32)
    {block : Nat} (header : Image (headerImage dev bytes block) (bufferSize dev) fresh s) :
    ∃ result s', loadTable dev drv fresh s = some (result, s') ∧
      TableLoaded dev bytes fails block fresh s s' result := by
  unfold loadTable
  rw [read_bind, header.fields log2]
  by_cases read : tableReadable dev bytes fails fresh block = true
  swap
  · obtain ⟨e, w', ran⟩ := fillBlocks_error shows (Bool.eq_false_of_not_eq_true read) s
    refine ⟨.error e, _, bind_error ran _, ⟨rfl, rfl, rfl, rfl⟩, fun yes => absurd yes read, ?_, ?_, ?_⟩
    · rw [if_neg read, List.append_nil]
    · rw [if_neg read, List.append_nil]
    · exact iff_of_false nofun fun ok => read ok.1
  have size : dev.blockSize ≤ bufferSize dev := by
    rw [bufferSize_eq log2]
    exact Nat.le_add_left _ _
  let hdr := headerIn dev bytes block
  obtain ⟨w', ran, mem⟩ := fillBlocks_ok shows read s
  let placed := { s with world := w' }.addFilled (fresh + dev.blockSize)
    (hdr.tableCount dev * dev.blockSize)
  let after := placed.addSummed (fresh + dev.blockSize) hdr.tableSize
  have image : Image (gptImage dev bytes block) (max (bufferSize dev)
      (dev.blockSize + hdr.tableCount dev * dev.blockSize)) fresh after := by
    show AgreeOn 0 _ (w'.mem.view fresh) _
    rw [mem]
    exact gptImage_copied header size
  have crc : (headerAt after.world.mem fresh).tableCrc32 =
      (headerAt (gptImage dev bytes block) 0).tableCrc32 := by
    rw [← headerAt_view, headerAt_congr image (Nat.le_trans (header_size log2) (Nat.le_max_left _ _))]
  have summed : after.world.mem.load (fresh + dev.blockSize) hdr.tableSize =
      (gptImage dev bytes block).load dev.blockSize hdr.tableSize := by
    have whole := tableSize_le log2 hdr
    rw [← ByteMem.load_view]
    refine image.load (Nat.zero_le _) ?_
    exact Nat.le_trans (Nat.add_le_add_left whole _) (Nat.le_max_right _ _)
  have sum : crc32Of (fresh + dev.blockSize) hdr.tableSize placed = some (.ok (tegrablUtilsCrc32 0
      ((gptImage dev bytes block).load dev.blockSize hdr.tableSize)), after) := by
    rw [← summed]
    rfl
  rw [bind_ok ran, bind_ok sum, read_bind, crc]
  have loaded : ∀ {result : Result Unit}, (result = .ok () ↔ TableOk dev bytes block) →
      TableLoaded dev bytes fails block fresh s after result := fun {result} ok =>
    { frame := ⟨rfl, rfl, rfl, rfl⟩
      image := fun _ => image.mono le_rfl (Nat.le_max_left _ _)
      filled := by rw [if_pos read]; rfl
      summed := by rw [if_pos read]; rfl
      result := ok.trans (and_iff_right read).symm }
  by_cases ok : TableOk dev bytes block
  · refine ⟨.ok (), after, ?_, loaded (iff_of_true rfl ok)⟩
    unfold TableOk at ok
    rw [if_neg (not_not.mpr ok)]
    rfl
  · refine ⟨gptError .verifyFailed 2, after, ?_, loaded (iff_of_false nofun ok)⟩
    unfold TableOk at ok
    rw [if_pos ok]
    rfl

/-! ### The attempt -/

structure Handed (dev : Bdev) (bytes : ByteMem) (fresh block : Nat) (s s' : GptState σ) : Prop where
  buf : s'.buf = fresh
  heapOps : s'.heapOps = s.heapOps ++ [.alloc fresh]
  partitionList : s'.partitionList = s.partitionList
  numPartitions : s'.numPartitions = s.numPartitions
  image : Image (gptImage dev bytes block) (bufferSize dev) fresh s'

structure Freed (fresh : Nat) (s s' : GptState σ) : Prop where
  buf : s'.buf = 0
  heapOps : s'.heapOps = s.heapOps ++ if fresh = 0 then [] else [.alloc fresh, .free fresh]
  partitionList : s'.partitionList = s.partitionList
  numPartitions : s'.numPartitions = s.numPartitions

section

variable (empty : s.buf = 0) (room : fresh ≠ 0)
include empty room

theorem readValidate_handed {s₁ s₂ : GptState σ}
    (first : loadHeader dev drv fresh offset (s.newBuffer fresh (bufferSize dev)) = some (.ok (), s₁))
    (second : loadTable dev drv fresh s₁ = some (.ok (), s₂)) (unset : s₂.buf = 0) :
    tegrablGptReadValidate dev drv fresh offset s = some (.ok (), { s₂ with buf := fresh }) := by
  unfold tegrablGptReadValidate
  rw [bind_ok (takeBuffer_new empty room)]
  refine recover_ok ?_ _
  rw [bind_ok first, bind_ok second]
  show some (Except.ok (), if s₂.buf = 0 then { s₂ with buf := fresh } else s₂) = _
  rw [if_pos unset]

theorem readValidate_failed {e : ErrorValue} {s' : GptState σ}
    (ran : (do
      loadHeader dev drv fresh offset
      loadTable dev drv fresh
      modify fun s => if s.buf = 0 then { s with buf := fresh } else s)
        (s.newBuffer fresh (bufferSize dev)) = some (.error e, s')) :
    tegrablGptReadValidate dev drv fresh offset s = some (.error e, tegrablFree fresh s') := by
  unfold tegrablGptReadValidate
  rw [bind_ok (takeBuffer_new empty room), recover_error ran]
  rfl

theorem readValidate_failed_table {e : ErrorValue} {s₁ s₂ : GptState σ}
    (first : loadHeader dev drv fresh offset (s.newBuffer fresh (bufferSize dev)) = some (.ok (), s₁))
    (second : loadTable dev drv fresh s₁ = some (.error e, s₂)) :
    tegrablGptReadValidate dev drv fresh offset s = some (.error e, tegrablFree fresh s₂) := by
  refine readValidate_failed empty room ?_
  rw [bind_ok first]
  exact bind_error second _

theorem Frame.freed {s' : GptState σ}
    (frame : Frame (s.newBuffer fresh (bufferSize dev)) s') :
    Freed fresh s (tegrablFree fresh s') := by
  unfold tegrablFree
  rw [if_neg room]
  refine ⟨frame.buf.trans empty, ?_, frame.partitionList, frame.numPartitions⟩
  show s'.heapOps ++ [HeapOp.free fresh] = _
  rw [frame.heapOps, if_neg room]
  exact List.append_assoc _ _ _

end

theorem tegrablFree_ranges (s : GptState σ) : (tegrablFree fresh s).filled = s.filled ∧
    (tegrablFree fresh s).summed = s.summed := by
  unfold tegrablFree
  split <;> exact ⟨rfl, rfl⟩

/-- What an attempt leaves when it was valid, when it was not, and once its header was valid. -/
structure Attempted (dev : Bdev) (bytes : ByteMem) (fails : Nat → Nat → Bool) (fresh block : Nat)
    (s s' : GptState σ) (result : Result Unit) : Prop where
  valid : result = .ok () ↔ Valid dev bytes fails fresh block
  handed : result = .ok () → Handed dev bytes fresh block s s'
  freed : result ≠ .ok () → Freed fresh s s'
  ranges : fresh ≠ 0 → readable dev fails fresh block 1 = true →
    HeaderOk dev (headerImage dev bytes block) →
    s'.filled = s.filled ++ ((fresh, 1 * dev.blockSize) ::
      if tableReadable dev bytes fails fresh block then
        [(fresh + dev.blockSize, (headerIn dev bytes block).tableCount dev * dev.blockSize)] else []) ∧
    s'.summed = s.summed ++ ((fresh, 0x5C) ::
      if tableReadable dev bytes fails fresh block then
        [(fresh + dev.blockSize, (headerIn dev bytes block).tableSize)] else [])

theorem readValidate_run (shows : Shows dev bytes fails drv) (log2 : dev.blockSizeLog2 < 32)
    (empty : s.buf = 0) :
    ∃ result s', tegrablGptReadValidate dev drv fresh offset s = some (result, s') ∧
      Attempted dev bytes fails fresh (headerBlock dev offset) s s' result := by
  by_cases room : fresh = 0
  · have refused : takeBuffer dev fresh s = some (gptError .noMemory 0, s) := by
      unfold takeBuffer
      rw [read_bind, if_neg (not_not.mpr empty), if_pos room]
      rfl
    refine ⟨_, s, bind_error refused _, iff_of_false nofun fun valid => valid.room room, nofun,
      fun _ => ⟨empty, ?_, rfl, rfl⟩, fun some_ => absurd room some_⟩
    rw [if_pos room, List.append_nil]
  rcases loadHeader_run shows log2 rfl with
    ⟨⟨read, header⟩, s₁, first, loaded⟩ | ⟨bad, e, s₁, ran, frame⟩
  swap
  · exact ⟨.error e, _, readValidate_failed empty room (bind_error ran _),
      iff_of_false nofun fun valid => bad ⟨valid.headerRead, valid.header⟩, nofun,
      fun _ => frame.freed empty room, fun _ read header => absurd ⟨read, header⟩ bad⟩
  obtain ⟨result, s₂, second, table⟩ := loadTable_run shows log2 loaded.image
  have frame := loaded.frame.trans table.frame
  have valid : result = .ok () ↔ Valid dev bytes fails fresh (headerBlock dev offset) :=
    table.result.trans ⟨fun ok => ⟨room, read, header, ok.1, ok.2⟩,
      fun valid => ⟨valid.tableRead, valid.table⟩⟩
  have filled := table.filled
  have summed := table.summed
  rw [loaded.filled, List.append_assoc] at filled
  rw [loaded.summed, List.append_assoc] at summed
  cases result with
  | ok done =>
    have image := table.image (table.result.mp rfl).1
    exact ⟨_, _, readValidate_handed empty room first second (frame.buf.trans empty), valid,
      fun _ => ⟨rfl, frame.heapOps, frame.partitionList, frame.numPartitions, image⟩,
      fun failed => absurd rfl failed, fun _ _ _ => ⟨filled, summed⟩⟩
  | error e =>
    refine ⟨_, _, readValidate_failed_table empty room first second, valid, nofun,
      fun _ => frame.freed empty room, fun _ _ _ => ?_⟩
    rw [(tegrablFree_ranges s₂).1, (tegrablFree_ranges s₂).2]
    exact ⟨filled, summed⟩

end Run

/-! ### A sample device -/

def steadyDriver (dev : Bdev) (bytes : ByteMem) (fails : Nat → Nat → Bool) : Driver Unit where
  readBlock buf block count mem s :=
    if fails block count then (tegrablError .blockDev .readFailed 0, mem, s)
    else (.ok (), mem.copyFrom bytes buf (block * dev.blockSize) (count * dev.blockSize), s)
  writeBlock _ _ _ mem s := (tegrablError .blockDev .writeFailed 0, mem, s)

theorem steadyDriver_shows (dev : Bdev) (bytes : ByteMem) (fails : Nat → Nat → Bool) :
    Shows dev bytes fails (steadyDriver dev bytes fails) where
  reads buf block count mem s works := by
    exact ⟨s, if_neg (Bool.eq_false_iff.mp works)⟩
  failed buf block count mem s broken := by
    have called : (steadyDriver dev bytes fails).readBlock buf block count mem s =
        (tegrablError .blockDev .readFailed 0, mem, s) := if_pos broken
    exact ⟨_, _, _, called⟩

def sampleDev : Bdev := ⟨1, 9, 128, 8⟩

def sampleHeader (numEntries entrySize tableCrc32 hdrCrc32 : BitVec 32) : List Byte :=
  efiPart ++ bytes32 0x00010000 ++ bytes32 0x5C ++ bytes32 hdrCrc32 ++ bytes32 0 ++
    bytes64 1 ++ bytes64 63 ++ bytes64 3 ++ bytes64 62 ++ List.replicate 16 0 ++
    bytes64 2 ++ bytes32 numEntries ++ bytes32 entrySize ++ bytes32 tableCrc32

def sampleEntry (firstLba lastLba : BitVec 64) : List Byte :=
  List.replicate 16 1 ++ List.replicate 16 0 ++ bytes64 firstLba ++ bytes64 lastLba ++
    List.replicate 80 0

def sampleDisk (header table : List Byte) : ByteMem :=
  ((ByteMem.store (fun _ => 0) 512 header).store 1024 table).store 65024 header

def sampleState : GptState Unit := ⟨⟨fun _ => 0, (), []⟩, [], [], [], 0, 0, [], 0⟩

def noFaults : Nat → Nat → Bool := fun _ _ => false

section Bounds

variable {σ : Type} {dev : Bdev} {bytes : ByteMem} {fails : Nat → Nat → Bool} {drv : Driver σ}
  {s : GptState σ} {fresh offset : Nat}

/-! ### The ranges of the buffer -/

def InBuffer (dev : Bdev) (fresh : Nat) (range : Nat × Nat) : Prop :=
  fresh ≤ range.1 ∧ range.1 + range.2 ≤ fresh + bufferSize dev

/-- **The table stays inside the buffer** exactly when its blocks, if they can be read, take no more
than the 128 entries that the buffer is made for. -/
theorem table_inside_iff (shows : Shows dev bytes fails drv) (log2 : dev.blockSizeLog2 < 32)
    (empty : s.buf = 0) (room : fresh ≠ 0)
    (headerRead : readable dev fails fresh (headerBlock dev offset) 1 = true)
    (header : HeaderOk dev (headerImage dev bytes (headerBlock dev offset))) :
    ∃ result s' filled summed, tegrablGptReadValidate dev drv fresh offset s = some (result, s') ∧
      s'.filled = s.filled ++ filled ∧ s'.summed = s.summed ++ summed ∧
      ((∀ range ∈ filled ++ summed, InBuffer dev fresh range) ↔
        (tableReadable dev bytes fails fresh (headerBlock dev offset) = true →
          (headerIn dev bytes (headerBlock dev offset)).tableCount dev * dev.blockSize ≤
            tableBytes)) := by
  obtain ⟨result, s', ran, attempted⟩ :=
    readValidate_run (s := s) shows log2 empty
  obtain ⟨filled, summed⟩ := attempted.ranges room headerRead header
  refine ⟨result, s', _, _, ran, filled, summed, ?_⟩
  have size := bufferSize_eq log2
  have whole := tableSize_le log2 (headerIn dev bytes (headerBlock dev offset))
  have entries : tableBytes = 16384 := rfl
  cases tableReadable dev bytes fails fresh (headerBlock dev offset) with
  | false =>
    refine iff_of_true ?_ nofun
    simp only [InBuffer, size, List.mem_append, List.mem_singleton, Bool.false_eq_true, if_false]
    rintro range (rfl | rfl) <;> omega
  | true =>
    simp only [InBuffer, size, List.mem_append, List.mem_cons, List.not_mem_nil, or_false, if_true,
      forall_true_left]
    constructor
    · intro inside
      have table := inside _ (.inl (.inr rfl))
      omega
    · rintro fits range ((rfl | rfl) | (rfl | rfl)) <;> omega

end Bounds

def longDisk : ByteMem := sampleDisk (sampleHeader 256 128 0 0x993599BC) []

/-- The 256 entries are read into the buffer for 128 and summed up there. -/
theorem long_table_outside :
    HeaderOk sampleDev (headerImage sampleDev longDisk 1) ∧ bufferSize sampleDev = 0x4200 ∧
    ∃ result s', tegrablGptReadValidate sampleDev (steadyDriver sampleDev longDisk noFaults)
        0x1000 512 sampleState = some (result, s') ∧
      (0x1200, 0x8000) ∈ s'.filled ∧ (0x1200, 0x8000) ∈ s'.summed := by
  have first : headerBlock sampleDev 512 = 1 := by decide
  have header : HeaderOk sampleDev (headerImage sampleDev longDisk (headerBlock sampleDev 512)) := by
    decide +kernel
  have read : tableReadable sampleDev longDisk noFaults 0x1000 1 = true := by decide +kernel
  have count : (headerIn sampleDev longDisk 1).tableCount sampleDev = 64 := by decide +kernel
  have size : (headerIn sampleDev longDisk 1).tableSize = 0x8000 := by decide +kernel
  obtain ⟨result, s', ran, attempted⟩ := readValidate_run (s := sampleState)
    (steadyDriver_shows sampleDev longDisk noFaults) (by decide) rfl
  have ranges := attempted.ranges (show 0x1000 ≠ 0 by decide) (by decide +kernel) header
  simp only [first, read, count, size, if_true] at ranges
  obtain ⟨filled, summed⟩ := ranges
  refine ⟨first ▸ header, by decide, result, s', ran, ?_, ?_⟩
  · rw [filled]
    exact List.mem_append_right _ (.tail _ (.head _))
  · rw [summed]
    exact List.mem_append_right _ (.tail _ (.head _))

def sampleBytes : ByteMem :=
  sampleDisk (sampleHeader 2 128 0xB500D6AE 0x2B3BB854) (sampleEntry 4 5 ++ sampleEntry 6 7)

theorem table_inside_sample :
    ∃ result s' filled summed, tegrablGptReadValidate sampleDev
        (steadyDriver sampleDev sampleBytes noFaults) 0x1000 512 sampleState = some (result, s') ∧
      s'.filled = filled ∧ s'.summed = summed ∧
      ∀ range ∈ filled ++ summed, InBuffer sampleDev 0x1000 range := by
  obtain ⟨result, s', filled, summed, ran, allFilled, allSummed, inside⟩ :=
    table_inside_iff (s := sampleState) (steadyDriver_shows sampleDev sampleBytes noFaults)
      (by decide) rfl (by decide)
      (show readable sampleDev noFaults 0x1000 (headerBlock sampleDev 512) 1 = true by
        decide +kernel) (by decide +kernel)
  exact ⟨result, s', filled, summed, ran, allFilled, allSummed, inside.mpr (by decide +kernel)⟩

end Cboot.Gpt
