/-
**Publishing the partitions of a device.**

What `tegrabl_gpt_publish` returns, on a device with fixed bytes and a fixed pattern of failing
reads, follows from the first valid place it tries.
-/

import Cboot.Gpt.Attempt

namespace Cboot.Gpt

open Prog BlockDev

/-! ### The first valid place -/

def allocFree (buffers : List Nat) : List HeapOp := buffers.flatMap fun b => [.alloc b, .free b]

section Places

variable (dev : Bdev) (bytes : ByteMem) (fails : Nat → Nat → Bool) (places : List (Nat × Nat))

def FirstValid (place : Nat × Nat) : Prop :=
  ∃ before after, places = before ++ place :: after ∧
    (∀ earlier ∈ before, ¬ Valid dev bytes fails earlier.2 (headerBlock dev earlier.1)) ∧
    Valid dev bytes fails place.2 (headerBlock dev place.1)

theorem firstValid_or_none : (∃ place, FirstValid dev bytes fails places place) ∨
    ∀ place ∈ places, ¬ Valid dev bytes fails place.2 (headerBlock dev place.1) := by
  induction places with
  | nil => exact .inr nofun
  | cons first rest ih =>
    by_cases valid : Valid dev bytes fails first.2 (headerBlock dev first.1)
    · exact .inl ⟨first, [], rest, rfl, nofun, valid⟩
    · rcases ih with ⟨place, before, after, split, invalid, found⟩ | none
      · refine .inl ⟨place, first :: before, after, by rw [split]; rfl, ?_, found⟩
        exact List.forall_mem_cons.mpr ⟨valid, invalid⟩
      · exact .inr (List.forall_mem_cons.mpr ⟨valid, none⟩)

end Places

variable {σ : Type} {dev : Bdev} {bytes : ByteMem} {fails : Nat → Nat → Bool} {drv : Driver σ}

section Run

variable {places : List (Nat × Nat)} {place : Nat × Nat} {s : GptState σ}
  (shows : Shows dev bytes fails drv) (log2 : dev.blockSizeLog2 < 32)

include shows log2 in
theorem tryOffsets_invalid (before after : List (Nat × Nat))
    (invalid : ∀ earlier ∈ before, ¬ Valid dev bytes fails earlier.2 (headerBlock dev earlier.1))
    (s : GptState σ) (empty : s.buf = 0) :
    ∃ s', tryOffsets dev drv (before ++ after) s = tryOffsets dev drv after s' ∧ s'.buf = 0 ∧
      (∃ buffers, s'.heapOps = s.heapOps ++ allocFree buffers) ∧
      s'.partitionList = s.partitionList ∧ s'.numPartitions = s.numPartitions := by
  induction before generalizing s with
  | nil => exact ⟨s, rfl, empty, ⟨[], (List.append_nil _).symm⟩, rfl, rfl⟩
  | cons first rest ih =>
    obtain ⟨result, s₁, ran, attempted⟩ := readValidate_run shows log2 empty
    have failed := mt attempted.valid.mp (invalid first (.head _))
    have freed := attempted.freed failed
    obtain ⟨s', rest, buf, ⟨buffers, heapOps⟩, partitionList, numPartitions⟩ :=
      ih (fun earlier member => invalid earlier (.tail _ member)) s₁ freed.buf
    refine ⟨s', ?_, buf, ?_, partitionList.trans freed.partitionList,
      numPartitions.trans freed.numPartitions⟩
    · cases result with
      | ok done => exact absurd rfl failed
      | error e => rw [List.cons_append, tryOffsets, recover_error ran, rest]
    · rw [heapOps, freed.heapOps, List.append_assoc]
      by_cases room : first.2 = 0
      · exact ⟨buffers, by rw [if_pos room]; rfl⟩
      · exact ⟨first.2 :: buffers, by rw [if_neg room]; rfl⟩

def publishedAt (dev : Bdev) (bytes : ByteMem) (block : Nat) : List NamedPartition :=
  publishedOf dev.blockSizeLog2 (slotsAt (gptImage dev bytes block) dev.blockSize)

def outcome (x : Result Unit × GptState σ) : Result Unit × List NamedPartition × Nat :=
  (x.1, x.2.partitionList, x.2.numPartitions)

def outcomeAt (dev : Bdev) (bytes : ByteMem) (hasRoom : Nat → Bool) (block : Nat) (s : GptState σ) :
    Result Unit × List NamedPartition × Nat :=
  let published := publishedAt dev bytes block
  if partitionInfoBytes * published.length = 0 ∨
      hasRoom (partitionInfoBytes * published.length) = false then
    (gptError .noMemory 1, s.partitionList, s.numPartitions)
  else (.ok (), published, published.length)

include log2 in
theorem publishSlots_run (hasRoom : Nat → Bool) {block : Nat}
    (image : Image (gptImage dev bytes block) (bufferSize dev) s.buf s) :
    ∃ x, publishSlots dev hasRoom s = some x ∧ outcome x = outcomeAt dev bytes hasRoom block s ∧
      x.2.buf = s.buf ∧ x.2.heapOps = s.heapOps := by
  have slots : slotsAt s.world.mem (s.buf + dev.blockSize) =
      slotsAt (gptImage dev bytes block) dev.blockSize := by
    rw [← slotsAt_view]
    refine slotsAt_congr image ?_
    rw [bufferSize_eq log2]
    omega
  have count : countEntries (slotsAt (gptImage dev bytes block) dev.blockSize) 0 =
      (publishedAt dev bytes block).length := by
    rw [countEntries_eq dev.blockSizeLog2, Nat.zero_add]
    rfl
  unfold publishSlots outcomeAt
  rw [read_bind, slots, fillPartitions_eq, count]
  dsimp only
  by_cases full : partitionInfoBytes * (publishedAt dev bytes block).length = 0 ∨
      hasRoom (partitionInfoBytes * (publishedAt dev bytes block).length) = false
  · rw [if_pos full, if_pos full]
    exact ⟨_, rfl, rfl, rfl, rfl⟩
  · rw [if_neg full, if_neg full]
    exact ⟨_, rfl, rfl, rfl, rfl⟩

include shows log2

theorem publishFrom_found (hasRoom : Nat → Bool) (found : FirstValid dev bytes fails places place) (s : GptState σ) :
    ∃ x, publishFrom dev drv hasRoom places s = some x ∧
      outcome x = outcomeAt dev bytes hasRoom (headerBlock dev place.1) s ∧
      ∃ buffers, x.2.heapOps = s.heapOps ++ allocFree buffers := by
  obtain ⟨before, after, rfl, invalid, valid⟩ := found
  obtain ⟨s₁, skipped, empty, ⟨buffers, heapOps₁⟩, list₁, num₁⟩ := tryOffsets_invalid shows log2
    before (place :: after) invalid { s with buf := 0, bufSize := 0 } rfl
  obtain ⟨result, s₂, ran, attempted⟩ := readValidate_run shows log2 empty
  obtain rfl := attempted.valid.mpr valid
  have handed := attempted.handed rfl
  have image : Image (gptImage dev bytes (headerBlock dev place.1)) (bufferSize dev) s₂.buf s₂ := by
    rw [handed.buf]
    exact handed.image
  obtain ⟨⟨result, s₃⟩, published, same, buf₃, heapOps₃⟩ :=
    publishSlots_run log2 hasRoom image
  have tried : tryOffsets dev drv (before ++ place :: after) { s with buf := 0, bufSize := 0 } =
      some (.ok (), s₂) := by
    rw [skipped, tryOffsets]
    exact recover_ok ran _
  have freed : tegrablFree s₃.buf s₃ = { s₃ with heapOps := s₃.heapOps ++ [.free place.2] } := by
    unfold tegrablFree
    rw [buf₃, handed.buf, if_neg valid.room]
  refine ⟨(result, tegrablFree s₃.buf s₃), ?_, ?_, buffers ++ [place.2], ?_⟩
  · unfold publishFrom
    rw [modify_bind]
    refine always_run ?_ rfl
    rw [bind_ok tried, published]
  · rw [freed]
    refine Eq.trans same ?_
    unfold outcomeAt
    rw [handed.partitionList, handed.numPartitions, list₁, num₁]
  · rw [freed]
    show s₃.heapOps ++ [HeapOp.free place.2] = _
    rw [heapOps₃, handed.heapOps, heapOps₁]
    simp [allocFree]

theorem publishFrom_none (hasRoom : Nat → Bool)
    (none : ∀ place ∈ places, ¬ Valid dev bytes fails place.2 (headerBlock dev place.1))
    (s : GptState σ) :
    ∃ x, publishFrom dev drv hasRoom places s = some x ∧
      outcome x = (gptError .notFound 0, s.partitionList, s.numPartitions) ∧
      ∃ buffers, x.2.heapOps = s.heapOps ++ allocFree buffers := by
  obtain ⟨s₁, skipped, empty, freedOnce, list, num⟩ := tryOffsets_invalid shows log2 places [] none
    { s with buf := 0, bufSize := 0 } rfl
  rw [List.append_nil] at skipped
  have freed : tegrablFree s₁.buf s₁ = s₁ := by
    unfold tegrablFree
    rw [if_pos empty]
  have tried : (do
      tryOffsets dev drv places
      publishSlots dev hasRoom) { s with buf := 0, bufSize := 0 } =
      some (gptError .notFound 0, s₁) := by
    refine bind_error ?_ _
    rw [skipped]
    rfl
  refine ⟨(gptError .notFound 0, s₁), ?_, ?_, freedOnce⟩
  · unfold publishFrom
    rw [modify_bind]
    refine always_run tried ?_
    rw [freed]
  · unfold outcome
    rw [list, num]

end Run

/-! ### The primary and the secondary table -/

theorem headerBlock_mul {n : Nat} (fits : n * dev.blockSize + dev.blockSize ≤ 2 ^ 64) :
    headerBlock dev (n * dev.blockSize) = n % 2 ^ 32 := by
  have positive := blockSize_pos dev
  have noWrap : (n * dev.blockSize + (dev.blockSize - 1)) % 2 ^ 64 =
      n * dev.blockSize + (dev.blockSize - 1) := Nat.mod_eq_of_lt (by omega)
  have block : (n * dev.blockSize + (dev.blockSize - 1)) / dev.blockSize = n := by
    rw [Nat.add_comm, Nat.add_mul_div_right _ _ positive, Nat.div_eq_of_lt (by omega), Nat.zero_add]
  show (n * dev.blockSize + (dev.blockSize - 1)) % 2 ^ 64 / dev.blockSize % 2 ^ 32 = n % 2 ^ 32
  rw [noWrap, block]

theorem headerBlock_primary (log2 : dev.blockSizeLog2 < 32) : headerBlock dev (primaryOffset dev) = 1 := by
  have small := blockSize_lt log2
  rw [primaryOffset, Nat.mod_eq_of_lt small, ← Nat.one_mul dev.blockSize, headerBlock_mul (by omega)]
  rfl

theorem headerBlock_secondary (log2 : dev.blockSizeLog2 < 32) (blocks : dev.blockCount < 2 ^ 32)
    (some : dev.blockCount ≠ 0) : headerBlock dev (secondaryOffset dev) = dev.blockCount - 1 := by
  have small := blockSize_lt log2
  have capacity := capacity_lt log2 blocks
  obtain ⟨last, count⟩ := Nat.exists_eq_succ_of_ne_zero some
  have size : dev.size = last * dev.blockSize + dev.blockSize := by
    rw [Bdev.size, Nat.mod_eq_of_lt capacity, count, Nat.succ_mul]
  rw [count, Nat.succ_mul] at capacity
  have offset : secondaryOffset dev = last * dev.blockSize := by
    unfold secondaryOffset
    rw [Nat.mod_eq_of_lt small, size]
    omega
  rw [offset, count, headerBlock_mul capacity.le, Nat.mod_eq_of_lt (by omega)]
  rfl

theorem valid_secondary_iff (bytes : ByteMem) (fails : Nat → Nat → Bool)
    (log2 : dev.blockSizeLog2 < 32) (blocks : dev.blockCount < 2 ^ 32)
    (buffer : Nat) : Valid dev bytes fails buffer (headerBlock dev (secondaryOffset dev)) ↔
      Valid dev bytes fails buffer (dev.blockCount - 1) := by
  by_cases some : dev.blockCount = 0
  · exact iff_of_false (fun valid => valid.header.blocks some) fun valid => valid.header.blocks some
  · rw [headerBlock_secondary log2 blocks some]

def publishAlone (dev : Bdev) (drv : Driver σ) (hasRoom : Nat → Bool) (buffer offset : Nat) :
    Prog ErrorValue (GptState σ) Unit :=
  publishFrom dev drv hasRoom [(offset, buffer)]

theorem publishFrom_alone (shows : Shows dev bytes fails drv) (log2 : dev.blockSizeLog2 < 32)
    (hasRoom : Nat → Bool) {places : List (Nat × Nat)} {place : Nat × Nat}
    (found : FirstValid dev bytes fails places place) (s : GptState σ) :
    ∃ x, publishFrom dev drv hasRoom places s = some x ∧
      (∃ y, publishAlone dev drv hasRoom place.2 place.1 s = some y ∧ outcome x = outcome y) ∧
      ∃ buffers, x.2.heapOps = s.heapOps ++ allocFree buffers := by
  obtain ⟨x, ran, same, freed⟩ := publishFrom_found shows log2 hasRoom found s
  obtain ⟨-, -, -, -, valid⟩ := found
  have alone : FirstValid dev bytes fails [place] place := ⟨[], [], rfl, nofun, valid⟩
  obtain ⟨y, ranToo, sameToo, -⟩ := publishFrom_found shows log2 hasRoom alone s
  exact ⟨x, ran, ⟨y, ranToo, same.trans sameToo.symm⟩, freed⟩

/-- **The primary table, then the secondary one.** A valid primary table decides alone, otherwise a
valid secondary one does, otherwise there is an error and the caller's variables are kept; and every
buffer is allocated and freed once. -/
theorem publish_redundant (shows : Shows dev bytes fails drv) (log2 : dev.blockSizeLog2 < 32)
    (blocks : dev.blockCount < 2 ^ 32) (hasRoom : Nat → Bool) (fresh : Nat → Nat) (s : GptState σ) :
    ∃ x, tegrablGptPublish dev drv hasRoom fresh 0 s = some x ∧
      (Valid dev bytes fails (fresh 0) 1 →
        ∃ y, publishAlone dev drv hasRoom (fresh 0) (primaryOffset dev) s = some y ∧
          outcome x = outcome y) ∧
      (¬ Valid dev bytes fails (fresh 0) 1 → Valid dev bytes fails (fresh 1) (dev.blockCount - 1) →
        ∃ y, publishAlone dev drv hasRoom (fresh 1) (secondaryOffset dev) s = some y ∧
          outcome x = outcome y) ∧
      (¬ Valid dev bytes fails (fresh 0) 1 → ¬ Valid dev bytes fails (fresh 1) (dev.blockCount - 1) →
        (∃ e, x.1 = .error e) ∧ x.2.partitionList = s.partitionList ∧
          x.2.numPartitions = s.numPartitions) ∧
      ∃ buffers, x.2.heapOps = s.heapOps ++ allocFree buffers := by
  have primary := headerBlock_primary log2
  have secondary := valid_secondary_iff bytes fails log2 blocks (fresh 1)
  let places := [(primaryOffset dev, fresh 0), (secondaryOffset dev, fresh 1)]
  show ∃ x, publishFrom dev drv hasRoom places s = some x ∧ _
  by_cases first : Valid dev bytes fails (fresh 0) 1
  · have found : FirstValid dev bytes fails places (primaryOffset dev, fresh 0) :=
      ⟨[], _, rfl, nofun, primary ▸ first⟩
    obtain ⟨x, ran, alone, freed⟩ := publishFrom_alone shows log2 hasRoom found s
    exact ⟨x, ran, fun _ => alone, fun not => absurd first not, fun not => absurd first not, freed⟩
  · by_cases second : Valid dev bytes fails (fresh 1) (dev.blockCount - 1)
    · have found : FirstValid dev bytes fails places (secondaryOffset dev, fresh 1) := by
        refine ⟨[(primaryOffset dev, fresh 0)], [], rfl, ?_, secondary.mpr second⟩
        intro earlier member
        rw [List.mem_singleton.mp member, primary]
        exact first
      obtain ⟨x, ran, alone, freed⟩ := publishFrom_alone shows log2 hasRoom found s
      exact ⟨x, ran, fun valid => absurd valid first, fun _ _ => alone,
        fun _ not => absurd second not, freed⟩
    · have none : ∀ place ∈ places, ¬ Valid dev bytes fails place.2 (headerBlock dev place.1) := by
        intro place member
        rcases List.mem_cons.mp member with rfl | member
        · rw [primary]
          exact first
        · rw [List.mem_singleton.mp member]
          exact fun valid => second (secondary.mp valid)
      obtain ⟨x, ran, same, freed⟩ := publishFrom_none shows log2 hasRoom none s
      refine ⟨x, ran, fun valid => absurd valid first, fun _ valid => absurd valid second,
        fun _ _ => ⟨⟨_, congrArg Prod.fst same⟩, ?_, ?_⟩, freed⟩
      · exact congrArg (fun out => out.2.1) same
      · exact congrArg (fun out => out.2.2) same

/-- The second block cannot be read, so the last one decides. -/
theorem publish_redundant_sample :
    ∃ x y, tegrablGptPublish sampleDev (steadyDriver sampleDev sampleBytes fun block _ => block == 1)
        (fun _ => true) (fun _ => 0x1000) 0 sampleState = some x ∧
      publishAlone sampleDev (steadyDriver sampleDev sampleBytes fun block _ => block == 1)
        (fun _ => true) 0x1000 (secondaryOffset sampleDev) sampleState = some y ∧
      outcome x = outcome y := by
  obtain ⟨x, ran, -, second, -, -⟩ := publish_redundant
    (steadyDriver_shows sampleDev sampleBytes fun block _ => block == 1) (by decide) (by decide)
    (fun _ => true) (fun _ => 0x1000) sampleState
  obtain ⟨y, alone, same⟩ := second (fun valid => absurd valid.headerRead (by decide))
    (by decide +kernel)
  exact ⟨x, y, ran, alone, same⟩

/-! ### Entries and slots -/

variable {block : Nat}

def entryOf (dev : Bdev) (bytes : ByteMem) (block i : Nat) : Entry :=
  entryAt (gptImage dev bytes block) (dev.blockSize + i * (headerIn dev bytes block).entrySize)

def slotOf (dev : Bdev) (bytes : ByteMem) (block k : Nat) : Entry :=
  entryAt (gptImage dev bytes block) (dev.blockSize + entryBytes * k)

structure FromTable (dev : Bdev) (bytes : ByteMem) (block : Nat) (p : NamedPartition) : Prop where
  entry : ∃ i < (headerIn dev bytes block).numEntries,
    p = (entryOf dev bytes block i).publish dev.blockSizeLog2
  some : 0 < p.numSectors
  inside : p.startSector + p.numSectors ≤ dev.blockCount

theorem mem_publishedAt {p : NamedPartition} : p ∈ publishedAt dev bytes block ↔
    ∃ k < maxPartitionEntries, (slotOf dev bytes block k).isUsed = true ∧
      p = (slotOf dev bytes block k).publish dev.blockSizeLog2 := by
  simp only [publishedAt, publishedOf, slotsAt, List.mem_map, List.mem_filter, List.mem_range]
  constructor
  · rintro ⟨entry, ⟨⟨k, bound, rfl⟩, used⟩, rfl⟩
    exact ⟨k, bound, used, rfl⟩
  · rintro ⟨k, bound, used, rfl⟩
    exact ⟨_, ⟨⟨k, bound, rfl⟩, used⟩, rfl⟩

theorem entryAt_numSectors (mem : ByteMem) (addr log2 : Nat)
    (used : (entryAt mem addr).firstLba ≤ (entryAt mem addr).lastLba) :
    ((entryAt mem addr).publish log2).numSectors =
      ((entryAt mem addr).lastLba - (entryAt mem addr).firstLba + 1) % 2 ^ 64 := by
  have first : (entryAt mem addr).firstLba < 2 ^ 64 := (word64 mem (addr + 32)).isLt
  show ((entryAt mem addr).lastLba + (2 ^ 64 - (entryAt mem addr).firstLba) + 1) % 2 ^ 64 = _
  omega

theorem slot_sectors {k : Nat} (used : (slotOf dev bytes block k).isUsed = true) :
    (slotOf dev bytes block k).firstLba < (slotOf dev bytes block k).lastLba ∧
      (slotOf dev bytes block k).lastLba < 2 ^ 64 ∧
      ((slotOf dev bytes block k).publish dev.blockSizeLog2).numSectors =
        ((slotOf dev bytes block k).lastLba - (slotOf dev bytes block k).firstLba + 1) % 2 ^ 64 :=
  have order := of_decide_eq_true used
  ⟨order, (word64 _ _).isLt, entryAt_numSectors _ _ _ (Nat.le_of_lt order)⟩

theorem slot_inside_iff (blocks : dev.blockCount < 2 ^ 32) {k : Nat}
    (used : (slotOf dev bytes block k).isUsed = true) :
    (0 < ((slotOf dev bytes block k).publish dev.blockSizeLog2).numSectors ∧
      ((slotOf dev bytes block k).publish dev.blockSizeLog2).startSector +
        ((slotOf dev bytes block k).publish dev.blockSizeLog2).numSectors ≤ dev.blockCount) ↔
      (slotOf dev bytes block k).lastLba < dev.blockCount := by
  obtain ⟨order, last, sectors⟩ := slot_sectors used
  rw [sectors]
  show _ ∧ (slotOf dev bytes block k).firstLba + _ ≤ _ ↔ _
  omega

theorem publishFrom_ok (shows : Shows dev bytes fails drv) (log2 : dev.blockSizeLog2 < 32)
    {hasRoom : Nat → Bool} {places : List (Nat × Nat)} {s s' : GptState σ}
    (run : publishFrom dev drv hasRoom places s = some (.ok (), s')) :
    ∃ place ∈ places, Valid dev bytes fails place.2 (headerBlock dev place.1) ∧
      s'.partitionList = publishedAt dev bytes (headerBlock dev place.1) := by
  rcases firstValid_or_none dev bytes fails places with ⟨place, found⟩ | none
  · obtain ⟨x, ran, same, -⟩ := publishFrom_found shows log2 hasRoom found s
    obtain ⟨before, after, split, -, valid⟩ := found
    cases ran.symm.trans run
    refine ⟨place, by simp [split], valid, ?_⟩
    unfold outcomeAt at same
    dsimp only at same
    split at same
    · cases congrArg Prod.fst same
    · exact congrArg (fun out => out.2.1) same
  · obtain ⟨x, ran, same, -⟩ := publishFrom_none shows log2 hasRoom none s
    cases ran.symm.trans run
    cases congrArg Prod.fst same

def publishedBy : Option (Result Unit × GptState σ) → List NamedPartition
  | some (.ok (), s) => s.partitionList
  | _ => []

theorem publishedBy_eq (shows : Shows dev bytes fails drv) (log2 : dev.blockSizeLog2 < 32)
    {hasRoom : Nat → Bool} (room : ∀ n, hasRoom n = true) {places : List (Nat × Nat)}
    {place : Nat × Nat} (found : FirstValid dev bytes fails places place) (s : GptState σ) :
    publishedBy (publishFrom dev drv hasRoom places s) =
      publishedAt dev bytes (headerBlock dev place.1) := by
  obtain ⟨⟨result, s'⟩, ran, same, -⟩ := publishFrom_found shows log2 hasRoom found s
  rw [ran]
  unfold outcomeAt at same
  dsimp only at same
  by_cases empty : publishedAt dev bytes (headerBlock dev place.1) = []
  · rw [if_pos (.inl (by rw [empty]; rfl))] at same
    obtain rfl : result = gptError .noMemory 1 := congrArg Prod.fst same
    rw [empty]
    rfl
  · have some : partitionInfoBytes * (publishedAt dev bytes (headerBlock dev place.1)).length ≠ 0 :=
      Nat.mul_ne_zero (by decide) (fun none => empty (List.length_eq_zero_iff.mp none))
    rw [if_neg (not_or.mpr ⟨some, by rw [room]; exact Bool.noConfusion⟩)] at same
    obtain rfl : result = .ok () := congrArg Prod.fst same
    exact congrArg (fun out => out.2.1) same

/-- **What is published comes from the table** exactly when every used slot of the buffer repeats
one of the entries that the header counts and ends inside the device. The header and the table it
names have been verified in any case. -/
theorem publish_sound_iff (shows : Shows dev bytes fails drv) (log2 : dev.blockSizeLog2 < 32)
    (blocks : dev.blockCount < 2 ^ 32) {hasRoom : Nat → Bool} {fresh : Nat → Nat} {offset : Nat}
    {s s' : GptState σ} (run : tegrablGptPublish dev drv hasRoom fresh offset s = some (.ok (), s')) :
    ∃ place ∈ gptOffsets dev offset, HeaderOk dev (headerImage dev bytes (headerBlock dev place)) ∧
      TableOk dev bytes (headerBlock dev place) ∧
      ((∀ p ∈ s'.partitionList, FromTable dev bytes (headerBlock dev place) p) ↔
        ∀ k < maxPartitionEntries, (slotOf dev bytes (headerBlock dev place) k).isUsed = true →
          (∃ i < (headerIn dev bytes (headerBlock dev place)).numEntries,
            (slotOf dev bytes (headerBlock dev place) k).publish dev.blockSizeLog2 =
              (entryOf dev bytes (headerBlock dev place) i).publish dev.blockSizeLog2) ∧
          (slotOf dev bytes (headerBlock dev place) k).lastLba < dev.blockCount) := by
  obtain ⟨⟨place, buffer⟩, member, valid, list⟩ := publishFrom_ok shows log2 run
  obtain ⟨indexed, isIndexed, same⟩ := List.mem_map.mp member
  obtain ⟨rfl, -⟩ := Prod.mk.inj same
  refine ⟨indexed.1, (List.mem_zipIdx' isIndexed).2 ▸ List.getElem_mem _, valid.header, valid.table, ?_⟩
  rw [list]
  constructor
  · intro sound k bound used
    obtain ⟨entry, some, inside⟩ := sound _ (mem_publishedAt.mpr ⟨k, bound, used, rfl⟩)
    exact ⟨entry, (slot_inside_iff blocks used).mp ⟨some, inside⟩⟩
  · intro repeats p published
    obtain ⟨k, bound, used, rfl⟩ := mem_publishedAt.mp published
    obtain ⟨entry, last⟩ := repeats k bound used
    obtain ⟨some, inside⟩ := (slot_inside_iff blocks used).mpr last
    exact ⟨entry, some, inside⟩

def strayBytes : ByteMem :=
  sampleDisk (sampleHeader 1 128 0x3A3B5EA2 0xB8E0EEAD) (sampleEntry 4 1000 ++ sampleEntry 6 7)

/-- The entry behind the device is published, and the slot that the header does not count. -/
theorem stray_published :
    Valid sampleDev strayBytes noFaults 0x1000 1 ∧ sampleDev.blockCount = 128 ∧
    (headerIn sampleDev strayBytes 1).numEntries = 1 ∧
    ∃ p ∈ publishedBy (tegrablGptPublish sampleDev (steadyDriver sampleDev strayBytes noFaults)
        (fun _ => true) (fun _ => 0x1000) 512 sampleState),
      ∃ q ∈ publishedBy (tegrablGptPublish sampleDev (steadyDriver sampleDev strayBytes noFaults)
        (fun _ => true) (fun _ => 0x1000) 512 sampleState),
      (p.startSector, p.numSectors) = (4, 997) ∧ (q.startSector, q.numSectors) = (6, 2) := by
  decide +kernel

/-- Both entries of the sample are inside the device, and no other slot is in use. -/
theorem publish_sound_sample :
    ∃ s', tegrablGptPublish sampleDev (steadyDriver sampleDev sampleBytes noFaults) (fun _ => true)
        (fun _ => 0x1000) 512 sampleState = some (.ok (), s') ∧
      ∀ p ∈ s'.partitionList, FromTable sampleDev sampleBytes 1 p := by
  have ran : (tegrablGptPublish sampleDev (steadyDriver sampleDev sampleBytes noFaults)
      (fun _ => true) (fun _ => 0x1000) 512 sampleState).map Prod.fst = some (.ok ()) := by
    decide +kernel
  obtain ⟨⟨_, s'⟩, run, rfl⟩ := Option.map_eq_some_iff.mp ran
  obtain ⟨place, member, -, -, sound⟩ := publish_sound_iff
    (steadyDriver_shows sampleDev sampleBytes noFaults) (by decide) (by decide) run
  obtain rfl : place = 512 := List.mem_singleton.mp member
  exact ⟨s', run, sound.mpr (by decide +kernel)⟩

def wantedEntries (dev : Bdev) (bytes : ByteMem) (block : Nat) : List Entry :=
  ((List.range (headerIn dev bytes block).numEntries).map (entryOf dev bytes block)).filter fun e =>
    decide (e.ptypeGuid ≠ List.replicate 16 0) && decide (e.firstLba ≤ e.lastLba) &&
      decide (e.lastLba < dev.blockCount)

def Publishes (wanted : List Entry) (published : List NamedPartition) : Prop :=
  (wanted.map fun e => (e.firstLba, e.lastLba - e.firstLba + 1)).Sublist
    (published.map fun p => (p.startSector, p.numSectors))

theorem of_mem_wantedEntries {e : Entry} (wanted : e ∈ wantedEntries dev bytes block) :
    (∃ i, e = entryOf dev bytes block i) ∧ e.firstLba ≤ e.lastLba ∧ e.lastLba < dev.blockCount := by
  simp only [wantedEntries, List.mem_filter, List.mem_map, Bool.and_eq_true, decide_eq_true_eq]
    at wanted
  obtain ⟨⟨i, -, rfl⟩, ⟨-, order⟩, inside⟩ := wanted
  exact ⟨⟨i, rfl⟩, order, inside⟩

theorem wantedEntries_sublist (size : (headerIn dev bytes block).entrySize = entryBytes)
    (count : (headerIn dev bytes block).numEntries ≤ maxPartitionEntries) :
    (wantedEntries dev bytes block).Sublist
      (slotsAt (gptImage dev bytes block) dev.blockSize) := by
  have slots : slotsAt (gptImage dev bytes block) dev.blockSize =
      (List.range maxPartitionEntries).map (entryOf dev bytes block) := by
    unfold slotsAt
    apply List.map_congr_left
    intro k _
    unfold entryOf
    rw [size, Nat.mul_comm]
  rw [slots]
  refine List.filter_sublist.trans (List.Sublist.map _ ?_)
  exact List.range_sublist.mpr count

/-- **The entries of a valid table are published** exactly when none of them is a single block. -/
theorem publish_complete_iff (shows : Shows dev bytes fails drv) (log2 : dev.blockSizeLog2 < 32)
    (blocks : dev.blockCount < 2 ^ 32) {hasRoom : Nat → Bool} (room : ∀ n, hasRoom n = true)
    {fresh : Nat → Nat} {offset : Nat} {place : Nat × Nat}
    (found : FirstValid dev bytes fails (gptPlaces dev fresh offset) place)
    (size : (headerIn dev bytes (headerBlock dev place.1)).entrySize = entryBytes)
    (count : (headerIn dev bytes (headerBlock dev place.1)).numEntries ≤ maxPartitionEntries)
    (s : GptState σ) :
    Publishes (wantedEntries dev bytes (headerBlock dev place.1))
        (publishedBy (tegrablGptPublish dev drv hasRoom fresh offset s)) ↔
      ∀ e ∈ wantedEntries dev bytes (headerBlock dev place.1), e.firstLba ≠ e.lastLba := by
  unfold tegrablGptPublish
  rw [publishedBy_eq shows log2 room found]
  generalize headerBlock dev place.1 = block at *
  constructor
  · intro complete e wanted single
    have member := complete.subset (List.mem_map.mpr ⟨e, wanted, rfl⟩)
    obtain ⟨p, published, same⟩ := List.mem_map.mp member
    obtain ⟨k, -, used, rfl⟩ := mem_publishedAt.mp published
    obtain ⟨order, last, sectors⟩ := slot_sectors used
    have wide : ((slotOf dev bytes block k).publish dev.blockSizeLog2).numSectors =
        e.lastLba - e.firstLba + 1 := congrArg Prod.snd same
    omega
  · intro spread
    have allUsed : (wantedEntries dev bytes block).filter Entry.isUsed = wantedEntries dev bytes block := by
      refine List.filter_eq_self.mpr fun e wanted => ?_
      obtain ⟨-, order, -⟩ := of_mem_wantedEntries wanted
      exact decide_eq_true (Nat.lt_of_le_of_ne order (spread e wanted))
    have slots := (wantedEntries_sublist size count).filter Entry.isUsed
    rw [allUsed] at slots
    have published := slots.map fun e => (e.firstLba, (e.publish dev.blockSizeLog2).numSectors)
    have exact_ : (wantedEntries dev bytes block).map
        (fun e => (e.firstLba, (e.publish dev.blockSizeLog2).numSectors)) =
        (wantedEntries dev bytes block).map
          fun e => (e.firstLba, e.lastLba - e.firstLba + 1) := by
      apply List.map_congr_left
      intro e wanted
      obtain ⟨⟨i, rfl⟩, order, inside⟩ := of_mem_wantedEntries wanted
      rw [show ((entryOf dev bytes block i).publish dev.blockSizeLog2).numSectors =
        _ from entryAt_numSectors _ _ _ order, Nat.mod_eq_of_lt (by unfold entryOf at inside; omega)]
      rfl
    rw [exact_] at published
    unfold Publishes publishedAt publishedOf
    rw [List.map_map]
    exact published

def singleBytes : ByteMem :=
  sampleDisk (sampleHeader 2 128 0xFF286BED 0xA44824E0) (sampleEntry 5 5 ++ sampleEntry 6 7)

/-- The entry of one block is not published. -/
theorem single_unpublished :
    Valid sampleDev singleBytes noFaults 0x1000 1 ∧
    (∃ e ∈ wantedEntries sampleDev singleBytes 1, e.firstLba = 5 ∧ e.lastLba = 5) ∧
    ∀ p ∈ publishedBy (tegrablGptPublish sampleDev (steadyDriver sampleDev singleBytes noFaults)
      (fun _ => true) (fun _ => 0x1000) 512 sampleState), p.startSector ≠ 5 := by
  decide +kernel

/-- Both entries of the sample are published. -/
theorem publish_complete_sample :
    Publishes (wantedEntries sampleDev sampleBytes 1)
      (publishedBy (tegrablGptPublish sampleDev (steadyDriver sampleDev sampleBytes noFaults)
        (fun _ => true) (fun _ => 0x1000) 512 sampleState)) := by
  have found : FirstValid sampleDev sampleBytes noFaults
      (gptPlaces sampleDev (fun _ => 0x1000) 512) (512, 0x1000) :=
    ⟨[], [], rfl, nofun, by decide +kernel⟩
  exact (publish_complete_iff (steadyDriver_shows sampleDev sampleBytes noFaults) (by decide)
    (by decide) (fun _ => rfl) found (by decide +kernel) (by decide +kernel) sampleState).mpr
      (by decide +kernel)

end Cboot.Gpt
