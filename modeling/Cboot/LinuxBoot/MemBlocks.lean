/-
**The memory blocks for the kernel.**

`tegrabl_get_memblk_info_array` goes through the first free DRAM regions and cuts each one down to
whole units of 2 MB. The units are found by rounding the base up, which wraps for a region in the
last unit of the address space.
-/

import Cboot.Lib.BitField
import Cboot.LinuxBoot.DramRegions

namespace Cboot.LinuxBoot

open Gaps

/-! ### The function -/

def maxMemChunks : Nat := 20

structure MemblkState where
  dram : DramState
  infoArray : List Memblock

def MemblkState.initial : MemblkState := ⟨.initial, []⟩

section Code

variable (params : DramParams)

def infoMemory (idx : Nat) (s : MemblkState) : Memblock × MemblkState :=
  let dram := calculateFreeDramRegions params s.dram
  (dram.freeDramBlock[idx]?.getD ⟨0, 0⟩, { s with dram })

def roundUpPow2Long (n w : BitVec 64) : BitVec 64 := ((n - 1) &&& ~~~(w - 1)) + w

def cut (memblock : Memblock) : Option Memblock :=
  let tmp := roundUpPow2Long memblock.base 0x200000
  if memblock.base + memblock.size ≤ tmp then none
  else
    let size := (memblock.size - (tmp - memblock.base)) &&& ~~~0x1FFFFF
    if 0 < size then some ⟨tmp, size⟩ else none

def memblkLoop : Nat → Nat → MemblkState → MemblkState
  | 0, _, s => s
  | left + 1, idx, s =>
    let (memblock, s) := infoMemory params idx s
    if memblock.size = 0 ∨ maxMemChunks ≤ s.infoArray.length then s
    else memblkLoop left (idx + 1) { s with infoArray := s.infoArray ++ (cut memblock).toList }

def tegrablGetMemblkInfoArray (s : MemblkState) : MemblkState :=
  if 0 < s.infoArray.length then s else memblkLoop params maxMemChunks 0 s

inductive Called : MemblkState → Prop
  | initial : Called .initial
  | info {s : MemblkState} (idx : Nat) (called : Called s) : Called (infoMemory params idx s).2
  | array {s : MemblkState} (called : Called s) : Called (tegrablGetMemblkInfoArray params s)

end Code

variable {params : DramParams}

/-! ### The regions -/

def dramStop (params : DramParams) : Nat := (sdramStartAddress + params.sdramSize).toNat

structure DisjointInside (params : DramParams) : Prop where
  disjoint : ∀ c d, isPermanent params c = true → isPermanent params d = true → c ≠ d →
    ¬ Overlap (carveoutStart params c) (carveoutFinish params c) (carveoutStart params d)
      (carveoutFinish params d)
  inside : ∀ c, isPermanent params c = true → sdramStartAddress.toNat ≤ carveoutStart params c ∧
    carveoutFinish params c ≤ dramStop params

theorem permCarveouts_nodup : (permCarveouts params).Nodup :=
  (sort_perm _).nodup_iff.mpr ((List.nodup_finRange carveoutNum).filter _)

theorem DisjointInside.inOrder (tidy : DisjointInside params) :
    InOrder (carveoutStart params) (carveoutFinish params) sdramStartAddress.toNat
      (permCarveouts params) (dramStop params) where
  order := by
    have sorted : (permCarveouts params).Pairwise fun c d =>
      carveoutBase params c ≤ carveoutBase params d := sort_sorted _
    refine (sorted.and permCarveouts_nodup).imp_of_mem fun inFirst inSecond both => ?_
    have first := (mem_permCarveouts _).mp inFirst
    have second := (mem_permCarveouts _).mp inSecond
    rcases apart_of_not_overlap (isPermanent_facts first).2 (isPermanent_facts second).2
      (tidy.disjoint _ _ first second both.2) with behind | wrong
    · exact behind
    · have low : carveoutStart params _ ≤ carveoutStart params _ := both.1
      exact absurd ((isPermanent_facts second).2.trans_le wrong) (Nat.not_lt.mpr low)
  proper c member := (isPermanent_facts ((mem_permCarveouts c).mp member)).2
  above c member := (tidy.inside c ((mem_permCarveouts c).mp member)).1
  below c member := (tidy.inside c ((mem_permCarveouts c).mp member)).2

def DramGap (params : DramParams) (gap : Nat × Nat) : Prop :=
  MaximalFree (carveoutStart params) (carveoutFinish params) sdramStartAddress.toNat
    ((List.finRange carveoutNum).filter (isPermanent params)) (dramStop params) gap.1 gap.2

def regions (params : DramParams) : List (Nat × Nat) :=
  (calculateFreeDramRegions params .initial).freeDramBlock.map Memblock.range

theorem regions_eq_gaps (tidy : DisjointInside params) :
    regions params = gaps (carveoutStart params) (carveoutFinish params) sdramStartAddress.toNat
      (permCarveouts params) (dramStop params) := by
  refine regionsOf_eq (fun c member => ?_) _ []
  exact (tidy.inOrder.below c member).trans_lt (sdramStartAddress + params.sdramSize).isLt

theorem regions_are_gaps (tidy : DisjointInside params) :
    (∀ gap, gap ∈ regions params ↔ DramGap params gap) ∧
      (regions params).Pairwise fun first second => first.2 < second.1 := by
  rw [regions_eq_gaps tidy]
  refine ⟨fun gap => (mem_gaps_iff_maximal tidy.inOrder).trans ?_, gaps_increasing tidy.inOrder⟩
  exact maximalFree_congr fun c => (sort_perm _).mem_iff

variable {block : Memblock}

theorem region_facts (tidy : DisjointInside params)
    (member : block ∈ (calculateFreeDramRegions params .initial).freeDramBlock) :
    sdramStartAddress.toNat ≤ block.base.toNat ∧ 0 < block.size.toNat ∧
      block.base.toNat + block.size.toNat < 2 ^ 64 := by
  have free := (((regions_are_gaps tidy).1 block.range).mp (List.mem_map_of_mem member)).1
  have proper : block.base.toNat < block.base.toNat + block.size.toNat := free.proper
  have below : block.base.toNat + block.size.toNat ≤ dramStop params := free.below
  exact ⟨free.above, by omega, below.trans_lt (sdramStartAddress + params.sdramSize).isLt⟩

/-! ### Whole units -/

def unit : Nat := 0x200000

structure AlignedPart (gap part : Nat × Nat) : Prop where
  low : unit ∣ part.1
  high : unit ∣ part.2
  proper : part.1 < part.2
  above : gap.1 ≤ part.1
  below : part.2 ≤ gap.2

def LargestAligned (gap part : Nat × Nat) : Prop :=
  AlignedPart gap part ∧ ∀ other, AlignedPart gap other → part.1 ≤ other.1 ∧ other.2 ≤ part.2

def alignedPart (gap : Nat × Nat) : Option (Nat × Nat) :=
  let low := (gap.1 + unit - 1) / unit * unit
  let high := gap.2 / unit * unit
  if low < high then some (low, high) else none

theorem alignedPart_some {low high : Nat}
    (proper : (low + unit - 1) / unit * unit < high / unit * unit) :
    alignedPart (low, high) = some ((low + unit - 1) / unit * unit, high / unit * unit) :=
  if_pos proper

theorem alignedPart_none {low high : Nat}
    (empty : ¬ (low + unit - 1) / unit * unit < high / unit * unit) :
    alignedPart (low, high) = none := if_neg empty

theorem AlignedPart.between {gap part : Nat × Nat} (aligned : AlignedPart gap part) :
    (gap.1 + unit - 1) / unit * unit ≤ part.1 ∧ part.2 ≤ gap.2 / unit * unit := by
  obtain ⟨k, low⟩ := aligned.low
  obtain ⟨m, high⟩ := aligned.high
  have above := aligned.above
  have below := aligned.below
  simp only [unit] at *
  omega

theorem alignedPart_iff (gap part : Nat × Nat) :
    alignedPart gap = some part ↔ LargestAligned gap part := by
  have rounded : (gap.1 + unit - 1) / unit * unit < gap.2 / unit * unit →
      AlignedPart gap ((gap.1 + unit - 1) / unit * unit, gap.2 / unit * unit) := fun proper =>
    ⟨Nat.dvd_mul_left _ _, Nat.dvd_mul_left _ _, proper, by simp only [unit]; omega,
      Nat.div_mul_le_self _ _⟩
  rw [alignedPart]
  constructor
  · intro found
    split at found
    · next proper =>
      cases found
      exact ⟨rounded proper, fun other aligned => aligned.between⟩
    · cases found
  · rintro ⟨aligned, largest⟩
    have between := aligned.between
    have proper := (between.1.trans_lt aligned.proper).trans_le between.2
    obtain ⟨low, high⟩ := largest _ (rounded proper)
    rw [if_pos proper]
    exact congrArg some (Prod.ext (between.1.antisymm low) (high.antisymm between.2))

theorem roundUpPow2Long_toNat {base : BitVec 64} (positive : 0 < base.toNat) :
    (roundUpPow2Long base 0x200000).toNat = ((base.toNat - 1) / unit * unit + unit) % 2 ^ 64 := by
  have before : (base - 1).toNat = base.toNat - 1 := by
    have bound := base.isLt
    rw [BitVec.toNat_sub]
    show (2 ^ 64 - 1 + base.toNat) % 2 ^ 64 = _
    omega
  have power : (0x200000 : BitVec 64) = BitVec.twoPow 64 21 := by decide
  rw [roundUpPow2Long, BitVec.toNat_add, power, BitField.toNat_and_not_mask _ (by decide), before]
  rfl

theorem end_toNat (inside : block.base.toNat + block.size.toNat < 2 ^ 64) :
    (block.base + block.size).toNat = block.base.toNat + block.size.toNat := by
  rw [BitVec.toNat_add]
  exact Nat.mod_eq_of_lt inside

theorem units_toNat (size : BitVec 64) :
    (size &&& ~~~0x1FFFFF).toNat = size.toNat / unit * unit := by
  have mask : (0x1FFFFF : BitVec 64) = BitVec.twoPow 64 21 - 1 := by decide
  rw [mask, BitField.toNat_and_not_mask _ (by decide)]
  rfl

theorem cut_eq (positive : 0 < block.base.toNat)
    (inside : block.base.toNat + block.size.toNat < 2 ^ 64)
    (early : block.base.toNat ≤ 2 ^ 64 - unit) :
    (cut block).map Memblock.range = alignedPart block.range := by
  have up : (roundUpPow2Long block.base 0x200000).toNat =
      (block.base.toNat + unit - 1) / unit * unit := by
    rw [roundUpPow2Long_toNat positive]
    simp only [unit] at *
    omega
  have end_ := end_toNat inside
  rw [cut]
  generalize roundUpPow2Long block.base 0x200000 = tmp at *
  by_cases none_ : block.base + block.size ≤ tmp
  · have late : (block.base + block.size).toNat ≤ tmp.toNat := none_
    rw [end_, up] at late
    have empty : ¬ (block.base.toNat + unit - 1) / unit * unit <
        (block.base.toNat + block.size.toNat) / unit * unit := by
      simp only [unit] at *
      omega
    rw [if_pos none_]
    exact (alignedPart_none empty).symm
  · have room : tmp.toNat < (block.base + block.size).toNat := Nat.lt_of_not_le none_
    rw [end_] at room
    have rest : (block.size - (tmp - block.base)).toNat =
        block.base.toNat + block.size.toNat - tmp.toNat := by
      have bound := tmp.isLt
      rw [BitVec.toNat_sub, BitVec.toNat_sub]
      simp only [unit] at up
      omega
    have size := units_toNat (block.size - (tmp - block.base))
    rw [rest] at size
    rw [if_neg none_]
    by_cases some_ : 0 < (block.size - (tmp - block.base)) &&& ~~~0x1FFFFF
    · have positive : 0 < ((block.size - (tmp - block.base)) &&& ~~~0x1FFFFF).toNat := some_
      have both : tmp.toNat + ((block.size - (tmp - block.base)) &&& ~~~0x1FFFFF).toNat =
          (block.base.toNat + block.size.toNat) / unit * unit := by
        rw [size, up] at *
        simp only [unit] at *
        omega
      have whole : Memblock.range ⟨tmp, (block.size - (tmp - block.base)) &&& ~~~0x1FFFFF⟩ =
          ((block.base.toNat + unit - 1) / unit * unit,
            (block.base.toNat + block.size.toNat) / unit * unit) := Prod.ext up both
      rw [if_pos some_, Option.map_some, whole]
      exact (alignedPart_some (by omega)).symm
    · have zero : ¬ 0 < ((block.size - (tmp - block.base)) &&& ~~~0x1FFFFF).toNat := some_
      rw [if_neg some_]
      refine (alignedPart_none ?_).symm
      rw [size, up] at zero
      simp only [unit] at *
      omega

theorem cut_last (some_ : 0 < block.size.toNat)
    (inside : block.base.toNat + block.size.toNat < 2 ^ 64)
    (late : 2 ^ 64 - unit < block.base.toNat) :
    cut block = some ⟨0, BitVec.ofNat 64 (2 ^ 64 - unit)⟩ := by
  have up : roundUpPow2Long block.base 0x200000 = 0 := by
    apply BitVec.eq_of_toNat_eq
    have bound := block.base.isLt
    rw [roundUpPow2Long_toNat (Nat.zero_lt_of_lt late)]
    show _ = 0
    simp only [unit] at *
    omega
  have end_ := end_toNat inside
  have notNone : ¬ block.base + block.size ≤ 0 := by
    intro none_
    have zero : (block.base + block.size).toNat ≤ 0 := none_
    omega
  have rest : block.size - (0 - block.base) = block.base + block.size := by
    ring
  have size : (block.base + block.size) &&& ~~~0x1FFFFF = BitVec.ofNat 64 (2 ^ 64 - unit) := by
    apply BitVec.eq_of_toNat_eq
    rw [units_toNat, end_]
    show _ = 2 ^ 64 - unit
    simp only [unit] at *
    omega
  rw [cut, up, if_neg notNone, rest, size]
  rfl

theorem lastUnit_range :
    Memblock.range ⟨0, BitVec.ofNat 64 (2 ^ 64 - unit)⟩ = (0, 2 ^ 64 - unit) := by decide +kernel

/-! ### The array -/

def freeBlocks (params : DramParams) : List Memblock :=
  (calculateFreeDramRegions params .initial).freeDramBlock

def DramState.Fresh (params : DramParams) (dram : DramState) : Prop :=
  calculateFreeDramRegions params dram = calculateFreeDramRegions params .initial

theorem memblkLoop_eq (proper : ∀ block ∈ freeBlocks params, block.size ≠ 0) (left : Nat) :
    ∀ idx (s : MemblkState), s.dram.Fresh params → s.infoArray.length + left ≤ maxMemChunks →
      (memblkLoop params left idx s).dram.Fresh params ∧
      (memblkLoop params left idx s).infoArray =
        s.infoArray ++ (((freeBlocks params).drop idx).take left).filterMap cut := by
  induction left with
  | zero =>
    intro idx s fresh _
    exact ⟨fresh, by simp [memblkLoop]⟩
  | succ left ih =>
    intro idx s fresh room
    have block : infoMemory params idx s = ((freeBlocks params)[idx]?.getD ⟨0, 0⟩,
        ⟨calculateFreeDramRegions params .initial, s.infoArray⟩) := by
      rw [infoMemory, fresh]
      rfl
    rw [memblkLoop, block]
    dsimp only
    cases found : (freeBlocks params)[idx]? with
    | none =>
      have behind : (freeBlocks params).drop idx = [] :=
        List.drop_eq_nil_of_le (List.getElem?_eq_none_iff.mp found)
      rw [Option.getD_none, if_pos (.inl rfl), behind]
      exact ⟨rfl, by simp⟩
    | some memblock =>
      have nonzero := proper memblock (List.mem_of_getElem? found)
      have space : ¬ maxMemChunks ≤ s.infoArray.length := by omega
      have split : (freeBlocks params).drop idx = memblock :: (freeBlocks params).drop (idx + 1) :=
        List.drop_eq_getElem?_toList_append.trans (by rw [found]; rfl)
      have short : (s.infoArray ++ (cut memblock).toList).length + left ≤ maxMemChunks := by
        have one := Option.length_toList_le (o := cut memblock)
        rw [List.length_append]
        omega
      rw [Option.getD_some, if_neg (not_or.mpr ⟨nonzero, space⟩), split, List.take_succ_cons]
      obtain ⟨freshToo, array⟩ := ih (idx + 1) ⟨calculateFreeDramRegions params .initial,
        s.infoArray ++ (cut memblock).toList⟩ rfl short
      refine ⟨freshToo, array.trans ?_⟩
      dsimp only
      rw [List.append_assoc]
      cases isCut : cut memblock with
      | none => simp [isCut]
      | some part => simp [isCut]

structure Sound (params : DramParams) (s : MemblkState) : Prop where
  fresh : s.dram.Fresh params
  array : s.infoArray = [] ∨
    s.infoArray = ((freeBlocks params).take maxMemChunks).filterMap cut

theorem getMemblkInfoArray_eq (proper : ∀ block ∈ freeBlocks params, block.size ≠ 0)
    {s : MemblkState} (sound : Sound params s) :
    (tegrablGetMemblkInfoArray params s).dram.Fresh params ∧
      (tegrablGetMemblkInfoArray params s).infoArray =
        ((freeBlocks params).take maxMemChunks).filterMap cut := by
  rw [tegrablGetMemblkInfoArray]
  split
  · next some_ =>
    refine ⟨sound.fresh, sound.array.resolve_left fun empty => ?_⟩
    rw [empty] at some_
    exact absurd some_ (Nat.lt_irrefl 0)
  · next none_ =>
    have empty : s.infoArray = [] := List.eq_nil_of_length_eq_zero (Nat.eq_zero_of_not_pos none_)
    have loop := memblkLoop_eq proper maxMemChunks 0 s sound.fresh (by rw [empty]; exact le_rfl)
    rw [empty, List.nil_append, List.drop_zero] at loop
    exact loop

theorem Called.sound (proper : ∀ block ∈ freeBlocks params, block.size ≠ 0) {s : MemblkState}
    (called : Called params s) : Sound params s := by
  induction called with
  | initial => exact ⟨rfl, .inl rfl⟩
  | info idx _ ih =>
    refine ⟨?_, ih.array⟩
    show calculateFreeDramRegions params (calculateFreeDramRegions params _) = _
    rw [ih.fresh]
    rfl
  | array _ ih =>
    obtain ⟨fresh, array⟩ := getMemblkInfoArray_eq proper ih
    exact ⟨fresh, .inr array⟩

theorem cuts_iff (tidy : DisjointInside params) :
    (((freeBlocks params).take maxMemChunks).filterMap cut).map Memblock.range =
        ((regions params).take maxMemChunks).filterMap alignedPart ↔
      ∀ gap ∈ (regions params).take maxMemChunks, gap.1 ≤ 2 ^ 64 - unit := by
  have taken : (regions params).take maxMemChunks =
      ((freeBlocks params).take maxMemChunks).map Memblock.range := List.map_take.symm
  have facts : ∀ block ∈ (freeBlocks params).take maxMemChunks,
      sdramStartAddress.toNat ≤ block.base.toNat ∧ 0 < block.size.toNat ∧
        block.base.toNat + block.size.toNat < 2 ^ 64 := fun block member =>
    region_facts tidy (List.mem_of_mem_take member)
  have start : 0 < sdramStartAddress.toNat := by decide
  rw [taken, List.map_filterMap, List.filterMap_map, List.forall_mem_map]
  constructor
  · intro same block member
    obtain ⟨-, some_, inside⟩ := facts block member
    refine Nat.le_of_not_lt fun late => ?_
    have reported : ((0, 2 ^ 64 - unit) : Nat × Nat) ∈ ((freeBlocks params).take
        maxMemChunks).filterMap fun block => (cut block).map Memblock.range := by
      refine List.mem_filterMap.mpr ⟨block, member, ?_⟩
      rw [cut_last some_ inside late, Option.map_some, lastUnit_range]
    rw [same] at reported
    obtain ⟨other, isOther, aligned⟩ := List.mem_filterMap.mp reported
    rw [Function.comp_apply, alignedPart_iff] at aligned
    have above : other.base.toNat ≤ 0 := aligned.1.above
    exact absurd ((facts other isOther).1.trans above) (Nat.not_le.mpr start)
  · intro early
    refine List.filterMap_congr fun block member => ?_
    obtain ⟨low, some_, inside⟩ := facts block member
    have positive : 0 < block.base.toNat := start.trans_le low
    have notLate : block.base.toNat ≤ 2 ^ 64 - unit := early block member
    rw [Function.comp_apply]
    exact cut_eq positive inside notLate

def lastUnitParams : DramParams where
  carveoutInfo c := if c.val = 1 then ⟨0x80000000, 0xFFFFFFFF7FF00000⟩ else ⟨0, 0⟩
  sdramSize := 0xFFFFFFFF7FF80000

theorem disjointInside_single {params : DramParams}
    (only : ∀ c, isPermanent params c = true → c.val = 1)
    (inside : ∀ c, isPermanent params c = true → sdramStartAddress.toNat ≤ carveoutStart params c ∧
      carveoutFinish params c ≤ dramStop params) : DisjointInside params where
  disjoint c d first second different :=
    absurd (Fin.ext ((only c first).trans (only d second).symm)) different
  inside := inside

def oneCarveout : DramParams := twoCarveouts ⟨0x80000000, 0x10000000⟩ ⟨0, 0⟩

end Cboot.LinuxBoot
