/-
**The free DRAM regions.**

`calculate_free_dram_regions` lists the permanent carveouts, sorts them by base with an insertion
sort, and reports what lies between the end of each one and the base of the next. The end is that of
the carveout last passed, not the furthest end so far, and nothing compares a base with the end of
DRAM.
-/

import Cboot.Lib.Gaps

namespace Cboot.LinuxBoot

open Gaps

/-! ### The carveouts -/

def sdramStartAddress : BitVec 64 := 0x80000000

def carveoutNvdec : Nat := 1
def carveoutMb2 : Nat := 35
def carveoutCpubl : Nat := 36
def carveoutOs : Nat := 38
def carveoutRcmBlob : Nat := 39
def carveoutNum : Nat := 46

structure CarveoutInfo where
  base : BitVec 64
  size : BitVec 64

structure DramParams where
  carveoutInfo : Fin carveoutNum → CarveoutInfo
  sdramSize : BitVec 64

structure Memblock where
  base : BitVec 64
  size : BitVec 64
  deriving DecidableEq

structure DramState where
  calculated : Bool
  freeDramBlock : List Memblock

def DramState.initial : DramState := ⟨false, []⟩

section Code

variable (params : DramParams)

def carveoutBase (c : Fin carveoutNum) : BitVec 64 := (params.carveoutInfo c).base

def carveoutSize (c : Fin carveoutNum) : BitVec 64 := (params.carveoutInfo c).size

def bomCompare (a b : Fin carveoutNum) : Int :=
  if carveoutBase params a < carveoutBase params b then -1
  else if carveoutBase params b < carveoutBase params a then 1
  else 0

def shiftIn (val : Fin carveoutNum) : List (Fin carveoutNum) → List (Fin carveoutNum)
  | [] => [val]
  | last :: rest =>
    if bomCompare params val last < 0 then last :: shiftIn val rest else val :: last :: rest

def sort (array : List (Fin carveoutNum)) : List (Fin carveoutNum) :=
  (array.foldl (fun sorted val => shiftIn params val sorted) []).reverse

def isPermanent (cotype : Fin carveoutNum) : Bool :=
  carveoutNvdec ≤ cotype.val &&
    !(carveoutBase params cotype < sdramStartAddress || carveoutSize params cotype = 0#64) &&
    !(cotype.val = carveoutMb2 || cotype.val = carveoutCpubl || cotype.val = carveoutOs ||
      cotype.val = carveoutRcmBlob)

def permCarveouts : List (Fin carveoutNum) :=
  sort params ((List.finRange carveoutNum).filter (isPermanent params))

def addBlock (curStart curEnd : BitVec 64) (blocks : List Memblock) : List Memblock :=
  if curStart < curEnd then blocks ++ [⟨curStart, curEnd - curStart⟩] else blocks

def regionsOf : List (Fin carveoutNum) → BitVec 64 → List Memblock → List Memblock
  | [], curStart, blocks => addBlock curStart (sdramStartAddress + params.sdramSize) blocks
  | c :: rest, curStart, blocks =>
    regionsOf rest (carveoutBase params c + carveoutSize params c)
      (addBlock curStart (carveoutBase params c) blocks)

def calculateFreeDramRegions (state : DramState) : DramState :=
  if state.calculated then state
  else ⟨true, regionsOf params (permCarveouts params) sdramStartAddress []⟩

end Code

/-! ### The sort -/

variable {params : DramParams}

theorem bomCompare_neg_iff (a b : Fin carveoutNum) :
    bomCompare params a b < 0 ↔ carveoutBase params a < carveoutBase params b := by
  unfold bomCompare
  split_ifs with below above
  · exact ⟨fun _ => below, fun _ => by decide⟩
  · exact ⟨fun positive => absurd positive (by decide), fun less => absurd less below⟩
  · exact ⟨fun zero => absurd zero (by decide), fun less => absurd less below⟩

def NotBelow (params : DramParams) (a b : Fin carveoutNum) : Prop :=
  carveoutBase params b ≤ carveoutBase params a

instance : DecidableRel (NotBelow params) := fun a b =>
  inferInstanceAs (Decidable (carveoutBase params b ≤ carveoutBase params a))

instance : Std.Total (NotBelow params) := ⟨fun _ _ => BitVec.le_total _ _⟩

instance : IsTrans (Fin carveoutNum) (NotBelow params) :=
  ⟨fun _ _ _ first second => BitVec.le_trans second first⟩

theorem shiftIn_eq (val : Fin carveoutNum) (sorted : List (Fin carveoutNum)) :
    shiftIn params val sorted = sorted.orderedInsert (NotBelow params) val := by
  induction sorted with
  | nil => rfl
  | cons last rest ih =>
    rw [shiftIn, List.orderedInsert]
    by_cases below : carveoutBase params val < carveoutBase params last
    · have after : ¬ NotBelow params val last := BitVec.not_le.mpr below
      rw [if_pos ((bomCompare_neg_iff val last).mpr below), if_neg after, ih]
    · have here : NotBelow params val last := BitVec.not_lt.mp below
      rw [if_neg (mt (bomCompare_neg_iff val last).mp below), if_pos here]

theorem foldl_shiftIn (array sorted : List (Fin carveoutNum))
    (ordered : sorted.Pairwise (NotBelow params)) :
    (array.foldl (fun sorted val => shiftIn params val sorted) sorted).Perm (array ++ sorted) ∧
      (array.foldl (fun sorted val => shiftIn params val sorted) sorted).Pairwise
        (NotBelow params) := by
  induction array generalizing sorted with
  | nil => exact ⟨List.Perm.refl _, ordered⟩
  | cons val array ih =>
    have grown : (shiftIn params val sorted).Pairwise (NotBelow params) := by
      rw [shiftIn_eq]
      exact ordered.orderedInsert val sorted
    obtain ⟨perm, ordered'⟩ := ih (shiftIn params val sorted) grown
    refine ⟨perm.trans ?_, ordered'⟩
    rw [shiftIn_eq]
    exact ((List.perm_orderedInsert _ val sorted).append_left array).trans List.perm_middle

theorem sort_perm (array : List (Fin carveoutNum)) : (sort params array).Perm array := by
  have perm := (@foldl_shiftIn params array [] List.Pairwise.nil).1
  rw [List.append_nil] at perm
  exact (List.reverse_perm _).trans perm

theorem sort_sorted (array : List (Fin carveoutNum)) :
    (sort params array).Pairwise fun a b => carveoutBase params a ≤ carveoutBase params b :=
  List.pairwise_reverse.mpr (foldl_shiftIn array [] List.Pairwise.nil).2

theorem mem_permCarveouts (c : Fin carveoutNum) :
    c ∈ permCarveouts params ↔ isPermanent params c = true := by
  rw [permCarveouts, (sort_perm _).mem_iff, List.mem_filter]
  exact and_iff_right (List.mem_finRange c)

/-! ### The sweep -/

def Memblock.range (block : Memblock) : Nat × Nat :=
  (block.base.toNat, block.base.toNat + block.size.toNat)

def carveoutStart (params : DramParams) (c : Fin carveoutNum) : Nat := (carveoutBase params c).toNat

def carveoutFinish (params : DramParams) (c : Fin carveoutNum) : Nat :=
  (carveoutBase params c).toNat + (carveoutSize params c).toNat

def dramEnd (params : DramParams) : Nat := sdramStartAddress.toNat + params.sdramSize.toNat

def NoWrap (params : DramParams) : Prop := ∀ c, carveoutFinish params c < 2 ^ 64

theorem addBlock_range (curStart curEnd : BitVec 64) (blocks : List Memblock) :
    (addBlock curStart curEnd blocks).map Memblock.range = blocks.map Memblock.range ++
      if curStart.toNat < curEnd.toNat then [(curStart.toNat, curEnd.toNat)] else [] := by
  unfold addBlock
  by_cases found : curStart < curEnd
  · have below : curStart.toNat < curEnd.toNat := found
    have range : Memblock.range ⟨curStart, curEnd - curStart⟩ = (curStart.toNat, curEnd.toNat) := by
      have size := BitVec.toNat_sub_of_le (BitVec.le_of_lt found)
      exact Prod.ext rfl (by rw [Memblock.range, size]; exact Nat.add_sub_of_le below.le)
    rw [if_pos found, if_pos below, List.map_append, List.map_singleton, range]
  · have notBelow : ¬ curStart.toNat < curEnd.toNat := found
    rw [if_neg found, if_neg notBelow, List.append_nil]

theorem regionsOf_eq {l : List (Fin carveoutNum)} (noWrap : ∀ c ∈ l, carveoutFinish params c < 2 ^ 64)
    (cur : BitVec 64) (blocks : List Memblock) :
    (regionsOf params l cur blocks).map Memblock.range = blocks.map Memblock.range ++
      gaps (carveoutStart params) (carveoutFinish params) cur.toNat l
        (sdramStartAddress + params.sdramSize).toNat := by
  induction l generalizing cur blocks with
  | nil => exact addBlock_range _ _ _
  | cons c rest ih =>
    have finish : (carveoutBase params c + carveoutSize params c).toNat = carveoutFinish params c := by
      rw [BitVec.toNat_add]
      exact Nat.mod_eq_of_lt (noWrap c (.head _))
    rw [regionsOf, ih fun d member => noWrap d (.tail c member), addBlock_range, finish,
      List.append_assoc]
    rfl

theorem isPermanent_facts {c : Fin carveoutNum} (permanent : isPermanent params c = true) :
    sdramStartAddress.toNat ≤ carveoutStart params c ∧
      carveoutStart params c < carveoutFinish params c := by
  have checks : ¬ (carveoutBase params c < sdramStartAddress) ∧ carveoutSize params c ≠ 0#64 := by
    unfold isPermanent at permanent
    simp only [Bool.and_eq_true, Bool.not_eq_true', Bool.or_eq_false_iff,
      decide_eq_false_iff_not] at permanent
    exact permanent.1.2
  have above : sdramStartAddress.toNat ≤ (carveoutBase params c).toNat := BitVec.not_lt.mp checks.1
  have positive : 0 < (carveoutSize params c).toNat := by
    rw [Nat.pos_iff_ne_zero, ← BitVec.toNat_zero, Ne, BitVec.toNat_inj]
    exact checks.2
  exact ⟨above, Nat.lt_add_of_pos_right positive⟩

def LastReachesFurthest (params : DramParams) : Prop :=
  ∀ passed coming, permCarveouts params = passed ++ coming →
    lastFinish (carveoutFinish params) sdramStartAddress.toNat passed <
      nextStart (carveoutStart params) (sdramStartAddress + params.sdramSize).toNat coming →
    ∀ c ∈ passed, carveoutFinish params c ≤
      lastFinish (carveoutFinish params) sdramStartAddress.toNat passed

def GapsBelowDramEnd (params : DramParams) : Prop :=
  ∀ passed c coming, permCarveouts params = passed ++ c :: coming →
    lastFinish (carveoutFinish params) sdramStartAddress.toNat passed < carveoutStart params c →
    carveoutStart params c ≤ dramEnd params

/-- **The free regions and the permanent carveouts.** The regions overlap no permanent carveout and
lie inside DRAM exactly when the carveouts, in the order of their bases, satisfy both conditions. -/
theorem freeDram_safe_iff (noWrap : NoWrap params) :
    (∀ block ∈ (calculateFreeDramRegions params DramState.initial).freeDramBlock,
        (∀ c, isPermanent params c = true → ¬ Overlap block.range.1 block.range.2
          (carveoutStart params c) (carveoutFinish params c)) ∧
        sdramStartAddress.toNat ≤ block.range.1 ∧ block.range.2 ≤ dramEnd params) ↔
      LastReachesFurthest params ∧ GapsBelowDramEnd params := by
  have found : (calculateFreeDramRegions params DramState.initial).freeDramBlock.map Memblock.range =
      gaps (carveoutStart params) (carveoutFinish params) sdramStartAddress.toNat
        (permCarveouts params) (sdramStartAddress + params.sdramSize).toNat :=
    regionsOf_eq (fun c _ => noWrap c) _ []
  have permanent : ∀ c ∈ permCarveouts params, isPermanent params c = true := fun c member =>
    (mem_permCarveouts c).mp member
  have stop : (sdramStartAddress + params.sdramSize).toNat ≤ dramEnd params := by
    rw [BitVec.toNat_add]
    exact Nat.mod_le _ _
  have clear := gaps_clear_iff sdramStartAddress.toNat
    (sdramStartAddress + params.sdramSize).toNat
    (sort_sorted ((List.finRange carveoutNum).filter (isPermanent params)))
    fun c member => (isPermanent_facts (permanent c member)).2
  have inside := gaps_inside_iff (carveoutStart params)
    (fun c member => (isPermanent_facts (permanent c member)).1.trans
      (isPermanent_facts (permanent c member)).2.le) stop
  rw [← List.forall_mem_map (f := Memblock.range) (P := fun gap => (∀ c,
    isPermanent params c = true → ¬ Overlap gap.1 gap.2 (carveoutStart params c)
      (carveoutFinish params c)) ∧ sdramStartAddress.toNat ≤ gap.1 ∧ gap.2 ≤ dramEnd params), found]
  refine forall₂_and.trans (and_congr (Iff.trans ?_ clear) inside)
  exact ⟨fun all gap member c permanent' => all gap member c (permanent c permanent'),
    fun all gap member c permanent' => all gap member c ((mem_permCarveouts c).mpr permanent')⟩

/-! ### Nested carveouts -/

def twoCarveouts (nvdec wpr1 : CarveoutInfo) : DramParams where
  carveoutInfo c := if c.val = 1 then nvdec else if c.val = 2 then wpr1 else ⟨0, 0⟩
  sdramSize := 0x100000000

def nestedParams : DramParams :=
  twoCarveouts ⟨0x80000000, 0x10000000⟩ ⟨0x81000000, 0x1000⟩

/-- The region behind the inner carveout lies in the outer one. -/
theorem freeDram_overlaps_nested :
    NoWrap nestedParams ∧
      ∃ block ∈ (calculateFreeDramRegions nestedParams DramState.initial).freeDramBlock,
        ∃ c, isPermanent nestedParams c = true ∧ Overlap block.range.1 block.range.2
          (carveoutStart nestedParams c) (carveoutFinish nestedParams c) := by
  have noWrap : ∀ c, carveoutFinish nestedParams c < 2 ^ 64 := by decide
  refine ⟨noWrap, ⟨0x81001000, 0xFEFFF000⟩, by decide, ⟨1, by decide⟩, by decide,
    0x81001000, ?_⟩
  decide

def adjacentParams : DramParams :=
  twoCarveouts ⟨0x80000000, 0x10000000⟩ ⟨0x90000000, 0x1000⟩

/-- The equivalence at two carveouts that do not overlap. -/
theorem freeDram_safe_iff_adjacent :
    (∀ block ∈ (calculateFreeDramRegions adjacentParams DramState.initial).freeDramBlock,
        (∀ c, isPermanent adjacentParams c = true → ¬ Overlap block.range.1 block.range.2
          (carveoutStart adjacentParams c) (carveoutFinish adjacentParams c)) ∧
        sdramStartAddress.toNat ≤ block.range.1 ∧ block.range.2 ≤ dramEnd adjacentParams) ↔
      LastReachesFurthest adjacentParams ∧ GapsBelowDramEnd adjacentParams := by
  have noWrap : ∀ c, carveoutFinish adjacentParams c < 2 ^ 64 := by decide
  exact freeDram_safe_iff noWrap

end Cboot.LinuxBoot
