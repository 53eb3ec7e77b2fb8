/-
**Translation table descriptors.**

The descriptors that the memory map code writes for a 4 KB granule, and what the table walk of the
processor reads from them. The levels are those of the code: a table of level 1 covers the 39-bit
address space, one of level 3 holds pages. A descriptor is an output address in bits 12 to 39 beside
its attributes.
-/

import Cboot.Lib.BitField

namespace Cboot.Mmu

open BitField

instance entriesNeZero : NeZero 512 := inferInstance

/-! ### Constants of the source -/

def vaSizeBits : Nat := 39
def paSizeBits : Nat := 40
def pageSize : Nat := 4096
def firstLevel : Nat := 1
def lastLevel : Nat := 3
def ptesPerPage : Nat := 512
def pageIndexSize : Nat := 9
def numPageTablePages : Nat := 32

def maxMappingAllowed : Nat := 1024 * 1024 * 1024

def ttLevelShift : Nat → Nat
  | 0 => 39
  | 1 => 30
  | 2 => 21
  | _ => 12

def ttLevelSize (level : Nat) : Nat := 2 ^ ttLevelShift level

abbrev Pte := BitVec 64

def pteValid : Pte := 1
def pteSection : Pte := 1
def pteTable : Pte := 2
def ptePage : Pte := 3
def pteMemattrIndexMask : Pte := 7 <<< 2
def pteApMask : Pte := 3 <<< 6
def ptePermReadwrite : Pte := 0 <<< 6
def ptePermReadonly : Pte := 2 <<< 6
def pteShOuter : Pte := 2 <<< 8
def pteAccessFlag : Pte := 1 <<< 10
def ptePxn : Pte := 1 <<< 53
def pteXn : Pte := 1 <<< 54
def pteOutputAddrMask : Pte := (((1 <<< paSizeBits) - 1) >>> 12) <<< 12
def pteNextLevelTableAddrMask : Pte := (((1 <<< paSizeBits) - 1) >>> 12) <<< 12
def pteAttribsMask : Pte := (3 <<< 52) ||| 0xFFC

def memTypeDeviceSo : Pte := 0 <<< 2
def memTypeNormalUc : Pte := 1 <<< 2
def memTypeNormalWt : Pte := 2 <<< 2
def memTypeNormalWb : Pte := 3 <<< 2

def mmuFlagCached : BitVec 32 := 0x1
def mmuFlagWritethrough : BitVec 32 := 0x2
def mmuFlagDevice : BitVec 32 := 0x4
def mmuFlagReadwrite : BitVec 32 := 0x8
def mmuFlagExecuteNot : BitVec 32 := 0x10

/-! ### The descriptors the code writes -/

def newMemAttrib (flags : BitVec 32) : Pte :=
  if flags &&& mmuFlagDevice ≠ 0#32 then memTypeDeviceSo
  else if flags &&& mmuFlagCached ≠ 0#32 then
    if flags &&& mmuFlagWritethrough ≠ 0#32 then memTypeNormalWt else memTypeNormalWb
  else memTypeNormalUc

def permAttrib (flags : BitVec 32) : Pte :=
  if flags &&& mmuFlagReadwrite ≠ 0#32 then ptePermReadwrite else ptePermReadonly

def executeNotAttrib (flags : BitVec 32) : Pte :=
  if flags &&& mmuFlagExecuteNot ≠ 0#32 then pteXn ||| ptePxn else 0

def attribs (flags : BitVec 32) : Pte :=
  newMemAttrib flags ||| executeNotAttrib flags ||| permAttrib flags

def leafType (level : Nat) : Pte := if level < 3 then pteSection else ptePage

def leafPte (level : Nat) (paddr : Pte) (flags : BitVec 32) : Pte :=
  (paddr &&& pteOutputAddrMask) ||| (attribs flags ||| pteAccessFlag ||| pteShOuter ||| leafType level)

def fillPte (level : Nat) (paddr templatePte : Pte) : Pte :=
  (paddr &&& pteOutputAddrMask) ||| ((templatePte &&& pteAttribsMask) ||| pteAccessFlag ||| leafType level)

def tablePte (nextTt : BitVec 64) : Pte :=
  (nextTt &&& pteNextLevelTableAddrMask) ||| (pteTable ||| pteValid)

/-! ### The table walk of the processor -/

def span (height : Nat) : Nat := 2 ^ (12 + 9 * height)

@[ext]
structure Translation where
  outputAddr : Nat
  memType : Pte
  accessPerm : Pte
  executeNever : Bool
  privExecuteNever : Bool
  deriving DecidableEq

def decode (va height : Nat) (pte : Pte) : Translation where
  outputAddr := (pte &&& pteOutputAddrMask).toNat / span height * span height + va % span height
  memType := pte &&& pteMemattrIndexMask
  accessPerm := pte &&& pteApMask
  executeNever := decide (pte &&& pteXn ≠ 0#64)
  privExecuteNever := decide (pte &&& ptePxn ≠ 0#64)

def translate (va : Nat) (found : Nat × Pte) : Option Translation :=
  if found.2 &&& pteValid = 0#64 then none
  else if found.1 = 0 ∧ found.2 &&& pteTable = 0#64 then none
  else some (decode va found.1 found.2)

def nextTable (pte : Pte) : Option (BitVec 64) :=
  if pte &&& pteValid ≠ 0#64 ∧ pte &&& pteTable ≠ 0#64 then some (pte &&& pteNextLevelTableAddrMask)
  else none

def LeafOk (height : Nat) (pte : Pte) : Prop :=
  pte &&& pteValid ≠ 0#64 →
    (height = 0 → pte &&& pteTable ≠ 0#64) ∧ span height ∣ (pte &&& pteOutputAddrMask).toNat

def Translation.dropXn (t : Translation) : Translation := { t with executeNever := false }

def identity (flags : BitVec 32) (va : Nat) : Translation where
  outputAddr := va % 2 ^ paSizeBits
  memType := newMemAttrib flags
  accessPerm := permAttrib flags
  executeNever := decide (flags &&& mmuFlagExecuteNot ≠ 0#32)
  privExecuteNever := decide (flags &&& mmuFlagExecuteNot ≠ 0#32)

theorem span_pos (height : Nat) : 0 < span height := Nat.two_pow_pos _

theorem span_succ (height : Nat) : span (height + 1) = span height * 512 := by
  rw [span, span, Nat.mul_succ, ← Nat.add_assoc, Nat.pow_add]

theorem span_dvd_span {low high : Nat} (le : low ≤ high) : span low ∣ span high :=
  Nat.pow_dvd_pow 2 (by omega)

theorem pageSize_dvd_span (height : Nat) : pageSize ∣ span height :=
  span_dvd_span (Nat.zero_le height)

variable {height : Nat}

theorem ttLevelShift_eq (le : height ≤ 3) :
    ttLevelShift (lastLevel - height) = 12 + 9 * height := by
  interval_cases height <;> rfl

theorem ttLevelSize_eq (le : height ≤ 3) :
    ttLevelSize (lastLevel - height) = span height := by
  rw [ttLevelSize, ttLevelShift_eq le, span]

/-! ### Address bits and attribute bits -/

theorem and_of_outside (address attributes mask : Pte)
    (outside : pteOutputAddrMask &&& mask = 0#64) :
    ((address &&& pteOutputAddrMask) ||| attributes) &&& mask = attributes &&& mask := by
  rw [BitVec.and_or_distrib_right, BitVec.and_assoc, outside, BitVec.and_zero, BitVec.zero_or]

theorem outputAddr_of_outside (address attributes : Pte)
    (outside : attributes &&& pteOutputAddrMask = 0#64) :
    ((address &&& pteOutputAddrMask) ||| attributes) &&& pteOutputAddrMask =
      address &&& pteOutputAddrMask := by
  rw [BitVec.and_or_distrib_right, BitVec.and_assoc, BitVec.and_self, outside, BitVec.or_zero]

theorem pteOutputAddrMask_eq : pteOutputAddrMask = ones 64 28 <<< 12 := by decide

theorem outputAddr_toNat (address : Pte) :
    (address &&& pteOutputAddrMask).toNat = address.toNat % 2 ^ 40 / pageSize * pageSize := by
  have field : address &&& pteOutputAddrMask = fieldGet 12 28 address <<< 12 := by
    apply BitVec.eq_of_getLsbD_eq
    intro i inWord
    rw [pteOutputAddrMask_eq, BitVec.getLsbD_and, BitVec.getLsbD_shiftLeft,
      BitVec.getLsbD_shiftLeft, getLsbD_fieldGet, getLsbD_ones]
    by_cases low : i < 12
    · simp [low]
    · have split : 12 + (i - 12) = i := by omega
      simp [low, split, Bool.and_left_comm]
  have small : address.toNat / 2 ^ 12 % 2 ^ 28 < 2 ^ 28 := Nat.mod_lt _ (by decide)
  rw [field, BitVec.toNat_shiftLeft, fieldGet_toNat, Nat.shiftLeft_eq, pageSize]
  omega

theorem outputAddr_ofNat {address : Nat} (aligned : pageSize ∣ address) (bound : address < 2 ^ 40) :
    (BitVec.ofNat 64 address &&& pteOutputAddrMask).toNat = address := by
  rw [outputAddr_toNat, BitVec.toNat_ofNat]
  rw [pageSize] at *
  omega

theorem outputAddr_lt (pte : Pte) : (pte &&& pteOutputAddrMask).toNat < 2 ^ 40 := by
  rw [outputAddr_toNat, pageSize]
  omega

theorem pageSize_dvd_outputAddr (pte : Pte) : pageSize ∣ (pte &&& pteOutputAddrMask).toNat := by
  rw [outputAddr_toNat]
  exact Nat.dvd_mul_left _ _

theorem leafType_section (height : Nat) : leafType (lastLevel - (height + 1)) = pteSection := by
  refine if_pos ?_
  rw [lastLevel]
  omega

theorem leafAttributes_and (level : Nat) (flags : BitVec 32) :
    let attributes := attribs flags ||| pteAccessFlag ||| pteShOuter ||| leafType level
    attributes &&& pteOutputAddrMask = 0#64 ∧ attributes &&& pteValid = pteValid ∧
      attributes &&& pteTable = leafType level &&& pteTable ∧
      attributes &&& pteMemattrIndexMask = newMemAttrib flags ∧
      attributes &&& pteApMask = permAttrib flags ∧
      attributes &&& pteXn = executeNotAttrib flags &&& pteXn ∧
      attributes &&& ptePxn = executeNotAttrib flags &&& ptePxn := by
  unfold attribs newMemAttrib permAttrib executeNotAttrib leafType
  split_ifs <;> decide

theorem executeNotAttrib_and (flags : BitVec 32) {bit : Pte} (isBit : bit = pteXn ∨ bit = ptePxn) :
    decide (executeNotAttrib flags &&& bit ≠ 0#64) = decide (flags &&& mmuFlagExecuteNot ≠ 0#32) := by
  unfold executeNotAttrib
  by_cases executeNot : flags &&& mmuFlagExecuteNot ≠ 0#32
  · rw [if_pos executeNot, decide_eq_true executeNot]
    rcases isBit with rfl | rfl <;> decide
  · rw [if_neg executeNot, decide_eq_false executeNot]
    rcases isBit with rfl | rfl <;> decide

variable {mask : Pte}

section

variable (level : Nat) (paddr templatePte : Pte) (outside : pteOutputAddrMask &&& mask = 0#64)
include level paddr templatePte outside

theorem fillPte_and :
    fillPte level paddr templatePte &&& mask =
      (templatePte &&& (pteAttribsMask &&& mask)) ||| ((pteAccessFlag ||| leafType level) &&& mask) := by
  rw [fillPte, and_of_outside _ _ mask outside, BitVec.or_assoc, BitVec.and_or_distrib_right,
    BitVec.and_assoc]

theorem fillPte_and_kept (kept : pteAttribsMask &&& mask = mask)
    (apart : (pteAccessFlag ||| ptePage) &&& mask = 0#64) :
    fillPte level paddr templatePte &&& mask = templatePte &&& mask := by
  have types : (pteAccessFlag ||| leafType level) &&& mask = 0#64 := by
    have covered : pteAccessFlag ||| leafType level =
        (pteAccessFlag ||| leafType level) &&& (pteAccessFlag ||| ptePage) := by
      unfold leafType
      split <;> decide
    rw [covered, BitVec.and_assoc, apart, BitVec.and_zero]
  rw [fillPte_and level paddr templatePte outside, kept, types, BitVec.or_zero]

theorem fillPte_and_lost (lost : pteAttribsMask &&& mask = 0#64) :
    fillPte level paddr templatePte &&& mask = (pteAccessFlag ||| leafType level) &&& mask := by
  rw [fillPte_and level paddr templatePte outside, lost, BitVec.and_zero, BitVec.zero_or]

end

theorem fillPte_outputAddr (level : Nat) (paddr templatePte : Pte) :
    fillPte level paddr templatePte &&& pteOutputAddrMask = paddr &&& pteOutputAddrMask := by
  refine outputAddr_of_outside _ _ ?_
  have types : (pteAccessFlag ||| leafType level) &&& pteOutputAddrMask = 0#64 := by
    unfold leafType
    split <;> decide
  have attributes : pteAttribsMask &&& pteOutputAddrMask = 0#64 := by decide
  rw [BitVec.or_assoc, BitVec.and_or_distrib_right, BitVec.and_assoc, attributes, types,
    BitVec.and_zero, BitVec.or_zero]

/-! ### Leaves and tables as the walk sees them -/

theorem nextTable_zero : nextTable 0#64 = none := by decide

theorem leafOk_zero (height : Nat) : LeafOk height 0#64 :=
  fun valid => absurd (BitVec.zero_and) valid

theorem translate_zero (va height : Nat) : translate va (height, 0#64) = none :=
  if_pos BitVec.zero_and

variable {pte : Pte}

theorem nextTable_eq_none (section_ : pte &&& pteTable = 0#64) : nextTable pte = none :=
  if_neg fun both => both.2 section_

theorem pteNextLevelTableAddrMask_eq : pteNextLevelTableAddrMask = pteOutputAddrMask := rfl

theorem nextTable_tablePte (nextTt : BitVec 64) (kept : nextTt &&& pteOutputAddrMask = nextTt) :
    nextTable (tablePte nextTt) = some nextTt := by
  have valid : tablePte nextTt &&& pteValid = pteValid := by
    rw [tablePte, pteNextLevelTableAddrMask_eq, and_of_outside nextTt _ pteValid (by decide)]
    decide
  have table : tablePte nextTt &&& pteTable = pteTable := by
    rw [tablePte, pteNextLevelTableAddrMask_eq, and_of_outside nextTt _ pteTable (by decide)]
    decide
  have target : tablePte nextTt &&& pteOutputAddrMask = nextTt := by
    rw [tablePte, pteNextLevelTableAddrMask_eq,
      outputAddr_of_outside nextTt (pteTable ||| pteValid) (by decide)]
    exact kept
  have both : pteValid ≠ 0#64 ∧ pteTable ≠ 0#64 := by decide
  rw [nextTable, valid, table, if_pos both, pteNextLevelTableAddrMask_eq, target]

section

variable (level : Nat) (paddr : Pte) (flags : BitVec 32)
include level paddr flags

theorem leafPte_and
    (outside : pteOutputAddrMask &&& mask = 0#64) :
    leafPte level paddr flags &&& mask =
      (attribs flags ||| pteAccessFlag ||| pteShOuter ||| leafType level) &&& mask :=
  and_of_outside _ _ mask outside

theorem leafPte_outputAddr :
    leafPte level paddr flags &&& pteOutputAddrMask = paddr &&& pteOutputAddrMask :=
  outputAddr_of_outside _ _ (leafAttributes_and level flags).1

theorem leafPte_valid :
    leafPte level paddr flags &&& pteValid = pteValid := by
  rw [leafPte_and level paddr flags (by decide)]
  exact (leafAttributes_and level flags).2.1

theorem leafPte_table :
    leafPte level paddr flags &&& pteTable = leafType level &&& pteTable := by
  rw [leafPte_and level paddr flags (by decide)]
  exact (leafAttributes_and level flags).2.2.1

end

theorem nextTable_leafPte (height : Nat) (paddr : Pte) (flags : BitVec 32) :
    nextTable (leafPte (lastLevel - (height + 1)) paddr flags) = none := by
  refine nextTable_eq_none ?_
  rw [leafPte_table, leafType_section]
  decide

theorem translate_of_typed {va height : Nat} (valid : pte &&& pteValid = pteValid)
    (table : pte &&& pteTable = leafType (lastLevel - height) &&& pteTable) :
    translate va (height, pte) = some (decode va height pte) := by
  have isValid : ¬ pteValid = 0#64 := by decide
  have notReserved : ¬ (height = 0 ∧ leafType (lastLevel - height) &&& pteTable = 0#64) := by
    rintro ⟨rfl, clear⟩
    exact absurd clear (by decide)
  rw [translate, valid, if_neg isValid, table, if_neg notReserved]

theorem leafOk_of_typed
    (table : pte &&& pteTable = leafType (lastLevel - height) &&& pteTable)
    (aligned : span height ∣ (pte &&& pteOutputAddrMask).toNat) : LeafOk height pte := by
  refine fun _ => ⟨?_, aligned⟩
  rintro rfl
  rw [table]
  decide

theorem decode_outputAddr {va height : Nat}
    (aligned : span height ∣ (pte &&& pteOutputAddrMask).toNat) :
    (decode va height pte).outputAddr = (pte &&& pteOutputAddrMask).toNat + va % span height := by
  rw [decode, Nat.div_mul_cancel aligned]

theorem span_dvd_paSize (inRange : height ≤ 3) : span height ∣ 2 ^ 40 :=
  Nat.pow_dvd_pow 2 (by omega)

theorem outputAddr_of_aligned {paddr height : Nat} (aligned : span height ∣ paddr) :
    (BitVec.ofNat 64 paddr &&& pteOutputAddrMask).toNat = paddr % 2 ^ 40 := by
  have page : pageSize ∣ paddr % 2 ^ 40 :=
    (Nat.dvd_mod_iff ((pageSize_dvd_span 0).trans (span_dvd_paSize (by omega)))).mpr
      ((pageSize_dvd_span height).trans aligned)
  rw [outputAddr_toNat, BitVec.toNat_ofNat, Nat.mod_mod_of_dvd _ (by decide : 2 ^ 40 ∣ 2 ^ 64),
    Nat.div_mul_cancel page]

theorem blockStart_mod_add (va size count : Nat) :
    va / size * size % (size * count) + va % size = va % (size * count) := by
  rw [Nat.mul_comm (va / size), Nat.mul_mod_mul_left, Nat.mod_mul, Nat.add_comm]

theorem translate_leafPte {va paddr height : Nat} (flags : BitVec 32) (inRange : height ≤ 3)
    (aligned : span height ∣ paddr) (here : paddr / span height = va / span height) :
    translate va (height, leafPte (lastLevel - height) (BitVec.ofNat 64 paddr) flags) =
      some (identity flags va) := by
  obtain ⟨-, -, -, memType, accessPerm, xn, pxn⟩ :=
    leafAttributes_and (lastLevel - height) flags
  have address := outputAddr_of_aligned aligned
  have output : (decode va height (leafPte (lastLevel - height) (BitVec.ofNat 64 paddr)
      flags)).outputAddr = va % 2 ^ 40 := by
    obtain ⟨count, total⟩ := span_dvd_paSize inRange
    have start : paddr = va / span height * span height := by
      rw [← here, Nat.div_mul_cancel aligned]
    have block : span height ∣ paddr % 2 ^ 40 :=
      (Nat.dvd_mod_iff (span_dvd_paSize inRange)).mpr aligned
    rw [decode_outputAddr (by rw [leafPte_outputAddr, address]; exact block), leafPte_outputAddr,
      address, start, total, blockStart_mod_add]
  rw [translate_of_typed (leafPte_valid _ _ flags) (leafPte_table _ _ flags), Option.some.injEq]
  refine Translation.ext output ?_ ?_ ?_ ?_
  · exact (leafPte_and _ _ flags (by decide)).trans memType
  · exact (leafPte_and _ _ flags (by decide)).trans accessPerm
  · change decide (leafPte _ _ flags &&& pteXn ≠ 0#64) = _
    rw [leafPte_and _ _ flags (by decide), xn]
    exact executeNotAttrib_and flags (.inl rfl)
  · change decide (leafPte _ _ flags &&& ptePxn ≠ 0#64) = _
    rw [leafPte_and _ _ flags (by decide), pxn]
    exact executeNotAttrib_and flags (.inr rfl)

theorem leafOk_leafPte {paddr height : Nat} (flags : BitVec 32) (inRange : height ≤ 3)
    (aligned : span height ∣ paddr) :
    LeafOk height (leafPte (lastLevel - height) (BitVec.ofNat 64 paddr) flags) := by
  refine leafOk_of_typed (leafPte_table _ _ flags) ?_
  rw [leafPte_outputAddr, outputAddr_of_aligned aligned]
  exact (Nat.dvd_mod_iff (span_dvd_paSize inRange)).mpr aligned

variable {templatePte : Pte}

theorem fill_outputAddr {height k : Nat} (inRange : height + 1 ≤ 3)
    (aligned : span (height + 1) ∣ (templatePte &&& pteOutputAddrMask).toNat) (inTable : k < 512) :
    (((templatePte &&& pteOutputAddrMask) + BitVec.ofNat 64 (k * span height)) &&&
        pteOutputAddrMask).toNat =
      (templatePte &&& pteOutputAddrMask).toNat + k * span height := by
  have base := outputAddr_lt templatePte
  have offset : k * span height + span height ≤ span (height + 1) := by
    rw [span_succ, ← Nat.succ_mul, Nat.mul_comm (span height)]
    exact Nat.mul_le_mul_right _ inTable
  have top : span (height + 1) ≤ 2 ^ 40 - (templatePte &&& pteOutputAddrMask).toNat :=
    Nat.le_of_dvd (Nat.sub_pos_of_lt base) (Nat.dvd_sub (span_dvd_paSize inRange) aligned)
  have positive := span_pos height
  have page : pageSize ∣ (templatePte &&& pteOutputAddrMask).toNat + k * span height :=
    Nat.dvd_add (pageSize_dvd_outputAddr templatePte)
      ((pageSize_dvd_span height).trans (Nat.dvd_mul_left _ _))
  have asNat : (templatePte &&& pteOutputAddrMask) + BitVec.ofNat 64 (k * span height) =
      BitVec.ofNat 64 ((templatePte &&& pteOutputAddrMask).toNat + k * span height) := by
    rw [BitVec.ofNat_add, BitVec.ofNat_toNat, BitVec.setWidth_eq]
  rw [asNat, outputAddr_ofNat page (by omega)]

theorem fillPte_valid (level : Nat) (paddr templatePte : Pte) :
    fillPte level paddr templatePte &&& pteValid = pteValid := by
  rw [fillPte_and_lost level paddr templatePte (by decide) (by decide)]
  unfold leafType
  split <;> decide

theorem fillPte_table (level : Nat) (paddr templatePte : Pte) :
    fillPte level paddr templatePte &&& pteTable = leafType level &&& pteTable := by
  rw [fillPte_and_lost level paddr templatePte (by decide) (by decide)]
  unfold leafType
  split <;> decide

theorem fillPte_xn (level : Nat) (paddr templatePte : Pte) :
    fillPte level paddr templatePte &&& pteXn = 0#64 := by
  rw [fillPte_and_lost level paddr templatePte (by decide) (by decide)]
  unfold leafType
  split <;> decide

theorem translate_fillPte {va height : Nat} (inRange : height + 1 ≤ 3)
    (valid : templatePte &&& pteValid ≠ 0#64)
    (aligned : span (height + 1) ∣ (templatePte &&& pteOutputAddrMask).toNat) :
    translate va (height, fillPte (lastLevel - height) ((templatePte &&& pteOutputAddrMask) +
        BitVec.ofNat 64 (va / span height % 512 * span height)) templatePte) =
      (translate va (height + 1, templatePte)).map Translation.dropXn := by
  have address := fill_outputAddr inRange aligned (Nat.mod_lt (va / span height) (by decide : 0 < 512))
  have block : translate va (height + 1, templatePte) = some (decode va (height + 1) templatePte) := by
    rw [translate, if_neg valid, if_neg fun reserved => Nat.succ_ne_zero height reserved.1]
  rw [translate_of_typed (fillPte_valid _ _ _) (fillPte_table _ _ _), block, Option.map_some,
    Option.some.injEq]
  refine Translation.ext ?_ ?_ ?_ ?_ ?_
  · have small : span height ∣ (templatePte &&& pteOutputAddrMask).toNat +
        va / span height % 512 * span height :=
      Nat.dvd_add ((span_dvd_span (Nat.le_succ height)).trans aligned) (Nat.dvd_mul_left _ _)
    rw [Translation.dropXn, decode_outputAddr aligned,
      decode_outputAddr (by rw [fillPte_outputAddr, address]; exact small), fillPte_outputAddr,
      address, span_succ, Nat.mod_mul, Nat.add_assoc, Nat.mul_comm (span height),
      Nat.add_comm (va % span height)]
  · exact fillPte_and_kept _ _ _ (by decide) (by decide) (by decide)
  · exact fillPte_and_kept _ _ _ (by decide) (by decide) (by decide)
  · exact decide_eq_false fun set => set (fillPte_xn _ _ _)
  · change decide (fillPte _ _ templatePte &&& ptePxn ≠ 0#64) = decide (templatePte &&& ptePxn ≠ 0#64)
    rw [fillPte_and_kept _ _ _ (by decide) (by decide) (by decide)]

theorem leafOk_fillPte {height k : Nat} (inRange : height + 1 ≤ 3)
    (aligned : span (height + 1) ∣ (templatePte &&& pteOutputAddrMask).toNat) (inTable : k < 512) :
    LeafOk height (fillPte (lastLevel - height)
      ((templatePte &&& pteOutputAddrMask) + BitVec.ofNat 64 (k * span height)) templatePte) := by
  refine leafOk_of_typed (fillPte_table _ _ _) ?_
  rw [fillPte_outputAddr, fill_outputAddr inRange aligned inTable]
  exact Nat.dvd_add ((span_dvd_span (Nat.le_succ height)).trans aligned) (Nat.dvd_mul_left _ _)

theorem nextTable_fillPte (height : Nat) (paddr templatePte : Pte) :
    nextTable (fillPte (lastLevel - (height + 1)) paddr templatePte) = none := by
  refine nextTable_eq_none ?_
  rw [fillPte_table, leafType_section]
  decide

end Cboot.Mmu
