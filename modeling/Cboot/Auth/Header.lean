/-
**The boot component header and the ratchet check.**

A signed binary starts with `NvBootComponentHeader`, 4096 bytes: an unsigned part with the
signatures and the public keys, the part signed by the owner of the device, and the part signed by
the vendor. Its fields are read from memory at fixed offsets.
-/

import Cboot.Error
import Cboot.Lib.ByteMem

namespace Cboot.Auth

/-! ### Layout -/

def maxComponentCount : Nat := 4

def sizeofStage1Component : Nat := 64

def sizeofStage2Component : Nat := 80

def sizeofSignatures : Nat := 32 + 384 + 64

def sizeofPcp : Nat := 3 * 384 + 64

def offsetofStage2Signature : Nat := 4 + 12

def offsetofPcp : Nat := offsetofStage2Signature + sizeofSignatures

def offsetofSalt2 : Nat := offsetofPcp + sizeofPcp + 1248

def offsetofNumBinaries2 : Nat := offsetofSalt2 + 16

def offsetofStage2Components : Nat := offsetofNumBinaries2 + 4 + 12

def offsetofStage1Components : Nat :=
  offsetofStage2Components + maxComponentCount * sizeofStage2Component + sizeofSignatures +
    16 + 16 + 4 + 12

def sizeofHeader : Nat := offsetofStage1Components + maxComponentCount * sizeofStage1Component

@[simp] theorem sizeofHeader_eq : sizeofHeader = 4096 := rfl

def stage2SignOffset : Nat := offsetofSalt2

def stage2SignSize : Nat :=
  offsetofStage1Components - stage2SignOffset + sizeofStage1Component * maxComponentCount

def numBinaries2 (mem : ByteMem) (header : Nat) : BitVec 32 :=
  word32 mem (header + offsetofNumBinaries2)

def ratchetLevel (mem : ByteMem) (header i : Nat) : Byte :=
  mem (header + offsetofStage2Components + i * sizeofStage2Component + 18)

def binaryLen (mem : ByteMem) (header : Nat) : Nat :=
  (word32 mem (header + offsetofStage2Components + 4)).toNat

def componentDigest (mem : ByteMem) (header : Nat) : List Byte :=
  mem.load (header + offsetofStage2Components + 48) 32

/-! ### The ratchet check -/

def tegrablBinaryKernel : BitVec 32 := 37

def tegrablBinaryKernelDtb : BitVec 32 := 38

def oemFwBinTypeMapping (binType : Byte) : Nat :=
  if binType = tegrablBinaryKernel.setWidth 8 then 10 + 19 + 1
  else if binType = tegrablBinaryKernelDtb.setWidth 8 then 10 + 19 + 1 + 1
  else 0

def ratchetLoop (minRatchetLevel : Byte) (mem : ByteMem) (header : Nat) : Nat → Nat → Bool
  | 0, _ => true
  | remaining + 1, i =>
    if minRatchetLevel ≠ 0 ∧ ratchetLevel mem header i < minRatchetLevel then false
    else ratchetLoop minRatchetLevel mem header remaining (i + 1)

def tegrablDoRatchetCheck (minRatchet : Nat → Byte) (binType : Byte) (mem : ByteMem)
    (addr : Nat) : Bool :=
  let numBins : Byte := (numBinaries2 mem addr).setWidth 8
  ratchetLoop (minRatchet (oemFwBinTypeMapping binType)) mem addr numBins.toNat 0

theorem ratchetLoop_iff (minRatchetLevel : Byte) (mem : ByteMem) (header remaining i : Nat) :
    ratchetLoop minRatchetLevel mem header remaining i = true ↔
      minRatchetLevel = 0 ∨
        ∀ k < remaining, minRatchetLevel ≤ ratchetLevel mem header (i + k) := by
  induction remaining generalizing i with
  | zero => simp [ratchetLoop]
  | succ remaining ih =>
    rw [ratchetLoop]
    by_cases off : minRatchetLevel = 0
    · rw [if_neg fun both => both.1 off, ih]
      simp [off]
    · by_cases below : ratchetLevel mem header i < minRatchetLevel
      · rw [if_pos ⟨off, below⟩]
        refine iff_of_false Bool.false_ne_true ?_
        rintro (zero | all)
        · exact off zero
        · exact BitVec.not_lt.mpr (all 0 (Nat.succ_pos _)) below
      · rw [if_neg fun both => below both.2, ih]
        have here : minRatchetLevel ≤ ratchetLevel mem header (i + 0) := BitVec.not_lt.mp below
        refine or_congr_right ⟨fun all k bound => ?_, fun all k bound => ?_⟩
        · cases k with
          | zero => exact here
          | succ k =>
            have next := all k (Nat.lt_of_succ_lt_succ bound)
            rwa [Nat.add_right_comm] at next
        · have next := all (k + 1) (Nat.succ_lt_succ bound)
          rwa [← Nat.add_assoc, Nat.add_right_comm] at next

theorem tegrablDoRatchetCheck_iff (minRatchet : Nat → Byte) (binType : Byte) (mem : ByteMem)
    (addr : Nat) :
    tegrablDoRatchetCheck minRatchet binType mem addr = true ↔
      minRatchet (oemFwBinTypeMapping binType) = 0 ∨
        ∀ i < (numBinaries2 mem addr).toNat % 256,
          minRatchet (oemFwBinTypeMapping binType) ≤ ratchetLevel mem addr i := by
  rw [tegrablDoRatchetCheck, ratchetLoop_iff, BitVec.toNat_setWidth]
  simp only [Nat.zero_add]

end Cboot.Auth
