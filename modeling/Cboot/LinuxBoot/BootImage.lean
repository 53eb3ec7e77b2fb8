/-
**The boot image and what is taken out of it.**

A boot image starts with a header of 2048 bytes that gives the sizes of its parts. An image without
the header's magic is a raw kernel, of the size the loader reported. The kernel is copied, or
decompressed, to the place it starts from; the ramdisk of an image with a header is copied too.
-/

import Cboot.Lib.BitField
import Cboot.LinuxBoot.Extlinux
import Cboot.Utils.Crc32

namespace Cboot.LinuxBoot

/-! ### The header -/

def androidMagic : List Byte := [0x41, 0x4E, 0x44, 0x52, 0x4F, 0x49, 0x44, 0x21]

def androidHeaderSize : Nat := 2048

variable (hdr : ByteMem)

def hasBootImgHdr : Bool := hdr.load 0 8 = androidMagic

def kernelsize : BitVec 32 := word32 hdr 8

def ramdisksize : BitVec 32 := word32 hdr 16

def secondsize : BitVec 32 := word32 hdr 24

def pagesize : BitVec 32 := word32 hdr 36

def cmdline : List Byte := hdr.load 64 512

def tegrablVerifyBootImgHdr (imgSize : BitVec 32) : Result Unit :=
  if !hasBootImgHdr hdr then tegrablError .linuxboot .verifyFailed 0
  else if (pagesize hdr).toNat < androidHeaderSize then tegrablError .linuxboot .invalid 0
  else if imgSize < pagesize hdr + kernelsize hdr + ramdisksize hdr + secondsize hdr then
    tegrablError .linuxboot .invalid 1
  else
    let knownCrc := word32 hdr (androidHeaderSize - 4)
    if knownCrc ≠ 0 ∧ tegrablUtilsCrc32 0 (hdr.load 0 androidHeaderSize) ≠ knownCrc then
      tegrablError .linuxboot .verifyFailed 1
    else .ok ()

/-! ### The parts -/

def maxKernelImageSize : Nat := 0x10000000

def ramdiskMaxSize : Nat := 0x04000000

abbrev Decompressors := Byte → Byte → Option (List Byte → Result (List Byte))

def kernelPlace (image : ByteMem) (kernelBinSize : Nat) : Nat × Nat :=
  if hasBootImgHdr image then ((pagesize image).toNat, (kernelsize image).toNat)
  else (0, kernelBinSize)

def extractKernel (decompressors : Decompressors) (image : ByteMem) (kernelBinSize : Nat) :
    Result (List Byte × Nat) := do
  let (payload, kernelSize) := kernelPlace image kernelBinSize
  if maxKernelImageSize < kernelSize then tegrablError .linuxboot .tooLarge 0
  else
    match decompressors (image payload) (image (payload + 1)) with
    | none => return (image.load payload kernelSize, kernelSize)
    | some decompress => return (← decompress (image.load payload kernelSize), kernelSize)

def roundUpPow2 (n w : BitVec 32) : BitVec 32 := ((n - 1) &&& ~~~(w - 1)) + w

def ramdiskOffset : Nat :=
  (roundUpPow2 (pagesize hdr + kernelsize hdr) (pagesize hdr)).toNat

def extractRamdisk : Result (List Byte) :=
  if ramdiskMaxSize < (ramdisksize hdr).toNat then tegrablError .linuxboot .tooLarge 1
  else .ok (hdr.load (ramdiskOffset hdr) (ramdisksize hdr).toNat)

/-! ### Images inside the loaded bytes -/

/-- Everything that is taken out of the image lies in its first `size` bytes: the magic, the header
if there is one with the ramdisk it announces, and the kernel. -/
structure ImageInside (image : ByteMem) (kernelBinSize size : Nat) : Prop where
  magic : 8 ≤ size
  header : hasBootImgHdr image = true → 576 ≤ size
  ramdisk : hasBootImgHdr image = true → ramdiskOffset image + (ramdisksize image).toNat ≤ size
  compression : (kernelPlace image kernelBinSize).1 + 2 ≤ size
  kernel : (kernelPlace image kernelBinSize).1 + (kernelPlace image kernelBinSize).2 ≤ size

section Inside

variable {first second : ByteMem} {kernelBinSize size : Nat}
  (agree : AgreeOn 0 size first second) (inside : ImageInside first kernelBinSize size)

include agree inside

theorem hasBootImgHdr_congr : hasBootImgHdr first = hasBootImgHdr second := by
  unfold hasBootImgHdr
  rw [agree.load (Nat.zero_le _) inside.magic]

theorem headerWord_congr (headed : hasBootImgHdr first = true) {offset : Nat} (word : offset ≤ 36) :
    word32 first offset = word32 second offset := by
  have header := inside.header headed
  exact agree.word32 (Nat.zero_le _) (by omega)

theorem kernelPlace_congr : kernelPlace first kernelBinSize = kernelPlace second kernelBinSize := by
  unfold kernelPlace pagesize kernelsize
  rw [← hasBootImgHdr_congr agree inside]
  split
  · rw [headerWord_congr agree inside ‹_› (le_refl 36),
      headerWord_congr agree inside ‹_› (by decide : 8 ≤ 36)]
  · rfl

theorem extractKernel_congr (decompressors : Decompressors) :
    extractKernel decompressors first kernelBinSize =
      extractKernel decompressors second kernelBinSize := by
  have compression := inside.compression
  have kernel := inside.kernel
  unfold extractKernel
  rw [← kernelPlace_congr agree inside]
  revert compression kernel
  generalize kernelPlace first kernelBinSize = place
  intro compression kernel
  simp only
  rw [agree place.1 (Nat.zero_le _) (by omega), agree (place.1 + 1) (Nat.zero_le _) (by omega),
    agree.load (Nat.zero_le _) kernel]

theorem extractRamdisk_congr (headed : hasBootImgHdr first = true) :
    extractRamdisk first = extractRamdisk second := by
  have offset : ramdiskOffset first = ramdiskOffset second := by
    unfold ramdiskOffset pagesize kernelsize
    rw [headerWord_congr agree inside headed (le_refl 36),
      headerWord_congr agree inside headed (by decide : 8 ≤ 36)]
  have length : ramdisksize first = ramdisksize second :=
    headerWord_congr agree inside headed (by decide : 16 ≤ 36)
  unfold extractRamdisk
  rw [← offset, ← length, agree.load (Nat.zero_le _) (inside.ramdisk headed)]

theorem cmdline_congr (headed : hasBootImgHdr first = true) : cmdline first = cmdline second :=
  agree.load (Nat.zero_le _) (inside.header headed)

end Inside

/-! ### What the check of the header is worth -/

def sizeSum : Nat :=
  (pagesize hdr).toNat + (kernelsize hdr).toNat + (ramdisksize hdr).toNat + (secondsize hdr).toNat

def roundedKernelEnd : Nat :=
  ((pagesize hdr).toNat + (kernelsize hdr).toNat + ((pagesize hdr).toNat - 1)) /
    (pagesize hdr).toNat * (pagesize hdr).toNat

def RangeInside (start size imgSize : Nat) : Prop := ∀ x, start ≤ x → x < start + size → x < imgSize

theorem rangeInside_iff {start size imgSize : Nat} :
    RangeInside start size imgSize ↔ size = 0 ∨ start + size ≤ imgSize := by
  constructor
  · intro inside
    rcases Nat.eq_zero_or_pos size with none | some
    · exact .inl none
    · have last := inside (start + size - 1) (by omega) (by omega)
      exact .inr (by omega)
  · rintro (none | fits) x low high
    · omega
    · omega

variable {imgSize : BitVec 32}

theorem verify_ok {hdr : ByteMem}
    (ok : tegrablVerifyBootImgHdr hdr imgSize = .ok ()) :
    hasBootImgHdr hdr = true ∧ sizeSum hdr % 2 ^ 32 ≤ imgSize.toNat := by
  have total : (pagesize hdr + kernelsize hdr + ramdisksize hdr + secondsize hdr).toNat =
      sizeSum hdr % 2 ^ 32 := by
    rw [BitVec.toNat_add, BitVec.toNat_add, BitVec.toNat_add, sizeSum]
    omega
  unfold tegrablVerifyBootImgHdr at ok
  by_cases magic : hasBootImgHdr hdr = true
  · rw [magic, Bool.not_true, if_neg nofun] at ok
    by_cases page : (pagesize hdr).toNat < androidHeaderSize
    · rw [if_pos page] at ok
      cases ok
    · by_cases sum : imgSize < pagesize hdr + kernelsize hdr + ramdisksize hdr + secondsize hdr
      · rw [if_neg page, if_pos sum] at ok
        cases ok
      · rw [← total]
        exact ⟨magic, BitVec.not_lt.mp sum⟩
  · rw [Bool.not_eq_true] at magic
    rw [magic, Bool.not_false, if_pos rfl] at ok
    cases ok

theorem kernel_inside_of_noWrap {hdr : ByteMem}
    (ok : tegrablVerifyBootImgHdr hdr imgSize = .ok ()) (noWrap : sizeSum hdr < 2 ^ 32) :
    (pagesize hdr).toNat + (kernelsize hdr).toNat ≤ imgSize.toNat := by
  have sum := (verify_ok ok).2
  rw [Nat.mod_eq_of_lt noWrap, sizeSum] at sum
  omega

theorem kernel_inside_iff {hdr : ByteMem} (kernelBinSize : Nat)
    (ok : tegrablVerifyBootImgHdr hdr imgSize = .ok ()) :
    RangeInside (kernelPlace hdr kernelBinSize).1 (kernelPlace hdr kernelBinSize).2 imgSize.toNat ↔
      sizeSum hdr < 2 ^ 32 ∨ (kernelsize hdr).toNat = 0 ∨
        (pagesize hdr).toNat + (kernelsize hdr).toNat ≤ imgSize.toNat := by
  have place : kernelPlace hdr kernelBinSize = ((pagesize hdr).toNat, (kernelsize hdr).toNat) :=
    if_pos (verify_ok ok).1
  rw [place, rangeInside_iff]
  refine ⟨.inr, ?_⟩
  rintro (noWrap | inside)
  · exact .inr (kernel_inside_of_noWrap ok noWrap)
  · exact inside

def headerOf (kernel ramdisk second page : BitVec 32) : ByteMem :=
  ((((ByteMem.store (fun _ => 0) 0 androidMagic).store 8 (bytes32 kernel)).store 16
    (bytes32 ramdisk)).store 24 (bytes32 second)).store 36 (bytes32 page)

end Cboot.LinuxBoot
