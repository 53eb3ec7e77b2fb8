/-
**The checksum of the boot image header.**

The last word of the header of 2048 bytes is its CRC-32, or 0 for none. `tegrabl_verify_boot_img_hdr`
compares it with the checksum of the whole header, the word itself included.
-/

import Cboot.LinuxBoot.BootImage

namespace Cboot.LinuxBoot

/-! ### The word and what it is compared with -/

def storedCrc (hdr : ByteMem) : BitVec 32 := word32 hdr (androidHeaderSize - 4)

def precedingBytes (hdr : ByteMem) : List Byte := hdr.load 0 (androidHeaderSize - 4)

@[mk_iff]
structure ReachesCrc (hdr : ByteMem) (imgSize : BitVec 32) : Prop where
  magic : hasBootImgHdr hdr = true
  page : androidHeaderSize ≤ (pagesize hdr).toNat
  sizes : pagesize hdr + kernelsize hdr + ramdisksize hdr + secondsize hdr ≤ imgSize

instance (hdr : ByteMem) (imgSize : BitVec 32) : Decidable (ReachesCrc hdr imgSize) :=
  decidable_of_iff _ (reachesCrc_iff hdr imgSize).symm

theorem bytes32_eq_lowBytes (word : BitVec 32) : bytes32 word = Crc.lowBytes 4 word := by
  simp [bytes32, Crc.lowBytes, ← BitVec.shiftRight_add]

theorem header_bytes (hdr : ByteMem) :
    hdr.load 0 androidHeaderSize = precedingBytes hdr ++ Crc.lowBytes 4 (storedCrc hdr) := by
  rw [← bytes32_eq_lowBytes, storedCrc, bytes32_word32]
  have split := ByteMem.load_add hdr 0 (androidHeaderSize - 4) 4
  rw [Nat.zero_add] at split
  exact split

theorem crc_of_header (hdr : ByteMem) :
    tegrablUtilsCrc32 0 (hdr.load 0 androidHeaderSize) =
      Crc.crc32 (precedingBytes hdr ++ Crc.lowBytes 4 (storedCrc hdr)) := by
  rw [tegrablUtilsCrc32_eq, header_bytes]

section Reached

variable {hdr : ByteMem} {imgSize : BitVec 32}

theorem verify_of_crc (reached : ReachesCrc hdr imgSize) (present : storedCrc hdr ≠ 0) :
    tegrablVerifyBootImgHdr hdr imgSize =
      if Crc.crc32 (precedingBytes hdr ++ Crc.lowBytes 4 (storedCrc hdr)) = storedCrc hdr then .ok ()
      else tegrablError .linuxboot .verifyFailed 1 := by
  have page := Nat.not_lt.mpr reached.page
  have sizes := BitVec.not_lt.mpr reached.sizes
  rw [tegrablVerifyBootImgHdr, reached.magic, Bool.not_true, if_neg nofun,
    if_neg page, if_neg sizes, crc_of_header]
  by_cases equal : Crc.crc32 (precedingBytes hdr ++ Crc.lowBytes 4 (storedCrc hdr)) = storedCrc hdr
  · rw [if_pos equal]
    exact if_neg fun bad => bad.2 equal
  · rw [if_neg equal]
    exact if_pos ⟨present, equal⟩

theorem verify_ok_iff (reached : ReachesCrc hdr imgSize) (present : storedCrc hdr ≠ 0) :
    tegrablVerifyBootImgHdr hdr imgSize = .ok () ↔
      Crc.crc32 (precedingBytes hdr ++ Crc.lowBytes 4 (storedCrc hdr)) = storedCrc hdr := by
  rw [verify_of_crc reached present]
  split
  · next equal => exact iff_of_true rfl equal
  · next different => exact iff_of_false nofun different

/-- **The checksum of the header.** The check accepts the stored checksum exactly when it is that of
the bytes before it, if and only if a right checksum is the one value that every header with a right
checksum is summed up to, and a wrong one is not the checksum of the header with itself in it. -/
theorem header_crc_iff (reached : ReachesCrc hdr imgSize) (present : storedCrc hdr ≠ 0) :
    (tegrablVerifyBootImgHdr hdr imgSize = .ok () ↔
        storedCrc hdr = Crc.crc32 (precedingBytes hdr)) ↔
      (storedCrc hdr = Crc.crc32 (precedingBytes hdr) → storedCrc hdr = Crc.residue32) ∧
      (storedCrc hdr ≠ Crc.crc32 (precedingBytes hdr) →
        storedCrc hdr ≠ Crc.crc32 (precedingBytes hdr ++ Crc.lowBytes 4 (storedCrc hdr))) := by
  rw [verify_ok_iff reached present]
  by_cases right : storedCrc hdr = Crc.crc32 (precedingBytes hdr)
  · have residue : Crc.crc32 (precedingBytes hdr ++ Crc.lowBytes 4 (storedCrc hdr)) =
        Crc.residue32 := by
      rw [right]
      exact Crc.crc32_residue _
    rw [residue]
    constructor
    · intro agrees
      exact ⟨fun _ => (agrees.mpr right).symm, fun wrong => absurd right wrong⟩
    · rintro ⟨same, -⟩
      exact iff_of_true (same right).symm right
  · constructor
    · intro agrees
      exact ⟨fun equal => absurd equal right, fun _ accident => right (agrees.mp accident.symm)⟩
    · rintro ⟨-, noAccident⟩
      exact iff_of_false (fun accident => noAccident right accident.symm) right

end Reached

/-! ### A header -/

def summedHeader (crc : BitVec 32) : ByteMem := (headerOf 2048 0 0 2048).store 2044 (bytes32 crc)

theorem summedHeader_stored (crc : BitVec 32) : storedCrc (summedHeader crc) = crc :=
  word32_store _ _ _

theorem foldl_parts {registers : List (BitVec 32)} {mem : ByteMem} {size : Nat} (count : Nat)
    (steps : ∀ i < count, (mem.load (size * i) size).foldl crc32Step (registers.getD i 0) =
      registers.getD (i + 1) 0) :
    (mem.load 0 (size * count)).foldl crc32Step (registers.getD 0 0) = registers.getD count 0 := by
  induction count with
  | zero => rfl
  | succ count ih =>
    rw [Nat.mul_succ, ByteMem.load_add, Nat.zero_add, List.foldl_append,
      ih fun i below => steps i (below.trans (Nat.lt_succ_self count))]
    exact steps count (Nat.lt_succ_self count)

def registers : List (BitVec 32) := [
  0xFFFFFFFF, 0x96B463D0, 0x63EA1506, 0xEDB6D65D, 0xE2C4641C, 0xB61A6056, 0xE648BD8F, 0xFD15624A,
  0xD36A49E6, 0xD0CB7853, 0x7EC53544, 0x74585859, 0x1B7916AA, 0x99DBE4CC, 0x006A4B11, 0x27C51BEC,
  0x6DA08B6D, 0xAEDE2A74, 0x49994B45, 0xA249296C, 0xB3E6C757, 0x01A36607, 0xBE2E5326, 0x6B716B99,
  0x2BC7DF6F, 0x00E5894E, 0x189000D1, 0xC81DC67B, 0xE2DE1672]

theorem summedHeader_preceding (crc : BitVec 32) :
    Crc.crc32 (precedingBytes (summedHeader crc)) = 0x1D21E98D := by
  have bytes : precedingBytes (summedHeader crc) = (headerOf 2048 0 0 2048).load 0 (73 * 28) := by
    refine ByteMem.load_congr fun i bound => ?_
    rw [Nat.zero_add]
    exact ByteMem.store_outside _ _ _ _ (.inl bound)
  have steps : ∀ i < 28, ((headerOf 2048 0 0 2048).load (73 * i) 73).foldl crc32Step
      (registers.getD i 0) = registers.getD (i + 1) 0 := by
    decide +kernel
  have total := foldl_parts 28 steps
  have start : registers.getD 0 0 = 0 ^^^ ~~~0#32 := by decide
  rw [start] at total
  rw [bytes, ← tegrablUtilsCrc32_eq, tegrablUtilsCrc32, total]
  decide

/-- The right checksum is rejected, and a wrong one is accepted. -/
theorem header_crc_confused :
    (storedCrc (summedHeader 0x1D21E98D) = Crc.crc32 (precedingBytes (summedHeader 0x1D21E98D)) ∧
      tegrablVerifyBootImgHdr (summedHeader 0x1D21E98D) 4096 =
        tegrablError .linuxboot .verifyFailed 1) ∧
    storedCrc (summedHeader 0xDC0202AF) ≠ Crc.crc32 (precedingBytes (summedHeader 0xDC0202AF)) ∧
      tegrablVerifyBootImgHdr (summedHeader 0xDC0202AF) 4096 = .ok () := by
  have summed : ∀ crc, Crc.crc32 (precedingBytes (summedHeader crc) ++ Crc.lowBytes 4
      (storedCrc (summedHeader crc))) =
        ~~~Crc.shifts Crc.polynomial32 32 (~~~(0x1D21E98D ^^^ crc)) := fun crc => by
    rw [Crc.crc32_append_word, summedHeader_preceding, summedHeader_stored]
  refine ⟨⟨?_, ?_⟩, ?_, ?_⟩
  · rw [summedHeader_stored, summedHeader_preceding]
  · rw [verify_of_crc (by decide +kernel) (by rw [summedHeader_stored]; decide), summed,
      summedHeader_stored]
    decide +kernel
  · rw [summedHeader_stored, summedHeader_preceding]
    decide
  · rw [verify_of_crc (by decide +kernel) (by rw [summedHeader_stored]; decide), summed,
      summedHeader_stored]
    decide +kernel

/-- A wrong checksum that is rejected. -/
theorem header_crc_wrong :
    tegrablVerifyBootImgHdr (summedHeader 1) 4096 = .ok () ↔
      storedCrc (summedHeader 1) = Crc.crc32 (precedingBytes (summedHeader 1)) := by
  refine (header_crc_iff (by decide +kernel) ?_).mpr ?_
  · rw [summedHeader_stored]
    decide
  · rw [Crc.crc32_append_word, summedHeader_preceding, summedHeader_stored]
    decide +kernel

end Cboot.LinuxBoot
