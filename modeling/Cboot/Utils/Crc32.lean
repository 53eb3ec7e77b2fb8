/-
**The checksum the bootloader protects its metadata with.**

`tegrablUtilsCrc32` is the table-driven CRC-32 of the utilities library: one table lookup for each
byte, between two complements. It is the bitwise check with the reflected polynomial, so it detects
every burst error of up to 32 bits (`utils_crc32_bitwise`).
-/

import Cboot.Lib.ByteMem
import Cboot.Lib.Crc

namespace Cboot

def tegrablCrc32Tab : List (BitVec 32) := [
  0x00000000, 0x77073096, 0xee0e612c, 0x990951ba, 0x076dc419, 0x706af48f,
  0xe963a535, 0x9e6495a3, 0x0edb8832, 0x79dcb8a4, 0xe0d5e91e, 0x97d2d988,
  0x09b64c2b, 0x7eb17cbd, 0xe7b82d07, 0x90bf1d91, 0x1db71064, 0x6ab020f2,
  0xf3b97148, 0x84be41de, 0x1adad47d, 0x6ddde4eb, 0xf4d4b551, 0x83d385c7,
  0x136c9856, 0x646ba8c0, 0xfd62f97a, 0x8a65c9ec, 0x14015c4f, 0x63066cd9,
  0xfa0f3d63, 0x8d080df5, 0x3b6e20c8, 0x4c69105e, 0xd56041e4, 0xa2677172,
  0x3c03e4d1, 0x4b04d447, 0xd20d85fd, 0xa50ab56b, 0x35b5a8fa, 0x42b2986c,
  0xdbbbc9d6, 0xacbcf940, 0x32d86ce3, 0x45df5c75, 0xdcd60dcf, 0xabd13d59,
  0x26d930ac, 0x51de003a, 0xc8d75180, 0xbfd06116, 0x21b4f4b5, 0x56b3c423,
  0xcfba9599, 0xb8bda50f, 0x2802b89e, 0x5f058808, 0xc60cd9b2, 0xb10be924,
  0x2f6f7c87, 0x58684c11, 0xc1611dab, 0xb6662d3d, 0x76dc4190, 0x01db7106,
  0x98d220bc, 0xefd5102a, 0x71b18589, 0x06b6b51f, 0x9fbfe4a5, 0xe8b8d433,
  0x7807c9a2, 0x0f00f934, 0x9609a88e, 0xe10e9818, 0x7f6a0dbb, 0x086d3d2d,
  0x91646c97, 0xe6635c01, 0x6b6b51f4, 0x1c6c6162, 0x856530d8, 0xf262004e,
  0x6c0695ed, 0x1b01a57b, 0x8208f4c1, 0xf50fc457, 0x65b0d9c6, 0x12b7e950,
  0x8bbeb8ea, 0xfcb9887c, 0x62dd1ddf, 0x15da2d49, 0x8cd37cf3, 0xfbd44c65,
  0x4db26158, 0x3ab551ce, 0xa3bc0074, 0xd4bb30e2, 0x4adfa541, 0x3dd895d7,
  0xa4d1c46d, 0xd3d6f4fb, 0x4369e96a, 0x346ed9fc, 0xad678846, 0xda60b8d0,
  0x44042d73, 0x33031de5, 0xaa0a4c5f, 0xdd0d7cc9, 0x5005713c, 0x270241aa,
  0xbe0b1010, 0xc90c2086, 0x5768b525, 0x206f85b3, 0xb966d409, 0xce61e49f,
  0x5edef90e, 0x29d9c998, 0xb0d09822, 0xc7d7a8b4, 0x59b33d17, 0x2eb40d81,
  0xb7bd5c3b, 0xc0ba6cad, 0xedb88320, 0x9abfb3b6, 0x03b6e20c, 0x74b1d29a,
  0xead54739, 0x9dd277af, 0x04db2615, 0x73dc1683, 0xe3630b12, 0x94643b84,
  0x0d6d6a3e, 0x7a6a5aa8, 0xe40ecf0b, 0x9309ff9d, 0x0a00ae27, 0x7d079eb1,
  0xf00f9344, 0x8708a3d2, 0x1e01f268, 0x6906c2fe, 0xf762575d, 0x806567cb,
  0x196c3671, 0x6e6b06e7, 0xfed41b76, 0x89d32be0, 0x10da7a5a, 0x67dd4acc,
  0xf9b9df6f, 0x8ebeeff9, 0x17b7be43, 0x60b08ed5, 0xd6d6a3e8, 0xa1d1937e,
  0x38d8c2c4, 0x4fdff252, 0xd1bb67f1, 0xa6bc5767, 0x3fb506dd, 0x48b2364b,
  0xd80d2bda, 0xaf0a1b4c, 0x36034af6, 0x41047a60, 0xdf60efc3, 0xa867df55,
  0x316e8eef, 0x4669be79, 0xcb61b38c, 0xbc66831a, 0x256fd2a0, 0x5268e236,
  0xcc0c7795, 0xbb0b4703, 0x220216b9, 0x5505262f, 0xc5ba3bbe, 0xb2bd0b28,
  0x2bb45a92, 0x5cb36a04, 0xc2d7ffa7, 0xb5d0cf31, 0x2cd99e8b, 0x5bdeae1d,
  0x9b64c2b0, 0xec63f226, 0x756aa39c, 0x026d930a, 0x9c0906a9, 0xeb0e363f,
  0x72076785, 0x05005713, 0x95bf4a82, 0xe2b87a14, 0x7bb12bae, 0x0cb61b38,
  0x92d28e9b, 0xe5d5be0d, 0x7cdcefb7, 0x0bdbdf21, 0x86d3d2d4, 0xf1d4e242,
  0x68ddb3f8, 0x1fda836e, 0x81be16cd, 0xf6b9265b, 0x6fb077e1, 0x18b74777,
  0x88085ae6, 0xff0f6a70, 0x66063bca, 0x11010b5c, 0x8f659eff, 0xf862ae69,
  0x616bffd3, 0x166ccf45, 0xa00ae278, 0xd70dd2ee, 0x4e048354, 0x3903b3c2,
  0xa7672661, 0xd06016f7, 0x4969474d, 0x3e6e77db, 0xaed16a4a, 0xd9d65adc,
  0x40df0b66, 0x37d83bf0, 0xa9bcae53, 0xdebb9ec5, 0x47b2cf7f, 0x30b5ffe9,
  0xbdbdf21c, 0xcabac28a, 0x53b39330, 0x24b4a3a6, 0xbad03605, 0xcdd70693,
  0x54de5729, 0x23d967bf, 0xb3667a2e, 0xc4614ab8, 0x5d681b02, 0x2a6f2b94,
  0xb40bbe37, 0xc30c8ea1, 0x5a05df1b, 0x2d02ef8d]

def crc32Step (crc : BitVec 32) (byte : Byte) : BitVec 32 :=
  tegrablCrc32Tab.getD ((crc ^^^ byte.setWidth 32) &&& 0xFF#32).toNat 0 ^^^ (crc >>> 8)

def tegrablUtilsCrc32 (val : BitVec 32) (buffer : List Byte) : BitVec 32 :=
  buffer.foldl crc32Step (val ^^^ ~~~0#32) ^^^ ~~~0#32

theorem tegrablCrc32Tab_eq : ∀ index : Byte, tegrablCrc32Tab.getD index.toNat 0 =
    Crc.shifts Crc.polynomial32 8 (index.setWidth 32) := by
  decide +kernel

theorem crc32Step_eq (crc : BitVec 32) (byte : Byte) :
    crc32Step crc byte = Crc.byteStep Crc.polynomial32 crc byte := by
  have index : ((crc ^^^ byte.setWidth 32) &&& 0xFF#32).toNat =
      ((crc ^^^ byte.setWidth 32).setWidth 8).toNat := by
    rw [BitVec.toNat_and, BitVec.toNat_setWidth]
    exact Nat.and_two_pow_sub_one_eq_mod _ 8
  have rest : (crc ^^^ byte.setWidth 32) >>> 8 = crc >>> 8 := by
    apply BitVec.eq_of_getLsbD_eq
    intro i bound
    simp
  have split := @Crc.shifts_split 32 Crc.polynomial32 8 0#32 (crc ^^^ byte.setWidth 32)
  rw [BitVec.zero_xor, BitVec.zero_xor, rest] at split
  rw [crc32Step, index, tegrablCrc32Tab_eq, Crc.byteStep, split]

theorem tegrablUtilsCrc32_eq (buffer : List Byte) :
    tegrablUtilsCrc32 0 buffer = Crc.crc32 buffer := by
  have steps : crc32Step = Crc.byteStep Crc.polynomial32 := by
    funext crc byte
    exact crc32Step_eq crc byte
  rw [tegrablUtilsCrc32, steps]
  exact BitVec.xor_allOnes

/-- The bits of a message in the order the register takes them. -/
def messageBits (message : List Byte) : List Bool := message.flatMap (Crc.lowBits 8)

theorem crc32Step_bits (crc : BitVec 32) (byte : Byte) :
    crc32Step crc byte =
      (Crc.lowBits 8 byte).foldl (Crc.bitStep Crc.polynomial32) crc := by
  have widened : Crc.lowBits 8 byte = Crc.lowBits 8 (byte.setWidth 32) := by
    apply List.map_congr_left
    intro i inside
    have bound := List.mem_range.mp inside
    simp [show i < 32 by omega]
  have gone : byte.setWidth 32 >>> 8 = 0#32 := by
    apply BitVec.eq_of_getLsbD_eq
    intro i bound
    simp
  rw [widened, Crc.lowBits_word, gone, BitVec.xor_zero, crc32Step_eq]
  rfl

theorem crc32Steps_bits (crc : BitVec 32) (message : List Byte) :
    message.foldl crc32Step crc =
      (messageBits message).foldl (Crc.bitStep Crc.polynomial32) crc := by
  induction message generalizing crc with
  | nil => rfl
  | cons byte message ih =>
    rw [List.foldl_cons, ih, crc32Step_bits, messageBits, messageBits, List.flatMap_cons,
      List.foldl_append]

theorem crc32_window {first second : List Byte} {before inside inside' after : List Bool}
    (window : inside.length ≤ 32) (length : inside.length = inside'.length)
    (one : messageBits first = before ++ inside ++ after)
    (two : messageBits second = before ++ inside' ++ after)
    (collide : tegrablUtilsCrc32 0 first = tegrablUtilsCrc32 0 second) : inside = inside' := by
  have ends := (BitVec.xor_left_inj _).mp collide
  rw [crc32Steps_bits, crc32Steps_bits, one, two, List.append_assoc, List.append_assoc,
    List.foldl_append (l := before), List.foldl_append (l := before)] at ends
  have bits := Crc.bitSteps_apart (by decide) (by simp [length]) (fun i large => by
    rw [List.getD_append_right _ _ _ _ (by omega), List.getD_append_right _ _ _ _ (by omega),
      length]) ends
  apply List.ext_getElem length
  intro i bound bound'
  have same := bits i (by omega)
  rw [BitVec.xor_self, List.getD_append _ _ _ _ bound, List.getD_append _ _ _ _ bound',
    List.getD_eq_getElem _ _ bound, List.getD_eq_getElem _ _ bound'] at same
  exact bne_eq_false_iff_eq.mp (same.symm.trans BitVec.getLsbD_zero)

/-- The table computes the check bit by bit, a message may be fed in two parts, and no two messages
that differ inside one window of at most 32 bits have the same check. -/
theorem utils_crc32_bitwise :
    (∀ message, tegrablUtilsCrc32 0 message =
      ~~~(messageBits message).foldl (Crc.bitStep 0xEDB88320#32) (BitVec.allOnes 32)) ∧
    (∀ a b, tegrablUtilsCrc32 (tegrablUtilsCrc32 0 a) b = tegrablUtilsCrc32 0 (a ++ b)) ∧
    ∀ (first second : List Byte) (before inside inside' after : List Bool),
      inside.length ≤ 32 → inside.length = inside'.length → inside ≠ inside' →
      messageBits first = before ++ inside ++ after →
      messageBits second = before ++ inside' ++ after →
      tegrablUtilsCrc32 0 first ≠ tegrablUtilsCrc32 0 second := by
  refine ⟨fun message => ?_, fun a b => ?_, ?_⟩
  · rw [tegrablUtilsCrc32, crc32Steps_bits]
    exact BitVec.xor_allOnes
  · rw [tegrablUtilsCrc32, tegrablUtilsCrc32, tegrablUtilsCrc32, List.foldl_append,
      BitVec.xor_assoc, BitVec.xor_self, BitVec.xor_zero]
  · intro first second before inside inside' after window length differ one two collide
    exact differ (crc32_window window length one two collide)

theorem utils_crc32_flipped_byte : tegrablUtilsCrc32 0 [0x00] ≠ tegrablUtilsCrc32 0 [0xFF] :=
  utils_crc32_bitwise.2.2 [0x00] [0xFF] [] (List.replicate 8 false) (List.replicate 8 true) []
    (by decide) (by decide) (by decide) (by decide) (by decide)

/-- Other bits stand inside one window of at most 32. -/
def Burst (first second : List Byte) : Prop :=
  ∃ before inside inside' after, inside.length ≤ 32 ∧ inside.length = inside'.length ∧
    inside ≠ inside' ∧ messageBits first = before ++ inside ++ after ∧
    messageBits second = before ++ inside' ++ after

theorem Burst.crc_ne {first second : List Byte} (burst : Burst first second) :
    tegrablUtilsCrc32 0 first ≠ tegrablUtilsCrc32 0 second := by
  obtain ⟨before, inside, inside', after, window, length, differ, one, two⟩ := burst
  exact fun collide => differ (crc32_window window length one two collide)

theorem Burst.check_ne {first second : List Byte} {crc : BitVec 32}
    (burst : Burst (first ++ bytes32 (tegrablUtilsCrc32 0 first)) (second ++ bytes32 crc)) :
    tegrablUtilsCrc32 0 second ≠ crc := by
  rintro rfl
  have residue (message : List Byte) : tegrablUtilsCrc32 0
      (message ++ bytes32 (tegrablUtilsCrc32 0 message)) = Crc.residue32 := by
    rw [tegrablUtilsCrc32_eq, tegrablUtilsCrc32_eq, ← Crc.crc32_residue message]
    simp [bytes32, Crc.lowBytes, ← BitVec.shiftRight_add]
  exact burst.crc_ne ((residue first).trans (residue second).symm)

/-- The checksum of the ASCII digits `1` to `9`. -/
example : tegrablUtilsCrc32 0 [0x31, 0x32, 0x33, 0x34, 0x35, 0x36, 0x37, 0x38, 0x39] =
    0xCBF43926#32 := by
  decide +kernel

end Cboot
