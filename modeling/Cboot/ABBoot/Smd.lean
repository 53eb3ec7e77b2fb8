/-
**The slot metadata and the boot-slot scratch register.**

The register holds the magic in bits 0–15, the slot number in 16–18, the slot count in 19–21, the
retry counts of B and A in 22–25 and 26–29, and the update flag in 30–31.
-/

import Cboot.Error
import Cboot.Lib.BitField
import Cboot.Lib.ByteMem

namespace Cboot.ABBoot

open BitField

/-! ### The metadata -/

def bootChainMagic : BitVec 32 := 0x43424E00#32

def bootChainVersionCrc32 : BitVec 16 := 2#16

def bootChainVersionMask : BitVec 16 := 0xFF#16

def bootctrlRedundancyEnable : BitVec 16 := 1#16 <<< 8

def bootctrlRedundancyUser : BitVec 16 := 1#16 <<< 9

def slotRetryCountDefault : Byte := 7#8

def slotPriorityDefault : Byte := 15#8

def bootSlotA : Nat := 0

def bootSlotB : Nat := 1

def maxSlots : Nat := 2

structure BootSlotInfo where
  priority : Byte
  suffix : Byte × Byte
  retryCount : Byte
  bootSuccessful : Byte
  deriving DecidableEq

structure SlotMetaData where
  magic : BitVec 32
  version : BitVec 16
  numSlots : BitVec 16
  slotInfo0 : BootSlotInfo
  slotInfo1 : BootSlotInfo
  crc32 : BitVec 32
  deriving DecidableEq

def bootctrlSupportRedundancy (version : BitVec 16) : BitVec 16 :=
  version &&& bootctrlRedundancyEnable

def bootctrlSupportRedundancyUser (version : BitVec 16) : BitVec 16 :=
  version &&& bootctrlRedundancyUser

variable (smd : SlotMetaData)

namespace SlotMetaData

def slotInfo : Nat → Option BootSlotInfo
  | 0 => some smd.slotInfo0
  | 1 => some smd.slotInfo1
  | _ => none

def setSlotInfo (slot : Nat) (info : BootSlotInfo) : SlotMetaData :=
  match slot with
  | 0 => { smd with slotInfo0 := info }
  | 1 => { smd with slotInfo1 := info }
  | _ => smd

theorem slotInfo_isSome_iff (slot : Nat) : (smd.slotInfo slot).isSome ↔ slot < maxSlots := by
  match slot with
  | 0 | 1 | n + 2 => simp [slotInfo, maxSlots]

def twoSlots (version : BitVec 16) (priorityA priorityB : Byte) : SlotMetaData where
  magic := bootChainMagic
  version := version
  numSlots := 2
  slotInfo0 := ⟨priorityA, (0x5F, 0x61), slotRetryCountDefault, 1⟩
  slotInfo1 := ⟨priorityB, (0x5F, 0x62), slotRetryCountDefault, 1⟩
  crc32 := 0

end SlotMetaData

/-! ### The metadata on storage -/

def BootSlotInfo.bytes (info : BootSlotInfo) : List Byte :=
  [info.priority, info.suffix.1, info.suffix.2, info.retryCount, info.bootSuccessful]

def BootSlotInfo.ofBytes (mem : ByteMem) (addr : Nat) : BootSlotInfo where
  priority := mem addr
  suffix := (mem (addr + 1), mem (addr + 2))
  retryCount := mem (addr + 3)
  bootSuccessful := mem (addr + 4)

namespace SlotMetaData

def size : Nat := 22

def payload : List Byte :=
  bytes32 smd.magic ++ bytes16 smd.version ++ bytes16 smd.numSlots ++ smd.slotInfo0.bytes ++
    smd.slotInfo1.bytes

def bytes : List Byte := smd.payload ++ bytes32 smd.crc32

def ofBytes (mem : ByteMem) : SlotMetaData where
  magic := word32 mem 0
  version := word16 mem 4
  numSlots := word16 mem 6
  slotInfo0 := BootSlotInfo.ofBytes mem 8
  slotInfo1 := BootSlotInfo.ofBytes mem 13
  crc32 := word32 mem 18

@[simp] theorem bytes_length : smd.bytes.length = size := rfl

theorem ofBytes_store (mem : ByteMem) : ofBytes (mem.store 0 smd.bytes) = smd := by
  have stored : ∀ i < 22, mem.store 0 smd.bytes i = smd.bytes.getD i 0 := by
    intro i bound
    exact if_pos ⟨Nat.zero_le _, by simpa [size] using bound⟩
  have magic : word32 (mem.store 0 smd.bytes) 0 = smd.magic := by
    rw [word32, stored _ (by omega), stored _ (by omega), stored _ (by omega),
      stored _ (by omega)]
    exact append_bytes32 smd.magic
  have version : word16 (mem.store 0 smd.bytes) 4 = smd.version := by
    rw [word16, stored _ (by omega), stored _ (by omega)]
    exact append_bytes16 smd.version
  have numSlots : word16 (mem.store 0 smd.bytes) 6 = smd.numSlots := by
    rw [word16, stored _ (by omega), stored _ (by omega)]
    exact append_bytes16 smd.numSlots
  have crc : word32 (mem.store 0 smd.bytes) 18 = smd.crc32 := by
    rw [word32, stored _ (by omega), stored _ (by omega), stored _ (by omega),
      stored _ (by omega)]
    exact append_bytes32 smd.crc32
  have slot0 : BootSlotInfo.ofBytes (mem.store 0 smd.bytes) 8 = smd.slotInfo0 := by
    simp only [BootSlotInfo.ofBytes, stored _ (by omega : 8 < 22), stored _ (by omega : 8 + 1 < 22),
      stored _ (by omega : 8 + 2 < 22), stored _ (by omega : 8 + 3 < 22),
      stored _ (by omega : 8 + 4 < 22)]
    rfl
  have slot1 : BootSlotInfo.ofBytes (mem.store 0 smd.bytes) 13 = smd.slotInfo1 := by
    simp only [BootSlotInfo.ofBytes, stored _ (by omega : 13 < 22),
      stored _ (by omega : 13 + 1 < 22), stored _ (by omega : 13 + 2 < 22),
      stored _ (by omega : 13 + 3 < 22), stored _ (by omega : 13 + 4 < 22)]
    rfl
  rw [ofBytes, magic, version, numSlots, slot0, slot1, crc]

theorem payload_ofBytes (mem : ByteMem) : (ofBytes mem).payload = mem.load 0 18 := by
  simp only [payload, ofBytes, bytes32_word32, bytes16_word16]
  rfl

end SlotMetaData

/-! ### The scratch register -/

def bootChainRegMagic : BitVec 32 := 0xCAFE#32

def bcFlagOtaOff : BitVec 32 := 0#32

def bcFlagRedundancyBoot : BitVec 32 := 1#32

def bcFlagOtaOn : BitVec 32 := 3#32

variable (reg : BitVec 32)

def bootChainRegMagicGet : BitVec 32 := fieldGet 0 16 reg

def bootChainRegMagicSet : BitVec 32 := fieldSet 0 16 bootChainRegMagic reg

def bootChainRegSlotNumGet : BitVec 32 := fieldGet 16 3 reg

def bootChainRegSlotNumSet (slot reg : BitVec 32) : BitVec 32 := fieldSet 16 3 slot reg

def bootChainRegMaxSlotsGet : BitVec 32 := fieldGet 19 3 reg

def bootChainRegMaxSlotsSet (count reg : BitVec 32) : BitVec 32 := fieldSet 19 3 count reg

def bootChainRegBRetryCountGet : BitVec 32 := fieldGet 22 4 reg

def bootChainRegBRetryCountSet (count reg : BitVec 32) : BitVec 32 := fieldSet 22 4 count reg

def bootChainRegARetryCountGet : BitVec 32 := fieldGet 26 4 reg

def bootChainRegARetryCountSet (count reg : BitVec 32) : BitVec 32 := fieldSet 26 4 count reg

def bootChainRegUpdateFlagGet : BitVec 32 := fieldGet 30 2 reg

def bootChainRegUpdateFlagSet (flag reg : BitVec 32) : BitVec 32 := fieldSet 30 2 flag reg

end Cboot.ABBoot
