/-
**The A/B slot logic on the metadata and the scratch register.**

The functions of the boot-control library that touch neither storage nor the loaded copy: slot
selection, the retry counters in the register and in the metadata, the per-slot accessors, and the
two redundancy policies that run once cboot is reached.

A function with a `TEGRABL_ASSERT` or an array access indexed by its input returns an `Option`:
`none` is the run that does not continue (the assertion loops forever, or the access is past
`slot_info`).
-/

import Cboot.ABBoot.Smd

namespace Cboot.ABBoot

/-! ### Slot selection -/

def abError {α : Type} (reason : ErrReason) (auxInfo : Nat) : Result α :=
  tegrablError .abBootctrl reason auxInfo

variable (reg : BitVec 32)

def tegrablABIsValidReg : Bool :=
  bootChainRegMagicGet reg == bootChainRegMagic && decide (1 < bootChainRegMaxSlotsGet reg)

def bootChainGetBootslotFromReg : Result Unit × Nat :=
  if !tegrablABIsValidReg reg then (abError .notFound 0, bootSlotA)
  else (.ok (), (bootChainRegSlotNumGet reg).toNat)

variable (info : BootSlotInfo)

def BootSlotInfo.Bootable : Prop := info.retryCount ≠ 0 ∧ info.priority ≠ 0

instance : Decidable info.Bootable :=
  inferInstanceAs (Decidable (info.retryCount ≠ 0 ∧ info.priority ≠ 0))

def bootslotStep (i : Nat) (best : Byte × Nat) : Byte × Nat :=
  if info.Bootable then
    if best.1 < info.priority then (info.priority, i) else best
  else best

def bootslotLoop (smd : SlotMetaData) : Nat → Nat → Byte × Nat → Option (Byte × Nat)
  | 0, _, best => some best
  | remaining + 1, i, best => do
    let info ← smd.slotInfo i
    bootslotLoop smd remaining (i + 1) (bootslotStep info i best)

def bootChainGetBootslotFromSmd (smd : SlotMetaData) : Option (Result Nat) :=
  if smd.magic ≠ bootChainMagic then some (abError .invalid 0)
  else (bootslotLoop smd smd.numSlots.toNat 0 (0, 0)).map fun best =>
    if best.1 = 0 then abError .invalid 1 else .ok best.2

theorem byte_pos_of_ne_zero {byte : Byte} (nonzero : byte ≠ 0) : 0 < byte := by
  bv_omega

theorem bootChainGetBootslotFromSmd_two (smd : SlotMetaData) (magic : smd.magic = bootChainMagic)
    (two : smd.numSlots = 2) :
    bootChainGetBootslotFromSmd smd = some (
      if smd.slotInfo0.Bootable ∧
          (smd.slotInfo1.Bootable → smd.slotInfo1.priority ≤ smd.slotInfo0.priority) then .ok 0
      else if smd.slotInfo1.Bootable then .ok 1
      else abError .invalid 1) := by
  have count : smd.numSlots.toNat = 2 := by rw [two]; rfl
  have loop : bootslotLoop smd 2 0 (0, 0) =
      some (bootslotStep smd.slotInfo1 1 (bootslotStep smd.slotInfo0 0 (0, 0))) := rfl
  rw [bootChainGetBootslotFromSmd, if_neg (not_not.mpr magic), count, loop, Option.map_some]
  congr 1
  by_cases first : smd.slotInfo0.Bootable
  · have step0 : bootslotStep smd.slotInfo0 0 (0, 0) = (smd.slotInfo0.priority, 0) := by
      rw [bootslotStep, if_pos first, if_pos (byte_pos_of_ne_zero first.2)]
    rw [step0]
    by_cases second : smd.slotInfo1.Bootable
    · by_cases higher : smd.slotInfo0.priority < smd.slotInfo1.priority
      · rw [bootslotStep, if_pos second, if_pos higher, if_neg second.2, if_pos second,
          if_neg fun both => BitVec.not_lt.mpr (both.2 second) higher]
      · rw [bootslotStep, if_pos second, if_neg higher, if_neg first.2,
          if_pos ⟨first, fun _ => BitVec.not_lt.mp higher⟩]
    · rw [bootslotStep, if_neg second, if_neg first.2,
        if_pos ⟨first, fun bootable => absurd bootable second⟩]
  · have step0 : bootslotStep smd.slotInfo0 0 (0, 0) = (0, 0) := if_neg first
    have notFirst : ¬(smd.slotInfo0.Bootable ∧
        (smd.slotInfo1.Bootable → smd.slotInfo1.priority ≤ smd.slotInfo0.priority)) :=
      fun both => first both.1
    rw [step0, if_neg notFirst]
    by_cases second : smd.slotInfo1.Bootable
    · rw [bootslotStep, if_pos second, if_pos (byte_pos_of_ne_zero second.2), if_neg second.2,
        if_pos second]
    · rw [bootslotStep, if_neg second, if_neg second, if_pos rfl]

/-! ### The per-slot accessors -/

def tegrablABGetPriority (smd : SlotMetaData) (slot : Nat) : Result Byte :=
  match smd.slotInfo slot with
  | none => abError .invalid 0
  | some info => .ok info.priority

def tegrablABSetMember (change : BootSlotInfo → BootSlotInfo) (smd : SlotMetaData) (slot : Nat) :
    Result SlotMetaData :=
  match smd.slotInfo slot with
  | none => abError .invalid 0
  | some info => .ok (smd.setSlotInfo slot (change info))

def tegrablABSetPriority (smd : SlotMetaData) (slot : Nat) (priority : Byte) :
    Result SlotMetaData :=
  tegrablABSetMember (fun info => { info with priority }) smd slot

def tegrablABSetRetryCount (smd : SlotMetaData) (slot : Nat) (retryCount : Byte) :
    Result SlotMetaData :=
  tegrablABSetMember (fun info => { info with retryCount }) smd slot

def tegrablABSetSuccessful (smd : SlotMetaData) (slot : Nat) (successful : Byte) :
    Result SlotMetaData :=
  tegrablABSetMember (fun info => { info with bootSuccessful := successful }) smd slot

def decreasePriority : BootSlotInfo :=
  if 1 < info.priority then { info with priority := info.priority - 1 } else info

def tegrablABSetActiveSlot (smd : SlotMetaData) (slotId : Nat) : Result SlotMetaData :=
  if maxSlots ≤ slotId then abError .invalid 0
  else do
    let smd := { smd with
      slotInfo0 := decreasePriority smd.slotInfo0
      slotInfo1 := decreasePriority smd.slotInfo1 }
    let smd ← tegrablABSetPriority smd slotId slotPriorityDefault
    let smd ← tegrablABSetRetryCount smd slotId slotRetryCountDefault
    tegrablABSetSuccessful smd slotId 0

/-! ### Retry counts in the register and in the metadata -/

def tegrablABSetRetryCountReg (slot : Nat) (retryCount : Byte) (reg : BitVec 32) : BitVec 32 :=
  match slot with
  | 0 => bootChainRegARetryCountSet (retryCount.setWidth 32) reg
  | 1 => bootChainRegBRetryCountSet (retryCount.setWidth 32) reg
  | _ => reg

def tegrablABGetRetryCountReg (slot : Nat) (reg : BitVec 32) : Option Byte :=
  match slot with
  | 0 => some ((bootChainRegARetryCountGet reg).setWidth 8)
  | 1 => some ((bootChainRegBRetryCountGet reg).setWidth 8)
  | _ => none

def copyRetryCountFromRegToSmd (smd : SlotMetaData) (reg : BitVec 32) : SlotMetaData :=
  { smd with
    slotInfo0 := { smd.slotInfo0 with retryCount := (bootChainRegARetryCountGet reg).setWidth 8 }
    slotInfo1 := { smd.slotInfo1 with retryCount := (bootChainRegBRetryCountGet reg).setWidth 8 } }

def copyRetryCountFromSmdToReg (smd : SlotMetaData) (reg : BitVec 32) : BitVec 32 :=
  let reg := bootChainRegARetryCountSet (smd.slotInfo0.retryCount.setWidth 32) reg
  bootChainRegBRetryCountSet (smd.slotInfo1.retryCount.setWidth 32) reg

def tegrablABSaveBootSlotReg (smd : SlotMetaData) (slot : Nat) (reg : BitVec 32) :
    Option (BitVec 32) := do
  let reg := bootChainRegSlotNumSet (BitVec.ofNat 32 slot) reg
  let reg := bootChainRegMaxSlotsSet (smd.numSlots.setWidth 32) reg
  let reg := copyRetryCountFromSmdToReg smd reg
  let info ← smd.slotInfo slot
  if info.bootSuccessful = 0 then
    return bootChainRegUpdateFlagSet bcFlagOtaOn reg
  else if bootctrlSupportRedundancy smd.version ≠ 0 then
    return bootChainRegUpdateFlagSet bcFlagRedundancyBoot reg
  else
    return reg

def tegrablABCheckAndUpdateRetryCount (smd : SlotMetaData) (slot : Nat) : Option SlotMetaData := do
  let info ← smd.slotInfo slot
  if bootctrlSupportRedundancy smd.version ≠ 0 ∨ info.bootSuccessful = 0 then
    -- TEGRABL_ASSERT(retry_count != 0)
    if info.retryCount ≠ 0 then
      some (smd.setSlotInfo slot { info with retryCount := info.retryCount - 1 })
    else none
  else some smd

/-! ### The redundancy policies -/

def otherSlot (slot : Nat) : Nat := if slot = 0 then 1 else 0

def setPriorityUnchecked (smd : SlotMetaData) (slot : Nat) (priority : Byte) : SlotMetaData :=
  match tegrablABSetPriority smd slot priority with
  | .ok smd => smd
  | .error _ => smd

def rotateSlotsPriority (smd : SlotMetaData) (currentSlot : Nat)
    (slot1Priority slot2Priority : Byte) : SlotMetaData :=
  if currentSlot = 0 then
    if slot2Priority < slot1Priority then
      setPriorityUnchecked smd currentSlot (slot1Priority - 1)
    else if slot2Priority < slotPriorityDefault then
      setPriorityUnchecked smd (otherSlot currentSlot) (slot2Priority + 1)
    else
      -- handle maximum priority
      setPriorityUnchecked smd currentSlot (slot2Priority - 1)
  else if slot1Priority.toNat = slot2Priority.toNat + 1 then
    -- set the gap by 2
    if 1 < slot2Priority then
      setPriorityUnchecked smd (otherSlot currentSlot) (slot2Priority - 1)
    else
      -- handle minimum priority
      setPriorityUnchecked smd currentSlot (slot1Priority + 1)
  else
    -- when the gap is already two, reverse priority
    let smd := setPriorityUnchecked smd (otherSlot currentSlot) slotPriorityDefault
    setPriorityUnchecked smd currentSlot (slotPriorityDefault - 1)

structure RedundancyOutcome where
  error : Result Unit
  updateSmd : Bool
  smd : SlotMetaData
  reg : BitVec 32

def checkNonUserRedundancyStatus (smd : SlotMetaData) :
    Option RedundancyOutcome := do
  match ← bootChainGetBootslotFromSmd smd with
  | .error error => return ⟨.error error, false, smd, reg⟩
  | .ok smdSlot =>
    let currentSlot := (bootChainRegSlotNumGet reg).toNat
    if currentSlot = smdSlot then
      return ⟨.ok (), false, smd, reg⟩
    else
      let retryCount ← tegrablABGetRetryCountReg currentSlot reg
      let reg := tegrablABSetRetryCountReg currentSlot (retryCount + 1) reg
      return ⟨.ok (), true, smd, reg⟩

def checkUserRedundancyStatus (smd : SlotMetaData) :
    Option RedundancyOutcome := do
  let currentSlot := (bootChainRegSlotNumGet reg).toNat
  let retryCount ← tegrablABGetRetryCountReg currentSlot reg
  let reg := tegrablABSetRetryCountReg currentSlot (retryCount + 1) reg
  match tegrablABGetPriority smd currentSlot, tegrablABGetPriority smd (otherSlot currentSlot) with
  | .ok slot1Priority, .ok slot2Priority =>
    let otherRetryCount ← tegrablABGetRetryCountReg (otherSlot currentSlot) reg
    -- change priority only when both slots are bootable
    if otherRetryCount ≠ 0 ∧ slot1Priority ≠ 0 ∧ slot2Priority ≠ 0 then
      -- TEGRABL_ASSERT(slot1_priority >= slot2_priority)
      if slot2Priority ≤ slot1Priority then
        return ⟨.ok (), true, rotateSlotsPriority smd currentSlot slot1Priority slot2Priority, reg⟩
      else none
    else
      return ⟨.ok (), true, smd, reg⟩
  | .error error, _ => return ⟨.error error, false, smd, reg⟩
  | .ok _, .error error => return ⟨.error error, false, smd, reg⟩

def checkRedundancyStatus (smd : SlotMetaData) : Option RedundancyOutcome :=
  if bootctrlSupportRedundancyUser smd.version = 0 then checkNonUserRedundancyStatus reg smd
  else checkUserRedundancyStatus reg smd

end Cboot.ABBoot
