/-
**One boot of the slot logic.**

`tegrablABUpdateSmd` is the last step of the slot logic: cboot, once it is reached, writes the
retry counts of the scratch register back to storage. `boot` composes it with what the earlier boot
stage does: select a slot from the stored metadata, count the try, leave the result in the scratch
register.

Seen from the stored metadata, a boot is the function `bootNext`: a slot on trial loses one retry,
user redundancy rotates the priorities of the two slots, and nothing else changes.
-/

import Cboot.ABBoot.Storage
import Cboot.Lib.Run

namespace Cboot.ABBoot

open BitField

/-! ### Writing the register back -/

structure BootControl where
  loaded : Option SlotMetaData
  storage : SmdStorage
  reg : BitVec 32

def updateSmdDone (error : Result Unit) (reg : BitVec 32) (state : BootControl) :
    Result Unit × BootControl :=
  let state := if bootChainRegMagicGet reg = bootChainRegMagic then { state with reg := 0 } else state
  match error with
  | .ok () => (.ok (), state)
  | .error error => (abRaise error, state)

def updateSmdFlush (env : StorageEnv) (smd : SlotMetaData) (state : BootControl) :
    Option (Result Unit × BootControl) :=
  let smd := copyRetryCountFromRegToSmd smd state.reg
  match tegrablABFlushSmd env smd state.storage with
  | (none, _) => none
  | (some error, storage) =>
    some (updateSmdDone error state.reg { state with loaded := some smd.withCrc, storage })

def tegrablABUpdateSmd (env : StorageEnv) (state : BootControl) :
    Option (Result Unit × BootControl) :=
  let reg := state.reg
  let bcFlag := bootChainRegUpdateFlagGet reg
  if bootChainRegMagicGet reg = bootChainRegMagic ∧
      (bcFlag = bcFlagOtaOn ∨ bcFlag = bcFlagRedundancyBoot) then
    match tegrablABGetSmd env state.loaded state.storage with
    | (.error error, loaded) =>
      some (updateSmdDone (.error error) reg { state with loaded })
    | (.ok smd, _) =>
      if bcFlag = bcFlagRedundancyBoot ∧ bootctrlSupportRedundancy smd.version ≠ 0 then do
        let outcome ← checkRedundancyStatus reg smd
        let state := { state with loaded := some outcome.smd, reg := outcome.reg }
        match outcome.error, outcome.updateSmd with
        | .ok (), true => updateSmdFlush env outcome.smd state
        | error, _ => some (updateSmdDone error reg state)
      else updateSmdFlush env smd state
  else some (updateSmdDone (.ok ()) reg state)

def boot (qspi : Bool) (storage : SmdStorage) : Option (Option Nat × SmdStorage) :=
  match (tegrablABGetSmd (.working qspi) none storage).1 with
  | .error _ => some (none, storage)
  | .ok smd => do
    match ← bootChainGetBootslotFromSmd smd with
    | .error _ => some (none, storage)
    | .ok slot =>
      let smd ← tegrablABCheckAndUpdateRetryCount smd slot
      let reg ← tegrablABSaveBootSlotReg smd slot (bootChainRegMagicSet 0)
      let (_, state) ← tegrablABUpdateSmd (.working qspi) ⟨none, storage, reg⟩
      some (some slot, state.storage)

/-! ### The register cboot starts from -/

theorem retryField_roundTrip (count : Byte) (fits : count.toNat ≤ 15) :
    (count.setWidth 32 &&& ones 32 4).setWidth 8 = count := by
  apply BitVec.eq_of_toNat_eq
  rw [BitVec.toNat_setWidth, and_ones_toNat, BitVec.toNat_setWidth]
  omega

def savedFlag (smd : SlotMetaData) (info : BootSlotInfo) : BitVec 32 :=
  if info.bootSuccessful = 0 then bcFlagOtaOn
  else if bootctrlSupportRedundancy smd.version ≠ 0 then bcFlagRedundancyBoot
  else bcFlagOtaOff

structure SavedReg (smd : SlotMetaData) (slot : Nat) (flag reg : BitVec 32) : Prop where
  magic : bootChainRegMagicGet reg = bootChainRegMagic
  slotNum : (bootChainRegSlotNumGet reg).toNat = slot
  retryA : (bootChainRegARetryCountGet reg).setWidth 8 = smd.slotInfo0.retryCount
  retryB : (bootChainRegBRetryCountGet reg).setWidth 8 = smd.slotInfo1.retryCount
  flag : bootChainRegUpdateFlagGet reg = flag

theorem savedReg_fields (smd : SlotMetaData) (slot : Nat) (bound : slot < maxSlots)
    (fitsA : smd.slotInfo0.retryCount.toNat ≤ 15) (fitsB : smd.slotInfo1.retryCount.toNat ≤ 15) :
    SavedReg smd slot bcFlagOtaOff
      (copyRetryCountFromSmdToReg smd (bootChainRegMaxSlotsSet (smd.numSlots.setWidth 32)
        (bootChainRegSlotNumSet (BitVec.ofNat 32 slot) (bootChainRegMagicSet 0)))) where
  magic := by
    simp [copyRetryCountFromSmdToReg, bootChainRegMagicGet, bootChainRegARetryCountSet,
      bootChainRegBRetryCountSet, bootChainRegMaxSlotsSet, bootChainRegSlotNumSet,
      bootChainRegMagicSet, fieldGet_fieldSet_of_disjoint, fieldGet_fieldSet_self]
    decide
  slotNum := by
    have small : slot < 2 := bound
    have cut : (BitVec.ofNat 32 slot &&& ones 32 3).toNat = slot := by
      rw [and_ones_toNat, BitVec.toNat_ofNat]
      omega
    rw [← cut]
    simp [copyRetryCountFromSmdToReg, bootChainRegSlotNumGet, bootChainRegARetryCountSet,
      bootChainRegBRetryCountSet, bootChainRegMaxSlotsSet, bootChainRegSlotNumSet,
      fieldGet_fieldSet_of_disjoint, fieldGet_fieldSet_self, cut]
  retryA := by
    simp [copyRetryCountFromSmdToReg, bootChainRegARetryCountGet, bootChainRegARetryCountSet,
      bootChainRegBRetryCountSet, fieldGet_fieldSet_of_disjoint, fieldGet_fieldSet_self,
      retryField_roundTrip _ fitsA]
  retryB := by
    simp [copyRetryCountFromSmdToReg, bootChainRegBRetryCountGet, bootChainRegBRetryCountSet,
      fieldGet_fieldSet_self, retryField_roundTrip _ fitsB]
  flag := by
    simp [copyRetryCountFromSmdToReg, bootChainRegUpdateFlagGet, bootChainRegARetryCountSet,
      bootChainRegBRetryCountSet, bootChainRegMaxSlotsSet, bootChainRegSlotNumSet,
      bootChainRegMagicSet, fieldGet_fieldSet_of_disjoint]
    decide

theorem SavedReg.setFlag {smd : SlotMetaData} {slot : Nat} {flag reg : BitVec 32}
    (saved : SavedReg smd slot flag reg) (value : BitVec 32) (fits : value.toNat < 4) :
    SavedReg smd slot value (bootChainRegUpdateFlagSet value reg) where
  magic := by
    rw [← saved.magic]
    exact fieldGet_fieldSet_of_disjoint 30 2 0 16 value reg (by decide)
  slotNum := by
    rw [← saved.slotNum]
    exact congrArg BitVec.toNat (fieldGet_fieldSet_of_disjoint 30 2 16 3 value reg (by decide))
  retryA := by
    rw [← saved.retryA]
    exact congrArg (BitVec.setWidth 8)
      (fieldGet_fieldSet_of_disjoint 30 2 26 4 value reg (by decide))
  retryB := by
    rw [← saved.retryB]
    exact congrArg (BitVec.setWidth 8)
      (fieldGet_fieldSet_of_disjoint 30 2 22 4 value reg (by decide))
  flag := by
    rw [bootChainRegUpdateFlagGet, bootChainRegUpdateFlagSet, fieldGet_fieldSet_self _ _ _ _
      (by decide)]
    apply BitVec.eq_of_toNat_eq
    rw [and_ones_toNat]
    omega

theorem savedReg_spec (smd : SlotMetaData) (slot : Nat) (info : BootSlotInfo)
    (here : smd.slotInfo slot = some info)
    (fitsA : smd.slotInfo0.retryCount.toNat ≤ 15) (fitsB : smd.slotInfo1.retryCount.toNat ≤ 15) :
    ∃ reg, tegrablABSaveBootSlotReg smd slot (bootChainRegMagicSet 0) = some reg ∧
      SavedReg smd slot (savedFlag smd info) reg := by
  have bound : slot < maxSlots := by
    rw [← smd.slotInfo_isSome_iff, here]
    rfl
  have fields := savedReg_fields smd slot bound fitsA fitsB
  simp only [tegrablABSaveBootSlotReg, here, savedFlag, Option.bind_eq_bind, Option.bind_some]
  by_cases trial : info.bootSuccessful = 0
  · rw [if_pos trial, if_pos trial]
    exact ⟨_, rfl, fields.setFlag bcFlagOtaOn (by decide)⟩
  · rw [if_neg trial, if_neg trial]
    by_cases redundant : bootctrlSupportRedundancy smd.version ≠ 0
    · rw [if_pos redundant, if_pos redundant]
      exact ⟨_, rfl, fields.setFlag bcFlagRedundancyBoot (by decide)⟩
    · rw [if_neg redundant, if_neg redundant]
      exact ⟨_, rfl, fields⟩

/-! ### A boot as a function of the stored metadata -/

namespace SlotMetaData

structure TwoSlot (smd : SlotMetaData) : Prop where
  magic : smd.magic = bootChainMagic
  two : smd.numSlots = 2
  fitsA : smd.slotInfo0.retryCount.toNat ≤ 15
  fitsB : smd.slotInfo1.retryCount.toNat ≤ 15

def info (smd : SlotMetaData) (slot : Nat) : BootSlotInfo :=
  if slot = 0 then smd.slotInfo0 else smd.slotInfo1

def selectedSlot (smd : SlotMetaData) : Option Nat :=
  if smd.slotInfo0.Bootable ∧
      (smd.slotInfo1.Bootable → smd.slotInfo1.priority ≤ smd.slotInfo0.priority) then some 0
  else if smd.slotInfo1.Bootable then some 1
  else none

def withPriorities (smd : SlotMetaData) (priorities : Byte × Byte) : SlotMetaData :=
  { smd with
    slotInfo0 := { smd.slotInfo0 with priority := priorities.1 }
    slotInfo1 := { smd.slotInfo1 with priority := priorities.2 } }

def withRetryCount (smd : SlotMetaData) (slot : Nat) (retryCount : Byte) : SlotMetaData :=
  if slot = 0 then { smd with slotInfo0 := { smd.slotInfo0 with retryCount } }
  else { smd with slotInfo1 := { smd.slotInfo1 with retryCount } }

section

variable (smd : SlotMetaData)
include smd

theorem withRetryCount_version (slot : Nat) (count : Byte) :
    (smd.withRetryCount slot count).version = smd.version := by
  unfold withRetryCount
  split <;> rfl

theorem withRetryCount_bootSuccessful (slot other : Nat) (count : Byte) :
    ((smd.withRetryCount slot count).info other).bootSuccessful =
      (smd.info other).bootSuccessful := by
  unfold withRetryCount info
  split <;> split <;> rfl

theorem withRetryCount_info (slot : Nat) (count : Byte) :
    ((smd.withRetryCount slot count).info slot).retryCount = count := by
  unfold withRetryCount info
  split <;> rfl

theorem withRetryCount_info_of_ne {slot other : Nat} (bound : slot < maxSlots)
    (otherBound : other < maxSlots) (different : slot ≠ other) (count : Byte) :
    (smd.withRetryCount slot count).info other = smd.info other := by
  have slotCases : slot = 0 ∨ slot = 1 := by
    have small : slot < 2 := bound
    omega
  rcases slotCases with rfl | rfl
  · have second : other ≠ 0 := different.symm
    simp [withRetryCount, info, second]
  · have first : other = 0 := by
      have small : other < 2 := otherBound
      omega
    simp [withRetryCount, info, first]

theorem withRetryCount_restore (slot : Nat) (count : Byte) :
    (smd.withRetryCount slot count).withRetryCount slot (smd.info slot).retryCount = smd := by
  unfold withRetryCount info
  split <;> rfl

theorem slotInfo_eq_info {slot : Nat} (bound : slot < maxSlots) :
    smd.slotInfo slot = some (smd.info slot) := by
  match slot, bound with
  | 0, _ | 1, _ => rfl

end

theorem TwoSlot.fits {smd : SlotMetaData} (wf : smd.TwoSlot) (slot : Nat) :
    (smd.info slot).retryCount.toNat ≤ 15 := by
  unfold info
  split
  · exact wf.fitsA
  · exact wf.fitsB

theorem TwoSlot.withRetryCount {smd : SlotMetaData} (wf : smd.TwoSlot) (slot : Nat)
    {retryCount : Byte} (fits : retryCount.toNat ≤ 15) :
    (smd.withRetryCount slot retryCount).TwoSlot := by
  unfold SlotMetaData.withRetryCount
  split
  · exact ⟨wf.magic, wf.two, fits, wf.fitsB⟩
  · exact ⟨wf.magic, wf.two, wf.fitsA, fits⟩

theorem TwoSlot.withCrc {smd : SlotMetaData} (wf : smd.TwoSlot) : smd.withCrc.TwoSlot :=
  ⟨wf.magic, wf.two, wf.fitsA, wf.fitsB⟩

theorem TwoSlot.withPriorities {smd : SlotMetaData} (wf : smd.TwoSlot) (priorities : Byte × Byte) :
    (smd.withPriorities priorities).TwoSlot :=
  ⟨wf.magic, wf.two, wf.fitsA, wf.fitsB⟩

theorem selectedSlot_spec {smd : SlotMetaData} {slot : Nat} (selected : smd.selectedSlot = some slot) :
    slot < maxSlots ∧ (smd.info slot).Bootable ∧
      ((smd.info (otherSlot slot)).Bootable →
        (smd.info (otherSlot slot)).priority ≤ (smd.info slot).priority) := by
  unfold selectedSlot at selected
  split at selected
  · rename_i first
    cases selected
    exact ⟨by decide, first.1, first.2⟩
  · rename_i notFirst
    split at selected
    · rename_i second
      cases selected
      refine ⟨by decide, second, fun (first : smd.slotInfo0.Bootable) => ?_⟩
      have above : ¬ smd.slotInfo1.priority ≤ smd.slotInfo0.priority :=
        fun below => notFirst ⟨first, fun _ => below⟩
      show smd.slotInfo0.priority ≤ smd.slotInfo1.priority
      bv_omega
    · cases selected

theorem TwoSlot.bootslot {smd : SlotMetaData} (wf : smd.TwoSlot) :
    bootChainGetBootslotFromSmd smd =
      some (match smd.selectedSlot with
        | some slot => .ok slot
        | none => abError .invalid 1) := by
  rw [bootChainGetBootslotFromSmd_two smd wf.magic wf.two, selectedSlot]
  split
  · rfl
  · split <;> rfl

end SlotMetaData

def rotatedPriorities (slot : Nat) (priorityA priorityB : Byte) : Byte × Byte :=
  if slot = 0 then
    if priorityB < priorityA then (priorityA - 1, priorityB)
    else if priorityB < slotPriorityDefault then (priorityA, priorityB + 1)
    else (priorityB - 1, priorityB)
  else if priorityB.toNat = priorityA.toNat + 1 then
    if 1 < priorityA then (priorityA - 1, priorityB) else (priorityA, priorityB + 1)
  else (slotPriorityDefault, slotPriorityDefault - 1)

theorem rotateSlotsPriority_eq (smd : SlotMetaData) {slot : Nat} (bound : slot < maxSlots) :
    rotateSlotsPriority smd slot (smd.info slot).priority (smd.info (otherSlot slot)).priority =
      smd.withPriorities
        (rotatedPriorities slot smd.slotInfo0.priority smd.slotInfo1.priority) := by
  match slot, bound with
  | 0, _ =>
    simp only [rotateSlotsPriority, rotatedPriorities, if_true, SlotMetaData.info, otherSlot,
      one_ne_zero, if_false]
    split
    · rfl
    · split <;> rfl
  | 1, _ =>
    simp only [rotateSlotsPriority, rotatedPriorities, if_true, SlotMetaData.info, otherSlot,
      one_ne_zero, if_false]
    split
    · split <;> rfl
    · rfl

def bootNext (smd : SlotMetaData) : SlotMetaData :=
  match smd.selectedSlot with
  | none => smd
  | some slot =>
    if (smd.info slot).bootSuccessful = 0 then
      (smd.withRetryCount slot ((smd.info slot).retryCount - 1)).withCrc
    else if bootctrlSupportRedundancy smd.version ≠ 0 ∧
        bootctrlSupportRedundancyUser smd.version ≠ 0 then
      if (smd.info (otherSlot slot)).Bootable then
        (smd.withPriorities
          (rotatedPriorities slot smd.slotInfo0.priority smd.slotInfo1.priority)).withCrc
      else smd.withCrc
    else smd

theorem bootNext_version (smd : SlotMetaData) : (bootNext smd).version = smd.version := by
  unfold bootNext
  split
  · rfl
  · split
    · exact smd.withRetryCount_version _ _
    · split
      · split <;> rfl
      · rfl

theorem bootNext_priority (smd : SlotMetaData) :
    ((bootNext smd).slotInfo0.priority, (bootNext smd).slotInfo1.priority) =
        (smd.slotInfo0.priority, smd.slotInfo1.priority) ∨
      ∃ slot, ((bootNext smd).slotInfo0.priority, (bootNext smd).slotInfo1.priority) =
        rotatedPriorities slot smd.slotInfo0.priority smd.slotInfo1.priority := by
  unfold bootNext
  split
  · exact .inl rfl
  · rename_i slot _
    split
    · left
      unfold SlotMetaData.withRetryCount
      split <;> rfl
    · split
      · split
        · exact .inr ⟨slot, rfl⟩
        · exact .inl rfl
      · exact .inl rfl

/-! ### The boot follows the function -/

def countedTry (smd : SlotMetaData) (slot : Nat) : SlotMetaData :=
  if bootctrlSupportRedundancy smd.version ≠ 0 ∨ (smd.info slot).bootSuccessful = 0 then
    smd.withRetryCount slot ((smd.info slot).retryCount - 1)
  else smd

theorem checkAndUpdateRetryCount_eq (smd : SlotMetaData) {slot : Nat} (bound : slot < maxSlots)
    (bootable : (smd.info slot).Bootable) :
    tegrablABCheckAndUpdateRetryCount smd slot = some (countedTry smd slot) := by
  rw [tegrablABCheckAndUpdateRetryCount, smd.slotInfo_eq_info bound, countedTry]
  simp only [Option.bind_eq_bind, Option.bind_some]
  split
  · rw [if_pos bootable.1]
    match slot, bound with
    | 0, _ | 1, _ => rfl
  · rfl

theorem countedTry_frame (smd : SlotMetaData) (slot other : Nat) :
    (countedTry smd slot).version = smd.version ∧
      ((countedTry smd slot).info other).bootSuccessful = (smd.info other).bootSuccessful := by
  unfold countedTry
  split
  · exact ⟨smd.withRetryCount_version _ _, smd.withRetryCount_bootSuccessful _ _ _⟩
  · exact ⟨rfl, rfl⟩

theorem countedTry_twoSlot {smd : SlotMetaData} (wf : smd.TwoSlot) {slot : Nat}
    (bootable : (smd.info slot).Bootable) : (countedTry smd slot).TwoSlot := by
  unfold countedTry
  split
  · have fits := wf.fits slot
    have nonzero := bootable.1
    exact wf.withRetryCount slot (by bv_omega)
  · exact wf

theorem SavedReg.getRetryCount {smd : SlotMetaData} {slot : Nat} {flag reg : BitVec 32}
    (saved : SavedReg smd slot flag reg) {other : Nat} (bound : other < maxSlots) :
    tegrablABGetRetryCountReg other reg = some (smd.info other).retryCount := by
  match other, bound with
  | 0, _ => exact congrArg some saved.retryA
  | 1, _ => exact congrArg some saved.retryB

theorem SavedReg.setRetryCount {smd : SlotMetaData} {slot : Nat} {flag reg : BitVec 32}
    (saved : SavedReg smd slot flag reg) {other : Nat} (bound : other < maxSlots) {count : Byte}
    (fits : count.toNat ≤ 15) :
    SavedReg (smd.withRetryCount other count) slot flag
      (tegrablABSetRetryCountReg other count reg) := by
  obtain ⟨magic, slotNum, retryA, retryB, flag⟩ := saved
  match other, bound with
  | 0, _ =>
    refine ⟨?_, ?_, ?_, ?_, ?_⟩
    · rw [← magic]
      exact fieldGet_fieldSet_of_disjoint 26 4 0 16 _ reg (by decide)
    · rw [← slotNum]
      exact congrArg BitVec.toNat (fieldGet_fieldSet_of_disjoint 26 4 16 3 _ reg (by decide))
    · simp only [tegrablABSetRetryCountReg, bootChainRegARetryCountGet, bootChainRegARetryCountSet]
      rw [fieldGet_fieldSet_self _ _ _ _ (by decide), retryField_roundTrip _ fits]
      rfl
    · refine Eq.trans ?_ retryB
      exact congrArg (BitVec.setWidth 8)
        (fieldGet_fieldSet_of_disjoint 26 4 22 4 _ reg (by decide))
    · rw [← flag]
      exact fieldGet_fieldSet_of_disjoint 26 4 30 2 _ reg (by decide)
  | 1, _ =>
    refine ⟨?_, ?_, ?_, ?_, ?_⟩
    · rw [← magic]
      exact fieldGet_fieldSet_of_disjoint 22 4 0 16 _ reg (by decide)
    · rw [← slotNum]
      exact congrArg BitVec.toNat (fieldGet_fieldSet_of_disjoint 22 4 16 3 _ reg (by decide))
    · refine Eq.trans ?_ retryA
      exact congrArg (BitVec.setWidth 8)
        (fieldGet_fieldSet_of_disjoint 22 4 26 4 _ reg (by decide))
    · simp only [tegrablABSetRetryCountReg, bootChainRegBRetryCountGet, bootChainRegBRetryCountSet]
      rw [fieldGet_fieldSet_self _ _ _ _ (by decide), retryField_roundTrip _ fits]
      rfl
    · rw [← flag]
      exact fieldGet_fieldSet_of_disjoint 22 4 30 2 _ reg (by decide)

theorem SavedReg.copyRetryCount {smd : SlotMetaData} {slot : Nat} {flag reg : BitVec 32}
    (saved : SavedReg smd slot flag reg) (target : SlotMetaData) :
    copyRetryCountFromRegToSmd target reg =
      { target with
        slotInfo0 := { target.slotInfo0 with retryCount := smd.slotInfo0.retryCount }
        slotInfo1 := { target.slotInfo1 with retryCount := smd.slotInfo1.retryCount } } := by
  rw [copyRetryCountFromRegToSmd, saved.retryA, saved.retryB]

theorem updateSmdDone_storage (error : Result Unit) (reg : BitVec 32) (state : BootControl) :
    (updateSmdDone error reg state).2.storage = state.storage := by
  unfold updateSmdDone
  split <;> split <;> rfl

theorem updateSmdFlush_working (qspi : Bool) (smd : SlotMetaData) (state : BootControl) :
    ∃ outcome, updateSmdFlush (.working qspi) smd state = some outcome ∧
      (tegrablABGetSmd (.working qspi) none outcome.2.storage).1 =
        .ok (copyRetryCountFromRegToSmd smd state.reg).withCrc := by
  obtain ⟨left, flushed, primary, -⟩ :=
    tegrablABFlushSmd_working qspi (copyRetryCountFromRegToSmd smd state.reg) state.storage
  refine ⟨updateSmdDone (.ok ()) state.reg
    { state with loaded := some (copyRetryCountFromRegToSmd smd state.reg).withCrc
                 storage := left }, ?_, ?_⟩
  · rw [updateSmdFlush, flushed]
  · rw [updateSmdDone_storage, tegrablABGetSmd_working, primary,
      if_pos (SlotMetaData.withCrc_accepted _)]

section Boot

variable {qspi : Bool} {storage : SmdStorage} {smd : SlotMetaData} {slot : Nat} {reg : BitVec 32}

theorem updateSmd_trial (found : (tegrablABGetSmd (.working qspi) none storage).1 = .ok smd)
    (bound : slot < maxSlots) (trial : (smd.info slot).bootSuccessful = 0)
    (saved : SavedReg (countedTry smd slot) slot bcFlagOtaOn reg) :
    ∃ outcome, tegrablABUpdateSmd (.working qspi) ⟨none, storage, reg⟩ = some outcome ∧
      (tegrablABGetSmd (.working qspi) none outcome.2.storage).1 =
        .ok (smd.withRetryCount slot ((smd.info slot).retryCount - 1)).withCrc := by
  obtain ⟨outcome, flushed, kept⟩ := updateSmdFlush_working qspi smd ⟨none, storage, reg⟩
  refine ⟨outcome, ?_, ?_⟩
  · rw [tegrablABUpdateSmd]
    simp only [saved.flag, saved.magic, true_or, and_true, if_true,
      tegrablABGetSmd_loaded _ _ _ found]
    rw [if_neg fun both => absurd both.1 (by decide)]
    exact flushed
  · rw [kept, saved.copyRetryCount smd, countedTry, if_pos (.inr trial)]
    match slot, bound with
    | 0, _ | 1, _ => rfl

theorem updateSmd_successful (saved : SavedReg (countedTry smd slot) slot bcFlagOtaOff reg) :
    ∃ outcome, tegrablABUpdateSmd (.working qspi) ⟨none, storage, reg⟩ = some outcome ∧
      outcome.2.storage = storage := by
  refine ⟨updateSmdDone (.ok ()) reg ⟨none, storage, reg⟩, ?_, updateSmdDone_storage _ _ _⟩
  rw [tegrablABUpdateSmd]
  simp only [saved.flag]
  rw [if_neg fun both => absurd both.2 (by decide)]

theorem updateSmd_redundant (found : (tegrablABGetSmd (.working qspi) none storage).1 = .ok smd)
    (wf : smd.TwoSlot) (selected : smd.selectedSlot = some slot)
    (redundant : bootctrlSupportRedundancy smd.version ≠ 0)
    (notUser : bootctrlSupportRedundancyUser smd.version = 0)
    (saved : SavedReg (countedTry smd slot) slot bcFlagRedundancyBoot reg) :
    ∃ outcome, tegrablABUpdateSmd (.working qspi) ⟨none, storage, reg⟩ = some outcome ∧
      outcome.2.storage = storage := by
  have checked : checkRedundancyStatus reg smd = some ⟨.ok (), false, smd, reg⟩ := by
    rw [checkRedundancyStatus, if_pos notUser, checkNonUserRedundancyStatus, wf.bootslot, selected]
    simp [saved.slotNum]
  refine ⟨updateSmdDone (.ok ()) reg ⟨some smd, storage, reg⟩, ?_, updateSmdDone_storage _ _ _⟩
  rw [tegrablABUpdateSmd]
  simp only [saved.flag, saved.magic, or_true, and_true, if_true, true_and,
    tegrablABGetSmd_loaded _ _ _ found]
  rw [if_pos redundant, checked]
  rfl

theorem checkUserRedundancyStatus_eq (wf : smd.TwoSlot) (selected : smd.selectedSlot = some slot)
    {flag : BitVec 32}
    (saved : SavedReg (smd.withRetryCount slot ((smd.info slot).retryCount - 1)) slot flag reg) :
    ∃ reg', SavedReg smd slot flag reg' ∧
      checkUserRedundancyStatus reg smd =
        some ⟨.ok (), true, if (smd.info (otherSlot slot)).Bootable then
          smd.withPriorities (rotatedPriorities slot smd.slotInfo0.priority smd.slotInfo1.priority)
          else smd, reg'⟩ := by
  obtain ⟨bound, bootable, above⟩ := SlotMetaData.selectedSlot_spec selected
  have otherBound : otherSlot slot < maxSlots := by
    unfold otherSlot
    split <;> decide
  have restored : SavedReg smd slot flag
      (tegrablABSetRetryCountReg slot ((smd.info slot).retryCount - 1 + 1) reg) := by
    have given := saved.setRetryCount bound (wf.fits slot)
    rw [smd.withRetryCount_restore] at given
    rw [BitVec.sub_add_cancel]
    exact given
  have current := saved.getRetryCount bound
  rw [smd.withRetryCount_info] at current
  have other := restored.getRetryCount otherBound
  refine ⟨_, restored, ?_⟩
  simp only [checkUserRedundancyStatus, saved.slotNum, current, tegrablABGetPriority,
    smd.slotInfo_eq_info bound, smd.slotInfo_eq_info otherBound, other, Option.bind_eq_bind,
    Option.bind_some]
  by_cases both : (smd.info (otherSlot slot)).Bootable
  · rw [if_pos ⟨both.1, bootable.2, both.2⟩, if_pos (above both), if_pos both,
      rotateSlotsPriority_eq smd bound]
    rfl
  · rw [if_neg fun all => both ⟨all.1, all.2.2⟩, if_neg both]
    rfl

theorem updateSmd_user (found : (tegrablABGetSmd (.working qspi) none storage).1 = .ok smd)
    (wf : smd.TwoSlot) (selected : smd.selectedSlot = some slot)
    (redundant : bootctrlSupportRedundancy smd.version ≠ 0)
    (user : bootctrlSupportRedundancyUser smd.version ≠ 0)
    (saved : SavedReg (countedTry smd slot) slot bcFlagRedundancyBoot reg) :
    ∃ outcome, tegrablABUpdateSmd (.working qspi) ⟨none, storage, reg⟩ = some outcome ∧
      (tegrablABGetSmd (.working qspi) none outcome.2.storage).1 =
        .ok (if (smd.info (otherSlot slot)).Bootable then
          (smd.withPriorities
            (rotatedPriorities slot smd.slotInfo0.priority smd.slotInfo1.priority)).withCrc
          else smd.withCrc) := by
  rw [countedTry, if_pos (.inl redundant)] at saved
  obtain ⟨reg', restored, checked⟩ := checkUserRedundancyStatus_eq wf selected saved
  generalize rotated : (if (smd.info (otherSlot slot)).Bootable then smd.withPriorities
    (rotatedPriorities slot smd.slotInfo0.priority smd.slotInfo1.priority) else smd) = smd' at checked
  obtain ⟨outcome, flushed, kept⟩ := updateSmdFlush_working qspi smd' ⟨some smd', storage, reg'⟩
  have sameCounts : copyRetryCountFromRegToSmd smd' reg' = smd' := by
    rw [restored.copyRetryCount smd', ← rotated]
    split <;> rfl
  refine ⟨outcome, ?_, ?_⟩
  · rw [tegrablABUpdateSmd]
    simp only [saved.flag, saved.magic, or_true, and_true, if_true, true_and,
      tegrablABGetSmd_loaded _ _ _ found]
    rw [if_pos redundant, checkRedundancyStatus, if_neg user, checked]
    exact flushed
  · rw [kept, sameCounts, ← rotated]
    split <;> rfl

end Boot

def Stores (qspi : Bool) (storage : SmdStorage) (smd : SlotMetaData) : Prop :=
  (tegrablABGetSmd (.working qspi) none storage).1 = .ok smd ∧ smd.TwoSlot

theorem bootNext_twoSlot {smd : SlotMetaData} (wf : smd.TwoSlot) : (bootNext smd).TwoSlot := by
  unfold bootNext
  split
  · exact wf
  · rename_i slot selected
    have bootable := (SlotMetaData.selectedSlot_spec selected).2.1
    have counted : ((smd.info slot).retryCount - 1).toNat ≤ 15 := by
      have fits := wf.fits slot
      have nonzero := bootable.1
      bv_omega
    split
    · exact (wf.withRetryCount slot counted).withCrc
    · split
      · split
        · exact (wf.withPriorities _).withCrc
        · exact wf.withCrc
      · exact wf

theorem boot_simulates (qspi : Bool) :
    Run.Simulates (boot qspi) SlotMetaData.selectedSlot bootNext (Stores qspi) := by
  rintro storage smd ⟨found, wf⟩
  rw [boot, found]
  simp only [wf.bootslot]
  cases selected : smd.selectedSlot with
  | none =>
    refine ⟨storage, rfl, ?_, bootNext_twoSlot wf⟩
    rw [found, bootNext, selected]
  | some slot =>
    obtain ⟨bound, bootable, -⟩ := SlotMetaData.selectedSlot_spec selected
    have counted := countedTry_twoSlot wf bootable
    obtain ⟨reg, savedEq, saved⟩ := savedReg_spec (countedTry smd slot) slot _
      (SlotMetaData.slotInfo_eq_info _ bound) counted.fitsA counted.fitsB
    rw [savedFlag, (countedTry_frame smd slot slot).1, (countedTry_frame smd slot slot).2] at saved
    suffices goal : ∃ outcome,
        tegrablABUpdateSmd (.working qspi) ⟨none, storage, reg⟩ = some outcome ∧
          (tegrablABGetSmd (.working qspi) none outcome.2.storage).1 = .ok (bootNext smd) by
      obtain ⟨outcome, updated, kept⟩ := goal
      refine ⟨outcome.2.storage, ?_, kept, bootNext_twoSlot wf⟩
      simp only [checkAndUpdateRetryCount_eq smd bound bootable, savedEq, updated,
        Option.bind_eq_bind, Option.bind_some]
    simp only [bootNext, selected]
    by_cases trial : (smd.info slot).bootSuccessful = 0
    · rw [if_pos trial] at saved ⊢
      exact updateSmd_trial found bound trial saved
    · rw [if_neg trial] at saved ⊢
      by_cases redundant : bootctrlSupportRedundancy smd.version ≠ 0
      · rw [if_pos redundant] at saved
        by_cases user : bootctrlSupportRedundancyUser smd.version ≠ 0
        · rw [if_pos ⟨redundant, user⟩]
          exact updateSmd_user found wf selected redundant user saved
        · rw [if_neg fun both => user both.2]
          obtain ⟨outcome, updated, kept⟩ := updateSmd_redundant found wf selected redundant
            (not_not.mp user) saved
          exact ⟨outcome, updated, kept ▸ found⟩
      · rw [if_neg redundant] at saved
        rw [if_neg fun both => redundant both.1]
        obtain ⟨outcome, updated, kept⟩ := @updateSmd_successful qspi storage _ _ _ saved
        exact ⟨outcome, updated, kept ▸ found⟩

/-- **A burst error in the primary copy** is repaired from the secondary one exactly when the version
field that it leaves still asks for a checksum, and then every later boot selects the slot that it
would have selected. -/
theorem boot_after_burst (qspi : Bool) (smd damaged : SlotMetaData) (wf : smd.TwoSlot)
    {first second : ByteMem} (primary : .ofBytes first = damaged)
    (secondary : .ofBytes second = smd.withCrc)
    (burst : Burst smd.withCrc.bytes damaged.bytes) :
    ((tegrablABGetSmd (.working qspi) none ⟨first, second⟩).1 = .ok smd.withCrc ↔
      damaged.CrcProtected) ∧
    (damaged.CrcProtected → ∀ n, Run.outputAt (boot qspi) n ⟨first, second⟩ =
      Run.outputAt (boot qspi) n (.holding smd.withCrc)) := by
  suffices read : _ ↔ _ by
    refine ⟨read, fun asks n => ?_⟩
    have repaired : Stores qspi ⟨first, second⟩ smd.withCrc := ⟨read.mpr asks, wf.withCrc⟩
    have whole : Stores qspi (.holding smd.withCrc) smd.withCrc := ⟨get_holding qspi smd, wf.withCrc⟩
    rw [(boot_simulates qspi).outputAt n repaired, (boot_simulates qspi).outputAt n whole]
  rw [tegrablABGetSmd_working, primary, secondary, if_pos smd.withCrc_accepted]
  by_cases asks : damaged.CrcProtected
  · rw [if_neg fun accepted => burst.check_ne (accepted asks)]
    exact iff_of_true rfl asks
  · have accepted : damaged.Accepted := fun protects => absurd protects asks
    rw [if_pos accepted]
    refine iff_of_false (fun same => ?_) asks
    rw [Except.ok.inj same] at burst
    exact burst.crc_ne rfl

open SlotMetaData

theorem boot_after_lost_magic : Run.outputAt (boot true) 3
      ⟨.store (fun _ => 0) 0 { (twoSlots 2 15 14).withCrc with magic := 0 }.bytes,
        .store (fun _ => 0) 0 (twoSlots 2 15 14).withCrc.bytes⟩ =
    Run.outputAt (boot true) 3 (.holding (twoSlots 2 15 14).withCrc) :=
  (boot_after_burst true (.twoSlots 2 15 14) _ ⟨rfl, rfl, by decide, by decide⟩
    (ofBytes_store _ _) (ofBytes_store _ _)
    ⟨[], messageBits (bytes32 bootChainMagic), messageBits (bytes32 0),
      (messageBits (twoSlots 2 15 14).withCrc.bytes).drop 32, by decide, by decide,
      by decide, by decide +kernel, by decide +kernel⟩).2 (by decide) 3

end Cboot.ABBoot
