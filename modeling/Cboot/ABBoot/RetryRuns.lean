/-
**Retry counts over runs of boots.**

A slot on trial (`boot_successful` is zero) pays one retry for each boot that selects it, and a slot
marked successful pays none. Both follow from what one boot does to the stored metadata
(`bootNext_trial`, `bootNext_successful`) by induction over the run.
-/

import Cboot.ABBoot.Boot

namespace Cboot.ABBoot

/-! ### One boot -/

theorem bootNext_bootSuccessful (smd : SlotMetaData) (slot : Nat) :
    ((bootNext smd).info slot).bootSuccessful = (smd.info slot).bootSuccessful := by
  unfold bootNext
  split
  · rfl
  · rename_i booted _
    split
    · exact smd.withRetryCount_bootSuccessful booted slot _
    · split
      · split
        · unfold SlotMetaData.info
          split <;> rfl
        · rfl
      · rfl

variable {slot : Nat}

section

variable (smd : SlotMetaData)
include smd

theorem bootNext_retryCount_of_not_paid (bound : slot < maxSlots)
    (free : smd.selectedSlot = some slot → (smd.info slot).bootSuccessful ≠ 0) :
    ((bootNext smd).info slot).retryCount = (smd.info slot).retryCount := by
  unfold bootNext
  split
  · rfl
  · rename_i booted selected
    split
    · rename_i trial
      have different : booted ≠ slot := by
        rintro rfl
        exact free selected trial
      have bootedBound := (SlotMetaData.selectedSlot_spec selected).1
      exact congrArg BootSlotInfo.retryCount
        (smd.withRetryCount_info_of_ne bootedBound bound different _)
    · split
      · split
        · unfold SlotMetaData.info
          split <;> rfl
        · rfl
      · rfl

theorem bootNext_successful (bound : slot < maxSlots)
    (successful : (smd.info slot).bootSuccessful ≠ 0) :
    ((bootNext smd).info slot).retryCount = (smd.info slot).retryCount :=
  bootNext_retryCount_of_not_paid smd bound fun _ => successful

theorem bootNext_trial (bound : slot < maxSlots)
    (trial : (smd.info slot).bootSuccessful = 0) :
    ((bootNext smd).info slot).retryCount.toNat + (if smd.selectedSlot = some slot then 1 else 0) =
      (smd.info slot).retryCount.toNat := by
  by_cases selected : smd.selectedSlot = some slot
  · have nonzero := (SlotMetaData.selectedSlot_spec selected).2.1.1
    have paid : ((bootNext smd).info slot).retryCount = (smd.info slot).retryCount - 1 := by
      simp only [bootNext, selected, trial, if_true]
      exact smd.withRetryCount_info slot _
    rw [if_pos selected, paid]
    bv_omega
  · rw [if_neg selected, Nat.add_zero,
      bootNext_retryCount_of_not_paid smd bound fun now => absurd now selected]

/-! ### A run of boots -/

theorem iterate_bootSuccessful (slot n : Nat) :
    ((bootNext^[n] smd).info slot).bootSuccessful = (smd.info slot).bootSuccessful := by
  induction n with
  | zero => rfl
  | succ n ih => rw [Function.iterate_succ_apply', bootNext_bootSuccessful, ih]

theorem iterate_trial (bound : slot < maxSlots)
    (trial : (smd.info slot).bootSuccessful = 0) (n : Nat) :
    ((bootNext^[n] smd).info slot).retryCount.toNat +
        Nat.count (fun k => (bootNext^[k] smd).selectedSlot = some slot) n =
      (smd.info slot).retryCount.toNat := by
  induction n with
  | zero => simp
  | succ n ih =>
    have onTrial : ((bootNext^[n] smd).info slot).bootSuccessful = 0 := by
      rw [iterate_bootSuccessful, trial]
    have paid := bootNext_trial (bootNext^[n] smd) bound onTrial
    rw [Nat.count_succ, Function.iterate_succ_apply', ← ih, ← paid]
    omega

theorem iterate_successful (bound : slot < maxSlots)
    (successful : (smd.info slot).bootSuccessful ≠ 0) (n : Nat) :
    ((bootNext^[n] smd).info slot).retryCount = (smd.info slot).retryCount := by
  induction n with
  | zero => rfl
  | succ n ih =>
    have marked : ((bootNext^[n] smd).info slot).bootSuccessful ≠ 0 := by
      rw [iterate_bootSuccessful]
      exact successful
    rw [Function.iterate_succ_apply', bootNext_successful _ bound marked, ih]

end

def storedRetryCount (qspi : Bool) (n slot : Nat) (storage : SmdStorage) : Option Byte := do
  let storage ← Run.stateAfter (boot qspi) n storage
  match (tegrablABGetSmd (.working qspi) none storage).1 with
  | .ok smd => (smd.slotInfo slot).map BootSlotInfo.retryCount
  | .error _ => none

/-- Over every run of boots, from any stored metadata with two slots and retry counts of at most 15:
the run is never stuck, a slot on trial is selected at most as often as it has retries, and the
retry count of a slot marked successful is the same after each boot. -/
theorem trial_selected_le_retryCount (qspi : Bool) (storage : SmdStorage) (smd : SlotMetaData)
    (found : (tegrablABGetSmd (.working qspi) none storage).1 = .ok smd)
    (magic : smd.magic = bootChainMagic) (two : smd.numSlots = 2)
    (fits : ∀ slot info, smd.slotInfo slot = some info → info.retryCount.toNat ≤ 15)
    (slot : Nat) (info : BootSlotInfo) (here : smd.slotInfo slot = some info) (n : Nat) :
    (∃ selected, Run.outputAt (boot qspi) n storage = some selected) ∧
      (info.bootSuccessful = 0 →
        Nat.count (fun k => Run.outputAt (boot qspi) k storage = some (some slot)) n ≤
          info.retryCount.toNat) ∧
      (info.bootSuccessful ≠ 0 →
        storedRetryCount qspi n slot storage = some info.retryCount) := by
  have stored : Stores qspi storage smd :=
    ⟨found, magic, two, fits 0 _ rfl, fits 1 _ rfl⟩
  have outputs := fun k => (boot_simulates qspi).outputAt k stored
  have bound : slot < maxSlots := by
    rw [← smd.slotInfo_isSome_iff, here]
    rfl
  have same : info = smd.info slot := by
    rw [smd.slotInfo_eq_info bound] at here
    exact (Option.some.inj here).symm
  subst same
  refine ⟨⟨_, outputs n⟩, fun trial => ?_, fun successful => ?_⟩
  · simp only [outputs, Option.some.injEq]
    have total := iterate_trial smd bound trial n
    omega
  · obtain ⟨last, reached, foundLast, -⟩ := (boot_simulates qspi).stateAfter n stored
    rw [storedRetryCount, reached]
    simp only [Option.bind_eq_bind, Option.bind_some, foundLast]
    rw [SlotMetaData.slotInfo_eq_info _ bound, Option.map_some,
      iterate_successful smd bound successful]

/-- Slot A of a device on trial with seven retries is selected at most seven times in a hundred
boots. -/
theorem trial_selected_le_seven :
    ∃ smd : SlotMetaData, smd.slotInfo0.bootSuccessful = 0 ∧
      Nat.count (fun k => Run.outputAt (boot false) k (.holding smd.withCrc) = some (some 0)) 100 ≤
        7 := by
  refine ⟨{ SlotMetaData.twoSlots 2 15 14 with slotInfo0 := ⟨15, (0x5F, 0x61), 7, 0⟩ }, rfl, ?_⟩
  refine (trial_selected_le_retryCount false _ _ (get_holding false _) rfl rfl ?_ 0 _ rfl
    100).2.1 rfl
  intro slot info here
  match slot, here with
  | 0, here | 1, here => cases here; decide

end Cboot.ABBoot
