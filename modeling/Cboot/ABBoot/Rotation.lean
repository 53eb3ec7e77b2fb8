/-
**The rotation of priorities under user redundancy.**

When both slots are bootable and marked successful, a boot that does not reach the kernel leaves the
stored metadata as it was but for the two priorities. The slot logic is then a machine on pairs of
numbers (`pairSlot`, `pairNext`), and `boot_simulates_pair` says that the boots follow it.
-/

import Cboot.ABBoot.Boot

namespace Cboot.ABBoot

/-! ### The machine on pairs of priorities -/

def pairSlot (pair : Nat × Nat) : Nat := if pair.2 ≤ pair.1 then 0 else 1

def pairNext (pair : Nat × Nat) : Nat × Nat :=
  if pair.2 ≤ pair.1 then
    if pair.2 < pair.1 then (pair.1 - 1, pair.2)
    else if pair.2 < 15 then (pair.1, pair.2 + 1)
    else (pair.2 - 1, pair.2)
  else if pair.2 = pair.1 + 1 then
    if 1 < pair.1 then (pair.1 - 1, pair.2) else (pair.1, pair.2 + 1)
  else (15, 14)

structure InRange (pair : Nat × Nat) : Prop where
  lowA : 1 ≤ pair.1
  highA : pair.1 ≤ 15
  lowB : 1 ≤ pair.2
  highB : pair.2 ≤ 15

variable {a b : Nat}

theorem pairNext_ahead (ahead : b < a) : pairNext (a, b) = (a - 1, b) := by
  rw [pairNext, if_pos ahead.le, if_pos ahead]

theorem pairNext_tie {a : Nat} (low : 1 ≤ a) (high : a ≤ 15) :
    ∃ r, 1 ≤ r ∧ r ≤ 14 ∧ pairNext (a, a) = (r, r + 1) := by
  rw [pairNext, if_pos le_rfl, if_neg (lt_irrefl a)]
  by_cases room : a < 15
  · exact ⟨a, low, by omega, if_pos room⟩
  · have top : a = 15 := by omega
    subst top
    exact ⟨14, by decide, le_rfl, rfl⟩

theorem pairNext_behind_one {r : Nat} (low : 1 ≤ r) (high : r ≤ 14) :
    ∃ t, 1 ≤ t ∧ t ≤ 13 ∧ pairNext (r, r + 1) = (t, t + 2) := by
  rw [pairNext, if_neg (by simp), if_pos rfl]
  by_cases room : 1 < r
  · refine ⟨r - 1, by omega, by omega, ?_⟩
    rw [if_pos room]
    have gap : r + 1 = r - 1 + 2 := by omega
    rw [gap]
  · have bottom : r = 1 := by omega
    subst bottom
    exact ⟨1, le_rfl, by decide, rfl⟩

theorem pairNext_behind_more (gap : a + 2 ≤ b) : pairNext (a, b) = (15, 14) := by
  have notFirst : ¬ b ≤ a := by omega
  have notOne : b ≠ a + 1 := by omega
  rw [pairNext, if_neg notFirst, if_neg notOne]

variable {pair : Nat × Nat}

theorem pairNext_inRange (range : InRange pair) : InRange (pairNext pair) := by
  obtain ⟨a, b⟩ := pair
  obtain ⟨lowA, highA, lowB, highB⟩ := range
  simp only at lowA highA lowB highB
  rcases lt_trichotomy b a with ahead | rfl | behind
  · rw [pairNext_ahead ahead]
    exact ⟨by simp only; omega, by simp only; omega, lowB, highB⟩
  · obtain ⟨r, low, high, next⟩ := pairNext_tie lowA highA
    rw [next]
    exact ⟨low, by simp only; omega, by simp only; omega, by simp only; omega⟩
  · by_cases one : b = a + 1
    · subst one
      obtain ⟨t, low, high, next⟩ := pairNext_behind_one lowA (by omega)
      rw [next]
      exact ⟨low, by simp only; omega, by simp only; omega, by simp only; omega⟩
    · rw [pairNext_behind_more (by omega)]
      exact ⟨by decide, by decide, by decide, by decide⟩

theorem iterate_inRange (range : InRange pair) (n : Nat) :
    InRange (pairNext^[n] pair) := by
  induction n with
  | zero => exact range
  | succ n ih =>
    rw [Function.iterate_succ_apply']
    exact pairNext_inRange ih

theorem iterate_ahead (b d k : Nat) (within : k ≤ d) :
    pairNext^[k] (b + d, b) = (b + d - k, b) := by
  induction k with
  | zero => rfl
  | succ k ih =>
    rw [Function.iterate_succ_apply', ih (by omega), pairNext_ahead (by omega)]
    rfl

theorem iterate_ahead_then_behind (range : InRange (a, b)) (ahead : b ≤ a) :
    ∃ r, 1 ≤ r ∧ r ≤ 14 ∧ pairNext^[a - b + 1] (a, b) = (r, r + 1) := by
  obtain ⟨d, rfl⟩ := Nat.exists_eq_add_of_le ahead
  have distance : b + d - b = d := by omega
  have reached : pairNext^[d] (b + d, b) = (b, b) := by
    rw [iterate_ahead b d d le_rfl, Nat.add_sub_cancel]
  obtain ⟨r, low, high, next⟩ := pairNext_tie range.lowB range.highB
  refine ⟨r, low, high, ?_⟩
  rw [distance, Function.iterate_succ_apply', reached, next]

theorem exists_iterate_of_behind (range : InRange (a, b)) (behind : a < b) :
    ∃ n, n ≤ 2 ∧ pairNext^[n] (a, b) = (15, 14) := by
  by_cases one : b = a + 1
  · subst one
    have high : a ≤ 14 := by
      have top := range.highB
      simp only at top
      omega
    obtain ⟨t, _, _, next⟩ := pairNext_behind_one range.lowA high
    refine ⟨2, le_rfl, ?_⟩
    show pairNext (pairNext (a, a + 1)) = (15, 14)
    rw [next, pairNext_behind_more le_rfl]
  · exact ⟨1, by decide, pairNext_behind_more (by omega)⟩

theorem exists_iterate_eq_cycle (range : InRange pair) :
    ∃ n, pairNext^[n] pair = (15, 14) := by
  obtain ⟨a, b⟩ := pair
  by_cases ahead : b ≤ a
  · obtain ⟨r, low, high, reached⟩ := iterate_ahead_then_behind range ahead
    have behindRange : InRange (r, r + 1) := by
      rw [← reached]
      exact iterate_inRange range _
    obtain ⟨n, _, cycle⟩ := exists_iterate_of_behind behindRange (Nat.lt_succ_self r)
    refine ⟨n + (a - b + 1), ?_⟩
    rw [Function.iterate_add_apply, reached, cycle]
  · obtain ⟨n, _, cycle⟩ := exists_iterate_of_behind range (by omega)
    exact ⟨n, cycle⟩

theorem pairSlot_cycle (k : Nat) :
    pairSlot (pairNext^[k] (15, 14)) = if k % 4 < 2 then 0 else 1 := by
  have period : Function.IsPeriodicPt pairNext 4 (15, 14) := rfl
  rw [← period.iterate_mod_apply k]
  have small : k % 4 < 4 := Nat.mod_lt _ (by decide)
  generalize k % 4 = j at small
  interval_cases j <;> rfl

theorem exists_other_slot (range : InRange (a, b)) (slot : Nat) :
    ∃ k ≤ max 2 (a - b + 1), pairSlot (pairNext^[k] (a, b)) ≠ slot := by
  by_cases now : pairSlot (a, b) = slot
  · subst now
    by_cases ahead : b ≤ a
    · obtain ⟨r, _, _, reached⟩ := iterate_ahead_then_behind range ahead
      refine ⟨a - b + 1, le_max_right _ _, ?_⟩
      rw [reached, pairSlot, pairSlot, if_pos ahead, if_neg (by simp)]
      decide
    · obtain ⟨n, bound, cycle⟩ := exists_iterate_of_behind range (by omega)
      refine ⟨n, bound.trans (le_max_left _ _), ?_⟩
      rw [cycle, pairSlot, pairSlot, if_neg ahead]
      decide
  · exact ⟨0, Nat.zero_le _, now⟩

/-! ### The boots follow the machine -/

namespace SlotMetaData

def priorities (smd : SlotMetaData) : Nat × Nat :=
  (smd.slotInfo0.priority.toNat, smd.slotInfo1.priority.toNat)

structure UserRedundant (smd : SlotMetaData) : Prop extends smd.TwoSlot where
  redundant : bootctrlSupportRedundancy smd.version ≠ 0
  user : bootctrlSupportRedundancyUser smd.version ≠ 0
  range : InRange smd.priorities

structure BothUsable (smd : SlotMetaData) : Prop where
  retryA : smd.slotInfo0.retryCount ≠ 0
  retryB : smd.slotInfo1.retryCount ≠ 0
  successfulA : smd.slotInfo0.bootSuccessful ≠ 0
  successfulB : smd.slotInfo1.bootSuccessful ≠ 0

end SlotMetaData

theorem rotatedPriorities_toNat (priorityA priorityB : Byte)
    (range : InRange (priorityA.toNat, priorityB.toNat)) :
    ((rotatedPriorities (pairSlot (priorityA.toNat, priorityB.toNat)) priorityA priorityB).1.toNat,
        (rotatedPriorities (pairSlot (priorityA.toNat, priorityB.toNat)) priorityA
          priorityB).2.toNat) =
      pairNext (priorityA.toNat, priorityB.toNat) := by
  obtain ⟨lowA, highA, lowB, highB⟩ := range
  simp only at lowA highA lowB highB
  by_cases ahead : priorityB.toNat ≤ priorityA.toNat
  · simp only [pairSlot, pairNext, ahead, if_true, rotatedPriorities]
    by_cases strict : priorityB.toNat < priorityA.toNat
    · rw [if_pos (BitVec.lt_def.mpr strict), if_pos strict, Prod.mk.injEq]
      exact ⟨by bv_omega, rfl⟩
    · rw [if_neg (fun less => strict (BitVec.lt_def.mp less)), if_neg strict]
      by_cases room : priorityB.toNat < 15
      · rw [if_pos (show priorityB < slotPriorityDefault from BitVec.lt_def.mpr room), if_pos room,
          Prod.mk.injEq]
        exact ⟨rfl, by bv_omega⟩
      · rw [if_neg (fun less : priorityB < slotPriorityDefault => room (BitVec.lt_def.mp less)),
          if_neg room, Prod.mk.injEq]
        exact ⟨by bv_omega, rfl⟩
  · simp only [pairSlot, pairNext, ahead, if_false, rotatedPriorities, one_ne_zero]
    by_cases one : priorityB.toNat = priorityA.toNat + 1
    · rw [if_pos one, if_pos one]
      by_cases room : 1 < priorityA.toNat
      · rw [if_pos (show 1 < priorityA from BitVec.lt_def.mpr room), if_pos room, Prod.mk.injEq]
        exact ⟨by bv_omega, rfl⟩
      · rw [if_neg (fun more : 1 < priorityA => room (BitVec.lt_def.mp more)), if_neg room,
          Prod.mk.injEq]
        exact ⟨rfl, by bv_omega⟩
    · rw [if_neg one, if_neg one]
      rfl

section Usable

variable {smd : SlotMetaData}

theorem selectedSlot_eq_pairSlot (device : smd.UserRedundant) (usable : smd.BothUsable) :
    smd.selectedSlot = some (pairSlot smd.priorities) := by
  have nonzeroA : smd.slotInfo0.priority ≠ 0 := by
    have low : 1 ≤ smd.slotInfo0.priority.toNat := device.range.lowA
    bv_omega
  have nonzeroB : smd.slotInfo1.priority ≠ 0 := by
    have low : 1 ≤ smd.slotInfo1.priority.toNat := device.range.lowB
    bv_omega
  have bootableA : smd.slotInfo0.Bootable := ⟨usable.retryA, nonzeroA⟩
  have bootableB : smd.slotInfo1.Bootable := ⟨usable.retryB, nonzeroB⟩
  rw [SlotMetaData.selectedSlot, pairSlot]
  by_cases ahead : smd.priorities.2 ≤ smd.priorities.1
  · rw [if_pos ⟨bootableA, fun _ => BitVec.le_def.mpr ahead⟩, if_pos ahead]
  · rw [if_neg fun both => ahead (BitVec.le_def.mp (both.2 bootableB)), if_pos bootableB,
      if_neg ahead]

theorem bootNext_usable (device : smd.UserRedundant) (usable : smd.BothUsable) :
    (bootNext smd).UserRedundant ∧ (bootNext smd).BothUsable ∧
      (bootNext smd).priorities = pairNext smd.priorities := by
  have bootable : ∀ slot, (smd.info slot).Bootable := by
    intro slot
    have lowA : 1 ≤ smd.slotInfo0.priority.toNat := device.range.lowA
    have lowB : 1 ≤ smd.slotInfo1.priority.toNat := device.range.lowB
    unfold SlotMetaData.info
    split
    · exact ⟨usable.retryA, by bv_omega⟩
    · exact ⟨usable.retryB, by bv_omega⟩
  have successful : ∀ slot, (smd.info slot).bootSuccessful ≠ 0 := by
    intro slot
    unfold SlotMetaData.info
    split
    · exact usable.successfulA
    · exact usable.successfulB
  have next : bootNext smd = (smd.withPriorities (rotatedPriorities (pairSlot smd.priorities)
      smd.slotInfo0.priority smd.slotInfo1.priority)).withCrc := by
    rw [bootNext, selectedSlot_eq_pairSlot device usable]
    simp only
    rw [if_neg (successful _), if_pos ⟨device.redundant, device.user⟩, if_pos (bootable _)]
  have rotated : (bootNext smd).priorities = pairNext smd.priorities := by
    rw [next]
    exact rotatedPriorities_toNat _ _ device.range
  refine ⟨⟨bootNext_twoSlot device.toTwoSlot, ?_, ?_, ?_⟩, ?_, rotated⟩
  · rw [next]
    exact device.redundant
  · rw [next]
    exact device.user
  · rw [rotated]
    exact pairNext_inRange device.range
  · rw [next]
    exact ⟨usable.retryA, usable.retryB, usable.successfulA, usable.successfulB⟩

end Usable

def StoresUsable (qspi : Bool) (storage : SmdStorage) (pair : Nat × Nat) : Prop :=
  ∃ smd, (tegrablABGetSmd (.working qspi) none storage).1 = .ok smd ∧ smd.UserRedundant ∧
    smd.BothUsable ∧ smd.priorities = pair

theorem boot_simulates_pair (qspi : Bool) :
    Run.Simulates (boot qspi) (fun pair => some (pairSlot pair)) pairNext (StoresUsable qspi) := by
  rintro storage _ ⟨smd, found, device, usable, rfl⟩
  obtain ⟨next, booted, foundNext, -⟩ := boot_simulates qspi storage smd ⟨found, device.toTwoSlot⟩
  obtain ⟨deviceNext, usableNext, rotated⟩ := bootNext_usable device usable
  rw [selectedSlot_eq_pairSlot device usable] at booted
  exact ⟨next, booted, bootNext smd, foundNext, deviceNext, usableNext, rotated⟩

/-- From every pair of priorities in 1..15 and over every number of failing boots: each boot selects
a slot (the assertion of the rotation holds), the stored priorities stay in 1..15, sixteen boots in
a row never select the same slot, and from some boot on the slots are A, A, B, B forever. -/
theorem rotation_run (qspi : Bool) (storage : SmdStorage) (smd : SlotMetaData)
    (found : (tegrablABGetSmd (.working qspi) none storage).1 = .ok smd)
    (device : smd.UserRedundant) (usable : smd.BothUsable) :
    (∀ n, ∃ slot, Run.outputAt (boot qspi) n storage = some (some slot)) ∧
      (∀ n, ∃ last smd', Run.stateAfter (boot qspi) n storage = some last ∧
        (tegrablABGetSmd (.working qspi) none last).1 = .ok smd' ∧ InRange smd'.priorities) ∧
      (∀ n slot, ∃ k < 16, Run.outputAt (boot qspi) (n + k) storage ≠ some (some slot)) ∧
      ∃ start, ∀ k, Run.outputAt (boot qspi) (start + k) storage =
        some (some (if k % 4 < 2 then bootSlotA else bootSlotB)) := by
  have stored : StoresUsable qspi storage smd.priorities := ⟨smd, found, device, usable, rfl⟩
  have outputs : ∀ k, Run.outputAt (boot qspi) k storage =
      some (some (pairSlot (pairNext^[k] smd.priorities))) :=
    fun k => (boot_simulates_pair qspi).outputAt k stored
  refine ⟨fun n => ⟨_, outputs n⟩, fun n => ?_, fun n slot => ?_, ?_⟩
  · obtain ⟨last, reached, smd', foundLast, deviceLast, -⟩ :=
      (boot_simulates_pair qspi).stateAfter n stored
    exact ⟨last, smd', reached, foundLast, deviceLast.range⟩
  · have range := iterate_inRange device.range n
    obtain ⟨k, bound, other⟩ := exists_other_slot range slot
    have within : k < 16 := by
      have bounds := And.intro range.lowB range.highA
      omega
    refine ⟨k, within, ?_⟩
    rw [outputs, Nat.add_comm, Function.iterate_add_apply]
    simpa using other
  · obtain ⟨start, cycle⟩ := exists_iterate_eq_cycle device.range
    refine ⟨start, fun k => ?_⟩
    rw [outputs, Nat.add_comm, Function.iterate_add_apply, cycle, pairSlot_cycle]
    rfl

theorem twoSlots_userRedundant (priorityA priorityB : Byte)
    (range : InRange (priorityA.toNat, priorityB.toNat)) :
    (SlotMetaData.twoSlots 0x303 priorityA priorityB).withCrc.UserRedundant :=
  ⟨⟨rfl, rfl, (by decide : slotRetryCountDefault.toNat ≤ 15),
      (by decide : slotRetryCountDefault.toNat ≤ 15)⟩,
    (by decide : bootctrlSupportRedundancy 0x303 ≠ 0),
    (by decide : bootctrlSupportRedundancyUser 0x303 ≠ 0), range⟩

theorem twoSlots_bothUsable (version : BitVec 16) (priorityA priorityB : Byte) :
    (SlotMetaData.twoSlots version priorityA priorityB).withCrc.BothUsable :=
  ⟨(by decide : slotRetryCountDefault ≠ 0), (by decide : slotRetryCountDefault ≠ 0),
    (by decide : (1 : Byte) ≠ 0), (by decide : (1 : Byte) ≠ 0)⟩

/-- The widest gap, priorities 15 and 1, still ends in A, A, B, B. -/
theorem rotation_run_widest :
    ∃ start, ∀ k, Run.outputAt (boot false) (start + k)
        (.holding (SlotMetaData.twoSlots 0x303 15 1).withCrc) =
      some (some (if k % 4 < 2 then bootSlotA else bootSlotB)) :=
  (rotation_run false _ _ (get_holding false _)
    (twoSlots_userRedundant 15 1 ⟨by decide, by decide, by decide, by decide⟩)
    (twoSlots_bothUsable 0x303 15 1)).2.2.2

/-! ### The reachable states -/

def modifyStored (qspi : Bool) (change : SlotMetaData → Result SlotMetaData)
    (storage : SmdStorage) : SmdStorage :=
  match (tegrablABGetSmd (.working qspi) none storage).1 with
  | .error _ => storage
  | .ok smd =>
    match change smd with
    | .error _ => storage
    | .ok smd => (tegrablABFlushSmd (.working qspi) smd storage).2

inductive Reachable (qspi : Bool) (initial : SmdStorage) : SmdStorage → Prop
  | initial : Reachable qspi initial initial
  | setActiveSlot {storage : SmdStorage} (slot : Nat) (before : Reachable qspi initial storage) :
      Reachable qspi initial
        (modifyStored qspi (fun smd => tegrablABSetActiveSlot smd slot) storage)
  | setSuccessful {storage : SmdStorage} (slot : Nat) (before : Reachable qspi initial storage) :
      Reachable qspi initial
        (modifyStored qspi (fun smd => tegrablABSetSuccessful smd slot 1) storage)
  | failingBoot {storage next : SmdStorage} {selected : Option Nat}
      (before : Reachable qspi initial storage) (booted : boot qspi storage = some (selected, next)) :
      Reachable qspi initial next

def StoresDevice (qspi : Bool) (storage : SmdStorage) : Prop :=
  ∃ smd, (tegrablABGetSmd (.working qspi) none storage).1 = .ok smd ∧ smd.UserRedundant

theorem get_modifyStored {qspi : Bool} {storage : SmdStorage} {smd smd' : SlotMetaData}
    (change : SlotMetaData → Result SlotMetaData)
    (found : (tegrablABGetSmd (.working qspi) none storage).1 = .ok smd)
    (changed : change smd = .ok smd') :
    (tegrablABGetSmd (.working qspi) none (modifyStored qspi change storage)).1 =
      .ok smd'.withCrc := by
  rw [modifyStored, found]
  simpa only [changed] using get_after_flush_working qspi smd' storage

theorem modifyStored_device {qspi : Bool} {storage : SmdStorage}
    {change : SlotMetaData → Result SlotMetaData} (device : StoresDevice qspi storage)
    (keeps : ∀ smd smd', smd.UserRedundant → change smd = .ok smd' → smd'.UserRedundant) :
    StoresDevice qspi (modifyStored qspi change storage) := by
  obtain ⟨smd, found, shape⟩ := device
  cases changed : change smd with
  | error error =>
    refine ⟨smd, ?_, shape⟩
    rw [modifyStored, found]
    simpa only [changed] using found
  | ok smd' =>
    have kept := keeps smd smd' shape changed
    exact ⟨smd'.withCrc, get_modifyStored change found changed, kept.toTwoSlot.withCrc, kept.redundant,
      kept.user, kept.range⟩

theorem setActiveSlot_userRedundant {smd smd' : SlotMetaData} {slot : Nat}
    (device : smd.UserRedundant) (changed : tegrablABSetActiveSlot smd slot = .ok smd') :
    smd'.UserRedundant := by
  have decreased : ∀ info : BootSlotInfo, 1 ≤ info.priority.toNat → info.priority.toNat ≤ 15 →
      1 ≤ (decreasePriority info).priority.toNat ∧ (decreasePriority info).priority.toNat ≤ 15 := by
    intro info low high
    unfold decreasePriority
    split
    · rename_i above
      have more : 1 < info.priority.toNat := BitVec.lt_def.mp above
      simp only
      constructor <;> bv_omega
    · exact ⟨low, high⟩
  have kept : ∀ info : BootSlotInfo, (decreasePriority info).retryCount = info.retryCount := by
    intro info
    unfold decreasePriority
    split <;> rfl
  obtain ⟨twoSlot, redundant, user, range⟩ := device
  have lowA := decreased smd.slotInfo0 range.lowA range.highA
  have lowB := decreased smd.slotInfo1 range.lowB range.highB
  match slot, changed with
  | 0, changed =>
    cases changed
    refine ⟨⟨twoSlot.magic, twoSlot.two, ?_, ?_⟩, redundant, user, ?_, ?_, lowB.1, lowB.2⟩
    · show (7#8).toNat ≤ 15
      decide
    · show (decreasePriority smd.slotInfo1).retryCount.toNat ≤ 15
      rw [kept]
      exact twoSlot.fitsB
    · show 1 ≤ (15#8).toNat
      decide
    · show (15#8).toNat ≤ 15
      decide
  | 1, changed =>
    cases changed
    refine ⟨⟨twoSlot.magic, twoSlot.two, ?_, ?_⟩, redundant, user, lowA.1, lowA.2, ?_, ?_⟩
    · show (decreasePriority smd.slotInfo0).retryCount.toNat ≤ 15
      rw [kept]
      exact twoSlot.fitsA
    · show (7#8).toNat ≤ 15
      decide
    · show 1 ≤ (15#8).toNat
      decide
    · show (15#8).toNat ≤ 15
      decide
  | n + 2, changed =>
    have refused : maxSlots ≤ n + 2 := Nat.le_add_left 2 n
    rw [tegrablABSetActiveSlot, if_pos refused] at changed
    cases changed

theorem setSuccessful_userRedundant {smd smd' : SlotMetaData} {slot : Nat} {value : Byte}
    (device : smd.UserRedundant) (changed : tegrablABSetSuccessful smd slot value = .ok smd') :
    smd'.UserRedundant := by
  obtain ⟨⟨magic, two, fitsA, fitsB⟩, redundant, user, range⟩ := device
  match slot, changed with
  | 0, changed | 1, changed =>
    cases changed
    exact ⟨⟨magic, two, fitsA, fitsB⟩, redundant, user, range⟩

theorem rotatedPriorities_inRange (slot : Nat) (priorityA priorityB : Byte)
    (range : InRange (priorityA.toNat, priorityB.toNat)) :
    InRange ((rotatedPriorities slot priorityA priorityB).1.toNat,
      (rotatedPriorities slot priorityA priorityB).2.toNat) := by
  obtain ⟨lowA, highA, lowB, highB⟩ := range
  simp only at lowA highA lowB highB
  have default : slotPriorityDefault.toNat = 15 := rfl
  unfold rotatedPriorities
  split
  · split
    · rename_i ahead
      have strict := BitVec.lt_def.mp ahead
      exact ⟨by bv_omega, by bv_omega, lowB, highB⟩
    · split
      · rename_i room
        have below := BitVec.lt_def.mp room
        exact ⟨lowA, highA, by bv_omega, by bv_omega⟩
      · rename_i full
        have top : ¬ priorityB.toNat < 15 := fun below => full (BitVec.lt_def.mpr below)
        exact ⟨by bv_omega, by bv_omega, lowB, highB⟩
  · split
    · rename_i one
      split
      · rename_i more
        have above := BitVec.lt_def.mp more
        exact ⟨by bv_omega, by bv_omega, lowB, highB⟩
      · rename_i few
        have least : ¬ 1 < priorityA.toNat := fun above => few (BitVec.lt_def.mpr above)
        exact ⟨lowA, highA, by bv_omega, by bv_omega⟩
    · exact ⟨by decide, by decide, by decide, by decide⟩

theorem bootNext_userRedundant {smd : SlotMetaData} (device : smd.UserRedundant) :
    (bootNext smd).UserRedundant := by
  refine ⟨bootNext_twoSlot device.toTwoSlot, ?_, ?_, ?_⟩
  · rw [bootNext_version]
    exact device.redundant
  · rw [bootNext_version]
    exact device.user
  · rcases bootNext_priority smd with same | ⟨slot, rotated⟩
    · obtain ⟨sameA, sameB⟩ := Prod.mk.inj same
      rw [SlotMetaData.priorities, sameA, sameB]
      exact device.range
    · have kept := rotatedPriorities_inRange slot _ _ device.range
      rw [← rotated] at kept
      exact kept

theorem reachable_device {qspi : Bool} {initial storage : SmdStorage}
    (start : StoresDevice qspi initial) (reach : Reachable qspi initial storage) :
    StoresDevice qspi storage := by
  induction reach with
  | initial => exact start
  | setActiveSlot slot _ ih =>
    exact modifyStored_device ih fun _ _ device changed =>
      setActiveSlot_userRedundant device changed
  | setSuccessful slot _ ih =>
    exact modifyStored_device ih fun _ _ device changed =>
      setSuccessful_userRedundant device changed
  | failingBoot _ booted ih =>
    obtain ⟨smd, found, device⟩ := ih
    obtain ⟨next, follows, foundNext, -⟩ :=
      boot_simulates qspi _ smd ⟨found, device.toTwoSlot⟩
    rw [follows] at booted
    cases booted
    exact ⟨bootNext smd, foundNext, bootNext_userRedundant device⟩

/-! ### At most twice in a row -/

def AtMostOneAhead (pair : Nat × Nat) : Prop := pair.1 ≤ pair.2 + 1

theorem pairNext_atMostOneAhead (range : InRange pair)
    (near : AtMostOneAhead pair) : AtMostOneAhead (pairNext pair) := by
  obtain ⟨a, b⟩ := pair
  have gap : a ≤ b + 1 := near
  rcases lt_trichotomy b a with ahead | rfl | behind
  · rw [pairNext_ahead ahead]
    show a - 1 ≤ b + 1
    omega
  · obtain ⟨r, _, _, next⟩ := pairNext_tie range.lowA range.highA
    rw [next]
    show r ≤ r + 1 + 1
    omega
  · by_cases one : b = a + 1
    · subst one
      have top : a + 1 ≤ 15 := range.highB
      obtain ⟨t, _, _, next⟩ := pairNext_behind_one range.lowA (by omega)
      rw [next]
      show t ≤ t + 2 + 1
      omega
    · rw [pairNext_behind_more (by omega)]
      show 15 ≤ 14 + 1
      omega

theorem iterate_atMostOneAhead (range : InRange pair)
    (near : AtMostOneAhead pair) (n : Nat) : AtMostOneAhead (pairNext^[n] pair) := by
  induction n with
  | zero => exact near
  | succ n ih =>
    rw [Function.iterate_succ_apply']
    exact pairNext_atMostOneAhead (iterate_inRange range n) ih

theorem pairSlot_of_far_ahead (far : b + 2 ≤ a) (k : Nat) (bound : k < 3) :
    pairSlot (pairNext^[k] (a, b)) = 0 := by
  obtain ⟨d, rfl⟩ := Nat.exists_eq_add_of_le (show b ≤ a by omega)
  rw [iterate_ahead b d k (by omega), pairSlot, if_pos]
  show b ≤ b + d - k
  omega

/-- In every state reachable from a device with user redundancy in which both slots are usable: no
slot is selected on three failing boots in a row exactly when the priority of A is at most one
above that of B. -/
theorem atMostTwice_iff (qspi : Bool) (initial storage : SmdStorage) (smd : SlotMetaData)
    (start : StoresDevice qspi initial) (reach : Reachable qspi initial storage)
    (found : (tegrablABGetSmd (.working qspi) none storage).1 = .ok smd)
    (usable : smd.BothUsable) :
    (∀ n slot, ∃ k < 3, Run.outputAt (boot qspi) (n + k) storage ≠ some (some slot)) ↔
      smd.slotInfo0.priority.toNat ≤ smd.slotInfo1.priority.toNat + 1 := by
  obtain ⟨smd', found', device⟩ := reachable_device start reach
  rw [found] at found'
  cases found'
  have stored : StoresUsable qspi storage smd.priorities := ⟨smd, found, device, usable, rfl⟩
  have outputs : ∀ k, Run.outputAt (boot qspi) k storage =
      some (some (pairSlot (pairNext^[k] smd.priorities))) :=
    fun k => (boot_simulates_pair qspi).outputAt k stored
  constructor
  · intro switches
    by_contra far
    obtain ⟨k, bound, other⟩ := switches 0 0
    apply other
    rw [outputs, Nat.zero_add]
    exact congrArg (some ∘ some) (pairSlot_of_far_ahead (by omega) k bound)
  · intro near n slot
    have gap : (pairNext^[n] smd.priorities).1 ≤ (pairNext^[n] smd.priorities).2 + 1 :=
      iterate_atMostOneAhead device.range near n
    obtain ⟨k, bound, other⟩ := exists_other_slot (iterate_inRange device.range n) slot
    refine ⟨k, by omega, ?_⟩
    rw [outputs, Nat.add_comm, Function.iterate_add_apply]
    simpa using other

theorem usual_storesDevice :
    StoresDevice false (.holding (SlotMetaData.twoSlots 0x303 15 14).withCrc) :=
  ⟨_, get_holding false _,
    twoSlots_userRedundant 15 14 ⟨by decide, by decide, by decide, by decide⟩⟩

/-- From the usual priorities, slot A is activated once more and marked successful: the priorities
are 15 and 13, both slots are usable, and three failing boots in a row select A. -/
theorem three_failing_boots_of_A :
    ∃ storage smd,
      Reachable false (.holding (SlotMetaData.twoSlots 0x303 15 14).withCrc) storage ∧
        (tegrablABGetSmd (.working false) none storage).1 = .ok smd ∧ smd.UserRedundant ∧
        smd.BothUsable ∧ smd.priorities = (15, 13) ∧
        ∀ k < 3, Run.outputAt (boot false) k storage = some (some bootSlotA) := by
  let activated : SlotMetaData :=
    { SlotMetaData.twoSlots 0x303 15 13 with
      slotInfo0 := ⟨15, (0x5F, 0x61), 7, 0⟩
      crc32 := (SlotMetaData.twoSlots 0x303 15 14).withCrc.crc32 }
  let marked : SlotMetaData :=
    { SlotMetaData.twoSlots 0x303 15 13 with crc32 := activated.withCrc.crc32 }
  have foundActivated := get_modifyStored (fun smd => tegrablABSetActiveSlot smd 0)
    (get_holding false (SlotMetaData.twoSlots 0x303 15 14))
    (show tegrablABSetActiveSlot _ 0 = .ok activated from rfl)
  have foundMarked := get_modifyStored (fun smd => tegrablABSetSuccessful smd 0 1) foundActivated
    (show tegrablABSetSuccessful _ 0 1 = .ok marked from rfl)
  have device : marked.withCrc.UserRedundant :=
    twoSlots_userRedundant 15 13 ⟨by decide, by decide, by decide, by decide⟩
  have usable : marked.withCrc.BothUsable := twoSlots_bothUsable 0x303 15 13
  refine ⟨_, _, .setSuccessful 0 (.setActiveSlot 0 .initial), foundMarked, device, usable, rfl,
    fun k bound => ?_⟩
  rw [(boot_simulates_pair false).outputAt k ⟨_, foundMarked, device, usable, rfl⟩]
  exact congrArg (some ∘ some) (pairSlot_of_far_ahead (by decide) k bound)

/-- In the usual state the policy holds. -/
theorem atMostTwice_usual :
    (SlotMetaData.twoSlots 0x303 15 14).withCrc.BothUsable ∧
      ∀ n slot, ∃ k < 3, Run.outputAt (boot false) (n + k)
        (.holding (SlotMetaData.twoSlots 0x303 15 14).withCrc) ≠ some (some slot) :=
  ⟨twoSlots_bothUsable 0x303 15 14,
    (atMostTwice_iff false _ _ _ usual_storesDevice .initial (get_holding false _)
      (twoSlots_bothUsable 0x303 15 14)).mpr (by decide)⟩

end Cboot.ABBoot
