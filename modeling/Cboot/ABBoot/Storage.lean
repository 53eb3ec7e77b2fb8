/-
**The two stored copies of the slot metadata.**

The metadata lives in two partitions, `SMD` and `SMD_b`. `tegrablABFlushSmd` writes both, the
primary copy first; `tegrablABGetSmd` reads the primary copy and falls back to the secondary one
when the primary is rejected. Every device access of a flush may succeed, fail (a failed erase or
write may have reached any of the bytes) or be the last one before a power cut (the copy being
erased or written then holds any bytes).
-/

import Cboot.ABBoot.Control
import Cboot.Utils.Crc32

namespace Cboot.ABBoot

/-! ### Copies, accesses and faults -/

inductive SmdBinCopy
  | primary
  | secondary
  deriving DecidableEq

structure SmdStorage where
  primary : ByteMem
  secondary : ByteMem

inductive ControlAccess
  | done
  | failed (error : ErrorValue)
  | powerCut

inductive ContentAccess
  | done
  | failed (error : ErrorValue) (reached : Nat → Bool)
  | powerCut (left : ByteMem)

structure FlushAccesses where
  openAccess : ControlAccess
  eraseAccess : ContentAccess
  seekAccess : ControlAccess
  writeAccess : ContentAccess

structure LoadAccesses where
  openAccess : Option ErrorValue
  seekAccess : Option ErrorValue
  readAccess : Option ErrorValue

/-- The environment of the storage functions: whether the copies are on QSPI flash, whether the
heap has room for the metadata, and how each device access ends. -/
structure StorageEnv where
  qspi : Bool
  allocated : Bool
  flush : SmdBinCopy → FlushAccesses
  load : SmdBinCopy → LoadAccesses

variable (qspi : Bool)

def StorageEnv.working : StorageEnv where
  qspi := qspi
  allocated := true
  flush := fun _ => ⟨.done, .done, .done, .done⟩
  load := fun _ => ⟨none, none, none⟩

def FlushAccesses.Powered (access : FlushAccesses) : Prop :=
  access.openAccess ≠ .powerCut ∧ (∀ left, access.eraseAccess ≠ .powerCut left) ∧
    access.seekAccess ≠ .powerCut ∧ ∀ left, access.writeAccess ≠ .powerCut left

/-! ### Loading -/

def abRaise {α : Type} (error : ErrorValue) : Result α :=
  .error (setHighestModule .abBootctrl error)

variable (smd : SlotMetaData)

def SlotMetaData.CrcProtected : Prop :=
  bootChainVersionCrc32 ≤ smd.version &&& bootChainVersionMask

instance : Decidable smd.CrcProtected :=
  inferInstanceAs (Decidable (bootChainVersionCrc32 ≤ smd.version &&& bootChainVersionMask))

def loadSmdBinCopy (access : LoadAccesses) (content : ByteMem) : Result SlotMetaData :=
  match access.openAccess, access.seekAccess, access.readAccess with
  | some error, _, _ => abRaise error
  | none, some error, _ => abRaise error
  | none, none, some error => abRaise error
  | none, none, none =>
    let smd := SlotMetaData.ofBytes content
    if smd.CrcProtected ∧ tegrablUtilsCrc32 0 (content.load 0 18) ≠ smd.crc32 then
      abError .verifyFailed 0
    else .ok smd

variable (env : StorageEnv)

def tegrablABGetSmd (loaded : Option SlotMetaData) (storage : SmdStorage) :
    Result SlotMetaData × Option SlotMetaData :=
  match loaded with
  | some smd => (.ok smd, some smd)
  | none =>
    if !env.allocated then (abError .noMemory 0, none)
    else
      match loadSmdBinCopy (env.load .primary) storage.primary with
      | .ok smd => (.ok smd, some smd)
      | .error _ =>
        match loadSmdBinCopy (env.load .secondary) storage.secondary with
        | .ok smd => (.ok smd, some smd)
        | .error error => (.error error, none)

/-! ### Flushing -/

def erased : ByteMem := fun _ => 0xFF#8

def partially (reached : Nat → Bool) (target content : ByteMem) : ByteMem := fun a =>
  if reached a then target a else content a

def flushSmdBinCopy (access : FlushAccesses) (smd : SlotMetaData) (content : ByteMem) :
    Option (Result Unit) × ByteMem :=
  match access.openAccess with
  | .powerCut => (none, content)
  | .failed error => (some (abRaise error), content)
  | .done =>
    match (if qspi then access.eraseAccess else .done) with
    | .powerCut left => (none, left)
    | .failed error reached => (some (abRaise error), partially reached erased content)
    | .done =>
      let content := if qspi then erased else content
      match access.seekAccess with
      | .powerCut => (none, content)
      | .failed error => (some (abRaise error), content)
      | .done =>
        match access.writeAccess with
        | .powerCut left => (none, left)
        | .failed error reached =>
          (some (abRaise error), partially reached (content.store 0 smd.bytes) content)
        | .done => (some (.ok ()), content.store 0 smd.bytes)

def SlotMetaData.withCrc : SlotMetaData :=
  { smd with crc32 := tegrablUtilsCrc32 0 smd.payload }

def tegrablABFlushSmd (smd : SlotMetaData) (storage : SmdStorage) :
    Option (Result Unit) × SmdStorage :=
  let smd := smd.withCrc
  match flushSmdBinCopy env.qspi (env.flush .primary) smd storage.primary with
  | (none, primary) => (none, { storage with primary })
  | (some _, primary) =>
    let (error, secondary) :=
      flushSmdBinCopy env.qspi (env.flush .secondary) smd storage.secondary
    (error, ⟨primary, secondary⟩)

/-! ### What a load accepts -/

namespace SlotMetaData

def Accepted : Prop :=
  smd.CrcProtected → tegrablUtilsCrc32 0 smd.payload = smd.crc32

instance : Decidable smd.Accepted :=
  inferInstanceAs (Decidable (smd.CrcProtected → tegrablUtilsCrc32 0 smd.payload = smd.crc32))

theorem withCrc_accepted : smd.withCrc.Accepted := fun _ => rfl

end SlotMetaData

theorem loadSmdBinCopy_working (content : ByteMem) :
    loadSmdBinCopy ⟨none, none, none⟩ content =
      if (SlotMetaData.ofBytes content).Accepted then .ok (SlotMetaData.ofBytes content)
      else abError .verifyFailed 0 := by
  simp only [loadSmdBinCopy, ← SlotMetaData.payload_ofBytes]
  by_cases accepted : (SlotMetaData.ofBytes content).Accepted
  · rw [if_pos accepted, if_neg fun rejected => rejected.2 (accepted rejected.1)]
  · rw [if_neg accepted, if_pos (Classical.not_imp.mp accepted)]

variable (storage : SmdStorage)

theorem tegrablABGetSmd_working :
    (tegrablABGetSmd (.working qspi) none storage).1 =
      if (SlotMetaData.ofBytes storage.primary).Accepted then
        .ok (SlotMetaData.ofBytes storage.primary)
      else if (SlotMetaData.ofBytes storage.secondary).Accepted then
        .ok (SlotMetaData.ofBytes storage.secondary)
      else abError .verifyFailed 0 := by
  simp only [tegrablABGetSmd, StorageEnv.working, loadSmdBinCopy_working]
  by_cases first : (SlotMetaData.ofBytes storage.primary).Accepted
  · simp [first]
  · by_cases second : (SlotMetaData.ofBytes storage.secondary).Accepted
    · simp [first, second, abError, tegrablError]
    · simp [first, second, abError, tegrablError]

theorem tegrablABGetSmd_loaded (smd : SlotMetaData)
    (found : (tegrablABGetSmd env none storage).1 = .ok smd) :
    tegrablABGetSmd env none storage = (.ok smd, some smd) := by
  unfold tegrablABGetSmd at found ⊢
  split at found
  · simp_all
  · split at found
    · simp [abError, tegrablError] at found
    · split at found <;> [skip; split at found] <;> simp_all

/-! ### What a flush leaves -/

theorem flushSmdBinCopy_powered (access : FlushAccesses) (smd : SlotMetaData) (content : ByteMem)
    (powered : access.Powered) :
    ∃ result left, flushSmdBinCopy qspi access smd content = (some result, left) ∧
      (result = .ok () → SlotMetaData.ofBytes left = smd) := by
  obtain ⟨openPowered, erasePowered, seekPowered, writePowered⟩ := powered
  unfold flushSmdBinCopy
  split
  · exact absurd ‹_› openPowered
  · exact ⟨_, _, rfl, nofun⟩
  · split
    · rename_i left cut
      cases qspi
      · simp at cut
      · exact absurd (by simpa using cut) (erasePowered left)
    · exact ⟨_, _, rfl, nofun⟩
    · simp only
      split
      · exact absurd ‹_› seekPowered
      · exact ⟨_, _, rfl, nofun⟩
      · split
        · exact absurd ‹_› (writePowered _)
        · exact ⟨_, _, rfl, nofun⟩
        · exact ⟨_, _, rfl, fun _ => SlotMetaData.ofBytes_store smd _⟩

theorem tegrablABFlushSmd_powered (smd : SlotMetaData) (storage : SmdStorage)
    (powered : ∀ copy, (env.flush copy).Powered) :
    tegrablABFlushSmd env smd storage =
      ((flushSmdBinCopy env.qspi (env.flush .secondary) smd.withCrc storage.secondary).1,
        ⟨(flushSmdBinCopy env.qspi (env.flush .primary) smd.withCrc storage.primary).2,
          (flushSmdBinCopy env.qspi (env.flush .secondary) smd.withCrc storage.secondary).2⟩) := by
  obtain ⟨result, left, primary, -⟩ := flushSmdBinCopy_powered env.qspi (env.flush .primary)
    smd.withCrc storage.primary (powered .primary)
  simp only [tegrablABFlushSmd, primary]

variable (copy : SmdBinCopy)

theorem working_powered : ((StorageEnv.working qspi).flush copy).Powered :=
  ⟨nofun, nofun, nofun, nofun⟩

theorem flushSmdBinCopy_working (content : ByteMem) :
    (flushSmdBinCopy qspi ⟨.done, .done, .done, .done⟩ smd content).1 = some (.ok ()) ∧
      SlotMetaData.ofBytes (flushSmdBinCopy qspi ⟨.done, .done, .done, .done⟩ smd content).2 =
        smd := by
  cases qspi <;> exact ⟨rfl, SlotMetaData.ofBytes_store smd _⟩

theorem tegrablABFlushSmd_working :
    ∃ left, tegrablABFlushSmd (.working qspi) smd storage = (some (.ok ()), left) ∧
      SlotMetaData.ofBytes left.primary = smd.withCrc ∧
      SlotMetaData.ofBytes left.secondary = smd.withCrc := by
  rw [tegrablABFlushSmd_powered _ _ _ (working_powered qspi)]
  have first := flushSmdBinCopy_working qspi smd.withCrc storage.primary
  have second := flushSmdBinCopy_working qspi smd.withCrc storage.secondary
  exact ⟨_, Prod.ext second.1 rfl, first.2, second.2⟩

theorem get_after_flush_working :
    (tegrablABGetSmd (.working qspi) none
      (tegrablABFlushSmd (.working qspi) smd storage).2).1 = .ok smd.withCrc := by
  obtain ⟨left, flushed, primary, -⟩ := tegrablABFlushSmd_working qspi smd storage
  rw [flushed, tegrablABGetSmd_working, primary, if_pos smd.withCrc_accepted]

/-! ### A flush that reports success -/

def primaryOpenFails : StorageEnv :=
  { StorageEnv.working false with
    flush := fun
      | .primary => ⟨.failed ⟨.partitionManager, .partitionManager, 0, .openFailed⟩,
          .done, .done, .done⟩
      | .secondary => ⟨.done, .done, .done, .done⟩ }

def SmdStorage.holding : SmdStorage :=
  ⟨ByteMem.store (fun _ => 0) 0 smd.bytes, ByteMem.store (fun _ => 0) 0 smd.bytes⟩

theorem get_holding :
    (tegrablABGetSmd (.working qspi) none (.holding smd.withCrc)).1 = .ok smd.withCrc := by
  rw [tegrablABGetSmd_working, SmdStorage.holding, SlotMetaData.ofBytes_store,
    if_pos smd.withCrc_accepted]

inductive PowerCut
  | atOpen
  | duringErase (left : ByteMem)
  | atSeek
  | duringWrite (left : ByteMem)

def PowerCut.accesses : PowerCut → FlushAccesses
  | .atOpen => ⟨.powerCut, .done, .done, .done⟩
  | .duringErase left => ⟨.done, .powerCut left, .done, .done⟩
  | .atSeek => ⟨.done, .done, .powerCut, .done⟩
  | .duringWrite left => ⟨.done, .done, .done, .powerCut left⟩

variable (cut : PowerCut)

def StorageEnv.cutIn : StorageEnv :=
  { StorageEnv.working qspi with
    flush := fun other => if other = copy then cut.accesses else ⟨.done, .done, .done, .done⟩ }

def afterCut (smd : SlotMetaData) (storage : SmdStorage) : SmdStorage :=
  (tegrablABFlushSmd (.cutIn qspi copy cut) smd storage).2

def CrcDetects (old new : SlotMetaData) (content : ByteMem) : Prop :=
  SlotMetaData.ofBytes content ≠ old → SlotMetaData.ofBytes content ≠ new →
    tegrablUtilsCrc32 0 (content.load 0 18) ≠ (SlotMetaData.ofBytes content).crc32

theorem afterCut_primary (smd : SlotMetaData) (storage : SmdStorage) :
    (afterCut qspi .primary cut smd storage).secondary = storage.secondary ∨
      SlotMetaData.ofBytes (afterCut qspi .primary cut smd storage).primary = smd.withCrc := by
  cases cut with
  | atOpen => exact .inl rfl
  | duringErase left =>
    cases qspi
    · exact .inr (SlotMetaData.ofBytes_store _ _)
    · exact .inl rfl
  | atSeek | duringWrite left => cases qspi <;> exact .inl rfl

theorem afterCut_secondary (smd : SlotMetaData) (storage : SmdStorage) :
    SlotMetaData.ofBytes (afterCut qspi .secondary cut smd storage).primary = smd.withCrc := by
  cases qspi <;> exact SlotMetaData.ofBytes_store _ _

/-- From two valid copies of the old metadata, the boot after any power cut finds the old or the new
metadata exactly when the primary copy was left as one of them or still asks for its checksum: a
torn copy whose version field reads as a version without a checksum is accepted as it is. -/
theorem get_after_powerCut_iff (old new : SlotMetaData) (storage : SmdStorage)
    (holds : SlotMetaData.ofBytes storage.primary = old ∧
      SlotMetaData.ofBytes storage.secondary = old)
    (valid : old.CrcProtected ∧ tegrablUtilsCrc32 0 old.payload = old.crc32)
    (detects : CrcDetects old new.withCrc (afterCut qspi copy cut new storage).primary) :
    (∃ smd, (tegrablABGetSmd (.working qspi) none (afterCut qspi copy cut new storage)).1 =
        .ok smd ∧ (smd = old ∨ smd = new.withCrc)) ↔
      (SlotMetaData.ofBytes (afterCut qspi copy cut new storage).primary = old ∨
        SlotMetaData.ofBytes (afterCut qspi copy cut new storage).primary = new.withCrc ∨
        (SlotMetaData.ofBytes (afterCut qspi copy cut new storage).primary).CrcProtected) := by
  have oldAccepted : old.Accepted := fun _ => valid.2
  rw [tegrablABGetSmd_working]
  by_cases isOld : SlotMetaData.ofBytes (afterCut qspi copy cut new storage).primary = old
  · simp [isOld, oldAccepted]
  by_cases isNew : SlotMetaData.ofBytes (afterCut qspi copy cut new storage).primary = new.withCrc
  · simp [isNew, new.withCrc_accepted]
  by_cases protects :
      (SlotMetaData.ofBytes (afterCut qspi copy cut new storage).primary).CrcProtected
  · have rejected :
        ¬ (SlotMetaData.ofBytes (afterCut qspi copy cut new storage).primary).Accepted := by
      intro accepted
      apply detects isOld isNew
      rw [← SlotMetaData.payload_ofBytes]
      exact accepted protects
    have backup : SlotMetaData.ofBytes (afterCut qspi copy cut new storage).secondary = old := by
      cases copy with
      | primary =>
        rcases afterCut_primary qspi cut new storage with same | written
        · rw [same, holds.2]
        · exact absurd written isNew
      | secondary => exact absurd (afterCut_secondary qspi cut new storage) isNew
    simp [rejected, backup, oldAccepted, protects]
  · have accepted : (SlotMetaData.ofBytes (afterCut qspi copy cut new storage).primary).Accepted :=
      fun asks => absurd asks protects
    simp [accepted, isOld, isNew, protects]

/-- Both copies hold valid metadata; a cut in the write of the primary copy leaves zeros, whose
version field asks for no checksum. The checksum of the zeros is wrong, the boot accepts them. -/
theorem get_after_powerCut_torn :
    (SlotMetaData.twoSlots 2 15 14).withCrc.CrcProtected ∧
      SlotMetaData.ofBytes (SmdStorage.holding (SlotMetaData.twoSlots 2 15 14).withCrc).primary =
        (SlotMetaData.twoSlots 2 15 14).withCrc ∧
      SlotMetaData.ofBytes (SmdStorage.holding (SlotMetaData.twoSlots 2 15 14).withCrc).secondary =
        (SlotMetaData.twoSlots 2 15 14).withCrc ∧
      CrcDetects (SlotMetaData.twoSlots 2 15 14).withCrc (SlotMetaData.twoSlots 2 14 15).withCrc
        (fun _ => 0) ∧
      (tegrablABGetSmd (.working false) none
        (afterCut false .primary (.duringWrite fun _ => 0) (.twoSlots 2 14 15)
          (.holding (SlotMetaData.twoSlots 2 15 14).withCrc))).1 =
        .ok (SlotMetaData.ofBytes fun _ => 0) ∧
      (SlotMetaData.ofBytes fun _ => 0) ≠ (SlotMetaData.twoSlots 2 15 14).withCrc ∧
      (SlotMetaData.ofBytes fun _ => 0) ≠ (SlotMetaData.twoSlots 2 14 15).withCrc := by
  refine ⟨by decide, SlotMetaData.ofBytes_store _ _, SlotMetaData.ofBytes_store _ _, ?_,
    by decide +kernel, by decide, by decide⟩
  intro _ _
  decide +kernel

/-- A cut in the erase of the primary copy that leaves a torn copy of a version with a checksum: the
old metadata is read from the secondary copy. -/
theorem get_after_powerCut_erase :
    CrcDetects (SlotMetaData.twoSlots 2 15 14).withCrc (SlotMetaData.twoSlots 2 14 15).withCrc
        (fun _ => 2) ∧
      ∃ smd, (tegrablABGetSmd (.working true) none
        (afterCut true .primary (.duringErase fun _ => 2) (.twoSlots 2 14 15)
          (.holding (SlotMetaData.twoSlots 2 15 14).withCrc))).1 = .ok smd ∧
        (smd = (SlotMetaData.twoSlots 2 15 14).withCrc ∨
          smd = (SlotMetaData.twoSlots 2 14 15).withCrc) := by
  have detects : CrcDetects (SlotMetaData.twoSlots 2 15 14).withCrc
      (SlotMetaData.twoSlots 2 14 15).withCrc (fun _ => 2) := by
    intro _ _
    decide +kernel
  have protects : (SlotMetaData.ofBytes fun _ => 2).CrcProtected := by decide
  exact ⟨detects, (get_after_powerCut_iff true .primary (.duringErase fun _ => 2)
    (SlotMetaData.twoSlots 2 15 14).withCrc (.twoSlots 2 14 15)
    (.holding (SlotMetaData.twoSlots 2 15 14).withCrc)
    ⟨SlotMetaData.ofBytes_store _ _, SlotMetaData.ofBytes_store _ _⟩
    ⟨by decide, SlotMetaData.withCrc_accepted _ (by decide)⟩ detects).mpr (.inr (.inr protects))⟩

end Cboot.ABBoot
