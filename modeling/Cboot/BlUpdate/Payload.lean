/-
**Updating the bootloader from a payload.**

`tegrabl_check_and_update_bl_payload` goes over the entries of an update payload and writes each of
them to its partition: to the partition of the slot that is updated if the partition has slots, and
to those of the other slots as well if all slots have to be updated. Slot A has the partitions
without a suffix, slot B those with the suffix `_b`. On QSPI flash a partition is erased first.

The state records every erase and every write of a partition in `effects`, whether it succeeds or
not, in `written` the writes that succeed, with the entry that they are for, and in `missed` the
names that were passed over because there was no specification of the platform. The payload, the
results of the storage and of the allocator, the platform and the callbacks are inputs; an entry of
the payload or its data may also be an error, and what can fail may fail at one call and not at the
next.
-/

import Cboot.PartitionManager.Lookup

namespace Cboot.BlUpdate

open Prog PartitionManager

/-! ### Payload and platform -/

structure ImageEntry where
  partname : List Byte
  imageSize : Nat
  opMode : Nat
  specInfo : List Byte

structure Blob where
  init : Result Unit
  size : Nat
  isUpdate : Bool
  numEntries : Nat
  getEntry : Nat → Result ImageEntry
  getEntryData : Nat → Result (Nat × Nat)

/-- `struct tegrabl_bl_update_callbacks`; the two functions on suffixes are set together, and
`suffixFault` is whether a call of one of them fails. The callback for the BCT is the result of its
update of the customer data. -/
structure Callbacks (σ : Type) where
  verifyPayload : Option (Result Unit)
  updateBct : Option (σ → Result Unit × σ)
  getSlotNum : Option (σ → Result Nat × σ)
  hasSlotSuffix : Bool
  suffixFault : σ → Result Unit × σ
  isRatchetUpdateRequired : Option (Result Bool)
  isAlwaysAbPartition : Option (List Byte → Bool)

structure Target where
  bdev : Nat
  name : List Byte

inductive EffectKind
  | erase
  | write
  deriving DecidableEq, Repr

structure Effect where
  kind : EffectKind
  target : Target

structure Written where
  entry : Nat
  target : Target
  data : Nat
  size : Nat

/-- The storage and the platform: the partitions, which devices are QSPI flash, the results of the
operations and of the allocator, the specification of the platform and whether it can be read, and
what the fuses say. -/
structure Platform (σ : Type) where
  storage : StorageList
  isQspi : Nat → Bool
  erase : Target → σ → Result Unit × σ
  write : Target → Nat → Nat → σ → Result Unit × σ
  alloc : Nat → σ → Bool × σ
  specInfo : List Byte
  nctGetSpec : σ → Result Unit × σ
  opMode : Nat

/-- The effects, the list of updated partitions, the variables `is_new_bup_checked` and
`is_required`, and whether `global_nct_spec` has been read; the entry that is being used, the writes
that have succeeded and the names that were passed over. -/
structure UpdateState (σ : Type) where
  world : σ
  effects : List Effect
  updated : List (List Byte)
  isNewBupChecked : Bool
  isRequired : Bool
  specKnown : Bool
  entry : Nat
  written : List Written
  missed : List (List Byte)

def updateError {α : Type} (reason : ErrReason) (auxInfo : Nat) : Result α :=
  tegrablError .bootloaderUpdate reason auxInfo

/-! ### Names -/

def bootChainSuffixB : List Byte := [0x5F, 0x62]

def brBctPartitionName : List Byte := [0x42, 0x43, 0x54]

def mb2BlPartitionName : List Byte := [0x6D, 0x62, 0x32]

def mb1PartitionName : List Byte := [0x6D, 0x62, 0x31]

def gptPartNameLen : Nat := 36

def nctMaxSpecLength : Nat := 64

def sameName (n : Nat) (s t : List Byte) : Bool := s.take n == t.take n

def updateSequence : List (List Byte × List Byte) :=
  [(brBctPartitionName, mb2BlPartitionName), (mb1PartitionName, brBctPartitionName)]

def getDependency (partName : List Byte) : Option (List Byte) :=
  (updateSequence.find? fun row => sameName gptPartNameLen partName row.1).map Prod.snd

def tegrablABGetSlotViaSuffix (suffix : List Byte) : Result Nat :=
  if suffix = [] ∨ suffix = bootChainSuffixA then .ok 0
  else if suffix = bootChainSuffixB then .ok 1
  else tegrablError .abBootctrl .invalid 0

def getFullPartName {σ : Type} (cbs : Callbacks σ) (slot : Nat) (partName : List Byte) : List Byte :=
  let copy := partName.take (gptPartNameLen - 1)
  if cbs.hasSlotSuffix = false then copy else if slot = 0 then copy else copy ++ bootChainSuffixB

section Model

variable {σ : Type} (platform : Platform σ) (cbs : Callbacks σ)

/-! ### Callbacks -/

def callback {α : Type} (f : σ → Result α × σ) : Prog ErrorValue (UpdateState σ) α := fun s =>
  let out := f s.world
  some (out.1, { s with world := out.2 })

def callbackOr {α : Type} : Option (σ → Result α × σ) → Prog ErrorValue (UpdateState σ) α
  | none => ofResult (updateError .notSupported 0)
  | some f => callback f

def suffixCall : Prog ErrorValue (UpdateState σ) Unit :=
  if cbs.hasSlotSuffix = false then return () else callback cbs.suffixFault

def getSlotViaSuffix (suffix : List Byte) : Prog ErrorValue (UpdateState σ) Nat :=
  if cbs.hasSlotSuffix = false then ofResult (updateError .notSupported 0)
  else do
    callback cbs.suffixFault
    ofResult (tegrablABGetSlotViaSuffix suffix)

/-! ### Operations on partitions -/

def openPartition (name : List Byte) : Result Target :=
  match tegrablPartitionOpen (some platform.storage) name none with
  | (.ok (), some handle) =>
    match handle.array[handle.index]? with
    | some p => .ok ⟨handle.blockDevice, cString p.name⟩
    | none => managerError .notFound 0
  | (.error e, _) => .error e
  | (.ok (), none) => managerError .notFound 0

def erasePartition (target : Target) : Prog ErrorValue (UpdateState σ) Unit := fun s =>
  let out := platform.erase target s.world
  some (out.1, { s with world := out.2, effects := s.effects ++ [⟨.erase, target⟩] })

def writeToPartition (target : Target) (data size : Nat) : Prog ErrorValue (UpdateState σ) Unit := fun s =>
  let out := platform.write target data size s.world
  some (out.1, { s with
    world := out.2
    effects := s.effects ++ [⟨.write, target⟩]
    written := if out.1.isOk then s.written ++ [⟨s.entry, target, data, size⟩] else s.written })

def allocate (size : Nat) : Prog ErrorValue (UpdateState σ) Unit := fun s =>
  let out := platform.alloc size s.world
  some (if out.1 then .ok () else updateError .noMemory 0, { s with world := out.2 })

def eraseOnQspi (target : Target) : Prog ErrorValue (UpdateState σ) Unit :=
  if platform.isQspi target.bdev then
    recover (erasePartition platform target) fun error => fail (setHighestModule .bootloaderUpdate error)
  else return ()

def updateBct (customerData : σ → Result Unit × σ) (data size : Nat) :
    Prog ErrorValue (UpdateState σ) Unit := do
  callback customerData
  let target ← ofResult (openPartition platform brBctPartitionName)
  writeToPartition platform target data size

def writePartition (partName : List Byte) (data size : Nat) : Prog ErrorValue (UpdateState σ) Unit := do
  let target ← ofResult (openPartition platform partName)
  eraseOnQspi platform target
  match brBctPartitionName.isPrefixOf partName, cbs.updateBct with
  | true, some customerData => updateBct platform customerData data size
  | _, _ => writeToPartition platform target data size

/-! ### Slots -/

def storeRequired (required : Bool) : Prog ErrorValue (UpdateState σ) Bool := do
  modify fun s => { s with isNewBupChecked := true, isRequired := required }
  return required

def isUpdateAllSlotsRequired (blob : Bool) : Prog ErrorValue (UpdateState σ) Bool := do
  let s ← read
  if s.isNewBupChecked then return s.isRequired
  else match cbs.isRatchetUpdateRequired with
    | none => storeRequired false
    | some (.error _) => if blob = false then stuck else storeRequired false
    | some (.ok required) => if blob = false then stuck else storeRequired required

def alwaysAbPartition (partName : List Byte) : Result Bool :=
  match cbs.isAlwaysAbPartition with
  | none => updateError .notSupported 0
  | some isAlways => .ok (isAlways partName)

def partitionHasSlot (partName : List Byte) : Bool :=
  match openPartition platform (getFullPartName cbs 1 partName) with
  | .ok _ => true
  | .error _ => false

def writeOtherSlots (partName : List Byte) (data size updateSlot : Nat) :
    List Nat → Prog ErrorValue (UpdateState σ) Unit
  | [] => return ()
  | i :: rest =>
    if i = updateSlot then writeOtherSlots partName data size updateSlot rest
    else do
      suffixCall cbs
      writePartition platform cbs (getFullPartName cbs i partName) data size
      writeOtherSlots partName data size updateSlot rest

def writeABPartition (updateSlotSuffix partName : List Byte) (data size : Nat) :
    Prog ErrorValue (UpdateState σ) Unit := do
  let updateSlot ← getSlotViaSuffix cbs updateSlotSuffix
  suffixCall cbs
  if partitionHasSlot platform cbs partName = false then
    writePartition platform cbs partName data size
  else do
    suffixCall cbs
    writePartition platform cbs (getFullPartName cbs updateSlot partName) data size
    let numSlots ← callbackOr cbs.getSlotNum
    if numSlots = 1 then return ()
    else do
      let alwaysAb ← ofResult (alwaysAbPartition cbs partName)
      let all ← isUpdateAllSlotsRequired cbs false
      if all || alwaysAb then
        writeOtherSlots platform cbs partName data size updateSlot (List.range numSlots)
      else return ()

/-! ### Entries -/

variable (blob : Blob) (updateSlotSuffix : List Byte)

def ImageEntry.isFor (entry : ImageEntry) (specInfo : List Byte) (opMode : Nat) : Bool :=
  (entry.specInfo == [] || sameName nctMaxSpecLength entry.specInfo specInfo) &&
    (entry.opMode == 0 || entry.opMode - 1 == opMode)

def updateFrom (i : Nat) (entry : ImageEntry) : Prog ErrorValue (UpdateState σ) Unit := do
  modify fun s => { s with entry := i }
  let (data, size) ← ofResult (blob.getEntryData i)
  let target ← ofResult (openPartition platform entry.partname)
  eraseOnQspi platform target
  (if data % 8 ≠ 0 then allocate platform size else pure ())
  writeABPartition platform cbs updateSlotSuffix entry.partname data entry.imageSize

def updateLoop (specInfo partName : List Byte) : List Nat → Prog ErrorValue (UpdateState σ) Unit
  | [] => return ()
  | i :: rest => do
    let entry ← ofResult (blob.getEntry i)
    if sameName gptPartNameLen entry.partname partName && entry.isFor specInfo platform.opMode then
      updateFrom platform cbs blob updateSlotSuffix i entry
    else updateLoop specInfo partName rest

def getSpecInfo : Prog ErrorValue (UpdateState σ) Unit := do
  let s ← read
  if s.specKnown then return ()
  else do
    callback platform.nctGetSpec
    modify fun s => { s with specKnown := true }

def specFor (partName : List Byte) : Prog ErrorValue (UpdateState σ) Bool :=
  recover (do getSpecInfo platform; return true) fun _ => do
    modify fun s => { s with missed := partName :: s.missed }
    return false

def updatePartition (partName : List Byte) : Prog ErrorValue (UpdateState σ) Unit := do
  let known ← specFor platform partName
  if known then
    updateLoop platform cbs blob updateSlotSuffix platform.specInfo partName
      (List.range blob.numEntries)
  else return ()

def updatePartitionRecursive : Nat → List Byte → Prog ErrorValue (UpdateState σ) Unit
  | 0, _ => stuck
  | depth + 1, partName => do
    let s ← read
    if s.updated.any (sameName gptPartNameLen partName) then return ()
    else do
      (match getDependency partName with
        | some dependency => updatePartitionRecursive depth dependency
        | none => pure ())
      updatePartition platform cbs blob updateSlotSuffix partName
      allocate platform 16
      modify fun s => { s with updated := partName :: s.updated }

def updateEntries : List Nat → Result Unit → Prog ErrorValue (UpdateState σ) Unit
  | [], status => ofResult status
  | i :: rest, _ =>
    match blob.getEntry i with
    | .error e => updateEntries rest (.error e)
    | .ok entry => do
      updatePartitionRecursive platform cbs blob updateSlotSuffix 3 entry.partname
      updateEntries rest (.ok ())

def entryRounds (rounds : Nat) : List Nat :=
  if blob.numEntries < 256 then List.range blob.numEntries else (List.range rounds).map (· % 256)

def tegrablCheckAndUpdateBlPayload (size rounds : Nat) : Prog ErrorValue (UpdateState σ) Unit :=
  match blob.init with
  | .error e => if e.reason = .invalid then return () else fail e
  | .ok () =>
    if size < blob.size then ofResult (updateError .invalid 0)
    else always (do
        ofResult (cbs.verifyPayload.getD (.ok ()))
        if blob.isUpdate = false then return ()
        else do
          let _ ← isUpdateAllSlotsRequired cbs true
          if blob.numEntries = 0 then ofResult (updateError .notFound 0)
          else do
            updateEntries platform cbs blob updateSlotSuffix (entryRounds blob rounds) (.ok ())
            modify fun s => { s with isNewBupChecked := false })
      fun s => some { s with updated := [] }

end Model

theorem getDependency_chain {first second third : List Byte}
    (one : getDependency first = some second) (two : getDependency second = some third) :
    getDependency third = none := by
  have names : second = mb2BlPartitionName ∨ second = brBctPartitionName := by
    obtain ⟨row, found, rfl⟩ := Option.map_eq_some_iff.mp one
    rcases List.mem_cons.mp (List.mem_of_find?_eq_some found) with rfl | member
    · exact .inl rfl
    · exact .inr (congrArg Prod.snd (List.mem_singleton.mp member))
  rcases names with rfl | rfl
  · cases two
  · obtain rfl : mb2BlPartitionName = third := Option.some.inj two
    rfl

end Cboot.BlUpdate
