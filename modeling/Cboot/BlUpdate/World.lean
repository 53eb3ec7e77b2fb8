/-
**A walk through an update.**

What the steps of an update keep is kept by the whole update, and the update ends: the assertion in
`is_update_all_slots_required` is behind the flag that the update sets first, and the chain of
dependencies is short enough. The steps are the operations on the partitions that may be touched, the
callbacks and the allocator (`Walk`).

* `payload_world`: what the storage, the allocator and the callbacks keep of their own state.
-/

import Cboot.BlUpdate.Traversal
import Cboot.Lib.Total

namespace Cboot.BlUpdate

open Prog PartitionManager

/-! ### The question -/

section Question

variable {σ : Type} {cbs : Callbacks σ} {blob : Blob}

def answer (cbs : Callbacks σ) : Bool :=
  match cbs.isRatchetUpdateRequired with
  | some (.ok required) => required
  | _ => false

def decision (cbs : Callbacks σ) (s : UpdateState σ) : Bool :=
  if s.isNewBupChecked then s.isRequired else answer cbs

def asked (cbs : Callbacks σ) (s : UpdateState σ) : UpdateState σ :=
  { s with isNewBupChecked := true, isRequired := decision cbs s }

def asks (cbs : Callbacks σ) (blob : Blob) (size : Nat) : Bool :=
  match blob.init, cbs.verifyPayload.getD (.ok ()) with
  | .ok (), .ok () => decide (blob.size ≤ size) && blob.isUpdate
  | _, _ => false

theorem question_run (s : UpdateState σ) :
    isUpdateAllSlotsRequired cbs true s = some (.ok (decision cbs s), asked cbs s) := by
  unfold isUpdateAllSlotsRequired decision asked answer
  rw [read_bind]
  by_cases checked : s.isNewBupChecked = true
  · simp only [decision, checked, if_true]
    cases s
    cases checked
    rfl
  · simp only [decision, answer, checked]
    rcases cbs.isRatchetUpdateRequired with _ | _ | required <;> rfl

def afterQuestion (blob : Blob) (entries : Prog ErrorValue (UpdateState σ) Unit) :
    Prog ErrorValue (UpdateState σ) Unit :=
  always (if blob.numEntries = 0 then ofResult (updateError .notFound 0)
    else do
      entries
      modify fun s => { s with isNewBupChecked := false })
    fun s => some { s with updated := [] }

variable {size : Nat} {entries : Prog ErrorValue (UpdateState σ) Unit}

theorem around_cases (s : UpdateState σ) :
    asks cbs blob size = true ∧
      aroundEntries cbs blob (fun p => p) (fun s => { s with updated := [] }) size entries s =
        afterQuestion blob entries (asked cbs s) ∨
    asks cbs blob size = false ∧ ∃ result updated,
      aroundEntries cbs blob (fun p => p) (fun s => { s with updated := [] }) size entries s =
        some (result, { s with updated }) := by
  unfold asks aroundEntries
  cases blob.init with
  | error e =>
    refine .inr ⟨rfl, ?_⟩
    dsimp only
    split
    · exact ⟨_, s.updated, rfl⟩
    · exact ⟨_, s.updated, rfl⟩
  | ok _ =>
    dsimp only
    by_cases short : size < blob.size
    · rw [if_pos short, decide_eq_false (Nat.not_le.mpr short)]
      exact .inr ⟨by split <;> rfl, _, s.updated, rfl⟩
    · rw [if_neg short, decide_eq_true (Nat.not_lt.mp short)]
      cases cbs.verifyPayload.getD (.ok ()) with
      | error e => exact .inr ⟨rfl, _, [], rfl⟩
      | ok _ =>
        cases blob.isUpdate with
        | false => exact .inr ⟨rfl, _, [], rfl⟩
        | true =>
          refine .inl ⟨rfl, ?_⟩
          have start : ∀ rest : Bool → Prog ErrorValue (UpdateState σ) Unit,
              (isUpdateAllSlotsRequired cbs true >>= rest) s = rest _ (asked cbs s) :=
            bind_ok (question_run s)
          exact congrArg (Option.bind · _) (start _)

theorem around_asked (accepted : asks cbs blob size = true) (s : UpdateState σ) :
    aroundEntries cbs blob (fun p => p) (fun s => { s with updated := [] }) size entries s =
      afterQuestion blob entries (asked cbs s) := by
  rcases around_cases s with ⟨-, same⟩ | ⟨refused, -⟩
  · exact same
  · cases accepted.symm.trans refused

theorem afterQuestion_total {inv post err : UpdateState σ → Prop} (loop : TotalKeeps inv entries)
    (done : ∀ s, inv s → post { s with isNewBupChecked := false, updated := [] })
    (failed : ∀ s, inv s → err { s with updated := [] }) :
    Total inv (afterQuestion blob entries) (fun _ => post) err := by
  refine Total.always (?_ : Total inv _ (fun _ s => post { s with updated := [] }) inv)
    (fun _ _ => id) failed
  exact Total.ite (fun _ => Total.fail fun _ => id) fun _ => loop.bind fun _ =>
    Total.modify done

end Question

/-! ### The steps -/

section Walk

variable {σ : Type} {platform : Platform σ} {cbs : Callbacks σ} {blob : Blob} {suffix : List Byte}
  {inv : UpdateState σ → Prop} {touch : Target → Prop}

def EntryData (blob : Blob) (data size : Nat) : Prop :=
  ∃ i entry length, i < blob.numEntries ∧ blob.getEntry i = .ok entry ∧
    blob.getEntryData i = .ok (data, length) ∧ size = entry.imageSize

structure Walk (platform : Platform σ) (cbs : Callbacks σ) (blob : Blob) (suffix : List Byte)
    (inv : UpdateState σ → Prop) (touch : Target → Prop) : Prop where
  known : ∀ s, inv s → s.isNewBupChecked = true
  note : ∀ s entry specKnown missed updated, inv s → inv { s with entry, specKnown, missed, updated }
  erase : ∀ target, touch target → TotalKeeps inv (erasePartition platform target)
  write : ∀ target data size, touch target → EntryData blob data size →
    TotalKeeps inv (writeToPartition platform target data size)
  alloc : ∀ size, TotalKeeps inv (allocate platform size)
  spec : TotalKeeps inv (callback platform.nctGetSpec)
  bct : ∀ f, cbs.updateBct = some f → TotalKeeps inv (callback f)
  slotNum : ∀ f, cbs.getSlotNum = some f → TotalKeeps inv (callback f)
  fault : TotalKeeps inv (callback cbs.suffixFault)
  onQspi : ∀ i entry target, blob.getEntry i = .ok entry →
    openPartition platform entry.partname = .ok target → platform.isQspi target.bdev = true →
    touch target
  alone : ∀ i entry target, blob.getEntry i = .ok entry → cbs.hasSlotSuffix = true →
    partitionHasSlot platform cbs entry.partname = false →
    openPartition platform entry.partname = .ok target → touch target
  ofSlot : ∀ i entry slot target, blob.getEntry i = .ok entry → cbs.hasSlotSuffix = true →
    tegrablABGetSlotViaSuffix suffix = .ok slot →
    openPartition platform (getFullPartName cbs slot entry.partname) = .ok target → touch target
  others : ∀ i entry always slot target s, blob.getEntry i = .ok entry →
    alwaysAbPartition cbs entry.partname = .ok always → inv s → (s.isRequired || always) = true →
    openPartition platform (getFullPartName cbs slot entry.partname) = .ok target → touch target
  ofBct : ∀ target, cbs.updateBct ≠ none → openPartition platform brBctPartitionName = .ok target →
    touch target

variable (walk : Walk platform cbs blob suffix inv touch)

theorem result_walk {α : Type} {result : Result α} :
    TotalKeeps inv (ofResult result : Prog ErrorValue (UpdateState σ) α) :=
  Total.ofResult (fun _ _ => id) fun _ => id

include walk

theorem suffixCall_walk : TotalKeeps inv (suffixCall cbs) :=
  Total.ite (fun _ => TotalKeeps.pure) fun _ => walk.fault

theorem getSlotViaSuffix_walk : Total inv (getSlotViaSuffix cbs suffix)
    (fun slot s => (cbs.hasSlotSuffix = true ∧ tegrablABGetSlotViaSuffix suffix = .ok slot) ∧ inv s)
    inv := by
  refine Total.ite (fun _ => Total.fail fun _ => id) fun set => walk.fault.bind fun _ => ?_
  cases tegrablABGetSlotViaSuffix suffix with
  | error e => exact Total.fail fun _ => id
  | ok slot => exact Total.pure fun _ holds => ⟨⟨Bool.eq_true_of_not_eq_false set, rfl⟩, holds⟩

theorem isUpdateAllSlotsRequired_walk (isBlob : Bool) : Total inv
    (isUpdateAllSlotsRequired cbs isBlob) (fun all s => inv s ∧ all = s.isRequired) inv := by
  refine Total.readThen fun s holds => ?_
  rw [if_pos (walk.known s holds)]
  refine Total.pure ?_
  rintro _ rfl
  exact ⟨holds, rfl⟩

theorem eraseOnQspi_walk {target : Target}
    (may : platform.isQspi target.bdev = true → touch target) :
    TotalKeeps inv (eraseOnQspi platform target) :=
  Total.ite (fun qspi => (walk.erase target (may qspi)).recover fun _ => result_walk) fun _ =>
    TotalKeeps.pure

section Data

variable {data size : Nat} (ofEntry : EntryData blob data size) {partName : List Byte}

include ofEntry

theorem writePartition_walk
    (may : ∀ target, openPartition platform partName = .ok target → touch target) :
    TotalKeeps inv (writePartition platform cbs partName data size) := by
  refine Total.ofResultThen (fun _ => id) fun target opened => ?_
  refine (eraseOnQspi_walk walk fun _ => may target opened).bind fun _ => ?_
  split
  · next customerData _ set =>
    refine (walk.bct customerData set).bind fun _ => ?_
    refine Total.ofResultThen (fun _ => id) fun bct found => walk.write bct _ _ ?_ ofEntry
    exact walk.ofBct bct (set ▸ Option.some_ne_none _) found
  · exact walk.write target _ _ (may target opened) ofEntry

theorem writeOtherSlots_walk (updateSlot : Nat) (slots : List Nat)
    (may : ∀ slot target, openPartition platform (getFullPartName cbs slot partName) = .ok target →
      touch target) :
    TotalKeeps inv (writeOtherSlots platform cbs partName data size updateSlot slots) := by
  induction slots with
  | nil => exact TotalKeeps.pure
  | cons i rest ih =>
    refine Total.ite (fun _ => ih) fun _ => ?_
    refine (suffixCall_walk walk).bind fun _ => ?_
    exact (writePartition_walk walk ofEntry (may i)).bind fun _ => ih

theorem writeABPartition_walk {i : Nat} {entry : ImageEntry} (found : blob.getEntry i = .ok entry) :
    TotalKeeps inv (writeABPartition platform cbs suffix entry.partname data size) := by
  refine (getSlotViaSuffix_walk walk).bind fun slot => Total.fact fun ⟨set, isSlot⟩ => ?_
  refine (suffixCall_walk walk).bind fun _ => Total.ite (fun lone => ?_) fun _ => ?_
  · exact writePartition_walk walk ofEntry fun target => walk.alone i entry target found set lone
  refine (suffixCall_walk walk).bind fun _ => ?_
  refine (writePartition_walk walk ofEntry fun target =>
    walk.ofSlot i entry slot target found set isSlot).bind fun _ => ?_
  have slotNum : TotalKeeps inv (callbackOr cbs.getSlotNum) := by
    cases set : cbs.getSlotNum with
    | none => exact result_walk
    | some f => exact walk.slotNum f set
  refine slotNum.bind fun numSlots => Total.ite (fun _ => TotalKeeps.pure) fun _ => ?_
  refine Total.ofResultThen (fun _ => id) fun always isAlways => ?_
  refine (isUpdateAllSlotsRequired_walk walk false).bind fun all => ?_
  refine Total.ite (fun wanted => ?_) fun _ => Total.pure fun _ holds => holds.1
  rintro s ⟨holds, rfl⟩
  exact writeOtherSlots_walk walk ofEntry _ _ (fun other target =>
    walk.others i entry always other target s found isAlways holds wanted) s holds

end Data

theorem updateFrom_walk {i : Nat} {entry : ImageEntry} (inside : i < blob.numEntries)
    (found : blob.getEntry i = .ok entry) :
    TotalKeeps inv (updateFrom platform cbs blob suffix i entry) := by
  refine Total.modifyThen (fun s => walk.note s _ _ _ _) (Total.ofResultThen (fun _ => id) ?_)
  rintro ⟨data, length⟩ located
  refine Total.ofResultThen (fun _ => id) fun target opened => ?_
  refine (eraseOnQspi_walk walk (walk.onQspi i entry target found opened)).bind fun _ => ?_
  have aligned : TotalKeeps inv (if data % 8 ≠ 0 then allocate platform length else pure ()) :=
    Total.ite (fun _ => walk.alloc length) fun _ => TotalKeeps.pure
  exact aligned.bind fun _ =>
    writeABPartition_walk walk ⟨i, entry, length, inside, found, located, rfl⟩ found

theorem updateLoop_walk (specInfo partName : List Byte) (indices : List Nat)
    (inside : ∀ i ∈ indices, i < blob.numEntries) :
    TotalKeeps inv (updateLoop platform cbs blob suffix specInfo partName indices) := by
  induction indices with
  | nil => exact TotalKeeps.pure
  | cons i rest ih =>
    have here := inside i (.head _)
    have later := ih fun j member => inside j (.tail i member)
    refine Total.ofResultThen (fun _ => id) fun entry found => ?_
    exact Total.ite (fun _ => updateFrom_walk walk here found) fun _ => later

theorem updatePartition_walk (partName : List Byte) :
    TotalKeeps inv (updatePartition platform cbs blob suffix partName) := by
  have read : TotalKeeps inv (getSpecInfo platform) := by
    refine Total.readThen fun s holds => Total.ite (fun _ => Total.pure fun _ same => same ▸ holds)
      fun _ => Total.mono (walk.spec.bind fun _ => Total.modify fun s => walk.note s _ _ _ _)
        (fun _ same => same ▸ holds) (fun _ _ => id) fun _ => id
  have spec : TotalKeeps inv (specFor platform partName) :=
    Total.recover (read.bind fun _ => TotalKeeps.pure) fun _ =>
      Total.modifyThen (fun s => walk.note s _ _ _ _) TotalKeeps.pure
  refine spec.bind fun known => Total.ite (fun _ => ?_) fun _ => TotalKeeps.pure
  exact updateLoop_walk walk _ _ _ fun i member => List.mem_range.mp member

def Settles : Nat → List Byte → Prop
  | 0, _ => False
  | depth + 1, name => ∀ dependency, getDependency name = some dependency → Settles depth dependency

omit walk in
theorem settles_three (name : List Byte) : Settles 3 name := by
  intro second one third two fourth three
  rw [getDependency_chain one two] at three
  cases three

theorem updatePartitionRecursive_walk (depth : Nat) (name : List Byte) (settles : Settles depth name) :
    TotalKeeps inv (updatePartitionRecursive platform cbs blob suffix depth name) := by
  induction depth generalizing name with
  | zero => exact settles.elim
  | succ depth ih =>
    refine Total.readThen fun s holds => ?_
    refine Total.ite (fun _ => Total.pure fun _ same => same ▸ holds) fun _ => ?_
    refine Total.mono (Total.bind ?_ fun _ => (updatePartition_walk walk name).bind fun _ =>
      (walk.alloc 16).bind fun _ => Total.modify fun s => walk.note s _ _ _ _)
      (fun _ same => same ▸ holds) (fun _ _ => id) fun _ => id
    split
    · next dependency found => exact ih dependency (settles dependency found)
    · exact TotalKeeps.pure

theorem updateEntries_walk (indices : List Nat) (status : Result Unit) :
    TotalKeeps inv (updateEntries platform cbs blob suffix indices status) := by
  induction indices generalizing status with
  | nil => exact result_walk
  | cons i rest ih =>
    rw [updateEntries]
    split
    · exact ih _
    · exact (updatePartitionRecursive_walk walk 3 _ (settles_three _)).bind fun _ => ih _

theorem payload_walk (good : UpdateState σ → Prop) {size : Nat} (rounds : Nat) {s : UpdateState σ}
    (start : inv (asked cbs s)) (early : ∀ updated, good { s with updated })
    (done : ∀ s, inv s → good { s with isNewBupChecked := false, updated := [] })
    (failed : ∀ s, inv s → good { s with updated := [] }) :
    ∃ x, tegrablCheckAndUpdateBlPayload platform cbs blob suffix size rounds s = some x ∧ good x.2 := by
  rw [payload_eq]
  rcases around_cases s with ⟨-, same⟩ | ⟨-, result, updated, same⟩
  · obtain ⟨⟨result, s'⟩, ran, ended⟩ :=
      afterQuestion_total (updateEntries_walk walk _ _) done failed _ start
    refine ⟨(result, s'), same.trans ran, ?_⟩
    cases result with
    | ok _ | error e => exact ended
  · exact ⟨_, same, early updated⟩

end Walk

/-! ### The world -/

section World

variable {σ : Type} {platform : Platform σ} {cbs : Callbacks σ} {blob : Blob} {suffix : List Byte}
  {inv : σ → Prop}

structure WorldKept (platform : Platform σ) (cbs : Callbacks σ) (blob : Blob) (inv : σ → Prop) :
    Prop where
  erase : ∀ target world, inv world → inv (platform.erase target world).2
  write : ∀ target data size world, EntryData blob data size → inv world →
    inv (platform.write target data size world).2
  alloc : ∀ size world, inv world → inv (platform.alloc size world).2
  spec : ∀ world, inv world → inv (platform.nctGetSpec world).2
  bct : ∀ f, cbs.updateBct = some f → ∀ world, inv world → inv (f world).2
  slotNum : ∀ f, cbs.getSlotNum = some f → ∀ world, inv world → inv (f world).2
  fault : ∀ world, inv world → inv (cbs.suffixFault world).2

def Worldly (inv : σ → Prop) (s : UpdateState σ) : Prop := inv s.world ∧ s.isNewBupChecked = true

def Known (inv : σ → Prop) (required : Bool) (s : UpdateState σ) : Prop :=
  Worldly inv s ∧ s.isRequired = required

theorem WorldKept.walk (kept : WorldKept platform cbs blob inv) (required : Bool) :
    Walk platform cbs blob suffix (Known inv required) fun _ => True where
  known _ holds := holds.1.2
  note _ _ _ _ _ holds := holds
  erase _ _ := TotalKeeps.step fun _ holds => ⟨⟨kept.erase _ _ holds.1.1, holds.1.2⟩, holds.2⟩
  write _ _ _ _ data := TotalKeeps.step fun _ holds =>
    ⟨⟨kept.write _ _ _ _ data holds.1.1, holds.1.2⟩, holds.2⟩
  alloc _ := TotalKeeps.step fun _ holds => ⟨⟨kept.alloc _ _ holds.1.1, holds.1.2⟩, holds.2⟩
  spec := TotalKeeps.step fun _ holds => ⟨⟨kept.spec _ holds.1.1, holds.1.2⟩, holds.2⟩
  bct f set := TotalKeeps.step fun _ holds => ⟨⟨kept.bct f set _ holds.1.1, holds.1.2⟩, holds.2⟩
  slotNum f set := TotalKeeps.step fun _ holds =>
    ⟨⟨kept.slotNum f set _ holds.1.1, holds.1.2⟩, holds.2⟩
  fault := TotalKeeps.step fun _ holds => ⟨⟨kept.fault _ holds.1.1, holds.1.2⟩, holds.2⟩
  onQspi _ _ _ _ _ _ := trivial
  alone _ _ _ _ _ _ _ := trivial
  ofSlot _ _ _ _ _ _ _ _ := trivial
  others _ _ _ _ _ _ _ _ _ _ _ := trivial
  ofBct _ _ _ := trivial

theorem payload_world (kept : WorldKept platform cbs blob inv) (size rounds : Nat) :
    TotalKeeps (fun s : UpdateState σ => inv s.world)
      (tegrablCheckAndUpdateBlPayload platform cbs blob suffix size rounds) := by
  intro s holds
  obtain ⟨⟨result, s'⟩, ran, ended⟩ := payload_walk (kept.walk (decision cbs s))
    (fun s => inv s.world) rounds ⟨⟨holds, rfl⟩, rfl⟩ (fun _ => holds)
    (fun _ known => known.1.1) fun _ known => known.1.1
  refine ⟨(result, s'), ran, ?_⟩
  cases result with
  | ok _ | error e => exact ended

end World

end Cboot.BlUpdate
