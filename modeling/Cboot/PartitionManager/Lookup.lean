/-
**Looking up a partition.**

The partition manager has a list of devices with the arrays of partitions that it has published for
them. Three functions search it: by the name of a partition on any device, by the name on one device,
and by the type on one device.

A loop over the list that runs to its end leaves its cursor at the head of the list. The head is not
an entry, and the field `bdev` of the cursor is then the word behind the head.
-/

import Cboot.Gpt.Table

namespace Cboot.PartitionManager

open BlockDev Gpt

/-! ### The list of devices -/

structure StorageInfo where
  bdev : Nat
  partitions : List NamedPartition

structure StorageList where
  entries : List StorageInfo
  behindHead : Nat

def StorageList.bdevOf (storage : StorageList) : Option StorageInfo → Nat
  | some entry => entry.bdev
  | none => storage.behindHead

structure Handle where
  array : List NamedPartition
  index : Nat
  blockDevice : Nat
  offset : Nat

structure Search where
  array : Option (List NamedPartition)
  i : Nat
  cursor : Option StorageInfo

def managerError {α : Type} (reason : ErrReason) (auxInfo : Nat) : Result α :=
  tegrablError .partitionManager reason auxInfo

/-! ### Names and types -/

def cString (bytes : List Byte) : List Byte := bytes.takeWhile (· ≠ 0)

def bootChainSuffixA : List Byte := [0x5F, 0x61]

def tegrablABMatchPartName (partName fullPartName : List Byte) : Bool :=
  if partName.isPrefixOf fullPartName then
    partName.length == fullPartName.length ||
      fullPartName.drop partName.length == bootChainSuffixA
  else false

def guidStrLen : Nat := 36

def strncasecmp : List Char → List Char → Nat → Bool
  | _, _, 0 => true
  | [], [], _ + 1 => true
  | c :: s, d :: t, n + 1 => c.toLower == d.toLower && strncasecmp s t n
  | _, _, _ + 1 => false

def typeMatches (ptTypeGuid : List Char) (p : NamedPartition) : Bool :=
  strncasecmp p.ptypeGuid ptTypeGuid guidStrLen

/-! ### The searches -/

def nameLoop (wanted : StorageInfo → Bool) (isMatch : NamedPartition → Bool) :
    List StorageInfo → Search → Search
  | [], search => { search with cursor := none }
  | entry :: rest, search =>
    if wanted entry = false then nameLoop wanted isMatch rest search
    else
      let i := entry.partitions.findIdx isMatch
      if entry.partitions.length ≤ i then nameLoop wanted isMatch rest ⟨none, i, some entry⟩
      else ⟨some entry.partitions, i, some entry⟩

def lookupByName (wanted : StorageInfo → Bool) (isMatch : NamedPartition → Bool) (auxInfo : Nat)
    (storage : StorageList) : Result Unit × Option Handle :=
  let search := nameLoop wanted isMatch storage.entries ⟨none, 0, none⟩
  match search.array with
  | none => (managerError .notFound auxInfo, none)
  | some array => (.ok (), some ⟨array, search.i, storage.bdevOf search.cursor, 0⟩)

def tegrablPartitionLookupBdev (storage : Option StorageList) (partitionName : List Byte)
    (bdev : Nat) (partition : Option Handle) : Result Unit × Option Handle :=
  if bdev = 0 then (managerError .invalid 20, partition)
  else match storage with
    | none => (managerError .notInitialized 23, partition)
    | some storage => lookupByName (fun entry => entry.bdev == bdev)
      (fun p => cString p.name == partitionName) 22 storage

def tegrablPartitionOpen (storage : Option StorageList) (partitionName : List Byte)
    (partition : Option Handle) : Result Unit × Option Handle :=
  match storage with
  | none => (managerError .notInitialized 23, partition)
  | some storage => lookupByName (fun _ => true)
    (fun p => tegrablABMatchPartName (cString p.name) partitionName) 0 storage

def bootGuidLoop (isMatch : NamedPartition → Bool) (bdev : Nat) : List StorageInfo → Search → Search
  | [], search => { search with cursor := none }
  | entry :: rest, search =>
    if entry.bdev ≠ bdev then bootGuidLoop isMatch bdev rest search
    else
      let i := entry.partitions.findIdx isMatch
      if i < entry.partitions.length then ⟨some entry.partitions, i, some entry⟩
      else bootGuidLoop isMatch bdev rest ⟨some entry.partitions, i, some entry⟩

def tegrablPartitionBootGuidLookupBdev (storage : StorageList) (ptTypeGuid : List Char) (bdev : Nat)
    (partition : Option Handle) : Result Unit × Option Handle :=
  if bdev = 0 then (managerError .invalid 21, partition)
  else
    let search := bootGuidLoop (typeMatches ptTypeGuid) bdev storage.entries ⟨none, 0, none⟩
    match search.array with
    | none => (managerError .notFound 24, none)
    | some array =>
      -- Without a match `i` is the length of the array, and its first element is taken.
      let i := if array.length ≤ search.i then 0 else search.i
      (.ok (), some ⟨array, i, storage.bdevOf search.cursor, 0⟩)

/-! ### What a search by name finds -/

variable {entries : List StorageInfo}

section ByName

variable {wanted : StorageInfo → Bool} {isMatch : NamedPartition → Bool}

def holdsMatch (wanted : StorageInfo → Bool) (isMatch : NamedPartition → Bool) (entry : StorageInfo) : Bool :=
  wanted entry && entry.partitions.any isMatch

theorem findIdx_lt_iff (partitions : List NamedPartition) :
    partitions.findIdx isMatch < partitions.length ↔ partitions.any isMatch = true := by
  rw [List.findIdx_lt_length, List.any_eq_true]

theorem le_findIdx {partitions : List NamedPartition} (found : partitions.any isMatch = false) :
    partitions.length ≤ partitions.findIdx isMatch := by
  rw [← Nat.not_lt, findIdx_lt_iff, found]
  exact Bool.false_ne_true

theorem nameLoop_found {entry : StorageInfo} (search : Search)
    (first : entries.find? (holdsMatch wanted isMatch) = some entry) :
    nameLoop wanted isMatch entries search =
      ⟨some entry.partitions, entry.partitions.findIdx isMatch, some entry⟩ := by
  induction entries generalizing search with
  | nil => cases first
  | cons head rest ih =>
    rw [nameLoop]
    cases want : wanted head with
    | false =>
      rw [if_pos rfl]
      refine ih search ?_
      rwa [List.find?_cons_of_neg (by simp [holdsMatch, want])] at first
    | true =>
      rw [if_neg Bool.noConfusion]
      dsimp only
      cases found : head.partitions.any isMatch with
      | false =>
        rw [if_pos (le_findIdx found)]
        refine ih _ ?_
        rwa [List.find?_cons_of_neg (by simp [holdsMatch, found])] at first
      | true =>
        rw [List.find?_cons_of_pos (by simp [holdsMatch, want, found])] at first
        obtain rfl := Option.some.inj first
        rw [if_neg (Nat.not_le.mpr ((findIdx_lt_iff _).mpr found))]

theorem nameLoop_missed {search : Search} (empty : search.array = none)
    (missing : ∀ entry ∈ entries, holdsMatch wanted isMatch entry = false) :
    (nameLoop wanted isMatch entries search).array = none := by
  induction entries generalizing search with
  | nil => exact empty
  | cons head rest ih =>
    have restMissing : ∀ entry ∈ rest, holdsMatch wanted isMatch entry = false :=
      fun entry member => missing entry (.tail _ member)
    rw [nameLoop]
    cases want : wanted head with
    | false =>
      rw [if_pos rfl]
      exact ih empty restMissing
    | true =>
      have found : head.partitions.any isMatch = false := by
        simpa [holdsMatch, want] using missing head (.head _)
      rw [if_neg Bool.noConfusion]
      dsimp only
      rw [if_pos (le_findIdx found)]
      exact ih rfl restMissing

theorem lookupByName_ok (auxInfo : Nat) (storage : StorageList) :
    lookupByName wanted isMatch auxInfo storage =
      match storage.entries.find? (holdsMatch wanted isMatch) with
      | none => (managerError .notFound auxInfo, none)
      | some entry =>
        (.ok (), some ⟨entry.partitions, entry.partitions.findIdx isMatch, entry.bdev, 0⟩) := by
  unfold lookupByName
  cases first : storage.entries.find? (holdsMatch wanted isMatch) with
  | none =>
    have missing : ∀ entry ∈ storage.entries, holdsMatch wanted isMatch entry = false := fun entry member =>
      Bool.eq_false_of_not_eq_true (List.find?_eq_none.mp first entry member)
    dsimp only
    rw [nameLoop_missed rfl missing]
  | some entry => rw [nameLoop_found _ first]; rfl

def Handle.partition (handle : Handle) : Option NamedPartition := handle.array[handle.index]?

theorem matchPartName_iff {p name : List Byte} : tegrablABMatchPartName p name = true ↔
    name = p ∨ name = p ++ bootChainSuffixA := by
  unfold tegrablABMatchPartName
  constructor
  · intro matched
    split at matched
    · next starts =>
      obtain ⟨rest, rfl⟩ := List.isPrefixOf_iff_prefix.mp starts
      rw [List.drop_left] at matched
      rcases Bool.or_eq_true_iff.mp matched with same | suffix
      · have empty : rest = [] := by
          have length : p.length = (p ++ rest).length := beq_iff_eq.mp same
          rw [List.length_append] at length
          exact List.length_eq_zero_iff.mp (by omega)
        exact .inl (by rw [empty, List.append_nil])
      · exact .inr (by rw [beq_iff_eq.mp suffix])
    · cases matched
  · rintro (rfl | rfl)
    · simp
    · simp

theorem partitionOpen_name {storage : Option StorageList} {partitionName : List Byte}
    {handle : Handle} {p : NamedPartition}
    (opened : tegrablPartitionOpen storage partitionName none = (.ok (), some handle))
    (isPart : handle.partition = some p) :
    partitionName = cString p.name ∨ partitionName = cString p.name ++ bootChainSuffixA := by
  unfold tegrablPartitionOpen at opened
  cases storage with
  | none => cases congrArg Prod.fst opened
  | some list =>
    dsimp only at opened
    rw [lookupByName_ok] at opened
    split at opened
    · cases congrArg Prod.fst opened
    · obtain rfl := Option.some.inj (congrArg Prod.snd opened)
      obtain ⟨bound, rfl⟩ := List.getElem?_eq_some_iff.mp isPart
      exact matchPartName_iff.mp (List.findIdx_getElem (w := bound))

end ByName

/-! ### What the search by type finds -/

section ByType

variable {isMatch : NamedPartition → Bool} {bdev : Nat}

theorem bootGuidLoop_found {entry : StorageInfo} (search : Search)
    (first : entries.find? (holdsMatch (·.bdev == bdev) isMatch) = some entry) :
    bootGuidLoop isMatch bdev entries search =
      ⟨some entry.partitions, entry.partitions.findIdx isMatch, some entry⟩ := by
  induction entries generalizing search with
  | nil => cases first
  | cons head rest ih =>
    rw [bootGuidLoop]
    by_cases other : head.bdev ≠ bdev
    · rw [if_pos other]
      refine ih search ?_
      rwa [List.find?_cons_of_neg (by simp [holdsMatch, other])] at first
    · rw [if_neg other]
      dsimp only
      cases found : head.partitions.any isMatch with
      | false =>
        rw [if_neg (Nat.not_lt.mpr (le_findIdx found))]
        refine ih _ ?_
        rwa [List.find?_cons_of_neg (by simp [holdsMatch, found])] at first
      | true =>
        rw [List.find?_cons_of_pos (by simp [holdsMatch, not_not.mp other, found])] at first
        obtain rfl := Option.some.inj first
        rw [if_pos ((findIdx_lt_iff _).mpr found)]

theorem bootGuidLoop_missed (search : Search)
    (missing : ∀ entry ∈ entries, holdsMatch (·.bdev == bdev) isMatch entry = false) :
    bootGuidLoop isMatch bdev entries search =
      match (entries.filter (·.bdev == bdev)).getLast? with
      | none => { search with cursor := none }
      | some last => ⟨some last.partitions, last.partitions.length, none⟩ := by
  induction entries generalizing search with
  | nil => rfl
  | cons head rest ih =>
    have restMissing : ∀ entry ∈ rest, holdsMatch (·.bdev == bdev) isMatch entry = false :=
      fun entry member => missing entry (.tail _ member)
    rw [bootGuidLoop]
    by_cases other : head.bdev ≠ bdev
    · rw [if_pos other, ih search restMissing, List.filter_cons_of_neg (by simp [other])]
    · have found : head.partitions.any isMatch = false := by
        simpa [holdsMatch, not_not.mp other] using missing head (.head _)
      have none := le_findIdx found
      have all : head.partitions.findIdx isMatch = head.partitions.length :=
        List.findIdx_le_length.antisymm none
      rw [if_neg other]
      dsimp only
      rw [if_neg (Nat.not_lt.mpr none), ih _ restMissing, all,
        List.filter_cons_of_pos (by simp [not_not.mp other]), List.getLast?_cons]
      cases (rest.filter (·.bdev == bdev)).getLast? with
      | none => rfl
      | some last => rfl

end ByType

section Lookup

variable {storage : StorageList} {ptTypeGuid : List Char} {bdev : Nat} {partition : Option Handle}

def Own (storage : StorageList) (ptTypeGuid : List Char) (bdev : Nat) (handle : Handle) : Prop :=
  ∃ entry ∈ storage.entries, entry.bdev = bdev ∧ handle.array = entry.partitions ∧
    handle.index < entry.partitions.length ∧
    (handle.index = entry.partitions.findIdx (typeMatches ptTypeGuid) ∨
      handle.index = 0 ∧ ∀ p ∈ entry.partitions, typeMatches ptTypeGuid p = false)

def HasMatch (storage : StorageList) (ptTypeGuid : List Char) (bdev : Nat) : Prop :=
  ∃ entry ∈ storage.entries, entry.bdev = bdev ∧ entry.partitions.any (typeMatches ptTypeGuid) = true

theorem hasMatch_iff : HasMatch storage ptTypeGuid bdev ↔
    ∃ entry, storage.entries.find? (holdsMatch (·.bdev == bdev) (typeMatches ptTypeGuid)) = some entry := by
  rw [← Option.isSome_iff_exists, List.find?_isSome]
  simp only [HasMatch, holdsMatch, Bool.and_eq_true, beq_iff_eq]

theorem lookup_found (partition : Option Handle) (some_ : bdev ≠ 0) (found : HasMatch storage ptTypeGuid bdev) :
    ∃ handle, tegrablPartitionBootGuidLookupBdev storage ptTypeGuid bdev partition =
        (.ok (), some handle) ∧ handle.blockDevice = bdev ∧ Own storage ptTypeGuid bdev handle := by
  obtain ⟨entry, first⟩ := hasMatch_iff.mp found
  have holds : holdsMatch (·.bdev == bdev) (typeMatches ptTypeGuid) entry = true :=
    List.find?_some first
  obtain ⟨isWanted, isFound⟩ := Bool.and_eq_true_iff.mp holds
  have device : entry.bdev = bdev := beq_iff_eq.mp isWanted
  have inside := (findIdx_lt_iff entry.partitions).mpr isFound
  refine ⟨⟨entry.partitions, entry.partitions.findIdx (typeMatches ptTypeGuid), entry.bdev, 0⟩,
    ?_, device, entry, List.mem_of_find?_eq_some first, device, rfl, inside, .inl rfl⟩
  unfold tegrablPartitionBootGuidLookupBdev
  rw [if_neg some_]
  dsimp only
  rw [bootGuidLoop_found _ first]
  dsimp only
  rw [if_neg (Nat.not_le.mpr inside)]
  rfl

theorem lookup_missed (some_ : bdev ≠ 0) (missing : ¬ HasMatch storage ptTypeGuid bdev) :
    tegrablPartitionBootGuidLookupBdev storage ptTypeGuid bdev partition =
      match (storage.entries.filter (·.bdev == bdev)).getLast? with
      | none => (managerError .notFound 24, none)
      | some last => (.ok (), some ⟨last.partitions, 0, storage.behindHead, 0⟩) := by
  have none : ∀ entry ∈ storage.entries,
      holdsMatch (·.bdev == bdev) (typeMatches ptTypeGuid) entry = false := by
    intro entry member
    refine Bool.eq_false_of_not_eq_true fun holds => missing ?_
    obtain ⟨isWanted, isFound⟩ := Bool.and_eq_true_iff.mp holds
    exact ⟨entry, member, beq_iff_eq.mp isWanted, isFound⟩
  unfold tegrablPartitionBootGuidLookupBdev
  rw [if_neg some_]
  dsimp only
  rw [bootGuidLoop_missed _ none]
  cases (storage.entries.filter (·.bdev == bdev)).getLast? with
  | none => rfl
  | some last =>
    dsimp only
    rw [if_pos le_rfl]
    rfl

/-- **The handle that the search by type returns** is on the device and on an array of the device
exactly when there was a match, or the word behind the head of the list happens to be the address of
the device and its last array is not empty. -/
theorem boot_guid_lookup_iff
    (run : (tegrablPartitionBootGuidLookupBdev storage ptTypeGuid bdev partition).1 = .ok ()) :
    ∃ handle, (tegrablPartitionBootGuidLookupBdev storage ptTypeGuid bdev partition).2 = some handle ∧
      ((handle.blockDevice = bdev ∧ Own storage ptTypeGuid bdev handle) ↔
        HasMatch storage ptTypeGuid bdev ∨ (storage.behindHead = bdev ∧
          ∃ last, (storage.entries.filter (·.bdev == bdev)).getLast? = some last ∧
            last.partitions ≠ [])) := by
  by_cases null : bdev = 0
  · unfold tegrablPartitionBootGuidLookupBdev at run
    rw [if_pos null] at run
    cases run
  by_cases found : HasMatch storage ptTypeGuid bdev
  · obtain ⟨handle, ran, right⟩ := lookup_found partition null found
    exact ⟨handle, congrArg Prod.snd ran, iff_of_true right (.inl found)⟩
  rw [lookup_missed null found] at run ⊢
  cases last? : (storage.entries.filter (·.bdev == bdev)).getLast? with
  | none =>
    rw [last?] at run
    cases run
  | some last =>
    obtain ⟨member, isDevice⟩ := List.mem_filter.mp (List.mem_of_getLast? last?)
    have device : last.bdev = bdev := beq_iff_eq.mp isDevice
    have noMatch : ∀ p ∈ last.partitions, typeMatches ptTypeGuid p = false := by
      intro p inArray
      refine Bool.eq_false_of_not_eq_true fun isMatch => found ⟨last, member, device, ?_⟩
      exact List.any_eq_true.mpr ⟨p, inArray, isMatch⟩
    refine ⟨⟨last.partitions, 0, storage.behindHead, 0⟩, rfl, ?_⟩
    constructor
    · rintro ⟨behind, entry, -, -, same, some_, -⟩
      refine .inr ⟨behind, last, rfl, ?_⟩
      rw [show last.partitions = entry.partitions from same]
      exact List.ne_nil_of_length_pos (Nat.lt_of_le_of_lt (Nat.zero_le _) some_)
    · rintro (isFound | ⟨behind, last', same, some_⟩)
      · exact absurd isFound found
      · obtain rfl := Option.some.inj same
        exact ⟨behind, last, member, device, rfl, List.length_pos_of_ne_nil some_,
          .inr ⟨rfl, noMatch⟩⟩

end Lookup

def samplePartition (ptypeGuid : List Char) : NamedPartition :=
  { startSector := 40, numSectors := 10, totalSize := 5120, name := [0], guid := [],
    ptypeGuid := ptypeGuid }

def sampleList : StorageList :=
  ⟨[⟨0x200, [samplePartition ['b']]⟩, ⟨0x100, [samplePartition ['a']]⟩], 0⟩

/-- No partition of the device has the type, and the block device of the handle is not the device. -/
theorem boot_guid_lookup_behind :
    ∃ handle, tegrablPartitionBootGuidLookupBdev sampleList ['b'] 0x100 none =
      (.ok (), some handle) ∧ handle.blockDevice = 0 ∧ handle.blockDevice ≠ 0x100 := by
  have missing : ¬ HasMatch sampleList ['b'] 0x100 := by
    rintro ⟨entry, member, device, found⟩
    rcases List.mem_cons.mp member with rfl | member
    · cases device
    · obtain rfl := List.mem_singleton.mp member
      cases found
  rw [lookup_missed (by decide) missing]
  exact ⟨_, rfl, rfl, by decide⟩

theorem boot_guid_lookup_found :
    ∃ handle, (tegrablPartitionBootGuidLookupBdev sampleList ['A'] 0x100 none).2 = some handle ∧
      handle.blockDevice = 0x100 ∧ Own sampleList ['A'] 0x100 handle := by
  have found : HasMatch sampleList ['A'] 0x100 :=
    ⟨⟨0x100, [samplePartition ['a']]⟩, .tail _ (.head _), rfl, by decide⟩
  have run : (tegrablPartitionBootGuidLookupBdev sampleList ['A'] 0x100 none).1 = .ok () := rfl
  obtain ⟨handle, returned, right⟩ := boot_guid_lookup_iff run
  exact ⟨handle, returned, right.mpr (.inl found)⟩

/-! ### Publishing and unpublishing -/

structure Manager where
  storage : StorageList
  published : Nat → Bool

def Manager.setPublished (m : Manager) (dev : Nat) (flag : Bool) : Manager :=
  { m with published := fun d => if d = dev then flag else m.published d }

def Manager.setEntries (m : Manager) (entries : List StorageInfo) : Manager :=
  { m with storage := { m.storage with entries := entries } }

def firstPublished : List (Result (List NamedPartition)) → Option (List NamedPartition)
  | [] => none
  | .ok partitions :: _ => some partitions
  | .error _ :: rest => firstPublished rest

def tegrablPartitionPublish (publishers : List (Result (List NamedPartition))) (hasRoom : Bool)
    (dev : Nat) (m : Manager) : Result Unit × Manager :=
  if dev = 0 then (managerError .invalid 15, m)
  else if m.published dev then (.ok (), m)
  else match firstPublished publishers with
    | none => (managerError .notSupported 0, m.setPublished dev false)
    | some partitions =>
      if hasRoom = false then (managerError .noMemory 0, m)
      else (.ok (), (m.setEntries (⟨dev, partitions⟩ :: m.storage.entries)).setPublished dev true)

def tegrablPartitionsUnpublish (deviceId : Nat → Nat) (dev : Nat) (m : Manager) :
    Result Unit × Manager :=
  if dev = 0 then (managerError .invalid 16, m)
  else if m.published dev then
    (.ok (), (m.setEntries (m.storage.entries.eraseP fun entry =>
      deviceId entry.bdev == deviceId dev)).setPublished dev false)
  else (.ok (), m)

inductive Reached (deviceId : Nat → Nat) : Manager → Prop
  | init (behindHead : Nat) : Reached deviceId ⟨⟨[], behindHead⟩, fun _ => false⟩
  | publish {m : Manager} (publishers : List (Result (List NamedPartition))) (hasRoom : Bool)
      (dev : Nat) : Reached deviceId m →
      Reached deviceId (tegrablPartitionPublish publishers hasRoom dev m).2
  | unpublish {m : Manager} (dev : Nat) : Reached deviceId m →
      Reached deviceId (tegrablPartitionsUnpublish deviceId dev m).2

section Runs

variable {deviceId : Nat → Nat} {m : Manager}

def Manager.Single (m : Manager) : Prop :=
  ∀ dev, m.storage.entries.countP (·.bdev == dev) = if m.published dev then 1 else 0

theorem Manager.Single.publish (single : m.Single) (publishers : List (Result (List NamedPartition)))
    (hasRoom : Bool) (dev : Nat) :
    (tegrablPartitionPublish publishers hasRoom dev m).2.Single := by
  unfold tegrablPartitionPublish
  by_cases null : dev = 0
  · rw [if_pos null]
    exact single
  rw [if_neg null]
  by_cases already : m.published dev = true
  · rw [if_pos already]
    exact single
  rw [if_neg already]
  cases firstPublished publishers with
  | none =>
    intro d
    rw [show (m.setPublished dev false).storage = m.storage from rfl, single d]
    by_cases same : d = dev
    · simp [Manager.setPublished, same, already]
    · simp [Manager.setPublished, same]
  | some partitions =>
    dsimp only
    cases hasRoom with
    | false => exact single
    | true =>
      intro d
      have before := single d
      show List.countP _ (⟨dev, partitions⟩ :: m.storage.entries) =
        if (if d = dev then true else m.published d) then 1 else 0
      rw [List.countP_cons, before]
      by_cases same : d = dev
      · simp [same, already]
      · simp [same, Ne.symm same]

theorem Manager.Single.unpublish (ids : Function.Injective deviceId) (single : m.Single) (dev : Nat) :
    (tegrablPartitionsUnpublish deviceId dev m).2.Single := by
  unfold tegrablPartitionsUnpublish
  by_cases null : dev = 0
  · rw [if_pos null]
    exact single
  rw [if_neg null]
  by_cases set : m.published dev = true
  swap
  · rw [if_neg set]
    exact single
  rw [if_pos set]
  have sameId : (fun entry : StorageInfo => deviceId entry.bdev == deviceId dev) =
      fun entry => entry.bdev == dev := by
    funext entry
    exact Bool.eq_iff_iff.mpr (by simpa using ids.eq_iff)
  have one : m.storage.entries.countP (·.bdev == dev) = 1 := by rw [single dev, if_pos set]
  obtain ⟨entry, member, isDevice⟩ := List.countP_pos_iff.mp (Nat.lt_of_lt_of_eq Nat.one_pos one.symm)
  obtain ⟨erased, before, after, -, device, split, left⟩ :=
    List.exists_of_eraseP (p := fun entry => entry.bdev == dev) member isDevice
  intro d
  show List.countP _ (m.storage.entries.eraseP fun entry => deviceId entry.bdev == deviceId dev) =
    if (if d = dev then false else m.published d) then 1 else 0
  have counted := single d
  rw [split, List.countP_append, List.countP_cons] at counted
  rw [sameId, left, List.countP_append]
  have erasedDevice : erased.bdev = dev := beq_iff_eq.mp device
  by_cases same : d = dev
  · rw [same, if_pos set, erasedDevice, beq_self_eq_true, if_pos rfl] at counted
    rw [same, if_pos rfl, if_neg nofun]
    omega
  · rw [erasedDevice, if_neg (by simpa using Ne.symm same)] at counted
    rw [if_neg same]
    exact counted

theorem Reached.single (ids : Function.Injective deviceId) (reached : Reached deviceId m) :
    m.Single := by
  induction reached with
  | init behindHead => exact fun _ => rfl
  | publish publishers hasRoom dev _ ih => exact ih.publish publishers hasRoom dev
  | unpublish dev _ ih => exact ih.unpublish ids dev

end Runs

end Cboot.PartitionManager
