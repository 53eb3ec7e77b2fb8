/-
**Updating one slot leaves the other one alone.**

The partitions of the slot that is not updated are erased and written only if all slots have to be
updated. This holds when the entries of the payload have names without a suffix, and, for slot B, when
no entry is for a partition with slots on QSPI flash and the BCT has no slots: `update_partition`
erases the partition with the name of the entry, which is that of slot A, and the callback for the
BCT writes the partition of slot A as well.
-/

import Cboot.BlUpdate.World

namespace Cboot.BlUpdate

open Prog PartitionManager Gpt

/-! ### Slots of partitions -/

def partitionNames (storage : StorageList) : List (List Byte) :=
  storage.entries.flatMap fun entry => entry.partitions.map fun p => cString p.name

def OtherSlot (storage : StorageList) (slot : Nat) (name : List Byte) : Prop :=
  if slot = 0 then ∃ base ∈ partitionNames storage, name = base ++ bootChainSuffixB
  else name ++ bootChainSuffixB ∈ partitionNames storage

def Ratchets {σ : Type} (cbs : Callbacks σ) : Prop := cbs.isRatchetUpdateRequired = some (.ok true)

def Exempt {σ : Type} (cbs : Callbacks σ) (name : List Byte) : Prop :=
  Ratchets cbs ∨ ∃ isAlways base, cbs.isAlwaysAbPartition = some isAlways ∧ isAlways base = true ∧
    (name = base ∨ name = base ++ bootChainSuffixB)

def Allowed {σ : Type} (storage : StorageList) (cbs : Callbacks σ) (slot : Nat) (name : List Byte) :
    Prop :=
  OtherSlot storage slot name → Exempt cbs name

structure Plain (name : List Byte) : Prop where
  notA : ∀ base, name ≠ base ++ bootChainSuffixA
  notB : ∀ base, name ≠ base ++ bootChainSuffixB
  short : name.length + 2 < gptPartNameLen

/-! ### Opening a partition -/

section Open

variable {σ : Type} {platform : Platform σ} {name : List Byte} {target : Target}

def deviceFor (storage : StorageList) (name : List Byte) : Option StorageInfo :=
  storage.entries.find?
    (holdsMatch (fun _ => true) fun p => tegrablABMatchPartName (cString p.name) name)

theorem openPartition_eq : openPartition platform name =
    match deviceFor platform.storage name with
    | none => managerError .notFound 0
    | some entry =>
      match entry.partitions[entry.partitions.findIdx
        fun p => tegrablABMatchPartName (cString p.name) name]? with
      | some p => .ok ⟨entry.bdev, cString p.name⟩
      | none => managerError .notFound 0 := by
  unfold openPartition
  rw [show tegrablPartitionOpen (some platform.storage) name none = lookupByName (fun _ => true)
    (fun p => tegrablABMatchPartName (cString p.name) name) 0 platform.storage from rfl,
    lookupByName_ok]
  unfold deviceFor
  cases platform.storage.entries.find? _ with
  | none | some entry => rfl

theorem openPartition_ok (opened : openPartition platform name = .ok target) :
    target.name ∈ partitionNames platform.storage ∧
      (name = target.name ∨ name = target.name ++ bootChainSuffixA) := by
  rw [openPartition_eq] at opened
  cases first : deviceFor platform.storage name with
  | none =>
    rw [first] at opened
    cases opened
  | some entry =>
    rw [first] at opened
    dsimp only at opened
    split at opened
    · next p found =>
      obtain rfl := Except.ok.inj opened
      obtain ⟨bound, rfl⟩ := List.getElem?_eq_some_iff.mp found
      refine ⟨List.mem_flatMap.mpr ⟨entry, List.mem_of_find?_eq_some first, ?_⟩, ?_⟩
      · exact List.mem_map.mpr ⟨_, List.getElem_mem bound, rfl⟩
      · exact matchPartName_iff.mp (List.findIdx_getElem (w := bound))
    · cases opened

theorem openPartition_of_mem (platform : Platform σ)
    (member : name ∈ partitionNames platform.storage) :
    ∃ target, openPartition platform name = .ok target := by
  obtain ⟨entry, inList, named⟩ := List.mem_flatMap.mp member
  obtain ⟨p, inArray, rfl⟩ := List.mem_map.mp named
  have found : (deviceFor platform.storage (cString p.name)).isSome := by
    refine List.find?_isSome.mpr ⟨entry, inList, ?_⟩
    refine Bool.and_eq_true_iff.mpr ⟨rfl, List.any_eq_true.mpr ⟨p, inArray, ?_⟩⟩
    exact matchPartName_iff.mpr (.inl rfl)
  obtain ⟨device, first⟩ := Option.isSome_iff_exists.mp found
  have holds : holdsMatch (fun _ => true)
      (fun q => tegrablABMatchPartName (cString q.name) (cString p.name)) device = true :=
    List.find?_some first
  have bound := (findIdx_lt_iff device.partitions).mpr (Bool.and_eq_true_iff.mp holds).2
  rw [openPartition_eq, first]
  dsimp only
  rw [List.getElem?_eq_getElem bound]
  exact ⟨_, rfl⟩

theorem openPartition_name (notA : ∀ base, name ≠ base ++ bootChainSuffixA)
    (opened : openPartition platform name = .ok target) : target.name = name := by
  rcases (openPartition_ok opened).2 with same | suffixed
  · exact same.symm
  · exact absurd suffixed (notA _)

end Open

/-! ### What the steps may touch -/

section Steps

variable {σ : Type} {platform : Platform σ} {cbs : Callbacks σ} {blob : Blob} {slot : Nat}

structure Clean (platform : Platform σ) (cbs : Callbacks σ) (blob : Blob) (slot : Nat) : Prop where
  plain : ∀ i entry, blob.getEntry i = .ok entry → Plain entry.partname
  twice : ∀ base, base ++ bootChainSuffixB ++ bootChainSuffixB ∉ partitionNames platform.storage
  qspi : slot ≠ 0 → ∀ i entry target, blob.getEntry i = .ok entry →
    openPartition platform entry.partname = .ok target → platform.isQspi target.bdev = true →
    Allowed platform.storage cbs slot entry.partname
  bct : slot ≠ 0 → cbs.updateBct ≠ none → Allowed platform.storage cbs slot brBctPartitionName

structure Framed (storage : StorageList) (cbs : Callbacks σ) (slot : Nat) (s : UpdateState σ) :
    Prop where
  effects : ∀ e ∈ s.effects, Allowed storage cbs slot e.target.name
  required : s.isNewBupChecked = true → s.isRequired = true → Ratchets cbs

theorem ne_append_of_last {name suffix : List Byte} {letter : Byte}
    (ends : suffix.getLast? = some letter) (other : name.getLast? ≠ some letter) (base : List Byte) :
    name ≠ base ++ suffix := by
  intro same
  refine other ?_
  rw [same, List.getLast?_append, ends]
  rfl

theorem suffixB_ne_suffixA (first second : List Byte) :
    first ++ bootChainSuffixB ≠ second ++ bootChainSuffixA := by
  have ends : bootChainSuffixA.getLast? = some 0x61 := rfl
  refine ne_append_of_last ends ?_ second
  rw [List.getLast?_append]
  show some (0x62 : Byte) ≠ some 0x61
  decide

theorem allowed_of_notB {name : List Byte} (isA : slot = 0)
    (notB : ∀ base, name ≠ base ++ bootChainSuffixB) :
    Allowed platform.storage cbs slot name := by
  intro other
  unfold OtherSlot at other
  rw [if_pos isA] at other
  obtain ⟨base, -, suffixed⟩ := other
  exact absurd suffixed (notB base)

theorem bctName_plain : Plain brBctPartitionName :=
  ⟨ne_append_of_last rfl (by decide), ne_append_of_last rfl (by decide), by decide⟩

theorem Clean.bct_allowed (clean : Clean platform cbs blob slot) (set : cbs.updateBct ≠ none) :
    Allowed platform.storage cbs slot brBctPartitionName := by
  by_cases isA : slot = 0
  · exact allowed_of_notB isA bctName_plain.notB
  · exact clean.bct isA set

theorem Framed.add {s : UpdateState σ} (framed : Framed platform.storage cbs slot s) {e : Effect}
    (allowed : Allowed platform.storage cbs slot e.target.name) (world : σ)
    (written : List Written) : Framed platform.storage cbs slot
      { s with world := world, effects := s.effects ++ [e], written := written } := by
  refine ⟨fun e' member => ?_, framed.required⟩
  rcases List.mem_append.mp member with old | new
  · exact framed.effects e' old
  · rw [List.mem_singleton.mp new]
    exact allowed

theorem getFullPartName_plain {name : List Byte} (plain : Plain name) (cbs : Callbacks σ) (i : Nat) :
    getFullPartName cbs i name = name ∨ getFullPartName cbs i name = name ++ bootChainSuffixB := by
  have short := plain.short
  have whole : name.take (gptPartNameLen - 1) = name := List.take_of_length_le (by omega)
  unfold getFullPartName
  rw [whole]
  dsimp only
  split
  · exact .inl rfl
  · split
    · exact .inl rfl
    · exact .inr rfl

theorem getFullPartName_slot {name : List Byte} (plain : Plain name) (set : cbs.hasSlotSuffix = true) :
    getFullPartName cbs slot name = if slot = 0 then name else name ++ bootChainSuffixB := by
  have short := plain.short
  have whole : name.take (gptPartNameLen - 1) = name := List.take_of_length_le (by omega)
  unfold getFullPartName
  rw [whole]
  dsimp only
  rw [if_neg (by rw [set]; exact Bool.noConfusion)]

theorem Clean.walk (clean : Clean platform cbs blob slot) {suffix : List Byte}
    (isSlot : tegrablABGetSlotViaSuffix suffix = .ok slot) : Walk platform cbs blob suffix
      (fun s => Framed platform.storage cbs slot s ∧ s.isNewBupChecked = true)
      fun target => Allowed platform.storage cbs slot target.name where
  known _ holds := holds.2
  note _ _ _ _ _ holds := ⟨⟨holds.1.effects, holds.1.required⟩, holds.2⟩
  erase _ may := TotalKeeps.step fun _ holds => ⟨holds.1.add may _ _, holds.2⟩
  write _ _ _ may _ := TotalKeeps.step fun _ holds => ⟨holds.1.add may _ _, holds.2⟩
  alloc _ := TotalKeeps.step fun _ holds => ⟨⟨holds.1.effects, holds.1.required⟩, holds.2⟩
  spec := TotalKeeps.step fun _ holds => ⟨⟨holds.1.effects, holds.1.required⟩, holds.2⟩
  bct _ _ := TotalKeeps.step fun _ holds => ⟨⟨holds.1.effects, holds.1.required⟩, holds.2⟩
  slotNum _ _ := TotalKeeps.step fun _ holds => ⟨⟨holds.1.effects, holds.1.required⟩, holds.2⟩
  fault := TotalKeeps.step fun _ holds => ⟨⟨holds.1.effects, holds.1.required⟩, holds.2⟩
  onQspi i entry target found opened qspi := by
    have plain := clean.plain i entry found
    rw [openPartition_name plain.notA opened]
    by_cases isA : slot = 0
    · exact allowed_of_notB isA plain.notB
    · exact clean.qspi isA i entry target found opened qspi
  alone i entry target found set lone opened other := by
    have plain := clean.plain i entry found
    rw [openPartition_name plain.notA opened] at other ⊢
    by_cases isA : slot = 0
    · exact allowed_of_notB isA plain.notB other
    · -- There is no partition of slot B, so the partition has no slots.
      unfold OtherSlot at other
      rw [if_neg isA] at other
      obtain ⟨target', opened'⟩ := openPartition_of_mem platform other
      have full : getFullPartName cbs 1 entry.partname = entry.partname ++ bootChainSuffixB :=
        getFullPartName_slot plain set
      unfold partitionHasSlot at lone
      rw [full, opened'] at lone
      cases lone
  ofSlot i entry updateSlot target found set same opened other := by
    have plain := clean.plain i entry found
    obtain rfl := Except.ok.inj (isSlot.symm.trans same)
    rw [getFullPartName_slot plain set] at opened
    by_cases isA : slot = 0
    · rw [if_pos isA] at opened
      rw [openPartition_name plain.notA opened] at other ⊢
      exact allowed_of_notB isA plain.notB other
    · rw [if_neg isA] at opened
      rw [openPartition_name (suffixB_ne_suffixA entry.partname) opened] at other
      unfold OtherSlot at other
      rw [if_neg isA] at other
      exact absurd other (clean.twice entry.partname)
  others i entry always other target s found isAlways holds wanted opened _ := by
    have plain := clean.plain i entry found
    have names := getFullPartName_plain plain cbs other
    rw [openPartition_name (fun base same => ?_) opened]
    · rcases Bool.or_eq_true_iff.mp wanted with all | isTrue
      · exact .inl (holds.1.required holds.2 all)
      · unfold alwaysAbPartition at isAlways
        cases callback : cbs.isAlwaysAbPartition with
        | none =>
          rw [callback] at isAlways
          cases isAlways
        | some isAlwaysAb =>
          rw [callback] at isAlways
          exact .inr ⟨isAlwaysAb, _, callback, (Except.ok.inj isAlways).trans isTrue, names⟩
    · rcases names with name | name
      · exact plain.notA base (name ▸ same)
      · exact suffixB_ne_suffixA _ _ (name ▸ same)
  ofBct target set opened := by
    rw [openPartition_name bctName_plain.notA opened]
    exact clean.bct_allowed set

/-! ### The whole update -/

theorem Framed.asked {s : UpdateState σ} (framed : Framed platform.storage cbs slot s) :
    Framed platform.storage cbs slot (asked cbs s) := by
  refine ⟨framed.effects, fun _ required => ?_⟩
  have used : decision cbs s = true := required
  unfold decision at used
  split at used
  · next checked => exact framed.required checked used
  · unfold answer at used
    split at used
    · next answered => rw [Ratchets, answered, used]
    · cases used

/-- **An update of one slot** erases and writes no partition of the other slot, unless all slots of
it are updated. `isRequired` may be left from an earlier payload only if this one ratchets too. -/
theorem update_frame (clean : Clean platform cbs blob slot) {suffix : List Byte}
    (isSlot : tegrablABGetSlotViaSuffix suffix = .ok slot) {size rounds : Nat}
    {s s' : UpdateState σ} (start : s.effects = [])
    (fresh : s.isNewBupChecked = true → s.isRequired = true → Ratchets cbs) {result : Result Unit}
    (run : tegrablCheckAndUpdateBlPayload platform cbs blob suffix size rounds s = some (result, s')) :
    ∀ e ∈ s'.effects, OtherSlot platform.storage slot e.target.name → Exempt cbs e.target.name := by
  have framed : Framed platform.storage cbs slot s := by
    refine ⟨fun e member => ?_, fresh⟩
    rw [start] at member
    cases member
  obtain ⟨x, ran, ended⟩ := payload_walk (clean.walk isSlot)
    (fun s' => ∀ e ∈ s'.effects, Allowed platform.storage cbs slot e.target.name) rounds
    ⟨framed.asked, rfl⟩ (fun _ => framed.effects) (fun _ holds => holds.1.effects)
    fun _ holds => holds.1.effects
  obtain rfl := Option.some.inj (ran.symm.trans run)
  exact ended

end Steps

/-! ### A sample -/

def sampleNamed (name : List Byte) : NamedPartition :=
  { startSector := 40, numSectors := 8, totalSize := 4096, name := name ++ [0], guid := [],
    ptypeGuid := [] }

def samplePlatform (isQspi : Bool) : Platform Unit where
  storage := ⟨[⟨0x100, [sampleNamed [0x78], sampleNamed [0x78, 0x5F, 0x62]]⟩], 0⟩
  isQspi _ := isQspi
  erase _ s := (.ok (), s)
  write _ _ _ s := (managerError .writeFailed 0, s)
  alloc _ s := (true, s)
  specInfo := []
  nctGetSpec s := (.ok (), s)
  opMode := 0

def sampleCallbacks : Callbacks Unit where
  verifyPayload := none
  updateBct := none
  getSlotNum := some fun s => (.ok 2, s)
  hasSlotSuffix := true
  suffixFault s := (.ok (), s)
  isRatchetUpdateRequired := some (.ok false)
  isAlwaysAbPartition := some fun name => name == mb1PartitionName

def sampleBlob : Blob where
  init := .ok ()
  size := 0
  isUpdate := true
  numEntries := 1
  getEntry i := if i = 0 then .ok ⟨[0x78], 16, 0, []⟩ else updateError .invalid 0
  getEntryData _ := .ok (0x2000, 16)

def sampleStart : UpdateState Unit := ⟨(), [], [], false, false, false, 0, [], []⟩

theorem sample_not_exempt : ¬ Exempt sampleCallbacks [0x78] := by
  rintro (ratchets | ⟨isAlways, base, set, always, named⟩)
  · cases ratchets
  · obtain rfl := Option.some.inj set
    obtain rfl : base = mb1PartitionName := beq_iff_eq.mp always
    rcases named with same | same
    · cases same
    · cases same

/-- On QSPI flash an update of slot B that fails leaves `x`, the partition of slot A, erased. -/
theorem other_slot_erased :
    ∃ e s', tegrablCheckAndUpdateBlPayload (samplePlatform true) sampleCallbacks sampleBlob
        bootChainSuffixB 0 0 sampleStart = some (.error e, s') ∧
      ⟨.erase, ⟨0x100, [0x78]⟩⟩ ∈ s'.effects ∧ OtherSlot (samplePlatform true).storage 1 [0x78] ∧
      ¬ Exempt sampleCallbacks [0x78] := by
  refine ⟨_, _, rfl, .head _, ?_, sample_not_exempt⟩
  unfold OtherSlot
  rw [if_neg Nat.one_ne_zero]
  decide

theorem sampleBlob_clean : Clean (samplePlatform false) sampleCallbacks sampleBlob 1 where
  plain i entry read := by
    simp only [sampleBlob] at read
    split at read
    · obtain rfl := Except.ok.inj read
      exact ⟨ne_append_of_last rfl (by decide), ne_append_of_last rfl (by decide), by decide⟩
    · cases read
  twice base member := by
    have long : ∀ name ∈ partitionNames (samplePlatform false).storage, name.length < 4 := by decide
    have length := long _ member
    rw [List.length_append, List.length_append, show bootChainSuffixB.length = 2 from rfl] at length
    omega
  qspi _ _ _ _ _ _ onQspi := by cases onQspi
  bct _ set := absurd rfl set

/-- Elsewhere the update touches slot B only. -/
theorem update_frame_sample :
    ∃ e s', tegrablCheckAndUpdateBlPayload (samplePlatform false) sampleCallbacks sampleBlob
        bootChainSuffixB 0 0 sampleStart = some (.error e, s') ∧ s'.effects ≠ [] ∧
      ∀ e ∈ s'.effects, OtherSlot (samplePlatform false).storage 1 e.target.name →
        Exempt sampleCallbacks e.target.name := by
  obtain ⟨e, s', run, some_⟩ : ∃ e s', tegrablCheckAndUpdateBlPayload (samplePlatform false)
      sampleCallbacks sampleBlob bootChainSuffixB 0 0 sampleStart = some (.error e, s') ∧
      s'.effects ≠ [] := ⟨_, _, rfl, List.cons_ne_nil _ _⟩
  exact ⟨e, s', run, some_, update_frame sampleBlob_clean rfl rfl
    (fun checked => absurd checked Bool.false_ne_true) run⟩

end Cboot.BlUpdate
