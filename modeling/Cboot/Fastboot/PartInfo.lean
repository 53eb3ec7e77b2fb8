/-
**The partitions that a fastboot host may name.**

`tegrabl_fastboot_get_partinfo` turns the name that a host sends into the names of the partition in
the slots. Nine names have a row in a table, the private partitions are refused, with a suffix of a
slot and without, and every other name stands for itself. The partition is then opened by
`tegrabl_partition_open`, for which a name with the suffix `_a` is also the name without it.
-/

import Cboot.BlUpdate.Payload

namespace Cboot.Fastboot

open Gpt PartitionManager BlUpdate

/-! ### The tables -/

def letters (text : String) : List Byte := text.toList.map fun c => BitVec.ofNat 8 c.toNat

inductive FsType
  | basic
  | ext4
  deriving DecidableEq, Repr

structure PartInfo where
  fastbootPartName : List Byte
  tegraPartName : List Byte
  tegraPartNameB : Option (List Byte)
  fastbootPartType : FsType
  deriving DecidableEq, Repr

def fastbootPartitionMapTable : List PartInfo :=
  [⟨letters "recovery", letters "SOS", some (letters "SOS_b"), .basic⟩,
    ⟨letters "boot", letters "kernel", some (letters "kernel_b"), .basic⟩,
    ⟨letters "dtb", letters "kernel-dtb", some (letters "kernel-dtb_b"), .basic⟩,
    ⟨letters "system", letters "APP", some (letters "APP_b"), .ext4⟩,
    ⟨letters "userdata", letters "UDA", none, .ext4⟩,
    ⟨letters "vendor", letters "vendor", some (letters "vendor_b"), .ext4⟩,
    ⟨letters "bmp", letters "BMP", some (letters "BMP_b"), .basic⟩,
    ⟨letters "rpb", letters "RPB", none, .basic⟩,
    ⟨letters "odm", letters "odm", some (letters "odm_b"), .ext4⟩]

def tegrablNvPrivatePartitionList : List (List Byte) :=
  [letters "BCT", letters "MB1_BCT", letters "mb1", letters "mts-preboot", letters "mts-bootpack",
    letters "sce-fw", letters "eks", letters "sc7", letters "bpmp-fw", letters "NCT",
    letters "primary_gpt", letters "secondary_gpt"]

/-! ### The functions -/

def tegrablABMatchPartNameWithSuffix (partName fullPartName : List Byte) : Bool :=
  if partName.isPrefixOf fullPartName then
    let suffix := fullPartName.drop partName.length
    fullPartName.length == partName.length || suffix == bootChainSuffixA || suffix == bootChainSuffixB
  else false

def tegrablABGetPartSuffix (part : List Byte) : List Byte :=
  if bootChainSuffixB.isSuffixOf part then bootChainSuffixB else bootChainSuffixA

def tegrablFastbootGetTegraPartName (suffix : List Byte) (partInfo : PartInfo) : Option (List Byte) :=
  if suffix = bootChainSuffixB then partInfo.tegraPartNameB else some partInfo.tegraPartName

def tegrablFastbootGetPartinfo (partitionName : List Byte) : Option PartInfo :=
  match fastbootPartitionMapTable.find? fun row =>
      tegrablABMatchPartNameWithSuffix row.fastbootPartName partitionName with
  | some row => some row
  | none =>
    if tegrablNvPrivatePartitionList.any fun name =>
        tegrablABMatchPartNameWithSuffix name partitionName then none
    else some ⟨partitionName, partitionName, some partitionName, .basic⟩

inductive Use
  | flash
  | erase
  deriving DecidableEq, Repr

def tegraName (use : Use) (partitionName : List Byte) : Option (List Byte) :=
  (tegrablFastbootGetPartinfo partitionName).bind fun info =>
    match use with
    | .erase => some info.tegraPartName
    | .flash => tegrablFastbootGetTegraPartName (tegrablABGetPartSuffix partitionName) info

/-! ### Names of the tables -/

theorem matchPartNameWithSuffix_iff {part full : List Byte} :
    tegrablABMatchPartNameWithSuffix part full = true ↔
      full = part ∨ full = part ++ bootChainSuffixA ∨ full = part ++ bootChainSuffixB := by
  unfold tegrablABMatchPartNameWithSuffix
  constructor
  · intro matched
    split at matched
    · next starts =>
      obtain ⟨rest, rfl⟩ := List.isPrefixOf_iff_prefix.mp starts
      simpa [or_assoc] using matched
    · cases matched
  · rintro (rfl | rfl | rfl) <;> simp

variable (name : List Byte)

def Private : Prop :=
  ∃ listed ∈ tegrablNvPrivatePartitionList,
    name = listed ∨ name = listed ++ bootChainSuffixA ∨ name = listed ++ bootChainSuffixB

instance : Decidable (Private name) :=
  inferInstanceAs (Decidable (∃ listed ∈ tegrablNvPrivatePartitionList, _))

def tableNames : List (List Byte) :=
  fastbootPartitionMapTable.flatMap fun row => row.tegraPartName :: row.tegraPartNameB.toList

theorem tableNames_not_private : ∀ name ∈ tableNames, ¬ Private name := by decide +kernel

theorem tableNames_not_suffixed {name base : List Byte} (listed : name ∈ tableNames) :
    name ≠ base ++ bootChainSuffixA := by
  have last : ∀ name ∈ tableNames, name.getLast? ≠ some 0x61 := by decide +kernel
  rintro rfl
  refine last _ listed ?_
  rw [List.getLast?_append]
  rfl

theorem tegraName_cases {use : Use} {partitionName name : List Byte}
    (accepted : tegraName use partitionName = some name) :
    name ∈ tableNames ∨ name = partitionName ∧ ¬ Private partitionName := by
  obtain ⟨info, found, opened⟩ := Option.bind_eq_some_iff.mp accepted
  unfold tegrablFastbootGetPartinfo at found
  split at found
  · next row listed =>
    obtain rfl := Option.some.inj found
    have inTable := List.mem_of_find?_eq_some listed
    refine .inl (List.mem_flatMap.mpr ⟨row, inTable, ?_⟩)
    cases use with
    | erase =>
      obtain rfl := Option.some.inj opened
      exact (.head _)
    | flash =>
      dsimp only at opened
      unfold tegrablFastbootGetTegraPartName at opened
      split at opened
      · exact .tail _ (Option.mem_toList.mpr opened)
      · obtain rfl := Option.some.inj opened
        exact (.head _)
  · split at found
    · cases found
    · next notListed =>
      obtain rfl := Option.some.inj found
      refine .inr ⟨?_, ?_⟩
      · cases use with
        | erase => exact (Option.some.inj opened).symm
        | flash =>
          dsimp only at opened
          unfold tegrablFastbootGetTegraPartName at opened
          split at opened <;> exact (Option.some.inj opened).symm
      · rintro ⟨listed, member, same⟩
        refine notListed (List.any_eq_true.mpr ⟨listed, member, ?_⟩)
        exact matchPartNameWithSuffix_iff.mpr same

/-! ### The partition that is opened -/

def NotPrivate (storage : StorageList) (use : Use) (partitionName : List Byte) : Prop :=
  ∀ name handle p, tegraName use partitionName = some name →
    tegrablPartitionOpen (some storage) name none = (.ok (), some handle) →
    handle.partition = some p → ¬ Private (cString p.name)

theorem doubled_accepted (use : Use) : ∀ listed ∈ tegrablNvPrivatePartitionList,
    ∀ suffix ∈ [bootChainSuffixA, bootChainSuffixB],
      tegraName use (listed ++ suffix ++ bootChainSuffixA) =
        some (listed ++ suffix ++ bootChainSuffixA) := by
  cases use <;> decide +kernel

/-- **A name** opens no private partition exactly when it is not a private name with two suffixes, the
second one `_a`, for which the partition with the first one is found. -/
theorem partinfo_not_private_iff (storage : StorageList) (use : Use) (partitionName : List Byte) :
    NotPrivate storage use partitionName ↔
      ∀ listed ∈ tegrablNvPrivatePartitionList, ∀ suffix ∈ [bootChainSuffixA, bootChainSuffixB],
        partitionName = listed ++ suffix ++ bootChainSuffixA → ∀ handle p,
        tegrablPartitionOpen (some storage) partitionName none = (.ok (), some handle) →
        handle.partition = some p → cString p.name ≠ listed ++ suffix := by
  constructor
  · rintro notPrivate listed member suffix inSlots rfl handle p opened isPart same
    refine notPrivate _ handle p (doubled_accepted use listed member suffix inSlots) opened isPart ?_
    refine ⟨listed, member, ?_⟩
    rcases List.mem_pair.mp inSlots with rfl | rfl
    · exact .inr (.inl same)
    · exact .inr (.inr same)
  · intro condition name handle p accepted opened isPart isPrivate
    rcases tegraName_cases accepted with listed | ⟨rfl, notPrivate⟩
    · rcases partitionOpen_name opened isPart with same | suffixed
      · exact tableNames_not_private name listed (same ▸ isPrivate)
      · exact tableNames_not_suffixed listed suffixed
    · rcases partitionOpen_name opened isPart with same | suffixed
      · exact notPrivate (same ▸ isPrivate)
      · obtain ⟨listed, member, same | same | same⟩ := isPrivate
        · exact notPrivate ⟨listed, member, .inr (.inl (by rw [suffixed, same]))⟩
        · exact condition listed member _ (List.mem_pair.mpr (.inl rfl)) (by rw [suffixed, same])
            handle p opened isPart same
        · exact condition listed member _ (List.mem_pair.mpr (.inr rfl)) (by rw [suffixed, same])
            handle p opened isPart same

/-! #### A name with two suffixes -/

def onePartition : NamedPartition where
  startSector := 40
  numSectors := 8
  totalSize := 4096
  name := name ++ [0]
  guid := []
  ptypeGuid := []

def oneStorage : StorageList := ⟨[⟨0x100, [onePartition name]⟩], 0⟩

/-- The name `mb1_b_a` opens the partition `mb1_b`. -/
theorem doubled_suffix_private :
    ¬ NotPrivate (oneStorage (letters "mb1_b")) .erase (letters "mb1_b_a") := by
  intro notPrivate
  have opened : tegrablPartitionOpen (some (oneStorage (letters "mb1_b"))) (letters "mb1_b_a") none =
      (.ok (), some ⟨[onePartition (letters "mb1_b")], 0, 0x100, 0⟩) := rfl
  refine notPrivate (letters "mb1_b_a") _ (onePartition (letters "mb1_b")) ?_ opened rfl ?_
  · decide +kernel
  · decide +kernel

end Cboot.Fastboot
