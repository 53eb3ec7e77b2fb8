/-
**What a load leaves depends on what it read.**

The load buffers are not cleared between attempts, so a load runs over whatever an earlier one has
left. When every file is read completely and the headers fit what was read, the bytes of the file,
or those of the partition without its header, are all that a load leaves at the start of its buffer:
two loads of the same contents into any two buffers end alike and agree there.
-/

import Cboot.Auth.Locality
import Cboot.LinuxBoot.LoadBinary

namespace Cboot.LinuxBoot

open Auth

/-! ### Reads -/

def FmHandle.WholeReads (handle : FmHandle) : Prop :=
  ∀ path, (handle.files path).data.length = (handle.files path).size

section Read

variable (handle : FmHandle) (filePath : Option Text) (first second : ByteMem)
  (loadAddress size : Nat)

theorem tegrablFmRead_congr :
    (tegrablFmRead handle filePath first loadAddress size).error =
        (tegrablFmRead handle filePath second loadAddress size).error ∧
      (tegrablFmRead handle filePath first loadAddress size).size =
        (tegrablFmRead handle filePath second loadAddress size).size := by
  unfold tegrablFmRead
  cases filePath with
  | none => exact ⟨rfl, rfl⟩
  | some path =>
    cases handle.mountPath with
    | none => exact ⟨rfl, rfl⟩
    | some mount =>
      simp only
      split_ifs <;> exact ⟨rfl, rfl⟩

variable {handle filePath first second loadAddress size}

theorem tegrablFmRead_ok {mount path : Text} (mounted : handle.mountPath = some mount)
    (success : (tegrablFmRead handle (some path) first loadAddress size).error = .ok ()) :
    tegrablFmRead handle (some path) first loadAddress size =
      ⟨.ok (), first.store loadAddress (handle.files (mount ++ path)).data,
        (handle.files (mount ++ path)).size⟩ := by
  unfold tegrablFmRead at success ⊢
  rw [mounted] at success ⊢
  simp only at success ⊢
  split_ifs at success ⊢
  all_goals first
    | rfl
    | cases success

theorem tegrablFmRead_agree (second : ByteMem) {mount path : Text} (mounted : handle.mountPath = some mount)
    (whole : handle.WholeReads)
    (success : (tegrablFmRead handle (some path) first loadAddress size).error = .ok ()) :
    AgreeOn loadAddress
      (loadAddress + (tegrablFmRead handle (some path) first loadAddress size).size)
      (tegrablFmRead handle (some path) first loadAddress size).memory
      (tegrablFmRead handle (some path) second loadAddress size).memory := by
  have other : (tegrablFmRead handle (some path) second loadAddress size).error = .ok () := by
    rw [← success]
    exact (tegrablFmRead_congr _ _ _ _ _ _).1
  rw [tegrablFmRead_ok mounted success, tegrablFmRead_ok mounted other, ← whole]
  exact AgreeOn.of_store _ _ _ _

theorem tegrablFmRead_agree_below {low high : Nat} (agree : AgreeOn low high first second)
    (below : high ≤ loadAddress) :
    AgreeOn low high (tegrablFmRead handle filePath first loadAddress size).memory
      (tegrablFmRead handle filePath second loadAddress size).memory := by
  intro a above inside
  rw [tegrablFmRead_outside _ _ _ _ _ _ (.inl (inside.trans_le below)),
    tegrablFmRead_outside _ _ _ _ _ _ (.inl (inside.trans_le below))]
  exact agree a above inside

end Read

/-! ### The signature file and the binary -/

section Rootfs

variable (handle : FmHandle) (binMaxSize : Nat) (binPath : Text) (first second : ByteMem)

theorem loadSigFile_failFlag_congr :
    (loadSigFile handle binPath first 0).1 = (loadSigFile handle binPath second 0).1 := by
  obtain ⟨error, size⟩ := tegrablFmRead_congr handle (some (sigFilePath binPath)) first second 0
    sizeofHeader
  rw [loadSigFile, loadSigFile, error, size]

theorem readBinary_congr :
    (readBinary handle binMaxSize binPath first 0).error =
        (readBinary handle binMaxSize binPath second 0).error ∧
      (readBinary handle binMaxSize binPath first 0).size =
        (readBinary handle binMaxSize binPath second 0).size :=
  tegrablFmRead_congr _ _ _ _ _ _

theorem loadSigFile_memory : (loadSigFile handle binPath first 0).2 =
    if (loadSigFile handle binPath first 0).1 then
      (tegrablFmRead handle (some (sigFilePath binPath)) first 0 sizeofHeader).memory.memset 0 0
        sizeofHeader
    else (tegrablFmRead handle (some (sigFilePath binPath)) first 0 sizeofHeader).memory := rfl

variable {handle binPath} in
theorem loadSigFile_ok {addr : Nat} (read : (loadSigFile handle binPath first addr).1 = false) :
    let file := tegrablFmRead handle (some (sigFilePath binPath)) first addr sizeofHeader
    file.error = .ok () ∧ file.size = sizeofHeader ∧
      (loadSigFile handle binPath first addr).2 = file.memory := by
  intro file
  have flag : (!file.error.isOk || file.size != sizeofHeader) = false := read
  have memory : (loadSigFile handle binPath first addr).2 =
      if !file.error.isOk || file.size != sizeofHeader then file.memory.memset addr 0 sizeofHeader
      else file.memory := rfl
  rw [flag] at memory
  rw [Bool.or_eq_false_iff, Bool.not_eq_false', bne_eq_false_iff_eq] at flag
  cases ended : file.error with
  | ok done => exact ⟨rfl, flag.2, memory⟩
  | error error =>
    rw [ended] at flag
    cases flag.1

theorem placedBinary_header :
    AgreeOn 0 sizeofHeader (loadSigFile handle binPath first 0).2
      (placedBinary handle binMaxSize binPath first 0) := by
  intro a _ below
  have outside : a < binaryReadAddr 0 := below.trans_le (by decide)
  have kept : (readBinary handle binMaxSize binPath first 0).memory a =
      (loadSigFile handle binPath first 0).2 a :=
    tegrablFmRead_outside _ _ _ _ _ _ (.inl outside)
  simp only [placedBinary]
  rw [if_pos (by decide), ByteMem.memmove_outside _ _ _ _ _ (.inl (by rwa [Nat.zero_add])), kept]

theorem placedBinary_zeros (failFlag : (loadSigFile handle binPath first 0).1 = true) :
    AgreeOn 0 sizeofHeader (fun _ => 0) (placedBinary handle binMaxSize binPath first 0) := by
  refine AgreeOn.trans ?_ (placedBinary_header handle binMaxSize binPath first)
  intro a above below
  rw [loadSigFile_memory, failFlag, if_pos rfl, ByteMem.memset_inside _ _ _ _ _ above (by rwa [Nat.zero_add])]

variable {handle} {mount : Text} (mounted : handle.mountPath = some mount)
  (whole : handle.WholeReads)

include mounted whole

theorem loadSigFile_agree :
    AgreeOn 0 sizeofHeader (loadSigFile handle binPath first 0).2
      (loadSigFile handle binPath second 0).2 := by
  have same := loadSigFile_failFlag_congr handle binPath first second
  rw [loadSigFile_memory, loadSigFile_memory, ← same]
  cases failFlag : (loadSigFile handle binPath first 0).1 with
  | true =>
    have zeroed := AgreeOn.of_memset 0 0 sizeofHeader
      (tegrablFmRead handle (some (sigFilePath binPath)) first 0 sizeofHeader).memory
      (tegrablFmRead handle (some (sigFilePath binPath)) second 0 sizeofHeader).memory
    rwa [Nat.zero_add] at zeroed
  | false =>
    obtain ⟨success, size, -⟩ := loadSigFile_ok first failFlag
    have placed : AgreeOn 0 (0 + _) _ _ := tegrablFmRead_agree second mounted whole success
    rw [size, Nat.zero_add] at placed
    exact placed

theorem placedBinary_agree
    (success : (readBinary handle binMaxSize binPath first 0).error = .ok ()) :
    AgreeOn 0 (0 + sizeofHeader + (readBinary handle binMaxSize binPath first 0).size)
      (placedBinary handle binMaxSize binPath first 0)
      (placedBinary handle binMaxSize binPath second 0) := by
  have readAddr : binaryReadAddr 0 = 0x10000 := by decide
  have header : AgreeOn 0 sizeofHeader (readBinary handle binMaxSize binPath first 0).memory
      (readBinary handle binMaxSize binPath second 0).memory :=
    tegrablFmRead_agree_below (loadSigFile_agree binPath first second mounted whole) (by decide)
  have binary : AgreeOn (binaryReadAddr 0)
      (binaryReadAddr 0 + (readBinary handle binMaxSize binPath first 0).size)
      (readBinary handle binMaxSize binPath first 0).memory
      (readBinary handle binMaxSize binPath second 0).memory :=
    tegrablFmRead_agree _ mounted whole success
  have apart : binaryReadAddr 0 ≠ 0 + sizeofHeader := by decide
  simp only [placedBinary]
  rw [if_pos apart, if_pos apart, ← (readBinary_congr handle binMaxSize binPath first second).2]
  refine AgreeOn.append (0 + sizeofHeader) ?_ (AgreeOn.of_memmove _ le_rfl binary)
  rw [Nat.zero_add]
  exact header.memmove_below _ _ le_rfl

end Rootfs

/-! ### Loads -/

def BinaryLoad.covered (load : BinaryLoad) : Nat :=
  if load.fromRootfs then load.loadSize else load.loadSize - sizeofHeader

theorem covered_partition (error : Result Unit) (memory : ByteMem) (loadSize : Nat)
    (authenticated : Option (List Byte)) :
    BinaryLoad.covered ⟨error, memory, loadSize, false, authenticated⟩ = loadSize - sizeofHeader :=
  if_neg nofun

structure LoadAgree (first second : BinaryLoad) : Prop where
  error : first.error = second.error
  loadSize : first.error = .ok () → first.loadSize = second.loadSize
  fromRootfs : first.error = .ok () → first.fromRootfs = second.fromRootfs
  memory : first.error = .ok () → AgreeOn 0 first.covered first.memory second.memory

theorem LoadAgree.of_error {first second : BinaryLoad} {error : ErrorValue}
    (left : first.error = .error error) (right : second.error = .error error) :
    LoadAgree first second where
  error := left.trans right.symm
  loadSize := fun success => nomatch left.symm.trans success
  fromRootfs := fun success => nomatch left.symm.trans success
  memory := fun success => nomatch left.symm.trans success

structure SignedFits (binMaxSize : Nat) (data : List Byte) : Prop where
  header : sizeofHeader ≤ data.length
  room : data.length ≤ binMaxSize
  fits : HeaderFits (ByteMem.store (fun _ => 0) 0 data) 0 (data.length - sizeofHeader)

def Placed (data : List Byte) (mem : ByteMem) : Prop :=
  AgreeOn 0 data.length (ByteMem.store (fun _ => 0) 0 data) mem

theorem placed_store (data : List Byte) (mem : ByteMem) : Placed data (mem.store 0 data) := by
  have stored := AgreeOn.of_store 0 data (fun _ => 0) mem
  rwa [Nat.zero_add] at stored

theorem SignedFits.alike {binMaxSize : Nat} {data : List Byte} (signed : SignedFits binMaxSize data)
    (word : binMaxSize < 2 ^ 32) (engine : CryptoEngine) (minRatchet : Nat → Byte)
    (binType : BitVec 32) {first second : ByteMem} (left : Placed data first)
    (right : Placed data second) :
    Alike 0 (data.length - sizeofHeader)
      (tegrablValidateBinary engine minRatchet binType binMaxSize first 0)
      (tegrablValidateBinary engine minRatchet binType binMaxSize second 0) := by
  have long := signed.header
  have short := signed.room
  have agree : AgreeOn 0 data.length first second := left.symm.trans right
  have whole : 0 + sizeofHeader + (data.length - sizeofHeader) = data.length := by
    rw [Nat.zero_add, Nat.add_sub_cancel' long]
  have alike := validate_alike engine binMaxSize minRatchet binType (whole.symm ▸ agree)
    (signed.fits.congr (left.mono le_rfl (by rwa [Nat.zero_add])))
    (by rw [payloadMoveSize_eq (long.trans short) word]; exact Nat.sub_le_sub_right short _)
  rwa [Nat.zero_add] at alike

/-- The loader of partitions ends with a fixed error and places fixed bytes, for the kernel at the
load address itself and for the device tree at the next one. -/
structure PartitionReads (env : LoadEnv) (binType : BitVec 32) (binMaxSize : Nat) where
  error : Result Unit
  place : Nat
  data : List Byte
  reads : ∀ mem, env.tegrablLoadBinary binType mem 0 binMaxSize =
    ⟨error, mem.store place data, place, data.length⟩
  /-- A partition that is read holds a header that fits it. -/
  fits : error = .ok () → SignedFits binMaxSize data

theorem movedPartition_placed (mem : ByteMem) (place : Nat) {data : List Byte} {binMaxSize : Nat}
    (short : data.length ≤ binMaxSize) :
    Placed data
      (if place ≠ 0 then (mem.store place data).memmove 0 place binMaxSize
        else mem.store place data) := by
  intro a above below
  have reference := ByteMem.store_inside (fun _ => 0) 0 data a below
  rw [Nat.zero_add] at reference
  rw [reference]
  by_cases elsewhere : place = 0
  · subst elsewhere
    have stored := ByteMem.store_inside mem 0 data a below
    rw [Nat.zero_add] at stored
    rw [if_neg (not_not.mpr rfl), stored]
  · have moved := ByteMem.memmove_inside (mem.store place data) 0 place binMaxSize a
      (below.trans_le short)
    rw [Nat.zero_add] at moved
    rw [if_pos elsewhere, moved, ByteMem.store_inside mem place data a below]

section Loads

variable {env : LoadEnv} {binType : BitVec 32} {binMaxSize : Nat}
  (first second : ByteMem) (firstSize secondSize : Nat)

theorem loadFromPartition_agree (partition : PartitionReads env binType binMaxSize)
    (word : binMaxSize < 2 ^ 32) {sigheaderSize : Nat} (header : sigheaderSize ≤ sizeofHeader) :
    LoadAgree (loadFromPartition env binType binMaxSize sigheaderSize first 0 firstSize)
      (loadFromPartition env binType binMaxSize sigheaderSize second 0 secondSize) := by
  simp only [loadFromPartition]
  rw [partition.reads, partition.reads]
  cases ended : partition.error with
  | error error => exact LoadAgree.of_error rfl rfl
  | ok done =>
    have signed := partition.fits ended
    have long := signed.header
    simp only
    have left := movedPartition_placed first partition.place signed.room
    have right := movedPartition_placed second partition.place signed.room
    revert left right
    generalize (if partition.place ≠ 0 then
        (first.store partition.place partition.data).memmove 0 partition.place binMaxSize
      else first.store partition.place partition.data) = leftMem
    generalize (if partition.place ≠ 0 then
        (second.store partition.place partition.data).memmove 0 partition.place binMaxSize
      else second.store partition.place partition.data) = rightMem
    intro left right
    have agree : AgreeOn 0 partition.data.length leftMem rightMem := left.symm.trans right
    have alike := signed.alike word env.engine env.minRatchet binType left right
    rcases alike.cases with ⟨left, right, leftRan, rightRan, memory⟩ | ⟨error, leftRan, rightRan⟩
    · rw [leftRan, rightRan]
      refine ⟨rfl, fun _ => rfl, fun _ => rfl, fun _ => ?_⟩
      rw [covered_partition]
      exact memory
    · rw [leftRan, rightRan]
      simp only
      split
      · exact LoadAgree.of_error rfl rfl
      · refine ⟨rfl, fun _ => rfl, fun _ => rfl, fun _ => ?_⟩
        have source : AgreeOn (0 + sigheaderSize)
            (0 + sigheaderSize + (partition.data.length - sizeofHeader)) leftMem rightMem :=
          agree.mono (Nat.zero_le _) (by omega)
        have moved := AgreeOn.of_memmove 0 (Nat.sub_le partition.data.length sizeofHeader) source
        rw [covered_partition]
        rwa [Nat.zero_add] at moved

theorem validate_zeros (kind : binType = tegrablBinaryKernel ∨ binType = tegrablBinaryKernelDtb)
    (refuses : authenticateOemHeader env.engine (fun _ => 0) 0 ≠ .ok ())
    (zeros : AgreeOn 0 sizeofHeader (fun _ => 0) first) (outcome : AuthOutcome) :
    tegrablValidateBinary env.engine env.minRatchet binType binMaxSize first 0 ≠ .ok outcome := by
  intro validated
  have header : AgreeOn 0 (0 + sizeofHeader) (fun _ => 0) first := by rwa [Nat.zero_add]
  have none : numBinaries2 first 0 = 0 := (numBinaries2_congr header).symm.trans (by decide)
  rcases (validate_ok_iff _ _ _ _ _ _ kind outcome).mp validated with
    ⟨refused, -⟩ | ⟨-, success⟩
  · have accepted : tegrablDoRatchetCheck env.minRatchet (binType.setWidth 8) first 0 = true := by
      rw [tegrablDoRatchetCheck_iff, none]
      exact .inr fun i counted => absurd counted (Nat.not_lt_zero i)
    rw [accepted] at refused
    cases refused
  · have checked := (tegrablAuthPayload_ok _ _ _ _ success).1
    rw [← authenticateOemHeader_congr env.engine header] at checked
    exact refuses checked

theorem loadBinaryWithSig_agree {handle : FmHandle} {mount : Text} {binPath : Option Text}
    (mounted : handle.mountPath = some mount) (whole : handle.WholeReads)
    (partition : PartitionReads env binType binMaxSize)
    (room : sizeofHeader + 0xFFFF ≤ binMaxSize) (word : binMaxSize < 2 ^ 32)
    (refuses : authenticateOemHeader env.engine (fun _ => 0) 0 ≠ .ok ())
    (fits : ∀ path, binPath = some path →
      HeaderFits (loadSigFile handle path (fun _ => 0) 0).2 0
        (readBinary handle binMaxSize path (fun _ => 0) 0).size) :
    LoadAgree (loadBinaryWithSig env handle binType binMaxSize binPath first 0 firstSize)
      (loadBinaryWithSig env handle binType binMaxSize binPath second 0 secondSize) := by
  simp only [loadBinaryWithSig]
  split
  · exact LoadAgree.of_error rfl rfl
  rename_i known
  have kind : binType = tegrablBinaryKernel ∨ binType = tegrablBinaryKernelDtb := by
    by_contra neither
    exact known (not_or.mp neither)
  cases binPath with
  | none => exact loadFromPartition_agree _ _ _ _ partition word (Nat.zero_le _)
  | some path =>
    simp only
    obtain ⟨sameError, sameSize⟩ := readBinary_congr handle binMaxSize path first second
    rw [← sameError, ← sameSize, ← loadSigFile_failFlag_congr handle path first second]
    cases success : (readBinary handle binMaxSize path first 0).error with
    | error error => exact loadFromPartition_agree _ _ _ _ partition word le_rfl
    | ok done =>
      simp only
      have agree := placedBinary_agree binMaxSize path first second mounted whole success
      have header : AgreeOn 0 sizeofHeader (loadSigFile handle path (fun _ => 0) 0).2
          (placedBinary handle binMaxSize path first 0) :=
        (loadSigFile_agree path (fun _ => 0) first mounted whole).trans
          (placedBinary_header handle binMaxSize path first)
      have headerFits : HeaderFits (placedBinary handle binMaxSize path first 0) 0
          (readBinary handle binMaxSize path first 0).size := by
        rw [← (readBinary_congr handle binMaxSize path (fun _ => 0) first).2]
        exact (fits path rfl).congr (by rwa [Nat.zero_add])
      have alike := validate_alike env.engine binMaxSize env.minRatchet binType agree headerFits
        (readBinary_size_le room word)
      rcases alike.cases with ⟨left, right, leftRan, rightRan, memory⟩ | ⟨error, leftRan, rightRan⟩
      · rw [leftRan, rightRan]
        cases failFlag : (loadSigFile handle path first 0).1 with
        | false =>
          refine ⟨rfl, fun _ => rfl, fun _ => rfl, fun _ => ?_⟩
          show AgreeOn 0 (readBinary handle binMaxSize path first 0).size _ _
          rwa [Nat.zero_add] at memory
        | true =>
          have zeros := placedBinary_zeros handle binMaxSize path first failFlag
          exact absurd leftRan (validate_zeros _ kind refuses zeros left)
      · rw [leftRan, rightRan]
        simp only
        split
        · exact loadFromPartition_agree _ _ _ _ partition word le_rfl
        · refine ⟨rfl, fun _ => rfl, fun _ => rfl, fun _ => ?_⟩
          have moved := AgreeOn.of_memmove 0
            (le_refl (readBinary handle binMaxSize path first 0).size)
            (agree.mono (Nat.zero_le (0 + sizeofHeader)) le_rfl)
          show AgreeOn 0 (readBinary handle binMaxSize path first 0).size _ _
          rwa [Nat.zero_add] at moved

end Loads

end Cboot.LinuxBoot
