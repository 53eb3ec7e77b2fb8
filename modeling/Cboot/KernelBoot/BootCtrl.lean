/-
**The boot control data of the kernel.**

`tegrablGetKernelBootctrl` says whether the kernel or the recovery image boots. The data has two
copies, in the partitions `kernel-bootctrl` and `kernel-bootctrl_b`. The second one is looked at
when the first cannot be loaded, and whatever is loaded is then checked; data that fails the check
is replaced by a default.
-/

import Cboot.Error
import Cboot.Utils.Crc32

namespace Cboot.KernelBoot

/-! ### The data -/

structure KernelBootctrl where
  magicNumber : BitVec 32
  mode : BitVec 32
  command : BitVec 32
  version : BitVec 32
  crc32 : BitVec 32
  deriving DecidableEq

def sizeofKernelBootctrl : Nat := 20

def kernelBootctrlMagicNumber : BitVec 32 := 0x4C544342#32

def kernelBootctrlVersion : BitVec 32 := 1#32

def bootModeMax : BitVec 32 := 1#32

def recoveryCmdMax : BitVec 32 := 2#32

variable (control : KernelBootctrl)

namespace KernelBootctrl

def ofBytes (mem : ByteMem) (addr : Nat) : KernelBootctrl where
  magicNumber := word32 mem addr
  mode := word32 mem (addr + 4)
  command := word32 mem (addr + 8)
  version := word32 mem (addr + 12)
  crc32 := word32 mem (addr + 16)

def checkedBytes : List Byte :=
  bytes32 control.magicNumber ++ bytes32 control.mode ++ bytes32 control.command ++
    bytes32 control.version

def Valid : Prop :=
  control.magicNumber = kernelBootctrlMagicNumber ∧ control.version = kernelBootctrlVersion ∧
    control.mode ≤ bootModeMax ∧ control.command ≤ recoveryCmdMax ∧
    tegrablUtilsCrc32 0 control.checkedBytes = control.crc32

instance : Decidable control.Valid := by
  unfold Valid
  exact inferInstance

def passes : Bool :=
  if control.magicNumber ≠ kernelBootctrlMagicNumber then false
  else if control.version ≠ kernelBootctrlVersion then false
  else if bootModeMax < control.mode then false
  else if recoveryCmdMax < control.command then false
  else if tegrablUtilsCrc32 0 control.checkedBytes ≠ control.crc32 then false
  else true

theorem passes_iff : control.passes = true ↔ control.Valid := by
  unfold passes Valid
  simp only [ne_eq, ite_not, BitVec.not_lt.symm]
  split <;> simp_all

end KernelBootctrl

def dummyKernelBootctrl : KernelBootctrl where
  magicNumber := kernelBootctrlMagicNumber
  mode := 0#32
  command := 0#32
  version := kernelBootctrlVersion
  crc32 := 0x1CD6A971#32

theorem dummyKernelBootctrl_invalid : ¬dummyKernelBootctrl.Valid := by
  decide +kernel

/-! ### The loader of partitions -/

inductive BinaryCopy
  | primary
  | recovery
  deriving DecidableEq

def tegrablGetPartitionName : BinaryCopy → String
  | .primary => "kernel-bootctrl"
  | .recovery => "kernel-bootctrl_b"

structure StoredPartition where
  blockSizeLog2 : Nat
  numBlocks : Nat
  content : ByteMem
  sector : 9 ≤ blockSizeLog2

variable (partition : StoredPartition)

def StoredPartition.size : Nat :=
  partition.numBlocks <<< partition.blockSizeLog2

structure ReadFault where
  error : ErrorValue
  left : ByteMem → ByteMem

structure LoaderEnv where
  allocAlign : Option Nat
  partitionOpen : String → Result StoredPartition
  readFault : String → Option ReadFault

structure LoaderState where
  memory : ByteMem
  bootImgLoadAddr : Option Nat

def tegrablGetBootImgLoadAddr (env : LoaderEnv) (s : LoaderState) : Result Nat × LoaderState :=
  match s.bootImgLoadAddr with
  | some loadAddr => (.ok loadAddr, s)
  | none =>
    match env.allocAlign with
    | none => (tegrablError .linuxboot .noMemory 0, s)
    | some loadAddr => (.ok loadAddr, { s with bootImgLoadAddr := some loadAddr })

def loaderRaise {α : Type} (error : ErrorValue) : Result α :=
  .error (setHighestModule .loader error)

def readPartition (env : LoaderEnv) (name : String) (partition : StoredPartition) (loadAddr : Nat)
    (s : LoaderState) : Result Unit × LoaderState :=
  match env.readFault name with
  | some fault => (.error fault.error, { s with memory := fault.left s.memory })
  | none =>
    (.ok (), { s with memory := s.memory.copyFrom partition.content loadAddr 0 partition.size })

def tegrablLoadBinaryCopy (env : LoaderEnv) (copy : BinaryCopy) (s : LoaderState) :
    Result Nat × LoaderState :=
  match tegrablGetBootImgLoadAddr env s with
  | (.error error, s) => (loaderRaise error, s)
  | (.ok loadAddr, s) =>
    let name := tegrablGetPartitionName copy
    match env.partitionOpen name with
    | .error error => (loaderRaise error, s)
    | .ok partition =>
      if partition.size = 0 then (tegrablError .loader .invalid 2, s)
      else
        match readPartition env name partition loadAddr s with
        | (.error error, s) => (loaderRaise error, s)
        | (.ok (), s) => (.ok loadAddr, s)

def checkedOrDummy : KernelBootctrl :=
  if control.passes then control else dummyKernelBootctrl

def tegrablGetKernelBootctrl (env : LoaderEnv) (s : LoaderState) : KernelBootctrl × LoaderState :=
  match tegrablLoadBinaryCopy env .primary s with
  | (.ok loadAddr, s) => (checkedOrDummy (.ofBytes s.memory loadAddr), s)
  | (.error _, s) =>
    match tegrablLoadBinaryCopy env .recovery s with
    | (.ok loadAddr, s) => (checkedOrDummy (.ofBytes s.memory loadAddr), s)
    | (.error _, s) => (dummyKernelBootctrl, s)

/-! ### Readable copies -/

def loadAddr? (env : LoaderEnv) (s : LoaderState) : Option Nat :=
  match s.bootImgLoadAddr with
  | some loadAddr => some loadAddr
  | none => env.allocAlign

def readable (env : LoaderEnv) (s : LoaderState) (copy : BinaryCopy) : Option StoredPartition :=
  match loadAddr? env s, env.partitionOpen (tegrablGetPartitionName copy),
      env.readFault (tegrablGetPartitionName copy) with
  | some _, .ok partition, none => if partition.size = 0 then none else some partition
  | _, _, _ => none

def storedBootctrl (env : LoaderEnv) (s : LoaderState) (copy : BinaryCopy) :
    Option KernelBootctrl :=
  (readable env s copy).map fun partition => .ofBytes partition.content 0

variable {env : LoaderEnv} {s : LoaderState} {copy : BinaryCopy}

theorem StoredPartition.holds (nonempty : partition.size ≠ 0) :
    sizeofKernelBootctrl ≤ partition.size := by
  unfold size at nonempty ⊢
  rw [Nat.shiftLeft_eq] at nonempty ⊢
  have some : 1 ≤ partition.numBlocks := Nat.pos_of_ne_zero fun none => nonempty (by simp [none])
  have block : 2 ^ 9 ≤ 2 ^ partition.blockSizeLog2 :=
    Nat.pow_le_pow_right (Nat.succ_pos 1) partition.sector
  calc sizeofKernelBootctrl ≤ 1 * 2 ^ 9 := by decide
    _ ≤ partition.numBlocks * 2 ^ partition.blockSizeLog2 := Nat.mul_le_mul some block

theorem ofBytes_copyFrom (nonempty : partition.size ≠ 0) (mem : ByteMem) (addr : Nat) :
    KernelBootctrl.ofBytes (mem.copyFrom partition.content addr 0 partition.size) addr =
      .ofBytes partition.content 0 := by
  have room := partition.holds nonempty
  have agree : AgreeOn 0 sizeofKernelBootctrl
      ((mem.copyFrom partition.content addr 0 partition.size).view addr) partition.content := by
    intro i _ bound
    show mem.copyFrom partition.content addr 0 partition.size (addr + i) = partition.content i
    rw [ByteMem.copyFrom_inside mem partition.content (Nat.le_add_right addr i)
      (Nat.add_lt_add_left (Nat.lt_of_lt_of_le bound room) addr), Nat.add_sub_cancel_left,
      Nat.zero_add]
  have word : ∀ i, i + 4 ≤ sizeofKernelBootctrl →
      word32 (mem.copyFrom partition.content addr 0 partition.size) (addr + i) =
        word32 partition.content i := by
    intro i bound
    rw [← word32_view]
    exact agree.word32 (Nat.zero_le i) bound
  have first := word 0 (by decide)
  rw [Nat.add_zero] at first
  simp only [KernelBootctrl.ofBytes, Nat.zero_add]
  rw [first, word 4 (by decide), word 8 (by decide), word 12 (by decide), word 16 (by decide)]

/-! ### What a load leaves -/

theorem getBootImgLoadAddr_some {loadAddr : Nat} (room : loadAddr? env s = some loadAddr) :
    tegrablGetBootImgLoadAddr env s =
      (.ok loadAddr, { s with bootImgLoadAddr := some loadAddr }) := by
  obtain ⟨memory, _ | static⟩ := s
  · unfold loadAddr? at room
    unfold tegrablGetBootImgLoadAddr
    rw [show env.allocAlign = some loadAddr from room]
  · obtain rfl := Option.some.inj room
    rfl

theorem getBootImgLoadAddr_none (full : loadAddr? env s = none) :
    tegrablGetBootImgLoadAddr env s = (tegrablError .linuxboot .noMemory 0, s) := by
  obtain ⟨memory, _ | static⟩ := s
  · unfold tegrablGetBootImgLoadAddr
    rw [show env.allocAlign = none from full]
  · nomatch full

theorem loadBinaryCopy_of_readable {partition : StoredPartition}
    (found : readable env s copy = some partition) :
    ∃ loadAddr after, tegrablLoadBinaryCopy env copy s = (.ok loadAddr, after) ∧
      KernelBootctrl.ofBytes after.memory loadAddr = .ofBytes partition.content 0 := by
  unfold readable at found
  split at found
  · next loadAddr partition' room opened sound =>
    split at found
    · nomatch found
    · next nonempty =>
      obtain rfl : partition' = partition := Option.some.inj found
      have data := ofBytes_copyFrom partition' nonempty s.memory loadAddr
      refine ⟨loadAddr, ⟨s.memory.copyFrom partition'.content loadAddr 0 partition'.size,
        some loadAddr⟩, ?_, data⟩
      rw [tegrablLoadBinaryCopy, getBootImgLoadAddr_some room]
      simp only [opened, if_neg nonempty, readPartition, sound]
  · nomatch found

theorem loadBinaryCopy_of_not_readable (missing : readable env s copy = none) :
    ∃ error after, tegrablLoadBinaryCopy env copy s = (.error error, after) ∧
      loadAddr? env after = loadAddr? env s := by
  unfold tegrablLoadBinaryCopy
  cases room : loadAddr? env s with
  | none =>
    rw [getBootImgLoadAddr_none room]
    exact ⟨_, s, rfl, room⟩
  | some loadAddr =>
    rw [getBootImgLoadAddr_some room]
    cases opened : env.partitionOpen (tegrablGetPartitionName copy) with
    | error error => exact ⟨_, _, by simp only [opened]; rfl, rfl⟩
    | ok partition =>
      by_cases empty : partition.size = 0
      · exact ⟨_, _, by simp only [opened, if_pos empty]; rfl, rfl⟩
      · cases fault : env.readFault (tegrablGetPartitionName copy) with
        | some fault' =>
          exact ⟨_, _, by simp only [opened, if_neg empty, readPartition, fault]; rfl, rfl⟩
        | none =>
          unfold readable at missing
          rw [room, opened, fault] at missing
          exact absurd missing (by simp [empty])

theorem readable_congr {after : LoaderState} (same : loadAddr? env after = loadAddr? env s) :
    readable env after copy = readable env s copy := by
  unfold readable
  rw [same]

/-! ### What is returned -/

def firstReadable (env : LoaderEnv) (s : LoaderState) : Option KernelBootctrl :=
  (storedBootctrl env s .primary).or (storedBootctrl env s .recovery)

theorem getKernelBootctrl_eq (env : LoaderEnv) (s : LoaderState) :
    (tegrablGetKernelBootctrl env s).1 =
      ((firstReadable env s).map checkedOrDummy).getD dummyKernelBootctrl := by
  unfold tegrablGetKernelBootctrl firstReadable storedBootctrl
  cases first : readable env s .primary with
  | some partition =>
    obtain ⟨loadAddr, after, loaded, data⟩ := loadBinaryCopy_of_readable first
    rw [loaded]
    show checkedOrDummy (.ofBytes after.memory loadAddr) = _
    rw [data]
    rfl
  | none =>
    obtain ⟨error, after, failed, same⟩ := loadBinaryCopy_of_not_readable first
    rw [failed]
    cases second : readable env s .recovery with
    | some partition =>
      obtain ⟨loadAddr, last, loaded, data⟩ :=
        loadBinaryCopy_of_readable ((readable_congr same).trans second)
      simp only [loaded, data]
      rfl
    | none =>
      obtain ⟨error', last, failed', _⟩ :=
        loadBinaryCopy_of_not_readable ((readable_congr same).trans second)
      simp only [failed']
      rfl

def validBootctrl (env : LoaderEnv) (s : LoaderState) (copy : BinaryCopy) : Option KernelBootctrl :=
  (storedBootctrl env s copy).filter fun control => control.Valid

def redundantBootctrl (env : LoaderEnv) (s : LoaderState) : KernelBootctrl :=
  ((validBootctrl env s .primary).or (validBootctrl env s .recovery)).getD dummyKernelBootctrl

theorem checkedOrDummy_of_valid {control : KernelBootctrl} (valid : control.Valid) :
    checkedOrDummy control = control :=
  if_pos (control.passes_iff.mpr valid)

theorem checkedOrDummy_of_invalid {control : KernelBootctrl} (invalid : ¬control.Valid) :
    checkedOrDummy control = dummyKernelBootctrl :=
  if_neg fun passes => invalid (control.passes_iff.mp passes)

theorem checkedOrDummy_eq_filter :
    checkedOrDummy control =
      ((some control).filter fun control => control.Valid).getD dummyKernelBootctrl := by
  by_cases valid : control.Valid
  · rw [checkedOrDummy_of_valid valid]
    simp [Option.filter, valid]
  · rw [checkedOrDummy_of_invalid valid]
    simp [Option.filter, valid]

/-- **The fallback.** What is returned is the first copy that is readable and valid, or the default
without one, exactly when no readable and valid second copy stands behind a readable first one that
is not valid. -/
theorem bootctrl_fallback_iff (env : LoaderEnv) (s : LoaderState) :
    (tegrablGetKernelBootctrl env s).1 = redundantBootctrl env s ↔
      ¬∃ first second, storedBootctrl env s .primary = some first ∧ ¬first.Valid ∧
        storedBootctrl env s .recovery = some second ∧ second.Valid := by
  rw [getKernelBootctrl_eq]
  unfold firstReadable redundantBootctrl validBootctrl
  cases primary : storedBootctrl env s .primary with
  | none =>
    refine iff_of_true ?_ (by simp)
    cases recovery : storedBootctrl env s .recovery with
    | none => rfl
    | some second => exact checkedOrDummy_eq_filter second
  | some first =>
    show checkedOrDummy first = _ ↔ _
    by_cases valid : first.Valid
    · refine iff_of_true ?_ (by simpa using fun invalid => absurd valid invalid)
      rw [checkedOrDummy_of_valid valid]
      simp [Option.filter, valid]
    · rw [checkedOrDummy_of_invalid valid]
      cases recovery : storedBootctrl env s .recovery with
      | none => exact iff_of_true (by simp [Option.filter, valid]) (by simp)
      | some second =>
        by_cases good : second.Valid
        · -- the default is not valid, so it is not by accident what the second copy holds
          have lost : dummyKernelBootctrl ≠ second := by
            intro same
            exact dummyKernelBootctrl_invalid (same ▸ good)
          exact iff_of_false (by simpa [Option.filter, valid, good] using lost)
            (by simp [valid, good])
        · exact iff_of_true (by simp [Option.filter, valid, good]) (by simp [good])

def updateBootctrl : KernelBootctrl where
  magicNumber := kernelBootctrlMagicNumber
  mode := 1#32
  command := 1#32
  version := kernelBootctrlVersion
  crc32 := 0x68C0CE8A#32

def zeroedPrimary : LoaderEnv where
  allocAlign := some 0x1000
  partitionOpen := fun name =>
    let blank : ByteMem := fun _ => 0#8
    let stored := updateBootctrl.checkedBytes ++ bytes32 updateBootctrl.crc32
    .ok ⟨9, 8, if name = "kernel-bootctrl_b" then blank.store 0 stored else blank, Nat.le_refl 9⟩
  readFault := fun _ => none

/-- **A request for an update is lost** behind a first copy of zeros. -/
theorem update_request_lost :
    storedBootctrl zeroedPrimary ⟨fun _ => 0#8, none⟩ .recovery = some updateBootctrl ∧
      updateBootctrl.Valid ∧
      (tegrablGetKernelBootctrl zeroedPrimary ⟨fun _ => 0#8, none⟩).1 = dummyKernelBootctrl := by
  decide +kernel

/-- **A burst error in the first copy** is never taken for boot control data, and the second copy is
not looked at. -/
theorem bootctrl_after_burst (control damaged : KernelBootctrl) (valid : control.Valid)
    (stored : storedBootctrl env s .primary = some damaged)
    (burst : Burst (control.checkedBytes ++ bytes32 control.crc32)
      (damaged.checkedBytes ++ bytes32 damaged.crc32)) :
    (tegrablGetKernelBootctrl env s).1 = dummyKernelBootctrl := by
  have invalid : ¬damaged.Valid := by
    rw [← valid.2.2.2.2] at burst
    exact fun still => burst.check_ne still.2.2.2.2
  rw [getKernelBootctrl_eq, firstReadable, stored]
  exact checkedOrDummy_of_invalid invalid

theorem bootctrl_after_lost_mode :
    (tegrablGetKernelBootctrl { zeroedPrimary with partitionOpen := fun _ => .ok ⟨9, 8,
      .store (fun _ => 0) 0 ({ updateBootctrl with mode := 0 }.checkedBytes ++
        bytes32 updateBootctrl.crc32), le_rfl⟩ } ⟨fun _ => 0, none⟩).1 =
      dummyKernelBootctrl :=
  bootctrl_after_burst updateBootctrl { updateBootctrl with mode := 0 } (by decide +kernel)
    (by decide +kernel) ⟨messageBits (bytes32 kernelBootctrlMagicNumber), messageBits (bytes32 1),
      messageBits (bytes32 0), messageBits (bytes32 1 ++ bytes32 1 ++ bytes32 updateBootctrl.crc32),
      by decide, by decide, by decide, by decide, by decide⟩

end Cboot.KernelBoot
