/-
**Loading a signed binary from the root file system.**

`loadBinaryWithSig` reads the signature file to the load address and the binary behind it, moves the
binary next to its header and validates the two. The size it reports is the size of the file; the
length the digest covers is in the signed header. When anything fails on a device with its security
fuse burned, the binary is loaded from its partition instead.
-/

import Cboot.Auth.Validate
import Cboot.LinuxBoot.FileManager

namespace Cboot.LinuxBoot

open Auth

/-! ### The loader -/

structure PartitionLoad where
  error : Result Unit
  memory : ByteMem
  loadAddr : Nat
  size : Nat

structure LoadEnv where
  engine : CryptoEngine
  minRatchet : Nat → Byte
  odmProduction : Bool
  tegrablLoadBinary : (binType : BitVec 32) → (mem : ByteMem) → (loadAddr size : Nat) →
    PartitionLoad

/-- What a load leaves: its error, the memory and `*load_size`; and, for later results, whether the
file system was the source and which bytes a checked digest covered. -/
structure BinaryLoad where
  error : Result Unit
  memory : ByteMem
  loadSize : Nat
  fromRootfs : Bool
  authenticated : Option (List Byte)

def fsMaxPathLen : Nat := 128

def sigFilePath (binPath : Text) : Text := (binPath ++ ['.', 's', 'i', 'g']).take (fsMaxPathLen - 1)

def roundUp64K (value : Nat) : Nat := (value + 0xFFFF) / 0x10000 * 0x10000

def loadSigFile (handle : FmHandle) (binPath : Text) (mem : ByteMem) (binLoadAddr : Nat) :
    Bool × ByteMem :=
  let read := tegrablFmRead handle (some (sigFilePath binPath)) mem binLoadAddr sizeofHeader
  let failFlag := !read.error.isOk || read.size != sizeofHeader
  (failFlag, if failFlag then read.memory.memset binLoadAddr 0 sizeofHeader else read.memory)

def binaryReadAddr (binLoadAddr : Nat) : Nat := roundUp64K (binLoadAddr + sizeofHeader)

def binaryRoom (binMaxSize binLoadAddr : Nat) : Nat :=
  (binMaxSize + 2 ^ 32 - (binaryReadAddr binLoadAddr - binLoadAddr)) % 2 ^ 32

def readBinary (handle : FmHandle) (binMaxSize : Nat) (binPath : Text) (mem : ByteMem)
    (binLoadAddr : Nat) : FmRead :=
  tegrablFmRead handle (some binPath) (loadSigFile handle binPath mem binLoadAddr).2
    (binaryReadAddr binLoadAddr) (binaryRoom binMaxSize binLoadAddr)

def placedBinary (handle : FmHandle) (binMaxSize : Nat) (binPath : Text) (mem : ByteMem)
    (binLoadAddr : Nat) : ByteMem :=
  let read := readBinary handle binMaxSize binPath mem binLoadAddr
  if binaryReadAddr binLoadAddr ≠ binLoadAddr + sizeofHeader then
    read.memory.memmove (binLoadAddr + sizeofHeader) (binaryReadAddr binLoadAddr) read.size
  else read.memory

def loadFromPartition (env : LoadEnv) (binType : BitVec 32) (binMaxSize sigheaderSize : Nat)
    (mem : ByteMem) (binLoadAddr loadSize : Nat) : BinaryLoad :=
  let load := env.tegrablLoadBinary binType mem binLoadAddr binMaxSize
  match load.error with
  | .error error => ⟨.error error, load.memory, loadSize, false, none⟩
  | .ok () =>
    let mem := if load.loadAddr ≠ binLoadAddr then
      load.memory.memmove binLoadAddr load.loadAddr binMaxSize else load.memory
    match tegrablValidateBinary env.engine env.minRatchet binType binMaxSize mem binLoadAddr with
    | .ok outcome => ⟨.ok (), outcome.memory, load.size, false, outcome.authenticated⟩
    | .error error =>
      if env.odmProduction then ⟨.error error, mem, load.size, false, none⟩
      else ⟨.ok (), mem.memmove binLoadAddr (binLoadAddr + sigheaderSize) load.size, load.size,
        false, none⟩

def loadBinaryWithSig (env : LoadEnv) (handle : FmHandle) (binType : BitVec 32)
    (binMaxSize : Nat) (binPath : Option Text) (mem : ByteMem) (binLoadAddr loadSize : Nat) :
    BinaryLoad :=
  if binType ≠ tegrablBinaryKernel ∧ binType ≠ tegrablBinaryKernelDtb then
    ⟨tegrablError .linuxboot .invalid 0, mem, loadSize, false, none⟩
  else
    match binPath with
    | none => loadFromPartition env binType binMaxSize 0 mem binLoadAddr loadSize
    | some binPath =>
      let failFlag := (loadSigFile handle binPath mem binLoadAddr).1
      let read := readBinary handle binMaxSize binPath mem binLoadAddr
      match read.error with
      | .error _ =>
        loadFromPartition env binType binMaxSize sizeofHeader read.memory binLoadAddr loadSize
      | .ok () =>
        let loadSize := read.size
        let mem := placedBinary handle binMaxSize binPath mem binLoadAddr
        let validated :=
          tegrablValidateBinary env.engine env.minRatchet binType binMaxSize mem binLoadAddr
        match validated, failFlag with
        | .ok outcome, false => ⟨.ok (), outcome.memory, loadSize, true, outcome.authenticated⟩
        | validated, _ =>
          let mem := match validated with
            | .ok outcome => outcome.memory
            | .error _ => mem
          if env.odmProduction then
            loadFromPartition env binType binMaxSize sizeofHeader mem binLoadAddr loadSize
          else ⟨.ok (), mem.memmove binLoadAddr (binLoadAddr + sizeofHeader) loadSize, loadSize,
            true, none⟩

/-! ### What a load through the file system leaves -/

theorem loadFromPartition_fromRootfs (env : LoadEnv) (binType : BitVec 32)
    (binMaxSize sigheaderSize : Nat) (mem : ByteMem) (binLoadAddr loadSize : Nat) :
    (loadFromPartition env binType binMaxSize sigheaderSize mem binLoadAddr loadSize).fromRootfs =
      false := by
  unfold loadFromPartition
  simp only
  split
  · rfl
  · split
    · rfl
    · split <;> rfl

theorem binaryReadAddr_bounds (binLoadAddr : Nat) :
    binLoadAddr + sizeofHeader ≤ binaryReadAddr binLoadAddr ∧
      binaryReadAddr binLoadAddr ≤ binLoadAddr + sizeofHeader + 0xFFFF := by
  unfold binaryReadAddr roundUp64K
  omega

section Rootfs

variable {env : LoadEnv} {handle : FmHandle} {binType : BitVec 32} {binMaxSize : Nat}
  {binPath : Text} {mem : ByteMem} {binLoadAddr loadSize : Nat}

theorem loadBinaryWithSig_rootfs (production : env.odmProduction = true)
    (kind : binType = tegrablBinaryKernel ∨ binType = tegrablBinaryKernelDtb)
    (rootfs : (loadBinaryWithSig env handle binType binMaxSize (some binPath) mem binLoadAddr
      loadSize).fromRootfs = true) :
    ∃ outcome, tegrablValidateBinary env.engine env.minRatchet binType binMaxSize
        (placedBinary handle binMaxSize binPath mem binLoadAddr) binLoadAddr = .ok outcome ∧
      loadBinaryWithSig env handle binType binMaxSize (some binPath) mem binLoadAddr loadSize =
        ⟨.ok (), outcome.memory, (readBinary handle binMaxSize binPath mem binLoadAddr).size, true,
          outcome.authenticated⟩ := by
  have known : ¬ (binType ≠ tegrablBinaryKernel ∧ binType ≠ tegrablBinaryKernelDtb) :=
    fun neither => kind.elim neither.1 neither.2
  rw [loadBinaryWithSig, if_neg known] at rootfs ⊢
  simp only at rootfs ⊢
  cases readError : (readBinary handle binMaxSize binPath mem binLoadAddr).error with
  | error error =>
    rw [readError] at rootfs
    simp only [loadFromPartition_fromRootfs] at rootfs
    cases rootfs
  | ok done =>
    rw [readError] at rootfs
    simp only at rootfs ⊢
    cases validated : tegrablValidateBinary env.engine env.minRatchet binType binMaxSize
        (placedBinary handle binMaxSize binPath mem binLoadAddr) binLoadAddr with
    | error error =>
      rw [validated] at rootfs
      simp only [production, if_true, loadFromPartition_fromRootfs] at rootfs
      cases rootfs
    | ok outcome =>
      cases failFlag : (loadSigFile handle binPath mem binLoadAddr).1 with
      | true =>
        rw [validated, failFlag] at rootfs
        simp only [production, if_true, loadFromPartition_fromRootfs] at rootfs
        cases rootfs
      | false => exact ⟨outcome, rfl, rfl⟩

theorem readBinary_size_le (room : sizeofHeader + 0xFFFF ≤ binMaxSize) (word : binMaxSize < 2 ^ 32) :
    (readBinary handle binMaxSize binPath mem binLoadAddr).size ≤ payloadMoveSize binMaxSize := by
  have fits := tegrablFmRead_size_le handle (some binPath)
    (loadSigFile handle binPath mem binLoadAddr).2 (binaryReadAddr binLoadAddr)
    (binaryRoom binMaxSize binLoadAddr)
  have bounds := binaryReadAddr_bounds binLoadAddr
  refine fits.trans ?_
  unfold binaryRoom payloadMoveSize
  rw [sizeofHeader_eq] at *
  omega

def Covered (load : BinaryLoad) (placed : ByteMem) (binLoadAddr : Nat) : Prop :=
  load.authenticated = some (payloadBytes placed binLoadAddr) ∧
    load.loadSize ≤ binaryLen placed binLoadAddr ∧
    load.memory.load binLoadAddr load.loadSize =
      (payloadBytes placed binLoadAddr).take load.loadSize

instance (load : BinaryLoad) (placed : ByteMem) (binLoadAddr : Nat) :
    Decidable (Covered load placed binLoadAddr) := inferInstanceAs (Decidable (_ ∧ _ ∧ _))

end Rootfs

/-! ### A file longer than what was signed -/

def signedImage (signature image : List Byte) : FmHandle where
  mountPath := some ['/', 's', 'd']
  files := fun path =>
    if path = ['/', 's', 'd', '/', 'I', '.', 's', 'i', 'g'] then .whole signature
    else if path = ['/', 's', 'd', '/', 'I'] then .whole image
    else .missing

def zeroHashDevice : LoadEnv where
  engine := zeroHashEngine
  minRatchet := fun _ => 1
  odmProduction := true
  tegrablLoadBinary := fun _ mem addr size => ⟨tegrablError .loader .readFailed 0, mem, addr, size⟩

end Cboot.LinuxBoot
