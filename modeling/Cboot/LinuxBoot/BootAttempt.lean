/-
**The attempts to load a kernel.**

The functions that load a kernel and its device tree from the network, from a USB or SD medium and
from the builtin storage, as programs on the variables they share: the static ones of
`extlinux_boot.c`, the load buffer of the boot image, and the pointers and sizes that
`tegrabl_load_kernel_and_dtb` passes by reference and does not reset between two attempts.

A load address stands for the memory it leads to, with addresses counted from its start: the boot
image has one buffer, which is allocated once and used by every attempt, and each request for a
device tree or ramdisk address returns a fresh one, with the bytes that happen to be there.
-/

import Cboot.LinuxBoot.BootImage
import Cboot.LinuxBoot.LoadLocality
import Cboot.LinuxBoot.MediaOrder

namespace Cboot.LinuxBoot

open Auth Prog

/-! ### Media -/

def bootImageMaxSize : Nat := 0x05000000

def dtbMaxSize : Nat := 0x00400000

def dtbAlignment : Nat := 0x01000000

structure PartitionAccess where
  lookup : Result Unit
  size : Nat
  read : Result Unit
  data : List Byte

inductive BinaryKind
  | kernel
  | kernelDtb
  | recoveryImg
  | recoveryDtb

structure LoadedPartition where
  error : Result Unit
  data : List Byte

structure TftpServer where
  stackInit : Bool
  download : Result Unit
  dtb : List Byte
  bootImage : List Byte

structure MediumContents where
  initDevice : Result Unit
  opens : Bool
  publish : Result Unit
  handle : FmHandle
  published : Bool
  partitions : Text → PartitionAccess
  loadBinary : BinaryKind → LoadedPartition
  tftp : TftpServer

structure AttemptMemory where
  handleAllocated : Bool
  conf : ConfHeap
  bootImgAllocated : Bool
  extlinuxDtb : ByteMem
  partitionDtb : ByteMem
  ramdisk : ByteMem

structure AttemptEnv where
  contents : MediumContents
  console : List ConsoleRead
  memory : AttemptMemory

/-- The device: its crypto engine, ratchet table and fuse, whether it boots from A/B slots, the
fields of `struct tegrabl_kernel_bin`, whether there is an image in memory, and its decompressors. -/
structure Platform where
  engine : CryptoEngine
  minRatchet : Nat → Byte
  odmProduction : Bool
  abSlot : Bool
  loadFromStorage : Bool
  memoryImage : Bool
  recoveryMode : Bool
  decompressors : Decompressors

variable (platform : Platform)

def Platform.loadEnv (contents : MediumContents) : LoadEnv where
  engine := platform.engine
  minRatchet := platform.minRatchet
  odmProduction := platform.odmProduction
  tegrablLoadBinary := fun binType mem loadAddr _ =>
    if binType = tegrablBinaryKernel then
      let loaded := contents.loadBinary .kernel
      ⟨loaded.error, mem.store loadAddr loaded.data, loadAddr, loaded.data.length⟩
    else
      let loaded := contents.loadBinary .kernelDtb
      ⟨loaded.error, mem.store (loadAddr + dtbAlignment) loaded.data, loadAddr + dtbAlignment,
        loaded.data.length⟩

/-! ### The shared variables -/

/-- The variables that survive an attempt: the static ones of `extlinux_boot.c`; whether the boot
image buffer is allocated, whether `boot_img_load_addr` leads to it, and its bytes; the memory
`kernel_dtb` and `ramdisk_load_addr` lead to, unless they are null; `kernel_size` and `ramdisk_size`.
The last two fields are no variables: they count the bytes of the medium at the start of the image
buffer and of the device tree, which is how later results speak about them. -/
structure BootState where
  extlinux : Extlinux
  bootImgAllocated : Bool
  bootImgSet : Bool
  bootImg : ByteMem
  kernelDtb : Option ByteMem
  ramdisk : Option ByteMem
  kernelSize : Nat
  ramdiskSize : Nat
  imageBytes : Nat
  dtbBytes : Nat

def BootState.initial (bootImg : ByteMem) : BootState where
  extlinux := .initial
  bootImgAllocated := false
  bootImgSet := false
  bootImg := bootImg
  kernelDtb := none
  ramdisk := none
  kernelSize := 0
  ramdiskSize := 0
  imageBytes := 0
  dtbBytes := 0

def onExtlinux {α : Type} (p : Prog ErrorValue Extlinux α) : Prog ErrorValue BootState α :=
  zoom BootState.extlinux (fun extlinux state => { state with extlinux }) p

def getBootImgLoadAddr (memory : AttemptMemory) : Prog ErrorValue BootState Unit := do
  let state ← read
  if state.bootImgAllocated || memory.bootImgAllocated then
    modify fun state => { state with bootImgAllocated := true, bootImgSet := true }
  else do
    modify fun state => { state with bootImgSet := false }
    fail (linuxbootError .noMemory 0)

/-! ### From the root file system -/

def loadKernel (env : LoadEnv) (handle : FmHandle) (path : Option Text) :
    Prog ErrorValue BootState Unit := do
  let state ← read
  let load := loadBinaryWithSig env handle tegrablBinaryKernel bootImageMaxSize path state.bootImg 0
    state.kernelSize
  modify fun state =>
    { state with
      bootImg := load.memory
      kernelSize := load.loadSize
      imageBytes := load.covered }
  ofResult load.error

def loadDtb (env : LoadEnv) (handle : FmHandle) (path : Option Text) (ram : ByteMem) :
    Prog ErrorValue BootState Unit := do
  let load := loadBinaryWithSig env handle tegrablBinaryKernelDtb dtbMaxSize path ram 0 0
  modify fun state => { state with kernelDtb := some load.memory, dtbBytes := load.covered }
  ofResult load.error

def chosenEntry : Prog ErrorValue BootState BootSection := do
  let state ← read
  ofOption (state.extlinux.conf.sections state.extlinux.bootEntry).deref

variable (env : AttemptEnv)

def extlinuxLoad : Prog ErrorValue BootState Unit :=
  let handle := env.contents.handle
  if handle.mountPath.isNone then fail (linuxbootError .invalid 0)
  else do
    onExtlinux (getBootDetails handle env.memory.conf env.console)
    let entry ← chosenEntry
    onExtlinux (modify fun extlinux =>
      { extlinux with ramdiskPath := entry.initrdPath, bootArgs := entry.bootArgs })
    getBootImgLoadAddr env.memory
    modify fun state => { state with kernelDtb := some env.memory.extlinuxDtb }
    loadKernel (platform.loadEnv env.contents) handle entry.linuxPath
    loadDtb (platform.loadEnv env.contents) handle entry.dtbPath env.memory.extlinuxDtb

def extlinuxBootLoadKernelAndDtb : Prog ErrorValue BootState Unit :=
  always (extlinuxLoad platform env) fun state =>
    (freeSections state.extlinux).map fun extlinux => { state with extlinux }

def extlinuxBootLoadRamdisk : Prog ErrorValue BootState Unit := do
  let state ← read
  match state.extlinux.ramdiskPath with
  | none => pure ()
  | some path => do
    let file := tegrablFmRead env.contents.handle (some path) env.memory.ramdisk 0 ramdiskMaxSize
    modify fun state => { state with ramdisk := some file.memory }
    ofResult file.error
    modify fun state => { state with ramdiskSize := file.size }

def tryExtlinux : Prog ErrorValue BootState Bool :=
  recover
    (do
      extlinuxBootLoadKernelAndDtb platform env
      pure true)
    fun _ => pure false

def tryMountedExtlinux : Prog ErrorValue BootState Bool :=
  if env.contents.handle.mountPath.isNone then pure false else tryExtlinux platform env

def finishExtlinux : Prog ErrorValue BootState Unit := do
  extlinuxBootLoadRamdisk env
  onExtlinux (modify fun extlinux => { extlinux with isSuccess := true })

/-! ### From partitions and from the network -/

def tegrablFmReadPartition (partition : PartitionAccess) (size : Nat) : List Byte × Result Nat :=
  match partition.lookup with
  | .error error => ([], .error (setHighestModule .fileManager error))
  | .ok () =>
    if partition.size = 0 then ([], tegrablError .fileManager .invalid 4)
    else if size < partition.size then ([], tegrablError .fileManager .overflow 1)
    else
      match partition.read with
      | .error error => (partition.data, .error (setHighestModule .fileManager error))
      | .ok () => (partition.data, .ok partition.size)

def placeImage (bytes : List Byte) : Prog ErrorValue BootState Unit :=
  modify fun state =>
    { state with
      bootImg := state.bootImg.store 0 bytes
      imageBytes := bytes.length - sizeofHeader }

def placeDtb (ram : ByteMem) (bytes : List Byte) : Prog ErrorValue BootState Unit :=
  modify fun state =>
    { state with
      kernelDtb := some (ram.store 0 bytes)
      dtbBytes := bytes.length - sizeofHeader }

def validateImage : Prog ErrorValue BootState Unit := do
  let state ← read
  let outcome ← ofResult (tegrablValidateBinary platform.engine platform.minRatchet
    tegrablBinaryKernel bootImageMaxSize state.bootImg 0)
  modify fun state => { state with bootImg := outcome.memory }

def validateDtb : Prog ErrorValue BootState Unit := do
  let state ← read
  let dtb ← ofOption state.kernelDtb
  let outcome ← ofResult (tegrablValidateBinary platform.engine platform.minRatchet
    tegrablBinaryKernelDtb dtbMaxSize dtb 0)
  modify fun state => { state with kernelDtb := some outcome.memory }

def verifyImage (imgSize : Nat) : Prog ErrorValue BootState Unit := do
  let state ← read
  ofResult (tegrablVerifyBootImgHdr state.bootImg (BitVec.ofNat 32 imgSize))

def checkImage (imgSize : Nat) : Prog ErrorValue BootState Unit := do
  validateImage platform
  validateDtb platform
  verifyImage imgSize

def usbSdLoadFromPartition :
    Prog ErrorValue BootState Unit := do
  getBootImgLoadAddr env.memory
  placeDtb env.memory.partitionDtb []
  let image := tegrablFmReadPartition (env.contents.partitions "kernel".toList) bootImageMaxSize
  placeImage image.1
  let imgSize ← ofResult image.2
  let dtb := tegrablFmReadPartition (env.contents.partitions "kernel-dtb".toList) dtbMaxSize
  placeDtb env.memory.partitionDtb dtb.1
  let _ ← ofResult dtb.2
  checkImage platform imgSize

def usbSdBootLoadKernelAndDtb :
    Prog ErrorValue BootState Unit := do
  ofResult env.contents.initDevice
  if !env.contents.opens then fail (linuxbootError .openFailed 0)
  else if !env.memory.handleAllocated then pure ()
  else do
    let loaded ← tryMountedExtlinux platform env
    if loaded then finishExtlinux env
    else if !env.contents.published then fail (linuxbootError .notFound 0)
    else usbSdLoadFromPartition platform env

def tegrablLoadFromPartition : Prog ErrorValue BootState Unit :=
  if !platform.loadFromStorage then
    if !platform.memoryImage then fail (linuxbootError .invalid 0)
    else stuck
  else do
    let image := env.contents.loadBinary (if platform.recoveryMode then .recoveryImg else .kernel)
    let state ← read
    if !(state.bootImgAllocated || env.memory.bootImgAllocated) then
      fail (setHighestModule .loader (linuxbootError .noMemory 0))
    else do
      modify fun state => { state with bootImgAllocated := true }
      placeImage image.data
      ofResult image.error
      modify fun state => { state with bootImgSet := true }
      validateImage platform
      let dtb := env.contents.loadBinary (if platform.recoveryMode then .recoveryDtb else .kernelDtb)
      ofResult dtb.error
      placeDtb env.memory.partitionDtb dtb.data
      validateDtb platform
      verifyImage image.data.length

def fixedBootLoadKernelAndDtb : Prog ErrorValue BootState Unit :=
  if !env.contents.opens then fail (linuxbootError .openFailed 0)
  else if !env.memory.handleAllocated then fail ⟨.fileManager, .fileManager, 0, .noMemory⟩
  else do
    ofResult env.contents.publish
    let loaded ← tryExtlinux platform env
    if loaded then finishExtlinux env
    else recover (tegrablLoadFromPartition platform env) fun error =>
      if platform.abSlot then stuck else fail error

def netBootLoadKernelAndDtb : Prog ErrorValue BootState Unit :=
  let tftp := env.contents.tftp
  if !tftp.stackInit then fail (linuxbootError .initFailed 0)
  else do
    placeDtb env.memory.partitionDtb []
    getBootImgLoadAddr env.memory
    placeDtb env.memory.partitionDtb tftp.dtb
    placeImage tftp.bootImage
    ofResult tftp.download
    checkImage platform tftp.bootImage.length

def attempt : Medium → Prog ErrorValue BootState Unit
  | .network => netBootLoadKernelAndDtb platform env
  | .sd => usbSdBootLoadKernelAndDtb platform env
  | .usb => usbSdBootLoadKernelAndDtb platform env
  | .builtin => fixedBootLoadKernelAndDtb platform env

/-! ### What is handed over -/

/-- What the kernel starts with: the chosen entry of `extlinux.conf`, if that is where it came from;
the kernel and its size; the device tree; the ramdisk, unless its location is null, and its size;
and the boot arguments, of the entry and of the boot image. -/
structure HandOver where
  entry : Option Nat
  kernel : List Byte
  kernelSize : Nat
  dtb : List Byte
  ramdisk : Option (List Byte)
  ramdiskSize : Nat
  bootArgs : Option Text
  bootimgCmdline : Option (List Byte)
  deriving DecidableEq

def fdtTotalsize (dtb : ByteMem) : Nat := (dtb 4 ++ dtb 5 ++ dtb 6 ++ dtb 7).toNat

def handedRamdisk (state : BootState) :
    Result (Option (List Byte) × Nat × Option (List Byte)) :=
  if hasBootImgHdr state.bootImg then do
    let bytes ← extractRamdisk state.bootImg
    return (some bytes, (ramdisksize state.bootImg).toNat, some (cmdline state.bootImg))
  else return (state.ramdisk.map fun ramdisk => ramdisk.load 0 state.ramdiskSize, state.ramdiskSize,
    none)

def handOver (state : BootState) : Option (Result HandOver) :=
  match state.bootImgSet, state.kernelDtb with
  | true, some dtb => some do
    let (kernel, kernelSize) ← extractKernel platform.decompressors state.bootImg state.kernelSize
    let (ramdisk, ramdiskSize, bootimgCmdline) ← handedRamdisk state
    let extlinux := state.extlinux
    return {
      entry := if extlinux.isSuccess then some extlinux.bootEntry else none
      kernel, kernelSize
      dtb := dtb.load 0 (fdtTotalsize dtb)
      ramdisk, ramdiskSize
      bootArgs := if extlinux.isSuccess then extlinux.bootArgs else none
      bootimgCmdline }
  | _, _ => none

/-! ### The boot -/

structure Boot where
  state : BootState
  tried : List (Medium × AttemptEnv)

def nextAttempt (world : Nat → AttemptEnv) (medium : Medium) :
    Prog ErrorValue Boot Unit := fun boot =>
  let env := world boot.tried.length
  (attempt platform env medium boot.state).map fun ended =>
    (ended.1, ⟨ended.2, boot.tried ++ [(medium, env)]⟩)

def tegrablLoadKernelAndDtb (world : Nat → AttemptEnv) (reg : BitVec 32) (bootOrder : List Byte)
    (bootImg : ByteMem) : Option (Boot × Result HandOver) := do
  let (error, boot) ← mediaStage (nextAttempt platform world) reg bootOrder ⟨.initial bootImg, []⟩
  match error with
  | .error error => some (boot, .error error)
  | .ok () => (handOver platform boot.state).map fun handed => (boot, handed)

end Cboot.LinuxBoot
