/-
**The fastboot protocol.**

A host sends commands, each in a packet, and the device answers. The first registered command whose
word the packet starts with handles it. Some handlers change the device: they flash and erase
partitions, receive data into the download buffer, set the active slot, or boot an image out of the
buffer. Each of these asks first whether the device is unlocked.

The download buffer, its size and the flag that it is allocated are variables that survive a command.
The state has, besides the variables, the memory and the history: every command, every answer about
the lock, every message and everything that is done to the device, the latest first.

The storage, the USB link, the allocator and the callbacks of the platform are inputs that work on a
state of their own. A command can also end the program, by a reset or by the start of a kernel.
-/

import Cboot.BlUpdate.Nvblob
import Cboot.Fastboot.PartInfo
import Cboot.LinuxBoot.BootImage
import Cboot.Sparse.Unsparse

namespace Cboot.Fastboot

open Prog PartitionManager BlUpdate Sparse LinuxBoot

/-! ### The history -/

inductive LockCmd
  | lock
  | unlock
  deriving DecidableEq, Repr

/-- What happens: a command arrives; the lock is queried; a message is sent; the buffer is allocated;
data is received into it; a partition is erased, or written from memory or with a word that is
repeated; a payload in memory, or the kernel there, is looked at; a part of an image in memory is
taken for the kernel to start with; the kernel is started; the active slot or the lock is changed;
the device is reset. -/
inductive Event
  | command (packet : List Byte)
  | lockQuery (answer : Result Bool)
  | send (response : List Byte)
  | allocate (base size : Nat)
  | receive (base asked : Nat) (bytes : List Byte)
  | erase (target : Target)
  | write (target : Target) (data size : Nat)
  | fill (target : Target) (value : BitVec 32) (size : Nat)
  | payload (mem : ByteMem) (base size : Nat)
  | load (mem : ByteMem) (base : Option Nat) (size : Nat)
  | boot (start size : Nat)
  | jump
  | setActive (slot : List Byte)
  | changeState (cmd : LockCmd)
  | reset

structure Log (σ : Type) where
  world : σ
  trace : List Event

def Log.add {σ : Type} (log : Log σ) (event : Event) : Log σ :=
  { log with trace := event :: log.trace }

def Log.run {σ α : Type} (log : Log σ) (f : σ → α × σ) : α × Log σ :=
  let out := f log.world
  (out.1, { log with world := out.2 })

/-! ### State and inputs -/

inductive ProtocolState
  | offline
  | command
  | complete
  | error
  deriving DecidableEq, Repr

structure FastbootState (σ : Type) where
  fastbootState : ProtocolState
  downloadBase : Option Nat
  downloadSize : Nat
  isAllocated : Bool
  mem : ByteMem
  update : UpdateState (Log σ)

def FastbootState.log {σ : Type} (s : FastbootState σ) : Log σ := s.update.world

def FastbootState.setLog {σ : Type} (s : FastbootState σ) (log : Log σ) : FastbootState σ :=
  { s with update := { s.update with world := log } }

/-- How a command ends the program: a reset, the start of a kernel, an update without an outcome, a
loop that goes on after the rounds that are seen, or the overrun of a variable. -/
inductive Halt
  | reset
  | jump
  | noOutcome
  | unseen
  | overrun
  deriving DecidableEq, Repr

abbrev Op (σ α : Type) := σ → Option (Result α × σ)

/-- The inputs: the storage and the callbacks of an update, the other callbacks, the USB link, the
allocator, what is known about the device, and how many rounds of a loop are seen. The device trees
are loaded and edited by functions of other libraries. -/
structure Env (σ : Type) where
  platform : Platform σ
  callbacks : Callbacks σ
  fillWrite : Target → BitVec 32 → Nat → σ → Result Unit × σ
  seek : Target → Nat → σ → Result Unit × σ
  isDeviceUnlocked : σ → Option (Bool × σ)
  changeDeviceState : LockCmd → Op σ Unit
  getFuseEcid : Op σ (List Byte)
  getSlotNum : Op σ Nat
  getCurrentSlot : Op σ (List Byte)
  getSlotSuffix : Nat → Op σ (List Byte)
  isSlotSuccessful : List Byte → Op σ Bool
  isSlotUnbootable : List Byte → Op σ Bool
  getSlotRetryCount : List Byte → Op σ Nat
  slotSetActive : List Byte → Op σ Unit
  getSerialNo : σ → Result (List Byte) × σ
  dtsFilename : σ → Result (List Byte) × σ
  product : List Byte
  usbfSend : List Byte → σ → Result Unit × σ
  usbfReceive : Nat → σ → (Result Unit × List Byte) × σ
  memalign : Nat → σ → Option Nat × σ
  blobRoom : σ → Bool × σ
  kernelDtb : σ → Result Unit × σ
  extractKernelDtb : σ → Result Unit × σ
  decompressors : Decompressors
  abSlot : Bool
  rounds : Nat

section Model

variable {σ : Type} (env : Env σ)

abbrev Handler (σ α : Type) := Prog Halt (FastbootState σ) α

def note (event : Event) : Handler σ Unit := modify fun s => s.setLog (s.log.add event)

def ask {α : Type} (f : σ → α × σ) : Handler σ α := fun s =>
  let out := s.log.run f
  some (.ok out.1, s.setLog out.2)

def askOp {α : Type} (op : Op σ α) : Handler σ (Result α) :=
  ask fun world => (op world).getD (tegrablError .fastboot .notSupported 0, world)

def tegrablIsDeviceUnlocked : Handler σ (Result Bool) := do
  let answer ← askOp fun world => (env.isDeviceUnlocked world).map fun out => (.ok out.1, out.2)
  note (.lockQuery answer)
  return answer

def tegrablChangeDeviceState (cmd : LockCmd) : Handler σ (Result Unit) := do
  note (.changeState cmd)
  askOp (env.changeDeviceState cmd)

/-! ### Answers -/

def maxResponseSize : Nat := 64

def send (response : List Byte) : Handler σ (Result Unit) := do
  note (.send response)
  ask (env.usbfSend response)

def fastbootAck (code : String) (reason : List Byte) : Handler σ Unit := do
  let s ← read
  if s.fastbootState ≠ .command then return ()
  else do
    modify fun s => if code = "INFO" then s else { s with fastbootState := .complete }
    let _ ← send env ((letters code ++ reason).take (maxResponseSize - 1))
    return ()

def fastbootFail (reason : String) : Handler σ Unit := fastbootAck env "FAIL" (letters reason)

def fastbootOkay (info : List Byte) : Handler σ Unit := fastbootAck env "OKAY" info

def whenUnlocked (body : Handler σ Unit) : Handler σ Unit := do
  match ← tegrablIsDeviceUnlocked env with
  | .error _ => fastbootFail env "Bootloader lock state unknown"
  | .ok false => fastbootFail env "Bootloader is locked."
  | .ok true => body

/-! ### Variables -/

def isVarType (var : String) (arg : List Byte) : Bool := (letters var).isPrefixOf arg

def copyResponse (response msg : List Byte) : List Byte := (response ++ msg).take (maxResponseSize - 1)

def hexText (n : Nat) : List Byte :=
  (Nat.toDigits 16 n).map fun digit => BitVec.ofNat 8 digit.toNat

def hexText8 (n : Nat) : List Byte := List.replicate (8 - (hexText n).length) 0x30 ++ hexText n

def decimalText (n : Nat) : List Byte :=
  (Nat.toDigits 10 n).map fun digit => BitVec.ofNat 8 digit.toNat

def partitionSize (storage : StorageList) (name : List Byte) : Nat :=
  match (tegrablPartitionOpen (some storage) name none).2 with
  | some handle => (handle.partition.map fun p => p.totalSize).getD 0
  | none => 0

def FsType.text : FsType → List Byte
  | .basic => letters "basic"
  | .ext4 => letters "ext4"

def opens (name : List Byte) : Bool := (openPartition env.platform name).isOk

def yesNo (answer : Bool) : List Byte := if answer then letters "yes" else letters "no"

def partitionHasSlot (partitionName response : List Byte) : Handler σ (Result Bool × List Byte) := do
  let name := if partitionName = letters "bootloader" then letters "cpu-bootloader" else partitionName
  let missing := copyResponse response (letters "No partition present with this name.")
  match tegrablFastbootGetPartinfo name with
  | none => return (.ok false, missing)
  | some info =>
    match openPartition env.platform info.tegraPartName with
    | .error e => return (.error e, missing)
    | .ok _ =>
      match ← askOp (env.getSlotSuffix 1) with
      | .error e => return (.error e, response)
      | .ok suffix => return (.ok (opens env (info.tegraPartName ++ suffix)), response)

def slotSuffixesLoop (numSlots : Nat) : List Nat → List Byte → Handler σ (Result (List Byte))
  | [], slot => return .ok slot
  | i :: rest, slot => do
    match ← askOp (env.getSlotSuffix i) with
    | .error e => return .error e
    | .ok suffix =>
      slotSuffixesLoop numSlots rest
        (slot ++ suffix ++ if i < numSlots - 1 then letters "," else [])

def tegrablGetSlotSuffixes : Handler σ (Result (List Byte)) := do
  match ← askOp env.getSlotNum with
  | .error e => return .error e
  | .ok numSlots => slotSuffixesLoop env numSlots (List.range numSlots) []

def slotVar {α : Type} (op : Op σ α) (text : α → List Byte) (response : List Byte) :
    Handler σ (List Byte) := do
  match ← askOp op with
  | .error _ => return copyResponse response (letters "No slot present with this suffix.")
  | .ok value => return copyResponse response (text value)

def tegrablFastbootABVarHandler (arg response : List Byte) : Handler σ (List Byte) := do
  if isVarType "has-slot:" arg then do
    let (answer, response) ← partitionHasSlot env (arg.drop 9) response
    match answer with
    | .error _ => return response
    | .ok hasSlot => return copyResponse response (yesNo hasSlot)
  else if isVarType "current-slot" arg then do
    match ← askOp env.getCurrentSlot with
    | .error _ => return response
    | .ok suffix => return copyResponse response suffix
  else if isVarType "slot-suffixes" arg then do
    match ← tegrablGetSlotSuffixes env with
    | .error _ => return response
    | .ok suffixes => return copyResponse response suffixes
  else if isVarType "slot-successful:" arg then
    slotVar (env.isSlotSuccessful (arg.drop 16)) yesNo response
  else if isVarType "slot-unbootable:" arg then
    slotVar (env.isSlotUnbootable (arg.drop 16)) yesNo response
  else if isVarType "slot-retry-count:" arg then
    slotVar (env.getSlotRetryCount (arg.drop 17)) decimalText response
  else return response

def fastbootABVarList : List String :=
  ["slot-successful:", "slot-unbootable:", "slot-retry-count:", "current-slot", "slot-suffixes",
    "has-slot"]

def lockVar (text : Bool → List Byte) (response : List Byte) : Handler σ (List Byte) := do
  match ← tegrablIsDeviceUnlocked env with
  | .error _ => return response
  | .ok isUnlocked => return copyResponse response (text isUnlocked)

def partitionVar (name : List Byte) (text : PartInfo → List Byte) (response : List Byte) : List Byte :=
  match tegrablFastbootGetPartinfo name with
  | none => response
  | some info => if opens env info.tegraPartName then response ++ text info else response

def maxDownloadSize : Nat := 0x2000000

def fastbootGetvar (arg response : List Byte) : Handler σ (List Byte) := do
  if isVarType "version-bootloader" arg then return copyResponse response (letters "1.0")
  else if isVarType "max-download-size" arg then return letters "0x" ++ hexText8 maxDownloadSize
  else if isVarType "product" arg then return copyResponse response env.product
  else if isVarType "serialno" arg then do
    match ← ask env.getSerialNo with
    | .error _ => return copyResponse response (letters "not valid")
    | .ok serialNo => return copyResponse response serialNo
  else if isVarType "secure" arg then
    lockVar env (fun isUnlocked => if isUnlocked then letters "No" else letters "Yes") response
  else if isVarType "unlocked" arg then
    lockVar env (fun isUnlocked => if isUnlocked then letters "Yes" else letters "No") response
  else if isVarType "partition-size:" arg then
    return partitionVar env (arg.drop 15) (fun info =>
      let size := partitionSize env.platform.storage info.tegraPartName
      if 0 < size ∧ size < 2 ^ 63 then letters "0x" ++ hexText size else []) response
  else if isVarType "partition-type:" arg then
    return partitionVar env (arg.drop 15) (fun info => info.fastbootPartType.text) response
  else if fastbootABVarList.any fun var => isVarType var arg then
    tegrablFastbootABVarHandler env arg response
  else return copyResponse response (letters "Unknown var!")

def each {α : Type} (body : α → Handler σ Unit) : List α → Handler σ Unit
  | [] => return ()
  | a :: rest => do
    body a
    each body rest

def fastbootVarList : List String :=
  ["version-bootloader", "serialno", "product", "secure", "unlocked", "current-slot", "slot-suffixes"]

def fastbootPartitionVarList : List String := ["partition-size:", "partition-type:", "has-slot:"]

def fastbootABSlotVarList : List String := ["slot-successful:", "slot-unbootable:", "slot-retry-count:"]

def sendVar (var : List Byte) : Handler σ Unit := do
  let response ← fastbootGetvar env var (copyResponse var (letters ": "))
  fastbootAck env "INFO" response

def sendSlotVars (numSlots : Nat) : Handler σ Unit :=
  each (fun var => each (fun j => do
    match ← askOp (env.getSlotSuffix j) with
    | .error _ => return ()
    | .ok suffix => sendVar env (letters var ++ suffix)) (List.range numSlots)) fastbootABSlotVarList

variable (arg : List Byte)

def cmdGetvar : Handler σ Unit := do
  if isVarType "all" arg then do
    each (fun var => sendVar env (copyResponse [] (letters var))) fastbootVarList
    each (fun row => each (fun var =>
        sendVar env (copyResponse (copyResponse [] (letters var)) row.fastbootPartName))
      fastbootPartitionVarList) fastbootPartitionMapTable
    match ← askOp env.getSlotNum with
    | .error _ => return ()
    | .ok numSlots => do
      sendSlotVars env numSlots
      fastbootOkay env []
  else do
    let response ← fastbootGetvar env arg []
    fastbootOkay env response

/-! ### Storage -/

def writeLogged (platform : Platform σ) (target : Target) (data size : Nat) (log : Log σ) :
    Result Unit × Log σ :=
  (log.add (.write target data size)).run (platform.write target data size)

def eraseLogged (platform : Platform σ) (target : Target) (log : Log σ) : Result Unit × Log σ :=
  (log.add (.erase target)).run (platform.erase target)

def loggedPlatform (platform : Platform σ) : Platform (Log σ) where
  storage := platform.storage
  isQspi := platform.isQspi
  erase := eraseLogged platform
  write := writeLogged platform
  alloc := fun size log => log.run (platform.alloc size)
  specInfo := platform.specInfo
  nctGetSpec := fun log => log.run platform.nctGetSpec
  opMode := platform.opMode

def loggedCallbacks (callbacks : Callbacks σ) : Callbacks (Log σ) where
  verifyPayload := callbacks.verifyPayload
  updateBct := callbacks.updateBct.map fun f log => log.run f
  getSlotNum := callbacks.getSlotNum.map fun f log => log.run f
  hasSlotSuffix := callbacks.hasSlotSuffix
  suffixFault := fun log => log.run callbacks.suffixFault
  isRatchetUpdateRequired := callbacks.isRatchetUpdateRequired
  isAlwaysAbPartition := callbacks.isAlwaysAbPartition

def onLog {α : Type} (f : Log σ → α × Log σ) : Handler σ α := fun s =>
  let out := f s.log
  some (.ok out.1, s.setLog out.2)

def cmdErase : Handler σ Unit := whenUnlocked env do
  match tegrablFastbootGetPartinfo arg with
  | none => fastbootFail env "No partition present with this name."
  | some info =>
    match openPartition env.platform info.tegraPartName with
    | .error _ => fastbootFail env "Partition erase failed!"
    | .ok target => do
      match ← onLog (eraseLogged env.platform target) with
      | .error _ => fastbootFail env "Partition erase failed!"
      | .ok () => fastbootOkay env []

def cmdSetActiveSlot : Handler σ Unit := whenUnlocked env do
  note (.setActive arg)
  match ← askOp (env.slotSetActive arg) with
  | .error _ => fastbootFail env "Failed to set slot active"
  | .ok () => fastbootOkay env []

/-! ### Download -/

def hexDigit (x : Byte) : Option (BitVec 32) :=
  if 0x30 ≤ x ∧ x ≤ 0x39 then some ((x - 0x30).setWidth 32)
  else if 0x61 ≤ x ∧ x ≤ 0x66 then some ((x - 0x61).setWidth 32 + 10)
  else if 0x41 ≤ x ∧ x ≤ 0x46 then some ((x - 0x41).setWidth 32 + 10)
  else none

def hex2uint32 : List Byte → BitVec 32 → BitVec 32
  | [], n => n
  | x :: rest, n =>
    match hexDigit x with
    | none => n
    | some digit => hex2uint32 rest ((n <<< 4) ||| digit)

def allocateDownload (len : Nat) : Handler σ Unit := do
  let s ← read
  if s.isAllocated then return ()
  else do
    let base ← ask (env.memalign len)
    match base with
    | none => modify fun s => { s with downloadBase := none, isAllocated := true }
    | some base => modify fun s => { s.setLog (s.log.add (.allocate base len)) with
        downloadBase := some base, isAllocated := true }

def receiveDownload (base len : Nat) : Handler σ (Result Unit × Nat) := do
  let (result, sent) ← ask (env.usbfReceive len)
  let bytes := sent.take len
  modify fun s => { s.setLog (s.log.add (.receive base len bytes)) with
    mem := s.mem.store base bytes }
  return (result, bytes.length)

def downloadInto (len : Nat) : Option Nat → Handler σ Unit
  | none => fastbootFail env "Memory Insufficient"
  | some base => do
    let (result, received) ← receiveDownload env base len
    if result.isOk = false ∨ received ≠ len then do
      fastbootFail env "USB read Failed"
      modify fun s => { s with fastbootState := .error }
    else do
      modify fun s => { s with downloadSize := len }
      fastbootOkay env []

def cmdDownload : Handler σ Unit := whenUnlocked env do
  let len := (hex2uint32 arg 0).toNat
  modify fun s => { s with downloadSize := 0 }
  if maxDownloadSize < len then fastbootFail env "data too large"
  else do
    match ← send env (letters "DATA" ++ hexText8 len) with
    | .error _ => return ()
    | .ok () => do
      allocateDownload env len
      let s ← read
      downloadInto env len s.downloadBase

/-! ### Boot from memory -/

def loadFailed (error : ErrorValue) : Handler σ (Result Unit) :=
  if env.abSlot then do
    note .reset
    fail .reset
  else return .error error

def extractImage (mem : ByteMem) (base : Nat) : Handler σ (Result Unit) := do
  let image := mem.view base
  match extractKernel env.decompressors image 0 with
  | .error e => return .error e
  | .ok (_, kernelSize) => do
    note (.boot (base + (kernelPlace image 0).1) kernelSize)
    match extractRamdisk image with
    | .error e => return .error e
    | .ok ramdisk => do
      note (.boot (base + ramdiskOffset image) ramdisk.length)
      note (.boot (base + 64) (cmdline image).length)
      ask env.extractKernelDtb

def tegrablLoadKernelAndDtb (data : Option Nat) (dataSize : Nat) : Handler σ (Result Unit) := do
  let s ← read
  note (.load s.mem data dataSize)
  match data with
  | none => loadFailed env ⟨.linuxboot, .linuxboot, 0, .invalid⟩
  | some base => do
    match ← ask env.kernelDtb with
    | .error e => loadFailed env e
    | .ok () =>
      match tegrablVerifyBootImgHdr (s.mem.view base) (BitVec.ofNat 32 dataSize) with
      | .error e => loadFailed env e
      | .ok () => extractImage env s.mem base

def cmdBoot : Handler σ Unit := whenUnlocked env do
  fastbootOkay env []
  let s ← read
  match ← tegrablLoadKernelAndDtb env s.downloadBase s.downloadSize with
  | .error _ => return ()
  | .ok () => do
    note .jump
    fail .jump

/-! ### Flash -/

def flashExit : Result Unit → Handler σ Unit
  | .ok () => fastbootOkay env []
  | .error _ => fastbootFail env "Partition write failed!"

def Endless (blob : Blob) : Prop :=
  blob.init = .ok () ∧ blob.isUpdate = true ∧ 256 ≤ blob.numEntries

instance (blob : Blob) : Decidable (Endless blob) := inferInstanceAs (Decidable (_ ∧ _ ∧ _))

def runUpdate (blob : Blob) (size : Nat) (suffix : List Byte) : Handler σ (Result Unit) := fun s =>
  match tegrablCheckAndUpdateBlPayload (loggedPlatform env.platform) (loggedCallbacks env.callbacks)
      blob suffix size env.rounds s.update with
  | none => some (.error .noOutcome, s)
  | some (result, update) =>
    if result.isOk ∧ Endless blob then some (.error .unseen, { s with update })
    else some (.ok result, { s with update })

def updatePayload (base size : Nat) (suffix : List Byte) : Handler σ (Result Unit) := do
  let s ← read
  note (.payload s.mem base size)
  let room ← ask env.blobRoom
  runUpdate env (blobAt s.mem base room) size suffix

def flashOutput (target : Target) (base : Nat) : Output (Log σ) where
  writer
    | .buffer offset, size, log => writeLogged env.platform target (base + offset) size log
    | .fill value, size, log =>
      (log.add (.fill target value size)).run (env.fillWrite target value size)
  seeker size log := log.run (env.seek target size)

def flashSparse (target : Target) (base size : Nat) (state : UnsparseState) :
    Handler σ (Result Unit) := do
  let s ← read
  match ← onLog (tegrablSparseUnsparse (flashOutput env target base) (s.mem.view base) env.rounds state
    size) with
  | .done _ => return .ok ()
  | .failed e => return .error e
  | .unseen => fail .unseen
  | .overrun => fail .overrun

def flashPartition (name : List Byte) (target : Target) (base size : Nat) : Handler σ Unit := do
  let s ← read
  if tegrablSparseImageCheck (s.mem.view base) size then
    match tegrablSparseInitUnsparseState (partitionSize env.platform.storage name) with
    | .error _ => return ()
    | .ok state => do
      let result ← flashSparse env target base size state
      flashExit env result
  else do
    let _ ← onLog (writeLogged env.platform target base size)
    flashExit env (.ok ())

def flashFrom (base size : Nat) : Handler σ Unit := do
  let suffix := tegrablABGetPartSuffix arg
  if tegrablABMatchPartNameWithSuffix (letters "bootloader") arg then do
    let result ← updatePayload env base size suffix
    flashExit env result
  else
    match tegrablFastbootGetPartinfo arg with
    | none => fastbootFail env "No partition present with this name."
    | some info =>
      match tegrablFastbootGetTegraPartName suffix info with
      | none => fastbootFail env "Partition may not exist or can not be accessed."
      | some name =>
        match openPartition env.platform name with
        | .error _ => fastbootFail env "Partition may not exist or can not be accessed."
        | .ok target => flashPartition env name target base size

def cmdFlash : Handler σ Unit := whenUnlocked env do
  let s ← read
  match s.downloadBase with
  | none => return ()
  | some base => if s.downloadSize = 0 then return () else flashFrom env arg base s.downloadSize

/-! ### The other commands -/

def cmdFlashing : Handler σ Unit := do
  if isVarType "lock" arg then do
    let _ ← tegrablChangeDeviceState env .lock
    fastbootOkay env []
  else if isVarType "unlock" arg then do
    let _ ← tegrablChangeDeviceState env .unlock
    fastbootOkay env []
  else fastbootOkay env []

def dtbFname (path : List Byte) : List Byte :=
  let name := ((path.reverse.takeWhile (· ≠ 0x2F)).reverse).take (maxResponseSize - 1)
  name.dropLast ++ letters "b"

def tegrablFastbootOemHandler : Handler σ (Result Unit) := do
  if isVarType "lock" arg then tegrablChangeDeviceState env .lock
  else if isVarType "unlock" arg then tegrablChangeDeviceState env .unlock
  else if isVarType "dtbname" arg then do
    match ← ask env.dtsFilename with
    | .error e => do
      fastbootFail env "DTB name not found!"
      return .error e
    | .ok path => do
      fastbootAck env "INFO" (dtbFname path)
      return .ok ()
  else if isVarType "ecid" arg then do
    match ← askOp env.getFuseEcid with
    | .error e => do
      fastbootFail env "Get ecid failed!"
      return .error e
    | .ok ecid => do
      fastbootAck env "INFO" ecid
      return .ok ()
  else return .ok ()

def cmdOem : Handler σ Unit := do
  match ← tegrablFastbootOemHandler env arg with
  | .ok () => fastbootOkay env []
  | .error _ => return ()

def cmdContinue : Handler σ Unit := fastbootOkay env []

def cmdReboot : Handler σ Unit := do
  note .reset
  fail .reset

def cmdRebootBootloader : Handler σ Unit := do
  fastbootOkay env []
  note .reset
  fail .reset

/-! ### Commands -/

inductive Command
  | reboot
  | rebootBootloader
  | getvar
  | erase
  | download
  | flash
  | boot
  | continue_
  | oem
  | flashing
  | setActive
  deriving DecidableEq, Repr

def Command.word : Command → List Byte
  | .reboot => letters "reboot"
  | .rebootBootloader => letters "reboot-bootloader"
  | .getvar => letters "getvar:"
  | .erase => letters "erase:"
  | .download => letters "download:"
  | .flash => letters "flash:"
  | .boot => letters "boot"
  | .continue_ => letters "continue"
  | .oem => letters "oem "
  | .flashing => letters "flashing "
  | .setActive => letters "set_active:"

def Command.handle : Command → Handler σ Unit
  | .reboot => cmdReboot
  | .rebootBootloader => cmdRebootBootloader env
  | .getvar => cmdGetvar env arg
  | .erase => cmdErase env arg
  | .download => cmdDownload env arg
  | .flash => cmdFlash env arg
  | .boot => cmdBoot env
  | .continue_ => cmdContinue env
  | .oem => cmdOem env arg
  | .flashing => cmdFlashing env arg
  | .setActive => cmdSetActiveSlot env arg

def cmdlist : List Command :=
  [.setActive, .flashing, .oem, .continue_, .boot, .flash, .download, .erase, .getvar,
    .rebootBootloader, .reboot]

def handlePacket (cmds : List Command) (packet : List Byte) : Handler σ Bool := do
  note (.command packet)
  match cmds.find? fun cmd => cmd.word.isPrefixOf packet with
  | none => do
    modify fun s => if cmds = [] then s else { s with fastbootState := .command }
    fastbootFail env "unknown command"
    return false
  | some cmd => do
    modify fun s => { s with fastbootState := .command }
    cmd.handle env (cString (packet.drop cmd.word.length))
    if (letters "continue").isPrefixOf packet then return true
    else do
      let s ← read
      (if s.fastbootState = .command then fastbootFail env "unknown reason" else pure ())
      return false

def goOffline (retval : Result Unit) : Handler σ (Result Unit) := do
  modify fun s => { s with fastbootState := .offline }
  return retval

def commandLoop (cmds : List Command) : Nat → Handler σ (Result Unit)
  | 0 => fail .unseen
  | packets + 1 => do
    let s ← read
    if s.fastbootState = .error then goOffline (.ok ())
    else do
      let (result, bytes) ← ask (env.usbfReceive 64)
      match result with
      | .error e => goOffline (.error e)
      | .ok () => do
        let done ← handlePacket env cmds (bytes.take 64)
        if done then return .ok () else commandLoop cmds packets

def tegrablFastbootCommandHandler (cmds : List Command) (packets : Nat) : Handler σ (Result Unit) := do
  match ← ask (env.memalign 512) with
  | none => goOffline (tegrablError .noModule .noMemory 0)
  | some _ => commandLoop env cmds packets

def sessions (cmds : List Command) : List Nat → Handler σ Unit
  | [] => return ()
  | packets :: rest => do
    let _ ← tegrablFastbootCommandHandler env cmds packets
    sessions cmds rest

end Model

def FastbootState.initial {σ : Type} (world : σ) (mem : ByteMem) : FastbootState σ where
  fastbootState := .offline
  downloadBase := none
  downloadSize := 0
  isAllocated := false
  mem := mem
  update := { world := ⟨world, []⟩, effects := [], updated := [], isNewBupChecked := false,
              isRequired := false, specKnown := false, entry := 0, written := [], missed := [] }

end Cboot.Fastboot
