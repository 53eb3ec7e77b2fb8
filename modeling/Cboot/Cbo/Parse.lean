/-
**The boot options.**

The partition CPUBL-CFG holds a device tree whose node `/boot-configuration` gives the order of the
boot devices, the addresses for a network boot and the GUID of the boot partition. What is parsed
is kept in `g_cbo_info`: a pointer to the boot order, a byte array on the heap that ends with
`BOOT_DEFAULT`, and behind it the addresses and the GUID.

The allocator is an input that answers each request from a state of its own. A property is given by
the place of its value in the memory of the device tree. Where the source leaves its arrays, or uses
a pointer that is null, the program has no outcome.
-/

import Cboot.DeviceTree.Strings
import Cboot.LinuxBoot.MediaOrder
import Cboot.Utils.Strings

namespace Cboot.Cbo

open Prog LinuxBoot DeviceTree

/-! ### The device tree -/

inductive BootCfgVar
  | bootOrder
  | tftpServerIp
  | dhcpEnabled
  | staticIp
  | ipNetmask
  | ipGateway
  | bootPtGuid
  deriving DecidableEq, Repr

structure Node where
  mem : ByteMem
  getprop : BootCfgVar → Option (Nat × Nat)

def dtNotFound {α : Type} : Result α := tegrablError .noModule .notFound 0

def tegrablDtGetPropU8Array (node : Node) (name : BootCfgVar) (nmemb res : Nat) (target : ByteMem) :
    Result Nat × ByteMem :=
  match node.getprop name with
  | none => (dtNotFound, target)
  | some (prop, lenp) =>
    let targetNum := if nmemb = 0 then lenp else min nmemb lenp
    (.ok targetNum, target.copyFrom node.mem res prop targetNum)

def tegrablDtGetPropCountStrings (node : Node) (name : BootCfgVar) (num : Nat) : Result Nat :=
  match node.getprop name with
  | none => dtNotFound
  | some (prop, len) =>
    let count := countStrings node.mem prop len
    .ok (if count = 0 then num else count)

def tegrablDtGetPropStringArray (node : Node) (name : BootCfgVar) : Result (List Nat) :=
  match node.getprop name with
  | none => dtNotFound
  | some (prop, len) => .ok (prop :: stringArray node.mem prop len)

/-! ### The boot order -/

structure BootDevice where
  name : List Byte
  deviceId : Byte
  deriving DecidableEq

def gBootDevices : List BootDevice :=
  [⟨textBytes "sd", 2⟩, ⟨textBytes "usb", 3⟩, ⟨textBytes "net", 1⟩, ⟨textBytes "emmc", 4⟩,
    ⟨textBytes "ufs", 4⟩, ⟨textBytes "sata", 4⟩]

def defaultBootOrder : List Byte := [2, 3, 4, 1, 0]

inductive OrderEvent
  | parsed (order : List Byte)
  | defaults
  | noDefaults
  | cleared
  | set (order : List Byte)
  deriving DecidableEq, Repr

/-- `g_cbo_info` and the heap: the state of the allocator, the byte arrays at the addresses where one
is allocated, and the next address; `boot_priority`; the memory from `ip_info` on. The events are
recorded for the reader. -/
structure CboState (σ : Type) where
  heap : σ
  blocks : Nat → Option (List Byte)
  next : Nat
  bootPriority : Option Nat
  info : ByteMem
  events : List OrderEvent

def CboState.push {σ : Type} (s : CboState σ) (heap : σ) (bytes : List Byte) : CboState σ :=
  { s with
    heap, next := s.next + 1
    blocks := Function.update s.blocks s.next (some bytes) }

section Code

variable {σ : Type} (alloc : Nat → σ → Bool × σ)

def tegrablCalloc (nmemb size : Nat) : Prog ErrorValue (CboState σ) (Option Nat) := fun s =>
  if size = 0 then some (.ok none, s)
  else
    let (found, heap) := alloc (nmemb * size) s.heap
    if found then some (.ok (some s.next), s.push heap (List.replicate (nmemb * size) 0))
    else some (.ok none, { s with heap })

def tegrablFree (ptr : Nat) : Prog ErrorValue (CboState σ) Unit :=
  modify fun s => { s with blocks := Function.update s.blocks ptr none }

def fill (addr : Nat) (bytes : List Byte) : Prog ErrorValue (CboState σ) Unit :=
  modify fun s => { s with blocks := Function.update s.blocks addr (some bytes) }

def record (event : OrderEvent) : Prog ErrorValue (CboState σ) Unit :=
  modify fun s => { s with events := s.events ++ [event] }

def deviceIdOf (name : ByteMem) : Byte :=
  ((gBootDevices.find? fun device => strncmpEq name device.name).map BootDevice.deviceId).getD 0

def priorities (names : List ByteMem) : List Byte := names.map deviceIdOf ++ [bootDefault]

def mapBootPriority (names : List ByteMem) : Prog ErrorValue (CboState σ) Unit := do
  match ← tegrablCalloc alloc 1 ((names.length + 1) % 2 ^ 32) with
  | none => ofResult (tegrablError .cbo .noMemory 1)
  | some bootP =>
    fill bootP (priorities names)
    modify fun s => { s with bootPriority := some bootP }

def namesOf (mem : ByteMem) (count : Nat) (pointers : List Nat) : Option (List ByteMem) :=
  if pointers.length = count then some (pointers.map mem.view) else none

def storeBootOrder (node : Node) (count : Nat) : Prog ErrorValue (CboState σ) Unit := do
  let pointers ← ofResult (tegrablDtGetPropStringArray node .bootOrder)
  let names ← ofOption (namesOf node.mem count pointers)
  mapBootPriority alloc names
  record (.parsed (priorities names))

def parseBootOrder (node : Node) (count : Nat) : Prog ErrorValue (CboState σ) Unit := do
  let count ← ofResult (tegrablDtGetPropCountStrings node .bootOrder count)
  match ← tegrablCalloc alloc 8 count with
  | none => ofResult (tegrablError .cbo .noMemory 2)
  | some array =>
    always (storeBootOrder alloc node count) fun s => (tegrablFree array s).map Prod.snd

end Code

/-! ### The addresses -/

inductive IpField
  | staticIp
  | ipNetmask
  | ipGateway
  | tftpServerIp
  deriving DecidableEq, Repr

def IpField.property : IpField → BootCfgVar
  | .staticIp => .staticIp
  | .ipNetmask => .ipNetmask
  | .ipGateway => .ipGateway
  | .tftpServerIp => .tftpServerIp

def IpField.offset : IpField → Nat
  | .staticIp => 1
  | .ipNetmask => 5
  | .ipGateway => 9
  | .tftpServerIp => 13

def ipInfoSize : Nat := 17

structure IpState where
  info : ByteMem
  copies : List (IpField × Nat)

def getIp (node : Node) (field : IpField) (s : IpState) : Result Unit × IpState :=
  match tegrablDtGetPropU8Array node field.property 0 field.offset s.info with
  | (.ok count, info) => (.ok (), ⟨info, s.copies ++ [(field, count)]⟩)
  | (.error error, info) => (.error error, { s with info })

def IpState.setDhcp (s : IpState) (enabled : Bool) : IpState :=
  { s with info := s.info.store 0 [if enabled then 1 else 0] }

def IpState.clearStatic (s : IpState) : IpState :=
  { s with info := ((s.info.memset 1 0 4).memset 5 0 4).memset 9 0 4 }

def parseStaticIp (node : Node) (s : IpState) : Result Unit × IpState :=
  match getIp node .staticIp s with
  | (.error error, s) => (.error error, s)
  | (.ok (), s) =>
    match getIp node .ipNetmask s with
    | (.error error, s) => (.error error, s)
    | (.ok (), s) => getIp node .ipGateway s

def parseAddresses (node : Node) (s : IpState) : Result Unit × IpState :=
  let tftp := getIp node .tftpServerIp s
  if (node.getprop .dhcpEnabled).isSome then (tftp.1, tftp.2.setDhcp true)
  else parseStaticIp node (tftp.2.setDhcp false)

def parseIpInfo (node : Node) (s : IpState) : IpState :=
  let parsed := parseAddresses node s
  if parsed.1.isOk then parsed.2 else parsed.2.clearStatic

def guidStrLen : Nat := 36

def storeGuid (guid : ByteMem) (strlen : Nat) (info : ByteMem) : ByteMem :=
  if strlen % 256 = guidStrLen then
    (info.copyFrom guid ipInfoSize 0 guidStrLen).store (ipInfoSize + guidStrLen) [0]
  else info

def parseBootPtGuid (node : Node) (strlen : Nat) (info : ByteMem) : ByteMem :=
  match node.getprop .bootPtGuid with
  | none => info
  | some (prop, _) => storeGuid (node.mem.view prop) strlen info

/-! ### All options -/

section All

variable {σ : Type} (alloc : Nat → σ → Bool × σ)

def setDefaultBootOrder : Prog ErrorValue (CboState σ) Unit := do
  match ← tegrablCalloc alloc 1 5 with
  | none =>
    modify fun s => { s with bootPriority := none }
    record .noDefaults
    ofResult (tegrablError .cbo .noMemory 3)
  | some bootP =>
    fill bootP defaultBootOrder
    modify fun s => { s with bootPriority := some bootP }
    record .defaults

def tegrablCboParseInfo (content : Result (Option Node)) (count strlen : Nat) :
    Prog ErrorValue (CboState σ) Unit := do
  modify fun s => { s with info := s.info.memset 0 0 (ipInfoSize + guidStrLen + 1) }
  match content with
  | .error error =>
    setDefaultBootOrder alloc
    fail error
  | .ok none => setDefaultBootOrder alloc
  | .ok (some node) =>
    let err ← recover (do parseBootOrder alloc node count; pure (.ok ())) fun e => pure (.error e)
    modify fun s => { s with info := (parseIpInfo node ⟨s.info, []⟩).info }
    modify fun s => { s with info := parseBootPtGuid node strlen s.info }
    if err.isOk then pure () else setDefaultBootOrder alloc
    ofResult err

def bootOrder (s : CboState σ) : Option (List Byte) :=
  s.bootPriority.bind s.blocks

end All

end Cboot.Cbo
