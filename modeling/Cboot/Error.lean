/-
**The error values of the bootloader.**

An error value carries the module it was raised in, the highest module it passed through, an
auxiliary number and a reason. `TEGRABL_NO_ERROR` is the word with every field zero; a function
that returns it is modelled as returning `Except.ok`, any other value as `Except.error`.
-/

import Mathlib

namespace Cboot

inductive ErrModule
  | noModule
  | fileManager
  | partitionManager
  | loader
  | linuxboot
  | auth
  | abBootctrl
  | deviceTree
  | heap
  | blockDev
  | gpt
  | bootloaderUpdate
  | ufs
  | spiFlash
  | sdmmc
  | usbmsd
  | nvblob
  | sparse
  | fastboot
  | sata
  | cbo
  | kernelboot
  | decompress
  | pluginManager
  | graphics
  deriving DecidableEq, Repr

inductive ErrReason
  | notSupported
  | invalid
  | noMemory
  | overflow
  | underflow
  | tooLarge
  | notFound
  | openFailed
  | initFailed
  | verifyFailed
  | readFailed
  | writeFailed
  | eraseFailed
  | notInitialized
  | badParameter
  | tooSmall
  | alreadyExists
  | badAddress
  | timeout
  | notProgrammed
  | condition
  | sendFailed
  | unknownStatus
  | invalidVersion
  | invalidConfig
  | outOfRange
  deriving DecidableEq, Repr

structure ErrorValue where
  highestModule : ErrModule
  lowestModule : ErrModule
  auxInfo : Nat
  reason : ErrReason
  deriving DecidableEq, Repr

abbrev Result (α : Type) := Except ErrorValue α

def tegrablError {α : Type} (module : ErrModule) (reason : ErrReason) (auxInfo : Nat) : Result α :=
  .error ⟨module, module, auxInfo, reason⟩

def setHighestModule (module : ErrModule) (error : ErrorValue) : ErrorValue :=
  { error with highestModule := module }

def Result.isOk {α : Type} : Result α → Bool
  | .ok _ => true
  | .error _ => false

end Cboot
