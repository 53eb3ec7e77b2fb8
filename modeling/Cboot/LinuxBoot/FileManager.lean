/-
**The file manager.**

A file is read whole: its size is taken from the file system, checked against the room the caller
has, and then the driver is asked for that many bytes. A driver may place fewer; a caller is not
told.
-/

import Cboot.Error
import Cboot.Lib.ByteMem

namespace Cboot.LinuxBoot

abbrev Text := List Char

/-- What the file system makes of one file: whether it opens, can be examined and read, its size,
and the bytes a read places, which are at most that many. -/
structure FileAccess where
  opens : Bool
  stats : Bool
  reads : Bool
  size : Nat
  data : List Byte
  dataFits : data.length ≤ size

def FileAccess.missing : FileAccess := ⟨false, false, false, 0, [], le_rfl⟩

def FileAccess.whole (data : List Byte) : FileAccess := ⟨true, true, true, data.length, data, le_rfl⟩

structure FmHandle where
  mountPath : Option Text
  files : Text → FileAccess

structure FmRead where
  error : Result Unit
  memory : ByteMem
  size : Nat

def fmError (reason : ErrReason) (auxInfo : Nat) : Result Unit :=
  tegrablError .fileManager reason auxInfo

def tegrablFmRead (handle : FmHandle) (filePath : Option Text) (mem : ByteMem)
    (loadAddress size : Nat) : FmRead :=
  match filePath, handle.mountPath with
  | some filePath, some mountPath =>
    if 200 ≤ mountPath.length + filePath.length then ⟨fmError .overflow 2, mem, size⟩
    else
      let file := handle.files (mountPath ++ filePath)
      if !file.opens then ⟨fmError .openFailed 0, mem, size⟩
      else if !file.stats then ⟨fmError .openFailed 1, mem, size⟩
      else if size < file.size then ⟨fmError .overflow 0, mem, size⟩
      else if !file.reads then ⟨fmError .readFailed 1, mem.store loadAddress file.data, size⟩
      else ⟨.ok (), mem.store loadAddress file.data, file.size⟩
  | _, _ => ⟨.ok (), mem, size⟩

section Read

variable (handle : FmHandle) (filePath : Option Text) (mem : ByteMem) (loadAddress size : Nat)

theorem tegrablFmRead_size_le :
    (tegrablFmRead handle filePath mem loadAddress size).size ≤ size := by
  unfold tegrablFmRead
  split
  · split
    · exact le_rfl
    · simp only
      split
      · exact le_rfl
      · split
        · exact le_rfl
        · split
          · exact le_rfl
          · split
            · exact le_rfl
            · exact Nat.not_lt.mp ‹_›
  · exact le_rfl

theorem tegrablFmRead_outside (a : Nat) (outside : a < loadAddress ∨ loadAddress + size ≤ a) :
    (tegrablFmRead handle filePath mem loadAddress size).memory a = mem a := by
  have stored : ∀ file : FileAccess, ¬ size < file.size →
      mem.store loadAddress file.data a = mem a := by
    intro file fits
    have short := file.dataFits
    exact mem.store_outside loadAddress file.data a (by omega)
  unfold tegrablFmRead
  split
  · split
    · rfl
    · simp only
      split
      · rfl
      · split
        · rfl
        · split
          · rfl
          · split
            · exact stored _ ‹_›
            · exact stored _ ‹_›
  · rfl

end Read

end Cboot.LinuxBoot
