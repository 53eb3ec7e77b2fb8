/-
**Lists of strings in a device tree.**

`tegrabl_dt_get_prop_string_array` counts the zero bytes of a property and takes the place behind
each of them but the last byte for the start of a string. On a property that is a list of terminated
strings these are the number and the places of the strings (`countStrings_eq`, `stringArray_eq`).
-/

import Cboot.Lib.ByteMem

namespace Cboot.DeviceTree

/-! ### The two counts -/

def countStrings (mem : ByteMem) : Nat → Nat → Nat
  | _, 0 => 0
  | iter, left + 1 => (if mem iter = 0 then 1 else 0) + countStrings mem (iter + 1) left

def stringArray (mem : ByteMem) : Nat → Nat → List Nat
  | _, 0 => []
  | iter, left + 1 =>
    if mem iter = 0 ∧ left ≠ 0 then (iter + 1) :: stringArray mem (iter + 1) left
    else stringArray mem (iter + 1) left

/-! ### Terminated strings -/

def StringAt (mem : ByteMem) (addr : Nat) (s : List Byte) : Prop :=
  0 ∉ s ∧ ∀ i < s.length + 1, mem (addr + i) = (s ++ [0]).getD i 0

def StringsAt (mem : ByteMem) : Nat → List (List Byte) → Prop
  | _, [] => True
  | addr, s :: rest => StringAt mem addr s ∧ StringsAt mem (addr + s.length + 1) rest

def stringsSize (names : List (List Byte)) : Nat := (names.map fun s => s.length + 1).sum

def starts : Nat → List (List Byte) → List Nat
  | _, [] => []
  | addr, s :: rest => addr :: starts (addr + s.length + 1) rest

section Strings

variable {mem : ByteMem} {addr : Nat}

theorem StringAt.byte_ne_zero {s : List Byte} (string : StringAt mem addr s) {i : Nat}
    (bound : i < s.length) : mem (addr + i) ≠ 0 := by
  rw [string.2 i (by omega), List.getD_eq_getElem _ _ (by rw [List.length_append]; omega),
    List.getElem_append_left bound]
  exact fun zero => string.1 (zero ▸ List.getElem_mem bound)

theorem StringAt.end_zero {s : List Byte} (string : StringAt mem addr s) :
    mem (addr + s.length) = 0 := by
  rw [string.2 s.length (Nat.lt_succ_self _)]
  simp

theorem countStrings_skip (k left : Nat) {addr : Nat} (bytes : ∀ i < k, mem (addr + i) ≠ 0) :
    countStrings mem addr (k + left) = countStrings mem (addr + k) left := by
  induction k generalizing addr with
  | zero => rw [Nat.zero_add, Nat.add_zero]
  | succ k ih =>
    have first : mem addr ≠ 0 := bytes 0 (Nat.succ_pos k)
    rw [Nat.succ_add, countStrings, if_neg first, Nat.zero_add, ih, Nat.add_assoc, Nat.add_comm 1 k]
    intro i bound
    rw [Nat.add_assoc]
    exact bytes (1 + i) (by omega)

theorem stringArray_skip (k left : Nat) {addr : Nat} (bytes : ∀ i < k, mem (addr + i) ≠ 0) :
    stringArray mem addr (k + left) = stringArray mem (addr + k) left := by
  induction k generalizing addr with
  | zero => rw [Nat.zero_add, Nat.add_zero]
  | succ k ih =>
    have first : ¬ (mem addr = 0 ∧ k + left ≠ 0) := fun both => bytes 0 (Nat.succ_pos k) both.1
    rw [Nat.succ_add, stringArray, if_neg first, ih, Nat.add_assoc, Nat.add_comm 1 k]
    intro i bound
    rw [Nat.add_assoc]
    exact bytes (1 + i) (by omega)

theorem stringsSize_cons (s : List Byte) (rest : List (List Byte)) :
    stringsSize (s :: rest) = s.length + (stringsSize rest + 1) := by
  simp [stringsSize]
  omega

variable {names : List (List Byte)}

theorem stringsSize_eq_zero : stringsSize names = 0 ↔ names = [] := by
  cases names with
  | nil => exact iff_of_true rfl rfl
  | cons s rest =>
    rw [stringsSize_cons]
    exact iff_of_false (by omega) nofun

theorem countStrings_eq (strings : StringsAt mem addr names) :
    countStrings mem addr (stringsSize names) = names.length := by
  induction names generalizing addr with
  | nil => rfl
  | cons s rest ih =>
    rw [stringsSize_cons, countStrings_skip s.length _ fun i => strings.1.byte_ne_zero,
      countStrings, if_pos strings.1.end_zero, ih strings.2, List.length_cons, Nat.add_comm]

theorem stringArray_eq (strings : StringsAt mem addr names)
    (some_ : names ≠ []) :
    addr :: stringArray mem addr (stringsSize names) = starts addr names := by
  induction names generalizing addr with
  | nil => exact absurd rfl some_
  | cons s rest ih =>
    rw [stringsSize_cons, stringArray_skip s.length _ fun i => strings.1.byte_ne_zero, stringArray,
      starts]
    by_cases last : rest = []
    · have none_ : ¬ (mem (addr + s.length) = 0 ∧ stringsSize rest ≠ 0) := fun both =>
        both.2 (stringsSize_eq_zero.mpr last)
      rw [if_neg none_, last]
      rfl
    · rw [if_pos ⟨strings.1.end_zero, fun zero => last (stringsSize_eq_zero.mp zero)⟩,
        ih strings.2 last]

theorem starts_length (names : List (List Byte)) : ∀ addr, (starts addr names).length =
    names.length := by
  induction names with
  | nil => exact fun _ => rfl
  | cons s rest ih => exact fun addr => congrArg (· + 1) (ih _)

def cString (mem : ByteMem) (stop addr : Nat) : List Byte :=
  (mem.load addr (stop - addr)).takeWhile (· ≠ 0)

theorem cString_eq {s : List Byte} (string : StringAt mem addr s) {stop : Nat}
    (room : addr + s.length < stop) : cString mem stop addr = s := by
  have text : mem.load addr s.length = s := by
    refine List.ext_getElem (mem.load_length addr s.length) fun i _ bound => ?_
    rw [ByteMem.load_getElem, string.2 i (by omega), List.getD_append _ _ _ _ bound,
      List.getD_eq_getElem _ _ bound]
  obtain ⟨more, split⟩ : ∃ more, stop - addr = s.length + (1 + more) :=
    ⟨stop - addr - s.length - 1, by omega⟩
  have last : mem.load (addr + s.length) 1 = [0] := by
    simp [ByteMem.load, string.end_zero]
  rw [cString, split, mem.load_add, text, mem.load_add, last, List.takeWhile_append_of_pos]
  · simp
  · intro c member
    simpa using fun zero : c = 0 => string.1 (zero ▸ member)

theorem starts_strings {stop : Nat} (strings : StringsAt mem addr names)
    (room : addr + stringsSize names ≤ stop) :
    (starts addr names).map (cString mem stop) = names := by
  induction names generalizing addr with
  | nil => rfl
  | cons s rest ih =>
    rw [stringsSize_cons] at room
    rw [starts, List.map_cons, cString_eq strings.1 (by omega), ih strings.2 (by omega)]

end Strings

end Cboot.DeviceTree
