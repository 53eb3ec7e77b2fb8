/-
**Byte memory.**

A memory is a byte at every address. The operations are the documented ones of the C library:
`store` writes a run of bytes, `load` reads one, `memset` fills a range and `memmove` copies one
range over another as if through a temporary buffer, so that the two may overlap.

The lemmas give each operation pointwise, inside the range it writes and outside it, and say what
`load` returns after each (`load_store_self`, `load_congr`). Words of 16 and 32 bits are stored
little-endian (`bytes16`, `bytes32`) and read by `word16` and `word32`; each is the inverse of the
other (`append_bytes32`, `bytes32_word32`).

Two memories that agree on a range (`AgreeOn`) are not told apart by what reads only that range, and
every operation keeps the agreement where it does not copy from outside of it.
-/

import Mathlib

namespace Cboot

abbrev Byte := BitVec 8

instance : LawfulBEq Byte := inferInstance

abbrev ByteMem := Nat → Byte

namespace ByteMem

variable (mem : ByteMem) (addr : Nat) (bytes : List Byte)

def store : ByteMem := fun a =>
  if addr ≤ a ∧ a < addr + bytes.length then bytes.getD (a - addr) 0 else mem a

def load (addr n : Nat) : List Byte := (List.range n).map fun i => mem (addr + i)

def memset (value : Byte) (n : Nat) : ByteMem := fun a =>
  if addr ≤ a ∧ a < addr + n then value else mem a

def copyFrom (mem source : ByteMem) (dest src n : Nat) : ByteMem := fun a =>
  if dest ≤ a ∧ a < dest + n then source (src + (a - dest)) else mem a

def memmove (dest src n : Nat) : ByteMem := fun a =>
  if dest ≤ a ∧ a < dest + n then mem (src + (a - dest)) else mem a

theorem store_inside (i : Nat) (inside : i < bytes.length) :
    mem.store addr bytes (addr + i) = bytes[i] := by
  have range : addr ≤ addr + i ∧ addr + i < addr + bytes.length := by omega
  have offset : addr + i - addr = i := by omega
  rw [store, if_pos range, offset]
  simp [inside]

theorem store_outside (a : Nat) (outside : a < addr ∨ addr + bytes.length ≤ a) :
    mem.store addr bytes a = mem a :=
  if_neg (by omega)

theorem store_append (first second : List Byte) :
    (mem.store addr first).store (addr + first.length) second = mem.store addr (first ++ second) := by
  funext a
  simp only [store, List.length_append]
  by_cases inFirst : addr ≤ a ∧ a < addr + first.length
  · rw [if_neg (by omega), if_pos inFirst, if_pos (by omega),
      List.getD_append _ _ _ _ (by omega)]
  · by_cases inSecond : addr + first.length ≤ a ∧ a < addr + first.length + second.length
    · rw [if_pos inSecond, if_pos (by omega), List.getD_append_right _ _ _ _ (by omega)]
      congr 1
      omega
    · rw [if_neg inSecond, if_neg inFirst, if_neg (by omega)]

theorem memset_inside (value : Byte) (n a : Nat) (lower : addr ≤ a) (upper : a < addr + n) :
    mem.memset addr value n a = value :=
  if_pos ⟨lower, upper⟩

theorem copyFrom_inside (mem source : ByteMem) {dest src n a : Nat} (lower : dest ≤ a)
    (upper : a < dest + n) : mem.copyFrom source dest src n a = source (src + (a - dest)) :=
  if_pos ⟨lower, upper⟩

theorem copyFrom_outside (mem source : ByteMem) {dest src n a : Nat}
    (outside : a < dest ∨ dest + n ≤ a) : mem.copyFrom source dest src n a = mem a :=
  if_neg (by omega)

theorem copyFrom_append (mem source : ByteMem) (dest src n m : Nat) :
    (mem.copyFrom source dest src n).copyFrom source (dest + n) (src + n) m =
      mem.copyFrom source dest src (n + m) := by
  funext a
  by_cases first : dest ≤ a ∧ a < dest + n
  · rw [copyFrom_outside _ _ (by omega), copyFrom_inside _ _ first.1 first.2,
      copyFrom_inside _ _ first.1 (by omega)]
  · by_cases second : dest + n ≤ a ∧ a < dest + n + m
    · rw [copyFrom_inside _ _ second.1 second.2, copyFrom_inside _ _ (by omega) (by omega)]
      congr 1
      omega
    · rw [copyFrom_outside _ _ (by omega), copyFrom_outside _ _ (by omega),
        copyFrom_outside _ _ (by omega)]

theorem copyFrom_patch {mem source patch : ByteMem} {dest src n skip start m : Nat}
    (within : skip + m ≤ n) (inner : ∀ i < m, source (src + (skip + i)) = patch (start + i))
    (around : ∀ i < n, i < skip ∨ skip + m ≤ i → source (src + i) = mem (dest + i)) :
    mem.copyFrom source dest src n = mem.copyFrom patch (dest + skip) start m := by
  funext a
  by_cases copied : dest ≤ a ∧ a < dest + n
  · obtain ⟨i, rfl⟩ := Nat.exists_eq_add_of_le copied.1
    rw [copyFrom_inside _ _ copied.1 copied.2, Nat.add_sub_cancel_left]
    by_cases patched : skip ≤ i ∧ i < skip + m
    · obtain ⟨j, rfl⟩ := Nat.exists_eq_add_of_le patched.1
      rw [inner j (by omega), copyFrom_inside _ _ (by omega) (by omega)]
      congr 1
      omega
    · rw [around i (by omega) (by omega), copyFrom_outside _ _ (by omega)]
  · rw [copyFrom_outside _ _ (by omega), copyFrom_outside _ _ (by omega)]

theorem memmove_inside (dest src n i : Nat) (inside : i < n) :
    mem.memmove dest src n (dest + i) = mem (src + i) := by
  have range : dest ≤ dest + i ∧ dest + i < dest + n := by omega
  have offset : dest + i - dest = i := by omega
  rw [memmove, if_pos range, offset]

theorem memmove_outside (dest src n a : Nat) (outside : a < dest ∨ dest + n ≤ a) :
    mem.memmove dest src n a = mem a :=
  if_neg (by omega)

@[simp] theorem load_length (addr n : Nat) : (mem.load addr n).length = n := by
  simp [load]

theorem load_getElem (addr n i : Nat) (bound : i < (mem.load addr n).length) :
    (mem.load addr n)[i] = mem (addr + i) := by
  simp [load]

theorem load_congr {first second : ByteMem} {addr addr' n : Nat}
    (agree : ∀ i < n, first (addr + i) = second (addr' + i)) :
    first.load addr n = second.load addr' n := by
  apply List.map_congr_left
  intro i member
  exact agree i (List.mem_range.mp member)

theorem load_memmove (dest src : Nat) {n size : Nat} (within : size ≤ n) :
    (mem.memmove dest src n).load dest size = mem.load src size :=
  load_congr fun i bound => mem.memmove_inside dest src n i (bound.trans_le within)

theorem take_load (addr n size : Nat) :
    (mem.load addr n).take size = mem.load addr (min n size) := by
  rw [load, load, ← List.map_take, List.take_range, Nat.min_comm]

theorem load_add (addr n m : Nat) :
    mem.load addr (n + m) = mem.load addr n ++ mem.load (addr + n) m := by
  simp [load, List.range_add, Nat.add_assoc]

theorem load_store_self : (mem.store addr bytes).load addr bytes.length = bytes := by
  apply List.ext_getElem
  · simp
  · intro i bound inside
    rw [load_getElem, store_inside mem addr bytes i inside]

theorem store_restore : (mem.store addr bytes).store addr (mem.load addr bytes.length) = mem := by
  funext a
  by_cases inside : addr ≤ a ∧ a < addr + bytes.length
  · obtain ⟨i, rfl⟩ := Nat.exists_eq_add_of_le inside.1
    rw [store_inside _ _ _ i (by rw [load_length]; omega), load_getElem]
  · rw [store_outside _ _ _ _ (by rw [load_length]; omega), store_outside _ _ _ _ (by omega)]

def view (base : Nat) : ByteMem := fun a => mem (base + a)

theorem load_view (base addr n : Nat) : (mem.view base).load addr n = mem.load (base + addr) n :=
  load_congr fun i _ => congrArg mem (Nat.add_assoc base addr i).symm

theorem view_store (base addr : Nat) (bytes : List Byte) :
    (mem.store (base + addr) bytes).view base = (mem.view base).store addr bytes := by
  funext a
  show mem.store (base + addr) bytes (base + a) = _
  by_cases inside : addr ≤ a ∧ a < addr + bytes.length
  · obtain ⟨i, rfl⟩ := Nat.exists_eq_add_of_le inside.1
    rw [← Nat.add_assoc, store_inside _ _ _ i (by omega), store_inside _ _ _ i (by omega)]
  · rw [store_outside _ _ _ _ (by omega), store_outside _ _ _ _ (by omega)]
    rfl

end ByteMem

/-! ### Little-endian words -/

def bytes16 (word : BitVec 16) : List Byte := [word.setWidth 8, (word >>> 8).setWidth 8]

def bytes32 (word : BitVec 32) : List Byte :=
  [word.setWidth 8, (word >>> 8).setWidth 8, (word >>> 16).setWidth 8, (word >>> 24).setWidth 8]

def word16 (mem : ByteMem) (addr : Nat) : BitVec 16 := mem (addr + 1) ++ mem addr

def word32 (mem : ByteMem) (addr : Nat) : BitVec 32 :=
  mem (addr + 3) ++ mem (addr + 2) ++ mem (addr + 1) ++ mem addr

theorem word32_view (mem : ByteMem) (base addr : Nat) :
    word32 (mem.view base) addr = word32 mem (base + addr) := rfl

theorem append_bytes16 (word : BitVec 16) :
    (word >>> 8).setWidth 8 ++ word.setWidth 8 = word := by
  apply BitVec.eq_of_getLsbD_eq
  intro i bound
  rw [BitVec.getLsbD_append]
  by_cases low : i < 8
  · simp [low]
  · have shift : 8 + (i - 8) = i := by omega
    have top : i - 8 < 8 := by omega
    simp [low, top, shift]

theorem append_bytes32 (word : BitVec 32) :
    (word >>> 24).setWidth 8 ++ (word >>> 16).setWidth 8 ++ (word >>> 8).setWidth 8 ++
      word.setWidth 8 = word := by
  apply BitVec.eq_of_getLsbD_eq
  intro i bound
  simp only [BitVec.getLsbD_append, BitVec.getLsbD_setWidth, BitVec.getLsbD_ushiftRight]
  by_cases first : i < 8
  · simp [first]
  · by_cases second : i - 8 < 8
    · have shift : 8 + (i - 8) = i := by omega
      simp [first, second, shift]
    · by_cases third : i - 8 - 8 < 8
      · have shift : 16 + (i - 8 - 8) = i := by omega
        simp [first, second, third, shift]
      · have fourth : i - 8 - 8 - 8 < 8 := by omega
        have shift : 24 + (i - 8 - 8 - 8) = i := by omega
        simp [first, second, third, fourth, shift]

theorem setWidth_append_low (high low : Byte) : (high ++ low).setWidth 8 = low := by
  apply BitVec.eq_of_getLsbD_eq
  intro i bound
  rw [BitVec.getLsbD_setWidth, BitVec.getLsbD_append]
  simp [bound]

theorem bytes16_word16 (mem : ByteMem) (addr : Nat) :
    bytes16 (word16 mem addr) = mem.load addr 2 := by
  have high : ((word16 mem addr) >>> 8).setWidth 8 = mem (addr + 1) := by
    apply BitVec.eq_of_getLsbD_eq
    intro i bound
    rw [BitVec.getLsbD_setWidth, BitVec.getLsbD_ushiftRight, word16, BitVec.getLsbD_append]
    simp [bound]
  rw [bytes16, high, word16, setWidth_append_low]
  rfl

theorem bytes32_word32 (mem : ByteMem) (addr : Nat) :
    bytes32 (word32 mem addr) = mem.load addr 4 := by
  have byte : ∀ k < 4, ((word32 mem addr) >>> (8 * k)).setWidth 8 = mem (addr + k) := by
    intro k below
    apply BitVec.eq_of_getLsbD_eq
    intro i bound
    simp only [word32, BitVec.getLsbD_setWidth, BitVec.getLsbD_ushiftRight, BitVec.getLsbD_append]
    match k, below with
    | 0, _ | 1, _ => simp [bound]
    | 2, _ => simp [bound, show ¬ 16 + i - 8 < 8 by omega, show ¬ 16 + i < 8 by omega,
        show 16 + i - 8 - 8 = i by omega]
    | 3, _ => simp [bound, show ¬ 24 + i - 8 < 8 by omega, show ¬ 24 + i < 8 by omega,
        show ¬ 24 + i - 8 - 8 < 8 by omega, show 24 + i - 8 - 8 - 8 = i by omega]
  have first := byte 0 (by omega)
  have second := byte 1 (by omega)
  have third := byte 2 (by omega)
  have fourth := byte 3 (by omega)
  simp only [Nat.mul_zero, BitVec.ushiftRight_zero, Nat.add_zero] at first
  rw [bytes32, first, second, third, fourth]
  rfl

/-! ### Words of 64 bits -/

def bytes64 (word : BitVec 64) : List Byte :=
  bytes32 (word.setWidth 32) ++ bytes32 ((word >>> 32).setWidth 32)

def word64 (mem : ByteMem) (addr : Nat) : BitVec 64 := word32 mem (addr + 4) ++ word32 mem addr

@[simp] theorem bytes32_length (word : BitVec 32) : (bytes32 word).length = 4 := rfl

@[simp] theorem bytes64_length (word : BitVec 64) : (bytes64 word).length = 8 := rfl

theorem append_words (word : BitVec 64) :
    (word >>> 32).setWidth 32 ++ word.setWidth 32 = word := by
  apply BitVec.eq_of_getLsbD_eq
  intro i bound
  rw [BitVec.getLsbD_append]
  by_cases low : i < 32
  · simp [low]
  · have shift : 32 + (i - 32) = i := by omega
    have top : i - 32 < 32 := by omega
    simp [low, top, shift]

theorem word32_of_bytes {mem : ByteMem} {addr : Nat} {word : BitVec 32}
    (bytes : ∀ (i : Nat) (bound : i < 4), mem (addr + i) = (bytes32 word)[i]) :
    word32 mem addr = word := by
  have first := bytes 0 (by decide)
  rw [Nat.add_zero] at first
  rw [word32, first, bytes 1 (by decide), bytes 2 (by decide), bytes 3 (by decide)]
  exact append_bytes32 word

theorem word32_store (mem : ByteMem) (addr : Nat) (word : BitVec 32) :
    word32 (mem.store addr (bytes32 word)) addr = word :=
  word32_of_bytes fun i bound => mem.store_inside addr (bytes32 word) i bound

theorem word64_store (mem : ByteMem) (addr : Nat) (word : BitVec 64) :
    word64 (mem.store addr (bytes64 word)) addr = word := by
  have low : word32 (mem.store addr (bytes64 word)) addr = word.setWidth 32 := by
    refine word32_of_bytes fun i bound => ?_
    rw [mem.store_inside addr (bytes64 word) i (by rw [bytes64_length]; omega)]
    exact List.getElem_append_left bound
  have high : word32 (mem.store addr (bytes64 word)) (addr + 4) = (word >>> 32).setWidth 32 := by
    refine word32_of_bytes fun i bound => ?_
    rw [Nat.add_assoc, mem.store_inside addr (bytes64 word) (4 + i) (by rw [bytes64_length]; omega)]
    match i, bound with
    | 0, _ | 1, _ | 2, _ | 3, _ => rfl
  rw [word64, low, high]
  exact append_words word

/-! Words beside a stored word are kept. -/

section Beside

variable (mem : ByteMem) {addr addr' : Nat}

theorem word32_store32_ne (word : BitVec 32) (apart : addr' + 4 ≤ addr ∨ addr + 4 ≤ addr') :
    word32 (mem.store addr (bytes32 word)) addr' = word32 mem addr' := by
  have kept : ∀ a, addr' ≤ a → a < addr' + 4 → mem.store addr (bytes32 word) a = mem a :=
    fun a lower upper => mem.store_outside addr _ a (by rw [bytes32_length]; omega)
  rw [word32, word32, kept _ (by omega) (by omega), kept _ (by omega) (by omega),
    kept _ (by omega) (by omega), kept _ (by omega) (by omega)]

theorem word32_store64_ne (word : BitVec 64) (apart : addr' + 4 ≤ addr ∨ addr + 8 ≤ addr') :
    word32 (mem.store addr (bytes64 word)) addr' = word32 mem addr' := by
  have kept : ∀ a, addr' ≤ a → a < addr' + 4 → mem.store addr (bytes64 word) a = mem a :=
    fun a lower upper => mem.store_outside addr _ a (by rw [bytes64_length]; omega)
  rw [word32, word32, kept _ (by omega) (by omega), kept _ (by omega) (by omega),
    kept _ (by omega) (by omega), kept _ (by omega) (by omega)]

theorem word64_store32_ne (word : BitVec 32) (apart : addr' + 8 ≤ addr ∨ addr + 4 ≤ addr') :
    word64 (mem.store addr (bytes32 word)) addr' = word64 mem addr' := by
  rw [word64, word64, word32_store32_ne mem word (by omega), word32_store32_ne mem word (by omega)]

theorem word64_store64_ne (word : BitVec 64) (apart : addr' + 8 ≤ addr ∨ addr + 8 ≤ addr') :
    word64 (mem.store addr (bytes64 word)) addr' = word64 mem addr' := by
  rw [word64, word64, word32_store64_ne mem word (by omega), word32_store64_ne mem word (by omega)]

end Beside

/-! ### Memories that agree on a range -/

def AgreeOn (low high : Nat) (first second : ByteMem) : Prop :=
  ∀ a, low ≤ a → a < high → first a = second a

namespace AgreeOn

variable {low high : Nat} {first second : ByteMem}

theorem mono {low' high' : Nat} (agree : AgreeOn low high first second) (lower : low ≤ low')
    (upper : high' ≤ high) : AgreeOn low' high' first second := fun a above below =>
  agree a (lower.trans above) (below.trans_le upper)

theorem symm (agree : AgreeOn low high first second) : AgreeOn low high second first :=
  fun a above below => (agree a above below).symm

theorem trans {third : ByteMem} (agree : AgreeOn low high first second)
    (next : AgreeOn low high second third) : AgreeOn low high first third := fun a above below =>
  (agree a above below).trans (next a above below)

theorem append (mid : Nat) (left : AgreeOn low mid first second)
    (right : AgreeOn mid high first second) : AgreeOn low high first second := fun a above below =>
  (Nat.lt_or_ge a mid).elim (left a above) fun past => right a past below

section

variable (agree : AgreeOn low high first second)
include agree

theorem load {addr n : Nat} (lower : low ≤ addr)
    (upper : addr + n ≤ high) : first.load addr n = second.load addr n :=
  ByteMem.load_congr fun i bound => agree (addr + i) (by omega) (by omega)

theorem word16 {addr : Nat} (lower : low ≤ addr)
    (upper : addr + 2 ≤ high) : Cboot.word16 first addr = Cboot.word16 second addr := by
  unfold Cboot.word16
  rw [agree addr (by omega) (by omega), agree (addr + 1) (by omega) (by omega)]

theorem word32 {addr : Nat} (lower : low ≤ addr)
    (upper : addr + 4 ≤ high) : Cboot.word32 first addr = Cboot.word32 second addr := by
  unfold Cboot.word32
  rw [agree addr (by omega) (by omega), agree (addr + 1) (by omega) (by omega),
    agree (addr + 2) (by omega) (by omega), agree (addr + 3) (by omega) (by omega)]

theorem word64 {addr : Nat} (lower : low ≤ addr)
    (upper : addr + 8 ≤ high) : Cboot.word64 first addr = Cboot.word64 second addr := by
  rw [Cboot.word64, Cboot.word64, agree.word32 lower (by omega),
    agree.word32 (show low ≤ addr + 4 by omega) (by omega)]

theorem store (addr : Nat) (bytes : List Byte) :
    AgreeOn low high (first.store addr bytes) (second.store addr bytes) := by
  intro a above below
  unfold ByteMem.store
  rw [agree a above below]

end

theorem of_store (addr : Nat) (bytes : List Byte) (first second : ByteMem) :
    AgreeOn addr (addr + bytes.length) (first.store addr bytes) (second.store addr bytes) := by
  intro a above below
  unfold ByteMem.store
  rw [if_pos ⟨above, below⟩, if_pos ⟨above, below⟩]

theorem of_memset (addr : Nat) (value : Byte) (n : Nat) (first second : ByteMem) :
    AgreeOn addr (addr + n) (first.memset addr value n) (second.memset addr value n) := by
  intro a above below
  rw [ByteMem.memset_inside _ _ _ _ _ above below, ByteMem.memset_inside _ _ _ _ _ above below]

theorem of_memmove (dest : Nat) {src n size : Nat} (within : size ≤ n)
    (source : AgreeOn src (src + size) first second) :
    AgreeOn dest (dest + size) (first.memmove dest src n) (second.memmove dest src n) := by
  intro a above below
  have place : a = dest + (a - dest) := by omega
  rw [place, ByteMem.memmove_inside _ _ _ _ _ (by omega),
    ByteMem.memmove_inside _ _ _ _ _ (by omega)]
  exact source _ (by omega) (by omega)

theorem memmove_below (agree : AgreeOn low high first second) {dest : Nat} (src n : Nat)
    (below : high ≤ dest) :
    AgreeOn low high (first.memmove dest src n) (second.memmove dest src n) := by
  intro a above inside
  rw [ByteMem.memmove_outside _ _ _ _ _ (.inl (inside.trans_le below)),
    ByteMem.memmove_outside _ _ _ _ _ (.inl (inside.trans_le below))]
  exact agree a above inside

end AgreeOn

end Cboot
