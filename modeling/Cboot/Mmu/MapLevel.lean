/-
**Building the translation tables.**

The tables live in the 32 pages at `tt_base`; page 0 is the root and a bitmap marks the free pages.
`arm64MmuMapLevel` walks down the levels, splitting a block into a new table when the range covers
only a part of it, and writes block and page descriptors. A program stops at an assertion or a
panic; the state then is the one it stopped in.

The levels are counted by the levels below: a table of height 2 is of level 1, the pages are at
height 0. The cache and TLB maintenance does not change the tables and is left out.
-/

import Cboot.Lib.Resource
import Cboot.Lib.TableTree
import Cboot.Mmu.Descriptors

namespace Cboot.Mmu

open BitField Resource TableTree

/-! ### The state -/

structure TtArea where
  base : BitVec 64
  aligned : pageSize ∣ base.toNat
  bound : base.toNat + numPageTablePages * pageSize ≤ 2 ^ paSizeBits
  notNull : 0 < base.toNat

/-- The tables, `free_page_table_bitmap` and the static pointer of `allocate_tt_page`. `exhausted`
records that an allocation found no free page. -/
structure TtState where
  mem : BitVec 64 → Fin 512 → Pte
  freePageTableBitmap : BitVec 64
  result : BitVec 64
  exhausted : Bool

inductive Stop
  | assertion
  | invalidTt
  deriving DecidableEq

abbrev TtM := EStateM Stop TtState

def setPte (mem : BitVec 64 → Fin 512 → Pte) (tt : BitVec 64) (index : Fin 512) (pte : Pte) :
    BitVec 64 → Fin 512 → Pte :=
  Function.update mem tt (Function.update (mem tt) index pte)

def readPte (tt : BitVec 64) (index : Fin 512) : TtM Pte := fun s => .ok (s.mem tt index) s

def putPte (s : TtState) (tt : BitVec 64) (index : Fin 512) (pte : Pte) : TtState :=
  { s with mem := setPte s.mem tt index pte }

def writePte (tt : BitVec 64) (index : Fin 512) (pte : Pte) : TtM Unit :=
  fun s => .ok () (putPte s tt index pte)

section Pages

variable (area : TtArea)

def ttPage (i : Nat) : BitVec 64 := area.base + BitVec.ofNat 64 (i * pageSize)

def allocateTtPage : TtM (BitVec 64) := fun s =>
  match (List.range numPageTablePages).find? fun i =>
      s.freePageTableBitmap &&& (1#64 <<< i) ≠ 0#64 with
  | some i =>
    .ok (ttPage area i)
      { s with
        mem := Function.update s.mem (ttPage area i) fun _ => 0#64
        freePageTableBitmap := s.freePageTableBitmap &&& ~~~(1#64 <<< i)
        result := ttPage area i }
  | none => .ok s.result { s with exhausted := true }

def assertNotNull (tt : BitVec 64) : TtM Unit := fun s =>
  if tt ≠ 0#64 then .ok () s else .error .assertion s

def freeTtPage (tt : BitVec 64) : TtM Unit := fun s =>
  let index : BitVec 32 := ((tt - area.base) >>> ttLevelShift 3).setWidth 32
  if tt.toNat % pageSize ≠ 0 ∨ numPageTablePages ≤ index.toNat then .error .invalidTt s
  else .ok () { s with
    freePageTableBitmap := s.freePageTableBitmap ||| (1#64 <<< index.toNat) }

def fillTtFrom (tt : BitVec 64) (level : Nat) (templatePte : Pte) :
    Nat → Nat → Pte → (BitVec 64 → Fin 512 → Pte) → BitVec 64 → Fin 512 → Pte
  | 0, _, _, mem => mem
  | left + 1, i, paddr, mem =>
    fillTtFrom tt level templatePte left (i + 1) (paddr + BitVec.ofNat 64 (ttLevelSize level))
      (setPte mem tt (Fin.ofNat 512 i) (fillPte level paddr templatePte))

def fillTt (tt : BitVec 64) (level : Nat) (templatePte : Pte) : TtM Unit := fun s =>
  .ok () { s with
    mem := fillTtFrom tt level templatePte ptesPerPage 0 (templatePte &&& pteOutputAddrMask) s.mem }

/-! ### Mapping -/

variable (level : Nat)

def splitInto (tt : BitVec 64) (index : Fin 512) (nextTt : BitVec 64) :
    TtM (BitVec 64) := do
  assertNotNull nextTt
  let templatePte ← readPte tt index
  fillTt nextTt (level + 1) templatePte
  writePte tt index (tablePte nextTt)
  return nextTt

def pointTo (tt : BitVec 64) (index : Fin 512) (nextTt : BitVec 64) : TtM (BitVec 64) := do
  assertNotNull nextTt
  writePte tt index (tablePte nextTt)
  return nextTt

def nextTtOf (tt : BitVec 64) (index : Fin 512) : TtM (BitVec 64) := do
  let pte ← readPte tt index
  if pte &&& pteValid ≠ 0#64 then
    if pte &&& pteTable ≠ 0#64 then
      return pte &&& pteNextLevelTableAddrMask
    else
      let nextTt ← allocateTtPage area
      splitInto level tt index nextTt
  else
    let nextTt ← allocateTtPage area
    pointTo tt index nextTt

def freeSubTable (tt : BitVec 64) (index : Fin 512) : TtM Unit := do
  let pte ← readPte tt index
  if pte &&& pteValid ≠ 0#64 ∧ level < lastLevel ∧ pte &&& pteTable ≠ 0#64 then
    freeTtPage area (pte &&& pteNextLevelTableAddrMask)

def writeLeaf (flags : BitVec 32) (tt : BitVec 64) (index : Fin 512) (paddr : Nat) :
    TtM Nat := do
  freeSubTable area level tt index
  writePte tt index (leafPte level (BitVec.ofNat 64 paddr) flags)
  return ttLevelSize level

def mapIndex (descend : BitVec 64 → Nat → Nat → Nat → TtM Nat) (level : Nat) (flags : BitVec 32)
    (tt : BitVec 64) (index : Fin 512) (vaddr paddr size : Nat) : TtM Nat := do
  if (maxMappingAllowed < ttLevelSize level ∨ vaddr &&& (ttLevelSize level - 1) ≠ 0 ∨
      size < ttLevelSize level) ∧ level < lastLevel then
    let nextTt ← nextTtOf area level tt index
    let mapSize := if size < ttLevelSize level then size else ttLevelSize level
    descend nextTt vaddr paddr mapSize
  else
    writeLeaf area level flags tt index paddr

def mapFrom (descend : BitVec 64 → Nat → Nat → Nat → TtM Nat) (level : Nat) (flags : BitVec 32)
    (tt : BitVec 64) : Nat → Nat → Nat → Nat → Nat → Nat → TtM Nat
  | 0, _, _, _, _, totalSize => pure totalSize
  | left + 1, index, vaddr, paddr, size, totalSize =>
    if index < ptesPerPage ∧ 0 < size then do
      let mapSize ← mapIndex area descend level flags tt (Fin.ofNat 512 index) vaddr paddr size
      mapFrom descend level flags tt left (index + 1) (vaddr + mapSize) (paddr + mapSize)
        (if mapSize > size then 0 else size - mapSize) (totalSize + mapSize)
    else pure totalSize

def arm64MmuMapLevel (flags : BitVec 32) : Nat → BitVec 64 → Nat → Nat → Nat → TtM Nat
  | 0, tt, vaddr, paddr, size =>
    mapFrom area (fun _ _ _ _ => pure 0) lastLevel flags tt ptesPerPage
      ((vaddr >>> ttLevelShift lastLevel) &&& (2 ^ pageIndexSize - 1)) vaddr paddr size 0
  | height + 1, tt, vaddr, paddr, size =>
    mapFrom area (arm64MmuMapLevel flags height) (lastLevel - (height + 1)) flags tt ptesPerPage
      ((vaddr >>> ttLevelShift (lastLevel - (height + 1))) &&& (2 ^ pageIndexSize - 1))
      vaddr paddr size 0

def arm64MmuMap (paddr vaddr size : Nat) (flags : BitVec 32) : TtM Unit := do
  let _ ← arm64MmuMapLevel area flags (lastLevel - firstLevel) area.base vaddr paddr size

/-! ### Running out of pages -/

def RanOut (s : TtState) : Prop := s.exhausted = true

theorem readPte_sticky (tt : BitVec 64) (index : Fin 512) : Sticky RanOut (readPte tt index) :=
  fun _ => id

theorem writePte_sticky (tt : BitVec 64) (index : Fin 512) (pte : Pte) :
    Sticky RanOut (writePte tt index pte) :=
  fun _ => id

theorem fillTt_sticky (tt : BitVec 64) (level : Nat) (templatePte : Pte) :
    Sticky RanOut (fillTt tt level templatePte) := by
  intro s ranOut
  simp only [RanOut, fillTt, finalState] at *
  exact ranOut

theorem assertNotNull_sticky (tt : BitVec 64) : Sticky RanOut (assertNotNull tt) := by
  intro s ranOut
  unfold assertNotNull
  split
  · exact ranOut
  · exact ranOut

theorem allocateTtPage_sticky : Sticky RanOut (allocateTtPage area) := by
  intro s ranOut
  unfold allocateTtPage
  split
  · exact ranOut
  · exact rfl

theorem freeTtPage_sticky (tt : BitVec 64) : Sticky RanOut (freeTtPage area tt) := by
  intro s ranOut
  unfold freeTtPage
  dsimp only
  split
  · exact ranOut
  · exact ranOut

theorem splitInto_sticky (tt : BitVec 64) (index : Fin 512) (nextTt : BitVec 64) :
    Sticky RanOut (splitInto level tt index nextTt) := by
  refine Sticky.bind (assertNotNull_sticky nextTt) fun _ => ?_
  refine Sticky.bind (readPte_sticky tt index) fun templatePte => ?_
  refine Sticky.bind (fillTt_sticky nextTt _ templatePte) fun _ => ?_
  exact Sticky.bind (writePte_sticky tt index _) fun _ => Sticky.pure _

theorem pointTo_sticky (tt : BitVec 64) (index : Fin 512) (nextTt : BitVec 64) :
    Sticky RanOut (pointTo tt index nextTt) := by
  refine Sticky.bind (assertNotNull_sticky nextTt) fun _ => ?_
  exact Sticky.bind (writePte_sticky tt index _) fun _ => Sticky.pure _

structure Closed (keeps : ∀ {α : Type}, TtM α → Prop) : Prop where
  pure : ∀ {α : Type} (a : α), keeps (Pure.pure a : TtM α)
  bind : ∀ {α β : Type} {x : TtM α} {f : α → TtM β}, keeps x → (∀ a, keeps (f a)) → keeps (x >>= f)
  readPte : ∀ tt index, keeps (readPte tt index)
  writePte : ∀ tt index pte, keeps (writePte tt index pte)
  freeTtPage : ∀ tt, keeps (freeTtPage area tt)
  split : ∀ level tt index, keeps (allocateTtPage area >>= splitInto level tt index)
  point : ∀ tt index, keeps (allocateTtPage area >>= pointTo tt index)

section Closed

variable {area} {keeps : ∀ {α : Type}, TtM α → Prop}

theorem Closed.ite {α : Type} {c : Prop} [Decidable c] {x y : TtM α} (yes : keeps x)
    (no : keeps y) : keeps (if c then x else y) := by
  split
  · exact yes
  · exact no

variable (closed : Closed area keeps) {descend : BitVec 64 → Nat → Nat → Nat → TtM Nat}

include closed

theorem Closed.mapIndex (below : ∀ tt vaddr paddr size, keeps (descend tt vaddr paddr size))
    (level : Nat) (flags : BitVec 32) (tt : BitVec 64) (index : Fin 512) (vaddr paddr size : Nat) :
    keeps (mapIndex area descend level flags tt index vaddr paddr size) := by
  refine Closed.ite (closed.bind ?_ fun nextTt => below nextTt _ _ _) (closed.bind ?_ fun _ => ?_)
  · refine closed.bind (closed.readPte tt index) fun pte => Closed.ite (Closed.ite ?_ ?_) ?_
    · exact closed.pure _
    · exact closed.split level tt index
    · exact closed.point tt index
  · exact closed.bind (closed.readPte tt index) fun _ =>
      Closed.ite (closed.freeTtPage _) (closed.pure _)
  · exact closed.bind (closed.writePte tt index _) fun _ => closed.pure _

theorem Closed.mapFrom (below : ∀ tt vaddr paddr size, keeps (descend tt vaddr paddr size))
    (level : Nat) (flags : BitVec 32) (tt : BitVec 64) (left index vaddr paddr size total : Nat) :
    keeps (mapFrom area descend level flags tt left index vaddr paddr size total) := by
  induction left generalizing index vaddr paddr size total with
  | zero => exact closed.pure _
  | succ left ih =>
    refine Closed.ite ?_ (closed.pure _)
    exact closed.bind (closed.mapIndex below level flags tt _ vaddr paddr size) fun _ => ih _ _ _ _ _

theorem Closed.mapLevel (flags : BitVec 32) (height : Nat) (tt : BitVec 64)
    (vaddr paddr size : Nat) : keeps (arm64MmuMapLevel area flags height tt vaddr paddr size) := by
  induction height generalizing tt vaddr paddr size with
  | zero => exact closed.mapFrom (fun _ _ _ _ => closed.pure _) _ _ _ _ _ _ _ _ _
  | succ height ih => exact closed.mapFrom ih _ _ _ _ _ _ _ _ _

end Closed

theorem sticky_closed : Closed area (Sticky RanOut) where
  pure := Sticky.pure
  bind := Sticky.bind
  readPte := readPte_sticky
  writePte := writePte_sticky
  freeTtPage := freeTtPage_sticky area
  split level tt index := Sticky.bind (allocateTtPage_sticky area) (splitInto_sticky level tt index)
  point tt index := Sticky.bind (allocateTtPage_sticky area) (pointTo_sticky tt index)

/-! ### One round above level 3 -/

theorem mapIndex_above_eq {descend : BitVec 64 → Nat → Nat → Nat → TtM Nat} {height : Nat}
    (inRange : height + 1 ≤ 2) (flags : BitVec 32) (tt : BitVec 64) (index : Fin 512)
    (vaddr paddr size : Nat) :
    mapIndex area descend (lastLevel - (height + 1)) flags tt index vaddr paddr size =
      if span (height + 1) ∣ vaddr ∧ span (height + 1) ≤ size then
        writeLeaf area (lastLevel - (height + 1)) flags tt index paddr
      else nextTtOf area (lastLevel - (height + 1)) tt index >>= fun nextTt =>
        descend nextTt vaddr paddr (min size (span (height + 1))) := by
  have levelSize : ttLevelSize (lastLevel - (height + 1)) = span (height + 1) :=
    ttLevelSize_eq (by omega)
  have above : lastLevel - (height + 1) < lastLevel := by
    rw [lastLevel]
    omega
  have small : ¬maxMappingAllowed < span (height + 1) :=
    Nat.not_lt.mpr (Nat.le_of_dvd (by decide) (span_dvd_span inRange))
  have mapSize : (if size < span (height + 1) then size else span (height + 1)) =
      min size (span (height + 1)) := by
    split_ifs <;> omega
  have mask : vaddr &&& (span (height + 1) - 1) = vaddr % span (height + 1) := by
    rw [span, Nat.and_two_pow_sub_one_eq_mod]
  have covers : ((maxMappingAllowed < span (height + 1) ∨ vaddr % span (height + 1) ≠ 0 ∨
      size < span (height + 1)) ∧ lastLevel - (height + 1) < lastLevel) ↔
      ¬(span (height + 1) ∣ vaddr ∧ span (height + 1) ≤ size) := by
    rw [Nat.dvd_iff_mod_eq_zero]
    omega
  unfold mapIndex
  dsimp only
  rw [levelSize, mapSize, mask]
  simp only [covers, ite_not]

/-! ### The pool of pages -/

def allocated (s : TtState) : Set (BitVec 64) :=
  {p | ∃ i, i < numPageTablePages ∧ p = ttPage area i ∧ s.freePageTableBitmap.getLsbD i = false}

variable {area}

variable {i : Nat}

theorem ttPage_toNat (area : TtArea) (inPool : i < numPageTablePages) :
    (ttPage area i).toNat = area.base.toNat + i * pageSize := by
  have bound := area.bound
  rw [numPageTablePages, pageSize, paSizeBits] at *
  rw [ttPage, BitVec.toNat_add, BitVec.toNat_ofNat, pageSize]
  omega

theorem ttPage_injective {i j : Nat} (first : i < numPageTablePages) (second : j < numPageTablePages)
    (same : ttPage area i = ttPage area j) : i = j := by
  have equal := congrArg BitVec.toNat same
  rw [ttPage_toNat area first, ttPage_toNat area second, Nat.add_left_cancel_iff] at equal
  exact Nat.eq_of_mul_eq_mul_right (by decide : 0 < pageSize) equal

theorem ttPage_and (inPool : i < numPageTablePages) :
    ttPage area i &&& pteOutputAddrMask = ttPage area i := by
  have place := ttPage_toNat area inPool
  have bound := area.bound
  have page : pageSize ∣ (ttPage area i).toNat := by
    rw [place]
    exact Nat.dvd_add area.aligned (Nat.dvd_mul_left _ _)
  apply BitVec.eq_of_toNat_eq
  rw [outputAddr_toNat, Nat.mod_eq_of_lt ?_, Nat.div_mul_cancel page]
  rw [place]
  have below : i * pageSize < numPageTablePages * pageSize :=
    Nat.mul_lt_mul_of_pos_right inPool (by decide)
  rw [paSizeBits] at bound
  omega

theorem ttPage_ne_zero (inPool : i < numPageTablePages) : ttPage area i ≠ 0#64 := by
  intro isZero
  have value := congrArg BitVec.toNat isZero
  rw [ttPage_toNat area inPool] at value
  have positive := area.notNull
  exact absurd value (by rw [BitVec.toNat_zero]; omega)

theorem getLsbD_clear (bitmap : BitVec 64) (k : Nat) (inPool : i < numPageTablePages) :
    (bitmap &&& ~~~(1#64 <<< k)).getLsbD i = (bitmap.getLsbD i && !decide (i = k)) := by
  have inWord : i < 64 := Nat.lt_trans inPool (by decide)
  rw [BitVec.getLsbD_and, BitVec.getLsbD_not, getLsbD_bit, decide_eq_true inWord, Bool.and_true,
    Bool.true_and]

theorem getLsbD_mark (bitmap : BitVec 64) (k : Nat) (inPool : i < numPageTablePages) :
    (bitmap ||| (1#64 <<< k)).getLsbD i = (bitmap.getLsbD i || decide (i = k)) := by
  have inWord : i < 64 := Nat.lt_trans inPool (by decide)
  rw [BitVec.getLsbD_or, getLsbD_bit, decide_eq_true inWord, Bool.and_true]

theorem allocateTtPage_ensures (s : TtState) :
    Ensures RanOut (allocateTtPage area) s fun page s' =>
      page ∉ allocated area s ∧ allocated area s' = insert page (allocated area s) ∧
        s'.mem = Function.update s.mem page (fun _ => 0#64) ∧
        page ≠ 0#64 ∧ page &&& pteOutputAddrMask = page := by
  cases found : (List.range numPageTablePages).find? fun i =>
      s.freePageTableBitmap &&& (1#64 <<< i) ≠ 0#64 with
  | none =>
    left
    rw [allocateTtPage, found]
    exact rfl
  | some k =>
    have inPool : k < numPageTablePages := List.mem_range.mp (List.mem_of_find?_eq_some found)
    have isFree : s.freePageTableBitmap.getLsbD k = true := by
      have passed := List.find?_some found
      exact (and_bit_ne_zero_iff _ k).mp (of_decide_eq_true passed)
    refine Ensures.of_ok (by rw [allocateTtPage, found]) ⟨?_, ?_, rfl, ttPage_ne_zero inPool,
      ttPage_and inPool⟩
    · rintro ⟨i, inPool', same, clear⟩
      rw [← ttPage_injective inPool inPool' same, isFree] at clear
      cases clear
    · ext p
      constructor
      · rintro ⟨i, inPool', rfl, clear⟩
        rw [getLsbD_clear _ k inPool'] at clear
        by_cases same : i = k
        · exact .inl (congrArg _ same)
        · rw [decide_eq_false same, Bool.not_false, Bool.and_true] at clear
          exact .inr ⟨i, inPool', rfl, clear⟩
      · rintro (rfl | ⟨i, inPool', rfl, clear⟩)
        · refine ⟨k, inPool, rfl, ?_⟩
          rw [getLsbD_clear _ k inPool, decide_eq_true rfl, Bool.not_true, Bool.and_false]
        · refine ⟨i, inPool', rfl, ?_⟩
          rw [getLsbD_clear _ k inPool', clear, Bool.false_and]

theorem ttPage_index (inPool : i < numPageTablePages) :
    (((ttPage area i - area.base) >>> ttLevelShift 3).setWidth 32).toNat = i := by
  have shift : ttLevelShift 3 = 12 := rfl
  rw [numPageTablePages] at inPool
  rw [ttPage, BitVec.add_comm, BitVec.add_sub_cancel, BitVec.toNat_setWidth, BitVec.toNat_ushiftRight,
    BitVec.toNat_ofNat, Nat.shiftRight_eq_div_pow, shift, pageSize]
  omega

theorem freeTtPage_ok {s : TtState} {page : BitVec 64} (inUse : page ∈ allocated area s) :
    ∃ s', freeTtPage area page s = .ok () s' ∧ s'.mem = s.mem ∧
      allocated area s' = allocated area s \ {page} := by
  obtain ⟨k, inPool, rfl, clear⟩ := inUse
  have onPage : (ttPage area k).toNat % pageSize = 0 := by
    rw [ttPage_toNat area inPool]
    exact Nat.mod_eq_zero_of_dvd (Nat.dvd_add area.aligned (Nat.dvd_mul_left _ _))
  have accepted : ¬ ((ttPage area k).toNat % pageSize ≠ 0 ∨ numPageTablePages ≤ k) := by
    rintro (misplaced | outside)
    · exact misplaced onPage
    · exact absurd inPool (Nat.not_lt.mpr outside)
  refine ⟨{ s with freePageTableBitmap := s.freePageTableBitmap ||| (1#64 <<< k) }, ?_, rfl, ?_⟩
  · unfold freeTtPage
    dsimp only
    rw [ttPage_index inPool, if_neg accepted]
  · ext p
    constructor
    · rintro ⟨i, inPool', rfl, clear'⟩
      rw [getLsbD_mark _ k inPool', Bool.or_eq_false_iff] at clear'
      refine ⟨⟨i, inPool', rfl, clear'.1⟩, fun same => ?_⟩
      exact of_decide_eq_false clear'.2 (ttPage_injective inPool' inPool same)
    · rintro ⟨⟨i, inPool', rfl, clear'⟩, different⟩
      refine ⟨i, inPool', rfl, ?_⟩
      have apart : i ≠ k := fun same => different (congrArg _ same)
      rw [getLsbD_mark _ k inPool', clear', decide_eq_false apart, Bool.false_or]

theorem fillTtFrom_apply (tt : BitVec 64) (level : Nat) (templatePte : Pte) (left i : Nat)
    (paddr : Pte) (mem : BitVec 64 → Fin 512 → Pte) (inTable : i + left ≤ 512) :
    fillTtFrom tt level templatePte left i paddr mem =
      Function.update mem tt fun j =>
        if i ≤ j.val ∧ j.val < i + left then
          fillPte level (paddr + BitVec.ofNat 64 ((j.val - i) * ttLevelSize level)) templatePte
        else mem tt j := by
  induction left generalizing i paddr mem with
  | zero =>
    have none : ∀ j : Fin 512, ¬ (i ≤ j.val ∧ j.val < i + 0) := fun j => by omega
    simp only [fillTtFrom, if_neg (none _), Function.update_eq_self]
  | succ left ih =>
    rw [fillTtFrom, ih (i + 1) _ _ (by omega), setPte, Function.update_idem]
    congr 1
    funext j
    simp only [Function.update_self]
    have position : (Fin.ofNat 512 i).val = i := Nat.mod_eq_of_lt (by omega)
    by_cases here : j = Fin.ofNat 512 i
    · have value : j.val = i := by rw [here, position]
      have notLater : ¬ (i + 1 ≤ j.val ∧ j.val < i + 1 + left) := by omega
      have inside : i ≤ j.val ∧ j.val < i + (left + 1) := by omega
      rw [if_neg notLater, if_pos inside, here, Function.update_self, position, Nat.sub_self,
        Nat.zero_mul, BitVec.add_zero]
    · have different : j.val ≠ i := fun same => here (Fin.ext (same.trans position.symm))
      by_cases later : i + 1 ≤ j.val ∧ j.val < i + 1 + left
      · have inside : i ≤ j.val ∧ j.val < i + (left + 1) := by omega
        have distance : j.val - i = 1 + (j.val - (i + 1)) := by omega
        rw [if_pos later, if_pos inside, distance, Nat.add_mul, Nat.one_mul, BitVec.ofNat_add,
          BitVec.add_assoc]
      · have outside : ¬ (i ≤ j.val ∧ j.val < i + (left + 1)) := by omega
        rw [if_neg later, if_neg outside, Function.update_of_ne here]

theorem fillTt_ok (area : TtArea) (tt : BitVec 64) (level : Nat) (templatePte : Pte) (s : TtState) :
    ∃ s', fillTt tt level templatePte s = .ok () s' ∧ allocated area s' = allocated area s ∧
      s'.mem = Function.update s.mem tt fun j =>
        fillPte level ((templatePte &&& pteOutputAddrMask) +
          BitVec.ofNat 64 (j.val * ttLevelSize level)) templatePte := by
  obtain ⟨tables, filled⟩ : ∃ tables, tables = fillTtFrom tt level templatePte ptesPerPage 0
      (templatePte &&& pteOutputAddrMask) s.mem := ⟨_, rfl⟩
  refine ⟨{ s with mem := tables }, by rw [fillTt, filled], rfl, ?_⟩
  change tables = _
  rw [filled, fillTtFrom_apply tt level templatePte ptesPerPage 0 _ s.mem (by decide)]
  congr 1
  funext j
  rw [if_pos ⟨Nat.zero_le _, by rw [Nat.zero_add]; exact j.isLt⟩, Nat.sub_zero]

end Pages

end Cboot.Mmu
