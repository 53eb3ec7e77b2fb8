/-
**The frame law of the memory map.**

From the tables that `arm64_mmu_init` sets up, any number of identity mappings may be made. The law
that a further one leaves the translation of every other address unchanged holds but for one
attribute: a block that the range covers only in part is split with `fill_tt`, whose mask
`PTE_ATTRIBS_MASK` drops the execute-never bit, so the rest of the block becomes executable.
-/

import Cboot.Mmu.Effect

namespace Cboot.Mmu

open Resource TableTree

/-! ### The walk and the reachable states -/

def walk (area : TtArea) (s : TtState) (va : Nat) : Option Translation :=
  if va < 2 ^ vaSizeBits then translate va (leafOf s va (lastLevel - firstLevel) area.base) else none

def initTables (area : TtArea) (mem : BitVec 64 → Fin 512 → Pte) : TtState where
  mem := Function.update mem area.base fun _ => 0#64
  freePageTableBitmap := ((1#64 <<< numPageTablePages) - 1#64) &&& ~~~1#64
  result := 0#64
  exhausted := false

inductive Reachable (area : TtArea) : TtState → Prop
  | init (mem : BitVec 64 → Fin 512 → Pte) : Reachable area (initTables area mem)
  | map {s s' : TtState} (vaddr size : Nat) (flags : BitVec 32) (reached : Reachable area s)
      (onPage : pageSize ∣ vaddr) (pages : pageSize ∣ size) (noWrap : vaddr + size ≤ 2 ^ 64)
      (done : arm64MmuMap area vaddr vaddr size flags s = .ok () s')
      (enough : s'.exhausted = false) : Reachable area s'

section Facts

variable {area : TtArea} {s s' : TtState} {vaddr size : Nat} {flags : BitVec 32}

theorem initTables_tree (area : TtArea) (mem : BitVec 64 → Fin 512 → Pte) {ok : Nat → Pte → Prop}
    (zero : ok (lastLevel - firstLevel) 0#64) :
    Owned nextTable ok (initTables area mem).mem (allocated area (initTables area mem))
      (lastLevel - firstLevel) area.base := by
  have cleared : ∀ j, (initTables area mem).mem area.base j = 0#64 := by
    intro j
    change Function.update mem area.base (fun _ => 0#64) area.base j = 0#64
    rw [Function.update_self]
  have firstPage : (((1#64 <<< numPageTablePages) - 1#64) &&& ~~~1#64).getLsbD 0 = false := by
    decide
  refine Owned.ofLeaves (fun j => ?_) (fun _ j => ?_) ⟨0, by decide, ?_, firstPage⟩
  · rw [cleared]
    exact zero
  · rw [cleared]
    exact nextTable_zero
  · rw [ttPage, Nat.zero_mul, BitVec.add_zero]

theorem initTables_owned (mem : BitVec 64 → Fin 512 → Pte) :
    OwnedAt area (initTables area mem) (lastLevel - firstLevel) area.base :=
  initTables_tree area mem (leafOk_zero _)

section

variable (owned : OwnedAt area s (lastLevel - firstLevel) area.base) (onPage : pageSize ∣ vaddr)
  (pages : pageSize ∣ size)
include owned onPage pages

theorem arm64MmuMap_ensures :
    Ensures RanOut (arm64MmuMap area vaddr vaddr size flags) s fun _ s' =>
      ∃ mapped, LevelSpec area flags (lastLevel - firstLevel) area.base vaddr size s mapped s' := by
  refine Ensures.bind (fun _ => Sticky.pure _) ?_
  refine (arm64MmuMapLevel_ensures (Nat.le_refl 2) owned onPage pages).mono fun mapped s' spec => ?_
  exact Ensures.of_ok rfl ⟨mapped, spec⟩

theorem arm64MmuMap_ok
    (enough : (finalState (arm64MmuMap area vaddr vaddr size flags s)).exhausted = false) :
    ∃ s' mapped, arm64MmuMap area vaddr vaddr size flags s = .ok () s' ∧
      LevelSpec area flags (lastLevel - firstLevel) area.base vaddr size s mapped s' := by
  have inHand : ¬ RanOut (finalState (arm64MmuMap area vaddr vaddr size flags s)) := by
    rw [RanOut, enough]
    exact Bool.false_ne_true
  obtain ⟨_, s', done, mapped, spec⟩ := (arm64MmuMap_ensures owned onPage pages).elim inHand
  exact ⟨s', mapped, done, spec⟩

end

theorem Reachable.owned (reached : Reachable area s) :
    OwnedAt area s (lastLevel - firstLevel) area.base := by
  induction reached with
  | init mem => exact initTables_owned mem
  | @map s s' vaddr size flags _ onPage pages _ done enough ih =>
    obtain ⟨s'', mapped, done', spec⟩ := arm64MmuMap_ok ih onPage pages (by rw [done]; exact enough)
    rw [done] at done'
    cases done'
    exact spec.update.after

def MeetsBlock (area : TtArea) (s : TtState) (vaddr size va : Nat) : Prop :=
  Meets vaddr (vaddr + size) va (leafOf s va (lastLevel - firstLevel) area.base).1

theorem walk_of_spec {mapped va : Nat} (below : vaddr < 2 ^ vaSizeBits)
    (spec : LevelSpec area flags (lastLevel - firstLevel) area.base vaddr size s mapped s')
    (outside : ¬ (vaddr ≤ va ∧ va < vaddr + size)) :
    (MeetsBlock area s vaddr size va → walk area s' va = (walk area s va).map Translation.dropXn) ∧
      (¬ MeetsBlock area s vaddr size va → walk area s' va = walk area s va) := by
  by_cases inSpace : va < 2 ^ vaSizeBits
  · have whole : span (lastLevel - firstLevel + 1) = 2 ^ vaSizeBits := rfl
    have law := spec.law va (by
      rw [whole, Nat.div_eq_of_lt inSpace, Nat.div_eq_of_lt below])
    rw [walk, walk, if_pos inSpace, if_pos inSpace]
    exact ⟨law.cut outside, law.apart outside⟩
  · rw [walk, walk, if_neg inSpace, if_neg inSpace]
    exact ⟨fun _ => rfl, fun _ => rfl⟩

/-! ### The law -/

/-- **The frame law, with its condition.** For a call whose range starts in the address space, the
translations outside the range are unchanged exactly when no execute-never block is cut. -/
theorem map_frame_iff (reached : Reachable area s) (onPage : pageSize ∣ vaddr)
    (pages : pageSize ∣ size) (noWrap : vaddr + size ≤ 2 ^ 64) (below : vaddr < 2 ^ vaSizeBits)
    (enough : (finalState (arm64MmuMap area vaddr vaddr size flags s)).exhausted = false) :
    ∃ s', arm64MmuMap area vaddr vaddr size flags s = .ok () s' ∧ Reachable area s' ∧
      ((∀ va, ¬ (vaddr ≤ va ∧ va < vaddr + size) → walk area s' va = walk area s va) ↔
        ∀ va t, ¬ (vaddr ≤ va ∧ va < vaddr + size) → walk area s va = some t →
          MeetsBlock area s vaddr size va → t.executeNever = false) := by
  obtain ⟨s', mapped, done, spec⟩ := arm64MmuMap_ok reached.owned onPage pages enough
  have enough' : s'.exhausted = false := by
    rw [done] at enough
    exact enough
  refine ⟨s', done, reached.map vaddr size flags onPage pages noWrap done enough', ?_, ?_⟩
  · intro unchanged va t outside found met
    have dropped := (walk_of_spec below spec outside).1 met
    rw [unchanged va outside, found, Option.map_some, Option.some.injEq] at dropped
    exact congrArg Translation.executeNever dropped
  · intro notCut va outside
    by_cases met : MeetsBlock area s vaddr size va
    · rw [(walk_of_spec below spec outside).1 met]
      cases found : walk area s va with
      | none => rfl
      | some t =>
        have clear := notCut va t outside found met
        rw [Option.map_some, Option.some.injEq]
        exact Translation.ext rfl rfl rfl clear.symm rfl
    · exact (walk_of_spec below spec outside).2 met

end Facts

/-! ### A block that is cut -/

def sampleArea : TtArea where
  base := 0x80000000#64
  aligned := by decide
  bound := by decide
  notNull := by decide

def cachedFlags : BitVec 32 := mmuFlagCached ||| mmuFlagReadwrite

def blockState : TtState :=
  putPte (initTables sampleArea fun _ _ => 0#64) sampleArea.base 0
    (leafPte firstLevel 0#64 (cachedFlags ||| mmuFlagExecuteNot))

theorem blockState_reachable : Reachable sampleArea blockState :=
  (Reachable.init fun _ _ => 0#64).map 0 (2 ^ 30) (cachedFlags ||| mmuFlagExecuteNot) (by decide)
    (by decide) (by decide) rfl rfl

/-- Mapping the first page again leaves the second page executable. -/
theorem map_first_page_drops_xn :
    Reachable sampleArea blockState ∧
      (walk sampleArea blockState 0x1000).map Translation.executeNever = some true ∧
      ∃ s', arm64MmuMap sampleArea 0 0 0x1000 cachedFlags blockState = .ok () s' ∧
        s'.exhausted = false ∧
        (walk sampleArea s' 0x1000).map Translation.executeNever = some false := by
  have returned : (finalState (arm64MmuMap sampleArea 0 0 0x1000 cachedFlags
      blockState)).exhausted = false := by decide +kernel
  have found : (walk sampleArea (finalState (arm64MmuMap sampleArea 0 0 0x1000 cachedFlags
      blockState)) 0x1000).map Translation.executeNever = some false := by decide +kernel
  obtain ⟨s', mapped, done, -⟩ :=
    arm64MmuMap_ok blockState_reachable.owned (by decide) (by decide) returned
  rw [done] at returned found
  exact ⟨blockState_reachable, by decide +kernel, s', done, returned, found⟩

/-- The law at a call that cuts no block. -/
theorem map_frame_iff_next_gigabyte :
    ∃ s', arm64MmuMap sampleArea (2 ^ 30) (2 ^ 30) 0x1000 cachedFlags blockState = .ok () s' ∧
      Reachable sampleArea s' ∧
      ((∀ va, ¬ (2 ^ 30 ≤ va ∧ va < 2 ^ 30 + 0x1000) →
          walk sampleArea s' va = walk sampleArea blockState va) ↔
        ∀ va t, ¬ (2 ^ 30 ≤ va ∧ va < 2 ^ 30 + 0x1000) → walk sampleArea blockState va = some t →
          MeetsBlock sampleArea blockState (2 ^ 30) 0x1000 va → t.executeNever = false) :=
  map_frame_iff blockState_reachable (by decide) (by decide) (by decide) (by decide)
    (by decide +kernel)

end Cboot.Mmu
