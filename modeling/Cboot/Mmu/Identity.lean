/-
**The effect law of the memory map.**

From the tables that `arm64_mmu_init` sets up, identity mappings of any address and any size may be
made, of whole pages or not. A further mapping of whole pages below 512 GB translates each address
of its range to itself, with the attributes that its flags select, and the recursion returns the
size of the range.
-/

import Cboot.Mmu.Frame

namespace Cboot.Mmu

open Resource TableTree

/-! ### Mappings of any range -/

section Ranges

variable {area : TtArea} {s : TtState} {height : Nat} {tt : BitVec 64} {index : Fin 512}
  {flags : BitVec 32} {descend : BitVec 64 → Nat → Nat → Nat → TtM Nat} {vaddr size : Nat}

def Updates (area : TtArea) (height : Nat) (tt : BitVec 64) (x : TtM Nat) (s : TtState) : Prop :=
  Ensures RanOut x s fun _ s' => UpdatedAt area s s' height tt

theorem leafOk_page (paddr : Nat) (flags : BitVec 32) :
    LeafOk 0 (leafPte (lastLevel - 0) (BitVec.ofNat 64 paddr) flags) := by
  refine leafOk_of_typed (leafPte_table _ _ flags) ?_
  rw [leafPte_outputAddr]
  exact pageSize_dvd_outputAddr _

theorem writeLeaf_updates {paddr : Nat} (inRange : height ≤ 2) (owned : OwnedAt area s height tt)
    (allowed : LeafOk height (leafPte (lastLevel - height) (BitVec.ofNat 64 paddr) flags)) :
    Updates area height tt (writeLeaf area (lastLevel - height) flags tt index paddr) s := by
  obtain ⟨s', done, update, -, -⟩ := writeLeaf_ok inRange owned allowed
  exact Ensures.of_ok done update

theorem mapIndex_updates (inRange : height + 1 ≤ 2)
    (sticky : ∀ tt vaddr paddr size, Sticky RanOut (descend tt vaddr paddr size))
    (below : ∀ {tt s vaddr size}, OwnedAt area s height tt →
      Updates area height tt (descend tt vaddr vaddr size) s)
    (owned : OwnedAt area s (height + 1) tt) :
    Updates area (height + 1) tt (mapIndex area descend (lastLevel - (height + 1)) flags tt index
      vaddr vaddr size) s := by
  rw [Updates, mapIndex_above_eq area inRange]
  by_cases covered : span (height + 1) ∣ vaddr ∧ span (height + 1) ≤ size
  · rw [if_pos covered]
    exact writeLeaf_updates inRange owned (leafOk_leafPte flags (by omega) covered.1)
  · rw [if_neg covered]
    refine Ensures.bind (fun nextTt => sticky nextTt _ _ _) ((nextTtOf_ensures inRange owned).mono ?_)
    rintro nextTt s₁ ⟨changed, points, -⟩
    have update₁ := changed.update owned
    refine (below (update₁.after.child points)).mono fun mapped s₂ update₂ => ?_
    exact update₁.trans ((update₂.entryChange update₁.after points).update update₁.after)

theorem mapIndex_updates_last (owned : OwnedAt area s 0 tt) :
    Updates area 0 tt (mapIndex area descend (lastLevel - 0) flags tt index vaddr vaddr size) s := by
  unfold mapIndex
  rw [if_neg fun both => absurd both.2 (by decide)]
  exact writeLeaf_updates (Nat.zero_le 2) owned (leafOk_page vaddr flags)

theorem mapFrom_updates {level : Nat}
    (sticky : ∀ tt vaddr paddr size, Sticky RanOut (descend tt vaddr paddr size))
    (round : ∀ {s index vaddr size}, OwnedAt area s height tt → Updates area height tt
      (mapIndex area descend level flags tt index vaddr vaddr size) s)
    {left first total : Nat} (owned : OwnedAt area s height tt) :
    Updates area height tt
      (mapFrom area descend level flags tt left first vaddr vaddr size total) s := by
  induction left generalizing first vaddr size total s with
  | zero => exact Ensures.of_ok rfl (Update.refl owned)
  | succ left ih =>
    unfold Updates mapFrom
    by_cases more : first < ptesPerPage ∧ 0 < size
    · rw [if_pos more]
      refine Ensures.bind (fun _ => (sticky_closed area).mapFrom sticky level flags tt _ _ _ _ _ _)
        ((round owned).mono fun mapped s₁ update => ?_)
      exact (ih update.after).mono fun _ s' rest => update.trans rest
    · rw [if_neg more]
      exact Ensures.of_ok rfl (Update.refl owned)

theorem arm64MmuMapLevel_updates (inRange : height ≤ 2) (owned : OwnedAt area s height tt) :
    Updates area height tt (arm64MmuMapLevel area flags height tt vaddr vaddr size) s := by
  induction height generalizing tt s vaddr size with
  | zero =>
    unfold arm64MmuMapLevel
    exact mapFrom_updates (fun _ _ _ _ => Sticky.pure _) mapIndex_updates_last owned
  | succ height ih =>
    have sticky := (sticky_closed area).mapLevel flags height
    have below : ∀ {tt s vaddr size}, OwnedAt area s height tt → Updates area height tt
        (arm64MmuMapLevel area flags height tt vaddr vaddr size) s :=
      fun owned => ih (by omega) owned
    unfold arm64MmuMapLevel
    exact mapFrom_updates sticky (mapIndex_updates inRange sticky below) owned

end Ranges

/-! ### The states that identity mappings reach -/

inductive IdentityMapped (area : TtArea) : TtState → Prop
  | init (mem : BitVec 64 → Fin 512 → Pte) : IdentityMapped area (initTables area mem)
  | map {s s' : TtState} (vaddr size : BitVec 64) (flags : BitVec 32)
      (reached : IdentityMapped area s)
      (done : arm64MmuMap area vaddr.toNat vaddr.toNat size.toNat flags s = .ok () s')
      (enough : s'.exhausted = false) : IdentityMapped area s'

variable {area : TtArea} {s : TtState} {vaddr size : Nat} {flags : BitVec 32}

theorem IdentityMapped.owned (reached : IdentityMapped area s) :
    OwnedAt area s (lastLevel - firstLevel) area.base := by
  induction reached with
  | init mem => exact initTables_owned mem
  | @map s s' vaddr size flags _ done enough ih =>
    have updated : Ensures RanOut (arm64MmuMap area vaddr.toNat vaddr.toNat size.toNat flags) s
        fun _ s' => UpdatedAt area s s' (lastLevel - firstLevel) area.base := by
      refine Ensures.bind (fun _ => Sticky.pure _) ?_
      exact (arm64MmuMapLevel_updates (Nat.le_refl 2) ih).mono fun _ s' update =>
        Ensures.of_ok rfl update
    have inHand : ¬ RanOut (finalState
        (arm64MmuMap area vaddr.toNat vaddr.toNat size.toNat flags s)) := by
      rw [done]
      exact ne_true_of_eq_false enough
    obtain ⟨_, s'', done', update⟩ := updated.elim inHand
    rw [done] at done'
    cases done'
    exact update.after

/-! ### The law -/

theorem finalState_arm64MmuMap (paddr : Nat) :
    finalState (arm64MmuMap area paddr vaddr size flags s) = finalState
      (arm64MmuMapLevel area flags (lastLevel - firstLevel) area.base vaddr paddr size s) := by
  unfold arm64MmuMap
  cases result : arm64MmuMapLevel area flags (lastLevel - firstLevel) area.base vaddr paddr size s with
  | ok mapped s' =>
    rw [bind_of_ok result]
    rfl
  | error e s' =>
    rw [bind_of_error result]
    rfl

theorem min_size_blockEnd (below : vaddr + size ≤ 2 ^ vaSizeBits) :
    min size (blockEnd vaddr (lastLevel - firstLevel + 1) - vaddr) = size := by
  have whole : span (lastLevel - firstLevel + 1) = 2 ^ vaSizeBits := rfl
  rcases Nat.eq_zero_or_pos size with rfl | positive
  · exact Nat.zero_min _
  · have inSpace : vaddr < 2 ^ vaSizeBits := by omega
    have last : blockEnd vaddr (lastLevel - firstLevel + 1) = 2 ^ vaSizeBits := by
      rw [blockEnd, whole, Nat.div_eq_of_lt inSpace, Nat.zero_add, Nat.one_mul]
    rw [last]
    exact Nat.min_eq_left (Nat.le_sub_of_add_le' below)

/-- **The effect law.** After a mapping of whole pages below 512 GB that does not run out of table
pages, the walk of each address of the range yields the address itself with the memory type, the
access permission and the execute-never bits of the flags; the recursion returns the size. -/
theorem map_effect (reached : IdentityMapped area s) (onPage : pageSize ∣ vaddr)
    (pages : pageSize ∣ size) (below : vaddr + size ≤ 2 ^ vaSizeBits)
    (enough : (finalState (arm64MmuMap area vaddr vaddr size flags s)).exhausted = false) :
    ∃ s', arm64MmuMap area vaddr vaddr size flags s = .ok () s' ∧
      arm64MmuMapLevel area flags (lastLevel - firstLevel) area.base vaddr vaddr size s =
        .ok size s' ∧
      ∀ va, vaddr ≤ va → va < vaddr + size → walk area s' va = some {
        outputAddr := va
        memType := newMemAttrib flags
        accessPerm := permAttrib flags
        executeNever := decide (flags &&& mmuFlagExecuteNot ≠ 0#32)
        privExecuteNever := decide (flags &&& mmuFlagExecuteNot ≠ 0#32) } := by
  have whole : span (lastLevel - firstLevel + 1) = 2 ^ vaSizeBits := rfl
  have inHand : ¬ RanOut (finalState
      (arm64MmuMapLevel area flags (lastLevel - firstLevel) area.base vaddr vaddr size s)) := by
    rw [← finalState_arm64MmuMap]
    exact ne_true_of_eq_false enough
  have topLevel : lastLevel - firstLevel ≤ 2 := Nat.le_refl 2
  obtain ⟨mapped, s', done, spec⟩ :=
    (arm64MmuMapLevel_ensures topLevel reached.owned onPage pages).elim inHand
  have total : mapped = size := spec.amount.trans (min_size_blockEnd below)
  refine ⟨s', ?_, total ▸ done, fun va start stop => ?_⟩
  · unfold arm64MmuMap
    rw [bind_of_ok done]
    rfl
  · have inSpace : va < 2 ^ vaSizeBits := Nat.lt_of_lt_of_le stop below
    have law := spec.law va (by
      rw [whole, Nat.div_eq_of_lt inSpace,
        Nat.div_eq_of_lt (Nat.lt_of_le_of_lt start inSpace)])
    have itself : va % 2 ^ paSizeBits = va := Nat.mod_eq_of_lt (Nat.lt_trans inSpace (by decide))
    rw [walk, if_pos inSpace, law.inside ⟨start, stop⟩, identity, itself]

/-- The law at two pages inside a block, which is split for them. -/
theorem map_effect_in_block :
    ∃ s', arm64MmuMap sampleArea 0x1000 0x1000 0x2000 cachedFlags blockState = .ok () s' ∧
      arm64MmuMapLevel sampleArea cachedFlags (lastLevel - firstLevel) sampleArea.base 0x1000 0x1000
        0x2000 blockState = .ok 0x2000 s' ∧
      ∀ va, 0x1000 ≤ va → va < 0x1000 + 0x2000 → walk sampleArea s' va = some {
        outputAddr := va
        memType := newMemAttrib cachedFlags
        accessPerm := permAttrib cachedFlags
        executeNever := decide (cachedFlags &&& mmuFlagExecuteNot ≠ 0#32)
        privExecuteNever := decide (cachedFlags &&& mmuFlagExecuteNot ≠ 0#32) } :=
  map_effect ((IdentityMapped.init fun _ _ => 0#64).map 0 (2 ^ 30)
      (cachedFlags ||| mmuFlagExecuteNot) rfl rfl)
    (by decide) (by decide) (by decide) (by decide +kernel)

end Cboot.Mmu
