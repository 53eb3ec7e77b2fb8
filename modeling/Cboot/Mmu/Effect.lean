/-
**What one mapping call does to the table walk.**

`Law` relates the leaf that the walk of an address found before a call with the one it finds after
it: an address in the mapped range is translated to itself with the attributes of the call; another
address keeps its translation, but loses its execute-never bit when its block was cut by the range.
-/

import Cboot.Mmu.MapLevel

namespace Cboot.Mmu

open BitField Resource TableTree

/-! ### Blocks and ranges -/

def vaIndex (va height : Nat) : Fin 512 := Fin.ofNat 512 (va / span height)

def blockEnd (va height : Nat) : Nat := (va / span height + 1) * span height

def Meets (lo hi va height : Nat) : Prop :=
  ∃ x, lo ≤ x ∧ x < hi ∧ x / span height = va / span height

theorem lt_blockEnd (va height : Nat) : va < blockEnd va height := by
  rw [blockEnd, Nat.add_one_mul]
  exact Nat.lt_div_mul_add (span_pos height)

theorem blockEnd_le (va height : Nat) : blockEnd va height ≤ va + span height := by
  rw [blockEnd, Nat.add_one_mul]
  exact Nat.add_le_add_right (Nat.div_mul_le_self va _) _

theorem blockEnd_congr {va vaddr height : Nat} (same : va / span height = vaddr / span height) :
    blockEnd va height = blockEnd vaddr height := by
  rw [blockEnd, blockEnd, same]

theorem span_dvd_blockEnd {low height : Nat} (va : Nat) (le : low ≤ height) :
    span low ∣ blockEnd va height :=
  (span_dvd_span le).trans (Nat.dvd_mul_left _ _)

theorem div_lt_of_boundary {x edge va size : Nat} (positive : 0 < size) (boundary : size ∣ edge)
    (below : x < edge) (above : edge ≤ va) : x / size < va / size := by
  obtain ⟨count, rfl⟩ := boundary
  calc x / size < count := Nat.div_lt_of_lt_mul below
    _ = size * count / size := (Nat.mul_div_cancel_left count positive).symm
    _ ≤ va / size := Nat.div_le_div_right above

/-! ### The law -/

structure Law (flags : BitVec 32) (lo hi va : Nat) (before after : Nat × Pte) : Prop where
  inside : lo ≤ va ∧ va < hi → translate va after = some (identity flags va)
  cut : ¬ (lo ≤ va ∧ va < hi) → Meets lo hi va before.1 →
    translate va after = (translate va before).map Translation.dropXn
  apart : ¬ (lo ≤ va ∧ va < hi) → ¬ Meets lo hi va before.1 →
    translate va after = translate va before

section Laws

variable {flags : BitVec 32} {lo hi lo' hi' va : Nat} {before middle after : Nat × Pte}

theorem Law.empty (same : after = before) : Law flags lo lo va before after := by
  refine ⟨fun inside => ?_, fun _ meets => ?_, fun _ _ => by rw [same]⟩
  · omega
  · obtain ⟨x, above, below, -⟩ := meets
    omega

theorem Law.ofRange (law : Law flags lo' hi' va before after)
    (part : ∀ x, lo' ≤ x ∧ x < hi' → lo ≤ x ∧ x < hi)
    (rest : ∀ x, lo ≤ x ∧ x < hi → ¬ (lo' ≤ x ∧ x < hi') →
      x / span before.1 ≠ va / span before.1) : Law flags lo hi va before after := by
  have meets : Meets lo hi va before.1 ↔ Meets lo' hi' va before.1 := by
    constructor
    · rintro ⟨x, above, below, block⟩
      by_contra none
      refine rest x ⟨above, below⟩ (fun inPart => ?_) block
      exact none ⟨x, inPart.1, inPart.2, block⟩
    · rintro ⟨x, above, below, block⟩
      exact ⟨x, (part x ⟨above, below⟩).1, (part x ⟨above, below⟩).2, block⟩
  refine ⟨fun inside => law.inside ?_, fun outside met => ?_, fun outside notMet => ?_⟩
  · by_contra notInPart
    exact rest va inside notInPart rfl
  · exact law.cut (fun inPart => outside (part va inPart)) (meets.mp met)
  · exact law.apart (fun inPart => outside (part va inPart)) fun met => notMet (meets.mpr met)

theorem map_dropXn_idem (t : Option Translation) :
    (t.map Translation.dropXn).map Translation.dropXn = t.map Translation.dropXn := by
  cases t with
  | none | some t => rfl

theorem Law.ofSplit (law : Law flags lo hi va middle after)
    (split : translate va middle = (translate va before).map Translation.dropXn)
    (met : Meets lo hi va before.1) : Law flags lo hi va before after := by
  refine ⟨law.inside, fun outside _ => ?_, fun _ notMet => absurd met notMet⟩
  by_cases met' : Meets lo hi va middle.1
  · rw [law.cut outside met', split, map_dropXn_idem]
  · rw [law.apart outside met', split]

end Laws

/-! ### Trees of translation tables -/

section Tables

variable (area : TtArea)

abbrev OwnedAt (s : TtState) (height : Nat) (tt : BitVec 64) : Prop :=
  Owned nextTable LeafOk s.mem (allocated area s) height tt

abbrev UpdatedAt (s s' : TtState) (height : Nat) (tt : BitVec 64) : Prop :=
  Update nextTable LeafOk s.mem (allocated area s) s'.mem (allocated area s') height tt

abbrev ChangedAt (s s' : TtState) (height : Nat) (tt : BitVec 64) (index : Fin 512) : Prop :=
  EntryChange nextTable LeafOk s.mem (allocated area s) s'.mem (allocated area s') height tt index

def leafOf (s : TtState) (va height : Nat) (tt : BitVec 64) : Nat × Pte :=
  leaf nextTable s.mem (vaIndex va) height tt

variable {area} {s s' : TtState} {height : Nat} {tt : BitVec 64} {index : Fin 512}

theorem mem_putPte (s : TtState) (pte : Pte) : (putPte s tt index pte).mem =
    Function.update s.mem tt (Function.update (s.mem tt) index pte) := rfl

theorem putPte_self (s : TtState) (pte : Pte) : (putPte s tt index pte).mem tt index = pte := by
  rw [mem_putPte, Function.update_self, Function.update_self]

theorem putPte_of_index (s : TtState) (pte : Pte) {j : Fin 512} (different : j ≠ index) :
    (putPte s tt index pte).mem tt j = s.mem tt j := by
  rw [mem_putPte, Function.update_self, Function.update_of_ne different]

theorem putPte_of_table (s : TtState) (pte : Pte) {p : BitVec 64} (different : p ≠ tt) :
    (putPte s tt index pte).mem p = s.mem p := by
  rw [mem_putPte, Function.update_of_ne different]

theorem allocated_putPte (s : TtState) (pte : Pte) :
    allocated area (putPte s tt index pte) = allocated area s := rfl

variable {page : BitVec 64}

theorem newTable_change {leafOk : Nat → Pte → Prop} {entries : Fin 512 → Pte}
    {s₁ : TtState} (owned : Owned nextTable leafOk s.mem (allocated area s) (height + 1) tt)
    (unused : page ∉ allocated area s)
    (kept : page &&& pteOutputAddrMask = page)
    (marked : allocated area s₁ = insert page (allocated area s))
    (filled : s₁.mem = Function.update s.mem page entries)
    (leaves : ∀ j, leafOk height (entries j)) (ends : 0 < height → ∀ j, nextTable (entries j) = none) :
    EntryChange nextTable leafOk s.mem (allocated area s) (putPte s₁ tt index (tablePte page)).mem
        (allocated area (putPte s₁ tt index (tablePte page))) height tt index ∧
      nextTable ((putPte s₁ tt index (tablePte page)).mem tt index) = some page ∧
      ∀ va, leafOf (putPte s₁ tt index (tablePte page)) va height page =
        (height, entries (vaIndex va height)) := by
  have inUse : tt ∈ allocated area s := owned.owned (self_mem_foot nextTable s.mem _ tt)
  have apart : page ≠ tt := fun same => unused (same ▸ inUse)
  have content : (putPte s₁ tt index (tablePte page)).mem page = entries := by
    rw [putPte_of_table _ _ apart, filled, Function.update_self]
  have points : nextTable ((putPte s₁ tt index (tablePte page)).mem tt index) = some page := by
    rw [putPte_self]
    exact nextTable_tablePte page kept
  have ends' : 0 < height →
      ∀ j, nextTable ((putPte s₁ tt index (tablePte page)).mem page j) = none := by
    rw [content]
    exact ends
  refine ⟨?_, points, fun va => ?_⟩
  · rw [allocated_putPte, marked]
    refine EntryChange.newTable owned unused points (fun j => ?_) ends' (fun j different => ?_)
      (fun p notTable notPage => ?_)
    · rw [content]
      exact leaves j
    · rw [putPte_of_index _ _ different, filled, Function.update_of_ne apart.symm]
    · rw [putPte_of_table _ _ notTable, filled, Function.update_of_ne notPage]
  · rw [leafOf, leaf_of_leaves _ ends', content]

def Descended (s s' : TtState) (height : Nat) (tt nextTt : BitVec 64) (va : Nat) : Prop :=
  leafOf s' va height nextTt = leafOf s va (height + 1) tt ∨
    (leafOf s va (height + 1) tt).1 = height + 1 ∧
      translate va (leafOf s' va height nextTt) =
        (translate va (leafOf s va (height + 1) tt)).map Translation.dropXn

theorem assertNotNull_ok (notNull : page ≠ 0#64) (s : TtState) :
    assertNotNull page s = .ok () s := if_pos notNull

theorem descended_of_leaf {va : Nat} (isLeaf : nextTable (s.mem tt index) = none)
    (through : vaIndex va (height + 1) = index)
    (derived : translate va (leafOf s' va height page) =
      (translate va (height + 1, s.mem tt index)).map Translation.dropXn) :
    Descended s s' height tt page va := by
  have found : leafOf s va (height + 1) tt = (height + 1, s.mem tt index) := by
    rw [← through] at isLeaf ⊢
    exact leaf_of_leaf isLeaf
  right
  rw [found]
  exact ⟨rfl, derived⟩

def NewEntries (height : Nat) (pte : Pte) (entries : Fin 512 → Pte) : Prop :=
  (pte &&& pteValid = 0#64 ∧ entries = fun _ => 0#64) ∨
    (pte &&& pteValid ≠ 0#64 ∧ entries = fun j => fillPte (lastLevel - height)
      ((pte &&& pteOutputAddrMask) + BitVec.ofNat 64 (j.val * span height)) pte)

theorem NewEntries.ends {pte : Pte} {entries : Fin 512 → Pte} (new : NewEntries height pte entries)
    (above : 0 < height) (j : Fin 512) : nextTable (entries j) = none := by
  obtain ⟨height, rfl⟩ := Nat.exists_eq_succ_of_ne_zero (Nat.ne_of_gt above)
  rcases new with ⟨-, rfl⟩ | ⟨-, rfl⟩
  · exact nextTable_zero
  · exact nextTable_fillPte height _ _

theorem nextTtOf_rule {post : BitVec 64 → TtState → Prop} (inRange : height + 1 ≤ 2)
    (inUse : tt ∈ allocated area s)
    (there : ∀ nextTt, nextTable (s.mem tt index) = some nextTt → post nextTt s)
    (made : ∀ {page s₁ entries}, nextTable (s.mem tt index) = none → page ∉ allocated area s →
      page &&& pteOutputAddrMask = page → allocated area s₁ = insert page (allocated area s) →
      s₁.mem = Function.update s.mem page entries → NewEntries height (s.mem tt index) entries →
      post page (putPte s₁ tt index (tablePte page))) :
    Ensures RanOut (nextTtOf area (lastLevel - (height + 1)) tt index) s post := by
  refine Ensures.step (rfl : readPte tt index s = .ok _ s) ?_
  by_cases valid : s.mem tt index &&& pteValid ≠ 0#64
  · rw [if_pos valid]
    by_cases table : s.mem tt index &&& pteTable ≠ 0#64
    · rw [if_pos table]
      exact Ensures.of_ok rfl (there _ (if_pos ⟨valid, table⟩))
    · rw [if_neg table]
      refine Ensures.bind (splitInto_sticky _ tt index) ((allocateTtPage_ensures s).mono ?_)
      rintro page s₁ ⟨unused, marked, cleared, notNull, kept⟩
      have apart : tt ≠ page := fun same => unused (same ▸ inUse)
      have entry : s₁.mem tt index = s.mem tt index := by rw [cleared, Function.update_of_ne apart]
      have level : lastLevel - (height + 1) + 1 = lastLevel - height := by
        rw [lastLevel]
        omega
      refine Ensures.step (assertNotNull_ok notNull s₁) ?_
      refine Ensures.step (rfl : readPte tt index s₁ = .ok _ s₁) ?_
      rw [entry, level]
      obtain ⟨s₂, done, inUse₂, filled⟩ := fillTt_ok area page (lastLevel - height)
        (s.mem tt index) s₁
      rw [ttLevelSize_eq (by omega), cleared, Function.update_idem] at filled
      refine Ensures.step done (Ensures.step rfl (Ensures.of_ok rfl ?_))
      exact made (if_neg fun both => table both.2) unused kept (inUse₂.trans marked) filled
        (.inr ⟨valid, rfl⟩)
  · rw [if_neg valid]
    refine Ensures.bind (pointTo_sticky tt index) ((allocateTtPage_ensures s).mono ?_)
    rintro page s₁ ⟨unused, marked, cleared, notNull, kept⟩
    refine Ensures.step (assertNotNull_ok notNull s₁) (Ensures.step rfl (Ensures.of_ok rfl ?_))
    exact made (if_neg fun both => valid both.1) unused kept marked cleared
      (.inl ⟨not_ne_iff.mp valid, rfl⟩)

theorem nextTtOf_ensures (inRange : height + 1 ≤ 2) (owned : OwnedAt area s (height + 1) tt) :
    Ensures RanOut (nextTtOf area (lastLevel - (height + 1)) tt index) s fun nextTt s' =>
      ChangedAt area s s' height tt index ∧ nextTable (s'.mem tt index) = some nextTt ∧
        ∀ va, vaIndex va (height + 1) = index → Descended s s' height tt nextTt va := by
  refine nextTtOf_rule inRange (owned.owned (self_mem_foot nextTable s.mem _ tt)) ?_ ?_
  · refine fun nextTt points => ⟨(Update.refl (owned.child points)).entryChange owned points, points,
      ?_⟩
    rintro va rfl
    exact .inl (leaf_of_next points).symm
  · intro page s₁ entries isLeaf unused kept marked filled new
    have leaves : ∀ j, LeafOk height (entries j) := by
      intro j
      rcases new with ⟨-, rfl⟩ | ⟨valid, rfl⟩
      · exact leafOk_zero height
      · exact leafOk_fillPte (by omega) (owned.tree.2.1 index isLeaf valid).2 j.isLt
    obtain ⟨changed, points, below⟩ := newTable_change owned unused kept marked filled leaves new.ends
    refine ⟨changed, points, fun va through => descended_of_leaf isLeaf through ?_⟩
    refine (congrArg (translate va) (below va)).trans ?_
    rcases new with ⟨invalid, rfl⟩ | ⟨valid, rfl⟩
    · have fault : translate va (height + 1, s.mem tt index) = none := if_pos invalid
      rw [fault]
      exact translate_zero va height
    · exact translate_fillPte (by omega) valid (owned.tree.2.1 index isLeaf valid).2

/-! ### Writing a leaf -/

theorem freeSubTable_last (s : TtState) :
    freeSubTable area (lastLevel - 0) tt index s = .ok () s := by
  have none : ¬ (s.mem tt index &&& pteValid ≠ 0#64 ∧ lastLevel - 0 < lastLevel ∧
      s.mem tt index &&& pteTable ≠ 0#64) := fun both => Nat.lt_irrefl _ both.2.1
  unfold freeSubTable
  rw [bind_of_ok (rfl : readPte tt index s = .ok _ s), if_neg none]
  rfl

theorem freeSubTable_ok {leafOk : Nat → Pte → Prop}
    (owned : Owned nextTable leafOk s.mem (allocated area s) (height + 1) tt) (index : Fin 512) :
    ∃ s', freeSubTable area (lastLevel - (height + 1)) tt index s = .ok () s' ∧ s'.mem = s.mem ∧
      allocated area s' = allocated area s \ {p | nextTable (s.mem tt index) = some p} := by
  unfold freeSubTable
  rw [bind_of_ok (rfl : readPte tt index s = .ok _ s)]
  by_cases table : s.mem tt index &&& pteValid ≠ 0#64 ∧ s.mem tt index &&& pteTable ≠ 0#64
  · have above : lastLevel - (height + 1) < lastLevel := by
      rw [lastLevel]
      omega
    have points : nextTable (s.mem tt index) =
        some (s.mem tt index &&& pteNextLevelTableAddrMask) := if_pos table
    have inUse := owned.entryFoot_subset index ⟨_, points, self_mem_foot nextTable s.mem height _⟩
    obtain ⟨s', done, same, freed⟩ := freeTtPage_ok inUse
    refine ⟨s', by rw [if_pos ⟨table.1, above, table.2⟩]; exact done, same, ?_⟩
    rw [freed, points]
    congr 1
    ext p
    exact ⟨fun isPage => congrArg some isPage.symm, fun isPage => (Option.some.inj isPage).symm⟩
  · refine ⟨s, ?_, rfl, ?_⟩
    · rw [if_neg fun both => table ⟨both.1, both.2.2⟩]
      rfl
    · have isLeaf : nextTable (s.mem tt index) = none := if_neg table
      ext p
      simp [isLeaf]

section Leaf

variable {leafOk : Nat → Pte → Prop} {flags : BitVec 32} {paddr : Nat}

theorem writeLeaf_last (owned : Owned nextTable leafOk s.mem (allocated area s) 0 tt)
    (allowed : leafOk 0 (leafPte (lastLevel - 0) (BitVec.ofNat 64 paddr) flags)) :
    ∃ s', writeLeaf area (lastLevel - 0) flags tt index paddr s = .ok (span 0) s' ∧
      s' = putPte s tt index (leafPte (lastLevel - 0) (BitVec.ofNat 64 paddr) flags) ∧
      Update nextTable leafOk s.mem (allocated area s) s'.mem (allocated area s') 0 tt := by
  refine ⟨_, ?_, rfl, ?_⟩
  · unfold writeLeaf
    rw [bind_of_ok (freeSubTable_last s), ttLevelSize_eq (Nat.zero_le 3)]
    rfl
  · refine Update.writeLast owned (fun i => ?_) fun p different => putPte_of_table _ _ different
    by_cases here : i = index
    · rw [here, putPte_self]
      exact allowed
    · rw [putPte_of_index _ _ here]
      exact owned.tree i

theorem writeLeaf_above (inRange : height + 1 ≤ 2)
    (owned : Owned nextTable leafOk s.mem (allocated area s) (height + 1) tt)
    (allowed : leafOk (height + 1)
      (leafPte (lastLevel - (height + 1)) (BitVec.ofNat 64 paddr) flags)) :
    ∃ s', writeLeaf area (lastLevel - (height + 1)) flags tt index paddr s =
        .ok (span (height + 1)) s' ∧
      s'.mem tt index = leafPte (lastLevel - (height + 1)) (BitVec.ofNat 64 paddr) flags ∧
      nextTable (s'.mem tt index) = none ∧
      allocated area s' = allocated area s \ {p | nextTable (s.mem tt index) = some p} ∧
      EntryChange nextTable leafOk s.mem (allocated area s) s'.mem (allocated area s') height tt
        index := by
  obtain ⟨s₁, freed, same, inUse⟩ := freeSubTable_ok owned index
  refine ⟨putPte s₁ tt index (leafPte (lastLevel - (height + 1)) (BitVec.ofNat 64 paddr) flags),
    ?_, putPte_self _ _, ?_, inUse, ?_⟩
  · unfold writeLeaf
    rw [bind_of_ok freed, ttLevelSize_eq (by omega)]
    rfl
  · rw [putPte_self]
    exact nextTable_leafPte height _ _
  · refine EntryChange.newLeaf owned ?_ ?_ (fun j different => ?_) (fun p different => ?_)
      fun p used outside => ?_
    · rw [putPte_self]
      exact nextTable_leafPte height _ _
    · rw [putPte_self]
      exact allowed
    · rw [putPte_of_index _ _ different, same]
    · rw [putPte_of_table _ _ different, same]
    · rw [allocated_putPte, inUse]
      exact ⟨used, fun isChild => outside ⟨p, isChild, self_mem_foot nextTable s.mem height p⟩⟩

theorem writeLeaf_ok (inRange : height ≤ 2) (owned : OwnedAt area s height tt)
    (allowed : LeafOk height (leafPte (lastLevel - height) (BitVec.ofNat 64 paddr) flags)) :
    ∃ s', writeLeaf area (lastLevel - height) flags tt index paddr s = .ok (span height) s' ∧
      UpdatedAt area s s' height tt ∧
      (∀ va, vaIndex va height ≠ index → leafOf s' va height tt = leafOf s va height tt) ∧
      ∀ va, vaIndex va height = index → leafOf s' va height tt =
        (height, leafPte (lastLevel - height) (BitVec.ofNat 64 paddr) flags) := by
  cases height with
  | zero =>
    obtain ⟨s', done, rfl, update⟩ := writeLeaf_last owned allowed
    refine ⟨_, done, update, fun va different => ?_, fun va here => ?_⟩
    · rw [leafOf, leafOf, leaf, leaf, putPte_of_index _ _ different]
    · rw [leafOf, leaf, here, putPte_self]
  | succ height =>
    obtain ⟨s', done, written, isLeaf, -, change⟩ := writeLeaf_above inRange owned allowed
    refine ⟨s', done, change.update owned, fun va different => change.leaf_of_ne owned different,
      fun va here => ?_⟩
    rw [leafOf, leaf_of_leaf (by rw [here]; exact isLeaf), here, written]

end Leaf

/-! ### One round of the loop -/

section Rounds

variable {flags : BitVec 32} {descend : BitVec 64 → Nat → Nat → Nat → TtM Nat} {vaddr size : Nat}

structure LevelSpec (area : TtArea) (flags : BitVec 32) (height : Nat) (tt : BitVec 64)
    (vaddr size : Nat) (s : TtState) (mapped : Nat) (s' : TtState) : Prop where
  update : UpdatedAt area s s' height tt
  law : ∀ va, va / span (height + 1) = vaddr / span (height + 1) →
    Law flags vaddr (vaddr + size) va (leafOf s va height tt) (leafOf s' va height tt)
  amount : mapped = min size (blockEnd vaddr (height + 1) - vaddr)

structure IndexSpec (area : TtArea) (flags : BitVec 32) (height : Nat) (tt : BitVec 64)
    (vaddr size : Nat) (s : TtState) (mapped : Nat) (s' : TtState) : Prop where
  update : UpdatedAt area s s' height tt
  others : ∀ va, vaIndex va height ≠ vaIndex vaddr height →
    leafOf s' va height tt = leafOf s va height tt
  law : ∀ va, va / span height = vaddr / span height →
    Law flags vaddr (vaddr + size) va (leafOf s va height tt) (leafOf s' va height tt)
  amount : mapped = min size (blockEnd vaddr height - vaddr)

theorem vaIndex_congr {va : Nat} (same : va / span height = vaddr / span height) :
    vaIndex va height = vaIndex vaddr height := by
  rw [vaIndex, vaIndex, same]

theorem writeLeaf_spec (inRange : height ≤ 2) (owned : OwnedAt area s height tt)
    (aligned : span height ∣ vaddr) (covered : span height ≤ size) :
    Ensures RanOut (writeLeaf area (lastLevel - height) flags tt (vaIndex vaddr height) vaddr) s
      (IndexSpec area flags height tt vaddr size s) := by
  obtain ⟨s', done, update, others, written⟩ :=
    writeLeaf_ok inRange owned (leafOk_leafPte flags (by omega) aligned)
  have last : blockEnd vaddr height = vaddr + span height := by
    rw [blockEnd, Nat.add_one_mul, Nat.div_mul_cancel aligned]
  refine Ensures.of_ok done ⟨update, others, fun va same => ?_, ?_⟩
  · have start : vaddr ≤ va := by
      rw [← Nat.div_mul_cancel aligned, ← same]
      exact Nat.div_mul_le_self va _
    have inBlock := lt_blockEnd va height
    rw [blockEnd_congr same, last] at inBlock
    have inside : vaddr ≤ va ∧ va < vaddr + size := ⟨start, by omega⟩
    refine ⟨fun _ => ?_, fun outside => absurd inside outside, fun outside => absurd inside outside⟩
    rw [written va (vaIndex_congr same)]
    exact translate_leafPte flags (by omega) aligned same.symm
  · rw [last, Nat.add_sub_cancel_left, Nat.min_eq_right covered]

theorem descend_spec {nextTt : BitVec 64} {s₁ s₂ : TtState} {mapped : Nat}
    (owned : OwnedAt area s (height + 1) tt) (positive : 0 < size)
    (changed : ChangedAt area s s₁ height tt (vaIndex vaddr (height + 1)))
    (points : nextTable (s₁.mem tt (vaIndex vaddr (height + 1))) = some nextTt)
    (descended : ∀ va, vaIndex va (height + 1) = vaIndex vaddr (height + 1) →
      Descended s s₁ height tt nextTt va)
    (below : LevelSpec area flags height nextTt vaddr (min size (span (height + 1))) s₁ mapped s₂) :
    IndexSpec area flags (height + 1) tt vaddr size s mapped s₂ := by
  have update₁ := changed.update owned
  have changed₂ := below.update.entryChange update₁.after points
  have kept := (below.update.parent_kept update₁.after points).1
  refine ⟨update₁.trans (changed₂.update update₁.after), fun va different => ?_, fun va same => ?_, ?_⟩
  · rw [leafOf, changed₂.leaf_of_ne update₁.after different, changed.leaf_of_ne owned different, leafOf]
  · have through := vaIndex_congr same
    have after : leafOf s₂ va (height + 1) tt = leafOf s₂ va height nextTt :=
      leaf_of_next (by rw [through, kept]; exact points)
    have low : (leafOf s₁ va height nextTt).1 ≤ height := leaf_height_le _
    have law : Law flags vaddr (vaddr + size) va (leafOf s₁ va height nextTt)
        (leafOf s₂ va height nextTt) := by
      refine (below.law va same).ofRange (fun x part => by omega) fun x inRange notPart => ?_
      have far := blockEnd_le vaddr (height + 1)
      have near := lt_blockEnd va (height + 1)
      rw [blockEnd_congr same] at near
      have edge : span (leafOf s₁ va height nextTt).1 ∣ blockEnd vaddr (height + 1) :=
        span_dvd_blockEnd vaddr (by omega)
      exact (div_lt_of_boundary (span_pos _) edge near (by omega)).ne'
    rw [after]
    rcases descended va through with equal | ⟨atTop, split⟩
    · exact equal ▸ law
    · refine law.ofSplit split ?_
      rw [atTop]
      exact ⟨vaddr, le_rfl, Nat.lt_add_of_pos_right positive, same.symm⟩
  · have far := blockEnd_le vaddr (height + 1)
    have amount := below.amount
    omega

theorem mapIndex_above (inRange : height + 1 ≤ 2)
    (sticky : ∀ tt vaddr paddr size, Sticky RanOut (descend tt vaddr paddr size))
    (below : ∀ {tt s vaddr size}, OwnedAt area s height tt → pageSize ∣ vaddr → pageSize ∣ size →
      Ensures RanOut (descend tt vaddr vaddr size) s (LevelSpec area flags height tt vaddr size s))
    (owned : OwnedAt area s (height + 1) tt) (onPage : pageSize ∣ vaddr) (pages : pageSize ∣ size)
    (positive : 0 < size) :
    Ensures RanOut (mapIndex area descend (lastLevel - (height + 1)) flags tt
        (vaIndex vaddr (height + 1)) vaddr vaddr size) s
      (IndexSpec area flags (height + 1) tt vaddr size s) := by
  rw [mapIndex_above_eq area inRange]
  by_cases covered : span (height + 1) ∣ vaddr ∧ span (height + 1) ≤ size
  · rw [if_pos covered]
    exact writeLeaf_spec inRange owned covered.1 covered.2
  · rw [if_neg covered]
    refine Ensures.bind (fun nextTt => sticky nextTt _ _ _) ((nextTtOf_ensures inRange owned).mono ?_)
    rintro nextTt s₁ ⟨changed, points, descended⟩
    have whole : pageSize ∣ min size (span (height + 1)) := by
      rcases Nat.le_total size (span (height + 1)) with short | long
      · rw [Nat.min_eq_left short]
        exact pages
      · rw [Nat.min_eq_right long]
        exact pageSize_dvd_span _
    have owned₁ := (changed.update owned).after.child points
    exact (below owned₁ onPage whole).mono fun mapped s₂ spec =>
      descend_spec owned positive changed points descended spec

theorem mapIndex_last (owned : OwnedAt area s 0 tt) (onPage : pageSize ∣ vaddr)
    (pages : pageSize ∣ size) (positive : 0 < size) :
    Ensures RanOut (mapIndex area descend (lastLevel - 0) flags tt (vaIndex vaddr 0) vaddr vaddr size) s
      (IndexSpec area flags 0 tt vaddr size s) := by
  unfold mapIndex
  rw [if_neg fun both => absurd both.2 (by decide)]
  exact writeLeaf_spec (Nat.zero_le 2) owned onPage (Nat.le_of_dvd positive pages)

/-! ### The loop -/

structure LoopSpec (area : TtArea) (flags : BitVec 32) (height : Nat) (tt : BitVec 64)
    (base index vaddr size total : Nat) (s : TtState) (total' : Nat) (s' : TtState) : Prop where
  update : UpdatedAt area s s' height tt
  passed : ∀ va, va / span (height + 1) = base → va / span height % 512 < index →
    leafOf s' va height tt = leafOf s va height tt
  law : ∀ va, va / span (height + 1) = base → index ≤ va / span height % 512 →
    Law flags vaddr (vaddr + size) va (leafOf s va height tt) (leafOf s' va height tt)
  amount : total' = total + min size ((base + 1) * span (height + 1) - vaddr)

theorem div_span_eq {va base : Nat} (covered : va / span (height + 1) = base) :
    va / span height = base * 512 + va / span height % 512 := by
  rw [← covered, span_succ, ← Nat.div_div_eq_div_mul]
  exact (Nat.div_add_mod' _ 512).symm

def Placed (height base index vaddr size : Nat) : Prop :=
  size = 0 ∨ vaddr / span height = base * 512 + index

theorem end_le_of_full {base : Nat} (block : vaddr / span height = base * 512 + 512) :
    (base + 1) * span (height + 1) ≤ vaddr := by
  rw [span_succ, Nat.mul_comm (span height), ← Nat.mul_assoc, Nat.add_one_mul, ← block]
  exact Nat.div_mul_le_self vaddr _

theorem LoopSpec.stop {base index total : Nat} (owned : OwnedAt area s height tt)
    (placed : Placed height base index vaddr size) (ended : index = 512 ∨ size = 0) :
    LoopSpec area flags height tt base index vaddr size total s total s := by
  have amount : min size ((base + 1) * span (height + 1) - vaddr) = 0 := by
    rcases placed with none | block
    · rw [none, Nat.zero_min]
    · rcases ended with rfl | none
      · rw [Nat.sub_eq_zero_of_le (end_le_of_full block), Nat.min_zero]
      · rw [none, Nat.zero_min]
  refine ⟨Update.refl owned, fun _ _ _ => rfl, fun va covered later => ?_, by rw [amount]; rfl⟩
  rcases ended with rfl | rfl
  · exact absurd (Nat.mod_lt (va / span height) (by decide : 0 < 512)) (Nat.not_lt.mpr later)
  · exact Law.empty rfl

theorem round_rest {base index mapped : Nat} (onPage : pageSize ∣ vaddr) (pages : pageSize ∣ size)
    (block : vaddr / span height = base * 512 + index)
    (amount : mapped = min size (blockEnd vaddr height - vaddr)) :
    pageSize ∣ vaddr + mapped ∧ pageSize ∣ size - mapped ∧
      Placed height base (index + 1) (vaddr + mapped) (size - mapped) := by
  have after := lt_blockEnd vaddr height
  have edge : pageSize ∣ blockEnd vaddr height := span_dvd_blockEnd vaddr (Nat.zero_le height)
  rcases Nat.le_total size (blockEnd vaddr height - vaddr) with short | long
  · rw [Nat.min_eq_left short] at amount
    refine ⟨?_, ?_, .inl ?_⟩
    · rw [amount]
      exact Nat.dvd_add onPage pages
    · rw [amount, Nat.sub_self]
      exact Nat.dvd_zero _
    · rw [amount, Nat.sub_self]
  · rw [Nat.min_eq_right long] at amount
    have reached : vaddr + mapped = blockEnd vaddr height := by omega
    refine ⟨?_, ?_, .inr ?_⟩
    · rw [reached]
      exact edge
    · rw [amount]
      exact Nat.dvd_sub pages (Nat.dvd_sub edge onPage)
    · rw [reached, blockEnd, Nat.mul_div_cancel _ (span_pos height), block, Nat.add_assoc]

theorem LoopSpec.step {base index total total' mapped : Nat} {s₁ : TtState}
    (block : vaddr / span height = base * 512 + index) (inTable : index < 512)
    (round : IndexSpec area flags height tt vaddr size s mapped s₁)
    (rest : LoopSpec area flags height tt base (index + 1) (vaddr + mapped) (size - mapped)
      (total + mapped) s₁ total' s') :
    LoopSpec area flags height tt base index vaddr size total s total' s' := by
  have after := lt_blockEnd vaddr height
  have amount := round.amount
  have apart : ∀ va, va / span height % 512 ≠ index → vaIndex va height ≠ vaIndex vaddr height := by
    intro va different same
    have values := congrArg Fin.val same
    simp only [vaIndex, Fin.val_ofNat, block] at values
    omega
  refine ⟨round.update.trans rest.update, fun va covered earlier => ?_, fun va covered later => ?_, ?_⟩
  · rw [rest.passed va covered (by omega), round.others va (apart va (by omega))]
  · have position := div_span_eq covered
    rcases Nat.eq_or_lt_of_le later with here | beyond
    · rw [rest.passed va covered (by omega)]
      exact round.law va (by rw [position, block, here])
    · have above : blockEnd vaddr height ≤ va := by
        refine Nat.le_trans (Nat.mul_le_mul_right _ ?_) (Nat.div_mul_le_self va (span height))
        omega
      have low : (leafOf s va height tt).1 ≤ height := leaf_height_le _
      have law := rest.law va covered beyond
      rw [round.others va (apart va (by omega))] at law
      refine law.ofRange (fun x part => by omega) fun x inRange notPart => ?_
      exact (div_lt_of_boundary (span_pos _) (span_dvd_blockEnd vaddr low) (by omega) above).ne
  · have last : blockEnd vaddr height ≤ (base + 1) * span (height + 1) := by
      rw [blockEnd, block, span_succ, Nat.mul_comm (span height), ← Nat.mul_assoc]
      exact Nat.mul_le_mul_right _ (by omega)
    have total := rest.amount
    omega

theorem mapFrom_ensures {level base : Nat}
    (sticky : ∀ tt vaddr paddr size, Sticky RanOut (descend tt vaddr paddr size))
    (round : ∀ {s vaddr size}, OwnedAt area s height tt → pageSize ∣ vaddr → pageSize ∣ size →
      0 < size → Ensures RanOut
        (mapIndex area descend level flags tt (vaIndex vaddr height) vaddr vaddr size) s
        (IndexSpec area flags height tt vaddr size s))
    {left index total : Nat} (owned : OwnedAt area s height tt) (onPage : pageSize ∣ vaddr)
    (pages : pageSize ∣ size) (inTable : index ≤ 512) (enough : 512 ≤ index + left)
    (placed : Placed height base index vaddr size) :
    Ensures RanOut (mapFrom area descend level flags tt left index vaddr vaddr size total) s
      (LoopSpec area flags height tt base index vaddr size total s) := by
  induction left generalizing index vaddr size total s with
  | zero => exact Ensures.of_ok rfl (LoopSpec.stop owned placed (.inl (by omega)))
  | succ left ih =>
    unfold mapFrom
    by_cases more : index < ptesPerPage ∧ 0 < size
    · have block := placed.resolve_left (Nat.ne_of_gt more.2)
      have here : Fin.ofNat 512 index = vaIndex vaddr height := by
        refine Fin.ext ?_
        rw [vaIndex, block]
        exact (Nat.mul_add_mod_self_right base 512 index).symm
      rw [if_pos more, here]
      refine Ensures.bind (fun _ => (sticky_closed area).mapFrom sticky level flags tt _ _ _ _ _ _)
        ((round owned onPage pages more.2).mono fun mapped s₁ spec => ?_)
      have short : ¬ mapped > size := by
        have amount := spec.amount
        omega
      obtain ⟨onPage', pages', placed'⟩ := round_rest onPage pages block spec.amount
      rw [if_neg short]
      exact (ih spec.update.after onPage' pages' more.1 (by omega) placed').mono
        fun total' s' rest => LoopSpec.step block more.1 spec rest
    · rw [if_neg more]
      refine Ensures.of_ok rfl (LoopSpec.stop owned placed ?_)
      rw [ptesPerPage] at more
      omega

theorem firstIndex (vaddr : Nat) (inRange : height ≤ 3) :
    (vaddr >>> ttLevelShift (lastLevel - height)) &&& (2 ^ pageIndexSize - 1) =
      vaddr / span height % 512 := by
  rw [Nat.and_two_pow_sub_one_eq_mod, ttLevelShift_eq inRange, Nat.shiftRight_eq_div_pow]
  rfl

theorem firstIndex_le (vaddr height : Nat) : vaddr / span height % 512 ≤ 512 :=
  Nat.le_of_lt (Nat.mod_lt _ (by decide))

theorem placed_first (vaddr size height : Nat) :
    Placed height (vaddr / span (height + 1)) (vaddr / span height % 512) vaddr size :=
  .inr (div_span_eq rfl)

theorem LoopSpec.level {mapped : Nat}
    (loop : LoopSpec area flags height tt (vaddr / span (height + 1)) (vaddr / span height % 512)
      vaddr size 0 s mapped s') : LevelSpec area flags height tt vaddr size s mapped s' := by
  refine ⟨loop.update, fun va covered => ?_, by rw [loop.amount, Nat.zero_add]; rfl⟩
  by_cases earlier : va / span height % 512 < vaddr / span height % 512
  · have position := div_span_eq covered
    have start := div_span_eq (rfl : vaddr / span (height + 1) = vaddr / span (height + 1))
    have before : va < vaddr / span height * span height :=
      Nat.lt_mul_of_div_lt (by omega) (span_pos height)
    have low : (leafOf s va height tt).1 ≤ height := leaf_height_le _
    have edge : span (leafOf s va height tt).1 ∣ vaddr / span height * span height :=
      (span_dvd_span low).trans (Nat.dvd_mul_left _ _)
    have nothing : Law flags vaddr vaddr va (leafOf s va height tt) (leafOf s' va height tt) :=
      Law.empty (loop.passed va covered earlier)
    refine nothing.ofRange (fun x part => by omega) fun x inRange _ => ?_
    have reached := Nat.le_trans (Nat.div_mul_le_self vaddr (span height)) inRange.1
    exact (div_lt_of_boundary (span_pos _) edge before reached).ne'
  · exact loop.law va covered (Nat.le_of_not_lt earlier)

theorem arm64MmuMapLevel_ensures (inRange : height ≤ 2) (owned : OwnedAt area s height tt)
    (onPage : pageSize ∣ vaddr) (pages : pageSize ∣ size) :
    Ensures RanOut (arm64MmuMapLevel area flags height tt vaddr vaddr size) s
      (LevelSpec area flags height tt vaddr size s) := by
  induction height generalizing tt s vaddr size with
  | zero =>
    unfold arm64MmuMapLevel
    rw [← Nat.sub_zero lastLevel, firstIndex vaddr (Nat.zero_le 3)]
    exact (mapFrom_ensures (fun _ _ _ _ => Sticky.pure _) mapIndex_last owned onPage pages
      (firstIndex_le vaddr 0) (Nat.le_add_left _ _) (placed_first vaddr size 0)).mono
        fun mapped s' loop => loop.level
  | succ height ih =>
    have below : ∀ {tt s vaddr size}, OwnedAt area s height tt → pageSize ∣ vaddr → pageSize ∣ size →
        Ensures RanOut (arm64MmuMapLevel area flags height tt vaddr vaddr size) s
          (LevelSpec area flags height tt vaddr size s) :=
      fun owned onPage pages => ih (by omega) owned onPage pages
    have sticky := (sticky_closed area).mapLevel flags height
    unfold arm64MmuMapLevel
    rw [firstIndex vaddr (by omega)]
    exact (mapFrom_ensures sticky (mapIndex_above inRange sticky below) owned onPage pages
      (firstIndex_le vaddr _) (Nat.le_add_left _ _) (placed_first vaddr size _)).mono
        fun mapped s' loop => loop.level

end Rounds

end Tables

end Cboot.Mmu
