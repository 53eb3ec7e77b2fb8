/-
**Trees of tables in a store.**

A store holds tables, and a table maps each index to an entry. An entry of a table of height `n + 1`
is a leaf or points to a table of height `n`; the entries of a table of height `0` are leaves.

* `foot_congr`, `IsTree.congr`, `leaf_congr`: a tree depends on the tables of its footprint only.
* `Update.trans`: changes of one tree compose.
* `EntryChange.newTable`, `EntryChange.newLeaf`, `Update.writeLast`: the ways a table changes.
* `Tight`: no allocated table is lost. `Update.tight_iff`: what is lost stays lost, and
  `EntryChange.newLeaf_tight_iff`: when a leaf over a table loses tables.
-/

import Mathlib

namespace Cboot.TableTree

variable {α ι ε : Type}

/-! ### Trees and their footprints -/

section Trees

variable (next : ε → Option α) (leafOk : Nat → ε → Prop)

def foot (mem : α → ι → ε) : Nat → α → Set α
  | 0, t => {t}
  | n + 1, t => {p | p = t ∨ ∃ i c, next (mem t i) = some c ∧ p ∈ foot mem n c}

def entryFoot (mem : α → ι → ε) (n : Nat) (e : ε) : Set α :=
  {p | ∃ c, next e = some c ∧ p ∈ foot next mem n c}

def IsTree (mem : α → ι → ε) : Nat → α → Prop
  | 0, t => ∀ i, leafOk 0 (mem t i)
  | n + 1, t =>
    (∀ i c, next (mem t i) = some c → IsTree mem n c) ∧
    (∀ i, next (mem t i) = none → leafOk (n + 1) (mem t i)) ∧
    (∀ i, t ∉ entryFoot next mem n (mem t i)) ∧
    ∀ i j, i ≠ j → Disjoint (entryFoot next mem n (mem t i)) (entryFoot next mem n (mem t j))

def leaf (mem : α → ι → ε) (index : Nat → ι) : Nat → α → Nat × ε
  | 0, t => (0, mem t (index 0))
  | n + 1, t =>
    match next (mem t (index (n + 1))) with
    | some c => leaf mem index n c
    | none => (n + 1, mem t (index (n + 1)))

end Trees

section Facts

variable {next : ε → Option α} {leafOk : Nat → ε → Prop} {mem mem' : α → ι → ε} {n : Nat} {t : α}

theorem self_mem_foot (next : ε → Option α) (mem : α → ι → ε) (n : Nat) (t : α) : t ∈ foot next mem n t := by
  cases n with
  | zero => exact rfl
  | succ n => exact .inl rfl

theorem entryFoot_subset_foot (i : ι) :
    entryFoot next mem n (mem t i) ⊆ foot next mem (n + 1) t := by
  rintro p ⟨c, points, below⟩
  exact .inr ⟨i, c, points, below⟩

theorem mem_foot_succ {p : α} :
    p ∈ foot next mem (n + 1) t ↔ p = t ∨ ∃ i, p ∈ entryFoot next mem n (mem t i) := Iff.rfl

theorem entryFoot_of_next {e : ε} {c : α} (points : next e = some c) :
    entryFoot next mem n e = foot next mem n c := by
  ext p
  constructor
  · rintro ⟨d, toD, below⟩
    rw [points, Option.some.injEq] at toD
    exact toD ▸ below
  · exact fun below => ⟨c, points, below⟩

theorem entryFoot_of_leaf {e : ε} (isLeaf : next e = none) : entryFoot next mem n e = ∅ := by
  ext p
  constructor
  · rintro ⟨c, points, -⟩
    rw [isLeaf] at points
    cases points
  · exact False.elim

/-! ### A tree depends on its footprint only -/

theorem foot_congr (same : ∀ p ∈ foot next mem n t, mem' p = mem p) :
    foot next mem' n t = foot next mem n t := by
  induction n generalizing t with
  | zero => rfl
  | succ n ih =>
    have here : mem' t = mem t := same t (self_mem_foot next mem _ t)
    have below : ∀ i c, next (mem t i) = some c → foot next mem' n c = foot next mem n c :=
      fun i c points => ih fun p inside => same p (.inr ⟨i, c, points, inside⟩)
    ext p
    constructor
    · rintro (rfl | ⟨i, c, points, inside⟩)
      · exact .inl rfl
      · rw [here] at points
        exact .inr ⟨i, c, points, below i c points ▸ inside⟩
    · rintro (rfl | ⟨i, c, points, inside⟩)
      · exact .inl rfl
      · exact .inr ⟨i, c, by rw [here]; exact points, (below i c points).symm ▸ inside⟩

theorem entryFoot_congr {e : ε} (same : ∀ p ∈ entryFoot next mem n e, mem' p = mem p) :
    entryFoot next mem' n e = entryFoot next mem n e := by
  cases target : next e with
  | none => rw [entryFoot_of_leaf target, entryFoot_of_leaf target]
  | some c =>
    rw [entryFoot_of_next target] at same
    rw [entryFoot_of_next target, entryFoot_of_next target, foot_congr same]

theorem IsTree.congr (tree : IsTree next leafOk mem n t)
    (same : ∀ p ∈ foot next mem n t, mem' p = mem p) : IsTree next leafOk mem' n t := by
  induction n generalizing t with
  | zero =>
    intro i
    rw [same t (self_mem_foot next mem 0 t)]
    exact tree i
  | succ n ih =>
    obtain ⟨subtrees, leaves, apart, disjoint⟩ := tree
    have here : mem' t = mem t := same t (self_mem_foot next mem _ t)
    have feet : ∀ i, entryFoot next mem' n (mem t i) = entryFoot next mem n (mem t i) :=
      fun i => entryFoot_congr fun p inside => same p (entryFoot_subset_foot i inside)
    refine ⟨fun i c points => ?_, fun i isLeaf => ?_, fun i => ?_, fun i j different => ?_⟩
    · rw [here] at points
      exact ih (subtrees i c points) fun p inside => same p (.inr ⟨i, c, points, inside⟩)
    · rw [here] at isLeaf ⊢
      exact leaves i isLeaf
    · rw [here, feet]
      exact apart i
    · rw [here, feet, feet]
      exact disjoint i j different

theorem leaf_congr (index : Nat → ι) (same : ∀ p ∈ foot next mem n t, mem' p = mem p) :
    leaf next mem' index n t = leaf next mem index n t := by
  induction n generalizing t with
  | zero => rw [leaf, leaf, same t (self_mem_foot next mem 0 t)]
  | succ n ih =>
    have here : mem' t = mem t := same t (self_mem_foot next mem _ t)
    rw [leaf, leaf, here]
    cases target : next (mem t (index (n + 1))) with
    | none => rfl
    | some c => exact ih fun p inside => same p (.inr ⟨_, c, target, inside⟩)

theorem leaf_of_next {index : Nat → ι} {c : α} (points : next (mem t (index (n + 1))) = some c) :
    leaf next mem index (n + 1) t = leaf next mem index n c := by
  rw [leaf, points]

theorem leaf_of_leaf {index : Nat → ι} (isLeaf : next (mem t (index (n + 1))) = none) :
    leaf next mem index (n + 1) t = (n + 1, mem t (index (n + 1))) := by
  rw [leaf, isLeaf]

theorem leaf_height_le (index : Nat → ι) : (leaf next mem index n t).1 ≤ n := by
  induction n generalizing t with
  | zero => exact Nat.le_refl 0
  | succ n ih =>
    cases target : next (mem t (index (n + 1))) with
    | none => rw [leaf_of_leaf target]
    | some c =>
      rw [leaf_of_next target]
      exact Nat.le_succ_of_le ih

/-! ### References -/

def inner (next : ε → Option α) (mem : α → ι → ε) : Nat → α → Set α
  | 0, _ => ∅
  | n + 1, t => {q | q = t ∨ ∃ i c, next (mem t i) = some c ∧ q ∈ inner next mem n c}

def referrers (next : ε → Option α) (mem : α → ι → ε) (n : Nat) (t p : α) : Set (α × ι) :=
  {r | r.1 ∈ inner next mem n t ∧ next (mem r.1 r.2) = some p}

theorem mem_entryFoot_of_referrer {p : α} {r : α × ι}
    (refers : r ∈ referrers next mem (n + 1) t p) : ∃ i, p ∈ entryFoot next mem n (mem t i) := by
  obtain ⟨q, j⟩ := r
  obtain ⟨isInner, points⟩ := refers
  induction n generalizing t with
  | zero =>
    rcases isInner with rfl | ⟨i, c, toC, none⟩
    · exact ⟨j, p, points, self_mem_foot next mem 0 p⟩
    · exact none.elim
  | succ n ih =>
    rcases isInner with rfl | ⟨i, c, toC, below⟩
    · exact ⟨j, p, points, self_mem_foot next mem _ p⟩
    · obtain ⟨k, inside⟩ := ih below
      exact ⟨i, c, toC, entryFoot_subset_foot k inside⟩

theorem IsTree.root_unreferred (tree : IsTree next leafOk mem n t) :
    referrers next mem n t t = ∅ := by
  rw [Set.eq_empty_iff_forall_notMem]
  intro r refers
  cases n with
  | zero => exact refers.1
  | succ n =>
    obtain ⟨i, inside⟩ := mem_entryFoot_of_referrer refers
    exact tree.2.2.1 i inside

theorem IsTree.entry_unique (tree : IsTree next leafOk mem (n + 1) t) {p : α} {i j : ι}
    (first : p ∈ entryFoot next mem n (mem t i)) (second : p ∈ entryFoot next mem n (mem t j)) :
    i = j := by
  by_contra different
  exact Set.disjoint_left.mp (tree.2.2.2 i j different) first second

theorem IsTree.child_unique (tree : IsTree next leafOk mem (n + 1) t) {i k : ι} {c d p : α}
    {r : α × ι} (toC : next (mem t i) = some c) (below : p ∈ foot next mem n c)
    (toD : next (mem t k) = some d) (refers : r ∈ referrers next mem n d p) : d = c := by
  have inK : p ∈ entryFoot next mem n (mem t k) := by
    cases n with
    | zero => exact refers.1.elim
    | succ n =>
      obtain ⟨l, inL⟩ := mem_entryFoot_of_referrer refers
      exact ⟨d, toD, entryFoot_subset_foot l inL⟩
  rw [tree.entry_unique inK ⟨c, toC, below⟩] at toD
  exact Option.some.inj (toD.symm.trans toC)

theorem IsTree.referrer_unique (tree : IsTree next leafOk mem n t) {p : α}
    (inside : p ∈ foot next mem n t) (notRoot : p ≠ t) : ∃! r, r ∈ referrers next mem n t p := by
  induction n generalizing t with
  | zero => exact absurd inside notRoot
  | succ n ih =>
    obtain ⟨i, c, toC, below⟩ := inside.resolve_left notRoot
    have inI : p ∈ entryFoot next mem n (mem t i) := ⟨c, toC, below⟩
    by_cases child : p = c
    · refine ⟨(t, i), ⟨.inl rfl, child ▸ toC⟩, ?_⟩
      rintro ⟨q, j⟩ ⟨rfl | ⟨k, d, toD, isInner⟩, points⟩
      · have inJ : p ∈ entryFoot next mem n (mem q j) :=
          ⟨p, points, self_mem_foot next mem n p⟩
        rw [tree.entry_unique inJ inI]
      · -- an entry further down would point to the root of its own tree
        have same := tree.child_unique toC below toD ⟨isInner, points⟩
        have none := (tree.1 k d toD).root_unreferred
        rw [same, ← child] at none isInner
        exact absurd ⟨isInner, points⟩ (Set.eq_empty_iff_forall_notMem.mp none (q, j))
    · obtain ⟨⟨q, j⟩, ⟨isInner, points⟩, unique⟩ := ih (tree.1 i c toC) below child
      refine ⟨(q, j), ⟨.inr ⟨i, c, toC, isInner⟩, points⟩, ?_⟩
      rintro ⟨q', j'⟩ ⟨rfl | ⟨k, d, toD, isInner'⟩, points'⟩
      · have inJ : p ∈ entryFoot next mem n (mem q' j') :=
          ⟨p, points', self_mem_foot next mem n p⟩
        rw [tree.entry_unique inJ inI, toC] at points'
        exact absurd (Option.some.inj points').symm child
      · have same := tree.child_unique toC below toD ⟨isInner', points'⟩
        exact unique (q', j') ⟨same ▸ isInner', points'⟩

end Facts

/-! ### Trees of allocated tables -/

section Allocation

variable (next : ε → Option α) (leafOk : Nat → ε → Prop)

structure Owned (mem : α → ι → ε) (alloc : Set α) (n : Nat) (t : α) : Prop where
  tree : IsTree next leafOk mem n t
  owned : foot next mem n t ⊆ alloc

/-- The store and the allocated tables change inside one tree only: the tree at `t` may take tables
that were not allocated, and every other allocated table stays allocated and unchanged. -/
structure Update (mem : α → ι → ε) (alloc : Set α) (mem' : α → ι → ε) (alloc' : Set α) (n : Nat)
    (t : α) : Prop where
  after : Owned next leafOk mem' alloc' n t
  fresh : ∀ p ∈ foot next mem' n t, p ∈ foot next mem n t ∨ p ∉ alloc
  kept : ∀ p ∈ alloc, p ∉ foot next mem n t → mem' p = mem p ∧ p ∈ alloc'

end Allocation

section Changes

variable {next : ε → Option α} {leafOk : Nat → ε → Prop} {mem mem' mem'' : α → ι → ε}
  {alloc alloc' alloc'' : Set α} {n : Nat} {t : α}

theorem Update.refl (owned : Owned next leafOk mem alloc n t) :
    Update next leafOk mem alloc mem alloc n t :=
  ⟨owned, fun _ inside => .inl inside, fun _ allocated _ => ⟨rfl, allocated⟩⟩

theorem Update.trans (first : Update next leafOk mem alloc mem' alloc' n t)
    (second : Update next leafOk mem' alloc' mem'' alloc'' n t) :
    Update next leafOk mem alloc mem'' alloc'' n t := by
  refine ⟨second.after, fun p inside => ?_, fun p allocated outside => ?_⟩
  · by_cases before : p ∈ foot next mem n t
    · exact .inl before
    · refine .inr fun allocated => ?_
      rcases second.fresh p inside with inFirst | notAllocated
      · exact (first.fresh p inFirst).elim before fun notAllocated => notAllocated allocated
      · exact notAllocated (first.kept p allocated before).2
  · obtain ⟨same, still⟩ := first.kept p allocated outside
    have outside' : p ∉ foot next mem' n t := fun inside =>
      (first.fresh p inside).elim outside fun notAllocated => notAllocated allocated
    obtain ⟨same', still'⟩ := second.kept p still outside'
    exact ⟨same'.trans same, still'⟩

theorem Update.writeLast (owned : Owned next leafOk mem alloc 0 t)
    (allowed : ∀ i, leafOk 0 (mem' t i)) (others : ∀ p, p ≠ t → mem' p = mem p) :
    Update next leafOk mem alloc mem' alloc 0 t := by
  refine ⟨⟨allowed, owned.owned⟩, fun p inside => .inl inside, fun p allocated outside => ?_⟩
  exact ⟨others p outside, allocated⟩

theorem Owned.entryFoot_subset (owned : Owned next leafOk mem alloc (n + 1) t) (i : ι) :
    entryFoot next mem n (mem t i) ⊆ alloc :=
  (entryFoot_subset_foot i).trans owned.owned

theorem Owned.child (owned : Owned next leafOk mem alloc (n + 1) t) {i : ι} {c : α}
    (points : next (mem t i) = some c) : Owned next leafOk mem alloc n c := by
  refine ⟨owned.tree.1 i c points, ?_⟩
  rw [← entryFoot_of_next points]
  exact owned.entryFoot_subset i

/-! ### A table of leaves -/

theorem foot_of_leaves (ends : 0 < n → ∀ j, next (mem t j) = none) : foot next mem n t = {t} := by
  cases n with
  | zero => rfl
  | succ n =>
    ext p
    constructor
    · rintro (rfl | ⟨i, c, points, -⟩)
      · exact rfl
      · rw [ends (Nat.succ_pos n) i] at points
        cases points
    · rintro rfl
      exact self_mem_foot next mem _ p

theorem Owned.ofLeaves (leaves : ∀ j, leafOk n (mem t j))
    (ends : 0 < n → ∀ j, next (mem t j) = none) (inUse : t ∈ alloc) :
    Owned next leafOk mem alloc n t := by
  refine ⟨?_, ?_⟩
  · cases n with
    | zero => exact leaves
    | succ n =>
      have noTables : ∀ j, entryFoot next mem n (mem t j) = ∅ :=
        fun j => entryFoot_of_leaf (ends (Nat.succ_pos n) j)
      refine ⟨fun i c points => ?_, fun i _ => leaves i, fun i => ?_, fun i j _ => ?_⟩
      · rw [ends (Nat.succ_pos n) i] at points
        cases points
      · rw [noTables]
        exact Set.notMem_empty t
      · rw [noTables]
        exact Set.empty_disjoint _
  · rw [foot_of_leaves ends]
    exact Set.singleton_subset_iff.mpr inUse

theorem leaf_of_leaves (index : Nat → ι) (ends : 0 < n → ∀ j, next (mem t j) = none) :
    leaf next mem index n t = (n, mem t (index n)) := by
  cases n with
  | zero => rfl
  | succ n => exact leaf_of_leaf (ends (Nat.succ_pos n) _)

/-! ### Changes below one entry -/

structure EntryChange (next : ε → Option α) (leafOk : Nat → ε → Prop) (mem : α → ι → ε)
    (alloc : Set α) (mem' : α → ι → ε) (alloc' : Set α) (n : Nat) (t : α) (i : ι) : Prop where
  others : ∀ j, j ≠ i → mem' t j = mem t j
  table : t ∈ alloc'
  kept : ∀ p ∈ alloc, p ≠ t → p ∉ entryFoot next mem n (mem t i) → mem' p = mem p ∧ p ∈ alloc'
  subtree : ∀ c, next (mem' t i) = some c → Owned next leafOk mem' alloc' n c
  isLeaf : next (mem' t i) = none → leafOk (n + 1) (mem' t i)
  fresh : ∀ p ∈ entryFoot next mem' n (mem' t i),
    p ∈ entryFoot next mem n (mem t i) ∨ p ∉ alloc

section Entry

variable {i : ι}

section

variable (change : EntryChange next leafOk mem alloc mem' alloc' n t i)
  (owned : Owned next leafOk mem alloc (n + 1) t)
include change owned

theorem EntryChange.same_below {j : ι} (different : j ≠ i) :
    ∀ p ∈ entryFoot next mem n (mem t j), mem' p = mem p ∧ p ∈ alloc' := by
  intro p inside
  have notTable : p ≠ t := fun equal => owned.tree.2.2.1 j (equal ▸ inside)
  have notBelow := Set.disjoint_left.mp (owned.tree.2.2.2 j i different) inside
  exact change.kept p (owned.entryFoot_subset j inside) notTable notBelow

theorem EntryChange.entryFoot_eq {j : ι} (different : j ≠ i) :
    entryFoot next mem' n (mem' t j) = entryFoot next mem n (mem t j) := by
  rw [change.others j different]
  exact entryFoot_congr fun p inside => (change.same_below owned different p inside).1

theorem EntryChange.disjoint {j : ι} (different : j ≠ i) :
    Disjoint (entryFoot next mem' n (mem' t i)) (entryFoot next mem' n (mem' t j)) := by
  rw [change.entryFoot_eq owned different]
  refine Set.disjoint_left.mpr fun p below other => ?_
  rcases change.fresh p below with before | notAllocated
  · exact Set.disjoint_left.mp (owned.tree.2.2.2 j i different) other before
  · exact notAllocated (owned.entryFoot_subset j other)

theorem EntryChange.isTree : IsTree next leafOk mem' (n + 1) t := by
  obtain ⟨subtrees, leaves, apart, disjoint⟩ := owned.tree
  refine ⟨fun j c points => ?_, fun j isLeaf => ?_, fun j => ?_, fun j k different => ?_⟩
  · by_cases changed : j = i
    · exact (change.subtree c (changed ▸ points)).tree
    · rw [change.others j changed] at points
      refine (subtrees j c points).congr fun p inside => ?_
      exact (change.same_below owned changed p ⟨c, points, inside⟩).1
  · by_cases changed : j = i
    · rw [changed] at isLeaf ⊢
      exact change.isLeaf isLeaf
    · rw [change.others j changed] at isLeaf ⊢
      exact leaves j isLeaf
  · by_cases changed : j = i
    · rw [changed]
      intro inside
      rcases change.fresh t inside with before | notAllocated
      · exact apart i before
      · exact notAllocated (owned.owned (self_mem_foot next mem _ t))
    · rw [change.entryFoot_eq owned changed]
      exact apart j
  · by_cases first : j = i
    · rw [first]
      exact change.disjoint owned fun equal => different (first.trans equal.symm)
    · by_cases second : k = i
      · rw [second]
        exact (change.disjoint owned first).symm
      · rw [change.entryFoot_eq owned first, change.entryFoot_eq owned second]
        exact disjoint j k different

theorem EntryChange.update :
    Update next leafOk mem alloc mem' alloc' (n + 1) t := by
  refine ⟨⟨change.isTree owned, ?_⟩, ?_, fun p allocated outside => ?_⟩
  · rintro p (rfl | ⟨j, c, points, below⟩)
    · exact change.table
    · by_cases changed : j = i
      · exact (change.subtree c (changed ▸ points)).owned below
      · have inside : p ∈ entryFoot next mem' n (mem' t j) := ⟨c, points, below⟩
        rw [change.entryFoot_eq owned changed] at inside
        exact (change.same_below owned changed p inside).2
  · rintro p (rfl | ⟨j, c, points, below⟩)
    · exact .inl (self_mem_foot next mem _ p)
    · have inside : p ∈ entryFoot next mem' n (mem' t j) := ⟨c, points, below⟩
      by_cases changed : j = i
      · rw [changed] at inside
        exact (change.fresh p inside).imp_left fun before => entryFoot_subset_foot i before
      · rw [change.entryFoot_eq owned changed] at inside
        exact .inl (entryFoot_subset_foot j inside)
  · refine change.kept p allocated (fun equal => outside (equal ▸ self_mem_foot next mem _ p)) ?_
    exact fun below => outside (entryFoot_subset_foot i below)

theorem EntryChange.leaf_of_ne {index : Nat → ι}
    (different : index (n + 1) ≠ i) :
    leaf next mem' index (n + 1) t = leaf next mem index (n + 1) t := by
  have entry := change.others _ different
  cases target : next (mem t (index (n + 1))) with
  | none =>
    rw [leaf_of_leaf target, leaf_of_leaf (by rw [entry]; exact target), entry]
  | some c =>
    rw [leaf_of_next target, leaf_of_next (by rw [entry]; exact target)]
    refine leaf_congr index fun p inside => ?_
    exact (change.same_below owned different p ⟨c, target, inside⟩).1

end

theorem Update.parent_kept {c : α} (update : Update next leafOk mem alloc mem' alloc' n c)
    (owned : Owned next leafOk mem alloc (n + 1) t) (points : next (mem t i) = some c) :
    mem' t = mem t ∧ t ∈ alloc' := by
  refine update.kept t (owned.owned (self_mem_foot next mem _ t)) ?_
  rw [← entryFoot_of_next points]
  exact owned.tree.2.2.1 i

theorem Update.entryChange {c : α} (update : Update next leafOk mem alloc mem' alloc' n c)
    (owned : Owned next leafOk mem alloc (n + 1) t) (points : next (mem t i) = some c) :
    EntryChange next leafOk mem alloc mem' alloc' n t i := by
  have below : entryFoot next mem n (mem t i) = foot next mem n c := entryFoot_of_next points
  obtain ⟨same, still⟩ := update.parent_kept owned points
  have points' : next (mem' t i) = some c := by rw [same]; exact points
  refine ⟨fun j _ => by rw [same], still, fun p allocated _ apart => ?_, fun d toD => ?_,
    fun isLeaf => ?_, fun p inside => ?_⟩
  · exact update.kept p allocated (below ▸ apart)
  · rw [points', Option.some.injEq] at toD
    exact toD ▸ update.after
  · rw [points'] at isLeaf
    cases isLeaf
  · rw [entryFoot_of_next points'] at inside
    rw [below]
    exact update.fresh p inside

theorem EntryChange.newTable {page : α} (owned : Owned next leafOk mem alloc (n + 1) t)
    (unused : page ∉ alloc) (points : next (mem' t i) = some page)
    (leaves : ∀ j, leafOk n (mem' page j)) (ends : 0 < n → ∀ j, next (mem' page j) = none)
    (others : ∀ j, j ≠ i → mem' t j = mem t j) (rest : ∀ p, p ≠ t → p ≠ page → mem' p = mem p) :
    EntryChange next leafOk mem alloc mem' (insert page alloc) n t i := by
  have inUse : t ∈ alloc := owned.owned (self_mem_foot next mem _ t)
  refine ⟨others, .inr inUse, fun p allocated notTable _ => ?_, fun c toC => ?_, fun isLeaf => ?_,
    fun p inside => ?_⟩
  · exact ⟨rest p notTable fun same => unused (same ▸ allocated), .inr allocated⟩
  · rw [points, Option.some.injEq] at toC
    exact toC ▸ Owned.ofLeaves leaves ends (.inl rfl)
  · rw [points] at isLeaf
    cases isLeaf
  · rw [entryFoot_of_next points, foot_of_leaves ends] at inside
    exact .inr (inside ▸ unused)

theorem EntryChange.newLeaf (owned : Owned next leafOk mem alloc (n + 1) t)
    (isLeaf : next (mem' t i) = none) (allowed : leafOk (n + 1) (mem' t i))
    (others : ∀ j, j ≠ i → mem' t j = mem t j) (rest : ∀ p, p ≠ t → mem' p = mem p)
    (still : ∀ p ∈ alloc, p ∉ entryFoot next mem n (mem t i) → p ∈ alloc') :
    EntryChange next leafOk mem alloc mem' alloc' n t i := by
  have inUse : t ∈ alloc := owned.owned (self_mem_foot next mem _ t)
  refine ⟨others, still t inUse (owned.tree.2.2.1 i), fun p allocated notTable apart => ?_,
    fun c toC => ?_, fun _ => allowed, fun p inside => ?_⟩
  · exact ⟨rest p notTable, still p allocated apart⟩
  · rw [isLeaf] at toC
    cases toC
  · rw [entryFoot_of_leaf isLeaf] at inside
    exact inside.elim

end Entry

/-! ### Tables that are lost -/

def Tight (next : ε → Option α) (mem : α → ι → ε) (alloc : Set α) (mem' : α → ι → ε)
    (alloc' : Set α) (n : Nat) (t : α) : Prop :=
  ∀ p ∈ alloc', p ∈ foot next mem' n t ∨ p ∈ alloc ∧ p ∉ foot next mem n t

theorem Tight.refl (next : ε → Option α) (mem : α → ι → ε) (alloc : Set α) (n : Nat) (t : α) :
    Tight next mem alloc mem alloc n t := by
  intro p allocated
  by_cases inside : p ∈ foot next mem n t
  · exact .inl inside
  · exact .inr ⟨allocated, inside⟩

theorem Update.outside (update : Update next leafOk mem alloc mem' alloc' n t) {p : α}
    (allocated : p ∈ alloc) (outside : p ∉ foot next mem n t) :
    p ∈ alloc' ∧ p ∉ foot next mem' n t := by
  refine ⟨(update.kept p allocated outside).2, fun inside => ?_⟩
  rcases update.fresh p inside with before | notAllocated
  · exact outside before
  · exact notAllocated allocated

theorem Update.tight_iff (first : Update next leafOk mem alloc mem' alloc' n t)
    (second : Update next leafOk mem' alloc' mem'' alloc'' n t) :
    Tight next mem alloc mem'' alloc'' n t ↔
      Tight next mem alloc mem' alloc' n t ∧ Tight next mem' alloc' mem'' alloc'' n t := by
  constructor
  · intro whole
    refine ⟨fun p allocated => ?_, fun p allocated => ?_⟩
    · by_cases inside : p ∈ foot next mem' n t
      · exact .inl inside
      · obtain ⟨still, outside⟩ := second.outside allocated inside
        exact .inr ((whole p still).resolve_left outside)
    · rcases whole p allocated with inside | ⟨before, outside⟩
      · exact .inl inside
      · exact .inr (first.outside before outside)
  · rintro ⟨tight, tight'⟩ p allocated
    rcases tight' p allocated with inside | ⟨middle, outside⟩
    · exact .inl inside
    · exact .inr ((tight p middle).resolve_left outside)

section EntryTight

variable {i : ι}

theorem EntryChange.tight (change : EntryChange next leafOk mem alloc mem' alloc' n t i)
    (owned : Owned next leafOk mem alloc (n + 1) t)
    (entry : ∀ p ∈ alloc', p ∈ entryFoot next mem' n (mem' t i) ∨
      p ∈ alloc ∧ p ∉ entryFoot next mem n (mem t i)) :
    Tight next mem alloc mem' alloc' (n + 1) t := by
  intro p allocated
  rcases entry p allocated with inside | ⟨before, outside⟩
  · exact .inl (entryFoot_subset_foot i inside)
  · by_cases inside : p ∈ foot next mem (n + 1) t
    · left
      rcases mem_foot_succ.mp inside with rfl | ⟨j, below⟩
      · exact self_mem_foot next mem' _ p
      · have different : j ≠ i := by
          rintro rfl
          exact outside below
        rw [← change.entryFoot_eq owned different] at below
        exact entryFoot_subset_foot j below
    · exact .inr ⟨before, inside⟩

theorem Tight.entry {c : α} (tight : Tight next mem alloc mem' alloc' n c)
    (points : next (mem t i) = some c) (points' : next (mem' t i) = some c) (p : α)
    (allocated : p ∈ alloc') :
    p ∈ entryFoot next mem' n (mem' t i) ∨ p ∈ alloc ∧ p ∉ entryFoot next mem n (mem t i) := by
  rw [entryFoot_of_next points, entryFoot_of_next points']
  exact tight p allocated

def Deep (next : ε → Option α) (mem : α → ι → ε) (n : Nat) (e : ε) : Prop :=
  ∃ c, next e = some c ∧ ∃ p ∈ foot next mem n c, p ≠ c

theorem not_deep_zero (e : ε) : ¬Deep next mem 0 e := by
  rintro ⟨c, -, p, inside, different⟩
  exact different inside

variable (change : EntryChange next leafOk mem alloc mem' alloc' n t i)
  (owned : Owned next leafOk mem alloc (n + 1) t)
include change owned

theorem EntryChange.deep_iff {j : ι} (different : j ≠ i) :
    Deep next mem' n (mem' t j) ↔ Deep next mem n (mem t j) := by
  have entry := change.others j different
  unfold Deep
  rw [entry]
  refine exists_congr fun c => and_congr_right fun points => ?_
  have same : foot next mem' n c = foot next mem n c :=
    foot_congr fun p inside => (change.same_below owned different p ⟨c, points, inside⟩).1
  rw [same]

theorem EntryChange.newLeaf_tight_iff (isLeaf : next (mem' t i) = none)
    (freed : alloc' = alloc \ {p | next (mem t i) = some p}) :
    Tight next mem alloc mem' alloc' (n + 1) t ↔ ¬Deep next mem n (mem t i) := by
  constructor
  · rintro tight ⟨c, points, p, inside, different⟩
    have below : p ∈ entryFoot next mem n (mem t i) := ⟨c, points, inside⟩
    have still : p ∈ alloc' := by
      rw [freed]
      refine ⟨owned.entryFoot_subset i below, fun isChild => different ?_⟩
      exact Option.some.inj (isChild.symm.trans points)
    rcases tight p still with after | ⟨-, outside⟩
    · rcases mem_foot_succ.mp after with rfl | ⟨j, inJ⟩
      · exact owned.tree.2.2.1 i below
      · by_cases changed : j = i
        · rw [changed, entryFoot_of_leaf isLeaf] at inJ
          exact inJ
        · rw [change.entryFoot_eq owned changed] at inJ
          exact Set.disjoint_left.mp (owned.tree.2.2.2 j i changed) inJ below
    · exact outside (entryFoot_subset_foot i below)
  · intro shallow
    refine change.tight owned fun p allocated => .inr ?_
    rw [freed] at allocated
    refine ⟨allocated.1, ?_⟩
    rintro ⟨c, points, inside⟩
    have single : p = c := by
      by_contra different
      exact shallow ⟨c, points, p, inside, different⟩
    exact allocated.2 (single ▸ points)

end EntryTight

end Changes

end Cboot.TableTree
