/-
**The layout of the heap.**

The heap is tiled by free blocks, live blocks and bytes that belong to no block. A layout is the
list of these tiles. `Rep` says that a memory holds a layout: the records of the blocks are right,
and the free list runs through the free blocks in the order of their addresses.
-/

import Cboot.Lib.LinkedList
import Cboot.Lib.Tiling
import Cboot.Malloc.Heap

namespace Cboot.Malloc

open LinkedList Tiling

/-! ### Records and what changes them -/

section Records

variable {mem mem' : ByteMem} {block : Nat}

theorem blockMagic_congr (agree : ∀ a, block ≤ a → a < block + 4 → mem' a = mem a) :
    blockMagic mem' block = blockMagic mem block :=
  AgreeOn.word32 agree le_rfl le_rfl

theorem blockSize_congr (agree : ∀ a, block + 8 ≤ a → a < block + 16 → mem' a = mem a) :
    blockSize mem' block = blockSize mem block :=
  congrArg BitVec.toNat (AgreeOn.word64 agree le_rfl le_rfl)

theorem blockPrev_congr (agree : ∀ a, block + 16 ≤ a → a < block + 24 → mem' a = mem a) :
    blockPrev mem' block = blockPrev mem block :=
  congrArg BitVec.toNat (AgreeOn.word64 agree le_rfl le_rfl)

theorem blockNext_congr (agree : ∀ a, block + 24 ≤ a → a < block + 32 → mem' a = mem a) :
    blockNext mem' block = blockNext mem block :=
  congrArg BitVec.toNat (AgreeOn.word64 agree le_rfl le_rfl)

end Records

/-! ### Layouts -/

/-- What a tile of the heap is: a free block; a live block with the address of its record and the
number of bytes asked for; or bytes that belong to no block. -/
inductive Kind
  | free
  | live (record size : Nat)
  | lost

def Kind.isFree : Kind → Bool
  | .free => true
  | _ => false

theorem Kind.isFree_iff (kind : Kind) : kind.isFree = true ↔ kind = .free := by
  cases kind <;> simp [Kind.isFree]

abbrev Layout := List (Tile Kind)

structure Allocation where
  ptr : Nat
  size : Nat
  deriving DecidableEq

def Kind.allocation : Kind → Option Allocation
  | .live record size => some ⟨record + sizeofAllocBlock, size⟩
  | _ => none

def allocations (tiles : Layout) : List Allocation := tiles.filterMap fun t => t.kind.allocation

def Kind.isLost : Kind → Bool
  | .lost => true
  | _ => false

def lostBytes (tiles : Layout) : Nat := extent (tiles.filter fun t => t.kind.isLost)

@[simp] theorem allocations_append (first second : Layout) :
    allocations (first ++ second) = allocations first ++ allocations second :=
  List.filterMap_append

@[simp] theorem lostBytes_append (first second : Layout) :
    lostBytes (first ++ second) = lostBytes first + lostBytes second := by
  rw [lostBytes, List.filter_append, extent_append]
  rfl

def Kind.recordEnd (addr : Nat) : Kind → Nat
  | .free => addr + 16
  | .live record _ => record + sizeofAllocBlock
  | .lost => addr

def TileOk (mem : ByteMem) (addr : Nat) (t : Tile Kind) : Prop :=
  match t.kind with
  | .free => minSize ≤ t.size ∧ blockMagic mem addr = freeMagic ∧ blockSize mem addr = t.size
  | .live record size =>
    minSize ≤ t.size ∧ addr ≤ record ∧ 0 < size ∧
      record + sizeofAllocBlock + size ≤ addr + t.size ∧
      blockMagic mem record = allocMagic ∧ blockSize mem record = t.size ∧
      blockStart mem record = addr
  | .lost => 0 < t.size

section Tiles

variable {mem mem' : ByteMem} {addr n : Nat} {t : Tile Kind}

theorem TileOk.recordEnd_le (ok : TileOk mem addr t) : t.kind.recordEnd addr ≤ addr + t.size := by
  obtain ⟨kind, size⟩ := t
  cases kind with
  | free =>
    have enough : 32 ≤ size := ok.1
    show addr + 16 ≤ addr + size
    omega
  | live record requested => exact Nat.le_trans (Nat.le_add_right _ _) ok.2.2.2.1
  | lost => exact Nat.le_add_right addr size

theorem TileOk.congr (ok : TileOk mem addr t)
    (agree : ∀ a, addr ≤ a → a < t.kind.recordEnd addr → mem' a = mem a) : TileOk mem' addr t := by
  obtain ⟨kind, size⟩ := t
  cases kind with
  | free =>
    obtain ⟨enough, magic, size'⟩ := ok
    have same : ∀ a, addr ≤ a → a < addr + 16 → mem' a = mem a := agree
    refine ⟨enough, ?_, ?_⟩
    · rw [← magic]
      exact blockMagic_congr fun a low high => same a low (by omega)
    · rw [← size']
      exact blockSize_congr fun a low high => same a (by omega) high
  | live record requested =>
    obtain ⟨enough, low, positive, high, magic, size', start⟩ := ok
    have same : ∀ a, record ≤ a → a < record + 24 → mem' a = mem a := fun a low' high' =>
      agree a (Nat.le_trans low low') high'
    refine ⟨enough, low, positive, high, ?_, ?_, ?_⟩
    · rw [← magic]
      exact blockMagic_congr fun a low' high' => same a low' (by omega)
    · rw [← size']
      exact blockSize_congr fun a low' high' => same a (by omega) (by omega)
    · rw [← start]
      exact blockPrev_congr fun a low' high' => same a (by omega) (by omega)
  | lost => exact ok

theorem TileOk.positive (ok : TileOk mem addr t) : 0 < t.size := by
  obtain ⟨kind, size⟩ := t
  cases kind with
  | free | live record requested => exact Nat.lt_of_lt_of_le (by decide) ok.1
  | lost => exact ok

theorem TileOk.free_size (ok : TileOk mem addr t) (free : t.kind.isFree = true) : 32 ≤ t.size := by
  obtain ⟨kind, size⟩ := t
  cases kind with
  | free => exact ok.1
  | live record requested | lost => cases free

end Tiles

def Heaps.nextIn (s : Heaps) (block : Nat) : Nat :=
  if block = 0 then s.freeList .default else blockNext s.mem block

structure Rep (start : Nat) (s : Heaps) (tiles : Layout) : Prop where
  above : 32 ≤ start
  below : start + extent tiles ≤ 2 ^ 64
  records : ∀ p ∈ placed start tiles, TileOk s.mem p.1 p.2
  linked : Linked s.nextIn (blockPrev s.mem) 0 (0 :: nodes Kind.isFree start tiles ++ [0])
  dma : s.freeList .dma < start ∨ start + extent tiles ≤ s.freeList .dma
  size : s.maxHeapSize .default = extent tiles

/-! ### Where the free blocks lie -/

section Nodes

variable {start : Nat} {s : Heaps} {xs ys tiles : Layout} {mem : ByteMem}

theorem node_bounds (records : ∀ p ∈ placed start tiles, TileOk mem p.1 p.2) {a : Nat}
    (node : a ∈ nodes Kind.isFree start tiles) : start ≤ a ∧ a + 32 ≤ start + extent tiles := by
  obtain ⟨t, member, free⟩ := mem_nodes.mp node
  have bounds := placed_bounds member
  have enough := (records _ member).free_size free
  exact ⟨bounds.1, by omega⟩

theorem nodes_pairwise (records : ∀ p ∈ placed start tiles, TileOk mem p.1 p.2) :
    (nodes Kind.isFree start tiles).Pairwise fun a b => a + 32 ≤ b := by
  have tilesPairwise := (placed_pairwise start tiles).filter fun p => p.2.kind.isFree
  refine List.pairwise_map.mpr (tilesPairwise.imp_of_mem fun {p q} first second behind => ?_)
  obtain ⟨member, free⟩ := List.mem_filter.mp first
  have enough := (records p member).free_size free
  exact Nat.le_trans (Nat.add_le_add_left enough p.1) behind

theorem Rep.records_left (rep : Rep start s (xs ++ ys)) :
    ∀ p ∈ placed start xs, TileOk s.mem p.1 p.2 := fun p member =>
  rep.records p (by rw [placed_append]; exact List.mem_append_left _ member)

theorem Rep.records_right (rep : Rep start s (xs ++ ys)) :
    ∀ p ∈ placed (start + extent xs) ys, TileOk s.mem p.1 p.2 := fun p member =>
  rep.records p (by rw [placed_append]; exact List.mem_append_right _ member)

theorem mem_allocations {x : Allocation} :
    x ∈ allocations tiles ↔ ∃ p ∈ placed start tiles, p.2.kind.allocation = some x := by
  rw [allocations, List.mem_filterMap]
  constructor
  · rintro ⟨t, member, given⟩
    rw [← map_placed start tiles] at member
    obtain ⟨p, found, rfl⟩ := List.mem_map.mp member
    exact ⟨p, found, given⟩
  · rintro ⟨p, found, given⟩
    refine ⟨p.2, ?_, given⟩
    rw [← map_placed start tiles]
    exact List.mem_map_of_mem found

theorem TileOk.allocation {addr : Nat} {t : Tile Kind} {x : Allocation} (ok : TileOk mem addr t)
    (given : t.kind.allocation = some x) :
    t.kind.recordEnd addr = x.ptr ∧ x.ptr + x.size ≤ addr + t.size ∧
      addr + sizeofAllocBlock ≤ x.ptr := by
  obtain ⟨kind, n⟩ := t
  cases kind with
  | free | lost => cases given
  | live record size =>
    cases given
    obtain ⟨-, low, -, high, -⟩ := ok
    exact ⟨rfl, high, Nat.add_le_add_right low _⟩

theorem not_in_allocation (records : ∀ p ∈ placed start tiles, TileOk mem p.1 p.2)
    {t : Nat × Tile Kind} (member : t ∈ placed start tiles) {a : Nat} (low : t.1 ≤ a)
    (high : a < t.1 + t.2.size) (record : t.2.kind.isFree = false → a < t.2.kind.recordEnd t.1)
    {x : Allocation} (given : x ∈ allocations tiles) : ¬ (x.ptr ≤ a ∧ a < x.ptr + x.size) := by
  rintro ⟨low', high'⟩
  obtain ⟨u, found, isLive⟩ := mem_allocations.mp given
  obtain ⟨ends, inside, behind⟩ := (records u found).allocation isLive
  rcases placed_apart member found with rfl | apart
  · have plain : t.2.kind.isFree = false := by
      cases kind : t.2.kind with
      | free => rw [kind] at isLive; cases isLive
      | live record size | lost => rfl
    have early := record plain
    omega
  · unfold Apart at apart
    omega

end Nodes

/-! ### Exchanging a part of the layout -/

structure Change (low high p q : Nat) (s s' : Heaps) : Prop where
  bytes : ∀ a, ¬ (low ≤ a ∧ a < high) → ¬ (p ≠ 0 ∧ p + 24 ≤ a ∧ a < p + 32) →
    ¬ (q ≠ 0 ∧ q + 16 ≤ a ∧ a < q + 24) → s'.mem a = s.mem a
  head : p ≠ 0 → s'.freeList .default = s.freeList .default
  dma : s'.freeList .dma = s.freeList .dma
  size : s'.maxHeapSize .default = s.maxHeapSize .default

structure Between (start : Nat) (xs : Layout) (size : Nat) (ys : Layout) (init rest : List Nat)
    (p q : Nat) : Prop where
  before : 0 :: nodes Kind.isFree start xs = init ++ [p]
  after : nodes Kind.isFree (start + extent xs + size) ys ++ [0] = q :: rest

theorem exists_between (start : Nat) (xs : Layout) (size : Nat) (ys : Layout) :
    ∃ init rest p q, Between start xs size ys init rest p q := by
  obtain ⟨init, p, before⟩ := (List.eq_nil_or_concat (0 :: nodes Kind.isFree start xs)).resolve_left
    (List.cons_ne_nil _ _)
  obtain ⟨q, rest, after⟩ := List.exists_cons_of_ne_nil
    (List.append_ne_nil_of_right_ne_nil (nodes Kind.isFree (start + extent xs + size) ys)
      (List.cons_ne_nil 0 []))
  exact ⟨init, rest, p, q, before.trans List.concat_eq_append, after⟩

section Replace

variable {start size : Nat} {s s' : Heaps} {xs old new ys : Layout} {init rest : List Nat} {p q : Nat}

theorem Between.before_mem (between : Between start xs size ys init rest p q) :
    p = 0 ∨ p ∈ nodes Kind.isFree start xs := by
  have member : p ∈ 0 :: nodes Kind.isFree start xs := by
    rw [between.before]
    exact List.mem_append_right _ (List.mem_singleton_self p)
  exact List.mem_cons.mp member

theorem Between.after_mem (between : Between start xs size ys init rest p q) :
    q = 0 ∨ q ∈ nodes Kind.isFree (start + extent xs + size) ys := by
  have member : q ∈ nodes Kind.isFree (start + extent xs + size) ys ++ [0] := by
    rw [between.after]
    exact (.head _) ..
  rcases List.mem_append.mp member with node | null
  · exact .inr node
  · exact .inl (List.mem_singleton.mp null)

theorem Rep.split_records (rep : Rep start s (xs ++ old ++ ys)) :
    (∀ t ∈ placed start xs, TileOk s.mem t.1 t.2) ∧
      ∀ t ∈ placed (start + extent xs + extent old) ys, TileOk s.mem t.1 t.2 := by
  refine ⟨fun t member => ?_, fun t member => ?_⟩
  · rw [List.append_assoc] at rep
    exact rep.records_left t member
  · have right := rep.records_right t
    rw [extent_append, ← Nat.add_assoc] at right
    exact right member

theorem Between.path (between : Between start xs size ys init rest p q) {part : Layout}
    (fills : extent part = size) :
    0 :: nodes Kind.isFree start (xs ++ part ++ ys) ++ [0] =
      (init ++ [p]) ++ nodes Kind.isFree (start + extent xs) part ++ q :: rest := by
  rw [← between.before, ← between.after, nodes_append, nodes_append, extent_append, fills,
    ← Nat.add_assoc]
  simp only [List.cons_append, List.append_assoc]

theorem Rep.links (rep : Rep start s (xs ++ old ++ ys))
    (between : Between start xs (extent old) ys init rest p q) :
    Linked s.nextIn (blockPrev s.mem) 0
      (p :: nodes Kind.isFree (start + extent xs) old ++ [q]) := by
  have linked := rep.linked
  rw [between.path rfl, List.append_assoc, List.append_assoc, List.singleton_append] at linked
  have behind := (List.isChain_split.mp linked).2
  exact (List.isChain_split.mp behind).1

section

variable (between : Between start xs (extent old) ys init rest p q)
  (rep : Rep start s (xs ++ old ++ ys))
include between rep

theorem Between.bounds :
    (p = 0 ∨ 32 ≤ p ∧ p + 32 ≤ start + extent xs) ∧
      (q = 0 ∨ start + extent xs + extent old ≤ q ∧ q + 32 ≤ 2 ^ 64) := by
  obtain ⟨left, right⟩ := rep.split_records
  have above := rep.above
  have below := rep.below
  rw [extent_append, extent_append] at below
  refine ⟨between.before_mem.imp_right fun node => ?_, between.after_mem.imp_right fun node => ?_⟩
  · have bounds := node_bounds left node
    omega
  · have bounds := node_bounds right node
    omega

theorem Between.init_lt {x : Nat} (member : x ∈ init) : x + 32 ≤ p := by
  obtain ⟨left, -⟩ := rep.split_records
  have ordered : (0 :: nodes Kind.isFree start xs).Pairwise fun a b => a + 32 ≤ b := by
    refine List.pairwise_cons.mpr ⟨fun b node => ?_, nodes_pairwise left⟩
    have bounds := (node_bounds left node).1
    have above := rep.above
    omega
  rw [between.before] at ordered
  exact (List.pairwise_append.mp ordered).2.2 x member p (List.mem_singleton_self p)

theorem Between.lt_rest {y : Nat} (member : y ∈ rest) (notNull : y ≠ 0) :
    q + 32 ≤ y ∧ y ∈ nodes Kind.isFree (start + extent xs + extent old) ys := by
  obtain ⟨-, right⟩ := rep.split_records
  have after := between.after
  cases found : nodes Kind.isFree (start + extent xs + extent old) ys with
  | nil =>
    rw [found, List.nil_append, List.cons_eq_cons] at after
    rw [← after.2] at member
    exact absurd member List.not_mem_nil
  | cons b more =>
    rw [found, List.cons_append, List.cons_eq_cons] at after
    obtain ⟨rfl, same⟩ := after
    rw [← same] at member
    have later : y ∈ more := (List.mem_append.mp member).resolve_right fun null =>
      notNull (List.mem_singleton.mp null)
    have ordered := nodes_pairwise right
    rw [found] at ordered
    exact ⟨(List.pairwise_cons.mp ordered).1 y later, .tail _ later⟩

end

theorem link_not_in_record {mem : ByteMem} {tiles : Layout}
    (records : ∀ t ∈ placed start tiles, TileOk mem t.1 t.2) {t : Nat × Tile Kind}
    (member : t ∈ placed start tiles) {x : Nat} (node : x ∈ nodes Kind.isFree start tiles) {a : Nat}
    (low : t.1 ≤ a) (high : a < t.2.kind.recordEnd t.1) : ¬ (x + 16 ≤ a ∧ a < x + 32) := by
  rintro ⟨low', high'⟩
  obtain ⟨⟨kind, size⟩, found, isFree⟩ := mem_nodes.mp node
  obtain rfl := kind.isFree_iff.mp isFree
  have enough := (records _ found).free_size isFree
  rcases placed_apart member found with rfl | apart
  · exact absurd (Nat.lt_of_le_of_lt low' high) (Nat.lt_irrefl _)
  · have inside := (records _ member).recordEnd_le
    unfold Apart at apart
    dsimp only at apart enough
    omega

section

variable (change : Change (start + extent xs) (start + extent xs + extent old) p q s s')
  (between : Between start xs (extent old) ys init rest p q) (rep : Rep start s (xs ++ old ++ ys))
include change between rep

theorem Change.tileOk
    {t : Nat × Tile Kind}
    (outside : t ∈ placed start xs ∨ t ∈ placed (start + extent xs + extent old) ys) :
    TileOk s'.mem t.1 t.2 := by
  obtain ⟨left, right⟩ := rep.split_records
  obtain ⟨boundP, boundQ⟩ := between.bounds rep
  rcases outside with before | behind
  · refine (left t before).congr fun a low high => ?_
    have inside := (left t before).recordEnd_le
    have bounds := placed_bounds before
    refine change.bytes a (by omega) ?_ (by omega)
    rintro ⟨notNull, low', high'⟩
    have node := between.before_mem.resolve_left notNull
    exact link_not_in_record left before node low high ⟨by omega, by omega⟩
  · refine (right t behind).congr fun a low high => ?_
    have inside := (right t behind).recordEnd_le
    have bounds := placed_bounds behind
    refine change.bytes a (by omega) (by omega) ?_
    rintro ⟨notNull, low', high'⟩
    have node := between.after_mem.resolve_left notNull
    exact link_not_in_record right behind node low high ⟨by omega, by omega⟩

theorem Change.next_kept
    {x : Nat} (outside : x ∈ init ∨ x ∈ (q :: rest).dropLast) : s'.nextIn x = s.nextIn x := by
  obtain ⟨boundP, boundQ⟩ := between.bounds rep
  unfold Heaps.nextIn
  rcases outside with before | behind
  · have first := between.init_lt rep before
    by_cases null : x = 0
    · rw [if_pos null, if_pos null]
      exact change.head (by omega)
    · rw [if_neg null, if_neg null]
      exact blockNext_congr fun a low high => change.bytes a (by omega) (by omega) (by omega)
  · have node : x ∈ nodes Kind.isFree (start + extent xs + extent old) ys := by
      rw [← between.after, List.dropLast_concat] at behind
      exact behind
    have above := (node_bounds rep.split_records.2 node).1
    have start' := rep.above
    have notNull : x ≠ 0 := by omega
    have place : x = q ∨ q + 32 ≤ x :=
      (List.mem_cons.mp (List.mem_of_mem_dropLast behind)).imp_right fun later =>
        (between.lt_rest rep later notNull).1
    rw [if_neg notNull, if_neg notNull]
    exact blockNext_congr fun a low high => change.bytes a (by omega) (by omega) (by omega)

theorem Change.prev_kept
    {y : Nat} (outside : y ∈ (init ++ [p]).tail ∨ y ∈ rest) (notNull : y ≠ 0) :
    blockPrev s'.mem y = blockPrev s.mem y := by
  obtain ⟨boundP, boundQ⟩ := between.bounds rep
  refine blockPrev_congr fun a low high => ?_
  rcases outside with before | behind
  · have place : y + 32 ≤ p ∨ y = p :=
      (List.mem_append.mp (List.mem_of_mem_tail before)).imp (between.init_lt rep)
        List.mem_singleton.mp
    rw [← between.before, List.tail_cons] at before
    have bounds := node_bounds rep.split_records.1 before
    exact change.bytes a (by omega) (by omega) (by omega)
  · obtain ⟨later, node⟩ := between.lt_rest rep behind notNull
    have bounds := node_bounds rep.split_records.2 node
    exact change.bytes a (by omega) (by omega) (by omega)

end

theorem Rep.replace (rep : Rep start s (xs ++ old ++ ys))
    (between : Between start xs (extent old) ys init rest p q)
    (change : Change (start + extent xs) (start + extent xs + extent old) p q s s')
    (sameSize : extent new = extent old)
    (middle : Linked s'.nextIn (blockPrev s'.mem) 0
      (p :: nodes Kind.isFree (start + extent xs) new ++ [q]))
    (records : ∀ t ∈ placed (start + extent xs) new, TileOk s'.mem t.1 t.2) :
    Rep start s' (xs ++ new ++ ys) := by
  have total : extent (xs ++ new ++ ys) = extent (xs ++ old ++ ys) := by
    rw [extent_append, extent_append, extent_append, extent_append, sameSize]
  refine ⟨rep.above, total ▸ rep.below, fun t member => ?_, ?_, ?_,
    change.size.trans (rep.size.trans total.symm)⟩
  · rw [placed_append, placed_append, extent_append, sameSize, ← Nat.add_assoc] at member
    rcases List.mem_append.mp member with inner | behind
    · rcases List.mem_append.mp inner with before | inside
      · exact change.tileOk between rep (.inl before)
      · exact records t inside
    · exact change.tileOk between rep (.inr behind)
  · have linked := rep.linked
    rw [between.path rfl] at linked
    rw [between.path sameSize]
    exact linked.splice middle (fun x outside => change.next_kept between rep outside)
      fun y outside notNull => change.prev_kept between rep outside notNull
  · rw [change.dma, total]
    exact rep.dma

end Replace

end Cboot.Malloc
