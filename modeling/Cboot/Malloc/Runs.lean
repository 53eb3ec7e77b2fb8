/-
**Runs of the heap.**

A run is any sequence of calls on one heap: allocations of every kind, frees of what is held, and
writes of the callers into what they hold.
-/

import Cboot.Malloc.Free

namespace Cboot.Malloc

open LinkedList Tiling

/-! ### Runs -/

def hold (ptr size : Nat) (held : List Allocation) : List Allocation :=
  if ptr = 0 then held else ⟨ptr, size⟩ :: held

/-- A run of the heap of `size` bytes at `start`: the state it has reached, what is held and how many
bytes the calls of `tegrabl_memalign` have lost. The null page is not part of the heap. -/
inductive Run (start size : Nat) : Heaps → List Allocation → Nat → Prop
  | init {s s' : Heaps} (above : 32 ≤ start) (below : start + size ≤ 2 ^ 64)
      (dma : s.freeList .dma < start ∨ start + size ≤ s.freeList .dma)
      (called : tegrablHeapInit s .default start size = (.ok (), s')) : Run start size s' [] 0
  | malloc {s s' : Heaps} {held : List Allocation} {lost ptr : Nat} (n : Nat)
      (run : Run start size s held lost) (called : tegrablMalloc s n = some (ptr, s')) :
      Run start size s' (hold ptr n held) lost
  | calloc {s s' : Heaps} {held : List Allocation} {lost ptr : Nat} (nmemb n : Nat)
      (run : Run start size s held lost) (called : tegrablCalloc s nmemb n = some (ptr, s')) :
      Run start size s' (hold ptr (n * nmemb) held) lost
  | memalign {s s' : Heaps} {held : List Allocation} {lost ptr : Nat} (alignment n : Nat)
      (positive : 0 < alignment) (run : Run start size s held lost)
      (called : tegrablMemalign s alignment n = some (ptr, s')) :
      Run start size s' (hold ptr n held) (lost + leakOf s alignment n)
  | free {s s' : Heaps} {held : List Allocation} {lost : Nat} (x : Allocation) (member : x ∈ held)
      (run : Run start size s held lost) (called : tegrablFree s x.ptr = some s') :
      Run start size s' (held.erase x) lost
  | write {s : Heaps} {held : List Allocation} {lost : Nat} (mem : ByteMem)
      (run : Run start size s held lost)
      (inside : ∀ a, start ≤ a → a < start + size →
        (∀ x ∈ held, ¬ (x.ptr ≤ a ∧ a < x.ptr + x.size)) → mem a = s.mem a) :
      Run start size { s with mem := mem } held lost

structure Laid (start size : Nat) (s : Heaps) (held : List Allocation) (lost : Nat)
    (tiles : Layout) : Prop where
  rep : Rep start s tiles
  enough : minSize ≤ size
  fills : extent tiles = size
  separate : Separate Kind.isFree tiles
  held : held.Perm (allocations tiles)
  lost : lostBytes tiles = lost

section Steps

variable {start size : Nat} {s s' : Heaps} {held : List Allocation} {lost : Nat} {tiles : Layout}

theorem rep_init (above : 32 ≤ start) (below : start + size ≤ 2 ^ 64)
    (dma : s.freeList .dma < start ∨ start + size ≤ s.freeList .dma)
    (called : tegrablHeapInit s .default start size = (.ok (), s')) :
    Rep start s' [⟨.free, size⟩] ∧ minSize ≤ size := by
  unfold tegrablHeapInit at called
  by_cases small : size < minSize
  · rw [if_pos small] at called
    cases called
  by_cases exists' : s.freeList .default ≠ 0
  · rw [if_neg small, if_pos exists'] at called
    cases called
  rw [if_neg small, if_neg exists'] at called
  have enough : 32 ≤ size := Nat.not_lt.mp small
  cases called
  refine ⟨⟨above, below, fun t member => ?_, ?_, ?_, ?_⟩, enough⟩
  · rw [List.mem_singleton.mp member]
    refine ⟨enough, word32_store _ _ _, ?_⟩
    simp (disch := omega) [Heaps.write, Heaps.setHead]
  · have notNull : start ≠ 0 := by omega
    rw [nodes_cons_node rfl]
    refine List.isChain_cons_cons.mpr ⟨⟨?_, fun _ => ?_⟩, List.isChain_pair.mpr ⟨?_, ?_⟩⟩
    · rw [Heaps.nextIn, if_pos rfl]
      exact Function.update_self HeapType.default start s.freeList
    · simp (disch := omega) [Heaps.write, Heaps.setHead]
    · rw [Heaps.nextIn, if_neg notNull]
      simp (disch := omega) [Heaps.write, Heaps.setHead]
    · exact fun no => absurd rfl no
  · have other : HeapType.dma ≠ .default := fun same => by cases same
    have kept : (Function.update s.freeList .default start) .dma = s.freeList .dma :=
      Function.update_of_ne other start s.freeList
    rw [extent_singleton]
    exact kept.symm ▸ dma
  · rw [extent_singleton]
    exact Function.update_self HeapType.default size s.maxHeapSize

theorem Laid.answer {leak ptr n : Nat} {result : Option (Nat × Heaps)}
    (laid : Laid start size s held lost tiles) (answers : Answers start s tiles n leak result)
    (called : result = some (ptr, s')) :
    ∃ tiles', Laid start size s' (hold ptr n held) (lost + leak) tiles' := by
  unfold hold
  rcases answers with ⟨null, noLeak⟩ | ⟨ptr', s'', tiles', given, notNull, rep', gave⟩
  · rw [called] at null
    cases null
    rw [if_pos rfl, noLeak, Nat.add_zero]
    exact ⟨tiles, laid⟩
  · rw [called] at given
    cases given
    rw [if_neg notNull]
    exact ⟨tiles', rep', laid.enough, gave.extent.trans laid.fills, gave.separate laid.separate,
      (laid.held.cons _).trans gave.allocations.symm, by rw [gave.lost, laid.lost]⟩

theorem Run.laid (run : Run start size s held lost) :
    ∃ tiles, Laid start size s held lost tiles := by
  induction run with
  | init above below dma called =>
    obtain ⟨rep, enough⟩ := rep_init above below dma called
    exact ⟨[⟨.free, size⟩], rep, enough, Nat.add_zero size,
      List.isChain_singleton _, List.Perm.refl _, rfl⟩
  | malloc n run called ih =>
    obtain ⟨tiles, laid⟩ := ih
    exact laid.answer (laid.rep.malloc n) called
  | calloc nmemb n run called ih =>
    obtain ⟨tiles, laid⟩ := ih
    exact laid.answer (laid.rep.calloc nmemb n) called
  | memalign alignment n positive run called ih =>
    obtain ⟨tiles, laid⟩ := ih
    exact laid.answer (laid.rep.memalign positive n).1 called
  | free x member run called ih =>
    obtain ⟨tiles, laid⟩ := ih
    obtain ⟨s'', tiles', freed, rep', returned⟩ :=
      laid.rep.free laid.separate (laid.held.mem_iff.mp member)
    rw [called] at freed
    cases freed
    refine ⟨tiles', rep', laid.enough, returned.extent.trans laid.fills, returned.separate, ?_,
      returned.lost.trans laid.lost⟩
    have erased := (laid.held.trans returned.allocations.symm).erase x
    rwa [List.erase_cons_head] at erased
  | write mem run inside ih =>
    obtain ⟨tiles, laid⟩ := ih
    refine ⟨tiles, laid.rep.write fun a low high outside => ?_, laid.enough, laid.fills,
      laid.separate, laid.held, laid.lost⟩
    rw [laid.fills] at high
    exact inside a low high fun x member => outside x (laid.held.mem_iff.mp member)

end Steps

/-! ### The free list -/

def walk (mem : ByteMem) : Nat → Nat → List (Nat × Nat)
  | 0, _ => []
  | rounds + 1, block =>
    if block = 0 then [] else (block, blockSize mem block) :: walk mem rounds (blockNext mem block)

def Heaps.freeBlocks (s : Heaps) : List (Nat × Nat) :=
  walk s.mem (s.rounds .default) (s.freeList .default)

theorem walk_list (s : Heaps) {l : List Nat} {x rounds : Nat}
    (linked : Linked s.nextIn (blockPrev s.mem) 0 (x :: l ++ [0])) (notNull : ∀ y ∈ l, y ≠ 0)
    (enough : l.length < rounds) :
    walk s.mem rounds (s.nextIn x) = l.map fun y => (y, blockSize s.mem y) := by
  induction l generalizing x rounds with
  | nil =>
    obtain ⟨rounds, rfl⟩ := Nat.exists_eq_add_of_lt enough
    rw [(List.isChain_pair.mp linked).1, walk, if_pos rfl]
    rfl
  | cons y l ih =>
    obtain ⟨points, rest⟩ := List.isChain_cons_cons.mp linked
    have here := notNull y (.head _ ..)
    cases rounds with
    | zero => exact absurd enough (Nat.not_lt_zero _)
    | succ rounds =>
      have more := ih rest (fun z member => notNull z (.tail _ member))
        (Nat.lt_of_succ_lt_succ enough)
      rw [Heaps.nextIn, if_neg here] at more
      rw [points.1, walk, if_neg here, more]
      rfl

section Free

variable {start : Nat} {s : Heaps} {tiles : Layout}

theorem Rep.freeBlocks (rep : Rep start s tiles) :
    s.freeBlocks = (nodeTiles Kind.isFree start tiles).map fun p => (p.1, p.2.size) := by
  have above := rep.above
  have notNull : ∀ y ∈ nodes Kind.isFree start tiles, y ≠ 0 := fun y node => by
    have bounds := node_bounds rep.records node
    omega
  have walked : s.freeBlocks =
      (nodes Kind.isFree start tiles).map fun y => (y, blockSize s.mem y) :=
    walk_list s rep.linked notNull rep.rounds
  rw [walked, nodes, List.map_map]
  refine List.map_congr_left ?_
  rintro ⟨addr, kind, n⟩ member
  obtain ⟨found, free⟩ := List.mem_filter.mp member
  obtain rfl := kind.isFree_iff.mp free
  exact congrArg (Prod.mk addr) (rep.records _ found).2.2

end Free

/-! ### The invariant -/

def blockOf (s : Heaps) (x : Allocation) : Nat × Nat :=
  (blockStart s.mem (x.ptr - sizeofAllocBlock), blockSize s.mem (x.ptr - sizeofAllocBlock))

def RangesApart (b c : Nat × Nat) : Prop := b.1 + b.2 ≤ c.1 ∨ c.1 + c.2 ≤ b.1

/-- The free list is linked both ways, sorted, inside the heap, with blocks large enough that
neither overlap nor touch; the held blocks overlap neither each other nor a free block, and hold the
bytes that were asked for. -/
structure HeapOk (start size : Nat) (s : Heaps) (held : List Allocation) : Prop where
  linked : Linked s.nextIn (blockPrev s.mem) 0 (0 :: s.freeBlocks.map Prod.fst ++ [0])
  sorted : s.freeBlocks.Pairwise fun b c => b.1 + b.2 < c.1
  inside : ∀ b ∈ s.freeBlocks, minSize ≤ b.2 ∧ start ≤ b.1 ∧ b.1 + b.2 ≤ start + size
  heldApart : held.Pairwise fun x y => RangesApart (blockOf s x) (blockOf s y)
  heldFree : ∀ x ∈ held, ∀ b ∈ s.freeBlocks, RangesApart (blockOf s x) b
  heldInside : ∀ x ∈ held, start ≤ (blockOf s x).1 ∧ (blockOf s x).1 + sizeofAllocBlock ≤ x.ptr ∧
    x.ptr + x.size ≤ (blockOf s x).1 + (blockOf s x).2 ∧
    (blockOf s x).1 + (blockOf s x).2 ≤ start + size

section Invariant

variable {start size : Nat} {s : Heaps} {held : List Allocation} {lost : Nat} {tiles : Layout}

theorem TileOk.blockOf {addr : Nat} {t : Tile Kind} {x : Allocation} (ok : TileOk s.mem addr t)
    (given : t.kind.allocation = some x) : blockOf s x = (addr, t.size) := by
  obtain ⟨kind, n⟩ := t
  cases kind with
  | free | lost => cases given
  | live record asked =>
    cases given
    obtain ⟨-, -, -, -, -, sizeIs, startIs⟩ := ok
    unfold Malloc.blockOf
    rw [Nat.add_sub_cancel, startIs, sizeIs]

theorem allocations_placed (start : Nat) (tiles : Layout) :
    (placed start tiles).filterMap (fun p => p.2.kind.allocation) = allocations tiles := by
  conv_rhs => rw [allocations, ← map_placed start tiles, List.filterMap_map]
  rfl

theorem Rep.allocations_apart (rep : Rep start s tiles) :
    (allocations tiles).Pairwise fun x y => RangesApart (blockOf s x) (blockOf s y) := by
  rw [← allocations_placed start tiles, List.pairwise_filterMap]
  refine (placed_pairwise start tiles).imp_of_mem fun {p q} first second behind x hx y hy => ?_
  rw [(rep.records p first).blockOf hx, (rep.records q second).blockOf hy]
  exact .inl behind

theorem Laid.heapOk (laid : Laid start size s held lost tiles) : HeapOk start size s held := by
  have rep := laid.rep
  have blocks := rep.freeBlocks
  have found : ∀ b ∈ s.freeBlocks, ∃ p ∈ placed start tiles, p.2.kind.isFree = true ∧
      b = (p.1, p.2.size) := by
    intro b member
    rw [blocks] at member
    obtain ⟨p, inNodes, rfl⟩ := List.mem_map.mp member
    obtain ⟨inTiles, free⟩ := List.mem_filter.mp inNodes
    exact ⟨p, inTiles, free, rfl⟩
  have holder : ∀ x ∈ held, ∃ p ∈ placed start tiles, p.2.kind.allocation = some x ∧
      blockOf s x = (p.1, p.2.size) := by
    intro x member
    obtain ⟨p, inTiles, given⟩ := mem_allocations.mp (laid.held.mem_iff.mp member)
    exact ⟨p, inTiles, given, (rep.records p inTiles).blockOf given⟩
  refine ⟨?_, ?_, fun b member => ?_, ?_, fun x member b free => ?_, fun x member => ?_⟩
  · rw [blocks, List.map_map]
    exact rep.linked
  · rw [blocks, List.pairwise_map]
    refine nodes_separated laid.separate fun t member => ?_
    rw [← map_placed start tiles] at member
    obtain ⟨p, inTiles, rfl⟩ := List.mem_map.mp member
    exact (rep.records p inTiles).positive
  · obtain ⟨p, inTiles, free, rfl⟩ := found b member
    have bounds := placed_bounds inTiles
    rw [laid.fills] at bounds
    exact ⟨(rep.records p inTiles).free_size free, bounds⟩
  · have symmetric : ∀ {x y : Allocation}, RangesApart (blockOf s x) (blockOf s y) →
        RangesApart (blockOf s y) (blockOf s x) := Or.symm
    exact (laid.held.pairwise_iff symmetric).mpr rep.allocations_apart
  · obtain ⟨p, inTiles, given, same⟩ := holder x member
    obtain ⟨u, inTiles', isFree, rfl⟩ := found b free
    rw [same]
    rcases placed_apart inTiles inTiles' with rfl | apart
    · rw [p.2.kind.isFree_iff.mp isFree] at given
      cases given
    · exact apart
  · obtain ⟨p, inTiles, given, same⟩ := holder x member
    obtain ⟨-, inside, behind⟩ := (rep.records p inTiles).allocation given
    have bounds := placed_bounds inTiles
    rw [laid.fills] at bounds
    rw [same]
    exact ⟨bounds.1, behind, inside, bounds.2⟩

theorem Answers.returns {n leak : Nat} {result : Option (Nat × Heaps)}
    (answers : Answers start s tiles n leak result) : ∃ outcome, result = some outcome := by
  rcases answers with ⟨null, -⟩ | ⟨ptr, s', tiles', given, -⟩
  · exact ⟨_, null⟩
  · exact ⟨_, given⟩

/-- **The heap is in order after every call of a run**, and every further call returns. -/
theorem heap_invariant (run : Run start size s held lost) :
    HeapOk start size s held ∧
      (∀ n, ∃ result, tegrablMalloc s n = some result) ∧
      (∀ nmemb n, ∃ result, tegrablCalloc s nmemb n = some result) ∧
      (∀ alignment n, 0 < alignment →
        ∃ result, tegrablMemalign s alignment n = some result ∧ result.1 % alignment = 0) ∧
      ∀ x ∈ held, ∃ s', tegrablFree s x.ptr = some s' := by
  obtain ⟨tiles, laid⟩ := run.laid
  refine ⟨laid.heapOk, fun n => (laid.rep.malloc n).returns,
    fun nmemb n => (laid.rep.calloc nmemb n).returns, fun alignment n positive => ?_,
    fun x member => ?_⟩
  · obtain ⟨answers, aligned⟩ := laid.rep.memalign positive n
    obtain ⟨result, returned⟩ := answers.returns
    exact ⟨result, returned, aligned result returned⟩
  · obtain ⟨s', tiles', freed, -⟩ := laid.rep.free laid.separate (laid.held.mem_iff.mp member)
    exact ⟨s', freed⟩

end Invariant

/-! ### Runs on a small heap -/

def noHeap : Heaps where
  mem := fun _ => 0
  freeList := fun _ => 0
  maxHeapSize := fun _ => 0

def smallHeap : Heaps := (tegrablHeapInit noHeap .default 4096 96).2

theorem run_smallHeap : Run 4096 96 smallHeap [] 0 :=
  Run.init (by decide) (by decide) (.inl (by decide)) (Prod.ext (by decide) rfl)

/-- The heap after one aligned allocation is in order. -/
theorem heap_invariant_aligned : ∃ s, tegrablMemalign smallHeap 64 8 = some (4160, s) ∧
    HeapOk 4096 96 s [⟨4160, 8⟩] := by
  have pointer : (tegrablMemalign smallHeap 64 8).map Prod.fst = some 4160 := by decide +kernel
  obtain ⟨⟨_, s⟩, called, rfl⟩ := Option.map_eq_some_iff.mp pointer
  exact ⟨s, called, (heap_invariant (run_smallHeap.memalign 64 8 (by decide) called)).1⟩

/-! ### Conservation -/

section Conservation

variable {start size : Nat} {s : Heaps} {held : List Allocation} {lost : Nat} {tiles : Layout}

theorem extent_eq (blockSize : Allocation → Nat) (tiles : Layout)
    (sizes : ∀ t ∈ tiles, ∀ x, t.kind.allocation = some x → blockSize x = t.size) :
    extent tiles = extent (tiles.filter fun t => t.kind.isFree) +
      ((allocations tiles).map blockSize).sum + lostBytes tiles := by
  induction tiles with
  | nil => rfl
  | cons t tiles ih =>
    obtain ⟨kind, n⟩ := t
    have rest := ih fun u member => sizes u (.tail _ member)
    rw [extent_cons, rest]
    cases kind with
    | free =>
      show n + _ = n + extent _ + ((allocations tiles).map blockSize).sum + lostBytes tiles
      omega
    | live record asked =>
      have own := sizes _ (.head _ ..) _ rfl
      dsimp only at own
      show n + _ = extent (tiles.filter fun t => t.kind.isFree) +
        (blockSize _ + ((allocations tiles).map blockSize).sum) + lostBytes tiles
      rw [own]
      omega
    | lost =>
      show n + _ = extent (tiles.filter fun t => t.kind.isFree) +
        ((allocations tiles).map blockSize).sum + (n + lostBytes tiles)
      omega

theorem Laid.accounts (laid : Laid start size s held lost tiles) :
    (s.freeBlocks.map Prod.snd).sum + (held.map fun x => (blockOf s x).2).sum + lost = size := by
  have free : (s.freeBlocks.map Prod.snd).sum = extent (tiles.filter fun t => t.kind.isFree) := by
    rw [laid.rep.freeBlocks, ← map_nodeTiles start tiles, extent, List.map_map, List.map_map]
    rfl
  have inUse : (held.map fun x => (blockOf s x).2).sum =
      ((allocations tiles).map fun x => (blockOf s x).2).sum := (laid.held.map _).sum_eq
  have total := extent_eq (fun x => (blockOf s x).2) tiles fun t member x given => by
    rw [← map_placed start tiles] at member
    obtain ⟨p, inTiles, rfl⟩ := List.mem_map.mp member
    exact congrArg Prod.snd ((laid.rep.records p inTiles).blockOf given)
  rw [free, inUse, ← laid.lost, ← total, laid.fills]

theorem Laid.single (laid : Laid start size s [] 0 tiles) : tiles = [⟨.free, size⟩] := by
  have none : allocations tiles = [] := laid.held.nil_eq.symm
  have free : ∀ t ∈ tiles, t.kind = .free := by
    rintro ⟨kind, n⟩ member
    cases kind with
    | free => rfl
    | live record asked =>
      have given : (⟨record + sizeofAllocBlock, asked⟩ : Allocation) ∈ allocations tiles :=
        List.mem_filterMap.mpr ⟨_, member, rfl⟩
      rw [none] at given
      exact absurd given List.not_mem_nil
    | lost =>
      obtain ⟨xs, ys, rfl⟩ := List.append_of_mem member
      have noByte := laid.lost
      have inTiles : (start + extent xs, (⟨.lost, n⟩ : Tile Kind)) ∈
          placed start (xs ++ ⟨.lost, n⟩ :: ys) := by
        rw [placed_append]
        exact List.mem_append_right _ (.head _ ..)
      have positive : 0 < n := (laid.rep.records _ inTiles).positive
      have counted : lostBytes (⟨.lost, n⟩ :: ys) = n + lostBytes ys := rfl
      rw [lostBytes_append, counted] at noByte
      omega
  have enough := laid.enough
  have fills := laid.fills
  cases tiles with
  | nil =>
    rw [extent_nil] at fills
    exact absurd (fills ▸ enough) (by decide)
  | cons t rest =>
    obtain ⟨kind, n⟩ := t
    obtain rfl : kind = .free := free _ (.head _ ..)
    cases rest with
    | nil =>
      rw [extent_singleton] at fills
      exact congrArg (fun k => [(⟨.free, k⟩ : Tile Kind)]) fills
    | cons u rest =>
      have second := free u (.tail _ (.head _ ..))
      have apart := (List.isChain_cons_cons.mp laid.separate).1
      exact absurd ⟨rfl, u.kind.isFree_iff.mpr second⟩ apart

/-- **No byte is lost** exactly when no call of `tegrabl_memalign` has lost one: the free and the
held blocks then add up to the heap, and without held blocks the heap is one free block again. -/
theorem conservation_iff (run : Run start size s held lost) :
    ((s.freeBlocks.map Prod.snd).sum + (held.map fun x => (blockOf s x).2).sum = size ↔ lost = 0) ∧
      (held = [] → (s.freeBlocks = [(start, size)] ↔ lost = 0)) := by
  obtain ⟨tiles, laid⟩ := run.laid
  have accounts := laid.accounts
  refine ⟨by omega, ?_⟩
  rintro rfl
  constructor
  · intro whole
    rw [whole] at accounts
    simpa using accounts
  · rintro rfl
    obtain rfl := laid.single
    rw [laid.rep.freeBlocks]
    rfl

end Conservation

/-- **Bytes that are lost.** In a heap of 96 bytes an allocation of 8 bytes at a multiple of 64 skips
40 bytes and takes 32; the other 24 are too few for a free block. They are gone when the allocation
is freed. -/
theorem memalign_loses_bytes : ∃ s s', tegrablMemalign smallHeap 64 8 = some (4160, s) ∧
    tegrablFree s 4160 = some s' ∧ Run 4096 96 s' [] 24 ∧ s'.freeBlocks = [(4096, 72)] := by
  have evaluated : ((tegrablMemalign smallHeap 64 8).bind fun result =>
      (tegrablFree result.2 result.1).map fun s' => (result.1, s'.freeBlocks)) =
      some (4160, [(4096, 72)]) := by decide +kernel
  have leak : leakOf smallHeap 64 8 = 24 := by decide +kernel
  obtain ⟨⟨ptr, s⟩, called, rest⟩ := Option.bind_eq_some_iff.mp evaluated
  obtain ⟨s', freed, same⟩ := Option.map_eq_some_iff.mp rest
  obtain ⟨rfl, blocks⟩ := Prod.mk.inj same
  have given := run_smallHeap.memalign 64 8 (by decide) called
  rw [leak] at given
  exact ⟨s, s', called, freed, given.free ⟨4160, 8⟩ (.head _ ..) freed, blocks⟩

/-- Plain allocations lose nothing. -/
theorem conservation_iff_malloc : ∃ s, tegrablMalloc smallHeap 8 = some (4120, s) ∧
    (s.freeBlocks.map Prod.snd).sum + (blockOf s ⟨4120, 8⟩).2 = 96 := by
  have pointer : (tegrablMalloc smallHeap 8).map Prod.fst = some 4120 := by decide +kernel
  obtain ⟨⟨_, s⟩, called, rfl⟩ := Option.map_eq_some_iff.mp pointer
  exact ⟨s, called, (conservation_iff (run_smallHeap.malloc 8 called)).1.mpr rfl⟩

end Cboot.Malloc
