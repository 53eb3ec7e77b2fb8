/-
**Freeing.**

`tegrabl_free` puts the block of an allocation back into the list and joins it with the free blocks
that touch it.
-/

import Cboot.Malloc.Allocate

namespace Cboot.Malloc

open LinkedList Tiling

/-! ### The place of a block in the list -/

theorem findPlace_list (s : Heaps) {ptr q : Nat} {l init : List Nat} {x p rounds : Nat}
    (linked : Linked s.nextIn (blockPrev s.mem) 0 (x :: l ++ [q]))
    (before : ∀ y ∈ l, y ≠ 0 ∧ y < ptr) (behind : q = 0 ∨ ptr ≤ q) (enough : l.length < rounds)
    (last : x :: l = init ++ [p]) :
    findPlace s.mem ptr rounds x (s.nextIn x) = some (p, q) := by
  induction l generalizing x rounds init with
  | nil =>
    obtain ⟨rounds, rfl⟩ := Nat.exists_eq_add_of_lt enough
    have next : s.nextIn x = q := (List.isChain_pair.mp linked).1
    have same : x = p := by
      rw [← List.nil_append [x]] at last
      exact (List.cons_eq_cons.mp (List.append_inj_right' last rfl)).1
    rw [next, findPlace, if_neg (by omega), same]
  | cons y l ih =>
    obtain ⟨points, rest⟩ := List.isChain_cons_cons.mp linked
    obtain ⟨notNull, low⟩ := before y (.head _ ..)
    cases rounds with
    | zero => exact absurd enough (Nat.not_lt_zero _)
    | succ rounds =>
      have next : s.nextIn y = blockNext s.mem y := if_neg notNull
      rw [points.1, findPlace, if_pos ⟨notNull, low⟩, ← next]
      cases init with
      | nil => exact absurd (List.cons_eq_cons.mp last).2 (List.cons_ne_nil y l)
      | cons z init =>
        exact ih rest (fun w member => before w (.tail _ member))
          (Nat.lt_of_succ_lt_succ enough) (List.cons_eq_cons.mp last).2

section Place

variable {start : Nat} {s : Heaps} {xs old ys : Layout} {init rest : List Nat} {p q : Nat}

theorem Rep.findPlace (rep : Rep start s (xs ++ old ++ ys))
    (between : Between start xs (extent old) ys init rest p q)
    (none : nodes Kind.isFree (start + extent xs) old = []) {ptr : Nat}
    (low : start + extent xs ≤ ptr) (high : ptr ≤ start + extent xs + extent old) :
    findPlace s.mem ptr (s.rounds .default) 0 (s.freeList .default) = some (p, q) := by
  have above := rep.above
  obtain ⟨-, boundQ⟩ := between.bounds rep
  have linked := rep.linked
  rw [between.path rfl, none, List.append_nil, ← between.before] at linked
  have front := (List.isChain_split.mp linked).1
  have fewer : (nodes Kind.isFree start xs).length < s.rounds .default := by
    refine Nat.lt_of_le_of_lt ?_ rep.rounds
    rw [List.append_assoc, nodes_append, List.length_append]
    exact Nat.le_add_right _ _
  refine findPlace_list s front (fun y node => ?_) (by omega) fewer between.before
  have bounds := node_bounds rep.split_records.1 node
  omega

end Place

/-! ### Joining blocks that touch -/

section Join

variable {start n m : Nat} {s : Heaps} {xs ys : Layout} {init rest : List Nat} {p q : Nat}

def joinedMem (mem : ByteMem) (block size q : Nat) : ByteMem :=
  linkPrev q block (setNext (setSize mem block size) block q)

theorem joinNext_eq (mem : ByteMem) {block q : Nat} (least : 32 ≤ n)
    (sizes : blockSize mem block = n ∧ blockSize mem (block + n) = m) (bound : n + m < 2 ^ 64)
    (next : blockNext mem (block + n) = q) :
    joinNext mem block (block + n) = joinedMem mem block (n + m) q := by
  have sum : wadd (blockSize mem block) (blockSize mem (block + n)) = n + m := by
    rw [sizes.1, sizes.2]
    exact Nat.mod_eq_of_lt bound
  have first : ∀ size, blockNext (setSize mem block size) (block + n) = q := by
    intro size
    rw [← next]
    simp (disch := omega)
  have second : ∀ size, blockNext (setNext (setSize mem block size) block q) (block + n) = q := by
    intro size
    rw [← next]
    simp (disch := omega)
  unfold joinNext joinedMem
  simp only [sum, first, second]

theorem Rep.join (rep : Rep start s (xs ++ [⟨.free, n⟩, ⟨.free, m⟩] ++ ys)) :
    Rep start { s with mem := joinNext s.mem (start + extent xs) (start + extent xs + n) }
      (xs ++ [⟨.free, n + m⟩] ++ ys) := by
  obtain ⟨init, rest, p, q, between⟩ := exists_between start xs
    (extent [⟨Kind.free, n⟩, ⟨.free, m⟩]) ys
  obtain ⟨boundP, boundQ⟩ := between.bounds rep
  have above := rep.above
  have first : Rep start s (xs ++ [⟨.free, n⟩] ++ (⟨.free, m⟩ :: ys)) := by
    simpa only [List.append_assoc, List.cons_append, List.nil_append] using rep
  have second : Rep start s ((xs ++ [⟨.free, n⟩]) ++ [⟨.free, m⟩] ++ ys) := by
    simpa only [List.append_assoc, List.cons_append, List.nil_append] using rep
  obtain ⟨enough, magic, sizeIs, -, -⟩ := first.freeRecord
  obtain ⟨-, -, sizeNext, below, -⟩ := second.freeRecord
  have place : start + extent (xs ++ [⟨Kind.free, n⟩]) = start + extent xs + n := by
    rw [extent_append, ← Nat.add_assoc]
    rfl
  rw [place] at sizeNext below
  have links := rep.links between
  rw [nodes_cons_node rfl, nodes_cons_node rfl] at links
  obtain ⟨toFirst, rest'⟩ := List.isChain_cons_cons.mp links
  obtain ⟨-, rest''⟩ := List.isChain_cons_cons.mp rest'
  obtain ⟨next, -⟩ := List.isChain_pair.mp rest''
  have notNull : start + extent xs ≠ 0 := by omega
  have prev := toFirst.2 notNull
  have nextIs : blockNext s.mem (start + extent xs + n) = q := by
    rw [Heaps.nextIn, if_neg (by dsimp only; omega)] at next
    exact next
  rw [joinNext_eq s.mem enough ⟨sizeIs, sizeNext⟩ (by omega) nextIs, ← relink_self toFirst.1]
  simp only [extent_cons, extent_nil, Nat.add_zero] at boundQ
  refine rep.relinkIn between (fun a outside linkP linkQ => ?_) ?_ (nodes_cons_node rfl _ _) notNull
    (fun notNull => ?_) (fun notNull => ?_) ?_ ?_ fun t member => ?_
  · simp only [extent_cons, extent_nil, Nat.add_zero] at outside
    simp (disch := omega) [joinedMem]
  · simp only [extent_cons, extent_nil, Nat.add_zero]
  · have before := toFirst.1
    rw [Heaps.nextIn, if_neg notNull] at before
    refine Eq.trans ?_ before
    simp (disch := omega) [joinedMem]
  · rw [joinedMem, linkPrev, if_pos notNull]
    exact toNat_word64_store _ _ (by omega)
  · simp (disch := omega) [joinedMem]
  · rw [← prev]
    simp (disch := omega) [joinedMem]
  · rw [List.mem_singleton.mp member]
    refine ⟨Nat.le_trans enough (Nat.le_add_right n m), ?_, ?_⟩
    · rw [← magic]
      simp (disch := omega) [joinedMem]
    · simp (disch := omega) [joinedMem]

variable (rep : Rep start s (xs ++ [⟨.free, n⟩] ++ ys))
  (between : Between start xs (extent [⟨Kind.free, n⟩]) ys init rest p q)
include rep between

theorem Rep.touches_next :
    (q ≠ 0 ∧ wadd (start + extent xs) n = q) ↔ ∃ m zs, ys = ⟨.free, m⟩ :: zs := by
  have above := rep.above
  have after := between.after
  have records := rep.split_records.2
  rw [show extent [⟨Kind.free, n⟩] = n from rfl] at after records
  have wraps : wadd (start + extent xs) n ≤ start + extent xs + n := Nat.mod_le _ _
  cases ys with
  | nil =>
    have null : 0 = q := (List.cons_eq_cons.mp after).1
    exact ⟨fun touch => absurd null.symm touch.1, fun ⟨m, zs, no⟩ => by cases no⟩
  | cons t zs =>
    obtain ⟨kind, m⟩ := t
    have first := (records _ (.head _ ..)).positive
    dsimp only at first
    have below := rep.below
    simp only [extent_append, extent_cons, extent_nil] at below
    cases free : kind.isFree with
    | true =>
      obtain rfl := kind.isFree_iff.mp free
      rw [nodes_cons_node rfl] at after
      have place : start + extent xs + n = q := (List.cons_eq_cons.mp after).1
      have exact' : wadd (start + extent xs) n = start + extent xs + n :=
        Nat.mod_eq_of_lt (by omega)
      exact ⟨fun _ => ⟨m, zs, rfl⟩, fun _ => ⟨by omega, exact'.trans place⟩⟩
    | false =>
      -- the next free block lies behind a tile that is not free
      rw [nodes_cons_other free] at after
      refine ⟨fun touch => ?_, fun ⟨m, zs, same⟩ => ?_⟩
      · have member : q ∈ nodes Kind.isFree (start + extent xs + n + m) zs ++ [0] := by
          rw [after]
          exact (.head _) ..
        have node := (List.mem_append.mp member).resolve_right fun null =>
          touch.1 (List.mem_singleton.mp null)
        have bound := (placed_bounds (mem_nodes.mp node).choose_spec.1).1
        dsimp only at bound
        omega
      · cases same
        cases free

theorem Rep.touches_prev :
    (p ≠ 0 ∧ wadd p (blockSize s.mem p) = start + extent xs) ↔
      ∃ zs m, xs = zs ++ [⟨.free, m⟩] := by
  have above := rep.above
  have records := rep.split_records.1
  obtain ⟨enough, -, -, below, -⟩ := rep.freeRecord
  constructor
  · rintro ⟨notNull, touch⟩
    obtain ⟨⟨kind, m⟩, member, free⟩ := mem_nodes.mp (between.before_mem.resolve_left notNull)
    obtain rfl := kind.isFree_iff.mp free
    have sizeIs : blockSize s.mem p = m := (records _ member).2.2
    have bounds := placed_bounds member
    dsimp only at bounds
    have sum : wadd p m = p + m := Nat.mod_eq_of_lt (by omega)
    rw [sizeIs, sum] at touch
    obtain ⟨zs, ws, split, place⟩ := placed_split member
    cases ws with
    | nil => exact ⟨zs, m, split.trans (List.append_nil _)⟩
    | cons w ws =>
      have inner : (start + extent zs + m, w) ∈ placed start xs := by
        rw [split, placed_append, extent_append, ← Nat.add_assoc]
        exact List.mem_append_right _ (.head _ ..)
      have positive := (records _ inner).positive
      have inside := (placed_bounds inner).2
      dsimp only at place positive inside
      omega
  · rintro ⟨zs, m, rfl⟩
    have before := between.before
    rw [nodes_append, nodes_cons_node rfl, ← List.cons_append] at before
    have place : start + extent zs = p :=
      (List.cons_eq_cons.mp (List.append_inj_right' before rfl)).1
    have member : (start + extent zs, (⟨.free, m⟩ : Tile Kind)) ∈
        placed start (zs ++ [⟨.free, m⟩]) := by
      rw [placed_append]
      exact List.mem_append_right _ (.head _ ..)
    have sizeIs : blockSize s.mem (start + extent zs) = m := (records _ member).2.2
    rw [extent_append] at below ⊢
    have sum : wadd (start + extent zs) m = start + extent zs + m :=
      Nat.mod_eq_of_lt (by simp only [extent_cons, extent_nil] at below; omega)
    rw [← place, sizeIs, sum, ← Nat.add_assoc]
    exact ⟨by omega, rfl⟩

end Join

/-! ### The loop of joins -/

structure Trimmed (old new : Layout) : Prop where
  allocations : allocations new = allocations old
  lost : lostBytes new = lostBytes old
  separate : Separate Kind.isFree new

def HeadPlain (ys : Layout) : Prop := ∀ m zs, ys ≠ ⟨.free, m⟩ :: zs

def LastPlain (xs : Layout) : Prop := ∀ zs m, xs ≠ zs ++ [⟨.free, m⟩]

section Ends

variable {m : Nat} {xs ys zs : Layout}

theorem Trimmed.refl (separate : Separate Kind.isFree xs) : Trimmed xs xs := ⟨rfl, rfl, separate⟩

theorem trimmed_cons (separate : Separate Kind.isFree (⟨.free, m⟩ :: zs)) :
    Trimmed (⟨.free, m⟩ :: zs) zs ∧ HeadPlain zs := by
  refine ⟨⟨rfl, rfl, separate.tail⟩, ?_⟩
  rintro k ws rfl
  exact (List.isChain_cons_cons.mp separate).1 ⟨rfl, rfl⟩

theorem trimmed_concat (separate : Separate Kind.isFree (zs ++ [⟨.free, m⟩])) :
    Trimmed (zs ++ [⟨.free, m⟩]) zs ∧ LastPlain zs := by
  obtain ⟨left, -, joint⟩ := separate_append.mp separate
  refine ⟨⟨?_, ?_, left⟩, ?_⟩
  · rw [allocations_append]
    exact (List.append_nil _).symm
  · rw [lostBytes_append]
    rfl
  · rintro ws k rfl
    exact joint ⟨.free, k⟩ (by simp) ⟨.free, m⟩ rfl ⟨rfl, rfl⟩

theorem separate_between {n : Nat} (left : Separate Kind.isFree xs) (last : LastPlain xs)
    (right : Separate Kind.isFree ys) (head : HeadPlain ys) :
    Separate Kind.isFree (xs ++ [⟨.free, n⟩] ++ ys) := by
  have front : Separate Kind.isFree (xs ++ [⟨.free, n⟩]) := by
    refine separate_append.mpr ⟨left, List.isChain_singleton _, ?_⟩
    rintro ⟨kind, k⟩ isLast u - ⟨free, -⟩
    obtain rfl := kind.isFree_iff.mp free
    obtain ⟨ws, rfl⟩ := List.getLast?_eq_some_iff.mp isLast
    exact last ws k rfl
  refine separate_append.mpr ⟨front, right, ?_⟩
  rintro u - ⟨kind, k⟩ isFirst ⟨-, free⟩
  obtain rfl := kind.isFree_iff.mp free
  obtain ⟨ws, rfl⟩ := List.head?_eq_some_iff.mp isFirst
  exact head k ws rfl

end Ends

section Merge

variable {start n : Nat} {s : Heaps} {xs ys : Layout} {init rest : List Nat} {p q : Nat}

variable (rep : Rep start s (xs ++ [⟨.free, n⟩] ++ ys))
include rep

theorem Rep.mergeNext
    (between : Between start xs (extent [⟨Kind.free, n⟩]) ys init rest p q)
    (separate : Separate Kind.isFree ys) {mem : ByteMem}
    (joined : mem = if q ≠ 0 ∧ wadd (start + extent xs) n = q then
      joinNext s.mem (start + extent xs) q else s.mem) :
    ∃ n' ys', Rep start { s with mem := mem } (xs ++ [⟨.free, n'⟩] ++ ys') ∧ Trimmed ys ys' ∧
      HeadPlain ys' := by
  have touches := rep.touches_next between
  by_cases touch : q ≠ 0 ∧ wadd (start + extent xs) n = q
  · obtain ⟨m, zs, rfl⟩ := touches.mp touch
    obtain ⟨trimmed, plain⟩ := trimmed_cons separate
    have place : start + extent xs + n = q := by
      have after := between.after
      rw [nodes_cons_node rfl] at after
      exact (List.cons_eq_cons.mp after).1
    rw [if_pos touch, ← place] at joined
    have both : Rep start s (xs ++ [⟨.free, n⟩, ⟨.free, m⟩] ++ zs) := by
      simpa only [List.append_assoc, List.cons_append, List.nil_append] using rep
    exact ⟨n + m, zs, joined ▸ both.join, trimmed, plain⟩
  · rw [if_neg touch] at joined
    refine ⟨n, ys, joined ▸ rep, Trimmed.refl separate, fun m zs same => ?_⟩
    exact touch (touches.mpr ⟨m, zs, same⟩)

theorem Rep.mergeBlocks_idle (last : LastPlain xs) (head : HeadPlain ys) :
    tegrablHeapMergeBlocks s.mem (start + extent xs) = (start + extent xs, s.mem) := by
  obtain ⟨init, rest, p, q, between⟩ := exists_between start xs (extent [⟨Kind.free, n⟩]) ys
  obtain ⟨-, prev, next, -⟩ := rep.around between
  obtain ⟨-, -, sizeIs, -, -⟩ := rep.freeRecord
  have notNext : ¬ (q ≠ 0 ∧ wadd (start + extent xs) n = q) := fun touch => by
    obtain ⟨m, zs, same⟩ := (rep.touches_next between).mp touch
    exact head m zs same
  have notPrev : ¬ (p ≠ 0 ∧ wadd p (blockSize s.mem p) = start + extent xs) := fun touch => by
    obtain ⟨zs, m, same⟩ := (rep.touches_prev between).mp touch
    exact last zs m same
  unfold tegrablHeapMergeBlocks
  dsimp only
  rw [prev, next, sizeIs, if_neg notNext, if_neg notPrev]

variable (between : Between start xs (extent [⟨Kind.free, n⟩]) ys init rest p q)
  (left : Separate Kind.isFree xs) (right : Separate Kind.isFree ys)
include between left right

theorem Rep.mergeBlocks :
    ∃ xs' n' ys' mem, tegrablHeapMergeBlocks s.mem (start + extent xs) = (start + extent xs', mem) ∧
      Rep start { s with mem := mem } (xs' ++ [⟨.free, n'⟩] ++ ys') ∧
      (Trimmed xs xs' ∧ LastPlain xs') ∧ (Trimmed ys ys' ∧ HeadPlain ys') ∧
      (xs' = xs ∨ p ≠ 0 ∧ start + extent xs' = p) := by
  obtain ⟨-, prev, next, -⟩ := rep.around between
  obtain ⟨-, -, sizeIs, -, -⟩ := rep.freeRecord
  unfold tegrablHeapMergeBlocks
  dsimp only
  rw [prev, next, sizeIs]
  generalize joined : (if q ≠ 0 ∧ wadd (start + extent xs) n = q then
      joinNext s.mem (start + extent xs) q else s.mem) = mem
  obtain ⟨n', ys', rep', trimmed, plain⟩ := rep.mergeNext between right joined.symm
  obtain ⟨_, rest', _, q', behind⟩ := exists_between start xs (extent [⟨Kind.free, n'⟩]) ys'
  have between' : Between start xs (extent [⟨Kind.free, n'⟩]) ys' init rest' p q' :=
    ⟨between.before, behind.after⟩
  have touches := rep'.touches_prev between'
  by_cases touch : p ≠ 0 ∧ wadd p (blockSize mem p) = start + extent xs
  · obtain ⟨zs, m, rfl⟩ := touches.mp touch
    obtain ⟨trimmed', plain'⟩ := trimmed_concat left
    have before := between.before
    rw [nodes_append, nodes_cons_node rfl, ← List.cons_append] at before
    have place : start + extent zs = p :=
      (List.cons_eq_cons.mp (List.append_inj_right' before rfl)).1
    have both : Rep start { s with mem := mem } (zs ++ [⟨.free, m⟩, ⟨.free, n'⟩] ++ ys') := by
      simpa only [List.append_assoc, List.cons_append, List.nil_append] using rep'
    have size' : start + extent (zs ++ [⟨Kind.free, m⟩]) = start + extent zs + m := by
      rw [extent_append, ← Nat.add_assoc]
      rfl
    refine ⟨zs, m + n', ys', joinNext mem (start + extent zs) (start + extent zs + m), ?_, both.join,
      ⟨trimmed', plain'⟩, ⟨trimmed, plain⟩, .inr ⟨touch.1, place⟩⟩
    rw [if_pos touch, ← place, size']
    rfl
  · refine ⟨xs, n', ys', mem, if_neg touch, rep', ⟨Trimmed.refl left, fun zs m same => ?_⟩,
      ⟨trimmed, plain⟩, .inl rfl⟩
    exact touch (touches.mpr ⟨zs, m, same⟩)

theorem Rep.mergeAll {rounds : Nat} (enough : 2 ≤ rounds) :
    ∃ xs' n' ys' mem, mergeAll rounds (start + extent xs) s.mem = some (start + extent xs', mem) ∧
      Rep start { s with mem := mem } (xs' ++ [⟨.free, n'⟩] ++ ys') ∧
      (Trimmed xs xs' ∧ LastPlain xs') ∧ (Trimmed ys ys' ∧ HeadPlain ys') ∧
      (xs' = xs ∨ p ≠ 0 ∧ start + extent xs' = p) := by
  obtain ⟨xs', n', ys', mem, merged, rep', trimmedX, trimmedY, place⟩ :=
    rep.mergeBlocks between left right
  obtain ⟨more, rfl⟩ := Nat.exists_eq_add_of_le' enough
  refine ⟨xs', n', ys', mem, ?_, rep', trimmedX, trimmedY, place⟩
  rw [Malloc.mergeAll, merged]
  dsimp only
  split
  · next same => rw [same]
  · have idle := rep'.mergeBlocks_idle trimmedX.2 trimmedY.2
    rw [Malloc.mergeAll, idle]
    exact if_pos rfl

end Merge

/-! ### Freeing an allocation -/

section Free

variable {start n : Nat} {s : Heaps} {tiles xs ys : Layout} {init rest : List Nat} {p q : Nat}

theorem Rep.linkFreed (rep : Rep start s (xs ++ [⟨.lost, n⟩] ++ ys))
    (between : Between start xs (extent [⟨Kind.lost, n⟩]) ys init rest p q) (enough : 32 ≤ n)
    (sizeIs : blockSize s.mem (start + extent xs) = n) :
    Rep start (s.relink (linkFreed s.mem p (start + extent xs) q) p (start + extent xs))
      (xs ++ [⟨.free, n⟩] ++ ys) := by
  have above := rep.above
  have below := rep.below
  simp only [extent_append, extent_cons, extent_nil] at below
  obtain ⟨boundP, boundQ⟩ := between.bounds rep
  simp only [extent_singleton] at boundQ
  refine rep.relinkIn between (fun a outside linkP linkQ => ?_) rfl (nodes_cons_node rfl _ _)
    (by omega) (fun notNull => ?_) (fun notNull => ?_) ?_ ?_ fun t member => ?_
  · simp only [extent_singleton] at outside
    simp (disch := omega) [Malloc.linkFreed]
  · rw [Malloc.linkFreed, linkNext, if_pos notNull]
    simp (disch := omega)
  · rw [Malloc.linkFreed, linkPrev, if_pos notNull]
    exact toNat_word64_store _ _ (by omega)
  · simp (disch := omega) [Malloc.linkFreed]
  · simp (disch := omega) [Malloc.linkFreed]
  · rw [List.mem_singleton.mp member]
    refine ⟨enough, ?_, ?_⟩
    · simp (disch := omega) [Malloc.linkFreed]
    · rw [← sizeIs]
      simp (disch := omega) [Malloc.linkFreed]

structure Returned (tiles tiles' : Layout) (freed : Allocation) : Prop where
  extent : extent tiles' = extent tiles
  allocations : (freed :: allocations tiles').Perm (allocations tiles)
  lost : lostBytes tiles' = lostBytes tiles
  separate : Separate Kind.isFree tiles'

variable {record size : Nat}

theorem Rep.liveRecord (rep : Rep start s (xs ++ [⟨.live record size, n⟩] ++ ys)) :
    32 ≤ n ∧ start + extent xs ≤ record ∧ 0 < size ∧ record + 24 + size ≤ start + extent xs + n ∧
      blockMagic s.mem record = allocMagic ∧ blockSize s.mem record = n ∧
      blockStart s.mem record = start + extent xs ∧ start + extent xs + n ≤ 2 ^ 64 := by
  have member : (start + extent xs, (⟨.live record size, n⟩ : Tile Kind)) ∈
      placed start (xs ++ [⟨.live record size, n⟩] ++ ys) := by
    rw [List.append_assoc, placed_append]
    exact List.mem_append_right _ (.head _ ..)
  obtain ⟨enough, low, positive, high, magic, sizeIs, startIs⟩ := rep.records _ member
  exact ⟨enough, low, positive, high, magic, sizeIs, startIs,
    Nat.le_trans (placed_bounds member).2 rep.below⟩

theorem Rep.forget (rep : Rep start s (xs ++ [⟨.live record size, n⟩] ++ ys)) :
    Rep start { s with mem := setSize s.mem (start + extent xs) n } (xs ++ [⟨.lost, n⟩] ++ ys) ∧
      blockSize (setSize s.mem (start + extent xs) n) (start + extent xs) = n := by
  obtain ⟨enough, -, -, -, -, -, -, below⟩ := rep.liveRecord
  have above := rep.above
  refine ⟨?_, toNat_word64_store _ _ (by omega)⟩
  refine rep.rewrite rfl (nodes_cons_other rfl _ _) (nodes_cons_other rfl _ _)
    (fun a outside => ?_) fun t member => ?_
  · simp only [extent_singleton] at outside
    exact store64_outside _ (by omega)
  · rw [List.mem_singleton.mp member]
    exact Nat.lt_of_lt_of_le (by decide) enough

theorem returned_of_trimmed {record size n' : Nat} {xs' ys' : Layout}
    (fills : extent (xs' ++ [⟨.free, n'⟩] ++ ys') = extent (xs ++ [⟨.live record size, n⟩] ++ ys))
    (left : Trimmed xs xs' ∧ LastPlain xs') (right : Trimmed ys ys' ∧ HeadPlain ys') :
    Returned (xs ++ [⟨.live record size, n⟩] ++ ys) (xs' ++ [⟨.free, n'⟩] ++ ys')
      ⟨record + sizeofAllocBlock, size⟩ := by
  refine ⟨fills, ?_, ?_, separate_between left.1.separate left.2 right.1.separate right.2⟩
  · simp only [allocations_append, left.1.allocations, right.1.allocations, List.append_assoc]
    exact List.perm_middle.symm
  · simp only [lostBytes_append, left.1.lost, right.1.lost]
    rfl

theorem Rep.freeLive (rep : Rep start s (xs ++ [⟨.live record size, n⟩] ++ ys))
    (separate : Separate Kind.isFree (xs ++ [⟨.live record size, n⟩] ++ ys)) :
    ∃ s' tiles', tegrablFree s (record + sizeofAllocBlock) = some s' ∧ Rep start s' tiles' ∧
      Returned (xs ++ [⟨.live record size, n⟩] ++ ys) tiles' ⟨record + sizeofAllocBlock, size⟩ := by
  have above := rep.above
  obtain ⟨enough, low, positive, high, magic, sizeIs, startIs, below⟩ := rep.liveRecord
  obtain ⟨init, rest, p, q, between⟩ := exists_between start xs (extent [⟨Kind.lost, n⟩]) ys
  obtain ⟨front, right, -⟩ := separate_append.mp separate
  obtain ⟨left, -, -⟩ := separate_append.mp front
  -- the block belongs to no one, then to the list, and is joined with what touches it
  obtain ⟨lost, sizeNow⟩ := rep.forget
  have linked := lost.linkFreed between enough sizeNow
  have between' : Between start xs (extent [⟨Kind.free, n⟩]) ys init rest p q :=
    ⟨between.before, between.after⟩
  have rounds : 2 ≤ s.rounds .default := by
    rw [Heaps.rounds, rep.size]
    simp only [extent_append, extent_cons]
    omega
  obtain ⟨xs', n', ys', mem, merged, rep', trimmedX, trimmedY, place⟩ :=
    linked.mergeAll between' left right rounds
  refine ⟨_, _, ?_, rep', returned_of_trimmed (rep'.size.symm.trans rep.size) trimmedX trimmedY⟩
  obtain ⟨boundP, boundQ⟩ := between.bounds lost
  simp only [extent_singleton] at boundQ
  have found := lost.findPlace between (nodes_cons_other rfl _ _)
    (show start + extent xs ≤ record + sizeofAllocBlock by unfold sizeofAllocBlock; omega)
    (show record + sizeofAllocBlock ≤ start + extent xs + (n + 0) by
      unfold sizeofAllocBlock; omega)
  have block : wsub (record + sizeofAllocBlock) sizeofAllocBlock = record := by
    rw [wsub_of_le (Nat.le_add_left _ _) (by unfold sizeofAllocBlock; omega), Nat.add_sub_cancel]
  have notNull : start + extent xs' ≠ 0 := by omega
  have head := lost.newHead between (nodes_cons_other rfl _ _) mem
    (show p = 0 → start + extent xs' = start + extent xs from fun null => by
      rcases place with rfl | other
      · rfl
      · exact absurd null other.1)
    (fun _ => by
      rcases place with rfl | other
      · omega
      · omega)
    (by omega)
  have generic : tegrablGenericFree s .default (record + sizeofAllocBlock) =
      some (start + extent xs', { s with mem := mem }) := by
    have searched : Malloc.findPlace (setSize s.mem (start + extent xs) n)
        (record + sizeofAllocBlock) (s.rounds .default) 0 (s.freeList .default) = some (p, q) := found
    have joined : Malloc.mergeAll (s.rounds .default) (start + extent xs)
        (Malloc.linkFreed (setSize s.mem (start + extent xs) n) p (start + extent xs) q) =
        some (start + extent xs', mem) := merged
    unfold tegrablGenericFree
    rw [if_neg (show record + sizeofAllocBlock ≠ 0 by omega), block]
    dsimp only
    rw [if_neg (not_not_intro magic), startIs, sizeIs, searched, Option.bind_eq_bind,
      Option.bind_some]
    dsimp only
    rw [joined]
    rfl
  unfold tegrablFree
  rw [generic, Option.bind_eq_bind, Option.bind_some]
  dsimp only
  rw [if_neg notNull]
  have result : (if s.freeList .default = 0 ∨ start + extent xs' < s.freeList .default then
      ({ s with mem := mem } : Heaps).setHead .default (start + extent xs')
      else { s with mem := mem }) = s.relink mem p (start + extent xs) := head
  refine Eq.trans ?_ (congrArg some result)
  split <;> rfl

theorem Rep.free (rep : Rep start s tiles) (separate : Separate Kind.isFree tiles) {x : Allocation}
    (given : x ∈ allocations tiles) :
    ∃ s' tiles', tegrablFree s x.ptr = some s' ∧ Rep start s' tiles' ∧ Returned tiles tiles' x := by
  obtain ⟨⟨addr, kind, n⟩, member, isLive⟩ := (@mem_allocations start _ x).mp given
  cases kind with
  | free | lost => cases isLive
  | live record size =>
    cases isLive
    obtain ⟨xs, ys, rfl, rfl⟩ := placed_split member
    exact rep.freeLive separate

end Free

end Cboot.Malloc
