/-
**Allocation.**

Each call returns null with the heap as it was, or a pointer with one more allocation in the layout.
Only `tegrabl_memalign` loses bytes: when it puts the skipped bytes back as a free block, it forgets
what the split has taken beyond the block.
-/

import Cboot.Malloc.Split

namespace Cboot.Malloc

open LinkedList Tiling

/-! ### Layouts with one allocation more -/

structure Gave (tiles tiles' : Layout) (given : Allocation) (lost : Nat) : Prop where
  extent : extent tiles' = extent tiles
  allocations : (allocations tiles').Perm (given :: allocations tiles)
  lost : lostBytes tiles' = lostBytes tiles + lost
  separate : Separate Kind.isFree tiles → Separate Kind.isFree tiles'

theorem Gave.of_replace (xs ys : Layout) {n lost : Nat} {new : Layout} {given : Allocation}
    (fills : Tiling.extent new = n) (allocated : Malloc.allocations new = [given]) (lostIs : lostBytes new = lost)
    (separate : Separate Kind.isFree new) :
    Gave (xs ++ [⟨.free, n⟩] ++ ys) (xs ++ new ++ ys) given lost := by
  refine ⟨?_, ?_, ?_, fun before => before.replace rfl separate⟩
  · simp only [extent_append, extent_cons, extent_nil, fills, Nat.add_zero]
  · have kept : Malloc.allocations (xs ++ [⟨.free, n⟩] ++ ys) =
        Malloc.allocations xs ++ Malloc.allocations ys := by
      rw [allocations_append, allocations_append]
      show Malloc.allocations xs ++ [] ++ Malloc.allocations ys = _
      rw [List.append_nil]
    rw [kept, allocations_append, allocations_append, allocated, List.append_assoc]
    exact List.perm_middle
  · have none : lostBytes [⟨.free, n⟩] = 0 := rfl
    simp only [lostBytes_append, lostIs, none]
    omega

def Answers (start : Nat) (s : Heaps) (tiles : Layout) (size lost : Nat)
    (result : Option (Nat × Heaps)) : Prop :=
  result = some (0, s) ∧ lost = 0 ∨
    ∃ ptr s' tiles', result = some (ptr, s') ∧ ptr ≠ 0 ∧ Rep start s' tiles' ∧
      Gave tiles tiles' ⟨ptr, size⟩ lost

/-! ### The size of a block -/

theorem le_roundUpWord {size : Nat} (bound : size + 7 < 2 ^ 64) :
    size ≤ roundUpWord size ∧ roundUpWord size ≤ size + 7 := by
  unfold roundUpWord wadd
  rw [Nat.mod_eq_of_lt bound]
  omega

theorem blockSizeFor_bounds {size : Nat} (bound : size + 31 < 2 ^ 64) :
    size + 24 ≤ blockSizeFor size ∧ blockSizeFor size ≤ size + 31 := by
  obtain ⟨low, high⟩ := @le_roundUpWord size (by omega)
  unfold blockSizeFor wadd sizeofAllocBlock
  rw [Nat.mod_eq_of_lt (by omega)]
  omega

theorem le_taken {n size : Nat} (fits : size ≤ n) : size ≤ taken n size ∧ taken n size ≤ n := by
  unfold taken
  split
  · exact ⟨fits, Nat.le_refl n⟩
  · exact ⟨Nat.le_refl size, fits⟩

theorem taken_add_leftFree {n size : Nat} (fits : size ≤ n) :
    taken n size + extent (leftFree n size) = n := by
  unfold taken leftFree
  split
  · rfl
  · exact Nat.add_sub_cancel' fits

theorem separate_leftFree {t : Tile Kind} (plain : t.kind.isFree = false) (n size : Nat) :
    Separate Kind.isFree (t :: leftFree n size) := by
  unfold leftFree
  split
  · exact List.isChain_singleton _
  · refine List.isChain_pair.mpr fun both => ?_
    rw [plain] at both
    exact Bool.false_ne_true both.1

theorem allocations_leftFree (n size : Nat) : allocations (leftFree n size) = [] := by
  unfold leftFree
  split <;> rfl

theorem lostBytes_leftFree (n size : Nat) : lostBytes (leftFree n size) = 0 := by
  unfold leftFree
  split <;> rfl

/-! ### Allocation without alignment -/

section Malloc

variable {start : Nat} {s : Heaps} {tiles : Layout}

theorem append_cons_append (xs ys zs : Layout) (t : Tile Kind) :
    xs ++ (t :: ys) ++ zs = xs ++ [t] ++ (ys ++ zs) := by
  simp only [List.append_assoc, List.cons_append, List.nil_append]

theorem Rep.giveBlock {xs ys : Layout} {n allocSize size : Nat}
    (rep : Rep start s (xs ++ [⟨.free, n⟩] ++ ys)) (fits : allocSize ≤ n) (least : 32 ≤ allocSize)
    (positive : 0 < size) (room : size + 24 ≤ allocSize) :
    Rep start (giveBlock s (start + extent xs) allocSize)
      (xs ++ (⟨.live (start + extent xs) size, taken n allocSize⟩ :: leftFree n allocSize) ++
        ys) := by
  obtain ⟨-, -, -, below, -⟩ := rep.freeRecord
  obtain ⟨split, sizeIs⟩ := rep.splitBlock least fits
  obtain ⟨low, high⟩ := le_taken fits
  rw [append_cons_append]
  refine split.rewrite rfl (nodes_cons_other rfl _ _) (nodes_cons_other rfl _ _)
    (fun a outside => ?_) fun t member => ?_
  · rw [extent_singleton] at outside
    dsimp only at outside
    simp (disch := omega)
  · rw [List.mem_singleton.mp member]
    refine ⟨Nat.le_trans least low, le_rfl, positive, ?_, ?_, ?_, ?_⟩
    · show start + extent xs + 24 + size ≤ start + extent xs + taken n allocSize
      omega
    · exact word32_store _ _ _
    · rw [← sizeIs]
      simp (disch := omega)
    · simp (disch := omega)

theorem Rep.malloc (rep : Rep start s tiles) (size : Nat) :
    Answers start s tiles size 0 (tegrablMalloc s size) := by
  unfold tegrablMalloc
  by_cases large : s.maxHeapSize .default < size
  · rw [if_pos large]
    exact .inl ⟨rfl, rfl⟩
  rw [if_neg large]
  unfold tegrablGenericMalloc
  by_cases zero : size = 0
  · rw [if_pos zero]
    exact .inl ⟨rfl, rfl⟩
  have above := rep.above
  have below := rep.below
  rw [← rep.size] at below
  obtain ⟨room, -⟩ := @blockSizeFor_bounds size (by omega)
  rw [if_neg zero, if_neg (show ¬ blockSizeFor size < size by omega)]
  obtain ⟨found, searched, result⟩ := rep.findFree fun block =>
    decide (max (blockSizeFor size) minSize < blockSize s.mem block)
  dsimp only
  rw [searched, Option.bind_eq_bind, Option.bind_some]
  rcases result with rfl | ⟨xs, n, ys, rfl, rfl, accepted⟩
  · rw [if_pos rfl]
    exact .inl ⟨rfl, rfl⟩
  obtain ⟨enough, -, sizeIs, inside, -⟩ := rep.freeRecord
  rw [decide_eq_true_iff, sizeIs] at accepted
  have notNull : start + extent xs ≠ 0 := by omega
  have least : 32 ≤ max (blockSizeFor size) minSize := Nat.le_max_right _ _
  have room' : size + 24 ≤ max (blockSizeFor size) minSize := Nat.le_trans room (Nat.le_max_left _ _)
  have pointer : wadd (start + extent xs) sizeofAllocBlock = start + extent xs + 24 :=
    Nat.mod_eq_of_lt (by unfold sizeofAllocBlock; omega)
  rw [if_neg notNull, pointer]
  refine .inr ⟨_, _, _, rfl, by omega, rep.giveBlock (Nat.le_of_lt accepted) least (by omega) room',
    ?_⟩
  refine Gave.of_replace xs ys (taken_add_leftFree (Nat.le_of_lt accepted)) ?_ ?_
    (separate_leftFree rfl _ _)
  · exact congrArg (_ :: ·) (allocations_leftFree _ _)
  · exact lostBytes_leftFree _ _

theorem Rep.write (rep : Rep start s tiles) {mem : ByteMem}
    (bytes : ∀ a, start ≤ a → a < start + extent tiles →
      (∀ x ∈ allocations tiles, ¬ (x.ptr ≤ a ∧ a < x.ptr + x.size)) → mem a = s.mem a) :
    Rep start { s with mem := mem } tiles := by
  have records : ∀ t ∈ placed start tiles, ∀ a, t.1 ≤ a → a < t.2.kind.recordEnd t.1 →
      mem a = s.mem a := by
    intro t member a low high
    have bounds := placed_bounds member
    have inside := (rep.records t member).recordEnd_le
    exact bytes a (by omega) (by omega) fun x given =>
      not_in_allocation rep.records member low (by omega) (fun _ => high) given
  have links : ∀ x ∈ nodes Kind.isFree start tiles, ∀ a, x ≤ a → a < x + 32 → mem a = s.mem a := by
    intro x node a low high
    obtain ⟨u, member, free⟩ := mem_nodes.mp node
    have bounds := placed_bounds member
    have enough := (rep.records _ member).free_size free
    dsimp only at bounds enough
    refine bytes a (by omega) (by omega) fun x given =>
      not_in_allocation rep.records member low (by dsimp only; omega) (fun plain => ?_) given
    dsimp only at plain
    rw [plain] at free
    cases free
  refine ⟨rep.above, rep.below, fun t member => (rep.records t member).congr (records t member), ?_,
    rep.dma, rep.size⟩
  refine rep.linked.congr (fun x notLast => ?_) fun y notFirst notNull => ?_
  · unfold Heaps.nextIn
    split
    · rfl
    · next notNull =>
      rw [List.dropLast_concat] at notLast
      have node := (List.mem_cons.mp notLast).resolve_left notNull
      exact blockNext_congr fun a low high => links x node a (by omega) high
  · have node := (List.mem_append.mp notFirst).resolve_right fun null =>
      notNull (List.mem_singleton.mp null)
    exact blockPrev_congr fun a low high => links y node a (by omega) (by omega)

theorem Rep.calloc (rep : Rep start s tiles) (nmemb size : Nat) :
    Answers start s tiles (size * nmemb) 0 (tegrablCalloc s nmemb size) := by
  unfold tegrablCalloc
  by_cases zero : size = 0
  · rw [if_pos zero]
    exact .inl ⟨rfl, rfl⟩
  by_cases large : s.maxHeapSize .default / size < nmemb
  · rw [if_neg zero, if_pos large]
    exact .inl ⟨rfl, rfl⟩
  have positive : 0 < size := Nat.pos_of_ne_zero zero
  have product : size * nmemb ≤ s.maxHeapSize .default := by
    rw [Nat.mul_comm]
    exact (Nat.le_div_iff_mul_le positive).mp (Nat.not_lt.mp large)
  have total : size * nmemb % 2 ^ 64 = size * nmemb := by
    have above := rep.above
    have below := rep.below
    rw [← rep.size] at below
    exact Nat.mod_eq_of_lt (by omega)
  dsimp only
  rw [if_neg zero, if_neg large, total, if_neg (not_not_intro (Nat.mul_div_cancel_left nmemb positive))]
  rcases rep.malloc (size * nmemb) with ⟨null, -⟩ | ⟨ptr, s', tiles', given, notNull, rep', gave⟩
  · rw [null]
    exact .inl ⟨rfl, rfl⟩
  · rw [given, Option.bind_eq_bind, Option.bind_some]
    dsimp only
    rw [if_neg notNull]
    refine .inr ⟨ptr, _, tiles', rfl, notNull, rep'.write fun a _ _ outside => ?_, gave⟩
    have own : (⟨ptr, size * nmemb⟩ : Allocation) ∈ allocations tiles' :=
      gave.allocations.mem_iff.mpr (.head _ ..)
    exact if_neg (outside _ own)

end Malloc

/-! ### Aligned allocation -/

theorem alignSize_bounds {alignment block : Nat} (positive : 0 < alignment)
    (bound : block + 24 < 2 ^ 64) :
    0 < alignSize alignment block ∧ alignSize alignment block ≤ alignment ∧
      (block + 24 + alignSize alignment block) % alignment = 0 := by
  have address : wadd block sizeofAllocBlock = block + 24 := Nat.mod_eq_of_lt bound
  have rest := Nat.mod_lt (block + 24) positive
  unfold alignSize
  rw [address]
  refine ⟨by omega, Nat.sub_le _ _, ?_⟩
  have sum : block + 24 + (alignment - (block + 24) % alignment) =
      alignment * ((block + 24) / alignment) + alignment := by
    have division := Nat.div_add_mod (block + 24) alignment
    omega
  rw [sum, Nat.mul_add_mod, Nat.mod_self]

def lostIn (n skipped allocSize : Nat) : Nat :=
  if skipped < minSize then 0 else taken n (allocSize + skipped) - (allocSize + skipped)

def lostTile (k : Nat) : Layout := if k = 0 then [] else [⟨.lost, k⟩]

def alignedMem (mem : ByteMem) (block skipped m : Nat) : ByteMem :=
  setStart (setMagic (setSize (setStart mem block block) (block + skipped) m) (block + skipped)
    allocMagic) (block + skipped) block

def skippedMem (mem : ByteMem) (block skipped allocSize p q : Nat) : ByteMem :=
  linkNext p block (linkPrev q block (setMagic (setSize (setPrev (setNext
    (setStart (setSize mem (block + skipped) allocSize) (block + skipped) (block + skipped))
    block q) block p) block skipped) block freeMagic))

section Aligned

variable {start m skipped allocSize size : Nat} {s : Heaps} {xs ys : Layout} {init rest : List Nat}
  {p q : Nat}

theorem giveAligned_eq (s : Heaps) {block skipped m : Nat} (sizeIs : blockSize s.mem block = m) :
    giveAligned s block skipped = { s with mem := alignedMem s.mem block skipped m } := by
  have kept : blockSize (setStart s.mem block block) block = m := by
    rw [← sizeIs]
    simp (disch := omega)
  unfold giveAligned alignedMem
  simp only [Heaps.write, kept]

theorem alignedMem_outside (mem : ByteMem) {block a : Nat}
    (outside : ¬ (block ≤ a ∧ a < block + (skipped + 24))) :
    alignedMem mem block skipped m a = mem a := by
  simp (disch := omega) [alignedMem]

theorem Rep.giveAligned (rep : Rep start s (xs ++ [⟨.lost, m⟩] ++ ys)) (bound : m < 2 ^ 64)
    (least : 32 ≤ m) (positive : 0 < size) (room : skipped + 24 + size ≤ m) :
    Rep start { s with mem := alignedMem s.mem (start + extent xs) skipped m }
      (xs ++ [⟨.live (start + extent xs + skipped) size, m⟩] ++ ys) := by
  have below := rep.below
  rw [extent_append, extent_append, extent_cons] at below
  dsimp only at below
  refine rep.rewrite rfl (nodes_cons_other rfl _ _) (nodes_cons_other rfl _ _)
    (fun a outside => ?_) fun t member => ?_
  · rw [extent_singleton] at outside
    exact alignedMem_outside _ (by dsimp only at outside; omega)
  · rw [List.mem_singleton.mp member]
    refine ⟨least, Nat.le_add_right _ _, positive, ?_, ?_, ?_, ?_⟩
    · show start + extent xs + skipped + 24 + size ≤ start + extent xs + m
      omega
    · simp (disch := omega) [alignedMem]
    · simp (disch := omega) [alignedMem]
    · exact toNat_word64_store _ _ (by omega)

variable {next : Nat}

theorem nextOfSkipped_of_links (first : s.nextIn p = next)
    (second : q ≠ 0 → next = q ∧ blockPrev s.mem q = p ∨ blockPrev s.mem q = next ∧ next ≠ p) :
    nextOfSkipped s .default p q = next := by
  unfold nextOfSkipped
  unfold Heaps.nextIn at first
  by_cases last : q = 0
  · by_cases null : p = 0
    · rw [if_pos null] at first
      rw [if_pos ⟨null, last⟩, first]
    · rw [if_neg null] at first
      rw [if_neg fun both => null both.1, if_pos last, first]
  · rw [if_neg fun both => last both.2, if_neg last]
    rcases second last with ⟨same, back⟩ | ⟨back, other⟩
    · rw [if_neg (not_not_intro back), same]
    · rw [if_pos (back ▸ other), back]

theorem nextOfSkipped_eq {n : Nat} {restAll : List Nat}
    (rep : Rep start s (xs ++ [⟨.lost, m⟩] ++ (leftFree n size ++ ys)))
    (between : Between start xs m (leftFree n size ++ ys) init restAll p next)
    (after : nodes Kind.isFree (start + extent xs + m + extent (leftFree n size)) ys ++ [0] =
      q :: rest) : nextOfSkipped s .default p q = next := by
  have behind := between.after
  obtain ⟨boundP, -⟩ := between.bounds rep
  have above := rep.above
  have links := rep.links between
  rw [nodes_cons_other rfl] at links
  obtain ⟨first, back⟩ := List.isChain_pair.mp links
  refine nextOfSkipped_of_links first fun notNull => ?_
  unfold leftFree at rep behind after
  by_cases small : n - size ≤ minSize
  · -- nothing is left, so that the block behind is the one behind the whole block
    rw [if_pos small] at behind after
    have same : next = q := (List.cons_eq_cons.mp (behind.symm.trans after)).1
    exact .inl ⟨same, same ▸ back (same ▸ notNull)⟩
  · rw [if_neg small] at rep behind after
    rw [List.singleton_append, nodes_cons_node rfl, List.cons_append, List.cons_eq_cons] at behind
    have left : Rep start s ((xs ++ [⟨.lost, m⟩]) ++ [⟨.free, n - size⟩] ++ ys) := by
      simpa only [List.append_assoc] using rep
    have size' : extent (xs ++ [⟨Kind.lost, m⟩]) = extent xs + m := by
      rw [extent_append]
      rfl
    have between' : Between start (xs ++ [⟨.lost, m⟩]) (extent [⟨Kind.free, n - size⟩]) ys init rest
        p q := by
      refine ⟨?_, ?_⟩
      · rw [nodes_append, nodes_cons_other rfl, ← between.before]
        exact congrArg _ (List.append_nil _)
      · rw [size', ← Nat.add_assoc]
        exact after
    have place := (left.around between').2.2.2 notNull
    rw [size', ← Nat.add_assoc, behind.1] at place
    exact .inr ⟨place, by omega⟩

theorem giveBackSkipped_eq (rep : Rep start s (xs ++ [⟨.lost, m⟩] ++ ys))
    (between : Between start xs m ys init rest p next) (positive : 0 < m)
    (found : nextOfSkipped s .default p q = next) :
    giveBackSkipped s .default (start + extent xs) skipped allocSize p q =
      s.relink (skippedMem s.mem (start + extent xs) skipped allocSize p next) p
        (start + extent xs) := by
  obtain ⟨boundP, boundQ⟩ := between.bounds rep
  rw [extent_singleton] at boundQ
  dsimp only at boundQ
  rw [← rep.newHead between (nodes_cons_other rfl _ _) _ (fun _ => rfl) (by omega) (by omega)]
  unfold giveBackSkipped
  rw [found]
  rfl

theorem extent_lostTile (k : Nat) : extent (lostTile k) = k := by
  unfold lostTile
  split
  · next zero => rw [zero, extent_nil]
  · rfl

theorem nodes_lostTile (start k : Nat) : nodes Kind.isFree start (lostTile k) = [] := by
  unfold lostTile
  split
  · rfl
  · exact nodes_cons_other rfl _ _

def alignedTiles (block m skipped allocSize size : Nat) : Layout :=
  ⟨.free, skipped⟩ :: ⟨.live (block + skipped) size, allocSize⟩ ::
    lostTile (m - (allocSize + skipped))

theorem Rep.giveBack (rep : Rep start s (xs ++ [⟨.lost, m⟩] ++ ys))
    (between : Between start xs m ys init rest p next) (big : 32 ≤ skipped)
    (least : 32 ≤ allocSize) (fits : allocSize + skipped ≤ m) (positive : 0 < size)
    (room : size + 24 ≤ allocSize) :
    Rep start (s.relink (skippedMem (alignedMem s.mem (start + extent xs) skipped m)
        (start + extent xs) skipped allocSize p next) p (start + extent xs))
      (xs ++ alignedTiles (start + extent xs) m skipped allocSize size ++ ys) := by
  have below := rep.below
  have above := rep.above
  rw [extent_append, extent_append, extent_cons] at below
  dsimp only at below
  obtain ⟨boundP, boundQ⟩ := between.bounds rep
  rw [extent_singleton] at boundQ
  dsimp only at boundQ
  refine rep.relinkIn between (fun a outside linkP linkQ => ?_) ?_ ?_ (by omega)
    (fun notNull => ?_) (fun notNull => ?_) ?_ ?_ fun t member => ?_
  · rw [extent_singleton] at outside
    dsimp only at outside
    refine Eq.trans ?_ (@alignedMem_outside m skipped s.mem (start + extent xs) a (by omega))
    simp (disch := omega) [skippedMem]
  · simp only [alignedTiles, extent_cons, extent_lostTile, extent_nil]
    omega
  · rw [alignedTiles, nodes_cons_node rfl, nodes_cons_other rfl, nodes_lostTile]
  · rw [skippedMem, linkNext, if_pos notNull]
    exact toNat_word64_store _ _ (by omega)
  · rw [skippedMem, linkPrev, if_pos notNull]
    simp (disch := omega)
  · simp (disch := omega) [skippedMem]
  · simp (disch := omega) [skippedMem]
  · rcases List.mem_cons.mp member with rfl | later
    · refine ⟨big, ?_, ?_⟩
      · simp (disch := omega) [skippedMem]
      · simp (disch := omega) [skippedMem]
    · rcases List.mem_cons.mp later with rfl | last
      · refine ⟨least, le_rfl, positive, ?_, ?_, ?_, ?_⟩
        · show start + extent xs + skipped + 24 + size ≤ start + extent xs + skipped + allocSize
          omega
        · simp (disch := omega) [skippedMem, alignedMem]
        · simp (disch := omega) [skippedMem]
        · simp (disch := omega) [skippedMem]
      · unfold lostTile at last
        split at last
        · exact absurd last List.not_mem_nil
        · next some =>
          rw [List.mem_singleton.mp last]
          exact Nat.pos_of_ne_zero some

theorem Rep.alignedMem (rep : Rep start s (xs ++ [⟨.lost, m⟩] ++ ys)) (skipped : Nat)
    (room : skipped + 24 ≤ m) :
    Rep start { s with mem := alignedMem s.mem (start + extent xs) skipped m }
      (xs ++ [⟨.lost, m⟩] ++ ys) := by
  refine rep.rewrite rfl (nodes_cons_other rfl _ _) (nodes_cons_other rfl _ _)
    (fun a outside => ?_) fun t member => ?_
  · rw [extent_singleton] at outside
    exact alignedMem_outside _ (by dsimp only at outside; omega)
  · rw [List.mem_singleton.mp member]
    exact Nat.lt_of_lt_of_le (by omega) room

theorem gave_alignedTiles (xs ys : Layout) (block size : Nat) {m skipped allocSize n left : Nat}
    (fits : allocSize + skipped ≤ m) (fills : m + extent (leftFree n left) = n) :
    Gave (xs ++ [⟨.free, n⟩] ++ ys)
      (xs ++ (alignedTiles block m skipped allocSize size ++ leftFree n left) ++ ys)
      ⟨block + skipped + 24, size⟩ (m - (allocSize + skipped)) := by
  refine Gave.of_replace xs ys ?_ ?_ ?_ ?_
  · simp only [alignedTiles, extent_append, extent_cons, extent_lostTile]
    omega
  · rw [allocations_append, allocations_leftFree, List.append_nil]
    unfold alignedTiles lostTile
    split <;> rfl
  · rw [lostBytes_append, lostBytes_leftFree, Nat.add_zero]
    unfold alignedTiles lostTile
    split
    · next zero => exact zero.symm
    · rfl
  · refine List.isChain_cons_cons.mpr ⟨fun both => Bool.false_ne_true both.2, ?_⟩
    unfold lostTile
    split
    · exact separate_leftFree rfl n left
    · exact List.isChain_cons_cons.mpr ⟨fun both => Bool.false_ne_true both.1,
        separate_leftFree rfl n left⟩

theorem Rep.takeAligned {n : Nat} (rep : Rep start s (xs ++ [⟨.free, n⟩] ++ ys))
    (least : 32 ≤ allocSize) (fits : allocSize + skipped ≤ n) (positive : 0 < size)
    (room : size + 24 ≤ allocSize) :
    ∃ tiles, Rep start (takeAligned s .default (start + extent xs) skipped allocSize) tiles ∧
      Gave (xs ++ [⟨.free, n⟩] ++ ys) tiles ⟨start + extent xs + 24 + skipped, size⟩
        (lostIn n skipped allocSize) := by
  have above := rep.above
  obtain ⟨-, -, -, below, -⟩ := rep.freeRecord
  obtain ⟨init, rest, p, q, between⟩ := exists_between start xs (extent [⟨Kind.free, n⟩]) ys
  obtain ⟨-, prev, next, -⟩ := rep.around between
  obtain ⟨split, sizeIs⟩ := rep.splitBlock (by omega) fits
  obtain ⟨low, high⟩ := le_taken fits
  have sum : wadd allocSize skipped = allocSize + skipped := Nat.mod_eq_of_lt (by omega)
  unfold Malloc.takeAligned lostIn
  rw [sum, giveAligned_eq _ sizeIs, prev, next]
  have pointer : start + extent xs + 24 + skipped = start + extent xs + skipped + 24 := by omega
  rw [pointer]
  by_cases small : skipped < minSize
  · rw [if_pos small, if_pos small]
    refine ⟨_, split.giveAligned (by omega) (by omega) positive (by omega), ?_⟩
    rw [← append_cons_append]
    refine Gave.of_replace xs ys (taken_add_leftFree fits) ?_ ?_ (separate_leftFree rfl _ _)
    · exact congrArg (_ :: ·) (allocations_leftFree _ _)
    · exact lostBytes_leftFree _ _
  · rw [if_neg small, if_neg small]
    obtain ⟨_, restAll, _, next', behind⟩ := exists_between start xs
      (extent [⟨Kind.lost, taken n (allocSize + skipped)⟩]) (leftFree n (allocSize + skipped) ++ ys)
    have between' : Between start xs (taken n (allocSize + skipped))
        (leftFree n (allocSize + skipped) ++ ys) init restAll p next' :=
      ⟨between.before, behind.after⟩
    have after := between.after
    rw [show extent [⟨Kind.free, n⟩] = n from rfl, ← taken_add_leftFree fits, ← Nat.add_assoc] at after
    have aligned := split.alignedMem skipped (by omega)
    rw [giveBackSkipped_eq aligned between' (by omega) (nextOfSkipped_eq aligned between' after)]
    refine ⟨_, split.giveBack between' (Nat.not_lt.mp small) least low positive room, ?_⟩
    have shape : ∀ new left : Layout, xs ++ new ++ (left ++ ys) = xs ++ (new ++ left) ++ ys :=
      fun new left => by simp only [List.append_assoc]
    rw [shape]
    exact gave_alignedTiles xs ys _ size low (taken_add_leftFree fits)

theorem isSizeAlignmentValid_noWrap {alignment : Nat} (bound : s.maxHeapSize .default < 2 ^ 64)
    (valid : isSizeAlignmentValid s .default alignment size = true) :
    size + alignment ≤ s.maxHeapSize .default := by
  simp only [isSizeAlignmentValid, Bool.not_eq_true', Bool.or_eq_false_iff, decide_eq_false_iff_not,
    Nat.not_lt] at valid
  unfold wadd at valid
  omega

end Aligned

def leakOf (s : Heaps) (alignment size : Nat) : Nat :=
  let allocSize := max (blockSizeFor size) minSize
  if size = 0 ∨ !isSizeAlignmentValid s .default alignment size then 0
  else
    match findAligned s .default alignment allocSize with
    | none | some 0 => 0
    | some block => lostIn (blockSize s.mem block) (alignSize alignment block) allocSize

section Memalign

variable {start : Nat} {s : Heaps} {tiles : Layout}

theorem Rep.memalign_cases (rep : Rep start s tiles) {alignment : Nat} (positive : 0 < alignment)
    (size : Nat) :
    tegrablMemalign s alignment size = some (0, s) ∧ leakOf s alignment size = 0 ∨
      ∃ xs n ys, tiles = xs ++ [⟨.free, n⟩] ++ ys ∧ 0 < size ∧
        ∃ allocSize, 32 ≤ allocSize ∧ size + 24 ≤ allocSize ∧
          allocSize + alignSize alignment (start + extent xs) ≤ n ∧
          leakOf s alignment size = lostIn n (alignSize alignment (start + extent xs)) allocSize ∧
          tegrablMemalign s alignment size =
            some (start + extent xs + 24 + alignSize alignment (start + extent xs),
              Malloc.takeAligned s .default (start + extent xs)
                (alignSize alignment (start + extent xs)) allocSize) := by
  have above := rep.above
  have below := rep.below
  rw [← rep.size] at below
  unfold tegrablMemalign tegrablMemalignGeneric leakOf
  by_cases zero : size = 0
  · rw [if_pos zero, if_pos (.inl zero)]
    exact .inl ⟨rfl, rfl⟩
  cases valid : isSizeAlignmentValid s .default alignment size with
  | false =>
    rw [if_neg zero, if_pos (Bool.not_false), if_pos (.inr Bool.not_false)]
    exact .inl ⟨rfl, rfl⟩
  | true =>
    have fits := isSizeAlignmentValid_noWrap (by omega) valid
    obtain ⟨room, high⟩ := @blockSizeFor_bounds size (by omega)
    have least : 32 ≤ max (blockSizeFor size) minSize := Nat.le_max_right _ _
    have room' : size + 24 ≤ max (blockSizeFor size) minSize :=
      Nat.le_trans room (Nat.le_max_left _ _)
    have high' : max (blockSizeFor size) minSize ≤ size + 31 := by
      unfold minSize
      omega
    generalize max (blockSizeFor size) minSize = allocSize at least room' high'
    rw [if_neg zero, if_neg (by simp), if_neg (by simpa using zero)]
    obtain ⟨found, searched, result⟩ := rep.findFree (acceptsAligned s.mem alignment allocSize)
    have search : findAligned s .default alignment allocSize = some found := searched
    dsimp only
    rw [search, Option.bind_eq_bind, Option.bind_some]
    rcases result with rfl | ⟨xs, n, ys, rfl, rfl, accepted⟩
    · exact .inl ⟨rfl, rfl⟩
    obtain ⟨enough, -, sizeIs, inside, -⟩ := rep.freeRecord
    obtain ⟨-, small, -⟩ := alignSize_bounds positive
      (show start + extent xs + 24 < 2 ^ 64 by omega)
    have notNull : start + extent xs ≠ 0 := by omega
    have noWrap : wadd (alignSize alignment (start + extent xs)) allocSize =
        alignSize alignment (start + extent xs) + allocSize := Nat.mod_eq_of_lt (by omega)
    simp only [acceptsAligned, noWrap, sizeIs, Bool.and_eq_true, Bool.not_eq_true',
      decide_eq_false_iff_not, Nat.not_lt] at accepted
    refine .inr ⟨xs, n, ys, rfl, Nat.pos_of_ne_zero zero, allocSize, least, room', by omega, ?_, ?_⟩
    · rw [← sizeIs]
      generalize start + extent xs = block at notNull
      cases block with
      | zero => exact absurd rfl notNull
      | succ block => rfl
    · rw [if_neg notNull]
      rfl

theorem Rep.memalign (rep : Rep start s tiles) {alignment : Nat} (positive : 0 < alignment)
    (size : Nat) :
    Answers start s tiles size (leakOf s alignment size) (tegrablMemalign s alignment size) ∧
      ∀ result, tegrablMemalign s alignment size = some result → result.1 % alignment = 0 := by
  rcases rep.memalign_cases positive size with ⟨null, noLeak⟩ |
    ⟨xs, n, ys, rfl, asked, allocSize, least, room, fits, leak, given⟩
  · rw [null]
    refine ⟨.inl ⟨rfl, noLeak⟩, fun result same => ?_⟩
    cases same
    exact Nat.zero_mod alignment
  · have above := rep.above
    obtain ⟨enough, -, -, inside, -⟩ := rep.freeRecord
    obtain ⟨-, -, aligned⟩ := alignSize_bounds positive
      (show start + extent xs + 24 < 2 ^ 64 by omega)
    obtain ⟨tiles', rep', gave⟩ := rep.takeAligned least fits asked room
    rw [given, leak]
    refine ⟨.inr ⟨_, _, tiles', rfl, by omega, rep', gave⟩, fun result same => ?_⟩
    cases same
    exact aligned

end Memalign

end Cboot.Malloc
