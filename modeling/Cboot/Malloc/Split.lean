/-
**Taking a free block out of the list.**

`tegrabl_heap_split_block` takes the front of a free block, or the whole block when what is left is
too small for a record. The bytes that are taken belong to no block until the caller has written a
record for them.
-/

import Cboot.Malloc.Layout

namespace Cboot.Malloc

open LinkedList Tiling

/-! ### Reading after a write -/

section Reads

variable {mem : ByteMem} {a addr addr' value : Nat} (word : BitVec 64)

theorem store64_outside (outside : a < addr ∨ addr + 8 ≤ a) :
    mem.store addr (bytes64 word) a = mem a :=
  mem.store_outside addr _ a (by rw [bytes64_length]; exact outside)

theorem store32_outside (word : BitVec 32) (outside : a < addr ∨ addr + 4 ≤ a) :
    mem.store addr (bytes32 word) a = mem a :=
  mem.store_outside addr _ a (by rw [bytes32_length]; exact outside)

theorem toNat_word64_store (mem : ByteMem) (addr : Nat) (bound : value < 2 ^ 64) :
    (word64 (mem.store addr (bytes64 (BitVec.ofNat 64 value))) addr).toNat = value := by
  rw [word64_store, BitVec.toNat_ofNat, Nat.mod_eq_of_lt bound]

theorem ite_store64_outside {made : Prop} [Decidable made]
    (outside : ¬made → a < addr ∨ addr + 8 ≤ a) :
    (if made then mem else mem.store addr (bytes64 word)) a = mem a := by
  split
  · rfl
  · next fails => exact store64_outside word (outside fails)

theorem word64_ite_store64 {made : Prop} [Decidable made]
    (apart : ¬made → addr' + 8 ≤ addr ∨ addr + 8 ≤ addr') :
    word64 (if made then mem else mem.store addr (bytes64 word)) addr' = word64 mem addr' := by
  split
  · rfl
  · next fails => exact word64_store64_ne mem word (apart fails)

theorem word32_ite_store64 {made : Prop} [Decidable made]
    (apart : ¬made → addr' + 4 ≤ addr ∨ addr + 8 ≤ addr') :
    word32 (if made then mem else mem.store addr (bytes64 word)) addr' = word32 mem addr' := by
  split
  · rfl
  · next fails => exact word32_store64_ne mem word (apart fails)

end Reads

-- What is read back after writes to fields of records, with the distances settled by `omega`.
attribute [simp] setMagic setSize setPrev setNext setStart linkPrev linkNext blockMagic blockSize
  blockPrev blockNext blockStart store64_outside store32_outside ite_store64_outside
  word64_store64_ne word64_store32_ne word64_ite_store64 toNat_word64_store word32_store64_ne
  word32_store32_ne word32_ite_store64 word32_store

/-! ### Links that are set anew -/

def Heaps.relink (s : Heaps) (mem : ByteMem) (p head : Nat) : Heaps where
  mem := mem
  freeList := if p = 0 then Function.update s.freeList .default head else s.freeList
  maxHeapSize := s.maxHeapSize

section Relink

variable {start : Nat} {s : Heaps} {mem : ByteMem} {xs old new ys : Layout} {init rest : List Nat}
  {p q c low high : Nat}

theorem Change.relink
    (bytes : ∀ a, ¬ (low ≤ a ∧ a < high) → ¬ (p ≠ 0 ∧ p + 24 ≤ a ∧ a < p + 32) →
      ¬ (q ≠ 0 ∧ q + 16 ≤ a ∧ a < q + 24) → mem a = s.mem a) :
    Change low high p q s (s.relink mem p c) := by
  refine ⟨bytes, fun notNull => ?_, ?_, rfl⟩
  · rw [Heaps.relink, if_neg notNull]
  · unfold Heaps.relink
    dsimp only
    split
    · have other : HeapType.dma ≠ .default := fun same => by cases same
      exact Function.update_of_ne other c s.freeList
    · rfl

theorem nextIn_relink (next : p ≠ 0 → blockNext mem p = c) : (s.relink mem p c).nextIn p = c := by
  unfold Heaps.nextIn Heaps.relink
  by_cases null : p = 0
  · rw [if_pos null, if_pos null]
    exact Function.update_self HeapType.default c s.freeList
  · rw [if_neg null]
    exact next null

theorem relink_self (next : s.nextIn p = c) : s.relink mem p c = { s with mem := mem } := by
  unfold Heaps.relink
  split
  · next null =>
    rw [Heaps.nextIn, if_pos null] at next
    rw [← next, Function.update_eq_self]
  · rfl

section

variable (rep : Rep start s (xs ++ old ++ ys))
  (between : Between start xs (extent old) ys init rest p q)
  (bytes : ∀ a, ¬ (start + extent xs ≤ a ∧ a < start + extent xs + extent old) →
    ¬ (p ≠ 0 ∧ p + 24 ≤ a ∧ a < p + 32) → ¬ (q ≠ 0 ∧ q + 16 ≤ a ∧ a < q + 24) → mem a = s.mem a)
  (sameSize : extent new = extent old)
include rep between bytes sameSize

theorem Rep.relinkOut (none : nodes Kind.isFree (start + extent xs) new = [])
    (next : p ≠ 0 → blockNext mem p = q) (prev : q ≠ 0 → blockPrev mem q = p)
    (records : ∀ t ∈ placed (start + extent xs) new, TileOk mem t.1 t.2) :
    Rep start (s.relink mem p q) (xs ++ new ++ ys) := by
  refine rep.replace between (Change.relink bytes) sameSize ?_ records
  rw [none]
  exact List.isChain_pair.mpr ⟨nextIn_relink next, prev⟩

theorem Rep.relinkIn (one : nodes Kind.isFree (start + extent xs) new = [c])
    (notNull : c ≠ 0)
    (next : p ≠ 0 → blockNext mem p = c) (prev : q ≠ 0 → blockPrev mem q = c)
    (nextIn : blockNext mem c = q) (prevIn : blockPrev mem c = p)
    (records : ∀ t ∈ placed (start + extent xs) new, TileOk mem t.1 t.2) :
    Rep start (s.relink mem p c) (xs ++ new ++ ys) := by
  refine rep.replace between (Change.relink bytes) sameSize ?_ records
  rw [one]
  refine List.isChain_cons_cons.mpr ⟨⟨nextIn_relink next, fun _ => prevIn⟩,
    List.isChain_pair.mpr ⟨?_, prev⟩⟩
  rw [Heaps.nextIn, if_neg notNull]
  exact nextIn

end

theorem Rep.rewrite (rep : Rep start s (xs ++ old ++ ys)) (sameSize : extent new = extent old)
    (oldNone : nodes Kind.isFree (start + extent xs) old = [])
    (newNone : nodes Kind.isFree (start + extent xs) new = [])
    (bytes : ∀ a, ¬ (start + extent xs ≤ a ∧ a < start + extent xs + extent old) → mem a = s.mem a)
    (records : ∀ t ∈ placed (start + extent xs) new, TileOk mem t.1 t.2) :
    Rep start { s with mem := mem } (xs ++ new ++ ys) := by
  obtain ⟨init, rest, p, q, between⟩ := exists_between start xs (extent old) ys
  obtain ⟨boundP, boundQ⟩ := between.bounds rep
  have links := rep.links between
  rw [oldNone] at links
  obtain ⟨next, prev⟩ := List.isChain_pair.mp links
  rw [← relink_self next]
  refine rep.relinkOut between (fun a outside _ _ => bytes a outside) sameSize newNone
    (fun notNull => ?_) (fun notNull => ?_) records
  · rw [Heaps.nextIn, if_neg notNull] at next
    rw [← next]
    exact blockNext_congr fun a low high => bytes a (by omega)
  · rw [← prev notNull]
    exact blockPrev_congr fun a low high => bytes a (by omega)

end Relink

/-! ### The split -/

def taken (n size : Nat) : Nat := if n - size ≤ minSize then n else size

def leftFree (n size : Nat) : Layout := if n - size ≤ minSize then [] else [⟨.free, n - size⟩]

section Split

variable {start n size : Nat} {s : Heaps} {xs ys : Layout} {init rest : List Nat} {p q : Nat}

theorem Rep.around (rep : Rep start s (xs ++ [⟨.free, n⟩] ++ ys))
    (between : Between start xs (extent [⟨Kind.free, n⟩]) ys init rest p q) :
    s.nextIn p = start + extent xs ∧ blockPrev s.mem (start + extent xs) = p ∧
      blockNext s.mem (start + extent xs) = q ∧ (q ≠ 0 → blockPrev s.mem q = start + extent xs) := by
  have above := rep.above
  have notNull : start + extent xs ≠ 0 := by omega
  have links := rep.links between
  rw [nodes_cons_node rfl] at links
  obtain ⟨first, second⟩ := List.isChain_cons_cons.mp links
  obtain ⟨next, prev⟩ := List.isChain_pair.mp second
  rw [Heaps.nextIn, if_neg notNull] at next
  exact ⟨first.1, first.2 notNull, next, prev⟩

theorem Rep.freeRecord (rep : Rep start s (xs ++ [⟨.free, n⟩] ++ ys)) :
    32 ≤ n ∧ blockMagic s.mem (start + extent xs) = freeMagic ∧
      blockSize s.mem (start + extent xs) = n ∧ start + extent xs + n ≤ 2 ^ 64 ∧
      start + extent xs + n ≤ start + s.maxHeapSize .default := by
  have member : (start + extent xs, (⟨.free, n⟩ : Tile Kind)) ∈
      placed start (xs ++ [⟨.free, n⟩] ++ ys) := by
    rw [List.append_assoc, placed_append]
    exact List.mem_append_right _ (.head _ ..)
  obtain ⟨enough, magic, size⟩ := rep.records _ member
  have inside := (placed_bounds member).2
  exact ⟨enough, magic, size, Nat.le_trans inside rep.below, rep.size ▸ inside⟩

theorem Rep.head_before {old : Layout} (rep : Rep start s (xs ++ old ++ ys))
    (between : Between start xs (extent old) ys init rest p q) (notNull : p ≠ 0) :
    s.freeList .default ∈ nodes Kind.isFree start xs := by
  have linked := rep.linked
  rw [List.append_assoc, nodes_append] at linked
  cases found : nodes Kind.isFree start xs with
  | nil =>
    have before := between.before
    rw [found, ← List.nil_append [0]] at before
    exact absurd (List.append_inj_right' before rfl) (by simpa using notNull.symm)
  | cons first more =>
    rw [found] at linked
    obtain ⟨points, -⟩ := List.isChain_cons_cons.mp linked
    have head : s.freeList .default = first := points.1
    rw [head]
    exact (.head _) ..

theorem Rep.newHead {old : Layout} (rep : Rep start s (xs ++ old ++ ys))
    (between : Between start xs (extent old) ys init rest p q)
    (none : nodes Kind.isFree (start + extent xs) old = []) (mem : ByteMem) {block c : Nat}
    (first : p = 0 → block = c) (later : p ≠ 0 → p ≤ block) (before : q = 0 ∨ c < q) :
    (if s.freeList .default = 0 ∨ block < s.freeList .default then
      ({ s with mem := mem } : Heaps).setHead .default block else { s with mem := mem }) =
      s.relink mem p c := by
  unfold Heaps.relink
  by_cases null : p = 0
  · have links := rep.links between
    rw [none] at links
    have head : s.nextIn p = q := (List.isChain_pair.mp links).1
    rw [Heaps.nextIn, if_pos null] at head
    obtain rfl := first null
    rw [if_pos (head ▸ before), if_pos null]
    rfl
  · have node := rep.head_before between null
    have bounds := node_bounds rep.split_records.1 node
    have member : s.freeList .default ∈ init ++ [p] :=
      between.before ▸ .tail 0 node
    have notBehind : s.freeList .default ≤ p := by
      rcases List.mem_append.mp member with earlier | same
      · have far := between.init_lt rep earlier
        omega
      · exact Nat.le_of_eq (List.mem_singleton.mp same)
    have above := rep.above
    have after := later null
    rw [if_neg (by omega), if_neg null]

theorem moveHead_eq (rep : Rep start s (xs ++ [⟨.free, n⟩] ++ ys))
    (between : Between start xs (extent [⟨Kind.free, n⟩]) ys init rest p q) (mem : ByteMem)
    (head : Nat) :
    moveHead { s with mem := mem } (start + extent xs) head = s.relink mem p head := by
  have above := rep.above
  obtain ⟨next, -⟩ := rep.around between
  obtain ⟨enough, -, -, -, inside⟩ := rep.freeRecord
  unfold moveHead Heaps.relink Heaps.setHead
  by_cases null : p = 0
  · rw [Heaps.nextIn, if_pos null] at next
    rw [if_pos next.symm, if_pos null]
  · have notFirst : start + extent xs ≠ s.freeList .default := by
      have bounds := node_bounds (rep.split_records).1 (rep.head_before between null)
      omega
    have notDma : start + extent xs ≠ s.freeList .dma := by
      have dma := rep.dma
      rw [← rep.size] at dma
      omega
    rw [if_neg notFirst, if_neg notDma, if_neg null]

theorem Rep.takeWhole (rep : Rep start s (xs ++ [⟨.free, n⟩] ++ ys)) :
    Rep start (takeWhole s (start + extent xs)) (xs ++ [⟨.lost, n⟩] ++ ys) ∧
      blockSize (takeWhole s (start + extent xs)).mem (start + extent xs) = n := by
  obtain ⟨init, rest, p, q, between⟩ := exists_between start xs (extent [⟨Kind.free, n⟩]) ys
  obtain ⟨boundP, boundQ⟩ := between.bounds rep
  obtain ⟨next, prev, nextIn, prevIn⟩ := rep.around between
  obtain ⟨enough, magic, sizeIs, below, -⟩ := rep.freeRecord
  rw [extent_singleton] at boundQ
  dsimp only at boundQ
  have moved : moveHead s (start + extent xs) q = s.relink s.mem p q :=
    moveHead_eq rep between s.mem q
  have prevKept : blockPrev (linkPrev q p s.mem) (start + extent xs) = p := by
    unfold blockPrev at prev ⊢
    simp (disch := omega) [prev]
  have nextKept : blockNext (linkPrev q p s.mem) (start + extent xs) = q := by
    unfold blockNext at nextIn ⊢
    simp (disch := omega) [nextIn]
  have whole : Malloc.takeWhole s (start + extent xs) =
      s.relink (linkNext p q (linkPrev q p s.mem)) p q := by
    unfold Malloc.takeWhole
    rw [nextIn, moved]
    show s.relink (linkNext (blockPrev (linkPrev (blockNext s.mem _) (blockPrev s.mem _) s.mem) _)
      (blockNext (linkPrev (blockNext s.mem _) (blockPrev s.mem _) s.mem) _)
      (linkPrev (blockNext s.mem _) (blockPrev s.mem _) s.mem)) p q = _
    rw [nextIn, prev, prevKept, nextKept]
  rw [whole]
  refine ⟨rep.relinkOut between (fun a outside linkP linkQ => ?_) rfl (nodes_cons_other rfl _ _)
    (fun notNull => ?_) (fun notNull => ?_) (fun t member => ?_), ?_⟩
  · simp (disch := omega)
  · rw [linkNext, if_pos notNull]
    exact toNat_word64_store _ _ (by omega)
  · rw [linkPrev, if_pos notNull]
    simp (disch := omega)
  · rw [List.mem_singleton.mp member]
    exact Nat.lt_of_lt_of_le (by decide) enough
  · rw [← sizeIs]
    simp (disch := omega) [Heaps.relink]

def frontMem (mem : ByteMem) (block size rem p q c : Nat) : ByteMem :=
  setSize (setMagic (setSize (linkPrev q c (linkNext p c (setNext (setPrev mem c p) c q))) c rem) c
    freeMagic) block size

theorem takeFront_eq (rep : Rep start s (xs ++ [⟨.free, n⟩] ++ ys))
    (between : Between start xs (extent [⟨Kind.free, n⟩]) ys init rest p q) (least : 32 ≤ size)
    (room : size + 32 < n) (rem : Nat) :
    takeFront s (start + extent xs) size rem =
      s.relink (frontMem s.mem (start + extent xs) size rem p q (start + extent xs + size)) p
        (start + extent xs + size) := by
  obtain ⟨boundP, boundQ⟩ := between.bounds rep
  obtain ⟨-, prev, nextIn, -⟩ := rep.around between
  obtain ⟨-, -, -, below, -⟩ := rep.freeRecord
  rw [extent_singleton] at boundQ
  dsimp only at boundQ
  rw [← moveHead_eq rep between]
  generalize start + extent xs = block at *
  have newFree : wadd block size = block + size := Nat.mod_eq_of_lt (by omega)
  have next : ∀ value, blockNext (setPrev s.mem (block + size) value) block = q := by
    intro value
    rw [← nextIn]
    simp (disch := omega)
  have prevNew : blockPrev (setNext (setPrev s.mem (block + size) p) (block + size) q)
      (block + size) = p := by
    simp (disch := omega)
  have nextNew : blockNext (linkNext p (block + size)
      (setNext (setPrev s.mem (block + size) p) (block + size) q)) (block + size) = q := by
    simp (disch := omega)
  unfold takeFront frontMem
  simp only [Heaps.write, newFree, prev, next, prevNew, nextNew]

theorem Rep.takeFront (rep : Rep start s (xs ++ [⟨.free, n⟩] ++ ys)) (least : 32 ≤ size)
    (room : size + 32 < n) :
    Rep start (takeFront s (start + extent xs) size (n - size))
        (xs ++ [⟨.lost, size⟩, ⟨.free, n - size⟩] ++ ys) ∧
      blockSize (takeFront s (start + extent xs) size (n - size)).mem (start + extent xs) = size := by
  obtain ⟨init, rest, p, q, between⟩ := exists_between start xs (extent [⟨Kind.free, n⟩]) ys
  obtain ⟨boundP, boundQ⟩ := between.bounds rep
  obtain ⟨-, -, -, below, -⟩ := rep.freeRecord
  rw [takeFront_eq rep between least room]
  have above := rep.above
  have sameSize : extent [⟨Kind.lost, size⟩, ⟨.free, n - size⟩] = extent [⟨Kind.free, n⟩] := by
    simp only [extent_cons, extent_nil]
    omega
  have newNode : nodes Kind.isFree (start + extent xs) [⟨Kind.lost, size⟩, ⟨.free, n - size⟩] =
      [start + extent xs + size] := by
    rw [nodes_cons_other rfl, nodes_cons_node rfl]
    rfl
  rw [extent_singleton] at boundQ
  dsimp only at boundQ
  refine ⟨rep.relinkIn between (fun a outside linkP linkQ => ?_) sameSize newNode (by omega)
    (fun notNull => ?_) (fun notNull => ?_) ?_ ?_ (fun t member => ?_), ?_⟩
  · rw [extent_singleton] at outside
    dsimp only at outside
    simp (disch := omega) [frontMem]
  · rw [frontMem, linkNext, if_pos notNull]
    simp (disch := omega)
  · rw [frontMem, linkPrev, if_pos notNull]
    simp (disch := omega)
  · simp (disch := omega) [frontMem]
  · simp (disch := omega) [frontMem]
  · rcases List.mem_cons.mp member with rfl | inFree
    · exact Nat.lt_of_lt_of_le (by decide) least
    · rw [List.mem_singleton.mp inFree]
      refine ⟨?_, ?_, ?_⟩
      · show 32 ≤ n - size
        omega
      · simp (disch := omega) [frontMem]
      · simp (disch := omega) [frontMem]
  · exact toNat_word64_store _ _ (by omega)

theorem wsub_of_le {a b : Nat} (le : b ≤ a) (bound : a < 2 ^ 64) : wsub a b = a - b := by
  rw [wsub, ← Nat.add_sub_assoc (by omega), Nat.add_comm, Nat.add_sub_assoc le, Nat.add_mod_left]
  exact Nat.mod_eq_of_lt (by omega)

theorem Rep.splitBlock (rep : Rep start s (xs ++ [⟨.free, n⟩] ++ ys)) (least : 32 ≤ size)
    (fits : size ≤ n) :
    Rep start (tegrablHeapSplitBlock s (start + extent xs) size)
        (xs ++ [⟨.lost, taken n size⟩] ++ (leftFree n size ++ ys)) ∧
      blockSize (tegrablHeapSplitBlock s (start + extent xs) size).mem (start + extent xs) =
        taken n size := by
  obtain ⟨enough, -, sizeIs, below, -⟩ := rep.freeRecord
  have above := rep.above
  have remaining : wsub (blockSize s.mem (start + extent xs)) size = n - size := by
    rw [sizeIs]
    exact wsub_of_le fits (by omega)
  unfold tegrablHeapSplitBlock taken leftFree
  rw [remaining]
  by_cases small : n - size ≤ minSize
  · rw [if_pos small, if_pos small, if_pos small]
    exact rep.takeWhole
  · rw [if_neg small, if_neg small, if_neg small]
    unfold minSize at small
    have front := rep.takeFront least (by omega)
    rw [List.append_assoc] at front ⊢
    exact front

end Split

/-! ### The search -/

theorem findFree_list (s : Heaps) (accepts : Nat → Bool) {l : List Nat} {x rounds : Nat}
    (linked : Linked s.nextIn (blockPrev s.mem) 0 (x :: l ++ [0]))
    (free : ∀ y ∈ l, y ≠ 0 ∧ blockMagic s.mem y = freeMagic) (enough : l.length < rounds) :
    ∃ found, findFree s.mem accepts rounds (s.nextIn x) = some found ∧
      (found = 0 ∨ found ∈ l ∧ accepts found = true) := by
  induction l generalizing x rounds with
  | nil =>
    obtain ⟨rounds, rfl⟩ := Nat.exists_eq_add_of_lt enough
    have next := (List.isChain_pair.mp linked).1
    refine ⟨0, ?_, .inl rfl⟩
    rw [next, findFree, if_pos rfl]
  | cons y l ih =>
    obtain ⟨points, rest⟩ := List.isChain_cons_cons.mp linked
    obtain ⟨notNull, magic⟩ := free y (.head _ ..)
    cases rounds with
    | zero => exact absurd enough (Nat.not_lt_zero _)
    | succ rounds =>
      rw [points.1, findFree, if_neg notNull, if_neg (not_not_intro magic)]
      cases accepted : accepts y with
      | true => exact ⟨y, rfl, .inr ⟨.head _ .., accepted⟩⟩
      | false =>
        obtain ⟨found, searched, result⟩ := ih rest
          (fun z member => free z (.tail _ member)) (Nat.lt_of_succ_lt_succ enough)
        rw [Heaps.nextIn, if_neg notNull] at searched
        exact ⟨found, searched, result.imp_right fun ⟨member, ok⟩ =>
          ⟨.tail _ member, ok⟩⟩

section Search

variable {start : Nat} {s : Heaps} {tiles : Layout}

theorem Rep.rounds (rep : Rep start s tiles) :
    (nodes Kind.isFree start tiles).length < s.rounds .default := by
  rw [Heaps.rounds, rep.size]
  exact Nat.lt_succ_of_le (nodes_length_le fun p member => (rep.records p member).positive)

theorem Rep.findFree (rep : Rep start s tiles) (accepts : Nat → Bool) :
    ∃ found, findFree s.mem accepts (s.rounds .default) (s.freeList .default) = some found ∧
      (found = 0 ∨ ∃ xs n ys, tiles = xs ++ [⟨.free, n⟩] ++ ys ∧ found = start + extent xs ∧
        accepts found = true) := by
  have above := rep.above
  have free : ∀ y ∈ nodes Kind.isFree start tiles, y ≠ 0 ∧ blockMagic s.mem y = freeMagic := by
    intro y node
    obtain ⟨⟨kind, n⟩, member, free⟩ := mem_nodes.mp node
    obtain rfl := kind.isFree_iff.mp free
    have bound := (placed_bounds member).1
    dsimp only at bound
    exact ⟨by omega, (rep.records _ member).2.1⟩
  obtain ⟨found, searched, result⟩ := findFree_list s accepts rep.linked free rep.rounds
  refine ⟨found, searched, result.imp_right fun ⟨node, accepted⟩ => ?_⟩
  obtain ⟨⟨kind, n⟩, member, free⟩ := mem_nodes.mp node
  obtain ⟨xs, ys, split, place⟩ := placed_split member
  obtain rfl := kind.isFree_iff.mp free
  exact ⟨xs, n, ys, split, place, accepted⟩

end Search

end Cboot.Malloc
