/-
**Tilings of a range.**

A range of addresses is cut into tiles, one behind the other. A tile has a size and a kind; where it
lies follows from the sizes of the tiles before it, so that the tiles of a list never overlap and
always fill the range. The tiles of some kinds are the nodes of a list that runs through the range.

* `placed_append`, `nodes_append`: tiles and nodes of a list that is put together.
* `placed_bounds`, `placed_pairwise`, `placed_apart`: the tiles lie in the range, one behind the
  other.
-/

import Mathlib

namespace Cboot.Tiling

variable {κ : Type}

structure Tile (κ : Type) where
  kind : κ
  size : Nat

def extent (tiles : List (Tile κ)) : Nat := (tiles.map Tile.size).sum

def placed : Nat → List (Tile κ) → List (Nat × Tile κ)
  | _, [] => []
  | start, t :: tiles => (start, t) :: placed (start + t.size) tiles

@[simp] theorem extent_nil : extent ([] : List (Tile κ)) = 0 := rfl

@[simp] theorem extent_cons (t : Tile κ) (tiles : List (Tile κ)) :
    extent (t :: tiles) = t.size + extent tiles := rfl

theorem extent_singleton (t : Tile κ) : extent [t] = t.size := rfl

@[simp] theorem extent_append (first second : List (Tile κ)) :
    extent (first ++ second) = extent first + extent second := by
  rw [extent, List.map_append, List.sum_append]
  rfl

@[simp] theorem placed_cons (start : Nat) (t : Tile κ) (tiles : List (Tile κ)) :
    placed start (t :: tiles) = (start, t) :: placed (start + t.size) tiles := rfl

theorem placed_append (start : Nat) (first second : List (Tile κ)) :
    placed start (first ++ second) = placed start first ++ placed (start + extent first) second := by
  induction first generalizing start with
  | nil => rfl
  | cons t first ih =>
    rw [List.cons_append, placed_cons, placed_cons, ih, extent_cons, ← Nat.add_assoc,
      List.cons_append]

variable {tiles : List (Tile κ)} {start : Nat}

theorem placed_bounds {p : Nat × Tile κ}
    (member : p ∈ placed start tiles) : start ≤ p.1 ∧ p.1 + p.2.size ≤ start + extent tiles := by
  induction tiles generalizing start with
  | nil => exact absurd member List.not_mem_nil
  | cons t tiles ih =>
    rw [extent_cons]
    rcases List.mem_cons.mp member with rfl | later
    · exact ⟨le_rfl, Nat.add_le_add_left (Nat.le_add_right _ _) _⟩
    · have bounds := ih later
      omega

theorem placed_split {p : Nat × Tile κ}
    (member : p ∈ placed start tiles) :
    ∃ xs ys, tiles = xs ++ [p.2] ++ ys ∧ p.1 = start + extent xs := by
  induction tiles generalizing start with
  | nil => exact absurd member List.not_mem_nil
  | cons t tiles ih =>
    rcases List.mem_cons.mp member with rfl | later
    · exact ⟨[], tiles, rfl, rfl⟩
    · obtain ⟨xs, ys, split, place⟩ := ih later
      refine ⟨t :: xs, ys, congrArg (t :: ·) split, ?_⟩
      rw [place, extent_cons, Nat.add_assoc]

theorem map_placed (start : Nat) (tiles : List (Tile κ)) :
    (placed start tiles).map Prod.snd = tiles := by
  induction tiles generalizing start with
  | nil => rfl
  | cons t tiles ih => exact congrArg (t :: ·) (ih _)

theorem placed_pairwise (start : Nat) (tiles : List (Tile κ)) :
    (placed start tiles).Pairwise fun p q => p.1 + p.2.size ≤ q.1 := by
  induction tiles generalizing start with
  | nil => exact List.Pairwise.nil
  | cons t tiles ih =>
    exact List.pairwise_cons.mpr ⟨fun q member => (placed_bounds member).1, ih _⟩

def Apart (p q : Nat × Tile κ) : Prop := p.1 + p.2.size ≤ q.1 ∨ q.1 + q.2.size ≤ p.1

instance : Std.Symm (@Apart κ) := ⟨fun _ _ => Or.symm⟩

theorem placed_apart {p q : Nat × Tile κ}
    (first : p ∈ placed start tiles) (second : q ∈ placed start tiles) : p = q ∨ Apart p q := by
  by_cases same : p = q
  · exact .inl same
  · have apart : (placed start tiles).Pairwise Apart := (placed_pairwise start tiles).imp .inl
    exact .inr (apart.forall first second same)

/-! ### Nodes -/

section Nodes

variable (isNode : κ → Bool)

def nodeTiles (start : Nat) (tiles : List (Tile κ)) : List (Nat × Tile κ) :=
  (placed start tiles).filter fun p => isNode p.2.kind

def nodes (start : Nat) (tiles : List (Tile κ)) : List Nat :=
  (nodeTiles isNode start tiles).map Prod.fst

def Separate (tiles : List (Tile κ)) : Prop :=
  tiles.IsChain fun t u => ¬ (isNode t.kind = true ∧ isNode u.kind = true)

variable {isNode}

theorem nodeTiles_cons (start : Nat) (t : Tile κ) (tiles : List (Tile κ)) :
    nodeTiles isNode start (t :: tiles) =
      if isNode t.kind = true then (start, t) :: nodeTiles isNode (start + t.size) tiles
      else nodeTiles isNode (start + t.size) tiles := by
  rw [nodeTiles, placed_cons, List.filter_cons]
  rfl

theorem nodeTiles_append (start : Nat) (first second : List (Tile κ)) :
    nodeTiles isNode start (first ++ second) =
      nodeTiles isNode start first ++ nodeTiles isNode (start + extent first) second := by
  rw [nodeTiles, placed_append, List.filter_append]
  rfl

theorem map_nodeTiles (start : Nat) (tiles : List (Tile κ)) :
    (nodeTiles isNode start tiles).map Prod.snd = tiles.filter fun t => isNode t.kind := by
  conv_rhs => rw [← map_placed start tiles, List.filter_map]
  rfl

theorem nodes_append (start : Nat) (first second : List (Tile κ)) :
    nodes isNode start (first ++ second) =
      nodes isNode start first ++ nodes isNode (start + extent first) second := by
  rw [nodes, nodeTiles_append, List.map_append]
  rfl

theorem nodes_cons_node {t : Tile κ} (node : isNode t.kind = true) (start : Nat)
    (tiles : List (Tile κ)) :
    nodes isNode start (t :: tiles) = start :: nodes isNode (start + t.size) tiles := by
  rw [nodes, nodeTiles_cons, if_pos node]
  rfl

theorem nodes_cons_other {t : Tile κ} (other : isNode t.kind = false) (start : Nat)
    (tiles : List (Tile κ)) :
    nodes isNode start (t :: tiles) = nodes isNode (start + t.size) tiles := by
  rw [nodes, nodeTiles_cons, other, if_neg nofun]
  rfl

theorem mem_nodes {start a : Nat} :
    a ∈ nodes isNode start tiles ↔ ∃ t, (a, t) ∈ placed start tiles ∧ isNode t.kind = true := by
  rw [nodes, nodeTiles, List.mem_map]
  constructor
  · rintro ⟨⟨b, t⟩, member, rfl⟩
    rw [List.mem_filter] at member
    exact ⟨t, member.1, member.2⟩
  · rintro ⟨t, member, node⟩
    exact ⟨(a, t), List.mem_filter.mpr ⟨member, node⟩, rfl⟩

theorem separate_append {first second : List (Tile κ)} :
    Separate isNode (first ++ second) ↔ Separate isNode first ∧ Separate isNode second ∧
      ∀ t ∈ first.getLast?, ∀ u ∈ second.head?,
        ¬ (isNode t.kind = true ∧ isNode u.kind = true) :=
  List.isChain_append

theorem Separate.replace {xs new ys : List (Tile κ)} {t : Tile κ}
    (separate : Separate isNode (xs ++ [t] ++ ys)) (node : isNode t.kind = true)
    (inside : Separate isNode new) : Separate isNode (xs ++ new ++ ys) := by
  obtain ⟨front, back, behind⟩ := separate_append.mp separate
  obtain ⟨left, -, before⟩ := separate_append.mp front
  have lastPlain : ∀ u ∈ xs.getLast?, ¬ isNode u.kind = true := fun u last isNode' =>
    before u last t rfl ⟨isNode', node⟩
  have headPlain : ∀ u ∈ ys.head?, ¬ isNode u.kind = true := fun u first isNode' =>
    behind t (by simp) u first ⟨node, isNode'⟩
  refine separate_append.mpr ⟨separate_append.mpr ⟨left, inside, fun u last v _ both => ?_⟩, back,
    fun u _ v first both => ?_⟩
  · exact lastPlain u last both.1
  · exact headPlain v first both.2

theorem nodes_length_le
    (positive : ∀ p ∈ placed start tiles, 0 < p.2.size) :
    (nodes isNode start tiles).length ≤ extent tiles := by
  induction tiles generalizing start with
  | nil => exact Nat.le_refl 0
  | cons t tiles ih =>
    have first := positive (start, t) (.head _ ..)
    have rest := @ih (start + t.size) fun p member => positive p (.tail _ member)
    rw [extent_cons]
    cases node : isNode t.kind with
    | true =>
      rw [nodes_cons_node node, List.length_cons]
      dsimp only at first
      omega
    | false =>
      rw [nodes_cons_other node]
      omega

theorem nodes_separated (separate : Separate isNode tiles)
    (positive : ∀ t ∈ tiles, 0 < t.size) :
    (nodeTiles isNode start tiles).Pairwise fun p q => p.1 + p.2.size < q.1 := by
  induction tiles generalizing start with
  | nil => exact List.Pairwise.nil
  | cons t tiles ih =>
    have rest := @ih (start + t.size) separate.tail fun u member =>
      positive u (.tail _ member)
    rw [nodeTiles_cons]
    by_cases node : isNode t.kind = true
    · rw [if_pos node]
      refine List.pairwise_cons.mpr ⟨fun q member => ?_, rest⟩
      rw [nodeTiles, List.mem_filter] at member
      obtain ⟨found, isNode'⟩ := member
      -- the tile right behind `t` is no node, so a node comes after it
      cases tiles with
      | nil => exact absurd found List.not_mem_nil
      | cons u tiles =>
        rcases List.mem_cons.mp found with rfl | later
        · exact absurd ⟨node, isNode'⟩ (List.isChain_cons_cons.mp separate).1
        · have gap := positive u (by simp)
          have above := (placed_bounds later).1
          change start + t.size < q.1
          omega
    · rw [if_neg node]
      exact rest

end Nodes

end Cboot.Tiling
