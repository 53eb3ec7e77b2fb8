/-
**Doubly linked lists with a sentinel.**

A doubly linked list is a list of nodes between two occurrences of `nil`, in which neighbours point
to each other. The forward pointer of `nil` is the head of the list; `nil` has no back pointer. With
the head as a pointer like the others, inserting and removing a node at the front or at the back is
no special case.

* `Linked.congr`: the list depends on the pointers between its neighbours only.
* `Linked.splice`: the nodes between two nodes may be exchanged for others, when the new ones are
  linked with both and the pointers outside are kept.
-/

import Mathlib

namespace Cboot.LinkedList

variable {α : Type}

def Points (next prev : α → α) (nil x y : α) : Prop := next x = y ∧ (y ≠ nil → prev y = x)

def Linked (next prev : α → α) (nil : α) (l : List α) : Prop := l.IsChain (Points next prev nil)

variable {next next' prev prev' : α → α} {nil p q : α} {l init old new rest : List α}

theorem isChain_imp {R S : α → α → Prop} (chain : l.IsChain R)
    (imp : ∀ x ∈ l.dropLast, ∀ y ∈ l.tail, R x y → S x y) : l.IsChain S := by
  rw [List.isChain_iff_forall_rel_of_append_cons_cons] at chain ⊢
  intro x y before after split
  refine imp x ?_ y ?_ (chain split)
  · rw [split, List.dropLast_append_of_ne_nil (List.cons_ne_nil _ _)]
    exact List.mem_append_right _ (.head _ ..)
  · cases before with
    | nil =>
      rw [split]
      exact (.head _) ..
    | cons z before =>
      rw [split]
      exact List.mem_append_right _ (.tail _ (.head _ ..))

theorem Linked.congr (linked : Linked next prev nil l) (sameNext : ∀ x ∈ l.dropLast, next' x = next x)
    (samePrev : ∀ y ∈ l.tail, y ≠ nil → prev' y = prev y) : Linked next' prev' nil l := by
  refine isChain_imp linked fun x notLast y notFirst points => ⟨?_, fun notNil => ?_⟩
  · rw [sameNext x notLast]
    exact points.1
  · rw [samePrev y notFirst notNil]
    exact points.2 notNil

theorem Linked.splice (linked : Linked next prev nil ((init ++ [p]) ++ old ++ q :: rest))
    (middle : Linked next' prev' nil (p :: new ++ [q]))
    (sameNext : ∀ x, x ∈ init ∨ x ∈ (q :: rest).dropLast → next' x = next x)
    (samePrev : ∀ y, y ∈ (init ++ [p]).tail ∨ y ∈ rest → y ≠ nil → prev' y = prev y) :
    Linked next' prev' nil ((init ++ [p]) ++ new ++ q :: rest) := by
  have before : Linked next prev nil (init ++ [p]) := linked.left_of_append.left_of_append
  have after : Linked next prev nil (q :: rest) := linked.right_of_append
  have before' : Linked next' prev' nil (init ++ [p]) := by
    refine before.congr (fun x notLast => sameNext x (.inl ?_)) fun y notFirst notNil =>
      samePrev y (.inl notFirst) notNil
    rw [List.dropLast_concat] at notLast
    exact notLast
  have after' : Linked next' prev' nil (q :: rest) :=
    after.congr (fun x notLast => sameNext x (.inr notLast)) fun y notFirst notNil =>
      samePrev y (.inr notFirst) notNil
  have through : Linked next' prev' nil (p :: new ++ q :: rest) :=
    List.isChain_split.mpr ⟨middle, after'⟩
  have whole : (init ++ [p]) ++ new ++ q :: rest = init ++ p :: (new ++ q :: rest) := by
    simp only [List.append_assoc, List.cons_append, List.nil_append]
  rw [whole]
  exact List.isChain_split.mpr ⟨before', through⟩

end Cboot.LinkedList
