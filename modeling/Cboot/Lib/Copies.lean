/-
**Copies in a row.**

A list of copies from one memory into another, made one after the other; a later one overwrites what
an earlier one has left. `sourceOf` is the position that the byte at an address comes from in the
end, that of the last copy over the address.

* `sourceOf_concat`, `sourceOf_append_of_uncovered`: the last copy over an address decides, and the
  copies that are not over it do not count.
* `sourceOf_eq_find`: where no two copies are over one address, the first one found is the last.
-/

import Cboot.Lib.ByteMem

namespace Cboot

structure Copy where
  dest : Nat
  src : Nat
  len : Nat
  deriving DecidableEq, Repr

variable (c : Copy)

namespace Copy

def Covers (a : Nat) : Prop := c.dest ≤ a ∧ a < c.dest + c.len

instance (a : Nat) : Decidable (c.Covers a) := inferInstanceAs (Decidable (_ ∧ _))

def shift (base : Nat) (c : Copy) : Copy := { c with dest := base + c.dest }

def position (a : Nat) : Nat := c.src + (a - c.dest)

theorem shift_covers (base a : Nat) : (c.shift base).Covers (base + a) ↔ c.Covers a := by
  show base + c.dest ≤ base + a ∧ base + a < base + c.dest + c.len ↔ _
  unfold Covers
  omega

theorem shift_position (base a : Nat) : (c.shift base).position (base + a) = c.position a := by
  show c.src + (base + a - (base + c.dest)) = c.src + (a - c.dest)
  rw [Nat.add_sub_add_left]

theorem shift_shift (base more : Nat) : (c.shift more).shift base = c.shift (base + more) := by
  unfold shift
  rw [Nat.add_assoc]

end Copy

def copyAll (source mem : ByteMem) (copies : List Copy) : ByteMem :=
  copies.foldl (fun m c => m.copyFrom source c.dest c.src c.len) mem

def sourceFrom (found : Option Nat) (copies : List Copy) (a : Nat) : Option Nat :=
  copies.foldl (fun found c => if c.Covers a then some (c.position a) else found) found

def sourceOf (copies : List Copy) (a : Nat) : Option Nat := sourceFrom none copies a

variable {source mem : ByteMem} {copies later : List Copy} {a base : Nat}

theorem copyAll_append (source mem : ByteMem) (copies later : List Copy) :
    copyAll source mem (copies ++ later) = copyAll source (copyAll source mem copies) later :=
  List.foldl_append

theorem sourceOf_append (copies later : List Copy) (a : Nat) :
    sourceOf (copies ++ later) a = sourceFrom (sourceOf copies a) later a :=
  List.foldl_append

theorem sourceFrom_cons (found : Option Nat) (c : Copy) (rest : List Copy) (a : Nat) :
    sourceFrom found (c :: rest) a =
      sourceFrom (if c.Covers a then some (c.position a) else found) rest a :=
  rfl

theorem sourceFrom_of_uncovered {found : Option Nat} (uncovered : ∀ c ∈ copies, ¬ c.Covers a) :
    sourceFrom found copies a = found := by
  induction copies generalizing found with
  | nil => rfl
  | cons c rest ih =>
    have skip : ¬ c.Covers a := uncovered c (.head _)
    rw [sourceFrom_cons, if_neg skip]
    exact ih fun d inRest => uncovered d (.tail c inRest)

theorem sourceOf_append_of_uncovered (uncovered : ∀ c ∈ later, ¬ c.Covers a) :
    sourceOf (copies ++ later) a = sourceOf copies a := by
  rw [sourceOf_append, sourceFrom_of_uncovered uncovered]

theorem sourceOf_concat {c : Copy} (covers : c.Covers a) :
    sourceOf (copies ++ [c]) a = some (c.position a) := by
  rw [sourceOf_append, sourceFrom_cons, if_pos covers]
  rfl

theorem sourceFrom_cases {found : Option Nat} {pos : Nat}
    (ends : sourceFrom found copies a = some pos) :
    found = some pos ∨ ∃ c ∈ copies, c.Covers a ∧ pos = c.position a := by
  induction copies generalizing found with
  | nil => exact .inl ends
  | cons c rest ih =>
    rw [sourceFrom_cons] at ends
    rcases ih ends with here | ⟨d, inRest, covers, same⟩
    · split at here
      · next covers => exact .inr ⟨c, .head _, covers, (Option.some.inj here).symm⟩
      · exact .inl here
    · exact .inr ⟨d, .tail c inRest, covers, same⟩

theorem sourceOf_some {pos : Nat} (ends : sourceOf copies a = some pos) :
    ∃ c ∈ copies, c.Covers a ∧ pos = c.position a := by
  rcases sourceFrom_cases ends with none_some | found
  · cases none_some
  · exact found

theorem copyAll_apply (source mem : ByteMem) (copies : List Copy) (a : Nat) :
    copyAll source mem copies a = (sourceOf copies a).elim (mem a) source := by
  -- The induction carries the byte from before the copies and a source already found.
  suffices carried : ∀ (copies : List Copy) (found : Option Nat) (now : ByteMem),
      now a = found.elim (mem a) source →
      copyAll source now copies a = (sourceFrom found copies a).elim (mem a) source from
    carried copies none mem rfl
  intro copies
  induction copies with
  | nil => exact fun found now before => before
  | cons c rest ih =>
    intro found now before
    rw [sourceFrom_cons]
    refine ih _ (now.copyFrom source c.dest c.src c.len) ?_
    by_cases covers : c.Covers a
    · rw [if_pos covers, ByteMem.copyFrom_inside now source covers.1 covers.2]
      rfl
    · have outside : a < c.dest ∨ c.dest + c.len ≤ a := by
        unfold Copy.Covers at covers
        omega
      rw [if_neg covers, ByteMem.copyFrom_outside now source outside, before]

theorem sourceOf_shift (copies : List Copy) (base a : Nat) :
    sourceOf (copies.map (Copy.shift base)) (base + a) = sourceOf copies a := by
  unfold sourceOf sourceFrom
  rw [List.foldl_map]
  congr 1
  funext found c
  simp only [Copy.shift_covers, Copy.shift_position]

theorem sourceOf_eq_find (apart : copies.Pairwise fun c d => ¬ (c.Covers a ∧ d.Covers a)) :
    sourceOf copies a = (copies.find? (·.Covers a)).map (·.position a) := by
  induction copies with
  | nil => rfl
  | cons c rest ih =>
    by_cases covers : c.Covers a
    · have others : ∀ d ∈ rest, ¬ d.Covers a := fun d inRest again =>
        List.rel_of_pairwise_cons apart inRest ⟨covers, again⟩
      rw [List.find?_cons_of_pos (by simpa using covers)]
      unfold sourceOf
      rw [sourceFrom_cons, if_pos covers, sourceFrom_of_uncovered others]
      rfl
    · rw [List.find?_cons_of_neg (by simpa using covers), ← ih (List.Pairwise.of_cons apart)]
      unfold sourceOf
      rw [sourceFrom_cons, if_neg covers]

end Cboot
