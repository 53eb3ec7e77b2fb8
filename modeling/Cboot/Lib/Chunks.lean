/-
**The chunks of a request.**

A request for `count` things from `start` on is served in chunks of at most `most` of them, one
behind the other.

* `chunks_cons`: the first chunk and the chunks of what is left, as a loop takes them.
-/

import Mathlib

namespace Cboot.Chunks

def chunks (most start count : Nat) : List (Nat × Nat) :=
  (List.range ((count + most - 1) / most)).map fun i => (start + i * most, min (count - i * most) most)

variable {most : Nat}

@[simp] theorem chunks_zero (start : Nat) : chunks most start 0 = [] := by
  rcases Nat.eq_zero_or_pos most with rfl | positive
  · rfl
  · have none_ : (0 + most - 1) / most = 0 := Nat.div_eq_of_lt (by omega)
    rw [chunks, none_]
    rfl

theorem chunks_cons (positive : 0 < most) (start : Nat) {count : Nat} (some_ : 0 < count) :
    chunks most start count = (start, min count most) ::
      chunks most (start + min count most) (count - min count most) := by
  by_cases single : count ≤ most
  · have one : (count + most - 1) / most = 1 :=
      Nat.div_eq_of_lt_le (by omega) (by omega)
    rw [Nat.min_eq_left single, Nat.sub_self, chunks_zero, chunks, one]
    simp [single]
  · have larger : most ≤ count := Nat.le_of_not_le single
    have more : (count + most - 1) / most = (count - most + most - 1) / most + 1 := by
      rw [← Nat.add_div_right _ positive]
      congr 1
      omega
    rw [Nat.min_eq_right larger, chunks, more, List.range_succ_eq_map, List.map_cons, List.map_map]
    refine congrArg₂ List.cons (by simp [larger]) (List.map_congr_left fun i _ => ?_)
    have next : (i + 1) * most = i * most + most := Nat.succ_mul i most
    simp only [Function.comp_apply, next, Prod.mk.injEq]
    omega

end Cboot.Chunks
