/-
**Cyclic redundancy checks.**

A check of `w` bits is the remainder of a shift register: each bit of the message moves the register
down by one, and a bit that leaves it adds the polynomial. The register is linear in exclusive or.

* `crc32_residue`: a message followed by its own check has the same check as every other one;
* `bitSteps_apart`: bits that fit into the register never cancel out.
-/

import Mathlib

namespace Cboot.Crc

section Register

variable {w : Nat} (poly : BitVec w) (crc : BitVec w)

def shift : BitVec w :=
  if crc.getLsbD 0 then (crc >>> 1) ^^^ poly else crc >>> 1

def shifts : Nat → BitVec w → BitVec w
  | 0, crc => crc
  | n + 1, crc => shifts n (shift poly crc)

def byteStep (byte : BitVec 8) : BitVec w := shifts poly 8 (crc ^^^ byte.setWidth w)

def remainder (message : List (BitVec 8)) : BitVec w :=
  message.foldl (byteStep poly) crc

def lowBytes : Nat → BitVec w → List (BitVec 8)
  | 0, _ => []
  | n + 1, word => word.setWidth 8 :: lowBytes n (word >>> 8)

variable {poly}

theorem shift_xor (first second : BitVec w) :
    shift poly (first ^^^ second) = shift poly first ^^^ shift poly second := by
  unfold shift
  rw [BitVec.getLsbD_xor, BitVec.ushiftRight_xor_distrib]
  cases first.getLsbD 0 with
  | false =>
    cases second.getLsbD 0 with
    | false => rfl
    | true => exact BitVec.xor_assoc _ _ _
  | true =>
    cases second.getLsbD 0 with
    | false =>
      show (first >>> 1 ^^^ second >>> 1) ^^^ poly = (first >>> 1 ^^^ poly) ^^^ second >>> 1
      ac_rfl
    | true =>
      show first >>> 1 ^^^ second >>> 1 = (first >>> 1 ^^^ poly) ^^^ (second >>> 1 ^^^ poly)
      have cancel : (first >>> 1 ^^^ poly) ^^^ (second >>> 1 ^^^ poly) =
          first >>> 1 ^^^ second >>> 1 ^^^ (poly ^^^ poly) := by ac_rfl
      rw [cancel, BitVec.xor_self, BitVec.xor_zero]

theorem shifts_xor (n : Nat) (first second : BitVec w) :
    shifts poly n (first ^^^ second) = shifts poly n first ^^^ shifts poly n second := by
  induction n generalizing first second with
  | zero => rfl
  | succ n ih => rw [shifts, shift_xor, ih]; rfl

theorem shifts_add (n m : Nat) (crc : BitVec w) :
    shifts poly (n + m) crc = shifts poly m (shifts poly n crc) := by
  induction n generalizing crc with
  | zero => rw [Nat.zero_add]; rfl
  | succ n ih => rw [Nat.succ_add]; exact ih (shift poly crc)

theorem shifts_of_clear {n : Nat} {crc : BitVec w} (clear : ∀ i < n, crc.getLsbD i = false) :
    shifts poly n crc = crc >>> n := by
  induction n generalizing crc with
  | zero => simp [shifts]
  | succ n ih =>
    have low : shift poly crc = crc >>> 1 := by
      rw [shift, clear 0 (Nat.zero_lt_succ n)]
      rfl
    rw [shifts, low, ih, ← BitVec.shiftRight_add, Nat.add_comm]
    intro i bound
    rw [BitVec.getLsbD_ushiftRight]
    exact clear (1 + i) (by omega)

theorem clear_low (word : BitVec w) (n : Nat) :
    (word ^^^ (word.setWidth n).setWidth w) >>> n = word >>> n := by
  apply BitVec.eq_of_getLsbD_eq
  intro i bound
  simp

theorem shifts_split (n : Nat) (crc word : BitVec w) :
    shifts poly n (crc ^^^ word) =
      shifts poly n (crc ^^^ (word.setWidth n).setWidth w) ^^^ word >>> n := by
  have rest : shifts poly n (word ^^^ (word.setWidth n).setWidth w) = word >>> n := by
    rw [shifts_of_clear, clear_low]
    intro i bound
    simp only [BitVec.getLsbD_xor, BitVec.getLsbD_setWidth, bound, decide_true, Bool.true_and]
    by_cases inWord : i < w
    · simp [inWord]
    · simp [inWord, BitVec.getLsbD_of_ge word i (Nat.le_of_not_lt inWord)]
  have parts : crc ^^^ word = (crc ^^^ (word.setWidth n).setWidth w) ^^^
      (word ^^^ (word.setWidth n).setWidth w) := by
    have cancel : (crc ^^^ (word.setWidth n).setWidth w) ^^^
        (word ^^^ (word.setWidth n).setWidth w) =
      crc ^^^ word ^^^ ((word.setWidth n).setWidth w ^^^ (word.setWidth n).setWidth w) := by ac_rfl
    rw [cancel, BitVec.xor_self, BitVec.xor_zero]
  rw [parts, shifts_xor, rest]

theorem remainder_word (n : Nat) (crc word : BitVec w) :
    remainder poly crc (lowBytes n word) =
      shifts poly (8 * n) (crc ^^^ word) ^^^ word >>> (8 * n) := by
  induction n generalizing crc word with
  | zero => simp [remainder, lowBytes, shifts]
  | succ n ih =>
    have first : remainder poly crc (lowBytes (n + 1) word) =
        remainder poly (byteStep poly crc (word.setWidth 8)) (lowBytes n (word >>> 8)) := rfl
    have moved : byteStep poly crc (word.setWidth 8) ^^^ word >>> 8 =
        shifts poly 8 (crc ^^^ word) := (shifts_split 8 crc word).symm
    rw [first, ih, moved, ← shifts_add, ← BitVec.shiftRight_add, Nat.mul_succ, Nat.add_comm 8]

theorem remainder_append (first second : List (BitVec 8)) :
    remainder poly crc (first ++ second) = remainder poly (remainder poly crc first) second :=
  List.foldl_append

variable (poly) in
def bitStep (bit : Bool) : BitVec w :=
  shift poly (crc ^^^ (BitVec.ofBool bit).setWidth w)

def lowBits (n : Nat) (word : BitVec w) : List Bool := (List.range n).map word.getLsbD

theorem lowBits_word (n : Nat) (crc word : BitVec w) :
    (lowBits n word).foldl (bitStep poly) crc =
      shifts poly n (crc ^^^ word) ^^^ word >>> n := by
  induction n generalizing crc word with
  | zero => simp [lowBits, shifts]
  | succ n ih =>
    have rest : lowBits (n + 1) word = word.getLsbD 0 :: lowBits n (word >>> 1) := by
      rw [lowBits, List.range_succ_eq_map, List.map_cons, List.map_map, lowBits]
      congr 2
      funext i
      simp [Nat.add_comm]
    have low : (word.setWidth 1).setWidth w = (BitVec.ofBool (word.getLsbD 0)).setWidth w := by
      congr 1
      apply BitVec.eq_of_getLsbD_eq
      intro i bound
      obtain rfl : i = 0 := by omega
      simp
    have moved : bitStep poly crc (word.getLsbD 0) ^^^ word >>> 1 = shift poly (crc ^^^ word) := by
      rw [bitStep, ← low]
      exact (shifts_split 1 crc word).symm
    rw [rest, List.foldl_cons, ih, moved, ← BitVec.shiftRight_add, Nat.add_comm 1]
    rfl

/-- Two runs that end alike began apart exactly by the bits they took in, as long as these only
differ while they fit into the register. -/
theorem bitSteps_apart {c₁ c₂ : BitVec w} {l₁ l₂ : List Bool} (top : poly.getLsbD (w - 1) = true)
    (length : l₁.length = l₂.length) (after : ∀ i ≥ w, l₁.getD i false = l₂.getD i false)
    (ends : l₁.foldl (bitStep poly) c₁ = l₂.foldl (bitStep poly) c₂) :
    ∀ i < w, (c₁ ^^^ c₂).getLsbD i = (l₁.getD i false ^^ l₂.getD i false) := by
  induction l₁ generalizing c₁ c₂ l₂ with
  | nil =>
    obtain rfl : l₂ = [] := List.eq_nil_of_length_eq_zero length.symm
    obtain rfl : c₁ = c₂ := ends
    simp
  | cons b₁ l₁ ih =>
    match l₂, length with
    | b₂ :: l₂, length =>
    intro i bound
    have later := ih (Nat.succ.inj length) (fun i large => after (i + 1) (by omega)) ends
    rw [bitStep, bitStep, ← shift_xor] at later
    set x := c₁ ^^^ (BitVec.ofBool b₁).setWidth w ^^^ (c₂ ^^^ (BitVec.ofBool b₂).setWidth w)
    have bit (j : Nat) (inside : j < w) : x.getLsbD j =
        ((c₁ ^^^ c₂).getLsbD j ^^ (decide (j = 0) && (b₁ ^^ b₂))) := by
      simp only [x, BitVec.getLsbD_xor, BitVec.getLsbD_setWidth, BitVec.getLsbD_ofBool, inside,
        decide_true, Bool.true_and]
      cases b₁ <;> cases b₂ <;> cases decide (j = 0) <;> simp
    -- a bit that leaves the register shows in its highest place
    have even : x.getLsbD 0 = false := by
      have high := later (w - 1) (by omega)
      have same := after w (Nat.le_refl w)
      rw [← Nat.sub_add_cancel (show 1 ≤ w by omega), List.getD_cons_succ,
        List.getD_cons_succ] at same
      rw [same, Bool.xor_self, shift] at high
      by_contra odd
      rw [if_pos (by simpa using odd), BitVec.getLsbD_xor, BitVec.getLsbD_ushiftRight,
        BitVec.getLsbD_of_ge x _ (by omega), top] at high
      exact absurd high (by decide)
    cases i with
    | zero => exact bne_eq_false_iff_eq.mp ((bit 0 bound).symm.trans even)
    | succ i =>
      have moved := later i (by omega)
      rw [shift, even, if_neg (by decide), BitVec.getLsbD_ushiftRight, Nat.add_comm 1,
        bit (i + 1) bound] at moved
      simpa using moved

end Register

/-! ### The check of 32 bits -/

def polynomial32 : BitVec 32 := 0xEDB88320

def crc32 (message : List (BitVec 8)) : BitVec 32 :=
  ~~~remainder polynomial32 (BitVec.allOnes 32) message

theorem crc32_append_word (message : List (BitVec 8)) (word : BitVec 32) :
    crc32 (message ++ lowBytes 4 word) =
      ~~~shifts polynomial32 32 (~~~(crc32 message ^^^ word)) := by
  have gone : word >>> (8 * 4) = 0#32 := by
    apply BitVec.eq_of_getLsbD_eq
    intro i bound
    rw [BitVec.getLsbD_ushiftRight, BitVec.getLsbD_of_ge _ _ (by omega)]
    exact (BitVec.getLsbD_zero).symm
  have start : ~~~(crc32 message ^^^ word) =
      remainder polynomial32 (BitVec.allOnes 32) message ^^^ word := by
    rw [crc32, ← BitVec.not_xor_left, BitVec.not_not]
  rw [crc32, remainder_append, remainder_word, gone, BitVec.xor_zero, start]

def residue32 : BitVec 32 := 0x2144DF1C

theorem crc32_residue (message : List (BitVec 8)) :
    crc32 (message ++ lowBytes 4 (crc32 message)) = residue32 := by
  rw [crc32_append_word, BitVec.xor_self]
  decide +kernel

end Cboot.Crc
