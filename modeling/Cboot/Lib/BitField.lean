/-
**Bit fields of a fixed-width word.**

A register that packs several values is read and written through a mask and a shift. The two
operations below are the usual C macros for one field at bit `off`, `width` bits wide:

* `fieldGet off width reg` is `(reg >> off) & ones(width)`;
* `fieldSet off width value reg` is `(reg & ~(ones(width) << off)) | ((value & ones(width)) << off)`.

* `fieldGet_fieldSet_self`: a field reads back what was written, cut to its width.
* `fieldGet_fieldSet_of_disjoint`: writing a field leaves every field it does not meet unchanged.
* `fieldGet_toNat`: the value of a field, as a quotient and a remainder.
* `toNat_and_not_mask`: clearing the low bits of a word.
* `and_bit_ne_zero_iff`: testing one bit of a word.
-/

import Mathlib

namespace Cboot.BitField

variable {w : Nat}

def ones (w width : Nat) : BitVec w := BitVec.ofNat w (2 ^ width - 1)

variable (off width : Nat)

def fieldGet (reg : BitVec w) : BitVec w := (reg >>> off) &&& ones w width

def fieldSet (value reg : BitVec w) : BitVec w :=
  (reg &&& ~~~(ones w width <<< off)) ||| ((value &&& ones w width) <<< off)

theorem getLsbD_ones (width i : Nat) :
    (ones w width).getLsbD i = (decide (i < w) && decide (i < width)) := by
  simp [ones, BitVec.getLsbD_ofNat, Nat.testBit_two_pow_sub_one]

theorem getLsbD_fieldGet (reg : BitVec w) (i : Nat) :
    (fieldGet off width reg).getLsbD i =
      (reg.getLsbD (off + i) && (decide (i < w) && decide (i < width))) := by
  simp [fieldGet, getLsbD_ones]

theorem getLsbD_fieldSet (value reg : BitVec w) (i : Nat) :
    (fieldSet off width value reg).getLsbD i =
      if off ≤ i ∧ i < off + width then decide (i < w) && value.getLsbD (i - off)
      else reg.getLsbD i := by
  simp only [fieldSet, BitVec.getLsbD_or, BitVec.getLsbD_and, BitVec.getLsbD_not,
    BitVec.getLsbD_shiftLeft, getLsbD_ones]
  by_cases inWord : i < w
  · have bound : i - off < w := by omega
    by_cases inField : off ≤ i ∧ i < off + width
    · have shifted : i - off < width := by omega
      have below : ¬ i < off := by omega
      simp [inWord, inField, shifted, below, bound]
    · rw [if_neg inField]
      by_cases below : i < off
      · simp [inWord, below]
      · have shifted : ¬ i - off < width := by omega
        simp [inWord, below, shifted]
  · have high : reg.getLsbD i = false := BitVec.getLsbD_of_ge _ _ (by omega)
    simp [inWord, high]

theorem fieldGet_fieldSet_self (value reg : BitVec w) (fits : off + width ≤ w) :
    fieldGet off width (fieldSet off width value reg) = value &&& ones w width := by
  apply BitVec.eq_of_getLsbD_eq
  intro i inWord
  rw [getLsbD_fieldGet, getLsbD_fieldSet, BitVec.getLsbD_and, getLsbD_ones]
  by_cases inField : i < width
  · have here : off ≤ off + i ∧ off + i < off + width := by omega
    have bound : off + i < w := by omega
    simp [here, bound, inWord, inField]
  · simp [inField]

theorem fieldGet_fieldSet_of_disjoint (off width off' width' : Nat) (value reg : BitVec w)
    (disjoint : off + width ≤ off' ∨ off' + width' ≤ off) :
    fieldGet off' width' (fieldSet off width value reg) = fieldGet off' width' reg := by
  apply BitVec.eq_of_getLsbD_eq
  intro i inWord
  rw [getLsbD_fieldGet, getLsbD_fieldGet, getLsbD_fieldSet]
  by_cases inField : i < width'
  · have outside : ¬ (off ≤ off' + i ∧ off' + i < off + width) := by omega
    rw [if_neg outside]
  · simp [inField]

theorem and_ones_toNat (value : BitVec w) (width : Nat) :
    (value &&& ones w width).toNat = value.toNat % 2 ^ width := by
  rw [BitVec.toNat_and, ones, BitVec.toNat_ofNat]
  apply Nat.eq_of_testBit_eq
  intro i
  rw [Nat.testBit_and, Nat.testBit_mod_two_pow, Nat.testBit_mod_two_pow,
    Nat.testBit_two_pow_sub_one]
  by_cases inWord : i < w
  · simp [inWord, Bool.and_comm]
  · have high : value.toNat.testBit i = false := by
      rw [BitVec.testBit_toNat]
      exact BitVec.getLsbD_of_ge _ _ (by omega)
    simp [high]

theorem fieldGet_toNat (reg : BitVec w) :
    (fieldGet off width reg).toNat = reg.toNat / 2 ^ off % 2 ^ width := by
  rw [fieldGet, and_ones_toNat, BitVec.toNat_ushiftRight, Nat.shiftRight_eq_div_pow]

theorem toNat_and_not_mask (x : BitVec w) {j : Nat} (inWord : j < w) :
    (x &&& ~~~(BitVec.twoPow w j - 1)).toNat = x.toNat / 2 ^ j * 2 ^ j := by
  have mask : BitVec.twoPow w j - 1 = ones w j := by
    apply BitVec.eq_of_toNat_eq
    have one : (1 : BitVec w).toNat = 1 := by
      refine (BitVec.toNat_ofNat 1 w).trans ?_
      exact Nat.mod_eq_of_lt (Nat.one_lt_two_pow (Nat.ne_of_gt (Nat.zero_lt_of_lt inWord)))
    have positive : 0 < 2 ^ j := Nat.two_pow_pos j
    have bound : 2 ^ j < 2 ^ w := Nat.pow_lt_pow_right (by decide) inWord
    have split : 2 ^ w - 1 + 2 ^ j = 2 ^ w + (2 ^ j - 1) := by omega
    rw [BitVec.toNat_sub, BitVec.toNat_twoPow_of_lt inWord, one, ones, BitVec.toNat_ofNat, split,
      Nat.add_mod_left]
  have cleared : x &&& ~~~(BitVec.twoPow w j - 1) = (x >>> j) <<< j := by
    apply BitVec.eq_of_getLsbD_eq
    intro i inRange
    rw [mask, BitVec.getLsbD_and, BitVec.getLsbD_not, getLsbD_ones, BitVec.getLsbD_shiftLeft,
      BitVec.getLsbD_ushiftRight]
    by_cases low : i < j
    · simp [low, inRange]
    · have split : j + (i - j) = i := by omega
      simp [low, inRange, split]
  rw [cleared, BitVec.toNat_shiftLeft, BitVec.toNat_ushiftRight, Nat.shiftLeft_eq,
    Nat.shiftRight_eq_div_pow]
  exact Nat.mod_eq_of_lt (Nat.lt_of_le_of_lt (Nat.div_mul_le_self _ _) x.isLt)

/-! ### Single bits -/

theorem getLsbD_bit (i j : Nat) : (1#w <<< i).getLsbD j = (decide (j = i) && decide (j < w)) := by
  rw [BitVec.getLsbD_shiftLeft, BitVec.getLsbD_one]
  by_cases inWord : j < w
  · have positive : 0 < w := by omega
    rcases Nat.lt_trichotomy j i with below | rfl | above
    · have different : j ≠ i := by omega
      simp [below, different]
    · simp [inWord, positive]
    · have different : j ≠ i := by omega
      have apart : j - i ≠ 0 := by omega
      simp [different, apart]
  · simp [inWord]

theorem and_bit_ne_zero_iff (word : BitVec w) (i : Nat) :
    word &&& (1#w <<< i) ≠ 0#w ↔ word.getLsbD i = true := by
  constructor
  · intro nonzero
    by_contra clear
    refine nonzero (BitVec.eq_of_getLsbD_eq fun j _ => ?_)
    rw [BitVec.getLsbD_and, getLsbD_bit, BitVec.getLsbD_zero]
    by_cases same : j = i
    · rw [same, Bool.eq_false_of_not_eq_true clear, Bool.false_and]
    · rw [decide_eq_false same, Bool.false_and, Bool.and_false]
  · intro isSet zero
    have bit : (word &&& (1#w <<< i)).getLsbD i = false := by rw [zero, BitVec.getLsbD_zero]
    have inWord : i < w := BitVec.lt_of_getLsbD isSet
    rw [BitVec.getLsbD_and, getLsbD_bit, isSet, decide_eq_true rfl, decide_eq_true inWord] at bit
    cases bit

end Cboot.BitField
