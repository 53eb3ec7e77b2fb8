/-
**An address from the shell.**

`update_boot_cfg_var` takes the value of an address variable apart at its dots and stores one number
for each part in an array of four bytes on the stack, without counting them. A number above 255 ends
the command; otherwise the array is copied to the variable.
-/

import Cboot.Utils.Strings

namespace Cboot.Cbo

/-! ### The loop -/

def dot : Byte := 0x2E

structure IpLoop where
  stack : ByteMem
  written : List Nat
  accepted : Bool

def ipLoop : List (List Byte) → List Nat → ByteMem → IpLoop
  | [], written, stack => ⟨stack, written, true⟩
  | tok :: rest, written, stack =>
    let num := tegrablUtilsStrtoul tok 10
    if 0xFF < num then ⟨stack, written, false⟩
    else ipLoop rest (written ++ [written.length])
      (stack.store written.length [BitVec.ofNat 8 num])

def parseIp (value : List Byte) (stack : ByteMem) : IpLoop := ipLoop (tokens dot value) [] stack

def IpLoop.stored (loop : IpLoop) : Option (List Byte) :=
  if loop.accepted then some (loop.stack.load 0 4) else none

/-! ### What it leaves -/

variable (parts : List (List Byte))

def numbers : List Nat := parts.map fun tok => tegrablUtilsStrtoul tok 10

theorem ipLoop_accepted :
    ∀ written stack, (ipLoop parts written stack).accepted = true ↔
      ∀ num ∈ numbers parts, num ≤ 0xFF := by
  induction parts with
  | nil => exact fun _ _ => iff_of_true rfl nofun
  | cons tok rest ih =>
    intro written stack
    rw [ipLoop, numbers, List.map_cons, List.forall_mem_cons]
    by_cases large : 0xFF < tegrablUtilsStrtoul tok 10
    · simp only [if_pos large]
      exact iff_of_false Bool.false_ne_true fun both => absurd both.1 (Nat.not_le.mpr large)
    · simp only [if_neg large]
      rw [ih]
      exact (and_iff_right (Nat.le_of_not_lt large)).symm

def writtenCount (nums : List Nat) : Nat := (nums.takeWhile (· ≤ 0xFF)).length

theorem ipLoop_written : ∀ k stack,
    (ipLoop parts (List.range k) stack).written =
      List.range (k + writtenCount (numbers parts)) := by
  induction parts with
  | nil => exact fun _ _ => rfl
  | cons tok rest ih =>
    intro k stack
    rw [ipLoop, numbers, List.map_cons, writtenCount]
    by_cases large : 0xFF < tegrablUtilsStrtoul tok 10
    · simp only [if_pos large]
      rw [List.takeWhile_cons_of_neg (by simpa using large)]
      rfl
    · simp only [if_neg large]
      rw [List.takeWhile_cons_of_pos (by simpa using large), List.length_range, List.length_cons,
        ← List.range_succ, ih, Nat.succ_add, Nat.add_succ]
      rfl

theorem ipLoop_bytes (small : ∀ num ∈ numbers parts, num ≤ 0xFF) :
    ∀ k stack, (ipLoop parts (List.range k) stack).stack =
      stack.store k ((numbers parts).map (BitVec.ofNat 8)) := by
  induction parts with
  | nil =>
    intro k stack
    funext a
    exact (ByteMem.store_outside stack k [] a (Nat.lt_or_ge a k)).symm
  | cons tok rest ih =>
    intro k stack
    rw [numbers, List.map_cons, List.forall_mem_cons] at small
    rw [ipLoop, numbers, List.map_cons, List.map_cons]
    simp only [if_neg (Nat.not_lt.mpr small.1)]
    rw [List.length_range, ← List.range_succ, ih small.2]
    exact stack.store_append k [_] _

/-! ### The usual notation -/

structure DecimalByte (part : List Byte) : Prop where
  some_ : part ≠ []
  digits : ∀ c ∈ part, IsDigit c
  small : decimalFrom 0 part ≤ 0xFF

structure Dotted (value : List Byte) (first second third fourth : List Byte) : Prop where
  text : value = first ++ dot :: (second ++ dot :: (third ++ dot :: fourth))
  parts : ∀ part ∈ [first, second, third, fourth], DecimalByte part

theorem DecimalByte.noDot {part : List Byte} (decimal : DecimalByte part) : dot ∉ part :=
  fun member => absurd (decimal.digits dot member).1 (by decide)

theorem DecimalByte.number {part : List Byte} (decimal : DecimalByte part) :
    tegrablUtilsStrtoul part 10 = decimalFrom 0 part :=
  strtoul_digits decimal.digits (decimal.small.trans_lt (by decide))

section Parts

variable {value first second third fourth : List Byte}

theorem dotted_parts (dotted : Dotted value first second third fourth) :
    tokens dot value = [first, second, third, fourth] := by
  have one := dotted.parts first (by simp)
  have two := dotted.parts second (by simp)
  have three := dotted.parts third (by simp)
  have four := dotted.parts fourth (by simp)
  rw [dotted.text, tokens_cons one.some_ one.noDot, tokens_cons two.some_ two.noDot,
    tokens_cons three.some_ three.noDot, tokens_last four.some_ four.noDot]

theorem dotted_numbers (dotted : Dotted value first second third fourth) :
    numbers (tokens dot value) = [decimalFrom 0 first, decimalFrom 0 second,
      decimalFrom 0 third, decimalFrom 0 fourth] := by
  rw [dotted_parts dotted, numbers]
  refine (List.map_congr_left fun part member => (dotted.parts part member).number).trans ?_
  rfl

end Parts

theorem dotted_small {value first second third fourth : List Byte}
    (dotted : Dotted value first second third fourth) :
    ∀ num ∈ numbers (tokens dot value), num ≤ 0xFF := by
  rw [dotted_numbers dotted]
  have small : ∀ part ∈ [first, second, third, fourth], decimalFrom 0 part ≤ 0xFF :=
    fun part member => (dotted.parts part member).small
  simpa using small

theorem exists_large_iff (nums : List Nat) : ∀ n, (∃ num ∈ nums.take n, 0xFF < num) ↔
    writtenCount nums < n ∧ ¬ ∀ num ∈ nums, num ≤ 0xFF := by
  induction nums with
  | nil => exact fun n => iff_of_false (by simp) fun both => both.2 nofun
  | cons num rest ih =>
    intro n
    cases n with
    | zero => exact iff_of_false (by simp) fun both => absurd both.1 (Nat.not_lt_zero _)
    | succ n =>
      rw [List.take_succ_cons, List.exists_mem_cons_iff, List.forall_mem_cons, writtenCount]
      by_cases large : 0xFF < num
      · refine iff_of_true (.inl large) ⟨?_, fun both => absurd both.1 (Nat.not_le.mpr large)⟩
        rw [List.takeWhile_cons_of_neg (by simpa using large)]
        exact Nat.succ_pos n
      · have small : num ≤ 0xFF := Nat.le_of_not_lt large
        rw [List.takeWhile_cons_of_pos (by simpa using small), or_iff_right large, ih n,
          and_iff_right small, List.length_cons, Nat.succ_lt_succ_iff]
        rfl

/-- What the command should do with a value: it stores an address exactly when the value is one in
the usual notation, the bytes are its numbers in order, and it writes to the array only. -/
structure IpArgumentRight (value : List Byte) (stack : ByteMem) : Prop where
  stores : (parseIp value stack).stored.isSome ↔
    ∃ first second third fourth, Dotted value first second third fourth
  bytes : ∀ first second third fourth, Dotted value first second third fourth →
    (parseIp value stack).stored = some ([first, second, third, fourth].map fun part =>
      BitVec.ofNat 8 (decimalFrom 0 part))
  inside : ∀ i ∈ (parseIp value stack).written, i < 4

section Argument

variable (value : List Byte) (stack : ByteMem)

theorem stored_isSome_iff : (parseIp value stack).stored.isSome ↔
    ∀ num ∈ numbers (tokens dot value), num ≤ 0xFF := by
  rw [← ipLoop_accepted (tokens dot value) [] stack, IpLoop.stored, parseIp]
  split
  · next accepted => exact iff_of_true rfl accepted
  · next rejected => exact iff_of_false Bool.false_ne_true rejected

theorem inside_iff : (∀ i ∈ (parseIp value stack).written, i < 4) ↔
    writtenCount (numbers (tokens dot value)) < 5 := by
  have written : (parseIp value stack).written =
      List.range (writtenCount (numbers (tokens dot value))) :=
    (ipLoop_written (tokens dot value) 0 stack).trans (by rw [Nat.zero_add])
  rw [written]
  constructor
  · intro inside
    refine Nat.lt_of_not_le fun five => ?_
    exact absurd (inside 4 (List.mem_range.mpr five)) (Nat.lt_irrefl 4)
  · intro few i member
    have below := List.mem_range.mp member
    omega

variable {value} in
theorem stored_dotted {first second third fourth : List Byte}
    (dotted : Dotted value first second third fourth) :
    (parseIp value stack).stored = some ([first, second, third, fourth].map fun part =>
      BitVec.ofNat 8 (decimalFrom 0 part)) := by
  have small := dotted_small dotted
  have accepted := (ipLoop_accepted (tokens dot value) [] stack).mpr small
  have bytes := ipLoop_bytes (tokens dot value) small 0 stack
  rw [dotted_numbers dotted] at bytes
  rw [IpLoop.stored, parseIp, if_pos accepted]
  refine congrArg some ?_
  show (ipLoop (tokens dot value) (List.range 0) stack).stack.load 0 4 = _
  rw [bytes]
  rfl

/-- **An address from the shell.** The command does what it should with a value exactly when it is
four decimal numbers of at most 255 with dots between them, or one of the first five parts is read
as a number above 255. -/
theorem ip_argument_iff : IpArgumentRight value stack ↔
    (∃ first second third fourth, Dotted value first second third fourth) ∨
      ∃ num ∈ (numbers (tokens dot value)).take 5, 0xFF < num := by
  rw [exists_large_iff]
  constructor
  · intro right
    by_cases small : ∀ num ∈ numbers (tokens dot value), num ≤ 0xFF
    · exact .inl (right.stores.mp ((stored_isSome_iff value stack).mpr small))
    · exact .inr ⟨(inside_iff value stack).mp right.inside, small⟩
  · rintro (⟨first, second, third, fourth, dotted⟩ | ⟨few, large⟩)
    · have small := dotted_small dotted
      refine ⟨iff_of_true ((stored_isSome_iff value stack).mpr small)
        ⟨first, second, third, fourth, dotted⟩, fun _ _ _ _ => stored_dotted stack, ?_⟩
      rw [inside_iff, dotted_numbers dotted, writtenCount]
      exact (List.takeWhile_sublist _).length_le.trans_lt (by simp)
    · have noDotted : ∀ first second third fourth, ¬ Dotted value first second third fourth :=
        fun _ _ _ _ dotted => large (dotted_small dotted)
      refine ⟨iff_of_false (fun stores => large ((stored_isSome_iff value stack).mp stores)) ?_,
        fun first second third fourth dotted => absurd dotted (noDotted _ _ _ _),
        (inside_iff value stack).mpr few⟩
      rintro ⟨first, second, third, fourth, dotted⟩
      exact noDotted _ _ _ _ dotted

end Argument

/-- The value 10.0 is stored with two bytes that were on the stack, a value without numbers is stored
as 0.0.0.0, and 1.2.3.4.5 writes behind the array. -/
theorem ip_argument_wrong :
    ((parseIp (textBytes "10.0") fun _ => 0xEE).stored = some [10, 0, 0xEE, 0xEE] ∧
      ¬ ∃ first second third fourth, Dotted (textBytes "10.0") first second third fourth) ∧
    (parseIp (textBytes "a.b.c.d") fun _ => 0xEE).stored = some [0, 0, 0, 0] ∧
    (parseIp (textBytes "1.2.3.4.5") fun _ => 0xEE).written = [0, 1, 2, 3, 4] := by
  refine ⟨⟨by decide, ?_⟩, by decide, by decide⟩
  rintro ⟨first, second, third, fourth, dotted⟩
  have parts := dotted_parts dotted
  have two : tokens dot (textBytes "10.0") = [textBytes "10", textBytes "0"] := by decide
  rw [two] at parts
  cases parts

end Cboot.Cbo
