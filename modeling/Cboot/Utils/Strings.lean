/-
**Strings of the C library.**

A string is the list of its bytes without the terminating zero; a pointer into memory is the memory
seen from there on.
-/

import Cboot.Lib.ByteMem

namespace Cboot

def textBytes (text : String) : List Byte := text.toList.map fun c => BitVec.ofNat 8 c.toNat

def stringAt (s : List Byte) : ByteMem := fun i => s.getD i 0

/-! ### Comparison -/

def strncmpEq (s1 : ByteMem) : List Byte → Bool
  | [] => true
  | c :: s2 => if s1 0 ≠ c then false else if s1 0 = 0 then true else strncmpEq (s1.view 1) s2

theorem strncmpEq_iff {s1 : ByteMem} {s s2 : List Byte} (noNul : 0 ∉ s2)
    (string : ∀ i < s.length + 1, s1 i = (s ++ [0]).getD i 0) :
    strncmpEq s1 s2 = true ↔ s2 <+: s := by
  induction s2 generalizing s1 s with
  | nil => exact iff_of_true rfl List.nil_prefix
  | cons c s2 ih =>
    have notZero : c ≠ 0 := fun zero => noNul (zero ▸ .head _)
    have first := string 0 (Nat.succ_pos _)
    rw [strncmpEq]
    cases s with
    | nil =>
      have zero : s1 0 = 0 := first
      rw [zero, if_pos notZero.symm]
      simp
    | cons b s =>
      have byte : s1 0 = b := first
      rw [byte, List.cons_prefix_cons]
      by_cases same : b = c
      · rw [if_neg (not_not.mpr same), if_neg (same ▸ notZero),
          ih (fun member => noNul (.tail _ member)) (s := s)]
        · exact (and_iff_right same.symm).symm
        · intro i bound
          have shifted := string (1 + i) (by rw [List.length_cons]; omega)
          rw [Nat.add_comm 1 i] at shifted
          rw [ByteMem.view, Nat.add_comm 1 i, shifted]
          rfl
      · rw [if_pos same]
        exact iff_of_false Bool.false_ne_true fun both => same both.1.symm

/-! ### Tokens -/

def strtok (delim : Byte) (s : List Byte) : Option (List Byte × Option (List Byte)) :=
  let sbegin := s.dropWhile (· = delim)
  if sbegin = [] then none
  else some (sbegin.takeWhile (· ≠ delim), (sbegin.dropWhile (· ≠ delim)).tail?)

def tokenLoop (delim : Byte) : Nat → Option (List Byte) → List (List Byte)
  | 0, _ => []
  | _, none => []
  | rounds + 1, some s =>
    match strtok delim s with
    | none => []
    | some (token, rest) => token :: tokenLoop delim rounds rest

def tokens (delim : Byte) (s : List Byte) : List (List Byte) :=
  tokenLoop delim (s.length + 1) (some s)

variable {delim : Byte}

theorem strtok_token {token rest : List Byte} (some_ : token ≠ [])
    (inside : delim ∉ token) (stop : rest.head? = none ∨ rest.head? = some delim) :
    strtok delim (token ++ rest) = some (token, rest.tail?) := by
  have other : ∀ c ∈ token, decide (c ≠ delim) = true := fun c member =>
    decide_eq_true fun same => inside (same ▸ member)
  have taken : rest.takeWhile (· ≠ delim) = [] := by
    cases rest with
    | nil => rfl
    | cons c rest =>
      have here : c = delim := by simpa using stop
      simp [here]
  have left : rest.dropWhile (· ≠ delim) = rest := by
    cases rest with
    | nil => rfl
    | cons c rest =>
      have here : c = delim := by simpa using stop
      simp [here]
  have start : (token ++ rest).dropWhile (· = delim) = token ++ rest := by
    cases token with
    | nil => exact absurd rfl some_
    | cons c token =>
      have different : c ≠ delim := fun same => inside (same ▸ .head _)
      simp [different]
  have notEmpty : ¬ token ++ rest = [] := fun empty => some_ (List.append_eq_nil_iff.mp empty).1
  rw [strtok, start, if_neg notEmpty, List.takeWhile_append_of_pos other,
    List.dropWhile_append_of_pos other, taken, left, List.append_nil]

theorem strtok_shorter {s token rest : List Byte}
    (found : strtok delim s = some (token, some rest)) : rest.length < s.length := by
  have short := (List.dropWhile_sublist (· = delim) (l := s)).length_le
  rw [strtok] at found
  split at found
  · cases found
  · have shorter := (List.dropWhile_sublist (· ≠ delim)
      (l := s.dropWhile (· = delim))).length_le
    have next : ((s.dropWhile (· = delim)).dropWhile (· ≠ delim)).tail? = some rest := by
      simpa using congrArg Prod.snd (Option.some.inj found)
    cases left : (s.dropWhile (· = delim)).dropWhile (· ≠ delim) with
    | nil => rw [left] at next; cases next
    | cons c tail =>
      rw [left] at next shorter
      cases next
      exact shorter.trans short

theorem tokenLoop_enough (rounds : Nat) :
    ∀ {s : List Byte}, s.length < rounds → tokenLoop delim rounds (some s) = tokens delim s := by
  induction rounds using Nat.strong_induction_on with
  | _ rounds ih =>
    intro s enough
    obtain ⟨rounds, rfl⟩ : ∃ n, rounds = n + 1 := ⟨rounds - 1, by omega⟩
    rw [tokens, tokenLoop, tokenLoop]
    cases found : strtok delim s with
    | none => rfl
    | some pair =>
      obtain ⟨token, next⟩ := pair
      show token :: tokenLoop delim rounds next = token :: tokenLoop delim s.length next
      cases next with
      | none => cases rounds <;> cases s <;> rfl
      | some rest =>
        have shorter := strtok_shorter found
        rw [ih rounds (Nat.lt_succ_self rounds) (by omega), ih s.length enough shorter]

theorem tokens_cons {token rest : List Byte} (some_ : token ≠ [])
    (inside : delim ∉ token) : tokens delim (token ++ delim :: rest) = token :: tokens delim rest := by
  have longer : rest.length < (token ++ delim :: rest).length := by
    rw [List.length_append, List.length_cons]
    omega
  rw [tokens, tokenLoop, strtok_token some_ inside (.inr rfl)]
  exact congrArg (token :: ·) (tokenLoop_enough _ longer)

theorem tokens_last {token : List Byte} (some_ : token ≠ [])
    (inside : delim ∉ token) : tokens delim token = [token] := by
  have found := strtok_token some_ inside (.inl rfl : ([] : List Byte).head? = none ∨ _)
  rw [List.append_nil] at found
  rw [tokens, tokenLoop, found]
  cases token <;> rfl

/-! ### Numbers -/

def isSpace (c : Byte) : Bool := c ∈ [0x20, 0x0C, 0x0A, 0x0D, 0x09, 0x0B]

def digitOf (base : Nat) (c : Byte) : Nat :=
  if 0x30 ≤ c ∧ c ≤ 0x39 then c.toNat - 0x30
  else if 0x41 ≤ c ∧ c ≤ 0x5A then c.toNat - 0x41 + 10
  else if 0x61 ≤ c ∧ c ≤ 0x7A then c.toNat - 0x61 + 10
  else base

inductive AnyDigits
  | nothing
  | digits
  | overflow
  deriving DecidableEq, Repr

def ulongMax : Nat := 2 ^ 64 - 1

def checkOverflow (acc val base : Nat) : Bool :=
  ulongMax / base < acc ∨ acc = ulongMax / base ∧ ulongMax % base < val

def strtoulParse (base : Nat) : List Byte → Nat → AnyDigits → Nat × AnyDigits
  | [], acc, any => (acc, any)
  | c :: s, acc, any =>
    if base ≤ digitOf base c then (acc, any)
    else if any = .overflow then strtoulParse base s acc any
    else if checkOverflow acc (digitOf base c) base then strtoulParse base s ulongMax .overflow
    else strtoulParse base s (acc * base + digitOf base c) .digits

def hasHexBaseChars (s : List Byte) : Bool :=
  s.getD 0 0 = 0x30 ∧ (s.getD 1 0 = 0x78 ∨ s.getD 1 0 = 0x58)

def signOf (s : List Byte) : Bool × List Byte :=
  if s.head? = some 0x2D then (true, s.tail)
  else if s.head? = some 0x2B then (false, s.tail)
  else (false, s)

def tegrablUtilsStrtoul (nptr : List Byte) (base : Nat) : Nat :=
  if base = 1 ∨ 36 < base then 0
  else
    let (neg, s) := signOf (nptr.dropWhile isSpace)
    let (base, s) := if (base = 0 ∨ base = 16) ∧ hasHexBaseChars s then (16, s.drop 2) else (base, s)
    let base := if base = 0 then (if s.getD 0 0 = 0x30 then 8 else 10) else base
    let (acc, any) := strtoulParse base s 0 .nothing
    if neg ∧ any = .digits then (2 ^ 64 - acc) % 2 ^ 64 else acc

def IsDigit (c : Byte) : Prop := 0x30 ≤ c ∧ c ≤ 0x39

def decimalFrom (acc : Nat) (digits : List Byte) : Nat :=
  digits.foldl (fun acc c => acc * 10 + (c.toNat - 0x30)) acc

theorem le_decimalFrom (digits : List Byte) : ∀ acc, acc ≤ decimalFrom acc digits := by
  induction digits with
  | nil => exact fun acc => le_rfl
  | cons c digits ih =>
    intro acc
    refine le_trans ?_ (ih (acc * 10 + (c.toNat - 0x30)))
    omega

theorem digitOf_isDigit {c : Byte} (digit : IsDigit c) :
    digitOf 10 c = c.toNat - 0x30 ∧ c.toNat - 0x30 < 10 := by
  have low : 0x30 ≤ c.toNat := digit.1
  have high : c.toNat ≤ 0x39 := digit.2
  exact ⟨if_pos digit, by omega⟩

theorem strtoulParse_digits {digits : List Byte} (all : ∀ c ∈ digits, IsDigit c) :
    ∀ {acc any}, any ≠ .overflow → decimalFrom acc digits < 2 ^ 32 →
      (strtoulParse 10 digits acc any).1 = decimalFrom acc digits := by
  induction digits with
  | nil => exact fun _ _ => rfl
  | cons c digits ih =>
    intro acc any fine small
    obtain ⟨value, below⟩ := digitOf_isDigit (all c (.head _))
    have bound : acc * 10 + (c.toNat - 0x30) < 2 ^ 32 := (le_decimalFrom digits _).trans_lt small
    have inRange : checkOverflow acc (c.toNat - 0x30) 10 = false := by
      rw [checkOverflow, decide_eq_false_iff_not, ulongMax]
      omega
    rw [strtoulParse, value, if_neg (Nat.not_le.mpr below), if_neg fine, inRange,
      if_neg nofun]
    exact ih (fun d member => all d (.tail _ member)) nofun small

theorem strtoul_digits {digits : List Byte} (all : ∀ c ∈ digits, IsDigit c)
    (small : decimalFrom 0 digits < 2 ^ 32) :
    tegrablUtilsStrtoul digits 10 = decimalFrom 0 digits := by
  have plain : signOf (digits.dropWhile isSpace) = (false, digits) := by
    cases digits with
    | nil => rfl
    | cons c digits =>
      have digit := all c (.head _)
      have low : 0x30 ≤ c.toNat := digit.1
      have notSpace : isSpace c = false := by
        rw [isSpace, decide_eq_false_iff_not]
        intro member
        have high : c.toNat < 0x30 := by
          fin_cases member <;> decide
        omega
      have other : ∀ b : Byte, b.toNat < 0x30 → c ≠ b := by
        rintro b less rfl
        omega
      rw [List.dropWhile_cons_of_neg (by rw [notSpace]; exact Bool.false_ne_true), signOf,
        if_neg (by simpa using other 0x2D (by decide)),
        if_neg (by simpa using other 0x2B (by decide))]
  rw [tegrablUtilsStrtoul, if_neg (by decide), plain]
  exact strtoulParse_digits all nofun small

end Cboot
