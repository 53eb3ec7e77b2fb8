/-
**The id patterns of the plugin manager.**

`match_id` takes an operator off a pattern, turns the three fab characters of the rest into a number
in base 100 and compares it with the number of each board id. The digits are below 36, so that the
order of these numbers is the lexicographic order of the digits (`fab_lt_iff`).
-/

import Cboot.Utils.Strings

namespace Cboot.PluginManager

/-! ### The matcher -/

inductive Comparison
  | gt
  | ge
  | lt
  | le
  deriving DecidableEq

inductive MatchType
  | exact
  | part
  | compare (comparison : Comparison)
  deriving DecidableEq

def fabDigit (id : Byte) : Option Nat :=
  if 0x30 ≤ id ∧ id ≤ 0x39 then some (id.toNat - 0x30)
  else if 0x61 ≤ id ∧ id ≤ 0x7A then some (id.toNat - 0x61 + 10)
  else if 0x41 ≤ id ∧ id ≤ 0x5A then some (id.toNat - 0x41 + 10)
  else none

def fabLoop : List Byte → Nat → Option Nat
  | [], fabid => some fabid
  | id :: rest, fabid =>
    match fabDigit id with
    | some digit => fabLoop rest (fabid * 100 + digit)
    | none => none

def pmGetFabid (boardId : List Byte) : Option Nat :=
  if boardId.length < 13 then none else fabLoop ((boardId.drop 10).take 3) 0

def matchType (id : List Byte) : MatchType × List Byte :=
  if id.length > 2 ∧ textBytes ">=" <+: id then (.compare .ge, id.drop 2)
  else if id.length > 1 ∧ textBytes ">" <+: id then (.compare .gt, id.drop 1)
  else if id.length > 2 ∧ textBytes "<=" <+: id then (.compare .le, id.drop 2)
  else if id.length > 1 ∧ textBytes "<" <+: id then (.compare .lt, id.drop 1)
  else if id.length > 1 ∧ textBytes "^" <+: id then (.part, id.drop 1)
  else if 0x2A ∈ id then (.part, id.takeWhile (· ≠ 0x2A))
  else (.exact, id)

def compareFab : Comparison → Nat → Nat → Bool
  | .gt, boardFabid, fabid => decide (boardFabid > fabid)
  | .ge, boardFabid, fabid => decide (boardFabid ≥ fabid)
  | .lt, boardFabid, fabid => decide (boardFabid < fabid)
  | .le, boardFabid, fabid => decide (boardFabid ≤ fabid)

def matchBoard (type : MatchType) (idStr : List Byte) (fabid : Nat) (boardId : List Byte) : Bool :=
  match type with
  | .exact => boardId.length = idStr.length && idStr = boardId.take idStr.length
  | .part => boardId.length ≥ idStr.length && idStr = boardId.take idStr.length
  | .compare comparison =>
    boardId.length ≥ 13 && idStr.take 10 = boardId.take 10 &&
      match pmGetFabid boardId with
      | some boardFabid => compareFab comparison boardFabid fabid
      | none => false

def matchId (boardIds : Option (List (List Byte))) (id : List Byte) : Bool :=
  match matchType id with
  | (.compare comparison, idStr) =>
    match pmGetFabid idStr with
    | some fabid => (boardIds.getD []).any (matchBoard (.compare comparison) idStr fabid)
    | none => false
  | (type, idStr) => (boardIds.getD []).any (matchBoard type idStr 0)

/-! ### What a pattern stands for -/

inductive Operator
  | caret
  | compare (comparison : Comparison)

def operatorOf (pattern : List Byte) : Option (Operator × List Byte) :=
  if pattern.length ≤ 1 then none
  else if textBytes ">=" <+: pattern then some (.compare .ge, pattern.drop 2)
  else if textBytes ">" <+: pattern then some (.compare .gt, pattern.drop 1)
  else if textBytes "<=" <+: pattern then some (.compare .le, pattern.drop 2)
  else if textBytes "<" <+: pattern then some (.compare .lt, pattern.drop 1)
  else if textBytes "^" <+: pattern then some (.caret, pattern.drop 1)
  else none

def digitValue (c : Byte) : Option Nat :=
  (textBytes "0123456789abcdefghijklmnopqrstuvwxyz").idxOf?
    (if 0x41 ≤ c ∧ c ≤ 0x5A then c + 0x20 else c)

def HasFab (id : List Byte) (fab : List Nat) : Prop :=
  13 ≤ id.length ∧ ((id.drop 10).take 3).mapM digitValue = some fab

def Comparison.Holds : Comparison → List Nat → List Nat → Prop
  | .gt, board, pattern => pattern < board
  | .ge, board, pattern => pattern ≤ board
  | .lt, board, pattern => board < pattern
  | .le, board, pattern => board ≤ pattern

def Matches (pattern board : List Byte) : Prop :=
  match operatorOf pattern with
  | none => if 0x2A ∈ pattern then pattern.takeWhile (· ≠ 0x2A) <+: board else board = pattern
  | some (.caret, rest) => rest <+: board
  | some (.compare comparison, rest) =>
    ∃ patternFab boardFab, HasFab rest patternFab ∧ HasFab board boardFab ∧
      rest.take 10 = board.take 10 ∧ comparison.Holds boardFab patternFab

/-! ### Fab numbers -/

theorem fabDigit_eq : ∀ c : Byte, fabDigit c = digitValue c := by
  decide +kernel

theorem digitValue_lt {c : Byte} {digit : Nat} (value : digitValue c = some digit) :
    digit < 36 := by
  have bound : ∀ c : Byte, ∀ digit ∈ digitValue c, digit < 36 := by decide +kernel
  exact bound c digit value

def fabNumber (fab : List Nat) : Nat := fab.foldl (fun fabid digit => fabid * 100 + digit) 0

theorem fabLoop_eq (chars : List Byte) (start : Nat) :
    fabLoop chars start =
      (chars.mapM digitValue).map fun fab =>
        fab.foldl (fun fabid digit => fabid * 100 + digit) start := by
  induction chars generalizing start with
  | nil => simp [fabLoop]
  | cons c rest ih =>
    rw [fabLoop, fabDigit_eq, List.mapM_cons]
    cases digitValue c with
    | none => rfl
    | some digit =>
      simp only [ih, Option.bind_eq_bind, Option.bind_some]
      cases rest.mapM digitValue <;> rfl

theorem pmGetFabid_eq_some_iff {id : List Byte} {fabid : Nat} :
    pmGetFabid id = some fabid ↔ ∃ fab, HasFab id fab ∧ fabNumber fab = fabid := by
  rw [pmGetFabid, fabLoop_eq]
  by_cases short : id.length < 13
  · simp [short, HasFab, Nat.not_le.mpr short]
  · simp [short, HasFab, Nat.not_lt.mp short, fabNumber]

theorem HasFab.digits {id : List Byte} {fab : List Nat} (has : HasFab id fab) :
    ∃ a b c, fab = [a, b, c] ∧ a < 36 ∧ b < 36 ∧ c < 36 := by
  obtain ⟨long, digits⟩ := has
  have three : ((id.drop 10).take 3).length = 3 := by simp; omega
  obtain ⟨x, y, z, chars⟩ := List.length_eq_three.mp three
  simp only [chars, List.mapM_cons, List.mapM_nil, Option.bind_eq_bind, Option.pure_def,
    Option.bind_eq_some_iff, Option.some.injEq] at digits
  obtain ⟨a, first, -, ⟨b, second, -, ⟨c, third, -, rfl, rfl⟩, rfl⟩, rfl⟩ := digits
  exact ⟨a, b, c, rfl, digitValue_lt first, digitValue_lt second, digitValue_lt third⟩

theorem fab_lt_iff {id other : List Byte} {fab otherFab : List Nat} (has : HasFab id fab)
    (otherHas : HasFab other otherFab) : fabNumber fab < fabNumber otherFab ↔ fab < otherFab := by
  obtain ⟨a, b, c, rfl, small⟩ := has.digits
  obtain ⟨d, e, f, rfl, otherSmall⟩ := otherHas.digits
  simp only [fabNumber, List.foldl_cons, List.foldl_nil, List.cons_lt_cons_iff, lt_self_iff_false,
    and_false, or_false]
  omega

theorem compareFab_iff {id other : List Byte} {fab otherFab : List Nat} (has : HasFab id fab)
    (otherHas : HasFab other otherFab) (comparison : Comparison) :
    compareFab comparison (fabNumber fab) (fabNumber otherFab) = true ↔
      comparison.Holds fab otherFab := by
  cases comparison
  · simp [compareFab, Comparison.Holds, fab_lt_iff otherHas has]
  · simp [compareFab, Comparison.Holds, ← not_lt, fab_lt_iff has otherHas]
  · simp [compareFab, Comparison.Holds, fab_lt_iff has otherHas]
  · simp [compareFab, Comparison.Holds, ← not_lt, fab_lt_iff otherHas has]

/-! ### The match -/

theorem matchBoard_part_iff {idStr board : List Byte} {fabid : Nat} :
    matchBoard .part idStr fabid board = true ↔ idStr <+: board := by
  simp only [matchBoard, Bool.and_eq_true, decide_eq_true_eq, List.prefix_iff_eq_take]
  exact and_iff_right_of_imp fun same => by rw [same]; simp

theorem matchBoard_exact_iff {idStr board : List Byte} {fabid : Nat} :
    matchBoard .exact idStr fabid board = true ↔ board = idStr := by
  simp only [matchBoard, Bool.and_eq_true, decide_eq_true_eq]
  constructor
  · rintro ⟨length, same⟩
    rw [same, ← length, List.take_length]
  · rintro rfl
    simp

theorem matchBoard_compare_iff {idStr : List Byte} {patternFab : List Nat}
    (has : HasFab idStr patternFab) (comparison : Comparison) (board : List Byte) :
    matchBoard (.compare comparison) idStr (fabNumber patternFab) board = true ↔
      ∃ boardFab, HasFab board boardFab ∧ idStr.take 10 = board.take 10 ∧
        comparison.Holds boardFab patternFab := by
  cases fab : pmGetFabid board with
  | none =>
    have missing : ∀ boardFab, ¬ HasFab board boardFab := fun boardFab boardHas => by
      simp [pmGetFabid_eq_some_iff.mpr ⟨boardFab, boardHas, rfl⟩] at fab
    simp [matchBoard, fab, missing]
  | some boardFabid =>
    obtain ⟨boardFab, boardHas, rfl⟩ := pmGetFabid_eq_some_iff.mp fab
    have only : ∀ other, HasFab board other ↔ other = boardFab := fun other =>
      ⟨fun otherHas => Option.some.inj (otherHas.2.symm.trans boardHas.2), fun same => same ▸ boardHas⟩
    simp [matchBoard, fab, boardHas.1, only, compareFab_iff boardHas has]

theorem any_compare_iff (comparison : Comparison) (boards : List (List Byte)) (idStr : List Byte) :
    (match pmGetFabid idStr with
      | some fabid => boards.any (matchBoard (.compare comparison) idStr fabid)
      | none => false) = true ↔
      ∃ board ∈ boards, ∃ patternFab boardFab, HasFab idStr patternFab ∧ HasFab board boardFab ∧
        idStr.take 10 = board.take 10 ∧ comparison.Holds boardFab patternFab := by
  cases fab : pmGetFabid idStr with
  | none =>
    have missing : ∀ patternFab, ¬ HasFab idStr patternFab := fun patternFab has => by
      simp [pmGetFabid_eq_some_iff.mpr ⟨patternFab, has, rfl⟩] at fab
    simp [missing]
  | some fabid =>
    obtain ⟨patternFab, has, rfl⟩ := pmGetFabid_eq_some_iff.mp fab
    have only : ∀ other, HasFab idStr other ↔ other = patternFab := fun other =>
      ⟨fun otherHas => Option.some.inj (otherHas.2.symm.trans has.2), fun same => same ▸ has⟩
    simp [matchBoard_compare_iff has, only]

def typeOf (pattern : List Byte) : MatchType × List Byte :=
  match operatorOf pattern with
  | none =>
    if 0x2A ∈ pattern then (.part, pattern.takeWhile (· ≠ 0x2A)) else (.exact, pattern)
  | some (.caret, rest) => (.part, rest)
  | some (.compare comparison, rest) => (.compare comparison, rest)

theorem longer_and_iff {o id : List Byte} (two : o.length = 2) (more : id ≠ o) :
    id.length > 2 ∧ o <+: id ↔ o <+: id := by
  refine and_iff_right_of_imp fun starts => ?_
  by_contra short
  exact more (starts.eq_of_length_le (by omega)).symm

theorem matchType_eq {id : List Byte} (ge : id ≠ textBytes ">=") (le : id ≠ textBytes "<=") :
    matchType id = typeOf id := by
  by_cases short : id.length ≤ 1
  · have tests : ¬ id.length > 1 ∧ ¬ id.length > 2 := by omega
    simp only [matchType, typeOf, operatorOf, short, tests, false_and, if_true, if_false]
  · have long : id.length > 1 := Nat.not_le.mp short
    simp only [matchType, typeOf, operatorOf, short, long, true_and, if_false,
      longer_and_iff (o := textBytes ">=") rfl ge,
      longer_and_iff (o := textBytes "<=") rfl le]
    split_ifs <;> rfl

theorem not_matches_operator {operator : List Byte} {c : Comparison}
    (alone : operatorOf operator = some (.compare c, [])) (board : List Byte) :
    ¬ Matches operator board := by
  rw [Matches, alone]
  rintro ⟨_, _, ⟨long, -⟩, -⟩
  exact absurd long (by decide)

/-- `match_id` finds a match iff some board id matches by the meaning of the pattern. -/
theorem matchId_iff (boardIds : Option (List (List Byte))) (id : List Byte) :
    matchId boardIds id = true ↔ ∃ board ∈ boardIds.getD [], Matches id board := by
  by_cases ge : id = textBytes ">="
  · subst ge
    exact iff_of_false (by simp [matchId, matchType, textBytes, pmGetFabid])
      fun ⟨board, _, matches_⟩ => not_matches_operator (c := .ge) rfl board matches_
  by_cases le : id = textBytes "<="
  · subst le
    exact iff_of_false (by simp [matchId, matchType, textBytes, pmGetFabid])
      fun ⟨board, _, matches_⟩ => not_matches_operator (c := .le) rfl board matches_
  rw [matchId, matchType_eq ge le, typeOf]
  simp only [Matches]
  cases operatorOf id with
  | none =>
    by_cases star : (0x2A : Byte) ∈ id
    · simp only [star, if_true, List.any_eq_true, matchBoard_part_iff]
    · simp only [star, if_false, List.any_eq_true, matchBoard_exact_iff]
  | some operator =>
    obtain ⟨_ | comparison, rest⟩ := operator
    · simp [matchBoard_part_iff]
    · exact any_compare_iff comparison _ rest

end Cboot.PluginManager
