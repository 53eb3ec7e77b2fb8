/-
**Lines that are cut out and trimmed in memory.**

`parse_conf_file` takes the text of `extlinux.conf` apart in place: `strtok` ends each line with a
zero, and `remove_whitespace_and_comment` writes zeros over the comment and the white space behind
the text. The loop that removes white space from the end of a line starts one character before the
comment sign, so that on a line that is only a comment it leaves the line.

The functions run on the characters of the memory, with a record of what they read and write.
-/

import Cboot.Lib.Tape
import Cboot.LinuxBoot.Extlinux

namespace Cboot.LinuxBoot

open Tape

/-! ### The functions on memory -/

def strtokAt (fuel p : Nat) : TapeM Char (Option (Nat × Option Nat)) := do
  let sbegin ← scan (fun c => c != '\n') fuel p
  let c ← load sbegin
  if c = '\x00' then pure none
  else do
    let send ← scan (fun c => c == '\x00' || c == '\n') fuel sbegin
    let c ← load send
    if c = '\x00' then pure (some (sbegin, none))
    else do
      store send '\x00'
      pure (some (sbegin, some (send + 1)))

def skipText : Nat → Nat → Option Nat → TapeM Char (Nat × Option Nat)
  | 0, _, _ => stuck
  | fuel + 1, s, first => do
    let c ← load s
    if c = '\n' ∨ c = '\x00' then pure (s, first)
    else if isspace c then skipText fuel (s + 1) first
    else if c = '#' then do
      store s '\x00'
      pure (s, some (first.getD s))
    else skipText fuel (s + 1) (some (first.getD s))

def trimBack (first : Nat) : Nat → TapeM Char Unit
  | 0 =>
    if 0 = first then pure ()
    else do
      let c ← load 0
      if isspace c then stuck else pure ()
  | s + 1 =>
    if s + 1 = first then pure ()
    else do
      let c ← load (s + 1)
      if isspace c then do
        store (s + 1) '\x00'
        trimBack first s
      else pure ()

def removeWhitespaceAndCommentAt (fuel str : Nat) : TapeM Char Nat := do
  let (s, first) ← skipText fuel str none
  trimBack (first.getD str) (s - 1)
  pure (first.getD str)

/-! ### Calls of `strtok` -/

section Strtok

variable {fuel p : Nat} {t : Tape Char} {gap token rest : Text}

theorem scan_gap {c : Char} (spelled : Spells t.mem p (gap ++ [c])) (ends : ∀ d ∈ gap, d = '\n')
    (other : c ≠ '\n') (enough : gap.length < fuel) :
    ∃ t', scan (fun c => c != '\n') fuel p t = some (p + gap.length, t') ∧ t'.mem = t.mem ∧
      Touched (Set.Icc p (p + gap.length)) ∅ t t' ∧ p + gap.length ∈ t'.reads := by
  refine scan_spec spelled (fun d member => ?_) (bne_iff_ne.mpr other) enough
  rw [ends d member]
  rfl

theorem strtok_none (spelled : Spells t.mem p (gap ++ ['\x00'])) (ends : ∀ d ∈ gap, d = '\n')
    (enough : gap.length < fuel) :
    ∃ t', strtokAt fuel p t = some (none, t') ∧ t'.mem = t.mem ∧
      Touched (Set.Icc p (p + gap.length)) ∅ t t' ∧ p + gap.length ∈ t'.reads := by
  obtain ⟨t', ran, same, touched, reached⟩ := scan_gap spelled ends (by decide) enough
  have zero : t'.mem (p + gap.length) = '\x00' := by
    rw [same]
    exact (Spells.append.mp spelled).2.1
  refine ⟨{ t' with reads := (p + gap.length) :: t'.reads }, ?_, same, ?_, .head _⟩
  · rw [strtokAt, bind_run ran, bind_run rfl, zero, if_pos rfl]
    rfl
  · exact touched.trans (load_touched (Set.mem_Icc.mpr ⟨Nat.le_add_right _ _, le_rfl⟩) ∅ t')

theorem strtok_found {last : Char} {high : Nat}
    (spelled : Spells t.mem p (gap ++ (token ++ [last]))) (ends : ∀ d ∈ gap, d = '\n')
    (some_ : token ≠ []) (oneLine : '\n' ∉ token) (noZero : '\x00' ∉ token)
    (stop : last = '\x00' ∨ last = '\n') (enough : gap.length + token.length < fuel)
    (within : p + gap.length + token.length ≤ high)
    (moreWithin : last = '\n' → p + gap.length + token.length < high) :
    ∃ t', strtokAt fuel p t = some (some (p + gap.length,
          if last = '\x00' then none else some (p + gap.length + token.length + 1)), t') ∧
      t'.mem = Function.update t.mem (p + gap.length + token.length) '\x00' ∧
      Touched (Set.Icc p high) (Set.Ico p high) t t' ∧
      p + gap.length + token.length ∈ t'.reads := by
  obtain ⟨c, tail, rfl⟩ := List.exists_cons_of_ne_nil some_
  obtain ⟨before, behind⟩ := Spells.append.mp spelled
  have notEnd : c ≠ '\n' := fun same => oneLine (same ▸ .head _)
  have notZero : c ≠ '\x00' := fun same => noZero (same ▸ .head _)
  obtain ⟨t₁, ran₁, same₁, touched₁, -⟩ := scan_gap
    (Spells.append.mpr ⟨before, behind.1, trivial⟩) ends notEnd
    (Nat.lt_of_le_of_lt (Nat.le_add_right _ _) enough)
  -- the first character of the token is read again
  have first : t₁.mem (p + gap.length) = c := by
    rw [same₁]
    exact behind.1
  have inToken : ∀ d ∈ c :: tail, (d == '\x00' || d == '\n') = false := by
    intro d member
    have zero : (d == '\x00') = false := beq_false_of_ne fun same => noZero (same ▸ member)
    have newline : (d == '\n') = false := beq_false_of_ne fun same => oneLine (same ▸ member)
    rw [zero, newline]
    rfl
  have atEnd : (last == '\x00' || last == '\n') = true := by
    rcases stop with rfl | rfl <;> rfl
  obtain ⟨t₂, ran₂, same₂, touched₂, -⟩ :=
    scan_spec (t := { t₁ with reads := (p + gap.length) :: t₁.reads })
      (by rw [same₁]; exact behind) inToken atEnd (Nat.lt_of_le_of_lt (Nat.le_add_left _ _) enough)
  have final : t₂.mem (p + gap.length + (c :: tail).length) = last := by
    rw [same₂, same₁]
    exact (Spells.append.mp behind).2.1
  have unchanged : t₂.mem = t.mem := same₂.trans same₁
  generalize isEnd : p + gap.length + (c :: tail).length = e at *
  have touched : Touched (Set.Icc p high) (Set.Ico p high) t { t₂ with reads := e :: t₂.reads } := by
    refine (((touched₁.mono ?_ (Set.empty_subset _)).trans (load_touched ?_ _ t₁)).trans
      (touched₂.mono ?_ (Set.empty_subset _))).trans (load_touched ?_ _ t₂)
    · exact Set.Icc_subset_Icc_right (by omega)
    · exact Set.mem_Icc.mpr ⟨by omega, by omega⟩
    · exact Set.Icc_subset_Icc (by omega) within
    · exact Set.mem_Icc.mpr ⟨by omega, within⟩
  have ran : strtokAt fuel p t = (if last = '\x00' then pure (some (p + gap.length, none)) else do
      store e '\x00'
      pure (some (p + gap.length, some (e + 1))) : TapeM Char (Option (Nat × Option Nat)))
        { t₂ with reads := e :: t₂.reads } := by
    rw [strtokAt, bind_run ran₁, bind_run rfl, first, if_neg notZero, bind_run ran₂, bind_run rfl,
      final]
  rcases stop with rfl | rfl
  · refine ⟨_, ran, ?_, touched, .head _⟩
    rw [← unchanged, ← final, Function.update_eq_self]
  · refine ⟨_, ran, ?_, touched.trans (store_touched ?_ _ '\x00' _), .head _⟩
    · show Function.update t₂.mem _ _ = _
      rw [unchanged]
    · exact Set.mem_Ico.mpr ⟨by omega, moreWithin rfl⟩

end Strtok

/-! ### One line is trimmed -/

def firstAt : Nat → Option Nat → Text → Option Nat
  | _, first, [] => first
  | s, first, c :: body => firstAt (s + 1) (if isspace c then first else some (first.getD s)) body

theorem firstAt_some (s f : Nat) (body : Text) : firstAt s (some f) body = some f := by
  induction body generalizing s with
  | nil => rfl
  | cons c body ih =>
    rw [firstAt]
    split
    · exact ih (s + 1)
    · exact ih (s + 1)

theorem firstAt_spaces {blanks : Text} (white : ∀ c ∈ blanks, isspace c = true) (s : Nat)
    (body : Text) : firstAt s none (blanks ++ body) = firstAt (s + blanks.length) none body := by
  induction blanks generalizing s with
  | nil => rfl
  | cons c blanks ih =>
    rw [List.cons_append, firstAt, if_pos (white c (.head _)),
      ih (fun d member => white d (.tail c member)), List.length_cons, Nat.add_assoc,
      Nat.add_comm 1]

section Loops

variable {fuel s : Nat} {t : Tape Char} {first : Option Nat}

theorem skipText_step {c : Char} (here : t.mem s = c) (notEnd : c ≠ '\n') (notZero : c ≠ '\x00')
    (notSign : c ≠ '#') :
    skipText (fuel + 1) s first t =
      skipText fuel (s + 1) (if isspace c then first else some (first.getD s))
        { t with reads := s :: t.reads } := by
  have inside : ¬(c = '\n' ∨ c = '\x00') := by
    rintro (same | same)
    · exact notEnd same
    · exact notZero same
  rw [skipText, bind_run rfl, here, if_neg inside]
  by_cases white : isspace c = true
  · rw [if_pos white, if_pos white]
  · rw [if_neg white, if_neg notSign, if_neg white]

theorem skipText_body {body : Text} (spelled : Spells t.mem s body) (oneLine : '\n' ∉ body)
    (noZero : '\x00' ∉ body) (noSign : '#' ∉ body) :
    ∃ t', skipText (fuel + body.length) s first t =
        skipText fuel (s + body.length) (firstAt s first body) t' ∧
      t'.mem = t.mem ∧ Touched (Set.Ico s (s + body.length)) ∅ t t' := by
  induction body generalizing s first t with
  | nil => exact ⟨t, rfl, rfl, Touched.refl _ _ t⟩
  | cons c body ih =>
    have step := @skipText_step (fuel + body.length) s t first c spelled.1
      (fun same => oneLine (same ▸ .head _))
      (fun same => noZero (same ▸ .head _))
      (fun same => noSign (same ▸ .head _))
    obtain ⟨t', ran, same, touched⟩ := ih (t := { t with reads := s :: t.reads }) spelled.2
      (fun member => oneLine (.tail c member))
      (fun member => noZero (.tail c member))
      (fun member => noSign (.tail c member))
    have next : s + 1 + body.length = s + (c :: body).length := by
      rw [List.length_cons]
      omega
    rw [next] at ran touched
    refine ⟨t', step.trans ran, same, ?_⟩
    refine (load_touched (Set.mem_Ico.mpr ⟨le_rfl, ?_⟩) ∅ t).trans
      (touched.mono (Set.Ico_subset_Ico_left (Nat.le_succ s)) (Set.Subset.refl ∅))
    rw [← next]
    omega

theorem skipText_end (zero : t.mem s = '\x00') :
    skipText (fuel + 1) s first t = some ((s, first), { t with reads := s :: t.reads }) := by
  rw [skipText, bind_run rfl, zero, if_pos (.inr rfl)]
  rfl

theorem skipText_sign (sign : t.mem s = '#') :
    skipText (fuel + 1) s first t = some ((s, some (first.getD s)),
      ⟨Function.update t.mem s '\x00', s :: t.reads, s :: t.writes⟩) := by
  rw [skipText, bind_run rfl, sign, if_neg (by decide), if_neg (by decide), if_pos rfl]
  rfl

end Loops

theorem trimBack_stop {first lo : Nat} {t : Tape Char}
    (stop : lo = first ∨ isspace (t.mem lo) = false) :
    ∃ t', trimBack first lo t = some ((), t') ∧ t'.mem = t.mem ∧ Touched {lo} ∅ t t' ∧
      (lo = first ∨ lo ∈ t'.reads) := by
  by_cases here : lo = first
  · refine ⟨t, ?_, rfl, Touched.refl _ _ t, .inl here⟩
    cases lo with
    | zero | succ lo => rw [trimBack, if_pos here]; rfl
  · have text : ¬isspace (t.mem lo) = true := by
      rw [stop.resolve_left here]
      exact Bool.false_ne_true
    refine ⟨{ t with reads := lo :: t.reads }, ?_, rfl, load_touched (Set.mem_singleton lo) ∅ t,
      .inr (.head _)⟩
    cases lo with
    | zero | succ lo => rw [trimBack, if_neg here, bind_run rfl, if_neg text]; rfl

theorem trimBack_spec {first lo s : Nat} {t : Tape Char} (le : lo ≤ s)
    (white : ∀ a, lo < a → a ≤ s → isspace (t.mem a) = true)
    (notFirst : ∀ a, lo < a → a ≤ s → a ≠ first)
    (stop : lo = first ∨ isspace (t.mem lo) = false) :
    ∃ t', trimBack first s t = some ((), t') ∧
      (∀ a, t'.mem a = if lo < a ∧ a ≤ s then '\x00' else t.mem a) ∧
      Touched (Set.Icc lo s) (Set.Ioc lo s) t t' ∧ (lo = first ∨ lo ∈ t'.reads) := by
  induction s generalizing t with
  | zero =>
    obtain rfl : lo = 0 := Nat.le_zero.mp le
    obtain ⟨t', ran, same, touched, reached⟩ := trimBack_stop stop
    refine ⟨t', ran, fun a => ?_, touched.mono ?_ (Set.empty_subset _), reached⟩
    · rw [same, if_neg (by omega)]
    · exact Set.singleton_subset_iff.mpr (Set.mem_Icc.mpr ⟨le_rfl, le_rfl⟩)
  | succ s ih =>
    rcases Nat.lt_or_eq_of_le le with below | rfl
    · -- the last character is white space
      have blank := white (s + 1) below le_rfl
      obtain ⟨t₁, made⟩ : ∃ t₁ : Tape Char,
          t₁ = ⟨Function.update t.mem (s + 1) '\x00', (s + 1) :: t.reads, (s + 1) :: t.writes⟩ :=
        ⟨_, rfl⟩
      have cleared : t₁.mem (s + 1) = '\x00' := by
        rw [made]
        exact Function.update_self _ _ _
      have others : ∀ a, a ≠ s + 1 → t₁.mem a = t.mem a := by
        intro a other
        rw [made]
        exact Function.update_of_ne other _ _
      have step : trimBack first (s + 1) t = trimBack first s t₁ := by
        rw [made, trimBack, if_neg (notFirst (s + 1) below le_rfl), bind_run rfl, if_pos blank,
          bind_run rfl]
      have started : Touched (Set.Icc lo (s + 1)) (Set.Ioc lo (s + 1)) t t₁ := by
        rw [made]
        exact (load_touched (Set.mem_Icc.mpr ⟨le, le_rfl⟩) _ t).trans
          (store_touched (Set.mem_Ioc.mpr ⟨below, le_rfl⟩) _ '\x00' _)
      obtain ⟨t', ran, mem, touched, reached⟩ := ih (t := t₁) (Nat.lt_succ_iff.mp below)
        (fun a low high => by
          rw [others a (by omega)]
          exact white a low (by omega))
        (fun a low high => notFirst a low (by omega))
        (by rw [others lo (by omega)]; exact stop)
      refine ⟨t', step.trans ran, fun a => ?_, ?_, reached⟩
      · rw [mem a]
        by_cases last : a = s + 1
        · rw [last, if_neg (by omega), if_pos ⟨below, le_rfl⟩, cleared]
        · rw [others a last]
          by_cases inside : lo < a ∧ a ≤ s
          · rw [if_pos inside, if_pos ⟨inside.1, by omega⟩]
          · rw [if_neg inside, if_neg (by omega)]
      · exact started.trans (touched.mono (Set.Icc_subset_Icc_right (Nat.le_succ s))
          (Set.Ioc_subset_Ioc_right (Nat.le_succ s)))
    · obtain ⟨t', ran, same, touched, reached⟩ := trimBack_stop stop
      refine ⟨t', ran, fun a => ?_, touched.mono ?_ (Set.empty_subset _), reached⟩
      · rw [same, if_neg (by omega)]
      · exact Set.singleton_subset_iff.mpr (Set.mem_Icc.mpr ⟨le_rfl, le_rfl⟩)

section Trim

variable {fuel q high : Nat} {t : Tape Char} {body : Text} {last : Char}

structure Plain (body : Text) : Prop where
  oneLine : '\n' ∉ body
  noZero : '\x00' ∉ body
  noSign : '#' ∉ body

theorem skipText_spec (spelled : Spells t.mem q (body ++ [last])) (plain : Plain body)
    (stop : last = '\x00' ∨ last = '#') (enough : body.length < fuel)
    (within : q + body.length ≤ high) (signWithin : last = '#' → q + body.length < high) :
    ∃ t', skipText fuel q none t = some ((q + body.length, if last = '#'
          then some ((firstAt q none body).getD (q + body.length)) else firstAt q none body), t') ∧
      t'.mem = Function.update t.mem (q + body.length) '\x00' ∧
      Touched (Set.Icc q high) (Set.Ico q high) t t' := by
  obtain ⟨before, behind, -⟩ := Spells.append.mp spelled
  obtain ⟨more, rfl⟩ : ∃ more, fuel = more + 1 + body.length := ⟨fuel - body.length - 1, by omega⟩
  obtain ⟨t₁, ran, same, touched⟩ := @skipText_body (more + 1) q t none body before plain.oneLine
    plain.noZero plain.noSign
  have here : q + body.length ∈ Set.Icc q high := Set.mem_Icc.mpr ⟨Nat.le_add_right _ _, within⟩
  have started := touched.mono (Set.Ico_subset_Icc_self.trans (Set.Icc_subset_Icc_right within))
    (Set.empty_subset (Set.Ico q high))
  rcases stop with rfl | rfl
  · refine ⟨_, ran.trans (skipText_end (by rw [same]; exact behind)), ?_,
      started.trans (load_touched here _ t₁)⟩
    show t₁.mem = _
    rw [same, ← behind, Function.update_eq_self]
  · refine ⟨_, ran.trans (skipText_sign (by rw [same]; exact behind)), ?_,
      started.trans ((load_touched here _ t₁).trans (store_touched
        (Set.mem_Ico.mpr ⟨Nat.le_add_right _ _, signWithin rfl⟩) _ '\x00' _))⟩
    show Function.update t₁.mem _ _ = _
    rw [same]

end Trim

/-! ### Any line -/

def CommentOnly (token : Text) : Prop := (token.dropWhile isspace).head? = some '#'

instance (token : Text) : Decidable (CommentOnly token) :=
  inferInstanceAs (Decidable ((token.dropWhile isspace).head? = some '#'))

def lowest (p : Nat) (token : Text) : Nat := if CommentOnly token then p - 1 else p

theorem lowest_le (p : Nat) (token : Text) : lowest p token ≤ p := by
  rw [lowest]
  split
  · exact Nat.sub_le p 1
  · exact le_rfl

theorem text_cut {v : Text} (some_ : v ≠ []) (starts : isspace (v.head some_) = false) :
    ∃ tail, v = v.rdropWhile isspace ++ tail ∧ (∀ c ∈ tail, isspace c = true) ∧
      ∃ kept : v.rdropWhile isspace ≠ [], isspace ((v.rdropWhile isspace).getLast kept) = false := by
  have split : v = v.rdropWhile isspace ++ (v.reverse.takeWhile isspace).reverse := by
    have parts := congrArg List.reverse
      (List.takeWhile_append_dropWhile (p := isspace) (l := v.reverse))
    rw [List.reverse_append, List.reverse_reverse] at parts
    exact parts.symm
  have kept : v.rdropWhile isspace ≠ [] := by
    intro none
    have all := List.rdropWhile_eq_nil_iff.mp none
    rw [all _ (List.head_mem some_)] at starts
    cases starts
  refine ⟨_, split, fun c member => ?_, kept, ?_⟩
  · exact List.mem_takeWhile_imp (List.mem_reverse.mp member)
  · exact Bool.eq_false_iff.mpr (List.rdropWhile_last_not isspace v kept)

theorem token_cut {token : Text} (oneLine : '\n' ∉ token) (noZero : '\x00' ∉ token) :
    Plain (token.takeWhile (· != '#')) ∧
      (token = token.takeWhile (· != '#') ∨
        ∃ more, token = token.takeWhile (· != '#') ++ '#' :: more) := by
  have inside : ∀ c ∈ token.takeWhile (· != '#'), c ∈ token :=
    fun c member => (List.takeWhile_sublist _).subset member
  refine ⟨⟨fun member => oneLine (inside _ member), fun member => noZero (inside _ member),
    fun member => ?_⟩, ?_⟩
  · have other := List.mem_takeWhile_imp member
    cases other
  · have parts := List.takeWhile_append_dropWhile (p := (· != '#')) (l := token)
    cases rest : token.dropWhile (· != '#') with
    | nil =>
      rw [rest, List.append_nil] at parts
      exact .inl parts.symm
    | cons c more =>
      have sign := List.head?_dropWhile_not (· != '#') token
      rw [rest] at sign parts
      have same : c = '#' := bne_eq_false_iff_eq.mp sign
      rw [same] at parts
      exact .inr ⟨more, parts.symm⟩

structure LineSpec (p q : Nat) (token : Text) (t : Tape Char) (str : Nat) (t' : Tape Char) :
    Prop where
  text : Spells t'.mem str (removeWhitespaceAndComment token ++ ['\x00'])
  low : q ≤ str
  high : str + (removeWhitespaceAndComment token).length ≤ q + token.length
  touched :
    Touched (Set.Icc (lowest p token) (q + token.length)) (Set.Ico p (q + token.length)) t t'
  comment : CommentOnly token → p - 1 ∈ t'.reads

/-- The loop over the white space at the end of a line stops at `lo`. -/
structure Stops (mem : Nat → Char) (str lo s : Nat) : Prop where
  below : lo < s
  white : ∀ a, lo < a → a < s → isspace (mem a) = true
  notFirst : ∀ a, lo < a → a < s → a ≠ str
  stop : lo = str ∨ isspace (mem lo) = false

section Line

variable {fuel p q : Nat} {t : Tape Char} {token body line : Text} {last : Char} {str lo : Nat}

/-- What is left of a line is told by where it starts and where the loop from its end stops. -/
theorem lineSpec_of_stops (spelled : Spells t.mem q (body ++ [last])) (plain : Plain body)
    (end_ : last = '\x00' ∨ last = '#') (enough : body.length < fuel)
    (within : body.length ≤ token.length) (signWithin : last = '#' → body.length < token.length)
    (begins : (if last = '#' then some ((firstAt q none body).getD (q + body.length))
      else firstAt q none body).getD q = str)
    (stops : Stops t.mem str lo (q + body.length))
    (isLine : removeWhitespaceAndComment token = line) (held : Spells t.mem str line)
    (whole : line = [] ∨ str + line.length ≤ lo + 1) (cut : lo < str + line.length)
    (fits : str + line.length ≤ q + body.length) (start : q ≤ str) (le : p ≤ q) (near : p ≤ lo + 1)
    (least : lowest p token ≤ lo) (comment : CommentOnly token → lo = p - 1 ∧ lo ≠ str) :
    ∃ str t', removeWhitespaceAndCommentAt fuel q t = some (str, t') ∧
      LineSpec p q token t str t' := by
  have below := stops.below
  obtain ⟨t₁, skipped, mem₁, touched₁⟩ := skipText_spec spelled plain end_ enough
    (Nat.add_le_add_left within q) fun sign => Nat.add_lt_add_left (signWithin sign) q
  have kept : ∀ a, a < q + body.length → t₁.mem a = t.mem a := by
    intro a other
    rw [mem₁]
    exact Function.update_of_ne (Nat.ne_of_lt other) _ _
  obtain ⟨t', trimmed, mem, touched, reached⟩ := @trimBack_spec str lo (q + body.length - 1) t₁
    (by omega) (fun a low high => by
      rw [kept a (by omega)]
      exact stops.white a low (by omega))
    (fun a low high => stops.notFirst a low (by omega)) (by rw [kept lo below]; exact stops.stop)
  refine ⟨str, t', ?_, ⟨?_, start, ?_, (touched₁.mono ?_ ?_).trans (touched.mono ?_ ?_), ?_⟩⟩
  · subst begins
    rw [removeWhitespaceAndCommentAt, bind_run skipped]
    exact bind_run trimmed
  · rw [isLine]
    refine Spells.append.mpr ⟨held.congr fun a low high => ?_, ?_, trivial⟩
    · rcases whole with rfl | whole
      · exact absurd high (Nat.not_lt.mpr low)
      · rw [mem a, if_neg (by omega), kept a (by omega)]
    · rw [mem]
      split
      · rfl
      · rw [mem₁, show str + line.length = q + body.length by omega, Function.update_self]
  · rw [isLine]
    omega
  · exact Set.Icc_subset_Icc_left ((lowest_le p token).trans le)
  · exact Set.Ico_subset_Ico_left le
  · exact Set.Icc_subset_Icc least (by omega)
  · intro a inside
    exact Set.mem_Ico.mpr ⟨near.trans inside.1, by have := inside.2; omega⟩
  · intro isComment
    obtain ⟨same, other⟩ := comment isComment
    exact same ▸ reached.resolve_left other

theorem lineSpec_text {c : Char} {rest : Text} (le : p ≤ q)
    (isBody : body = token.takeWhile (· != '#')) (plain : Plain body)
    (spelled : Spells t.mem q (body ++ [last])) (end_ : last = '\x00' ∨ last = '#')
    (within : body.length ≤ token.length) (signWithin : last = '#' → body.length < token.length)
    (textual : body.dropWhile isspace = c :: rest) (enough : token.length < fuel) :
    ∃ str t', removeWhitespaceAndCommentAt fuel q t = some (str, t') ∧
      LineSpec p q token t str t' := by
  have parts := List.takeWhile_append_dropWhile (p := isspace) (l := body)
  rw [textual] at parts
  have white : ∀ c ∈ body.takeWhile isspace, isspace c = true :=
    fun c member => List.mem_takeWhile_imp member
  have starts : isspace c = false := by
    have other := List.head?_dropWhile_not isspace body
    rwa [textual] at other
  obtain ⟨tail, split, whiteToo, kept, ends⟩ := text_cut (List.cons_ne_nil c rest) starts
  have line : removeWhitespaceAndComment token = (c :: rest).rdropWhile isspace := by
    rw [removeWhitespaceAndComment, ← isBody, textual]
  have notComment : ¬CommentOnly token := by
    have noSign : c ≠ '#' := fun same => plain.noSign (by
      rw [← parts, ← same]
      exact List.mem_append_right _ (.head _))
    have more := List.takeWhile_append_dropWhile (p := (· != '#')) (l := token)
    rw [← isBody, ← parts, List.append_assoc] at more
    rw [CommentOnly, ← more, List.dropWhile_append_of_pos white, List.cons_append,
      List.dropWhile_cons_of_neg (Bool.eq_false_iff.mp starts), List.head?_cons, Option.some.injEq]
    exact noSign
  have first : firstAt q none body = some (q + (body.takeWhile isspace).length) := by
    rw [← parts, firstAt_spaces white, firstAt,
      if_neg (Bool.eq_false_iff.mp starts : ¬isspace c = true), firstAt_some, parts]
    rfl
  have sizes := congrArg List.length parts
  rw [split, List.length_append, List.length_append] at sizes
  obtain ⟨inBody, -⟩ := Spells.append.mp spelled
  rw [← parts, split] at inBody
  obtain ⟨inText, inTail⟩ := Spells.append.mp (Spells.append.mp inBody).2
  generalize (body.takeWhile isspace).length = blanks at *
  have long := List.length_pos_of_ne_nil kept
  have stops : Stops t.mem (q + blanks)
      (q + blanks + ((c :: rest).rdropWhile isspace).length - 1) (q + body.length) := by
    refine ⟨by omega, fun a low high => ?_, fun a low _ => by omega, .inr ?_⟩
    · have cell := inTail.get
        (show a - (q + blanks + ((c :: rest).rdropWhile isspace).length) < tail.length by omega)
      rw [Nat.add_sub_cancel' (by omega)] at cell
      rw [cell]
      exact whiteToo _ (List.getElem_mem _)
    · have cell := inText.get (Nat.sub_lt long Nat.one_pos)
      rw [← List.getLast_eq_getElem kept] at cell
      rw [Nat.add_sub_assoc long, cell]
      exact ends
  refine lineSpec_of_stops spelled plain end_ (Nat.lt_of_le_of_lt within enough) within signWithin
    ?_ stops line inText (.inr (by omega)) (by omega) (by omega) (Nat.le_add_right _ _) le
    (by omega) ((lowest_le p token).trans (by omega)) fun comment => absurd comment notComment
  rw [first]
  split <;> rfl

theorem blank_cells (spelled : Spells t.mem q body) (white : ∀ c ∈ body, isspace c = true) {a : Nat}
    (low : q ≤ a) (high : a < q + body.length) : isspace (t.mem a) = true := by
  have cell := spelled.get (show a - q < body.length by omega)
  rw [Nat.add_sub_cancel' low] at cell
  rw [cell]
  exact white _ (List.getElem_mem _)

theorem firstAt_blank (white : ∀ c ∈ body, isspace c = true) (q : Nat) :
    firstAt q none body = none := by
  have all := firstAt_spaces white q []
  rwa [List.append_nil] at all

theorem lineSpec_blank (le : p ≤ q) (same : token = body) (some_ : token ≠ [])
    (plain : Plain body) (white : ∀ c ∈ body, isspace c = true)
    (spelled : Spells t.mem q (token ++ ['\x00'])) (enough : token.length < fuel) :
    ∃ str t', removeWhitespaceAndCommentAt fuel q t = some (str, t') ∧
      LineSpec p q token t str t' := by
  subst same
  obtain ⟨c, blanks, rfl⟩ := List.exists_cons_of_ne_nil some_
  have noSign : (c :: blanks).takeWhile (· != '#') = c :: blanks :=
    List.takeWhile_eq_self_iff.mpr fun d member =>
      bne_iff_ne.mpr fun sign => plain.noSign (sign ▸ member)
  have none : (c :: blanks).dropWhile isspace = [] := List.dropWhile_eq_nil_iff.mpr white
  have line : removeWhitespaceAndComment (c :: blanks) = [c] := by
    rw [removeWhitespaceAndComment, noSign, none]
    exact if_pos rfl
  have notComment : ¬CommentOnly (c :: blanks) := by
    rw [CommentOnly, none]
    exact nofun
  obtain ⟨inBlanks, -⟩ := Spells.append.mp spelled
  have long : 0 < (c :: blanks).length := Nat.succ_pos _
  refine lineSpec_of_stops spelled plain (.inl rfl) enough le_rfl nofun
    (by rw [firstAt_blank white, if_neg (by decide)]; rfl)
    ⟨Nat.lt_add_of_pos_right long, fun a low high => blank_cells inBlanks white low.le high,
      fun a low _ => low.ne', .inl rfl⟩ line ⟨inBlanks.1, trivial⟩ (.inr le_rfl)
    (Nat.lt_add_one q) (Nat.add_le_add_left long q) le_rfl le (le.trans (Nat.le_succ q))
    ((lowest_le p _).trans le) fun comment => absurd comment notComment

theorem removeAt_spec (spelled : Spells t.mem q (token ++ ['\x00'])) (some_ : token ≠ [])
    (oneLine : '\n' ∉ token) (noZero : '\x00' ∉ token)
    (before : ∀ a, p ≤ a → a < q → isspace (t.mem a) = true) (positive : 0 < p) (le : p ≤ q)
    (stops : ¬CommentOnly token ∨ isspace (t.mem (p - 1)) = false) (enough : token.length < fuel) :
    ∃ str t', removeWhitespaceAndCommentAt fuel q t = some (str, t') ∧
      LineSpec p q token t str t' := by
  obtain ⟨plain, cut⟩ := token_cut oneLine noZero
  obtain ⟨body, isBody⟩ : ∃ body, body = token.takeWhile (· != '#') := ⟨_, rfl⟩
  rw [← isBody] at plain cut
  have white : body.dropWhile isspace = [] → ∀ c ∈ body, isspace c = true :=
    fun none => List.dropWhile_eq_nil_iff.mp none
  rcases cut with same | ⟨more, split⟩
  · -- a line without a comment
    cases textual : body.dropWhile isspace with
    | cons c rest =>
      exact lineSpec_text le isBody plain (same ▸ spelled) (.inl rfl) (same ▸ le_rfl)
        (fun sign => nomatch sign) textual enough
    | nil =>
      exact lineSpec_blank le same some_ plain (white textual) spelled enough
  · -- a line with one
    have toSign : Spells t.mem q (body ++ ['#']) := by
      rw [split, List.append_assoc] at spelled
      obtain ⟨inBody, sign, -⟩ := Spells.append.mp spelled
      exact Spells.append.mpr ⟨inBody, sign, trivial⟩
    have shorter : body.length < token.length := by
      rw [split, List.length_append, List.length_cons]
      omega
    cases textual : body.dropWhile isspace with
    | cons c rest =>
      exact lineSpec_text le isBody plain toSign (.inr rfl) (Nat.le_of_lt shorter)
        (fun _ => shorter) textual enough
    | nil =>
      have comment : CommentOnly token := by
        rw [CommentOnly, split, List.dropWhile_append_of_pos (white textual)]
        rfl
      have line : removeWhitespaceAndComment token = [] := by
        rw [removeWhitespaceAndComment, ← isBody, textual]
        exact if_neg (Nat.ne_of_lt shorter)
      -- the loop starts below the sign and goes through the white space before the line
      have low : Stops t.mem (q + body.length) (p - 1) (q + body.length) := by
        refine ⟨by omega, fun a low high => ?_, fun a _ high => high.ne,
          .inr (stops.resolve_left (not_not.mpr comment))⟩
        by_cases early : a < q
        · exact before a (by omega) early
        · exact blank_cells (Spells.append.mp toSign).1 (white textual) (Nat.le_of_not_lt early) high
      exact lineSpec_of_stops toSign plain (.inr rfl) (shorter.trans enough) shorter.le
        (fun _ => shorter) (by rw [firstAt_blank (white textual), if_pos rfl]; rfl) low line
        trivial (.inl rfl) (by omega) le_rfl (Nat.le_add_right _ _) le (by omega)
        (by rw [lowest, if_pos comment]) fun _ => ⟨rfl, by omega⟩

end Line

end Cboot.LinuxBoot
