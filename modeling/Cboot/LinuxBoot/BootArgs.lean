/-
**The boot arguments of a configuration entry.**

`tegrabl_linuxboot_update_bootargs` joins the `bootargs` of the device tree with the `APPEND` text of
the entry, in which a placeholder asks for the former and is removed. `update_bootargs_iff` says when
the line is the one that was asked for. It is not when

* two placeholders stand together: the scan steps over the character behind the one it has removed;
* the line does not fit: the argument that does not fit is left out, and nothing is reported;
* there is no `APPEND`, and the text at the null address is printed for it.
-/

import Cboot.LinuxBoot.FileManager

namespace Cboot.LinuxBoot

/-! ### The functions -/

def maxCommandLineSize : Nat := 2048

inductive Piece
  | char (c : Char)
  | string (arg : Text)

/-- `tegrabl_vsnprintf` for a format of characters and strings, with the bytes that remain. A string
that does not fit ends the output. -/
def tegrablVsnprintf : Nat → List Piece → Text
  | 0, _ | _, [] => []
  | remaining + 1, .char c :: rest => c :: tegrablVsnprintf remaining rest
  | remaining + 1, .string arg :: rest =>
    if remaining + 1 < arg.length then []
    else arg ++ tegrablVsnprintf (remaining + 1 - arg.length) rest

def cbootargs : Text := ['$', '\x7b', 'c', 'b', 'o', 'o', 't', 'a', 'r', 'g', 's', '\x7d']

def removeSubstr (sub : Text) : Text → Text
  | [] => []
  | c :: rest =>
    if sub <+: c :: rest then
      -- what follows moves to the place of the match, and `match++` passes over its first character
      -- (at the end: over the terminator, into the rest of the removed text, which has no match)
      let moved := (c :: rest).drop sub.length
      moved.take 1 ++ removeSubstr sub (moved.drop 1)
    else c :: removeSubstr sub rest
termination_by text => text.length

inductive SetTry
  | stored
  | noSpace (grown : Except Int Unit)
  | refused (err : Int)

/-- The node `/chosen` with its `bootargs` (empty without the property), and what the tries to set the
property come to. -/
structure Fdt where
  chosen : Except Int Unit
  bootargs : Text
  tries : List SetTry

def fdtSetprop (value : Text) : List SetTry → Option (Except Int Text)
  | [] => none
  | .stored :: _ => some (.ok value)
  | .noSpace (.ok ()) :: rest => fdtSetprop value rest
  | .noSpace (.error err) :: _ | .refused err :: _ => some (.error err)

def dtbCmdline (bootargs : Text) : Option Text → Text
  | none => bootargs
  | some args => if cbootargs <:+: args then bootargs else []

/-- `atNull` is the text that a null pointer leads to. -/
def tegrablLinuxbootUpdateBootargs (atNull : Text) (fdt : Fdt) (bootArgs : Option Text) :
    Option (Except Int Text) :=
  match fdt.chosen with
  | .error err => some (.error err)
  | .ok () => fdtSetprop (tegrablVsnprintf (maxCommandLineSize - 1)
      [.string (dtbCmdline fdt.bootargs bootArgs), .char ' ',
        .string (bootArgs.elim atNull (removeSubstr cbootargs))]) fdt.tries

/-! ### What is asked for -/

def removeAll (sub : Text) : Text → Text
  | [] => []
  | c :: rest =>
    if sub <+: c :: rest then removeAll sub (rest.drop (sub.length - 1))
    else c :: removeAll sub rest
termination_by text => text.length

def bootargsLine (bootargs : Text) (bootArgs : Option Text) : Text :=
  dtbCmdline bootargs bootArgs ++ ' ' :: bootArgs.elim [] (removeAll cbootargs)

/-- Whenever the update succeeds, the line fits and is the one asked for. -/
def Joined (atNull bootargs : Text) (bootArgs : Option Text) : Prop :=
  ∀ chosen tries line,
    tegrablLinuxbootUpdateBootargs atNull ⟨chosen, bootargs, tries⟩ bootArgs = some (.ok line) →
    (bootargsLine bootargs bootArgs).length < maxCommandLineSize ∧
      line = bootargsLine bootargs bootArgs

/-! ### Placeholders -/

variable (text : Text)

section Placeholders

variable {c : Char} {rest : Text}

theorem removeSubstr_skip (other : ¬cbootargs <+: c :: rest) :
    removeSubstr cbootargs (c :: rest) = c :: removeSubstr cbootargs rest := by
  rw [removeSubstr, if_neg other]

theorem removeAll_skip (other : ¬cbootargs <+: c :: rest) :
    removeAll cbootargs (c :: rest) = c :: removeAll cbootargs rest := by
  rw [removeAll, if_neg other]

theorem removeSubstr_at : removeSubstr cbootargs (cbootargs ++ text) =
    text.take 1 ++ removeSubstr cbootargs (text.drop 1) := by
  simp [cbootargs, removeSubstr]

theorem removeAll_at : removeAll cbootargs (cbootargs ++ text) = removeAll cbootargs text := by
  simp [cbootargs, removeAll]

/-- No placeholder begins inside another one. -/
theorem removeSubstr_inside :
    removeSubstr cbootargs (cbootargs.tail ++ text) =
      cbootargs.tail ++ removeSubstr cbootargs text := by
  simp [cbootargs, removeSubstr]

theorem together_at : cbootargs ++ cbootargs <:+: cbootargs ++ text ↔
    cbootargs <+: text ∨ cbootargs ++ cbootargs <:+: text := by
  simp [cbootargs, List.infix_cons_iff]

theorem removeSubstr_eq_iff :
    (removeAll cbootargs text).length ≤ (removeSubstr cbootargs text).length ∧
      (removeSubstr cbootargs text = removeAll cbootargs text ↔
        ¬cbootargs ++ cbootargs <:+: text) := by
  induction size : text.length using Nat.strong_induction_on generalizing text with
  | _ n ih =>
    cases text with
    | nil => simp [removeSubstr, removeAll, cbootargs]
    | cons c rest =>
      by_cases here : cbootargs <+: c :: rest
      · obtain ⟨text, same⟩ := here
        have placeholder : cbootargs.length = 12 := rfl
        rw [← same, List.length_append] at size
        rw [← same, removeSubstr_at, removeAll_at, together_at]
        by_cases again : cbootargs <+: text
        · obtain ⟨later, rfl⟩ := again
          rw [List.length_append] at size
          have kept : (cbootargs ++ later).take 1 ++
              removeSubstr cbootargs ((cbootargs ++ later).drop 1) =
              cbootargs ++ removeSubstr cbootargs later :=
            congrArg ('$' :: ·) (removeSubstr_inside later)
          have longer : (removeAll cbootargs later).length <
              (cbootargs ++ removeSubstr cbootargs later).length := by
            have bound := (ih _ (by omega) later rfl).1
            rw [List.length_append]
            omega
          rw [kept, removeAll_at]
          exact ⟨longer.le, iff_of_false (fun equal => longer.ne' (congrArg List.length equal))
            (not_not.mpr (.inl (List.prefix_append _ _)))⟩
        · have passed : text.take 1 ++ removeSubstr cbootargs (text.drop 1) =
              removeSubstr cbootargs text := by
            cases text with
            | nil => rfl
            | cons next later => exact (removeSubstr_skip again).symm
          rw [passed, or_iff_right again]
          exact ih _ (by omega) text rfl
      · obtain ⟨shorter, equal⟩ := ih _ (by rw [← size]; exact Nat.lt_add_one _) rest rfl
        have elsewhere : ¬cbootargs ++ cbootargs <+: c :: rest :=
          fun both => here ((List.prefix_append _ _).trans both)
        rw [removeSubstr_skip here, removeAll_skip here, List.infix_cons_iff, List.cons_inj_right,
          equal, or_iff_right elsewhere]
        exact ⟨Nat.succ_le_succ shorter, Iff.rfl⟩

end Placeholders

/-! ### The line -/

theorem vsnprintf_line (first last : Text) (room : first.length + 1 < maxCommandLineSize) :
    tegrablVsnprintf (maxCommandLineSize - 1) [.string first, .char ' ', .string last] =
      first ++ ' ' ::
        if (first ++ ' ' :: last).length < maxCommandLineSize then last else [] := by
  have stop (n : Nat) : tegrablVsnprintf n [] = [] := by cases n <;> rfl
  obtain ⟨left, total⟩ := Nat.exists_eq_add_of_lt room
  have count : maxCommandLineSize - 1 - first.length = left + 1 := by omega
  have fits : (first ++ ' ' :: last).length < maxCommandLineSize ↔ last.length ≤ left := by
    rw [List.length_append, List.length_cons]
    omega
  show (if maxCommandLineSize - 1 < first.length then [] else first ++
    tegrablVsnprintf (maxCommandLineSize - 1 - first.length) [.char ' ', .string last]) = _
  rw [if_neg (by omega), count, tegrablVsnprintf]
  simp only [fits]
  cases left with
  | zero => cases last <;> rfl
  | succ left =>
    rw [tegrablVsnprintf, stop, List.append_nil]
    by_cases whole : last.length ≤ left + 1
    · rw [if_neg (Nat.not_lt.mpr whole), if_pos whole]
    · rw [if_pos (Nat.lt_of_not_le whole), if_neg whole]

theorem fdtSetprop_ok {value line : Text} {tries : List SetTry}
    (ran : fdtSetprop value tries = some (.ok line)) : line = value := by
  fun_induction fdtSetprop value tries with
  | case1 => cases ran
  | case2 => cases ran; rfl
  | case3 rest ih => exact ih ran
  | case4 | case5 => cases ran

def PlainAppend (atNull : Text) : Option Text → Prop
  | none => atNull = []
  | some args => ¬cbootargs ++ cbootargs <:+: args

/-- **When the line is the one asked for**: it fits, and no two placeholders stand together (without
`APPEND`, the text at the null address is empty), or what is wrongly left is left out again. -/
theorem update_bootargs_iff (atNull bootargs : Text) (bootArgs : Option Text) :
    Joined atNull bootargs bootArgs ↔
      (bootargsLine bootargs bootArgs).length < maxCommandLineSize ∧
      (PlainAppend atNull bootArgs ∨ bootArgs.elim [] (removeAll cbootargs) = [] ∧
        maxCommandLineSize ≤ (dtbCmdline bootargs bootArgs ++
          ' ' :: bootArgs.elim atNull (removeSubstr cbootargs)).length) := by
  have plain : bootArgs.elim atNull (removeSubstr cbootargs) =
      bootArgs.elim [] (removeAll cbootargs) ↔ PlainAppend atNull bootArgs := by
    cases bootArgs with
    | none => exact Iff.rfl
    | some args => exact (removeSubstr_eq_iff args).2
  have line (fits : (bootargsLine bootargs bootArgs).length < maxCommandLineSize) :=
    vsnprintf_line (dtbCmdline bootargs bootArgs) (bootArgs.elim atNull (removeSubstr cbootargs)) (by
      rw [bootargsLine, List.length_append, List.length_cons] at fits
      omega)
  constructor
  · intro joined
    obtain ⟨fits, same⟩ := joined (.ok ()) [.stored] _ rfl
    rw [line fits, bootargsLine, List.append_right_inj, List.cons_inj_right] at same
    refine ⟨fits, ?_⟩
    split_ifs at same with whole
    · exact .inl (plain.mp same)
    · exact .inr ⟨same.symm, Nat.le_of_not_lt whole⟩
  · rintro ⟨fits, right⟩ chosen tries printed ran
    cases chosen with
    | error err => cases ran
    | ok found =>
      refine ⟨fits, (fdtSetprop_ok ran).trans ((line fits).trans ?_)⟩
      rw [bootargsLine, List.append_right_inj, List.cons_inj_right]
      rcases right with same | ⟨empty, long⟩
      · rw [plain.mpr same]
        exact if_pos fits
      · rw [if_neg (Nat.not_lt.mpr long), empty]

/-- Of two placeholders that stand together the second is left in the line. -/
theorem second_placeholder_left :
    tegrablLinuxbootUpdateBootargs [] ⟨.ok (), ['q'], [.stored]⟩ (some (cbootargs ++ cbootargs)) =
        some (.ok ('q' :: ' ' :: cbootargs)) ∧
      ¬Joined [] ['q'] (some (cbootargs ++ cbootargs)) := by
  have ran : tegrablLinuxbootUpdateBootargs [] ⟨.ok (), ['q'], [.stored]⟩
      (some (cbootargs ++ cbootargs)) = some (.ok ('q' :: ' ' :: cbootargs)) := by decide +kernel
  refine ⟨ran, fun joined => ?_⟩
  exact absurd (joined _ _ _ ran).2 (by decide +kernel)

end Cboot.LinuxBoot
