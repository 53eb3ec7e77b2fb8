/-
**The directives of a line.**

A line of `extlinux.conf` is meant to be a key word, white space and a value. `parse_conf_file`
compares the start of the line with nine key words in turn and does not look at what follows the key
word, so that `FDTDIR` is an `FDT`, and a key word alone has an empty value. The directives of a
section are not compared before the first `LABEL`.
-/

import Cboot.LinuxBoot.Extlinux

namespace Cboot.LinuxBoot

open Prog

/-! ### The grammar -/

structure ConfLine where
  text : Text
  oneLine : '\n' ∉ text

def stripped (text : Text) : Text :=
  ((text.takeWhile (· != '#')).dropWhile isspace).rdropWhile isspace

def Spaced (text : Text) : Prop := ∃ c ∈ text.head?, isspace c = true

def Means (text : Text) (key : Key) (val : Text) : Prop :=
  ∃ gap, gap ≠ [] ∧ (∀ c ∈ gap, isspace c = true) ∧ ¬Spaced val ∧
    stripped text = key.text ++ (gap ++ val)

/-! ### What the parser takes a line as -/

def Key.ofSection : Key → Bool
  | .menuLabel | .linux | .initrd | .fdt | .append => true
  | _ => false

def Key.compared (entries : Nat) (key : Key) : Bool := !key.ofSection || entries != 0

def taken (entries : Nat) (token : Text) : Option (Key × Text) :=
  (directive token).filter fun found => found.1.compared entries

def perform (heap : ConfHeap) (locals : ParseLocals) :
    Option (Key × Text) → Prog ErrorValue Conf ParseLocals
  | none => pure locals
  | some (.timeout, val) => pure { locals with timeout := some val }
  | some (.default, val) => pure { locals with defaultBoot := some val }
  | some (.menuTitle, val) => do
    modify fun conf => { conf with menuTitle := some val }
    pure locals
  | some (.label, val) => do
    addSection heap locals.entries val
    pure { locals with entries := locals.entries + 1 }
  | some (key, val) => do
    setSection (locals.entries - 1) key val
    pure locals

theorem parseLine_taken (heap : ConfHeap) (token : Text) (locals : ParseLocals) :
    parseLine heap token locals = perform heap locals (taken locals.entries token) := by
  unfold parseLine taken
  rcases directive token with _ | ⟨key, val⟩
  · rfl
  · rw [Option.filter_some]
    have inSection : (if locals.entries = 0 then pure locals
        else do
          setSection (locals.entries - 1) key val
          pure locals) =
        if (locals.entries != 0) = true then (do
          setSection (locals.entries - 1) key val
          pure locals)
        else pure locals := by
      by_cases opened : locals.entries = 0
      · simp [opened]
      · simp [opened]
    cases key with
    | timeout | default | menuTitle | label => rfl
    | menuLabel | linux | initrd | fdt | append =>
      refine inSection.trans ?_
      simp only [Key.compared, Key.ofSection, Bool.not_true, Bool.false_or]
      split <;> rfl

/-! ### Both cut a line at the same place -/

theorem Key.mem_all (key : Key) : key ∈ Key.all := by
  cases key <;> decide

theorem Key.apart {first second : Key} {text : Text} (starts : first.text <+: text)
    (startsToo : second.text <+: text) : first = second := by
  have apart : ∀ first ∈ Key.all, ∀ second ∈ Key.all, first.text <+: second.text →
      first = second := by decide
  rcases List.prefix_or_prefix_of_prefix starts startsToo with within | within
  · exact apart first first.mem_all second second.mem_all within
  · exact (apart second second.mem_all first first.mem_all within).symm

theorem Key.two_le_length (key : Key) : 2 ≤ key.text.length := by
  cases key <;> decide

theorem removed_cases (text : Text) :
    removeWhitespaceAndComment text = stripped text ∨
      ∀ key : Key, ¬key.text <+: removeWhitespaceAndComment text ∧ ¬key.text <+: stripped text := by
  unfold removeWhitespaceAndComment stripped
  dsimp only
  cases (text.takeWhile (· != '#')).dropWhile isspace with
  | cons c rest => exact .inl rfl
  | nil =>
    right
    intro key
    have long := key.two_le_length
    refine ⟨fun starts => ?_, fun starts => ?_⟩
    · have short : (if (text.takeWhile (· != '#')).length = text.length then text.take 1
          else []).length ≤ 1 := by
        split
        · exact List.length_take_le 1 text
        · exact Nat.zero_le 1
      have fits := starts.length_le
      exact absurd (long.trans (fits.trans short)) (by decide)
    · exact absurd (long.trans starts.length_le) (by decide)

variable {text : Text}

theorem mem_of_mem_stripped {c : Char} (inside : c ∈ stripped text) : c ∈ text := by
  have before := (List.rdropWhile_prefix isspace _).subset inside
  exact (List.takeWhile_sublist _).subset ((List.dropWhile_sublist _).subset before)

theorem skipLeadingWhitespace_eq (oneLine : '\n' ∉ text) :
    skipLeadingWhitespace text = text.dropWhile isspace := by
  induction text with
  | nil => rfl
  | cons c rest ih =>
    have notHere : '\n' ≠ c := fun same => oneLine (same ▸ .head _)
    have notLater : '\n' ∉ rest := fun inside => oneLine (.tail c inside)
    have notEnd : (c != '\n') = true := bne_iff_ne.mpr (Ne.symm notHere)
    rw [skipLeadingWhitespace, List.dropWhile_cons, List.dropWhile_cons, notEnd, Bool.true_and]
    split
    · exact ih notLater
    · rfl

theorem find_key {key : Key} :
    (Key.all.find? fun key => key.text.isPrefixOf text) = some key ↔ key.text <+: text := by
  have starts_of_found : ∀ {other : Key},
      (Key.all.find? fun key => key.text.isPrefixOf text) = some other → other.text <+: text := by
    intro other found
    have starts := List.find?_some found
    exact List.isPrefixOf_iff_prefix.mp starts
  constructor
  · exact starts_of_found
  · intro starts
    have some : (Key.all.find? fun key => key.text.isPrefixOf text).isSome = true :=
      List.find?_isSome.mpr ⟨key, key.mem_all, List.isPrefixOf_iff_prefix.mpr starts⟩
    obtain ⟨other, found⟩ := Option.isSome_iff_exists.mp some
    rw [found, Key.apart (starts_of_found found) starts]

theorem taken_iff (line : ConfLine) (entries : Nat) (key : Key) (val : Text) :
    taken entries line.text = some (key, val) ↔
      ∃ rest, stripped line.text = key.text ++ rest ∧ val = rest.dropWhile isspace ∧
        key.compared entries = true := by
  have cut : ∀ rest, stripped line.text = key.text ++ rest →
      extractVal (stripped line.text) key = rest.dropWhile isspace := by
    intro rest split
    have oneLine : '\n' ∉ rest := fun inside => line.oneLine
      (mem_of_mem_stripped (split ▸ List.mem_append_right _ inside))
    rw [extractVal, split, List.drop_left, skipLeadingWhitespace_eq oneLine]
  rw [taken, Option.filter_eq_some_iff, directive, Option.map_eq_some_iff]
  rcases removed_cases line.text with same | none
  · rw [same]
    constructor
    · rintro ⟨⟨found, first, pair⟩, compared⟩
      cases pair
      obtain ⟨rest, split⟩ := find_key.mp first
      exact ⟨rest, split.symm, cut rest split.symm, compared⟩
    · rintro ⟨rest, split, rfl, compared⟩
      refine ⟨⟨key, find_key.mpr ⟨rest, split.symm⟩, ?_⟩, compared⟩
      rw [cut rest split]
  · constructor
    · rintro ⟨⟨found, first, pair⟩, -⟩
      exact absurd (find_key.mp first) (none found).1
    · rintro ⟨rest, split, -⟩
      exact absurd ⟨rest, split.symm⟩ (none key).2

theorem Spaced.dropWhile (text : Text) : ¬Spaced (text.dropWhile isspace) := by
  rintro ⟨c, first, space⟩
  have other := List.head?_dropWhile_not isspace text
  rw [Option.mem_def.mp first] at other
  exact Bool.false_ne_true ((other : isspace c = false).symm.trans space)

theorem means_iff {key : Key} {val : Text} :
    Means text key val ↔
      ∃ rest, stripped text = key.text ++ rest ∧ val = rest.dropWhile isspace ∧ Spaced rest := by
  constructor
  · rintro ⟨gap, notEmpty, white, start, split⟩
    refine ⟨gap ++ val, split, ?_, ?_⟩
    · rw [List.dropWhile_append_of_pos white]
      cases val with
      | nil => rfl
      | cons c rest =>
        refine (List.dropWhile_cons_of_neg ?_).symm
        exact fun space => start ⟨c, rfl, space⟩
    · obtain ⟨c, rest, rfl⟩ := List.exists_cons_of_ne_nil notEmpty
      exact ⟨c, rfl, white c (.head _)⟩
  · rintro ⟨rest, split, rfl, c, first, space⟩
    refine ⟨rest.takeWhile isspace, ?_, ?_, Spaced.dropWhile rest, ?_⟩
    · cases rest with
      | nil => cases first
      | cons d rest =>
        cases first
        rw [List.takeWhile_cons_of_pos space]
        exact List.cons_ne_nil _ _
    · exact fun c inside => List.mem_takeWhile_imp inside
    · rw [List.takeWhile_append_dropWhile, split]

/-- **The parser and the grammar on a line**: they agree exactly when white space follows the key
word if and only if the key word is compared. -/
theorem directive_iff (line : ConfLine) (entries : Nat) :
    (∀ key val, taken entries line.text = some (key, val) ↔ Means line.text key val) ↔
      ∀ (key : Key) (rest : Text), stripped line.text = key.text ++ rest →
        (key.compared entries = true ↔ Spaced rest) := by
  constructor
  · intro agree key rest split
    have value := agree key (rest.dropWhile isspace)
    rw [taken_iff, means_iff] at value
    constructor
    · intro compared
      obtain ⟨rest', split', -, spaced⟩ := value.mp ⟨rest, split, rfl, compared⟩
      rw [split] at split'
      rwa [List.append_cancel_left split']
    · intro spaced
      obtain ⟨rest', -, -, compared⟩ := value.mpr ⟨rest, split, rfl, spaced⟩
      exact compared
  · intro follows key val
    rw [taken_iff, means_iff]
    refine exists_congr fun rest => and_congr_right fun split => and_congr_right fun _ => ?_
    exact follows key rest split

def fdtdirLine : ConfLine := ⟨"  FDTDIR /boot/dtb # trees".toList, by decide⟩

/-- **The parser takes it for a device tree** with the rest of the word as its path. -/
theorem fdtdir_taken :
    taken 1 fdtdirLine.text = some (.fdt, "DIR /boot/dtb".toList) ∧
      ¬Means fdtdirLine.text .fdt "DIR /boot/dtb".toList := by
  refine ⟨by decide, fun means => ?_⟩
  obtain ⟨rest, split, -, c, first, space⟩ := means_iff.mp means
  have behind : rest = "DIR /boot/dtb".toList :=
    (List.append_cancel_left (split.symm.trans (by decide :
      stripped fdtdirLine.text = Key.fdt.text ++ "DIR /boot/dtb".toList)))
  subst behind
  cases first
  cases space

end Cboot.LinuxBoot
