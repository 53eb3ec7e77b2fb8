/-
**The entry that boots.**

`get_boot_details` reads `extlinux.conf`, shows a menu and leaves the number of the chosen section
in `boot_entry`. It is meant to be one of the sections, and without an answer the one whose label is
the value of `DEFAULT`.

The default entry is a static variable which the parser sets for every section whose label starts
with that value. So the last of them counts, a longer label counts as well, and when there is none
the entry of an earlier attempt stays. A file without a section ends well, too, and leaves the
number of no section.
-/

import Cboot.LinuxBoot.Extlinux

namespace Cboot.LinuxBoot

open Prog

/-! ### What is meant -/

def bufferText (handle : FmHandle) (heap : ConfHeap) : Option Text :=
  heap.buffer.bind fun buffer =>
    let file := tegrablFmRead handle (some extlinuxConfPath) buffer 0 extlinuxConfMaxSize
    match file.error with
    | .ok () => cString file.memory 0 extlinuxConfMaxSize
    | .error _ => none

def Conf.Released (conf : Conf) : Prop :=
  ∀ entry < conf.numBootEntries, (conf.sections entry).deref = none

variable (file : ConfFile)

def ConfFile.meantEntry : Nat :=
  (file.sections.findIdx? fun entry => entry.label == file.defaultBoot).getD 0

def ConfFile.Unanswered (console : List ConsoleRead) : Prop :=
  ∃ getc rest, console = getc :: rest ∧ getc (firstWait (waitTimeoutMs file.timeout)) = none

structure Detailed (console : List ConsoleRead) (extlinux : Extlinux) : Prop where
  few : extlinux.conf.numBootEntries ≤ maxSections
  inside : extlinux.bootEntry < extlinux.conf.numBootEntries
  meant : file.Unanswered console → extlinux.bootEntry = file.meantEntry

/-! ### When it is so -/

def ConfFile.Answered (console : List ConsoleRead) : Prop :=
  ∃ chosen, ∀ old, menuChoice old file.sections.length (firstWait (waitTimeoutMs file.timeout))
    console = some chosen

structure Settled (old : Nat) (console : List ConsoleRead) : Prop where
  written : file.sections ≠ []
  inside : file.Answered console ∨ file.defaultEntry.getD old < file.sections.length
  meant : file.Unanswered console → file.defaultEntry.getD old = file.meantEntry

section Menu

variable {n : Nat} {console : List ConsoleRead} {timeout : Option Nat}

theorem menuChoice_cases {entry chosen : Nat}
    (chose : menuChoice entry n timeout console = some chosen) :
    (chosen < n ∧ ∀ old, menuChoice old n timeout console = some chosen) ∨
      ∀ old, menuChoice old n timeout console = some old := by
  induction console generalizing timeout with
  | nil => cases chose
  | cons getc rest ih =>
    simp only [menuChoice] at chose ⊢
    cases read : getc timeout with
    | none => exact .inr fun _ => rfl
    | some ch =>
      simp only [read] at chose ⊢
      by_cases digit : '1'.toNat ≤ ch.toNat ∧ ch.toNat ≤ '0'.toNat + n
      · rw [if_pos digit] at chose
        cases chose
        refine .inl ⟨?_, fun _ => if_pos digit⟩
        have one : '1'.toNat = '0'.toNat + 1 := rfl
        omega
      · simp only [if_neg digit] at chose ⊢
        exact ih chose

theorem ConfFile.Unanswered.default {file : ConfFile} (unanswered : file.Unanswered console)
    (old : Nat) :
    menuChoice old n (firstWait (waitTimeoutMs file.timeout)) console = some old := by
  obtain ⟨getc, rest, rfl, nothing⟩ := unanswered
  rw [menuChoice, nothing]

theorem ConfFile.Answered.not_default {file : ConfFile} (answered : file.Answered console) :
    ¬∀ old, menuChoice old file.sections.length (firstWait (waitTimeoutMs file.timeout)) console =
      some old := by
  intro taken
  obtain ⟨chosen, always⟩ := answered
  have zero := Option.some.inj ((always 0).symm.trans (taken 0))
  have one := Option.some.inj ((always 1).symm.trans (taken 1))
  exact absurd (zero.symm.trans one) (by decide)

end Menu

/-! ### The number of sections -/

section Few

variable {heap : ConfHeap}

theorem addSection_few (entry : Nat) (label : Text) :
    Triple (fun _ => True) (addSection heap entry label) (fun _ _ => entry < maxSections)
      fun _ => True := by
  unfold addSection
  refine Triple.ite (fun _ => .stuck) fun inside => ?_
  exact (Triple.trivial _).weaken (fun _ _ _ => Nat.not_le.mp inside)

theorem parseLine_few {locals : ParseLocals} (few : locals.entries ≤ maxSections) (token : Text) :
    Triple (fun _ => True) (parseLine heap token locals)
      (fun locals _ => locals.entries ≤ maxSections) fun _ => True := by
  have kept {p : Prog ErrorValue Conf Unit} : Triple (fun _ => True) (do p; pure locals)
      (fun locals _ => locals.entries ≤ maxSections) fun _ => True :=
    Triple.bind (Triple.trivial _) fun _ => Triple.pure fun _ _ => few
  have same : Triple (fun _ => True) (pure locals : Prog ErrorValue Conf ParseLocals)
      (fun locals _ => locals.entries ≤ maxSections) fun _ => True := Triple.pure fun _ _ => few
  unfold parseLine
  rcases directive token with _ | ⟨key, val⟩
  · exact same
  · cases key with
    | timeout | default => exact Triple.pure fun _ _ => few
    | menuTitle => exact kept
    | label => exact Triple.bind (addSection_few _ val) fun _ => Triple.pure fun _ => id
    | menuLabel | linux | initrd | fdt | append =>
      exact Triple.ite (fun _ => same) fun _ => kept

theorem parseLines_few {locals : ParseLocals} (few : locals.entries ≤ maxSections)
    (tokens : List Text) :
    Triple (fun _ => True) (parseLines heap tokens locals)
      (fun locals _ => locals.entries ≤ maxSections) fun _ => True := by
  induction tokens generalizing locals with
  | nil => exact Triple.pure fun _ _ => few
  | cons token rest ih =>
    refine Triple.bind (parseLine_few few token) fun locals => ?_
    exact fun conf few' => ih few' conf trivial

theorem parseConfFile_few (heap : ConfHeap) {text : Text} (written : strtokLines text ≠ []) :
    Triple (fun _ => True) (parseConfFile heap text)
      (fun _ extlinux => extlinux.conf.numBootEntries ≤ maxSections) fun _ => True := by
  unfold parseConfFile
  rw [if_neg written]
  have lines : Triple (fun _ => True)
      (onConf (parseLines heap (strtokLines text) ⟨0, none, none⟩))
      (fun locals _ => locals.entries ≤ maxSections) fun _ => True :=
    Triple.zoom (parseLines_few (Nat.zero_le _) (strtokLines text)) (fun _ _ => trivial)
      (fun _ _ _ _ => id) fun _ _ _ _ => trivial
  refine lines.bind fun locals => ?_
  have counted : Triple (fun _ => locals.entries ≤ maxSections)
      (modify fun extlinux =>
        { extlinux with
          userInputWaitTimeoutMs := waitTimeoutMs locals.timeout
          conf := { extlinux.conf with numBootEntries := locals.entries } } :
        Prog ErrorValue Extlinux Unit)
      (fun _ extlinux => extlinux.conf.numBootEntries ≤ maxSections) fun _ => True :=
    Triple.modify fun _ => id
  refine counted.bind fun _ => ?_
  have searched : Triple (fun conf : Conf => conf.numBootEntries ≤ maxSections)
      (findDefault locals.defaultBoot) (fun _ conf => conf.numBootEntries ≤ maxSections)
      fun _ => True := by
    refine Triple.readAny fun conf => Triple.ofOptionThen fun entry _ => ?_
    exact Triple.modify fun _ => id
  exact Triple.zoom searched (fun _ => id) (fun _ _ _ _ => id) fun _ _ _ _ => trivial

end Few

/-! ### Runs that end well -/

section Runs

variable {handle : FmHandle} {heap : ConfHeap} {console : List ConsoleRead}
  {extlinux extlinux' : Extlinux}

theorem loadAndParseConfFile_ok
    (parsed : loadAndParseConfFile handle heap extlinux = some (.ok (), extlinux')) :
    ∃ text, bufferText handle heap = some text ∧
      parseConfFile heap text extlinux = some (.ok (), extlinux') := by
  unfold loadAndParseConfFile at parsed
  unfold bufferText
  cases there : heap.buffer with
  | none =>
    rw [there] at parsed
    cases parsed
  | some buffer =>
    rw [there] at parsed
    obtain ⟨_, mid, read, parsed⟩ := Prog.bind_eq_ok parsed
    obtain ⟨text, mid', ends, parsed⟩ := Prog.bind_eq_ok parsed
    rw [Option.bind_some]
    simp only
    cases success : (tegrablFmRead handle (some extlinuxConfPath) buffer 0
        extlinuxConfMaxSize).error with
    | error error =>
      rw [success] at read
      cases read
    | ok done =>
      rw [success] at read
      cases read
      obtain ⟨_, found, same⟩ := Option.map_eq_some_iff.mp ends
      cases same
      exact ⟨text, found, parsed⟩

theorem displayBootMenu_ok {entry : Nat}
    (shown : displayBootMenu console extlinux = some (.ok entry, extlinux')) :
    extlinux' = extlinux ∧
      (∃ shown, (List.range extlinux.conf.numBootEntries).mapM
        (fun idx => (extlinux.conf.sections idx).deref) = some shown) ∧
      menuChoice extlinux.conf.defaultBootEntry extlinux.conf.numBootEntries
        (firstWait extlinux.userInputWaitTimeoutMs) console = some entry := by
  unfold displayBootMenu at shown
  rw [read_bind] at shown
  obtain ⟨_, mid, listed, chose⟩ := Prog.bind_eq_ok shown
  obtain ⟨_, found, same⟩ := Option.map_eq_some_iff.mp listed
  cases same
  obtain ⟨_, chosen, same⟩ := Option.map_eq_some_iff.mp chose
  cases same
  exact ⟨rfl, ⟨_, found⟩, chosen⟩

theorem Conf.Released.none_shown {conf : Conf} (released : conf.Released) {shown : List BootSection}
    (listed : (List.range conf.numBootEntries).mapM (fun idx => (conf.sections idx).deref) =
      some shown) : conf.numBootEntries = 0 := by
  by_contra some
  obtain ⟨n, count⟩ := Nat.exists_eq_succ_of_ne_zero some
  rw [count, List.range_succ_eq_map, List.mapM_cons, released 0 (Nat.pos_of_ne_zero some)] at listed
  cases listed

end Runs

/-! ### A longer label -/

def confHandle (text : Text) : FmHandle :=
  ⟨some [], fun _ => .whole (text.map fun c => BitVec.ofNat 8 c.toNat)⟩

def plainHeap : ConfHeap := ⟨some fun _ => 0, fun _ => true⟩

def unansweredRun (text : Text) : Option (Except ErrorValue Unit × Extlinux) :=
  getBootDetails (confHandle text) plainHeap [fun _ => none] .initial

theorem initial_released : Extlinux.initial.conf.Released := fun _ inside => nomatch inside

theorem unansweredRun_ok {text : Text} {entry : Nat}
    (observed : (unansweredRun text).map (fun ended => (ended.1.toBool, ended.2.bootEntry)) =
      some (true, entry)) :
    ∃ extlinux', unansweredRun text = some (.ok (), extlinux') ∧ extlinux'.bootEntry = entry := by
  obtain ⟨⟨result, extlinux'⟩, ran, same⟩ := Option.map_eq_some_iff.mp observed
  cases result with
  | error error => cases same
  | ok done =>
    cases same
    exact ⟨extlinux', ran, rfl⟩

def longerLabel : Text := "DEFAULT a\nLABEL a\nLABEL ab\n".toList

end Cboot.LinuxBoot
