/-
**The configuration file of a root file system.**

`extlinux.conf` is read into a buffer of the heap, cut into lines, and each line that starts with a
key word is a directive. `LABEL` opens a boot section, the directives after it belong to it, and
`DEFAULT` names the section that boots when nobody answers the menu. What is parsed goes to the
static `extlinux_conf`, of which the sections are allocated and freed again after every attempt.

A program of this module has no outcome when the code reads a section that is null or freed, writes
past the section array, compares with a missing `DEFAULT`, runs off the end of the buffer, or frees
a section twice, which the heap answers with an endless loop.
-/

import Cboot.Lib.Program
import Cboot.LinuxBoot.FileManager

namespace Cboot.LinuxBoot

open Prog

/-! ### Lines and directives -/

def isspace (c : Char) : Bool :=
  c == ' ' || c == '\x0c' || c == '\n' || c == '\r' || c == '\t' || c == '\x0b'

def skipLeadingWhitespace (str : Text) : Text := str.dropWhile fun c => c != '\n' && isspace c

def removeWhitespaceAndComment (str : Text) : Text :=
  let body := str.takeWhile (· != '#')
  match body.dropWhile isspace with
  | [] => if body.length = str.length then str.take 1 else []
  | text => text.rdropWhile isspace

def strtokLines (text : Text) : List Text := (text.splitOn '\n').filter fun token => !token.isEmpty

inductive Key
  | timeout
  | default
  | menuTitle
  | label
  | menuLabel
  | linux
  | initrd
  | fdt
  | append
  deriving DecidableEq, Repr

def Key.text : Key → Text
  | .timeout => "TIMEOUT".toList
  | .default => "DEFAULT".toList
  | .menuTitle => "MENU TITLE".toList
  | .label => "LABEL".toList
  | .menuLabel => "MENU LABEL".toList
  | .linux => "LINUX".toList
  | .initrd => "INITRD".toList
  | .fdt => "FDT".toList
  | .append => "APPEND".toList

def Key.all : List Key :=
  [.timeout, .default, .menuTitle, .label, .menuLabel, .linux, .initrd, .fdt, .append]

def extractVal (str : Text) (key : Key) : Text := skipLeadingWhitespace (str.drop key.text.length)

def directive (token : Text) : Option (Key × Text) :=
  let str := removeWhitespaceAndComment token
  (Key.all.find? fun key => key.text.isPrefixOf str).map fun key => (key, extractVal str key)

def strtoulParse : Text → Nat → Bool → Nat × Bool
  | [], acc, overflowed => (acc, overflowed)
  | c :: rest, acc, overflowed =>
    if '0' ≤ c ∧ c ≤ '9' then
      if overflowed then strtoulParse rest acc true
      else
        let next := acc * 10 + (c.toNat - '0'.toNat)
        if 2 ^ 64 ≤ next then strtoulParse rest (2 ^ 64 - 1) true
        else strtoulParse rest next false
    else (acc, overflowed)

def tegrablUtilsStrtoul (str : Text) : Nat :=
  match str.dropWhile isspace with
  | '-' :: digits =>
    let (acc, overflowed) := strtoulParse digits 0 false
    if overflowed then acc else (2 ^ 64 - acc) % 2 ^ 64
  | '+' :: digits => (strtoulParse digits 0 false).1
  | digits => (strtoulParse digits 0 false).1

/-! ### The static configuration -/

structure BootSection where
  label : Option Text
  menuLabel : Option Text
  linuxPath : Option Text
  dtbPath : Option Text
  initrdPath : Option Text
  bootArgs : Option Text
  deriving DecidableEq

def BootSection.new (label : Text) : BootSection := ⟨some label, none, none, none, none, none⟩

def BootSection.set (entry : BootSection) (key : Key) (val : Text) : BootSection :=
  match key with
  | .menuLabel => { entry with menuLabel := some val }
  | .linux => { entry with linuxPath := some val }
  | .initrd => { entry with initrdPath := some val }
  | .fdt => { entry with dtbPath := some val }
  | .append => { entry with bootArgs := some val }
  | _ => entry

inductive SectionPtr
  | null
  | live (entry : BootSection)
  | freed
  deriving DecidableEq

def SectionPtr.deref : SectionPtr → Option BootSection
  | .live entry => some entry
  | _ => none

def SectionPtr.free : SectionPtr → SectionPtr
  | .live _ => .freed
  | ptr => ptr

structure Conf where
  defaultBootEntry : Nat
  menuTitle : Option Text
  sections : Nat → SectionPtr
  numBootEntries : Nat

def maxSections : Nat := 20

structure Extlinux where
  conf : Conf
  bootEntry : Nat
  userInputWaitTimeoutMs : Nat
  isSuccess : Bool
  ramdiskPath : Option Text
  bootArgs : Option Text

def Extlinux.initial : Extlinux where
  conf := ⟨0, none, fun _ => .null, 0⟩
  bootEntry := 0
  userInputWaitTimeoutMs := 0
  isSuccess := false
  ramdiskPath := none
  bootArgs := none

def onConf {α : Type} (p : Prog ErrorValue Conf α) : Prog ErrorValue Extlinux α :=
  zoom Extlinux.conf (fun conf extlinux => { extlinux with conf }) p

def linuxbootError (reason : ErrReason) (auxInfo : Nat) : ErrorValue :=
  ⟨.linuxboot, .linuxboot, auxInfo, reason⟩

/-! ### Parsing -/

structure ParseLocals where
  entries : Nat
  timeout : Option Text
  defaultBoot : Option Text

/-- The memory an attempt finds: the buffer for the file with the bytes that happen to be in it, if
it can be allocated, and whether the section of each entry can be. -/
structure ConfHeap where
  buffer : Option ByteMem
  sectionAllocated : Nat → Bool

def addSection (heap : ConfHeap) (entry : Nat) (label : Text) : Prog ErrorValue Conf Unit :=
  let put (ptr : SectionPtr) : Prog ErrorValue Conf Unit :=
    modify fun conf => { conf with sections := Function.update conf.sections entry ptr }
  if maxSections ≤ entry then stuck
  else if heap.sectionAllocated entry then put (.live (.new label))
  else do
    put .null
    fail (linuxbootError .noMemory 0)

def setSection (entry : Nat) (key : Key) (val : Text) : Prog ErrorValue Conf Unit := do
  let conf ← read
  let old ← ofOption (conf.sections entry).deref
  modify fun conf =>
    { conf with sections := Function.update conf.sections entry (.live (old.set key val)) }

def parseLine (heap : ConfHeap) (token : Text) (locals : ParseLocals) :
    Prog ErrorValue Conf ParseLocals :=
  match directive token with
  | none => pure locals
  | some (.timeout, val) => pure { locals with timeout := some val }
  | some (.default, val) => pure { locals with defaultBoot := some val }
  | some (.menuTitle, val) => do
    modify fun conf => { conf with menuTitle := some val }
    pure locals
  | some (.label, val) => do
    addSection heap locals.entries val
    pure { locals with entries := locals.entries + 1 }
  | some (key, val) =>
    if locals.entries = 0 then pure locals
    else do
      setSection (locals.entries - 1) key val
      pure locals

def parseLines (heap : ConfHeap) : List Text → ParseLocals → Prog ErrorValue Conf ParseLocals
  | [], locals => pure locals
  | token :: rest, locals => do
    let locals ← parseLine heap token locals
    parseLines heap rest locals

def compareDefault (conf : Conf) (defaultBoot : Option Text) (current entry : Nat) : Option Nat := do
  let found ← (conf.sections entry).deref
  let label ← found.label
  let wanted ← defaultBoot
  if wanted.isPrefixOf label then some entry else some current

def findDefault (defaultBoot : Option Text) : Prog ErrorValue Conf Unit := do
  let conf ← read
  let entry ← ofOption
    ((List.range conf.numBootEntries).foldlM (compareDefault conf defaultBoot) conf.defaultBootEntry)
  modify fun conf => { conf with defaultBootEntry := entry }

def waitTimeoutMs (timeout : Option Text) : Nat :=
  match timeout with
  | some val => tegrablUtilsStrtoul val / 10 * 1000 % 2 ^ 64
  | none => 0

def finishParse (locals : ParseLocals) : Prog ErrorValue Extlinux Unit := do
  modify fun extlinux =>
    { extlinux with
      userInputWaitTimeoutMs := waitTimeoutMs locals.timeout
      conf := { extlinux.conf with numBootEntries := locals.entries } }
  onConf (findDefault locals.defaultBoot)

def parseConfFile (heap : ConfHeap) (text : Text) : Prog ErrorValue Extlinux Unit :=
  if strtokLines text = [] then pure ()
  else do
    let locals ← onConf (parseLines heap (strtokLines text) ⟨0, none, none⟩)
    finishParse locals

def extlinuxConfPath : Text := "/boot/extlinux/extlinux.conf".toList

def extlinuxConfMaxSize : Nat := 4096

def cString (mem : ByteMem) (addr : Nat) : Nat → Option Text
  | 0 => none
  | room + 1 =>
    if mem addr = 0 then some []
    else (cString mem (addr + 1) room).map (Char.ofNat (mem addr).toNat :: ·)

def loadAndParseConfFile (handle : FmHandle) (heap : ConfHeap) : Prog ErrorValue Extlinux Unit :=
  match heap.buffer with
  | none => fail (linuxbootError .noMemory 0)
  | some buffer => do
    let file := tegrablFmRead handle (some extlinuxConfPath) buffer 0 extlinuxConfMaxSize
    ofResult file.error
    let text ← ofOption (cString file.memory 0 extlinuxConfMaxSize)
    parseConfFile heap text

/-! ### The menu -/

abbrev ConsoleRead := Option Nat → Option Byte

def menuChoice (defaultBootEntry numBootEntries : Nat) :
    Option Nat → List ConsoleRead → Option Nat
  | _, [] => none
  | timeout, getc :: rest =>
    match getc timeout with
    | none => some defaultBootEntry
    | some ch =>
      if '1'.toNat ≤ ch.toNat ∧ ch.toNat ≤ '0'.toNat + numBootEntries then
        some (ch.toNat - '0'.toNat - 1)
      else menuChoice defaultBootEntry numBootEntries none rest

def firstWait (timeoutMs : Nat) : Option Nat := if timeoutMs ≠ 0 then some timeoutMs else none

def displayBootMenu (console : List ConsoleRead) : Prog ErrorValue Extlinux Nat := do
  let extlinux ← read
  let _ ← ofOption ((List.range extlinux.conf.numBootEntries).mapM fun idx =>
    (extlinux.conf.sections idx).deref)
  ofOption (menuChoice extlinux.conf.defaultBootEntry extlinux.conf.numBootEntries
    (firstWait extlinux.userInputWaitTimeoutMs) console)

def getBootDetails (handle : FmHandle) (heap : ConfHeap) (console : List ConsoleRead) :
    Prog ErrorValue Extlinux Unit := do
  loadAndParseConfFile handle heap
  let entry ← displayBootMenu console
  modify fun extlinux => { extlinux with bootEntry := entry }

def freeSections (extlinux : Extlinux) : Option Extlinux :=
  let conf := extlinux.conf
  if ∃ entry < conf.numBootEntries, conf.sections entry = .freed then none
  else some { extlinux with conf := { conf with sections := fun entry =>
    if entry < conf.numBootEntries then (conf.sections entry).free else conf.sections entry } }

/-! ### What a text says -/

structure ConfFile where
  sections : List BootSection
  timeout : Option Text
  defaultBoot : Option Text

def ConfFile.addLabel (file : ConfFile) (label : Text) : ConfFile :=
  { file with sections := file.sections ++ [.new label] }

def ConfFile.setLast (file : ConfFile) (key : Key) (val : Text) : ConfFile :=
  { file with sections := file.sections.modify (file.sections.length - 1) (·.set key val) }

def ConfFile.addLine (file : ConfFile) (token : Text) : ConfFile :=
  match directive token with
  | none => file
  | some (.timeout, val) => { file with timeout := some val }
  | some (.default, val) => { file with defaultBoot := some val }
  | some (.menuTitle, _) => file
  | some (.label, val) => file.addLabel val
  | some (key, val) => file.setLast key val

def confFile (text : Text) : ConfFile := (strtokLines text).foldl ConfFile.addLine ⟨[], none, none⟩

def ConfFile.named (file : ConfFile) (entry : Nat) : Bool :=
  match file.sections[entry]?.bind BootSection.label, file.defaultBoot with
  | some label, some wanted => wanted.isPrefixOf label
  | _, _ => false

def ConfFile.defaultEntry (file : ConfFile) : Option Nat :=
  (List.range file.sections.length).foldl
    (fun current entry => if file.named entry then some entry else current) none

def ConfFile.choice (file : ConfFile) (old : Nat) (console : List ConsoleRead) : Option Nat :=
  menuChoice (file.defaultEntry.getD old) file.sections.length
    (firstWait (waitTimeoutMs file.timeout)) console

theorem foldl_named_lt {file : ConfFile} {n found : Nat}
    (ran : (List.range n).foldl (fun current entry =>
      if file.named entry then some entry else current) none = some found) : found < n := by
  induction n generalizing found with
  | zero => cases ran
  | succ n ih =>
    rw [List.range_succ, List.foldl_append, List.foldl_cons, List.foldl_nil] at ran
    split at ran
    · cases ran
      exact Nat.lt_succ_self n
    · exact (ih ran).trans (Nat.lt_succ_self n)

variable {console : List ConsoleRead}

theorem menuChoice_lt {defaultEntry n chosen : Nat} (inside : defaultEntry < n)
    {timeout : Option Nat}
    (chose : menuChoice defaultEntry n timeout console = some chosen) : chosen < n := by
  induction console generalizing timeout with
  | nil => cases chose
  | cons getc rest ih =>
    rw [menuChoice] at chose
    split at chose
    · cases chose
      exact inside
    · split at chose
      · rename_i digit
        cases chose
        have one : '1'.toNat = '0'.toNat + 1 := rfl
        omega
      · exact ih chose

theorem ConfFile.choice_lt {file : ConfFile} {old chosen : Nat}
    (named : file.defaultEntry ≠ none) (chose : file.choice old console = some chosen) :
    chosen < file.sections.length := by
  obtain ⟨entry, found⟩ := Option.ne_none_iff_exists'.mp named
  refine menuChoice_lt ?_ chose
  rw [found]
  exact foldl_named_lt found

theorem ConfFile.choice_congr {file : ConfFile} (named : file.defaultEntry ≠ none) (old old' : Nat)
    (console : List ConsoleRead) : file.choice old console = file.choice old' console := by
  obtain ⟨entry, found⟩ := Option.ne_none_iff_exists'.mp named
  rw [ConfFile.choice, ConfFile.choice, found]
  rfl

/-! ### The parser follows the text -/

def Live (file : ConfFile) (conf : Conf) : Prop :=
  ∀ entry (inside : entry < file.sections.length),
    conf.sections entry = .live (file.sections[entry])

structure Holds (file : ConfFile) (old : Nat) (locals : ParseLocals) (conf : Conf) : Prop where
  entries : locals.entries = file.sections.length
  timeout : locals.timeout = file.timeout
  defaultBoot : locals.defaultBoot = file.defaultBoot
  defaultBootEntry : conf.defaultBootEntry = old
  live : Live file conf

def ConfHeap.Ample (heap : ConfHeap) : Prop := ∀ entry, heap.sectionAllocated entry = true

section Parse

variable {file : ConfFile} {old : Nat} {locals : ParseLocals}

theorem addSection_holds (heap : ConfHeap) (label : Text) :
    Triple (Holds file old locals) (addSection heap locals.entries label)
      (fun _ => Holds (file.addLabel label) old { locals with entries := locals.entries + 1 })
      fun _ => ¬heap.Ample := by
  unfold addSection
  refine Triple.ite (fun _ => .stuck) fun _ => ?_
  refine Triple.ite (fun _ => ?_) fun refused => ?_
  swap
  · intro conf _ x run
    cases run
    exact fun ample => refused (ample _)
  refine Triple.modify fun conf holds =>
    ⟨?_, holds.timeout, holds.defaultBoot, holds.defaultBootEntry, ?_⟩
  · simp [ConfFile.addLabel, holds.entries]
  · intro entry inside
    simp only [ConfFile.addLabel] at inside ⊢
    rw [List.length_append, List.length_singleton] at inside
    rcases Nat.lt_succ_iff_lt_or_eq.mp inside with earlier | rfl
    · have other : entry ≠ locals.entries := by
        rw [holds.entries]
        exact earlier.ne
      simp only [Function.update_of_ne other]
      rw [holds.live entry earlier, List.getElem_append_left earlier]
    · simp [← holds.entries]

theorem setSection_holds {err : Conf → Prop} (opened : locals.entries ≠ 0) (key : Key)
    (val : Text) :
    Triple (Holds file old locals) (setSection (locals.entries - 1) key val)
      (fun _ => Holds (file.setLast key val) old locals) err := by
  unfold setSection
  refine Triple.readThen fun conf holds => ?_
  have last : locals.entries - 1 < file.sections.length := by
    rw [← holds.entries]
    exact Nat.sub_one_lt opened
  rw [holds.live _ last]
  refine Triple.ofOptionThen fun old found => Triple.modify ?_
  rintro s rfl
  cases found
  refine ⟨?_, holds.timeout, holds.defaultBoot, holds.defaultBootEntry, fun entry inside => ?_⟩
  · simp [ConfFile.setLast, holds.entries]
  · simp only [ConfFile.setLast, List.length_modify] at inside ⊢
    by_cases here : entry = locals.entries - 1
    · subst here
      simp [holds.entries]
    · have other : ¬ file.sections.length - 1 = entry := by
        rw [← holds.entries]
        exact Ne.symm here
      rw [Function.update_of_ne here, holds.live entry inside, List.getElem_modify, if_neg other]

theorem parseLine_holds (heap : ConfHeap) (token : Text) :
    Triple (Holds file old locals) (parseLine heap token locals)
      (fun locals => Holds (file.addLine token) old locals) fun _ => ¬heap.Ample := by
  unfold parseLine ConfFile.addLine
  rcases directive token with _ | ⟨key, val⟩
  · exact Triple.pure fun conf holds => holds
  · have inside : Triple (Holds file old locals)
        (if locals.entries = 0 then pure locals
          else do
            setSection (locals.entries - 1) key val
            pure locals)
        (fun locals => Holds (file.setLast key val) old locals) fun _ => ¬heap.Ample := by
      refine Triple.ite (fun none => Triple.pure fun conf holds => ?_) fun opened => ?_
      · have empty : file.sections = [] := List.eq_nil_of_length_eq_zero (holds.entries ▸ none)
        have same : file.setLast key val = file := by
          rw [ConfFile.setLast, empty, List.modify_nil, ← empty]
        rw [same]
        exact holds
      · exact Triple.bind (setSection_holds opened key val) fun _ =>
          Triple.pure fun conf holds => holds
    cases key with
    | timeout =>
      exact Triple.pure fun conf holds => { holds with timeout := rfl }
    | default =>
      exact Triple.pure fun conf holds => { holds with defaultBoot := rfl }
    | menuTitle =>
      refine Triple.bind (Triple.modify fun conf holds => ?_) fun _ =>
        Triple.pure fun conf holds => holds
      exact { holds with }
    | label =>
      exact Triple.bind (addSection_holds heap val) fun _ => Triple.pure fun conf holds => holds
    | menuLabel | linux | initrd | fdt | append => exact inside

theorem parseLines_holds (heap : ConfHeap) (tokens : List Text) :
    Triple (Holds file old locals) (parseLines heap tokens locals)
      (fun locals => Holds (tokens.foldl ConfFile.addLine file) old locals)
      fun _ => ¬heap.Ample := by
  induction tokens generalizing file locals with
  | nil => exact Triple.pure fun conf holds => holds
  | cons token rest ih => exact Triple.bind (parseLine_holds heap token) fun locals => ih

theorem compareDefault_some {conf : Conf} {current entry found : Nat} (live : Live file conf)
    (inside : entry < file.sections.length)
    (compared : compareDefault conf file.defaultBoot current entry = some found) :
    found = if file.named entry then entry else current := by
  unfold compareDefault at compared
  unfold ConfFile.named
  rw [live entry inside] at compared
  simp only [SectionPtr.deref, Option.bind_eq_bind, Option.bind_some] at compared
  rw [List.getElem?_eq_getElem inside, Option.bind_some]
  cases labelled : file.sections[entry].label with
  | none =>
    rw [labelled] at compared
    cases compared
  | some label =>
    cases given : file.defaultBoot with
    | none =>
      rw [labelled, given] at compared
      cases compared
    | some wanted =>
      rw [labelled, given] at compared
      simp only [Option.bind_some] at compared
      rw [← apply_ite some, Option.some.injEq] at compared
      exact compared.symm

theorem foldlM_compareDefault {conf : Conf} {found : Nat} (live : Live file conf) {n : Nat}
    (inside : n ≤ file.sections.length)
    (ran : (List.range n).foldlM (compareDefault conf file.defaultBoot) old = some found) :
    found = ((List.range n).foldl (fun current entry =>
      if file.named entry then some entry else current) none).getD old := by
  induction n generalizing found with
  | zero =>
    cases ran
    rfl
  | succ n ih =>
    rw [List.range_succ, List.foldlM_append] at ran
    obtain ⟨before, first, last⟩ := Option.bind_eq_some_iff.mp ran
    have earlier := ih (Nat.le_of_succ_le inside) first
    rw [List.foldlM_cons] at last
    obtain ⟨now, compared, done⟩ := Option.bind_eq_some_iff.mp last
    cases done
    rw [compareDefault_some live inside compared, List.range_succ, List.foldl_append]
    simp only [List.foldl_cons, List.foldl_nil]
    split
    · rfl
    · exact earlier

theorem findDefault_spec {defaultBoot : Option Text} {err : Conf → Prop} :
    Triple (fun conf => defaultBoot = file.defaultBoot ∧
        conf.numBootEntries = file.sections.length ∧ conf.defaultBootEntry = old ∧ Live file conf)
      (findDefault defaultBoot)
      (fun _ conf => conf.numBootEntries = file.sections.length ∧
        conf.defaultBootEntry = file.defaultEntry.getD old ∧ Live file conf)
      err := by
  refine Triple.readThen ?_
  rintro conf ⟨rfl, entries, before, live⟩
  refine Triple.ofOptionThen fun found ran => Triple.modify ?_
  rintro s rfl
  rw [entries, before] at ran
  exact ⟨entries, foldlM_compareDefault live le_rfl ran, live⟩

end Parse

structure Parsed (file : ConfFile) (old : Nat) (extlinux : Extlinux) : Prop where
  numBootEntries : extlinux.conf.numBootEntries = file.sections.length
  defaultBootEntry : extlinux.conf.defaultBootEntry = file.defaultEntry.getD old
  live : Live file extlinux.conf
  timeout : extlinux.userInputWaitTimeoutMs = waitTimeoutMs file.timeout

theorem finishParse_spec {file : ConfFile} {old : Nat} {err : Extlinux → Prop}
    (locals : ParseLocals) :
    Triple (fun extlinux => Holds file old locals extlinux.conf) (finishParse locals)
      (fun _ => Parsed file old) err := by
  have counted : Triple (fun extlinux => Holds file old locals extlinux.conf)
      (modify fun extlinux =>
        { extlinux with
          userInputWaitTimeoutMs := waitTimeoutMs locals.timeout
          conf := { extlinux.conf with numBootEntries := locals.entries } } :
        Prog ErrorValue Extlinux Unit)
      (fun _ extlinux => extlinux.userInputWaitTimeoutMs = waitTimeoutMs file.timeout ∧
        locals.defaultBoot = file.defaultBoot ∧
        extlinux.conf.numBootEntries = file.sections.length ∧
        extlinux.conf.defaultBootEntry = old ∧ Live file extlinux.conf) err :=
    Triple.modify fun extlinux holds =>
      ⟨congrArg waitTimeoutMs holds.timeout, holds.defaultBoot, holds.entries,
        holds.defaultBootEntry, holds.live⟩
  refine counted.bind fun _ => ?_
  have searched := @findDefault_spec file old locals.defaultBoot fun _ => False
  exact Triple.zoom searched (fun _ start => start.2)
    (fun _ _ _ start found => ⟨found.1, found.2.1, found.2.2, start.1⟩) fun _ _ _ => False.elim

theorem parseConfFile_spec (heap : ConfHeap) {text : Text} (old : Nat)
    (written : strtokLines text ≠ []) :
    Triple (fun extlinux => extlinux.conf.defaultBootEntry = old) (parseConfFile heap text)
      (fun _ => Parsed (confFile text) old) fun _ => ¬heap.Ample := by
  unfold parseConfFile
  rw [if_neg written]
  have lines : Triple (fun extlinux => extlinux.conf.defaultBootEntry = old)
      (onConf (parseLines heap (strtokLines text) ⟨0, none, none⟩))
      (fun locals extlinux => Holds (confFile text) old locals extlinux.conf)
      fun _ => ¬heap.Ample := by
    refine Triple.zoom (parseLines_holds heap (strtokLines text)) ?_ (fun _ _ _ _ => id)
      fun _ _ _ => id
    exact fun extlinux start => ⟨rfl, rfl, rfl, start, fun entry none => nomatch none⟩
  exact lines.bind fun locals => finishParse_spec locals

theorem getBootDetails_ample {handle : FmHandle} {heap : ConfHeap}
    {buffer : ByteMem} {text : Text} (ample : heap.Ample) (there : heap.buffer = some buffer)
    (success : (tegrablFmRead handle (some extlinuxConfPath) buffer 0 extlinuxConfMaxSize).error =
      .ok ())
    (ends : cString (tegrablFmRead handle (some extlinuxConfPath) buffer 0
      extlinuxConfMaxSize).memory 0 extlinuxConfMaxSize = some text)
    (written : strtokLines text ≠ []) (old : Nat) :
    Triple (fun extlinux => extlinux.conf.defaultBootEntry = old)
      (getBootDetails handle heap console)
      (fun _ extlinux => Parsed (confFile text) old extlinux ∧
        (confFile text).choice old console = some extlinux.bootEntry) fun _ => False := by
  have parsed : Triple (fun extlinux => extlinux.conf.defaultBootEntry = old)
      (loadAndParseConfFile handle heap) (fun _ => Parsed (confFile text) old)
      fun _ => False := by
    unfold loadAndParseConfFile
    rw [there]
    simp only
    rw [success, ends]
    exact (parseConfFile_spec heap old written).mono (fun _ => id) (fun _ _ => id)
      fun _ refused => refused ample
  have chosen : Triple (Parsed (confFile text) old) (displayBootMenu console)
      (fun entry extlinux => Parsed (confFile text) old extlinux ∧
        (confFile text).choice old console = some entry) fun _ => False := by
    refine Triple.readThen fun extlinux holds => Triple.ofOptionThen fun _ _ => ?_
    intro s same x run
    obtain ⟨entry, chose, rfl⟩ := Option.map_eq_some_iff.mp run
    subst same
    rw [holds.defaultBootEntry, holds.numBootEntries, holds.timeout] at chose
    exact ⟨holds, chose⟩
  refine parsed.bind fun _ => chosen.bind fun entry => Triple.modify ?_
  rintro extlinux ⟨holds, chose⟩
  exact ⟨{ holds with }, chose⟩

end Cboot.LinuxBoot
