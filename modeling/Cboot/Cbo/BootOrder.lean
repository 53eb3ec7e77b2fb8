/-
**From the names of the boot order to the media.**

The property `boot-order` is a list of names. `map_boot_priority` gives each name the first device
whose name it starts with, and a name without such a device the 0 of the new array, which is
`BOOT_DEFAULT`: the loop over the boot order ends there.
-/

import Cboot.Cbo.Parse

namespace Cboot.Cbo

open Prog LinuxBoot ABBoot DeviceTree

/-! ### A list of strings -/

structure Node.Strings (node : Node) (name : BootCfgVar) (prop : Nat) (names : List (List Byte)) :
    Prop where
  place : node.getprop name = some (prop, stringsSize names)
  short : stringsSize names < 2 ^ 31
  strings : StringsAt node.mem prop names

/-! ### Names and devices -/

def prefixDevice (name : List Byte) : Option BootDevice :=
  gBootDevices.find? fun device => device.name.isPrefixOf name

def knownDevice (name : List Byte) : Option BootDevice :=
  gBootDevices.find? fun device => device.name = name

variable {name : List Byte}

theorem deviceIdOf_string {mem : ByteMem} {addr : Nat}
    (string : StringAt mem addr name) :
    deviceIdOf (mem.view addr) = ((prefixDevice name).map BootDevice.deviceId).getD 0 := by
  have same : ∀ device ∈ gBootDevices, strncmpEq (mem.view addr) device.name =
      device.name.isPrefixOf name := by
    intro device member
    have noNul : 0 ∉ device.name := by
      revert device
      decide
    have compared : strncmpEq (mem.view addr) device.name = true ↔ device.name <+: name :=
      strncmpEq_iff noNul string.2
    rw [Bool.eq_iff_iff, compared, List.isPrefixOf_iff_prefix]
  rw [deviceIdOf, prefixDevice, List.find?_congr same]

def mappedId (name : List Byte) : Byte := ((prefixDevice name).map BootDevice.deviceId).getD 0

theorem priorities_strings {mem : ByteMem} {addr : Nat} {names : List (List Byte)}
    (strings : StringsAt mem addr names) :
    priorities ((starts addr names).map mem.view) = names.map mappedId ++ [bootDefault] := by
  rw [priorities]
  congr 1
  induction names generalizing addr with
  | nil => rfl
  | cons s rest ih =>
    rw [starts, List.map_cons, List.map_cons, List.map_cons, ih strings.2,
      deviceIdOf_string strings.1]
    rfl

theorem prefixDevice_known {device : BootDevice}
    (known : knownDevice name = some device) : prefixDevice name = some device := by
  have found := List.mem_of_find?_eq_some known
  have same : device.name = name := by simpa using List.find?_some known
  subst same
  revert device
  decide

theorem deviceId_ne_default {device : BootDevice}
    (found : prefixDevice name = some device) : device.deviceId ≠ bootDefault := by
  have member := List.mem_of_find?_eq_some found
  clear found
  revert device
  decide

/-! ### The loop -/

section Loop

variable {σ : Type} (attempt : Nat → Medium → Prog ErrorValue σ Unit)

def bootLoop : Nat → List Byte → σ → Option (Bool × σ)
  | _, [], _ => none
  | i, device :: rest, state =>
    if device = bootDefault then some (false, state)
    else
      match attempt i (mediumOf device) state with
      | none => none
      | some (.ok (), state) => some (true, state)
      | some (.error _, state) => bootLoop (i + 1) rest state

theorem bootLoop_eq_mediaLoop (attempt : Medium → Prog ErrorValue σ Unit) (order : List Byte) :
    ∀ i state, bootLoop (fun _ => attempt) i order state = mediaLoop attempt order state := by
  induction order with
  | nil => exact fun _ _ => rfl
  | cons device rest ih =>
    intro i state
    rw [bootLoop, mediaLoop]
    split
    · rfl
    · cases attempt (mediumOf device) state with
      | none => rfl
      | some end_ =>
        obtain ⟨result, state⟩ := end_
        cases result with
        | ok _ => rfl
        | error _ => exact ih (i + 1) state

end Loop

def recorded (outcome : Nat → Result Unit) (i : Nat) (medium : Medium) :
    Prog ErrorValue (List (Nat × Medium)) Unit := fun trace =>
  some (outcome trace.length, trace ++ [(i, medium)])

def listed : Nat → List Byte → List (Nat × Medium)
  | _, [] => []
  | i, device :: rest =>
    if device = bootDefault then [] else (i, mediumOf device) :: listed (i + 1) rest

def attempted {α : Type} (outcome : Nat → Result Unit) : Nat → List α → List α
  | _, [] => []
  | k, medium :: rest =>
    if (outcome k).isOk then [medium] else medium :: attempted outcome (k + 1) rest

theorem bootLoop_recorded (outcome : Nat → Result Unit) {order : List Byte}
    (ends : bootDefault ∈ order) : ∀ i trace, ∃ done,
      bootLoop (recorded outcome) i order trace =
        some (done, trace ++ attempted outcome trace.length (listed i order)) := by
  induction order with
  | nil => cases ends
  | cons device rest ih =>
    intro i trace
    rw [bootLoop, listed]
    by_cases last : device = bootDefault
    · refine ⟨false, ?_⟩
      rw [if_pos last, if_pos last, attempted, List.append_nil]
    · rw [if_neg last, if_neg last, attempted]
      have later : bootDefault ∈ rest := (List.mem_cons.mp ends).resolve_left fun same =>
        last same.symm
      cases tried : outcome trace.length with
      | ok done =>
        refine ⟨true, ?_⟩
        rw [recorded, tried]
        rfl
      | error error =>
        obtain ⟨done, walked⟩ := ih later (i + 1) (trace ++ [(i, mediumOf device)])
        refine ⟨done, ?_⟩
        rw [recorded, tried]
        show bootLoop (recorded outcome) (i + 1) rest (trace ++ [(i, mediumOf device)]) = _
        rw [walked, List.length_append, List.append_assoc]
        rfl

theorem attempted_failing {α : Type} {outcome : Nat → Result Unit}
    (fails : ∀ k, (outcome k).isOk = false) (list : List α) : ∀ k, attempted outcome k list = list := by
  induction list with
  | nil => exact fun _ => rfl
  | cons medium rest ih =>
    intro k
    rw [attempted, fails k, if_neg nofun, ih]

/-! ### Known names -/

def knownMedium (name : List Byte) : Option Medium :=
  (knownDevice name).map fun device => mediumOf device.deviceId

def expected : Nat → List (List Byte) → List (Nat × Medium)
  | _, [] => []
  | i, name :: rest =>
    match knownMedium name with
    | some medium => (i, medium) :: expected (i + 1) rest
    | none => expected (i + 1) rest

def KnownFirst (names : List (List Byte)) : Prop :=
  ∃ known others, names = known ++ others ∧ (∀ name ∈ known, (knownMedium name).isSome) ∧
    (∀ name ∈ others, knownMedium name = none) ∧
    ∀ name, others.head? = some name → prefixDevice name = none

theorem le_of_mem_expected {names : List (List Byte)} :
    ∀ {i k medium}, (k, medium) ∈ expected i names → i ≤ k := by
  induction names with
  | nil => exact fun member => absurd member List.not_mem_nil
  | cons name rest ih =>
    intro i k medium member
    rw [expected] at member
    split at member
    · rcases List.mem_cons.mp member with same | later
      · cases same
        exact le_rfl
      · exact (Nat.le_succ i).trans (ih later)
    · exact (Nat.le_succ i).trans (ih member)

theorem expected_eq_nil_iff {names : List (List Byte)} :
    ∀ {i}, expected i names = [] ↔ ∀ name ∈ names, knownMedium name = none := by
  induction names with
  | nil => exact iff_of_true rfl nofun
  | cons name rest ih =>
    intro i
    rw [expected, List.forall_mem_cons]
    cases known : knownMedium name with
    | some medium => exact iff_of_false nofun fun both => nomatch both.1
    | none => exact (ih (i := i + 1)).trans (and_iff_right rfl).symm

theorem knownFirst_cons_known {rest : List (List Byte)}
    (known : (knownMedium name).isSome) : KnownFirst (name :: rest) ↔ KnownFirst rest := by
  constructor
  · rintro ⟨first, others, split, all, none_, head⟩
    cases first with
    | nil =>
      rw [List.nil_append] at split
      have unknown := none_ name (split ▸ .head _)
      rw [unknown] at known
      cases known
    | cons s first =>
      cases split
      exact ⟨first, others, rfl, fun n member => all n (.tail _ member), none_, head⟩
  · rintro ⟨first, others, rfl, all, none_, head⟩
    exact ⟨name :: first, others, rfl, List.forall_mem_cons.mpr ⟨known, all⟩, none_, head⟩

theorem knownFirst_cons_unknown {rest : List (List Byte)}
    (unknown : knownMedium name = none) : KnownFirst (name :: rest) ↔
      prefixDevice name = none ∧ ∀ n ∈ rest, knownMedium n = none := by
  constructor
  · rintro ⟨first, others, split, all, none_, head⟩
    cases first with
    | nil =>
      rw [List.nil_append] at split
      cases split
      exact ⟨head name rfl, fun n member => none_ n (.tail _ member)⟩
    | cons s first =>
      cases split
      have known := all name (.head _)
      rw [unknown] at known
      cases known
  · rintro ⟨other, none_⟩
    refine ⟨[], name :: rest, rfl, nofun, List.forall_mem_cons.mpr ⟨unknown, none_⟩, ?_⟩
    rintro n same
    cases same
    exact other

theorem listed_eq_expected_iff {names : List (List Byte)} :
    ∀ {i}, listed i (names.map mappedId ++ [bootDefault]) = expected i names ↔
      KnownFirst names := by
  induction names with
  | nil => exact iff_of_true rfl ⟨[], [], rfl, nofun, nofun, nofun⟩
  | cons name rest ih =>
    intro i
    rw [List.map_cons, List.cons_append, listed, expected]
    cases known : knownDevice name with
    | some device =>
      have started := prefixDevice_known known
      have id : mappedId name = device.deviceId := by rw [mappedId, started]; rfl
      have medium : knownMedium name = some (mediumOf device.deviceId) := by
        rw [knownMedium, known]
        rfl
      rw [id, if_neg (deviceId_ne_default started), medium, knownFirst_cons_known (by rw [medium]; rfl),
        ← ih (i := i + 1)]
      exact List.cons_inj_right _
    | none =>
      have unknown : knownMedium name = none := by rw [knownMedium, known]; rfl
      rw [unknown, knownFirst_cons_unknown unknown]
      cases started : prefixDevice name with
      | none =>
        have id : mappedId name = bootDefault := by rw [mappedId, started]; rfl
        rw [if_pos id]
        exact (eq_comm.trans expected_eq_nil_iff).trans (and_iff_right rfl).symm
      | some device =>
        have id : mappedId name = device.deviceId := by rw [mappedId, started]; rfl
        rw [id, if_neg (deviceId_ne_default started)]
        refine iff_of_false (fun same => ?_) fun both => nomatch both.1
        have same : _ = expected (i + 1) rest := same
        have early : (i, mediumOf device.deviceId) ∈ expected (i + 1) rest :=
          same ▸ .head _
        exact absurd (le_of_mem_expected early) (Nat.not_succ_le_self i)

/-! ### The run -/

section Run

variable {σ : Type} {alloc : Nat → σ → Bool × σ} {node : Node}

theorem tegrablCalloc_ok (succeeds : ∀ n heap, (alloc n heap).1 = true) (nmemb : Nat) {size : Nat}
    (some_ : size ≠ 0) (s : CboState σ) : tegrablCalloc alloc nmemb size s =
      some (.ok (some s.next), s.push (alloc (nmemb * size) s.heap).2
        (List.replicate (nmemb * size) 0)) := by
  rw [tegrablCalloc, if_neg some_]
  exact if_pos (succeeds _ _)

theorem length_le_stringsSize (names : List (List Byte)) : names.length ≤ stringsSize names := by
  induction names with
  | nil => exact le_rfl
  | cons s rest ih =>
    rw [stringsSize_cons, List.length_cons]
    omega

variable (succeeds : ∀ n heap, (alloc n heap).1 = true)
include succeeds

theorem mapBootPriority_ok {names : List ByteMem}
    (short : names.length + 1 < 2 ^ 32) (s : CboState σ) : ∃ s',
      mapBootPriority alloc names s = some (.ok (), s') ∧ s'.bootPriority = some s.next ∧
        s'.blocks s.next = some (priorities names) := by
  have size : (names.length + 1) % 2 ^ 32 ≠ 0 := by
    rw [Nat.mod_eq_of_lt short]
    exact Nat.succ_ne_zero _
  rw [mapBootPriority, bind_ok (tegrablCalloc_ok succeeds 1 size s)]
  exact ⟨_, rfl, rfl, Function.update_self ..⟩

theorem parseBootOrder_strings {prop : Nat}
    {names : List (List Byte)} (strings : node.Strings .bootOrder prop names) (some_ : names ≠ [])
    (count : Nat) (s : CboState σ) :
    ∃ s', parseBootOrder alloc node count s = some (.ok (), s') ∧
      bootOrder s' = some (names.map mappedId ++ [bootDefault]) := by
  have notZero : names.length ≠ 0 := fun zero => some_ (List.length_eq_zero_iff.mp zero)
  have counted : tegrablDtGetPropCountStrings node .bootOrder count = .ok names.length := by
    rw [tegrablDtGetPropCountStrings, strings.place]
    dsimp only
    rw [countStrings_eq strings.strings, if_neg notZero]
  have array : tegrablDtGetPropStringArray node .bootOrder = .ok (starts prop names) := by
    rw [tegrablDtGetPropStringArray, strings.place, ← stringArray_eq strings.strings some_]
  have found : namesOf node.mem names.length (starts prop names) =
      some ((starts prop names).map node.mem.view) := if_pos (starts_length names prop)
  have short : ((starts prop names).map node.mem.view).length + 1 < 2 ^ 32 := by
    have fits := (length_le_stringsSize names).trans_lt strings.short
    rw [List.length_map, starts_length]
    omega
  have stored : ∀ s : CboState σ, ∃ s', storeBootOrder alloc node names.length s =
      some (.ok (), s') ∧ s'.bootPriority = some s.next ∧
        s'.blocks s.next = some (names.map mappedId ++ [bootDefault]) := by
    intro s
    obtain ⟨s', mapped, pointer, filled⟩ := mapBootPriority_ok succeeds short s
    rw [priorities_strings strings.strings] at filled
    rw [storeBootOrder, array, bind_ok (p := ofResult (.ok (starts prop names))) rfl, found,
      bind_ok (p := ofOption (some _)) rfl, bind_ok mapped]
    exact ⟨_, rfl, pointer, filled⟩
  obtain ⟨s', run, pointer, filled⟩ := stored (s.push (alloc (8 * names.length) s.heap).2
    (List.replicate (8 * names.length) 0))
  rw [parseBootOrder, counted, bind_ok (p := ofResult (.ok names.length)) rfl,
    bind_ok (tegrablCalloc_ok succeeds 8 notZero s)]
  refine ⟨_, always_run run rfl, ?_⟩
  show s'.bootPriority.bind (Function.update s'.blocks s.next none) = _
  rw [pointer]
  exact (Function.update_of_ne (Nat.succ_ne_self _) ..).trans filled

theorem setDefaultBootOrder_ok (s : CboState σ) :
    ∃ s', setDefaultBootOrder alloc s = some (.ok (), s') ∧ bootOrder s' = some defaultBootOrder := by
  rw [setDefaultBootOrder, bind_ok (tegrablCalloc_ok succeeds 1 (by decide) s)]
  exact ⟨_, rfl, Function.update_self ..⟩

theorem parseInfo_strings {prop : Nat}
    {names : List (List Byte)} (strings : node.Strings .bootOrder prop names) (some_ : names ≠ [])
    (count strlen : Nat) (s : CboState σ) :
    ∃ s', tegrablCboParseInfo alloc (.ok (some node)) count strlen s = some (.ok (), s') ∧
      bootOrder s' = some (names.map mappedId ++ [bootDefault]) := by
  obtain ⟨s', parsed, order⟩ := parseBootOrder_strings succeeds strings some_ count
    { s with info := s.info.memset 0 0 (ipInfoSize + guidStrLen + 1) }
  rw [tegrablCboParseInfo, modify_bind]
  dsimp only
  rw [bind_ok (recover_ok (by rw [bind_ok parsed]; rfl) _), modify_bind, modify_bind]
  exact ⟨_, rfl, order⟩

theorem parseInfo_empty {prop : Nat}
    (strings : node.Strings .bootOrder prop []) (strlen : Nat) (s : CboState σ) :
    ∃ result s', tegrablCboParseInfo alloc (.ok (some node)) 0 strlen s = some (result, s') ∧
      bootOrder s' = some defaultBootOrder := by
  have counted : tegrablDtGetPropCountStrings node .bootOrder 0 = .ok 0 := by
    rw [tegrablDtGetPropCountStrings, strings.place]
    rfl
  have parsed : ∀ s : CboState σ, parseBootOrder alloc node 0 s =
      some (tegrablError .cbo .noMemory 2, s) := by
    intro s
    rw [parseBootOrder, counted]
    rfl
  rw [tegrablCboParseInfo, modify_bind]
  dsimp only
  rw [bind_ok (recover_error (by rw [bind_error (parsed _)]) _), modify_bind, modify_bind]
  obtain ⟨s', set, order⟩ := setDefaultBootOrder_ok succeeds _
  exact ⟨_, s', bind_ok set _, order⟩

end Run

/-! ### The media that are tried -/

def OnSlotA (reg : BitVec 32) : Prop :=
  tegrablABIsValidReg reg = false ∨ (bootChainRegSlotNumGet reg).toNat = bootSlotA

theorem bootorderStart_slotA {reg : BitVec 32} (slotA : OnSlotA reg) (order : List Byte) :
    bootorderStart reg order = 0 := by
  unfold bootorderStart bootChainGetBootslotFromReg
  rcases slotA with invalid | slotA
  · simp [invalid, abError, tegrablError]
  · cases valid : tegrablABIsValidReg reg with
    | false => simp [abError, tegrablError]
    | true => simp [slotA]

def mediaTried {σ : Type} (alloc : Nat → σ → Bool × σ) (content : Result (Option Node))
    (count strlen : Nat) (reg : BitVec 32) (outcome : Nat → Result Unit) (s : CboState σ) :
    Option (List (Nat × Medium)) := do
  let (_, s) ← tegrablCboParseInfo alloc content count strlen s
  let order ← bootOrder s
  let (_, trace) ← bootLoop (recorded outcome) (bootorderStart reg order)
    (order.drop (bootorderStart reg order)) []
  pure trace

section Tried

variable {σ : Type} {alloc : Nat → σ → Bool × σ} {node : Node}

theorem mediaTried_eq {content : Result (Option Node)} {count strlen : Nat} {reg : BitVec 32}
    (slotA : OnSlotA reg) (outcome : Nat → Result Unit) {s s' : CboState σ} {result : Result Unit}
    (run : tegrablCboParseInfo alloc content count strlen s = some (result, s')) {order : List Byte}
    (obtained : bootOrder s' = some order) (ends : bootDefault ∈ order) :
    mediaTried alloc content count strlen reg outcome s =
      some (attempted outcome 0 (listed 0 order)) := by
  obtain ⟨done, walked⟩ := bootLoop_recorded outcome ends 0 []
  rw [mediaTried, run]
  simp [obtained, bootorderStart_slotA slotA, walked]

/-- **From the names to the media.** On slot A, whatever the attempts end with and whatever the
uninitialised variables hold, the boot loop tries the places with a known name and their media,
exactly when the list is not empty, the known names come first, and the first other name does not
start with a known one. -/
theorem boot_media_iff (succeeds : ∀ n heap, (alloc n heap).1 = true) {prop : Nat}
    {names : List (List Byte)} (strings : node.Strings .bootOrder prop names) {reg : BitVec 32}
    (slotA : OnSlotA reg) (s : CboState σ) :
    (∀ count strlen outcome, mediaTried alloc (.ok (some node)) count strlen reg outcome s =
        some (attempted outcome 0 (expected 0 names))) ↔
      names ≠ [] ∧ KnownFirst names := by
  by_cases empty : names = []
  · subst empty
    refine iff_of_false (fun conforms => ?_) fun both => both.1 rfl
    obtain ⟨result, s', run, order⟩ := parseInfo_empty succeeds strings 0 s
    have tried := mediaTried_eq slotA (fun _ => tegrablError .linuxboot .notFound 0) run order
      (by decide)
    rw [conforms 0 0] at tried
    exact absurd tried (by decide)
  · rw [and_iff_right empty, ← listed_eq_expected_iff (i := 0)]
    have tried : ∀ count strlen outcome,
        mediaTried alloc (.ok (some node)) count strlen reg outcome s =
          some (attempted outcome 0 (listed 0 (names.map mappedId ++ [bootDefault]))) := by
      intro count strlen outcome
      obtain ⟨s', run, order⟩ := parseInfo_strings succeeds strings empty count strlen s
      exact mediaTried_eq slotA outcome run order (by simp)
    constructor
    · intro conforms
      have failing := conforms 0 0 fun _ => tegrablError .linuxboot .notFound 0
      rw [tried, attempted_failing fun _ => rfl, attempted_failing fun _ => rfl] at failing
      exact Option.some.inj failing
    · intro same count strlen outcome
      rw [tried, same]

end Tried

def orderNode (text : List Byte) : Node where
  mem := stringAt text
  getprop name := if name = .bootOrder then some (0, text.length) else none

def CboState.initial {σ : Type} (heap : σ) : CboState σ :=
  ⟨heap, fun _ => none, 0, none, fun _ => 0, []⟩

def ample : Nat → Unit → Bool × Unit := fun _ heap => (true, heap)

/-- The names sdx, nvme and usb, with attempts that fail: SD is tried for the first name, and USB is
not tried. -/
theorem boot_media_confused :
    (orderNode (textBytes "sdx" ++ 0 :: textBytes "nvme" ++ 0 :: textBytes "usb" ++ [0])).Strings
        .bootOrder 0 [textBytes "sdx", textBytes "nvme", textBytes "usb"] ∧
      expected 0 [textBytes "sdx", textBytes "nvme", textBytes "usb"] = [(2, .usb)] ∧
      mediaTried ample (.ok (some (orderNode
          (textBytes "sdx" ++ 0 :: textBytes "nvme" ++ 0 :: textBytes "usb" ++ [0])))) 0 0 0
        (fun _ => tegrablError .linuxboot .notFound 0) (.initial ()) = some [(0, .sd)] := by
  refine ⟨⟨by decide, by decide, ?_⟩, by decide, by decide +kernel⟩
  refine ⟨⟨by decide, by decide⟩, ⟨by decide, by decide⟩, ⟨by decide, by decide⟩, trivial⟩

/-- The names usb and nvme, with attempts that fail. -/
theorem boot_media_plain :
    mediaTried ample (.ok (some (orderNode (textBytes "usb" ++ 0 :: textBytes "nvme" ++ [0])))) 0 0 0
        (fun _ => tegrablError .linuxboot .notFound 0) (.initial ()) =
      some (attempted (fun _ => tegrablError .linuxboot .notFound 0) 0
        (expected 0 [textBytes "usb", textBytes "nvme"])) := by
  have strings : (orderNode (textBytes "usb" ++ 0 :: textBytes "nvme" ++ [0])).Strings .bootOrder 0
      [textBytes "usb", textBytes "nvme"] :=
    ⟨by decide, by decide, ⟨by decide, by decide⟩, ⟨by decide, by decide⟩, trivial⟩
  refine (boot_media_iff (fun _ _ => rfl) strings (.inl (by decide)) _).mpr ⟨nofun, ?_⟩ 0 0 _
  exact ⟨[textBytes "usb"], [textBytes "nvme"], rfl, by decide, by decide, by
    rintro name same
    cases same
    decide⟩

end Cboot.Cbo
