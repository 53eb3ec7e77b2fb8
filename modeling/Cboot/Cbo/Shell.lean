/-
**The boot options from the shell.**

Before the boot a user may change the boot options with the commands `setvar` and `printvar`. A
`setvar` without a value clears the variable; for the boot order this leaves a null pointer, which
the boot loop follows. A new boot order replaces the old one, which is freed first.
-/

import Cboot.Cbo.BootOrder
import Cboot.Cbo.IpArgument
import Cboot.Lib.Total

namespace Cboot.Cbo

open Prog LinuxBoot DeviceTree

/-! ### The commands -/

def BootCfgVar.name : BootCfgVar → List Byte
  | .bootOrder => textBytes "boot-order"
  | .tftpServerIp => textBytes "tftp-server-ip"
  | .dhcpEnabled => textBytes "dhcp-enabled"
  | .staticIp => textBytes "static-ip"
  | .ipNetmask => textBytes "ip-netmask"
  | .ipGateway => textBytes "ip-gateway"
  | .bootPtGuid => textBytes "boot_pt_guid"

def varOf (name : List Byte) : Option BootCfgVar :=
  [.bootOrder, .tftpServerIp, .dhcpEnabled, .staticIp, .ipNetmask, .ipGateway, .bootPtGuid].find?
    fun var => var.name = name

def BootCfgVar.ipField : BootCfgVar → Option IpField
  | .tftpServerIp => some .tftpServerIp
  | .staticIp => some .staticIp
  | .ipNetmask => some .ipNetmask
  | .ipGateway => some .ipGateway
  | _ => none

inductive Command
  | setvar (args : List (List Byte)) (stack : ByteMem) (flag : Bool)
  | printvar (args : List (List Byte))

section Code

variable {σ : Type} (alloc : Nat → σ → Bool × σ)

def tegrablClearBootOrder : Prog ErrorValue (CboState σ) Unit := do
  let s ← read
  match s.bootPriority with
  | none => record .cleared
  | some ptr =>
    tegrablFree ptr
    modify fun s => { s with bootPriority := none }
    record .cleared

def tegrablSetBootOrder (names : List (List Byte)) : Prog ErrorValue (CboState σ) Unit := do
  tegrablClearBootOrder
  recover (do
      mapBootPriority alloc (names.map stringAt)
      record (.set (priorities (names.map stringAt))))
    fun _ => pure ()

def updateBootOrder (values : List (List Byte)) : Prog ErrorValue (CboState σ) Unit := do
  match ← tegrablCalloc alloc 8 values.length with
  | none => pure ()
  | some array =>
    tegrablSetBootOrder alloc values
    tegrablFree array

def changeInfo (f : ByteMem → ByteMem) : Prog ErrorValue (CboState σ) Unit :=
  modify fun s => { s with info := f s.info }

variable (var : BootCfgVar)

def updateInfo (value : List Byte) (stack : ByteMem) (flag : Bool) (info : ByteMem) : ByteMem :=
  match var.ipField with
  | some field => ((parseIp value stack).stored.map (info.store field.offset)).getD info
  | none =>
    if var = .dhcpEnabled then info.store 0 [if flag then 1 else 0]
    else storeGuid (stringAt value) value.length info

def updateBootCfgVar (values : List (List Byte)) (stack : ByteMem) (flag : Bool) :
    Prog ErrorValue (CboState σ) Unit :=
  if var = .bootOrder then updateBootOrder alloc values
  else changeInfo (updateInfo var (values.headD []) stack flag)

def clearInfo (info : ByteMem) : ByteMem :=
  match var.ipField with
  | some field => info.memset field.offset 0 4
  | none =>
    if var = .dhcpEnabled then info.store 0 [0] else info.memset ipInfoSize 0 (guidStrLen + 1)

def clearBootCfgVar : Prog ErrorValue (CboState σ) Unit :=
  if var = .bootOrder then tegrablClearBootOrder else changeInfo (clearInfo var)

def tegrablPrintBootOrder : Prog ErrorValue (CboState σ) Unit := do
  let s ← read
  match s.bootPriority with
  | none => pure ()
  | some ptr =>
    let order ← ofOption (s.blocks ptr)
    if bootDefault ∈ order then pure () else stuck

def printBootCfgVar : Prog ErrorValue (CboState σ) Unit :=
  if var = .bootOrder then tegrablPrintBootOrder else pure ()

def runCommand : Command → Prog ErrorValue (CboState σ) Unit
  | .setvar [] _ _ => pure ()
  | .setvar (name :: values) stack flag =>
    match varOf name with
    | none => pure ()
    | some var =>
      if values = [] then clearBootCfgVar var else updateBootCfgVar alloc var values stack flag
  | .printvar [] => pure ()
  | .printvar (name :: _) =>
    match varOf name with
    | none => pure ()
    | some var => printBootCfgVar var

def runCommands : List Command → Prog ErrorValue (CboState σ) Unit
  | [] => pure ()
  | command :: rest => do
    runCommand alloc command
    runCommands rest

def session (content : Result (Option Node)) (count strlen : Nat) (commands : List Command) :
    Prog ErrorValue (CboState σ) Unit := do
  recover (tegrablCboParseInfo alloc content count strlen) fun _ => pure ()
  runCommands alloc commands

end Code

/-! ### The last event -/

def OrderEvent.order : OrderEvent → Option (List Byte)
  | .parsed order => some order
  | .defaults => some defaultBootOrder
  | .noDefaults => none
  | .cleared => none
  | .set order => some order

def lastOrder (events : List OrderEvent) : Option (List Byte) :=
  events.getLast?.bind OrderEvent.order

/-- What every command keeps: the pointer leads to an array that was handed out, is allocated and ends
with `BOOT_DEFAULT`; and the boot order that is obtained is that of the last event. An array may be
in use for something else. -/
structure Sane {σ : Type} (aside : Option Nat) (s : CboState σ) : Prop where
  bound : ∀ ptr, s.bootPriority = some ptr → ptr < s.next
  live : ∀ ptr, s.bootPriority = some ptr → ∃ order, s.blocks ptr = some order ∧ bootDefault ∈ order
  obtained : bootOrder s = lastOrder s.events
  old : ∀ array, aside = some array → array < s.next
  other : ∀ array, aside = some array → s.bootPriority ≠ some array

section Keeps

variable {σ : Type} {alloc : Nat → σ → Bool × σ} {aside : Option Nat} {s : CboState σ}

theorem lastOrder_append (events : List OrderEvent) (event : OrderEvent) :
    lastOrder (events ++ [event]) = event.order := by
  rw [lastOrder, List.getLast?_concat]
  rfl

variable {array : Nat}

theorem bootOrder_update (other : s.bootPriority ≠ some array)
    (bytes : Option (List Byte)) :
    s.bootPriority.bind (Function.update s.blocks array bytes) = bootOrder s := by
  rw [bootOrder]
  cases pointer : s.bootPriority with
  | none => rfl
  | some ptr =>
    refine Function.update_of_ne (fun same => other ?_) ..
    rw [pointer, same]

theorem Sane.live_update (sane : Sane aside s) (other : s.bootPriority ≠ some array)
    (bytes : Option (List Byte)) : ∀ ptr, s.bootPriority = some ptr →
      ∃ order, Function.update s.blocks array bytes ptr = some order ∧ bootDefault ∈ order := by
  intro ptr pointer
  have different : ptr ≠ array := by
    rintro rfl
    exact other pointer
  rw [Function.update_of_ne different]
  exact sane.live ptr pointer

theorem Sane.heap (sane : Sane aside s) (heap : σ) : Sane aside { s with heap } :=
  ⟨sane.bound, sane.live, sane.obtained, sane.old, sane.other⟩

theorem Sane.info (sane : Sane aside s) (info : ByteMem) : Sane aside { s with info } :=
  ⟨sane.bound, sane.live, sane.obtained, sane.old, sane.other⟩

theorem Sane.next_ne (sane : Sane aside s) : s.bootPriority ≠ some s.next :=
  fun same => absurd (sane.bound _ same) (Nat.lt_irrefl _)

theorem Sane.push (sane : Sane aside s) (heap : σ) (bytes : List Byte) :
    Sane aside (s.push heap bytes) ∧ Sane (some s.next) (s.push heap bytes) ∧
      aside ≠ some s.next := by
  have same : bootOrder (s.push heap bytes) = bootOrder s := bootOrder_update sane.next_ne _
  have live := sane.live_update sane.next_ne (some bytes)
  have bound : ∀ ptr, s.bootPriority = some ptr → ptr < s.next + 1 := fun ptr pointer =>
    (sane.bound ptr pointer).trans (Nat.lt_succ_self _)
  refine ⟨⟨bound, live, same.trans sane.obtained, ?_, sane.other⟩,
    ⟨bound, live, same.trans sane.obtained, ?_, ?_⟩, ?_⟩
  · exact fun array is => (sane.old array is).trans (Nat.lt_succ_self _)
  · rintro array ⟨⟩
    exact Nat.lt_succ_self _
  · rintro array ⟨⟩
    exact sane.next_ne
  · exact fun same => absurd (sane.old _ same) (Nat.lt_irrefl _)

theorem Sane.free {array : Nat} (sane : Sane (some array) s) :
    Sane none { s with blocks := Function.update s.blocks array none } := by
  have other := sane.other array rfl
  exact ⟨sane.bound, sane.live_update other none, (bootOrder_update other none).trans sane.obtained,
    nofun, nofun⟩

variable {event : OrderEvent}

theorem Sane.install {bytes : List Byte} (sane : Sane aside s)
    (new : Sane (some array) s) (different : aside ≠ some array) (leaves : event.order = some bytes)
    (ends : bootDefault ∈ bytes) :
    Sane aside { s with
      blocks := Function.update s.blocks array (some bytes), bootPriority := some array
      events := s.events ++ [event] } := by
  have order : Function.update s.blocks array (some bytes) array = some bytes :=
    Function.update_self ..
  refine ⟨?_, ?_, ?_, sane.old, ?_⟩
  · rintro ptr ⟨⟩
    exact new.old array rfl
  · rintro ptr ⟨⟩
    exact ⟨bytes, order, ends⟩
  · rw [lastOrder_append, leaves]
    exact order
  · rintro other is ⟨⟩
    exact different is

theorem Sane.drop {blocks : Nat → Option (List Byte)} (sane : Sane aside s)
    (leaves : event.order = none) :
    Sane aside { s with blocks, bootPriority := none, events := s.events ++ [event] } := by
  refine ⟨nofun, nofun, ?_, sane.old, nofun⟩
  rw [lastOrder_append, leaves]
  rfl

/-! ### One step -/

def Allocated (aside : Option Nat) : Option Nat → CboState σ → Prop
  | none, s => Sane aside s
  | some array, s => Sane aside s ∧ Sane (some array) s ∧ aside ≠ some array

theorem calloc_total (alloc : Nat → σ → Bool × σ) (nmemb size : Nat) :
    Total (Sane aside) (tegrablCalloc alloc nmemb size) (Allocated aside) (Sane aside) := by
  intro s sane
  rw [tegrablCalloc]
  split
  · exact ⟨_, rfl, sane⟩
  · dsimp only
    split
    · exact ⟨_, rfl, sane.push _ _⟩
    · exact ⟨_, rfl, sane.heap _⟩

theorem bootDefault_mem_priorities (names : List ByteMem) : bootDefault ∈ priorities names :=
  List.mem_append_right _ (List.mem_singleton_self _)

theorem mapBootPriority_null {names : List ByteMem} {s' : CboState σ}
    (ran : tegrablCalloc alloc 1 ((names.length + 1) % 2 ^ 32) s = some (.ok none, s')) :
    mapBootPriority alloc names s = some (tegrablError .cbo .noMemory 1, s') := by
  rw [mapBootPriority, bind_ok ran]
  rfl

theorem mapBootPriority_array {names : List ByteMem} {s' : CboState σ}
    (ran : tegrablCalloc alloc 1 ((names.length + 1) % 2 ^ 32) s = some (.ok (some array), s')) :
    mapBootPriority alloc names s = some (.ok (), { s' with
      blocks := Function.update s'.blocks array (some (priorities names))
      bootPriority := some array }) := by
  rw [mapBootPriority, bind_ok ran]
  rfl

theorem mapAndRecord_total (names : List ByteMem)
    (leaves : event.order = some (priorities names)) : Total (Sane aside)
      (do mapBootPriority alloc names; record event) (fun _ => Sane aside) (Sane aside) := by
  intro s sane
  obtain ⟨⟨result, s'⟩, ran, reached⟩ :=
    calloc_total alloc 1 ((names.length + 1) % 2 ^ 32) s sane
  match result, reached with
  | .error e, reached =>
    have failed : mapBootPriority alloc names s = some (.error e, s') := bind_error ran _
    rw [bind_error failed]
    exact ⟨_, rfl, reached⟩
  | .ok none, reached =>
    rw [bind_error (mapBootPriority_null ran)]
    exact ⟨_, rfl, reached⟩
  | .ok (some array), ⟨kept, new, different⟩ =>
    rw [bind_ok (mapBootPriority_array ran)]
    exact ⟨_, rfl, kept.install new different leaves (bootDefault_mem_priorities names)⟩

theorem setDefaultBootOrder_total :
    Total (Sane aside) (setDefaultBootOrder alloc) (fun _ => Sane aside) (Sane aside) := by
  refine Total.bind (calloc_total alloc 1 5) fun ptr => ?_
  cases ptr with
  | none => exact fun s sane => ⟨_, rfl, sane.drop rfl⟩
  | some array =>
    rintro s ⟨kept, new, different⟩
    exact ⟨_, rfl, kept.install new different rfl (by decide)⟩

theorem clear_total : Total (Sane aside) (tegrablClearBootOrder (σ := σ)) (fun _ => Sane aside)
    fun _ => False := by
  intro s sane
  rw [tegrablClearBootOrder, read_bind]
  cases pointer : s.bootPriority with
  | none =>
    have dropped : Sane aside ⟨s.heap, s.blocks, s.next, none, s.info, s.events ++ [.cleared]⟩ :=
      sane.drop rfl
    rw [← pointer] at dropped
    exact ⟨_, rfl, dropped⟩
  | some ptr => exact ⟨_, rfl, sane.drop rfl⟩

theorem setBootOrder_total (names : List (List Byte)) :
    Total (Sane aside) (tegrablSetBootOrder alloc names) (fun _ => Sane aside) fun _ => False := by
  refine Total.bind clear_total fun _ => ?_
  exact Total.recover (mapAndRecord_total _ rfl) fun _ => TotalKeeps.pure

theorem updateBootOrder_total (values : List (List Byte)) :
    TotalKeeps (Sane none) (updateBootOrder alloc values) := by
  refine Total.bind (calloc_total alloc 8 values.length) fun ptr => ?_
  cases ptr with
  | none => exact TotalKeeps.pure
  | some array =>
    have set : Total (Sane (some array)) (tegrablSetBootOrder alloc values)
        (fun _ => Sane (some array)) (Sane none) :=
      (setBootOrder_total values).mono (fun _ => id) (fun _ _ => id) nofun
    refine Total.bind (set.mono (fun _ allocated => allocated.2.1) (fun _ _ => id)
      fun _ => id) fun _ => ?_
    exact Total.modify fun _ sane => sane.free

theorem changeInfo_total (f : ByteMem → ByteMem) :
    TotalKeeps (Sane aside) (changeInfo (σ := σ) f) :=
  Total.modify fun _ sane => sane.info _

theorem printBootOrder_total : TotalKeeps (Sane aside) (tegrablPrintBootOrder (σ := σ)) := by
  intro s sane
  rw [tegrablPrintBootOrder, read_bind]
  cases pointer : s.bootPriority with
  | none => exact ⟨_, rfl, sane⟩
  | some ptr =>
    obtain ⟨order, array, ends⟩ := sane.live ptr pointer
    dsimp only
    rw [array, bind_ok (p := ofOption (some order)) rfl, if_pos ends]
    exact ⟨_, rfl, sane⟩

theorem runCommand_total (command : Command) :
    TotalKeeps (Sane none) (runCommand alloc command) := by
  have nothing : TotalKeeps (Sane none) (pure () : Prog ErrorValue (CboState σ) Unit) :=
    TotalKeeps.pure
  match command with
  | .setvar [] _ _ => exact nothing
  | .setvar (name :: values) stack flag =>
    rw [runCommand]
    cases varOf name with
    | none => exact nothing
    | some var =>
      refine Total.ite (fun _ => Total.ite (fun _ => ?_) fun _ => changeInfo_total _) fun _ =>
        Total.ite (fun _ => updateBootOrder_total values) fun _ => changeInfo_total _
      exact clear_total.mono (fun _ => id) (fun _ _ => id) nofun
  | .printvar [] => exact nothing
  | .printvar (name :: _) =>
    rw [runCommand]
    cases varOf name with
    | none => exact nothing
    | some var => exact Total.ite (fun _ => printBootOrder_total) fun _ => nothing

theorem runCommands_total (commands : List Command) :
    TotalKeeps (Sane none) (runCommands alloc commands) := by
  induction commands with
  | nil => exact TotalKeeps.pure
  | cons command rest ih => exact Total.bind (runCommand_total command) fun _ => ih

/-! ### Parsing -/

theorem stringArray_length (mem : ByteMem) (len : Nat) : ∀ addr, (stringArray mem addr len).length +
    (if len ≠ 0 ∧ mem (addr + (len - 1)) = 0 then 1 else 0) = countStrings mem addr len := by
  induction len with
  | zero => exact fun _ => rfl
  | succ left ih =>
    intro addr
    rw [stringArray, countStrings, Nat.add_sub_cancel]
    by_cases last : left = 0
    · subst last
      simp [stringArray, countStrings]
    · have next : addr + 1 + (left - 1) = addr + left := by omega
      have later := ih (addr + 1)
      rw [next] at later
      by_cases zero : mem addr = 0
      · rw [if_pos ⟨zero, last⟩, if_pos zero, ← later, List.length_cons]
        simp only [last, ne_eq, not_false_eq_true, true_and, Nat.succ_ne_zero]
        omega
      · rw [if_neg fun both => zero both.1, if_neg zero, ← later, Nat.zero_add]
        simp only [last, ne_eq, not_false_eq_true, true_and, Nat.succ_ne_zero]

def Overruns (alloc : Nat → σ → Bool × σ) (node : Node) (count : Nat) (heap : σ) : Prop :=
  ∃ prop len, node.getprop .bootOrder = some (prop, len) ∧
    ((countStrings node.mem prop len = 0 ∧ 1 < count ∧ (alloc (8 * count) heap).1 = true) ∨
      (countStrings node.mem prop len ≠ 0 ∧ node.mem (prop + (len - 1)) ≠ 0 ∧
        (alloc (8 * countStrings node.mem prop len) heap).1 = true))

def takenCount (node : Node) (prop len count : Nat) : Nat :=
  if countStrings node.mem prop len = 0 then count else countStrings node.mem prop len

variable {node : Node} {count prop len : Nat}

section

variable (place : node.getprop .bootOrder = some (prop, len))
include place

theorem overruns_iff (heap : σ) :
    Overruns alloc node count heap ↔ takenCount node prop len count ≠ 0 ∧
      (alloc (8 * takenCount node prop len count) heap).1 = true ∧
      (prop :: stringArray node.mem prop len).length ≠ takenCount node prop len count := by
  have length := stringArray_length node.mem len prop
  have only : Overruns alloc node count heap ↔
      ((countStrings node.mem prop len = 0 ∧ 1 < count ∧ (alloc (8 * count) heap).1 = true) ∨
        (countStrings node.mem prop len ≠ 0 ∧ node.mem (prop + (len - 1)) ≠ 0 ∧
          (alloc (8 * countStrings node.mem prop len) heap).1 = true)) := by
    constructor
    · rintro ⟨other, size, same, overrun⟩
      cases place.symm.trans same
      exact overrun
    · exact fun overrun => ⟨prop, len, place, overrun⟩
  rw [only, takenCount, List.length_cons]
  by_cases none_ : countStrings node.mem prop len = 0
  · rw [if_pos none_]
    have noPointer : (stringArray node.mem prop len).length = 0 := by omega
    rw [noPointer]
    constructor
    · rintro (⟨-, many, found⟩ | ⟨some_, -⟩)
      · exact ⟨by omega, found, by omega⟩
      · exact absurd none_ some_
    · rintro ⟨notZero, found, different⟩
      exact .inl ⟨none_, by omega, found⟩
  · rw [if_neg none_]
    have notEmpty : len ≠ 0 := by
      rintro rfl
      exact none_ rfl
    simp only [notEmpty, ne_eq, not_false_eq_true, true_and] at length
    constructor
    · rintro (⟨zero, -⟩ | ⟨-, open_, found⟩)
      · exact absurd zero none_
      · rw [if_neg open_] at length
        exact ⟨none_, found, by omega⟩
    · rintro ⟨-, found, different⟩
      refine .inr ⟨none_, fun zero => ?_, found⟩
      rw [if_pos zero] at length
      omega

theorem parseBootOrder_found :
    parseBootOrder alloc node count s =
      (tegrablCalloc alloc 8 (takenCount node prop len count) >>= fun ptr =>
        match ptr with
        | none => ofResult (tegrablError .cbo .noMemory 2)
        | some array => always (storeBootOrder alloc node (takenCount node prop len count))
            fun s => (tegrablFree array s).map Prod.snd : Prog ErrorValue (CboState σ) Unit) s := by
  rw [parseBootOrder, tegrablDtGetPropCountStrings, place]
  rfl

theorem storeBootOrder_fits
    (fits : (prop :: stringArray node.mem prop len).length = count) :
    Total (Sane aside) (storeBootOrder alloc node count) (fun _ => Sane aside) (Sane aside) := by
  have names : namesOf node.mem count (prop :: stringArray node.mem prop len) =
      some ((prop :: stringArray node.mem prop len).map node.mem.view) := if_pos fits
  intro s sane
  rw [storeBootOrder, tegrablDtGetPropStringArray, place, bind_ok (p := ofResult (.ok _)) rfl, names,
    bind_ok (p := ofOption (some _)) rfl]
  exact mapAndRecord_total _ rfl s sane

theorem storeBootOrder_overrun
    (overrun : (prop :: stringArray node.mem prop len).length ≠ count) :
    storeBootOrder alloc node count s = none := by
  have names : namesOf node.mem count (prop :: stringArray node.mem prop len) = none :=
    if_neg overrun
  rw [storeBootOrder, tegrablDtGetPropStringArray, place, bind_ok (p := ofResult (.ok _)) rfl, names]
  rfl

end

theorem parseBootOrder_cases (node : Node) (count : Nat) (sane : Sane none s) :
    (Overruns alloc node count s.heap ∧ parseBootOrder alloc node count s = none) ∨
      (¬ Overruns alloc node count s.heap ∧ ∃ x, parseBootOrder alloc node count s = some x ∧
        Ended (fun _ => Sane none) (Sane none) x) := by
  cases place : node.getprop .bootOrder with
  | none =>
    refine .inr ⟨?_, (dtNotFound, s), ?_, sane⟩
    · rintro ⟨prop, len, found, -⟩
      cases place.symm.trans found
    · rw [parseBootOrder, tegrablDtGetPropCountStrings, place]
      rfl
  | some value =>
    obtain ⟨prop, len⟩ := value
    rw [overruns_iff place, parseBootOrder_found place]
    generalize takenCount node prop len count = taken
    by_cases zero : taken = 0
    · have null : tegrablCalloc alloc 8 taken s = some (.ok none, s) := if_pos zero
      rw [bind_ok null]
      exact .inr ⟨fun overrun => overrun.1 zero, _, rfl, sane⟩
    cases found : (alloc (8 * taken) s.heap).1 with
    | false =>
      have null : tegrablCalloc alloc 8 taken s =
          some (.ok none, { s with heap := (alloc (8 * taken) s.heap).2 }) := by
        rw [tegrablCalloc, if_neg zero]
        exact if_neg (by rw [found]; exact Bool.false_ne_true)
      rw [bind_ok null]
      exact .inr ⟨fun overrun => Bool.false_ne_true overrun.2.1, _, rfl, sane.heap _⟩
    | true =>
      have array : tegrablCalloc alloc 8 taken s = some (.ok (some s.next),
          s.push (alloc (8 * taken) s.heap).2 (List.replicate (8 * taken) 0)) := by
        rw [tegrablCalloc, if_neg zero]
        exact if_pos found
      obtain ⟨-, pushed, -⟩ := sane.push (alloc (8 * taken) s.heap).2 (List.replicate (8 * taken) 0)
      rw [bind_ok array]
      dsimp only
      by_cases fits : (prop :: stringArray node.mem prop len).length = taken
      · have kept : Total (Sane (some s.next)) (always (storeBootOrder alloc node taken)
            fun t => some { t with blocks := Function.update t.blocks s.next none })
            (fun _ => Sane none) (Sane none) :=
          Total.always (storeBootOrder_fits place fits) (fun _ _ sane => sane.free)
            fun _ sane => sane.free
        exact .inr ⟨fun overrun => overrun.2.2 fits, kept _ pushed⟩
      · refine .inl ⟨⟨zero, rfl, fits⟩, ?_⟩
        rw [always, storeBootOrder_overrun place fits]
        rfl

def ContentOverruns (alloc : Nat → σ → Bool × σ) (content : Result (Option Node)) (count : Nat)
    (heap : σ) : Prop :=
  ∃ node, content = .ok (some node) ∧ Overruns alloc node count heap

theorem parseInfo_cases (content : Result (Option Node)) (count strlen : Nat)
    (sane : Sane none s) :
    (ContentOverruns alloc content count s.heap ∧
        tegrablCboParseInfo alloc content count strlen s = none) ∨
      (¬ ContentOverruns alloc content count s.heap ∧
        ∃ x, tegrablCboParseInfo alloc content count strlen s = some x ∧
          Ended (fun _ => Sane none) (Sane none) x) := by
  have cleared := sane.info (s.info.memset 0 0 (ipInfoSize + guidStrLen + 1))
  match content with
  | .error e =>
    refine .inr ⟨fun ⟨_, is, _⟩ => (nomatch is), ?_⟩
    exact Total.bind setDefaultBootOrder_total (fun _ => Total.fail fun _ => id) _ cleared
  | .ok none =>
    exact .inr ⟨fun ⟨_, is, _⟩ => (nomatch is), setDefaultBootOrder_total _ cleared⟩
  | .ok (some node) =>
    have same : ContentOverruns alloc (.ok (some node)) count s.heap ↔
        Overruns alloc node count s.heap := by
      constructor
      · rintro ⟨other, is, overrun⟩
        cases is
        exact overrun
      · exact fun overrun => ⟨node, rfl, overrun⟩
    rw [same, tegrablCboParseInfo, modify_bind]
    dsimp only
    rcases @parseBootOrder_cases _ alloc _ node count cleared with
      ⟨overrun, none_⟩ | ⟨fits, ⟨result, s'⟩, run, reached⟩
    · refine .inl ⟨overrun, ?_⟩
      rw [bind_apply, recover, bind_apply, none_]
      rfl
    · refine .inr ⟨fits, ?_⟩
      have others : ∀ info, Sane none { s' with info } := by
        intro info
        cases result with
        | ok _ => exact Sane.info reached info
        | error _ => exact Sane.info reached info
      cases result with
      | ok _ =>
        rw [bind_ok (recover_ok (by rw [bind_ok run]; rfl) _), modify_bind, modify_bind]
        exact ⟨_, rfl, others _⟩
      | error e =>
        rw [bind_ok (recover_error (bind_error run _) _), modify_bind, modify_bind]
        exact Total.bind setDefaultBootOrder_total
          (fun _ => Total.ofResult (fun _ _ => id) fun _ => id) _ (others _)

theorem Sane.live_iff (sane : Sane aside s) :
    (∃ order, bootOrder s = some order ∧ bootDefault ∈ order) ↔
      ∃ event ∈ s.events.getLast?, event.order ≠ none := by
  constructor
  · rintro ⟨order, obtained, -⟩
    rw [sane.obtained, lastOrder, Option.bind_eq_some_iff] at obtained
    obtain ⟨event, last, leaves⟩ := obtained
    refine ⟨event, last, ?_⟩
    rw [leaves]
    exact Option.some_ne_none order
  · rintro ⟨event, last, leaves⟩
    obtain ⟨order, is⟩ := Option.ne_none_iff_exists'.mp leaves
    have obtained : bootOrder s = some order := by
      rw [sane.obtained, lastOrder, Option.mem_def.mp last]
      exact is
    obtain ⟨ptr, pointer, block⟩ := Option.bind_eq_some_iff.mp obtained
    obtain ⟨bytes, array, ends⟩ := sane.live ptr pointer
    cases block.symm.trans array
    exact ⟨order, obtained, ends⟩

end Keeps

/-! ### A session -/

section Session

variable {σ : Type} (alloc : Nat → σ → Bool × σ) (content : Result (Option Node))
  (count strlen : Nat) (commands : List Command) (heap : σ)

theorem initial_sane : Sane none (CboState.initial heap) := ⟨nofun, nofun, rfl, nofun, nofun⟩

end Session

end Cboot.Cbo
