/-
**The lock and the download buffer over whole sessions.**

Laws on the history of any number of sessions: what an event has to meet, given what came before it.
-/

import Cboot.Fastboot.Steps

namespace Cboot.Fastboot

open Prog PartitionManager BlUpdate Sparse LinuxBoot

/-! ### Laws -/

def Lawful (law : Event → List Event → Prop) : List Event → Prop
  | [] => True
  | e :: before => law e before ∧ Lawful law before

def Event.Privileged : Event → Prop
  | .receive _ _ _ | .erase _ | .write _ _ _ | .fill _ _ _ | .payload _ _ _ | .load _ _ _
  | .boot _ _ | .jump | .setActive _ => True
  | _ => False

def Guarded : List Event → Prop := Lawful fun e before => e.Privileged → unlocked before = true

def received : List Event → Nat → Option Byte
  | [], _ => none
  | .receive base _ bytes :: before, x =>
    if base ≤ x ∧ x < base + bytes.length then bytes[x - base]? else received before x
  | _ :: before, x => received before x

def RangeReceived (before : List Event) (start size : Nat) : Prop :=
  ∀ x, start ≤ x → x < start + size → (received before x).isSome = true

def WordReceived (before : List Event) (place : Nat) (value : BitVec 32) : Prop :=
  RangeReceived before place 4 ∧ value = word32 (fun x => (received before x).getD 0) place

def Sourced : List Event → Prop := Lawful fun e before =>
  match e with
  | .write _ data size => RangeReceived before data size
  | .boot start size => RangeReceived before start size
  | .fill _ value _ => ∃ place, WordReceived before place value
  | _ => True

def bufferOf : List Event → Option (Nat × Nat)
  | [] => none
  | .allocate base size :: _ => some (base, size)
  | _ :: before => bufferOf before

def InBuffer (before : List Event) (start size : Nat) : Prop :=
  ∃ base room, bufferOf before = some (base, room) ∧ base ≤ start ∧ start + size ≤ base + room

def Fits : List Event → Prop := Lawful fun e before =>
  match e with
  | .receive base _ bytes => InBuffer before base bytes.length
  | .write _ data size => InBuffer before data size
  | .fill _ value _ => ∃ place, WordReceived before place value ∧ InBuffer before place 4
  | .payload mem base _ => ∀ range ∈ parsedRanges mem base, InBuffer before range.1 range.2
  | _ => True

/-! ### The lock -/

theorem Step.guarded {v v' : View} (step : Step v v') (holds : Guarded v.trace) :
    Guarded v'.trace := by
  cases step with
  | talk isTalk =>
    refine ⟨fun privileged => ?_, holds⟩
    rename_i e
    cases e <;> first | exact isTalk.elim | exact privileged.elim
  | clear | exhausted | complete => exact holds
  | allocate => exact ⟨False.elim, holds⟩
  | plain open_ | receive open_ | write _ open_ | fill _ _ open_ | payload open_ | update _ open_
  | load open_ | boot open_ => exact ⟨fun _ => open_, holds⟩

variable {v : View} {mem : ByteMem}

theorem Turns.guarded (turns : Turns (.initial mem) v) : Guarded v.trace := by
  induction turns with
  | refl => exact trivial
  | tail _ turn ih =>
    cases turn with
    | step step => exact step.guarded ih
    | command packet => exact ⟨False.elim, ih⟩

/-! ### What was received -/

theorem received_cons {e : Event} (other : ∀ base asked bytes, e ≠ .receive base asked bytes)
    (trace : List Event) : received (e :: trace) = received trace := by
  funext x
  cases e with
  | receive base asked bytes => exact absurd rfl (other base asked bytes)
  | _ => rfl

variable {trace : List Event} {base asked : Nat} {bytes : List Byte}

theorem received_receive {x : Nat}
    (low : base ≤ x) (high : x < base + bytes.length) :
    received (.receive base asked bytes :: trace) x = bytes[x - base]? := if_pos ⟨low, high⟩

theorem received_isSome {x : Nat}
    (low : base ≤ x) (high : x < base + bytes.length) :
    (received (.receive base asked bytes :: trace) x).isSome = true := by
  have bound : x - base < bytes.length := by omega
  simp [received_receive low high, bound]

theorem received_elsewhere {x : Nat}
    (outside : ¬ (base ≤ x ∧ x < base + bytes.length)) :
    received (.receive base asked bytes :: trace) x = received trace x := if_neg outside

theorem RangeReceived.cons {start size : Nat}
    (range : RangeReceived trace start size) (e : Event) : RangeReceived (e :: trace) start size := by
  intro x low high
  have before := range x low high
  cases e with
  | receive base asked bytes =>
    by_cases inside : base ≤ x ∧ x < base + bytes.length
    · exact received_isSome inside.1 inside.2
    · rw [received_elsewhere inside]
      exact before
  | _ => exact before

theorem RangeReceived.mono {start size start' size' : Nat}
    (range : RangeReceived trace start size) (low : start ≤ start')
    (high : start' + size' ≤ start + size) : RangeReceived trace start' size' :=
  fun x lower upper => range x (by omega) (by omega)

theorem RangeReceived.empty {trace : List Event} {start : Nat} : RangeReceived trace start 0 :=
  fun _ low high => absurd low (Nat.not_le_of_lt high)

structure Known (v : View) : Prop where
  mem : ∀ x b, received v.trace x = some b → v.mem x = b
  download : ∀ base, v.base = some base → RangeReceived v.trace base v.size
  fresh : v.isAllocated = false → v.base = none ∧ v.size = 0

theorem Known.add (known : Known v) {e : Event}
    (other : ∀ base asked bytes, e ≠ .receive base asked bytes) : Known (v.add e) where
  mem x b last := by
    rw [View.add, received_cons other] at last
    exact known.mem x b last
  download base isBase := (known.download base isBase).cons e
  fresh := known.fresh

theorem Known.receive (known : Known v) (base asked : Nat) (bytes : List Byte) :
    Known ({ v with mem := v.mem.store base bytes }.add (.receive base asked bytes)) where
  mem x b last := by
    by_cases inside : base ≤ x ∧ x < base + bytes.length
    · have index : base + (x - base) = x := by omega
      have stored := ByteMem.store_inside v.mem base bytes (x - base) (by omega)
      rw [View.add, received_receive inside.1 inside.2, List.getElem?_eq_getElem (by omega)] at last
      rw [index] at stored
      exact stored.trans (Option.some.inj last)
    · rw [View.add, received_elsewhere inside] at last
      exact (ByteMem.store_outside v.mem base bytes x (by omega)).trans (known.mem x b last)
  download start isBase := (known.download start isBase).cons _
  fresh := known.fresh

theorem Step.known {v v' : View} (step : Step v v') (known : Known v) : Known v' := by
  cases step with
  | talk isTalk =>
    refine known.add ?_
    rintro base asked bytes rfl
    exact isTalk
  | plain _ isPlain =>
    refine known.add ?_
    rintro base asked bytes rfl
    exact isPlain
  | clear =>
    exact ⟨known.mem, fun base _ => RangeReceived.empty, fun fresh => ⟨(known.fresh fresh).1, rfl⟩⟩
  | exhausted =>
    refine ⟨known.mem, fun base isBase => ?_, fun fresh => ?_⟩
    · cases isBase
    · cases fresh
  | allocate base size fresh =>
    have start : Known { v with base := some base, isAllocated := true } := by
      refine ⟨known.mem, fun start _ => ?_, fun fresh => ?_⟩
      · have none_ : v.size = 0 := (known.fresh fresh).2
        exact none_ ▸ RangeReceived.empty
      · cases fresh
    exact start.add (by rintro _ _ _ ⟨⟩)
  | receive => exact known.receive _ _ _
  | complete isBase last whole =>
    refine ⟨known.mem, fun start isStart x low high => ?_, fun fresh => ?_⟩
    · cases isBase.symm.trans isStart
      rw [last]
      exact received_isSome low (whole ▸ high)
    · have none_ := (known.fresh fresh).1
      cases isBase.symm.trans none_
  | write | fill | payload | update | load | boot => exact known.add (by rintro _ _ _ ⟨⟩)

theorem Turn.known {v v' : View} (turn : Turn v v') (known : Known v) : Known v' := by
  cases turn with
  | step step => exact step.known known
  | command packet => exact known.add (by rintro _ _ _ ⟨⟩)

theorem Turns.known (turns : Turns (.initial mem) v) : Known v := by
  induction turns with
  | refl => exact ⟨nofun, nofun, fun _ => ⟨rfl, rfl⟩⟩
  | tail _ turn ih => exact turn.known ih

theorem Known.word (known : Known v) {place : Nat} (range : RangeReceived v.trace place 4) :
    WordReceived v.trace place (word32 v.mem place) := by
  refine ⟨range, ?_⟩
  have agree : AgreeOn place (place + 4) v.mem fun x => (received v.trace x).getD 0 := by
    intro x low high
    obtain ⟨b, last⟩ := Option.isSome_iff_exists.mp (range x low high)
    rw [known.mem x b last]
    exact (congrArg (Option.getD · 0) last).symm
  exact agree.word32 le_rfl le_rfl

/-! ### What is flashed and booted -/

def Event.Inside : Event → Prop
  | .payload mem base size => DataInside mem base base (base + size)
  | .load mem (some base) size =>
    tegrablVerifyBootImgHdr (mem.view base) (BitVec.ofNat 32 size) = .ok () →
      ∀ offset length, BootPart (mem.view base) offset length → RangeInside offset length size
  | _ => True

theorem Turn.trace_subset {v v' : View} (turn : Turn v v') : v.trace ⊆ v'.trace := by
  cases turn with
  | command packet => exact List.subset_cons_self _ _
  | step step =>
    rcases step.trace with same | ⟨e, -, added⟩
    · rw [same]
      exact List.Subset.refl _
    · rw [added]
      exact List.subset_cons_self _ _

theorem Step.sourced {v v' : View} (step : Step v v') (known : Known v)
    (inside : ∀ e ∈ v.trace, e.Inside) (holds : Sourced v.trace) : Sourced v'.trace := by
  cases step with
  | talk isTalk =>
    refine ⟨?_, holds⟩
    rename_i e
    cases e <;> first | exact isTalk.elim | exact trivial
  | plain open_ isPlain =>
    refine ⟨?_, holds⟩
    rename_i e
    cases e <;> first | exact isPlain.elim | exact trivial
  | clear | exhausted | complete => exact holds
  | allocate | receive | payload | load => exact ⟨trivial, holds⟩
  | write target _ isBase low high => exact ⟨(known.download _ isBase).mono low high, holds⟩
  | fill target size _ isBase low high =>
    exact ⟨⟨_, known.word ((known.download _ isBase).mono low high)⟩, holds⟩
  | update target _ isBase seen ofEntry =>
    have range := DataInside.entryData (inside _ seen) ofEntry
    exact ⟨(known.download _ isBase).mono range.1 range.2, holds⟩
  | boot _ isBase seen verified part =>
    refine ⟨fun x low high => ?_, holds⟩
    rw [isBase] at seen
    rename_i base offset length _
    have within := inside _ seen verified offset length part (x - base) (by omega) (by omega)
    exact known.download base isBase x (by omega) (by omega)

theorem Turns.sourced (turns : Turns (.initial mem) v) (inside : ∀ e ∈ v.trace, e.Inside) :
    Sourced v.trace := by
  induction turns with
  | refl => exact trivial
  | tail before turn ih =>
    have insideBefore := fun e member => inside e (turn.trace_subset member)
    cases turn with
    | step step => exact step.sourced (Turns.known before) insideBefore (ih insideBefore)
    | command packet => exact ⟨trivial, ih insideBefore⟩

theorem Sourced.boot {trace : List Event} {start size : Nat} (sourced : Sourced trace)
    (member : .boot start size ∈ trace) : RangeReceived trace start size := by
  induction trace with
  | nil => cases member
  | cons e before ih =>
    rcases List.mem_cons.mp member with rfl | earlier
    · exact RangeReceived.cons sourced.1 _
    · exact (ih sourced.2 earlier).cons e

/-! ### The size of the buffer -/

def AsksFit (trace : List Event) : Prop :=
  ∀ base asked bytes, .receive base asked bytes ∈ trace →
    ∀ start room, .allocate start room ∈ trace → asked ≤ room

def Event.PayloadInside : Event → Prop
  | .payload mem base size => (∀ range ∈ parsedRanges mem base,
      base ≤ range.1 ∧ range.1 + range.2 ≤ base + size) ∧ DataInside mem base base (base + size)
  | _ => True

theorem bufferOf_cons {e : Event} (other : ∀ base size, e ≠ .allocate base size)
    (trace : List Event) : bufferOf (e :: trace) = bufferOf trace := by
  cases e with
  | allocate base size => exact absurd rfl (other base size)
  | _ => rfl

theorem mem_of_bufferOf {base room : Nat}
    (buffer : bufferOf trace = some (base, room)) : .allocate base room ∈ trace := by
  induction trace with
  | nil => cases buffer
  | cons e rest ih =>
    cases e with
    | allocate start size =>
      cases buffer
      exact (.head _)
    | _ => exact .tail _ (ih buffer)

def Buffered (v : View) : Prop :=
  ∀ base, v.base = some base → ∃ room, bufferOf v.trace = some (base, room) ∧ v.size ≤ room

theorem Buffered.add (buffered : Buffered v) {e : Event}
    (other : ∀ base size, e ≠ .allocate base size) : Buffered (v.add e) := by
  intro base isBase
  rw [View.add, bufferOf_cons other]
  exact buffered base isBase

theorem Step.buffered {v v' : View} (step : Step v v') (known : Known v) (asks : AsksFit v.trace)
    (buffered : Buffered v) : Buffered v' := by
  cases step with
  | talk isTalk =>
    refine buffered.add ?_
    rintro base size rfl
    exact isTalk
  | plain _ isPlain =>
    refine buffered.add ?_
    rintro base size rfl
    exact isPlain
  | clear =>
    intro base isBase
    obtain ⟨room, buffer, -⟩ := buffered base isBase
    exact ⟨room, buffer, Nat.zero_le room⟩
  | exhausted =>
    intro base isBase
    cases isBase
  | allocate base size fresh =>
    intro start isStart
    cases isStart
    refine ⟨size, rfl, ?_⟩
    exact (known.fresh fresh).2 ▸ Nat.zero_le size
  | complete isBase last whole =>
    intro start isStart
    cases isBase.symm.trans isStart
    obtain ⟨room, buffer, -⟩ := buffered _ isBase
    have member := last ▸ List.mem_cons_self
    exact ⟨room, buffer, asks _ _ _ member _ _ (mem_of_bufferOf buffer)⟩
  | receive | write | fill | payload | update | load | boot =>
    exact buffered.add (by rintro _ _ ⟨⟩)

theorem Buffered.inBuffer (buffered : Buffered v) {base start size : Nat}
    (isBase : v.base = some base) (low : base ≤ start) (high : start + size ≤ base + v.size) :
    InBuffer v.trace start size := by
  obtain ⟨room, buffer, fits⟩ := buffered base isBase
  exact ⟨base, room, buffer, low, by omega⟩

theorem Step.fits {v v' : View} (step : Step v v') (known : Known v) (buffered : Buffered v)
    (asks : AsksFit v'.trace) (inside : ∀ e ∈ v'.trace, e.PayloadInside) (holds : Fits v.trace) :
    Fits v'.trace := by
  cases step with
  | talk isTalk =>
    refine ⟨?_, holds⟩
    rename_i e
    cases e <;> first | exact isTalk.elim | exact trivial
  | plain open_ isPlain =>
    refine ⟨?_, holds⟩
    rename_i e
    cases e <;> first | exact isPlain.elim | exact trivial
  | clear | exhausted | complete => exact holds
  | allocate | load | boot => exact ⟨trivial, holds⟩
  | receive _ isBase fits =>
    obtain ⟨room, buffer, -⟩ := buffered _ isBase
    have allowed := asks _ _ _ (.head _) _ _
      (.tail _ (mem_of_bufferOf buffer))
    exact ⟨⟨_, room, buffer, le_rfl, Nat.add_le_add_left (fits.trans allowed) _⟩, holds⟩
  | write target _ isBase low high => exact ⟨buffered.inBuffer isBase low high, holds⟩
  | fill target size _ isBase low high =>
    have word := known.word ((known.download _ isBase).mono low high)
    exact ⟨⟨_, word, buffered.inBuffer isBase low high⟩, holds⟩
  | payload _ isBase =>
    refine ⟨fun range member => ?_, holds⟩
    have within := (inside _ (.head _)).1 range member
    exact buffered.inBuffer isBase within.1 within.2
  | update target _ isBase seen ofEntry =>
    have range := DataInside.entryData (inside _ (.tail _ seen)).2 ofEntry
    exact ⟨buffered.inBuffer isBase range.1 range.2, holds⟩

theorem AsksFit.mono {trace trace' : List Event} (asks : AsksFit trace') (subset : trace ⊆ trace') :
    AsksFit trace :=
  fun base asked bytes member start room allocated =>
    asks base asked bytes (subset member) start room (subset allocated)

theorem Turns.fits (turns : Turns (.initial mem) v) (asks : AsksFit v.trace)
    (inside : ∀ e ∈ v.trace, e.PayloadInside) : Buffered v ∧ Fits v.trace := by
  induction turns with
  | refl => exact ⟨nofun, trivial⟩
  | tail before turn ih =>
    have asksBefore := asks.mono turn.trace_subset
    obtain ⟨buffered, holds⟩ := ih asksBefore fun e member => inside e (turn.trace_subset member)
    have known := Turns.known before
    cases turn with
    | step step =>
      exact ⟨step.buffered known asksBefore buffered, step.fits known buffered asks inside holds⟩
    | command packet => exact ⟨buffered.add (by rintro _ _ ⟨⟩), trivial, holds⟩

/-! ### Sessions -/

/-- **The lock, and the origin of what is flashed and booted.** In any sessions, whatever the host
sends and the lock answers, what changes the device comes behind an answer in the same command that
the device is unlocked; the memory has what was received last; and what is flashed or booted was
received, if the offsets inside the payloads and the images point into what was downloaded. -/
theorem sessions_guarded_sourced {σ : Type} (env : Env σ) (cmds : List Command) (counts : List Nat)
    (world : σ) (mem : ByteMem) :
    ∃ result s, sessions env cmds counts (.initial world mem) = some (result, s) ∧
      Guarded s.log.trace ∧ (∀ x b, received s.log.trace x = some b → s.mem x = b) ∧
      ((∀ e ∈ s.log.trace, e.Inside) → Sourced s.log.trace) := by
  obtain ⟨result, s, ran, turns⟩ := sessions_steps env cmds counts world mem
  exact ⟨result, s, ran, turns.guarded, turns.known.mem, turns.sourced⟩

def scriptEnv : Env (List (List Byte)) where
  platform :=
    { storage := oneStorage (letters "UDA")
      isQspi := fun _ => false
      erase := fun _ host => (.ok (), host)
      write := fun _ _ _ host => (.ok (), host)
      alloc := fun _ host => (true, host)
      specInfo := []
      nctGetSpec := fun host => (.ok (), host)
      opMode := 0 }
  callbacks := ⟨none, none, none, false, fun host => (.ok (), host), none, none⟩
  fillWrite _ _ _ host := (.ok (), host)
  seek _ _ host := (.ok (), host)
  isDeviceUnlocked host := some (true, host)
  changeDeviceState _ _ := none
  getFuseEcid _ := none
  getSlotNum _ := none
  getCurrentSlot _ := none
  getSlotSuffix _ _ := none
  isSlotSuccessful _ _ := none
  isSlotUnbootable _ _ := none
  getSlotRetryCount _ _ := none
  slotSetActive _ _ := none
  getSerialNo host := (.ok [], host)
  dtsFilename host := (.ok [], host)
  product := []
  usbfSend _ host := (.ok (), host)
  usbfReceive _ host := ((.ok (), host.headD []), host.tail)
  memalign _ host := (some 0x1000, host)
  blobRoom host := (true, host)
  kernelDtb host := (.ok (), host)
  extractKernelDtb host := (.ok (), host)
  decompressors _ _ := none
  abSlot := false
  rounds := 0

def hostSession (packets : Nat) (host : List (List Byte)) :
    Option (Except Halt Unit × FastbootState (List (List Byte))) :=
  sessions scriptEnv cmdlist [packets] (.initial host fun _ => 0)

def flashHost : List (List Byte) :=
  [letters "download:8", [1, 2, 3, 4, 5, 6, 7, 8], letters "download:4", [1, 2, 3, 4],
    letters "flash:userdata"]

def Event.modest (room : Nat) : Event → Bool
  | .receive _ asked _ => asked ≤ room
  | .allocate _ size => room ≤ size
  | .payload _ _ _ | .load _ _ _ => false
  | _ => true

def Event.isWrite : Event → Bool
  | .write _ _ _ => true
  | _ => false

theorem flash_modest {result : Except Halt Unit} {s : FastbootState (List (List Byte))}
    (ran : hostSession 3 flashHost = some (result, s)) :
    s.log.trace.any Event.isWrite = true ∧ ∀ e ∈ s.log.trace, e.modest 8 = true := by
  have happens : (hostSession 3 flashHost).map (fun out =>
      (out.2.log.trace.any Event.isWrite, out.2.log.trace.all (Event.modest 8))) =
    some (true, true) := by decide +kernel
  rw [ran] at happens
  obtain ⟨writes, modest⟩ := Prod.mk.inj (Option.some.inj happens)
  exact ⟨writes, List.all_eq_true.mp modest⟩

theorem Event.modest_inside {room : Nat} {e : Event} (modest : e.modest room = true) :
    e.Inside ∧ e.PayloadInside := by
  cases e with
  | payload | load => cases modest
  | _ => exact ⟨trivial, trivial⟩

/-- A flash of what was downloaded. -/
theorem sessions_guarded_sourced_flash :
    ∃ result s, hostSession 3 flashHost = some (result, s) ∧ s.log.trace.any Event.isWrite = true ∧
      (∀ e ∈ s.log.trace, e.Inside) ∧ Sourced s.log.trace := by
  obtain ⟨result, s, ran, -, -, sourced⟩ :=
    sessions_guarded_sourced scriptEnv cmdlist [3] flashHost fun _ => 0
  obtain ⟨writes, modest⟩ := flash_modest ran
  have inside : ∀ e ∈ s.log.trace, e.Inside := fun e member =>
    (Event.modest_inside (modest e member)).1
  exact ⟨result, s, ran, writes, inside, sourced inside⟩

def bootHost : List (List Byte) :=
  [letters "download:28", (headerOf 16 0 0xFFFFF7F0 2048).load 0 40, letters "boot"]

def bootedParts (trace : List Event) : List (Nat × Nat) :=
  trace.filterMap fun e =>
    match e with
    | .boot start size => some (start, size)
    | _ => none

theorem mem_of_bootedParts {start size : Nat}
    (member : (start, size) ∈ bootedParts trace) : .boot start size ∈ trace := by
  obtain ⟨e, inTrace, same⟩ := List.mem_filterMap.mp member
  cases e with
  | boot _ _ =>
    cases same
    exact inTrace
  | _ => cases same

/-- The kernel that is started was not received: none of its 16 bytes is in the download. -/
theorem sessions_boot_not_received :
    ∃ s, hostSession 2 bootHost = some (.error .jump, s) ∧
      .boot (0x1000 + 2048) 16 ∈ s.log.trace ∧ received s.log.trace (0x1000 + 2048) = none ∧
      ¬ Sourced s.log.trace := by
  have happens : (hostSession 2 bootHost).map (fun out =>
      (out.1, bootedParts out.2.log.trace, received out.2.log.trace (0x1000 + 2048))) =
    some (.error .jump, [(0x1000 + 64, 512), (0x1000 + 4096, 0), (0x1000 + 2048, 16)], none) := by
    decide +kernel
  obtain ⟨⟨result, s⟩, ran, same⟩ := Option.map_eq_some_iff.mp happens
  obtain ⟨isJump, rest⟩ := Prod.mk.inj same
  obtain ⟨parts, missing⟩ := Prod.mk.inj rest
  dsimp only at isJump parts missing
  have booted : .boot (0x1000 + 2048) 16 ∈ s.log.trace := by
    refine mem_of_bootedParts ?_
    rw [parts]
    simp
  refine ⟨s, isJump ▸ ran, booted, missing, fun sourced => ?_⟩
  have kernel := sourced.boot booted (0x1000 + 2048) le_rfl (by decide)
  rw [missing] at kernel
  cases kernel

/-- **The downloads and the buffer.** In any sessions, what a download receives fits into the buffer
that is allocated, and what a flash reads lies in it, if no download asks for more than the one that
allocated the buffer, and the offsets inside the payloads point into what was downloaded. -/
theorem sessions_fit {σ : Type} (env : Env σ) (cmds : List Command) (counts : List Nat) (world : σ)
    (mem : ByteMem) :
    ∃ result s, sessions env cmds counts (.initial world mem) = some (result, s) ∧
      (AsksFit s.log.trace → (∀ e ∈ s.log.trace, e.PayloadInside) → Fits s.log.trace) := by
  obtain ⟨result, s, ran, turns⟩ := sessions_steps env cmds counts world mem
  exact ⟨result, s, ran, fun asks inside => (turns.fits asks inside).2⟩

/-- A second download that is smaller than the first one, and its flash. -/
theorem sessions_fit_flash :
    ∃ result s, hostSession 3 flashHost = some (result, s) ∧ s.log.trace.any Event.isWrite = true ∧
      AsksFit s.log.trace ∧ (∀ e ∈ s.log.trace, e.PayloadInside) ∧ Fits s.log.trace := by
  obtain ⟨result, s, ran, fits⟩ := sessions_fit scriptEnv cmdlist [3] flashHost fun _ => 0
  obtain ⟨writes, modest⟩ := flash_modest ran
  have asks : AsksFit s.log.trace := by
    intro base asked bytes receive start room allocate
    have small := modest _ receive
    have large := modest _ allocate
    exact (of_decide_eq_true small).trans (of_decide_eq_true large)
  have inside : ∀ e ∈ s.log.trace, e.PayloadInside := fun e member =>
    (Event.modest_inside (modest e member)).2
  exact ⟨result, s, ran, writes, asks, inside, fits asks inside⟩

def overrunHost : List (List Byte) :=
  [letters "download:4", [1, 2, 3, 4], letters "download:8", [1, 2, 3, 4, 5, 6, 7, 8]]

/-- A second download that is larger than the first one goes over the end of the buffer. -/
theorem sessions_second_download_overruns :
    ∃ result s, hostSession 2 overrunHost = some (result, s) ∧
      .receive 0x1000 8 [1, 2, 3, 4, 5, 6, 7, 8] ∈ s.log.trace ∧
      bufferOf s.log.trace = some (0x1000, 4) ∧ ¬ Fits s.log.trace := by
  have happens : (hostSession 2 overrunHost).map (fun out => out.2.log.trace) = some
    [.send (letters "OKAY"), .receive 0x1000 8 [1, 2, 3, 4, 5, 6, 7, 8],
      .send (letters "DATA00000008"), .lockQuery (.ok true), .command (letters "download:8"),
      .send (letters "OKAY"), .receive 0x1000 4 [1, 2, 3, 4], .allocate 0x1000 4,
      .send (letters "DATA00000004"), .lockQuery (.ok true), .command (letters "download:4")] := rfl
  obtain ⟨⟨result, s⟩, ran, trace⟩ := Option.map_eq_some_iff.mp happens
  dsimp only at trace
  refine ⟨result, s, ran, ?_, ?_, ?_⟩
  · rw [trace]
    exact .tail _ (.head _)
  · rw [trace]
    rfl
  · rw [trace]
    intro fits
    obtain ⟨base, room, buffer, low, high⟩ := fits.2.1
    cases buffer
    revert high
    decide

end Cboot.Fastboot
