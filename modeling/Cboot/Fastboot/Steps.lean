/-
**What a fastboot session can do.**

The sessions as a transition system, over what decides about the download buffer and the history
(`View`). There is one kind of step for each thing that a handler does, with what the handler has made
sure of: that the lock was queried in this command and the answer was that the device is unlocked;
that a part of the buffer ends where the download ends; that what is written of a payload is the data
of an entry; that what is taken out of an image is one of its parts.
-/

import Cboot.Fastboot.Protocol

namespace Cboot.Fastboot

open Prog PartitionManager BlUpdate Sparse LinuxBoot

/-! ### The transition system -/

structure View where
  trace : List Event
  mem : ByteMem
  base : Option Nat
  size : Nat
  isAllocated : Bool

def View.add (v : View) (event : Event) : View := { v with trace := event :: v.trace }

def FastbootState.view {σ : Type} (s : FastbootState σ) : View where
  trace := s.log.trace
  mem := s.mem
  base := s.downloadBase
  size := s.downloadSize
  isAllocated := s.isAllocated

def unlocked : List Event → Bool
  | [] => false
  | .command _ :: _ => false
  | .lockQuery (.ok true) :: _ => true
  | _ :: before => unlocked before

def Event.Talk : Event → Prop
  | .lockQuery _ | .send _ | .changeState _ | .reset => True
  | _ => False

def Event.Plain : Event → Prop
  | .erase _ | .setActive _ | .jump => True
  | _ => False

inductive BootPart (image : ByteMem) : Nat → Nat → Prop
  | kernel : BootPart image (kernelPlace image 0).1 (kernelPlace image 0).2
  | ramdisk : BootPart image (ramdiskOffset image) (ramdisksize image).toNat
  | cmdline : BootPart image 64 512

inductive Step : View → View → Prop
  | talk (v : View) {e : Event} (isTalk : e.Talk) : Step v (v.add e)
  | plain (v : View) {e : Event} (open_ : unlocked v.trace = true) (isPlain : e.Plain) :
      Step v (v.add e)
  | clear (v : View) : Step v { v with size := 0 }
  | exhausted (v : View) (fresh : v.isAllocated = false) :
      Step v { v with base := none, isAllocated := true }
  | allocate (v : View) (base size : Nat) (fresh : v.isAllocated = false) :
      Step v ({ v with base := some base, isAllocated := true }.add (.allocate base size))
  | receive (v : View) {base asked : Nat} {bytes : List Byte} (open_ : unlocked v.trace = true)
      (isBase : v.base = some base) (fits : bytes.length ≤ asked) :
      Step v ({ v with mem := v.mem.store base bytes }.add (.receive base asked bytes))
  | complete (v : View) {base asked : Nat} {bytes : List Byte} {before : List Event}
      (isBase : v.base = some base) (last : v.trace = .receive base asked bytes :: before)
      (whole : bytes.length = asked) : Step v { v with size := asked }
  | write (v : View) {base data size : Nat} (target : Target) (open_ : unlocked v.trace = true)
      (isBase : v.base = some base) (low : base ≤ data) (high : data + size ≤ base + v.size) :
      Step v (v.add (.write target data size))
  | fill (v : View) {base place : Nat} (target : Target) (size : Nat)
      (open_ : unlocked v.trace = true) (isBase : v.base = some base) (low : base ≤ place)
      (high : place + 4 ≤ base + v.size) : Step v (v.add (.fill target (word32 v.mem place) size))
  | payload (v : View) {base : Nat} (open_ : unlocked v.trace = true) (isBase : v.base = some base) :
      Step v (v.add (.payload v.mem base v.size))
  | update (v : View) {base data size : Nat} {room : Bool} (target : Target)
      (open_ : unlocked v.trace = true) (isBase : v.base = some base)
      (seen : .payload v.mem base v.size ∈ v.trace)
      (ofEntry : EntryData (blobAt v.mem base room) data size) :
      Step v (v.add (.write target data size))
  | load (v : View) (open_ : unlocked v.trace = true) : Step v (v.add (.load v.mem v.base v.size))
  | boot (v : View) {base offset size : Nat} (open_ : unlocked v.trace = true)
      (isBase : v.base = some base) (seen : .load v.mem v.base v.size ∈ v.trace)
      (verified : tegrablVerifyBootImgHdr (v.mem.view base) (BitVec.ofNat 32 v.size) = .ok ())
      (part : BootPart (v.mem.view base) offset size) : Step v (v.add (.boot (base + offset) size))

abbrev Steps : View → View → Prop := Relation.ReflTransGen Step

inductive Turn : View → View → Prop
  | step {v v' : View} (step : Step v v') : Turn v v'
  | command (v : View) (packet : List Byte) : Turn v (v.add (.command packet))

abbrev Turns : View → View → Prop := Relation.ReflTransGen Turn

theorem Step.steps {v v' : View} (step : Step v v') : Steps v v' := Relation.ReflTransGen.single step

theorem Steps.turns {v v' : View} (steps : Steps v v') : Turns v v' :=
  Relation.ReflTransGen.mono (fun _ _ step => .step step) _ _ steps

variable {e : Event}

theorem unlocked_cons {trace : List Event} (notCommand : ∀ packet, e ≠ .command packet)
    (open_ : unlocked trace = true) : unlocked (e :: trace) = true := by
  cases e with
  | command packet => exact absurd rfl (notCommand packet)
  | lockQuery answer =>
    match answer with
    | .ok true => rfl
    | .ok false => exact open_
    | .error _ => exact open_
  | _ => exact open_

theorem Step.trace {v v' : View} (step : Step v v') :
    v'.trace = v.trace ∨ ∃ e, (∀ packet, e ≠ .command packet) ∧ v'.trace = e :: v.trace := by
  cases step with
  | talk isTalk =>
    refine .inr ⟨_, ?_, rfl⟩
    rintro packet rfl
    exact isTalk
  | plain open_ isPlain =>
    refine .inr ⟨_, ?_, rfl⟩
    rintro packet rfl
    exact isPlain
  | clear | exhausted | complete => exact .inl rfl
  | _ =>
    refine .inr ⟨_, ?_, rfl⟩
    rintro packet ⟨⟩

theorem Steps.unlocked {v v' : View} (steps : Steps v v') (open_ : unlocked v.trace = true) :
    Fastboot.unlocked v'.trace = true := by
  induction steps with
  | refl => exact open_
  | tail _ step ih =>
    rcases step.trace with same | ⟨e, notCommand, added⟩
    · exact same ▸ ih
    · exact added ▸ unlocked_cons notCommand ih

/-! ### Programs that only talk -/

def Told (v v' : View) : Prop :=
  ∃ events, (∀ e ∈ events, e.Talk) ∧ v' = { v with trace := events ++ v.trace }

theorem Told.refl (v : View) : Told v v :=
  ⟨[], fun _ member => absurd member List.not_mem_nil, rfl⟩

theorem Told.trans {v v' v'' : View} (first : Told v v') (second : Told v' v'') : Told v v'' := by
  obtain ⟨early, talk, rfl⟩ := first
  obtain ⟨late, talkToo, rfl⟩ := second
  refine ⟨late ++ early, fun e member => ?_, ?_⟩
  · rcases List.mem_append.mp member with isLate | isEarly
    · exact talkToo e isLate
    · exact talk e isEarly
  · rw [List.append_assoc]

theorem Told.add (v : View) {e : Event} (isTalk : e.Talk) : Told v (v.add e) :=
  ⟨[e], fun _ member => List.mem_singleton.mp member ▸ isTalk, rfl⟩

theorem Told.steps {v v' : View} (told : Told v v') : Steps v v' := by
  obtain ⟨events, talk, rfl⟩ := told
  induction events with
  | nil => exact .refl
  | cons e rest ih =>
    refine (ih fun other member => talk other (.tail e member)).tail ?_
    exact Step.talk _ (talk e (.head _))

theorem Told.mem {v v' : View} (told : Told v v') (member : e ∈ v.trace) :
    e ∈ v'.trace := by
  obtain ⟨events, -, rfl⟩ := told
  exact List.mem_append_right events member

section Programs

variable {σ α β : Type}

def Talks (p : Handler σ α) : Prop :=
  ∀ v, Total (fun s => s.view = v) p (fun _ s => Told v s.view) fun s => Told v s.view

def MovesFrom (v : View) (p : Handler σ α) : Prop :=
  Total (fun s => s.view = v) p (fun _ s => Steps v s.view) fun s => Steps v s.view

theorem Talks.pure (a : α) : Talks (Pure.pure a : Handler σ α) := fun v =>
  Total.pure fun _ same => same ▸ Told.refl v

theorem Talks.fail (halt : Halt) : Talks (Prog.fail halt : Handler σ α) := fun v =>
  Total.fail fun _ same => same ▸ Told.refl v

variable {p : Handler σ α} {f : α → Handler σ β}

theorem Total.afterTalk {v : View}
    {post : β → FastbootState σ → Prop} {err : FastbootState σ → Prop} (talks : Talks p)
    (halted : ∀ s, Told v s.view → err s)
    (rest : ∀ a v', Told v v' → Total (fun s => s.view = v') (f a) post err) :
    Total (fun s => s.view = v) (p >>= f) post err := by
  refine ((talks v).mono (fun _ => id) (fun _ _ => id) halted).bind fun a s told => ?_
  exact rest a s.view told s rfl

theorem Talks.bind (first : Talks p)
    (second : ∀ a, Talks (f a)) : Talks (p >>= f) := fun _ =>
  Total.afterTalk first (fun _ => id) fun a v' told =>
    (second a v').mono (fun _ => id) (fun _ _ later => told.trans later) fun _ later =>
      told.trans later

theorem Talks.answer {p : Handler σ (Result α)} {f : Result α → Handler σ β} (talks : Talks p)
    (failed : ∀ e, Talks (f (.error e))) (answered : ∀ a, Talks (f (.ok a))) : Talks (p >>= f) :=
  talks.bind fun answer => answer.casesOn failed answered

theorem Talks.ite {c : Prop} [Decidable c] {p q : Handler σ α} (yes : Talks p) (no : Talks q) :
    Talks (if c then p else q) := by
  split
  · exact yes
  · exact no

theorem Talks.read {f : FastbootState σ → Handler σ α} (rest : ∀ s, Talks (f s)) :
    Talks (Prog.read >>= f) := fun _ s same => rest s _ s same

theorem Talks.modify {f : FastbootState σ → FastbootState σ} (same : ∀ s, (f s).view = s.view) :
    Talks (Prog.modify f : Handler σ Unit) := fun v =>
  Total.modify fun _ isView => by
    rw [same, isView]
    exact Told.refl v

theorem Talks.moves (talks : Talks p) (v : View) : MovesFrom v p :=
  (talks v).mono (fun _ => id) (fun _ _ told => told.steps) fun _ told => told.steps

theorem MovesFrom.after {v v' : View} {p : Handler σ α} (steps : Steps v v') (moves : MovesFrom v' p) :
    Total (fun s => s.view = v') p (fun _ s => Steps v s.view) fun s => Steps v s.view :=
  moves.mono (fun _ => id) (fun _ _ later => steps.trans later) fun _ later => steps.trans later

theorem MovesFrom.afterTalk {v : View} (talks : Talks p)
    (rest : ∀ a v', Told v v' → MovesFrom v' (f a)) : MovesFrom v (p >>= f) :=
  Total.afterTalk talks (fun _ told => told.steps) fun a v' told =>
    MovesFrom.after told.steps (rest a v' told)

theorem note_step {v : View} {f : Unit → Handler σ β} (step : Step v (v.add e))
    (rest : MovesFrom (v.add e) (f ())) : MovesFrom v (note e >>= f) := by
  refine Total.modifyThen (fun s same => ?_) (MovesFrom.after step.steps rest)
  rw [← same]
  rfl

theorem ask_talks {f : σ → α × σ} : Talks (ask f) := fun v _ same =>
  ⟨_, rfl, same ▸ Told.refl v⟩

theorem askOp_talks {op : Op σ α} : Talks (askOp op) := ask_talks

theorem note_talks (e : Event) (isTalk : e.Talk) : Talks (note e : Handler σ Unit) := fun v =>
  Total.modify fun s same => by
    rw [← same]
    exact Told.add s.view isTalk

end Programs

/-! ### Answers and variables -/

variable (cmds : List Command)

section Handlers

variable {σ : Type} {env : Env σ}

variable {response : List Byte}

theorem send_talks : Talks (send env response) :=
  (note_talks (.send response) trivial).bind fun _ => ask_talks

theorem isDeviceUnlocked_talks : Talks (tegrablIsDeviceUnlocked env) :=
  askOp_talks.bind fun answer => (note_talks (.lockQuery answer) trivial).bind fun _ => Talks.pure _

theorem changeDeviceState_talks {cmd : LockCmd} : Talks (tegrablChangeDeviceState env cmd) :=
  (note_talks (.changeState cmd) trivial).bind fun _ => askOp_talks

theorem ack_talks {code : String} {reason : List Byte} : Talks (fastbootAck env code reason) := by
  refine Talks.read fun s => Talks.ite (Talks.pure ()) ?_
  refine (Talks.modify fun _ => ?_).bind fun _ => send_talks.bind fun _ => Talks.pure ()
  split <;> rfl

theorem fail_talks {reason : String} : Talks (fastbootFail env reason) := ack_talks

theorem okay_talks {info : List Byte} : Talks (fastbootOkay env info) := ack_talks

variable {α : Type}

theorem slotVar_talks {op : Op σ α} {text : α → List Byte} : Talks (slotVar op text response) :=
  askOp_talks.answer (fun _ => Talks.pure _) fun _ => Talks.pure _

theorem slotSuffixesLoop_talks {numSlots : Nat} (slots : List Nat) (slot : List Byte) :
    Talks (slotSuffixesLoop env numSlots slots slot) := by
  induction slots generalizing slot with
  | nil => exact Talks.pure _
  | cons i rest ih => exact askOp_talks.answer (fun _ => Talks.pure _) fun _ => ih _

theorem partitionHasSlot_talks {name response : List Byte} :
    Talks (Fastboot.partitionHasSlot env name response) := by
  unfold Fastboot.partitionHasSlot
  dsimp only
  split
  · exact Talks.pure _
  · split
    · exact Talks.pure _
    · exact askOp_talks.answer (fun _ => Talks.pure _) fun _ => Talks.pure _

theorem getSlotSuffixes_talks : Talks (tegrablGetSlotSuffixes env) :=
  askOp_talks.answer (fun _ => Talks.pure _) fun _ => slotSuffixesLoop_talks _ _

theorem abVarHandler_talks {arg response : List Byte} :
    Talks (tegrablFastbootABVarHandler env arg response) := by
  refine Talks.ite ?_ (Talks.ite ?_ (Talks.ite ?_ (Talks.ite slotVar_talks
    (Talks.ite slotVar_talks (Talks.ite slotVar_talks (Talks.pure _))))))
  · refine partitionHasSlot_talks.bind fun found => ?_
    dsimp only
    split <;> exact Talks.pure _
  · exact askOp_talks.answer (fun _ => Talks.pure _) fun _ => Talks.pure _
  · exact getSlotSuffixes_talks.answer (fun _ => Talks.pure _) fun _ => Talks.pure _

theorem lockVar_talks {text : Bool → List Byte} :
    Talks (lockVar env text response) :=
  isDeviceUnlocked_talks.answer (fun _ => Talks.pure _) fun _ => Talks.pure _

theorem getvar_talks {arg response : List Byte} : Talks (fastbootGetvar env arg response) := by
  refine Talks.ite (Talks.pure _) (Talks.ite (Talks.pure _) (Talks.ite (Talks.pure _)
    (Talks.ite ?_ (Talks.ite lockVar_talks (Talks.ite lockVar_talks (Talks.ite (Talks.pure _)
      (Talks.ite (Talks.pure _) (Talks.ite abVarHandler_talks (Talks.pure _)))))))))
  exact ask_talks.answer (fun _ => Talks.pure _) fun _ => Talks.pure _

theorem each_talks {body : α → Handler σ Unit} (talks : ∀ a, Talks (body a)) (items : List α) :
    Talks (each body items) := by
  induction items with
  | nil => exact Talks.pure ()
  | cons a rest ih => exact (talks a).bind fun _ => ih

theorem sendVar_talks {var : List Byte} : Talks (sendVar env var) :=
  getvar_talks.bind fun _ => ack_talks

variable {arg : List Byte}

theorem cmdGetvar_talks : Talks (cmdGetvar env arg) := by
  refine Talks.ite ?_ (getvar_talks.bind fun _ => okay_talks)
  refine (each_talks (fun _ => sendVar_talks) _).bind fun _ => ?_
  refine (each_talks (fun _ => each_talks (fun _ => sendVar_talks) _) _).bind fun _ => ?_
  refine askOp_talks.answer (fun _ => Talks.pure ()) fun numSlots => ?_
  refine Talks.bind (each_talks (fun var => each_talks (fun j => ?_) _) _) fun _ => okay_talks
  exact askOp_talks.answer (fun _ => Talks.pure ()) fun _ => sendVar_talks

theorem cmdFlashing_talks : Talks (cmdFlashing env arg) :=
  Talks.ite (changeDeviceState_talks.bind fun _ => okay_talks)
    (Talks.ite (changeDeviceState_talks.bind fun _ => okay_talks) okay_talks)

theorem oemHandler_talks : Talks (tegrablFastbootOemHandler env arg) := by
  refine Talks.ite changeDeviceState_talks (Talks.ite changeDeviceState_talks
    (Talks.ite ?_ (Talks.ite ?_ (Talks.pure _))))
  · exact ask_talks.answer (fun _ => fail_talks.bind fun _ => Talks.pure _)
      fun _ => ack_talks.bind fun _ => Talks.pure _
  · exact askOp_talks.answer (fun _ => fail_talks.bind fun _ => Talks.pure _)
      fun _ => ack_talks.bind fun _ => Talks.pure _

theorem cmdOem_talks : Talks (cmdOem env arg) :=
  oemHandler_talks.answer (fun _ => Talks.pure ()) fun _ => okay_talks

theorem cmdReboot_talks : Talks (cmdReboot : Handler σ Unit) :=
  (note_talks .reset trivial).bind fun _ => Talks.fail _

theorem cmdRebootBootloader_talks : Talks (cmdRebootBootloader env) :=
  okay_talks.bind fun _ => cmdReboot_talks

/-! ### The commands that change the device -/

theorem isDeviceUnlocked_total (v : View) : Total (fun s => s.view = v) (tegrablIsDeviceUnlocked env)
    (fun answer s => Steps v s.view ∧ (answer = .ok true → unlocked s.view.trace = true))
    fun s => Steps v s.view := by
  refine Total.afterTalk askOp_talks (fun _ told => told.steps) fun answer v' told => ?_
  refine Total.modifyThen (fun s same => ?_) (Total.pure fun s holds => holds)
  refine ⟨told.steps.tail ?_, ?_⟩
  · rw [← same]
    exact Step.talk s.view trivial
  · rintro rfl
    rfl

variable {v : View}

theorem whenUnlocked_moves {body : Handler σ Unit}
    (moves : ∀ v', unlocked v'.trace = true → MovesFrom v' body) :
    MovesFrom v (whenUnlocked env body) := by
  refine (isDeviceUnlocked_total v).bind fun answer s holds => ?_
  match answer with
  | .error _ | .ok false => exact MovesFrom.after holds.1 (fail_talks.moves s.view) s rfl
  | .ok true => exact MovesFrom.after holds.1 (moves s.view (holds.2 rfl)) s rfl

theorem MovesFrom.read {f : FastbootState σ → Handler σ α} {v : View}
    (rest : ∀ s, s.view = v → MovesFrom v (f s)) : MovesFrom v (Prog.read >>= f) :=
  fun s same => rest s same s same

theorem MovesFrom.modify {f : FastbootState σ → FastbootState σ} {g : Unit → Handler σ α}
    {v v' : View} (changed : ∀ s, s.view = v → (f s).view = v') (step : Step v v')
    (rest : MovesFrom v' (g ())) : MovesFrom v (Prog.modify f >>= g) :=
  Total.modifyThen changed (MovesFrom.after step.steps rest)

theorem onLog_step {α β : Type} {f : Log σ → α × Log σ} {g : α → Handler σ β}
    (adds : ∀ log, (f log).2.trace = e :: log.trace) (step : Step v (v.add e))
    (rest : ∀ a, MovesFrom (v.add e) (g a)) : MovesFrom v (onLog f >>= g) := by
  intro s same
  have added : (s.setLog (f s.log).2).view = v.add e := by
    rw [← same]
    exact congrArg (fun trace => { s.view with trace }) (adds s.log)
  exact MovesFrom.after step.steps (rest (f s.log).1) _ added

theorem onLog_run {f : Log σ → α × Log σ} {a : α} {s : FastbootState σ} {log : Log σ}
    (ran : f s.log = (a, log)) : onLog f s = some (.ok a, s.setLog log) := by
  simp only [onLog, ran]

theorem cmdErase_moves (v : View) : MovesFrom v (cmdErase env arg) := by
  refine whenUnlocked_moves fun v open_ => ?_
  split
  · exact fail_talks.moves v
  · split
    · exact fail_talks.moves v
    · next target _ =>
      refine onLog_step (fun _ => rfl) (Step.plain v (e := .erase target) open_ trivial) fun result => ?_
      cases result with
      | error e => exact fail_talks.moves _
      | ok _ => exact okay_talks.moves _

theorem cmdSetActiveSlot_moves (v : View) : MovesFrom v (cmdSetActiveSlot env arg) := by
  refine whenUnlocked_moves fun v open_ => ?_
  refine note_step (Step.plain v open_ trivial) (MovesFrom.afterTalk askOp_talks fun result v' _ => ?_)
  cases result with
  | error e => exact fail_talks.moves v'
  | ok _ => exact okay_talks.moves v'

/-! ### Download -/

theorem allocateDownload_moves {len : Nat} (v : View) : MovesFrom v (allocateDownload env len) := by
  refine MovesFrom.read fun s same => ?_
  by_cases allocated : s.isAllocated = true
  · rw [if_pos allocated]
    exact (Talks.pure ()).moves v
  · rw [if_neg allocated]
    have fresh : v.isAllocated = false := by
      rw [← same]
      exact Bool.not_eq_true _ ▸ allocated
    refine MovesFrom.afterTalk ask_talks fun base v' told => ?_
    have freshToo : v'.isAllocated = false := by
      obtain ⟨events, -, rfl⟩ := told
      exact fresh
    cases base with
    | none =>
      refine Total.modify fun s same => ?_
      rw [← same]
      exact (Step.exhausted s.view (same ▸ freshToo)).steps
    | some base =>
      refine Total.modify fun s same => ?_
      rw [← same]
      exact (Step.allocate s.view base len (same ▸ freshToo)).steps

theorem downloadInto_moves {len : Nat} (open_ : unlocked v.trace = true) :
    MovesFrom v (downloadInto env len v.base) := by
  cases isBase : v.base with
  | none => exact fail_talks.moves v
  | some base =>
    refine Total.bind (?_ : Total (fun s => s.view = v) (receiveDownload env base len)
      (fun received s => Steps v s.view ∧ s.view.base = some base ∧
        ∃ bytes before, s.view.trace = .receive base len bytes :: before ∧
          bytes.length = received.2) fun s => Steps v s.view) ?_
    · refine Total.afterTalk ask_talks (fun _ told => told.steps) fun sent v' told => ?_
      have openToo := told.steps.unlocked open_
      refine Total.modifyThen (fun s same => ?_) (Total.pure fun s holds => holds)
      have isBaseToo : s.view.base = some base := by
        obtain ⟨events, -, rfl⟩ := told
        exact same ▸ isBase
      refine ⟨told.steps.tail (same ▸ ?_), isBaseToo, _, _, rfl, rfl⟩
      exact Step.receive s.view (same ▸ openToo) isBaseToo (List.length_take_le _ _)
    · rintro ⟨result, received⟩ s ⟨steps, isBaseToo, bytes, before, last, length⟩
      refine (MovesFrom.after steps ?_ : Total (fun s' => s'.view = s.view) _ _ _) s rfl
      refine Total.ite (fun _ => ?_) fun whole => ?_
      · refine MovesFrom.afterTalk fail_talks fun _ v' _ => ?_
        exact Total.modify fun _ same => same ▸ Relation.ReflTransGen.refl
      · rw [not_or, not_not] at whole
        exact MovesFrom.modify (fun _ same => same ▸ rfl)
          (Step.complete s.view isBaseToo last (length.trans whole.2)) (okay_talks.moves _)

theorem cmdDownload_moves (v : View) : MovesFrom v (cmdDownload env arg) := by
  refine whenUnlocked_moves fun v open_ => ?_
  refine MovesFrom.modify (fun s same => same ▸ rfl) (Step.clear v) ?_
  have openToo := (Step.clear v).steps.unlocked open_
  refine Total.ite (fun _ => fail_talks.moves _) fun _ => ?_
  refine MovesFrom.afterTalk send_talks fun result v' told => ?_
  cases result with
  | error e => exact (Talks.pure ()).moves v'
  | ok _ =>
    refine (allocateDownload_moves v').bind fun _ s steps => ?_
    have openLast := steps.unlocked (told.steps.unlocked openToo)
    exact MovesFrom.after steps (MovesFrom.read fun s' same => same ▸ downloadInto_moves (same ▸ openLast)) s rfl

/-! ### Boot from memory -/

theorem loadFailed_talks {error : ErrorValue} : Talks (loadFailed env error) :=
  Talks.ite ((note_talks .reset trivial).bind fun _ => Talks.fail _) (Talks.pure _)

theorem extractKernel_size {decompressors : Decompressors} {image : ByteMem} {kernelBinSize size : Nat}
    {kernel : List Byte} (taken : extractKernel decompressors image kernelBinSize = .ok (kernel, size)) :
    size = (kernelPlace image kernelBinSize).2 := by
  unfold extractKernel at taken
  dsimp only at taken
  split at taken
  · cases taken
  · split at taken
    · cases taken
      rfl
    · next decompress _ =>
      cases unpacked : decompress (image.load (kernelPlace image kernelBinSize).1
          (kernelPlace image kernelBinSize).2) with
      | error e =>
        rw [unpacked] at taken
        cases taken
      | ok bytes =>
        rw [unpacked] at taken
        cases taken
        rfl

theorem extractRamdisk_length {image : ByteMem} {ramdisk : List Byte}
    (taken : extractRamdisk image = .ok ramdisk) : ramdisk.length = (ramdisksize image).toNat := by
  unfold extractRamdisk at taken
  split at taken
  · cases taken
  · cases taken
    simp [ByteMem.load]

variable {base : Nat}

theorem extractImage_moves (open_ : unlocked v.trace = true)
    (isBase : v.base = some base) (seen : .load v.mem v.base v.size ∈ v.trace)
    (verified : tegrablVerifyBootImgHdr (v.mem.view base) (BitVec.ofNat 32 v.size) = .ok ()) :
    MovesFrom v (extractImage env v.mem base) := by
  have part {v' : View} {offset size : Nat} (steps : Steps v v') (sameMem : v'.mem = v.mem)
      (sameBase : v'.base = v.base) (sameSize : v'.size = v.size) (later : ∀ e ∈ v.trace, e ∈ v'.trace)
      (isPart : BootPart (v.mem.view base) offset size) : Step v' (v'.add (.boot (base + offset) size)) := by
    refine Step.boot v' (steps.unlocked open_) (sameBase.trans isBase) ?_ ?_ (sameMem ▸ isPart)
    · rw [sameMem, sameBase, sameSize]
      exact later _ seen
    · rw [sameMem, sameSize]
      exact verified
  unfold extractImage
  dsimp only
  split
  · exact (Talks.pure _).moves v
  · next kernel kernelSize taken =>
    rw [extractKernel_size taken]
    have one := part .refl rfl rfl rfl (fun _ => id) BootPart.kernel
    refine note_step one ?_
    split
    · exact (Talks.pure _).moves _
    · next ramdisk takenToo =>
      rw [extractRamdisk_length takenToo]
      have two := part one.steps rfl rfl rfl (fun _ member => .tail _ member)
        BootPart.ramdisk
      refine note_step two ?_
      have length : (cmdline (v.mem.view base)).length = 512 := by simp [cmdline, ByteMem.load]
      rw [length]
      have three := part (one.steps.tail two) rfl rfl rfl
        (fun _ member => .tail _ (.tail _ member)) BootPart.cmdline
      exact note_step three (ask_talks.moves _)

theorem loadKernelAndDtb_moves (open_ : unlocked v.trace = true) :
    MovesFrom v (tegrablLoadKernelAndDtb env v.base v.size) := by
  refine MovesFrom.read fun s same => ?_
  have sameMem : s.mem = v.mem := congrArg View.mem same
  rw [sameMem]
  have step := Step.load v open_
  refine note_step step ?_
  split
  · exact loadFailed_talks.moves _
  · next base isBase =>
    refine MovesFrom.afterTalk ask_talks fun result v' told => ?_
    have openToo := told.steps.unlocked (step.steps.unlocked open_)
    have seen := told.mem (.head _ : .load v.mem v.base v.size ∈ (v.add _).trace)
    cases result with
    | error e => exact loadFailed_talks.moves v'
    | ok _ =>
      dsimp only
      split
      · exact loadFailed_talks.moves v'
      · next verified =>
        obtain ⟨events, -, rfl⟩ := told
        exact extractImage_moves openToo isBase seen verified

theorem cmdBoot_moves (v : View) : MovesFrom v (cmdBoot env) := by
  refine whenUnlocked_moves fun v open_ => MovesFrom.afterTalk okay_talks fun _ v' told => ?_
  refine MovesFrom.read fun s same => ?_
  have openToo := told.steps.unlocked open_
  have load : MovesFrom v' (tegrablLoadKernelAndDtb env s.downloadBase s.downloadSize) := by
    subst same
    exact loadKernelAndDtb_moves openToo
  refine load.bind fun result s' steps => ?_
  refine (MovesFrom.after steps ?_ : Total (fun t => t.view = s'.view) _ _ _) s' rfl
  cases result with
  | error e => exact (Talks.pure ()).moves _
  | ok _ => exact note_step (Step.plain _ (steps.unlocked openToo) trivial) ((Talks.fail _).moves _)

/-! ### Flash -/

theorem flashExit_talks {result : Result Unit} : Talks (flashExit env result) := by
  cases result with
  | error e => exact fail_talks
  | ok _ => exact okay_talks

def View.withLog (v : View) (log : Log σ) : View := { v with trace := log.trace }

section

variable (open_ : unlocked v.trace = true) (isBase : v.base = some base)
include open_ isBase

theorem flashOutput_kept (target : Target) : OutputKept (flashOutput env target base)
    (v.mem.view base) v.size fun log => Steps v (v.withLog log) where
  buffer offset size log fits steps :=
    steps.tail (Step.write (v.withLog log) target (steps.unlocked open_) isBase
      (Nat.le_add_right _ _) (show base + offset + size ≤ base + v.size by omega))
  fill offset size log fits steps := by
    have word : word32 (v.mem.view base) offset = word32 v.mem (base + offset) := word32_view _ _ _
    rw [word]
    refine steps.tail ?_
    exact Step.fill (v.withLog log) target size (steps.unlocked open_) isBase (Nat.le_add_right _ _)
      (show base + offset + 4 ≤ base + v.size by omega)
  seek size log steps := steps

theorem flashSparse_moves {maxUnsparseSize : Nat} (target : Target) {state : UnsparseState}
    (fresh : tegrablSparseInitUnsparseState maxUnsparseSize = .ok state) :
    MovesFrom v (flashSparse env target base v.size state) := by
  refine MovesFrom.read fun s same => ?_
  have sameMem : s.mem = v.mem := congrArg View.mem same
  rw [sameMem]
  have kept := @flashOutput_kept σ env v base open_ isBase target
  refine Total.bind (?_ : MovesFrom v _) fun ended s' steps => ?_
  · intro s same
    refine ⟨_, rfl, ?_⟩
    subst same
    exact unsparse_keeps kept env.rounds fresh Relation.ReflTransGen.refl
  · refine (MovesFrom.after steps ?_ : Total (fun t => t.view = s'.view) _ _ _) s' rfl
    cases ended with
    | done _ | failed _ => exact (Talks.pure _).moves _
    | unseen | overrun => exact (Talks.fail _).moves _

theorem logged_kept {room : Bool} (seen : .payload v.mem base v.size ∈ v.trace) :
    WorldKept (loggedPlatform env.platform) (loggedCallbacks env.callbacks) (blobAt v.mem base room)
      fun log => Steps v (v.withLog log) ∧ ∀ e ∈ v.trace, e ∈ log.trace where
  erase target log kept :=
    ⟨kept.1.tail (Step.plain (v.withLog log) (kept.1.unlocked open_) trivial), fun e member =>
      .tail _ (kept.2 e member)⟩
  write target data size log ofEntry kept :=
    ⟨kept.1.tail (Step.update (v.withLog log) target (kept.1.unlocked open_) isBase (kept.2 _ seen)
      ofEntry), fun e member => .tail _ (kept.2 e member)⟩
  alloc _ _ kept := kept
  spec _ kept := kept
  bct f set log kept := by
    obtain ⟨g, -, rfl⟩ := Option.map_eq_some_iff.mp set
    exact kept
  slotNum f set log kept := by
    obtain ⟨g, -, rfl⟩ := Option.map_eq_some_iff.mp set
    exact kept
  fault _ kept := kept

theorem runUpdate_moves {room : Bool} {suffix : List Byte}
    (seen : .payload v.mem base v.size ∈ v.trace) :
    MovesFrom v (runUpdate env (blobAt v.mem base room) v.size suffix) := by
  have kept := @logged_kept σ env v base open_ isBase room seen
  intro s same
  have start : Steps v (v.withLog s.update.world) ∧ ∀ e ∈ v.trace, e ∈ s.update.world.trace := by
    subst same
    exact ⟨.refl, fun _ => id⟩
  have ends : TotalKeeps _ (tegrablCheckAndUpdateBlPayload _ _ _ suffix v.size env.rounds) :=
    payload_world kept v.size env.rounds
  obtain ⟨⟨result, update⟩, ran, reached⟩ := ends s.update start
  have after : Steps v { s with update }.view := by
    subst same
    cases result with
    | ok _ | error _ => exact reached.1
  rw [runUpdate, ran]
  dsimp only
  split
  · exact ⟨_, rfl, after⟩
  · exact ⟨_, rfl, after⟩

theorem updatePayload_moves {suffix : List Byte} :
    MovesFrom v (updatePayload env base v.size suffix) := by
  refine MovesFrom.read fun s same => ?_
  have sameMem : s.mem = v.mem := congrArg View.mem same
  rw [sameMem]
  have step := Step.payload v open_ isBase
  refine note_step step (MovesFrom.afterTalk ask_talks fun room v' told => ?_)
  have openToo := told.steps.unlocked (step.steps.unlocked open_)
  have seen := told.mem (.head _ : .payload v.mem base v.size ∈ (v.add _).trace)
  obtain ⟨events, -, rfl⟩ := told
  exact runUpdate_moves openToo isBase seen

theorem flashPartition_moves {name : List Byte} (target : Target) :
    MovesFrom v (flashPartition env name target base v.size) := by
  refine MovesFrom.read fun s _ => Total.ite (fun _ => ?_) fun _ => ?_
  · split
    · exact (Talks.pure ()).moves v
    · next state fresh =>
      refine (flashSparse_moves open_ isBase target fresh).bind fun result s' steps => ?_
      exact MovesFrom.after steps (flashExit_talks.moves _) s' rfl
  · refine onLog_step (fun _ => rfl) (Step.write v target open_ isBase le_rfl le_rfl) fun _ => ?_
    exact flashExit_talks.moves _

theorem flashFrom_moves : MovesFrom v (flashFrom env arg base v.size) := by
  refine Total.ite (fun _ => ?_) fun _ => ?_
  · refine (updatePayload_moves open_ isBase).bind fun result s steps => ?_
    exact MovesFrom.after steps (flashExit_talks.moves _) s rfl
  · split
    · exact fail_talks.moves v
    · split
      · exact fail_talks.moves v
      · split
        · exact fail_talks.moves v
        · exact flashPartition_moves open_ isBase _

end

theorem cmdFlash_moves (v : View) : MovesFrom v (cmdFlash env arg) := by
  refine whenUnlocked_moves fun v open_ => MovesFrom.read fun s same => ?_
  subst same
  split
  · exact (Talks.pure ()).moves _
  · next base isBase =>
    exact Total.ite (fun _ => (Talks.pure ()).moves _) fun _ => flashFrom_moves open_ isBase

/-! ### Commands and sessions -/

theorem handle_moves (cmd : Command) (v : View) : MovesFrom v (cmd.handle env arg) := by
  cases cmd with
  | reboot => exact cmdReboot_talks.moves v
  | rebootBootloader => exact cmdRebootBootloader_talks.moves v
  | getvar => exact cmdGetvar_talks.moves v
  | erase => exact cmdErase_moves v
  | download => exact cmdDownload_moves v
  | flash => exact cmdFlash_moves v
  | boot => exact cmdBoot_moves v
  | continue_ => exact okay_talks.moves v
  | oem => exact cmdOem_talks.moves v
  | flashing => exact cmdFlashing_talks.moves v
  | setActive => exact cmdSetActiveSlot_moves v

def TurnsFrom (v : View) (p : Handler σ α) : Prop :=
  Total (fun s => s.view = v) p (fun _ s => Turns v s.view) fun s => Turns v s.view

theorem MovesFrom.turns {p : Handler σ α} (moves : MovesFrom v p) : TurnsFrom v p :=
  moves.mono (fun _ => id) (fun _ _ steps => steps.turns) fun _ steps => steps.turns

theorem TurnsFrom.bind {α β : Type} {p : Handler σ α} {f : α → Handler σ β}
    (first : TurnsFrom v p) (second : ∀ a v', TurnsFrom v' (f a)) : TurnsFrom v (p >>= f) := by
  refine Total.bind first fun a s turns => ?_
  exact ((second a s.view).mono (fun _ => id) (fun _ _ later => turns.trans later)
    fun _ later => turns.trans later) s rfl

theorem TurnsFrom.read {v : View} {f : FastbootState σ → Handler σ α}
    (rest : ∀ s, TurnsFrom v (f s)) : TurnsFrom v (Prog.read >>= f) := fun s same => rest s s same

theorem handlePacket_turns (packet : List Byte) (v : View) :
    TurnsFrom v (handlePacket env cmds packet) := by
  have arrived : TurnsFrom v (note (.command packet) : Handler σ Unit) := by
    refine Total.modify fun s same => ?_
    rw [← same]
    exact .single (Turn.command s.view packet)
  refine arrived.bind fun _ v' => MovesFrom.turns ?_
  split
  · refine Talks.moves (Talks.bind (Talks.modify fun s => ?_) fun _ =>
      fail_talks.bind fun _ => Talks.pure _) v'
    split <;> rfl
  · next cmd _ =>
    refine MovesFrom.afterTalk (Talks.modify fun _ => rfl) fun _ v'' _ => ?_
    refine (handle_moves cmd v'').bind fun _ s steps => ?_
    refine MovesFrom.after steps (Talks.moves ?_ _) s rfl
    refine Talks.ite (Talks.pure _) (Talks.read fun _ => Talks.bind ?_ fun _ => Talks.pure _)
    exact Talks.ite fail_talks (Talks.pure ())

theorem goOffline_turns {retval : Result Unit} (v : View) :
    TurnsFrom v (goOffline retval : Handler σ (Result Unit)) := by
  refine MovesFrom.turns (Talks.moves (Talks.bind (Talks.modify fun _ => ?_) fun _ => Talks.pure _) v)
  rfl

theorem commandLoop_turns (packets : Nat) (v : View) :
    TurnsFrom v (commandLoop env cmds packets) := by
  induction packets generalizing v with
  | zero => exact ((Talks.fail _).moves v).turns
  | succ packets ih =>
    refine TurnsFrom.read fun s => Total.ite (fun _ => goOffline_turns v) fun _ => ?_
    refine ((ask_talks.moves v).turns).bind fun out v' => ?_
    obtain ⟨result, bytes⟩ := out
    cases result with
    | error e => exact goOffline_turns v'
    | ok _ =>
      refine (handlePacket_turns cmds _ v').bind fun done v'' => ?_
      exact Total.ite (fun _ => ((Talks.pure _).moves v'').turns) fun _ => ih v''

theorem commandHandler_turns (packets : Nat) (v : View) :
    TurnsFrom v (tegrablFastbootCommandHandler env cmds packets) := by
  refine ((ask_talks.moves v).turns).bind fun buffer v' => ?_
  cases buffer with
  | none => exact goOffline_turns v'
  | some _ => exact commandLoop_turns cmds packets v'

theorem sessions_turns (counts : List Nat) (v : View) : TurnsFrom v (sessions env cmds counts) := by
  induction counts generalizing v with
  | nil => exact ((Talks.pure ()).moves v).turns
  | cons packets rest ih => exact (commandHandler_turns cmds packets v).bind fun _ v' => ih v'

end Handlers

def View.initial (mem : ByteMem) : View := ⟨[], mem, none, 0, false⟩

theorem sessions_steps {σ : Type} (env : Env σ) (cmds : List Command) (counts : List Nat) (world : σ)
    (mem : ByteMem) : ∃ result s, sessions env cmds counts (.initial world mem) = some (result, s) ∧
      Turns (.initial mem) s.view := by
  obtain ⟨⟨result, s⟩, ran, reached⟩ := sessions_turns cmds counts (.initial mem)
    (FastbootState.initial world mem) rfl
  refine ⟨result, s, ran, ?_⟩
  cases result with
  | ok _ | error _ => exact reached

end Cboot.Fastboot
