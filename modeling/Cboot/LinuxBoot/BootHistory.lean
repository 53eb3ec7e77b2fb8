/-
**What failed attempts leave behind.**

A failed attempt leaves the buffers, the pointers, the kernel size and the configuration changed. It
never leaves the status of the configuration set, nor a ramdisk size: these two are written last.
This holds for every attempt (`attempt_fresh`), and so along the walk over the boot order: a boot
that ends well is a history of failed attempts and one more that succeeds in a state of that kind
(`loadKernelAndDtb_history`), each of which has met what the world holds for it
(`loadKernelAndDtb_met`).
-/

import Cboot.LinuxBoot.BootAttempt

namespace Cboot.LinuxBoot

open Auth Prog

/-! ### The static variables -/

section Extlinux

def Unset (extlinux : Extlinux) : Prop := extlinux.isSuccess = false

theorem onConf_unset {α : Type} (p : Prog ErrorValue Conf α) : Keeps Unset (onConf p) :=
  Triple.zoom (Triple.trivial p) (fun _ _ => trivial) (fun _ _ _ unset _ => unset)
    fun _ _ unset _ => unset

theorem parseConfFile_unset (heap : ConfHeap) (text : Text) : Keeps Unset (parseConfFile heap text) := by
  unfold parseConfFile
  refine Triple.ite (fun _ => Keeps.pure) fun _ => ?_
  refine Triple.bind (onConf_unset _) fun locals => ?_
  exact Triple.bind (Triple.modify fun _ => id) fun _ => onConf_unset _

theorem getBootDetails_unset (handle : FmHandle) (heap : ConfHeap) (console : List ConsoleRead) :
    Keeps Unset (getBootDetails handle heap console) := by
  have parsed : Keeps Unset (loadAndParseConfFile handle heap) := by
    unfold loadAndParseConfFile
    cases heap.buffer with
    | none => exact Keeps.fail
    | some buffer =>
      refine Triple.bind (Triple.ofResult (fun _ _ => id) fun _ => id) fun _ => ?_
      exact Triple.ofOptionThen fun text _ => parseConfFile_unset heap text
  have chosen : Keeps Unset (displayBootMenu console) :=
    Triple.readAny fun _ => Triple.ofOptionThen fun _ _ => Triple.ofOption fun _ _ => id
  exact Triple.bind parsed fun _ => Triple.bind chosen fun _ => Triple.modify fun _ => id

theorem freeSections_unset {extlinux freed : Extlinux} (unset : Unset extlinux)
    (cleaned : freeSections extlinux = some freed) : Unset freed := by
  unfold freeSections at cleaned
  simp only at cleaned
  split at cleaned
  · cases cleaned
  · cases cleaned
    exact unset

end Extlinux

/-! ### One attempt -/

def Fresh (state : BootState) : Prop := Unset state.extlinux ∧ state.ramdiskSize = 0

section Attempt

variable (platform : Platform) (env : AttemptEnv)

theorem onExtlinux_fresh {α : Type} {p : Prog ErrorValue Extlinux α} (keeps : Keeps Unset p) :
    Keeps Fresh (onExtlinux p) :=
  Triple.zoom keeps (fun _ fresh => fresh.1) (fun _ _ _ fresh unset => ⟨unset, fresh.2⟩)
    fun _ _ fresh unset => ⟨unset, fresh.2⟩

theorem ofResult_fresh {α : Type} (result : Result α) :
    Keeps Fresh (ofResult result : Prog ErrorValue BootState α) :=
  Triple.ofResult (fun _ _ => id) fun _ => id

theorem modify_fresh {change : BootState → BootState} (keeps : ∀ state, Fresh state → Fresh (change state)) :
    Keeps Fresh (modify change : Prog ErrorValue BootState Unit) := Triple.modify keeps

theorem fail_fresh {α : Type} (error : ErrorValue) :
    Keeps Fresh (fail error : Prog ErrorValue BootState α) := Keeps.fail

theorem getBootImgLoadAddr_fresh : Keeps Fresh (getBootImgLoadAddr env.memory) := by
  refine Triple.readAny fun state => Triple.ite (fun _ => modify_fresh fun _ => id) fun _ => ?_
  exact Triple.bind (modify_fresh fun _ => id) fun _ => fail_fresh _

theorem extlinuxLoad_fresh : Keeps Fresh (extlinuxLoad platform env) := by
  have loaded : ∀ handle path, Keeps Fresh (loadKernel (platform.loadEnv env.contents) handle path) :=
    fun handle path => Triple.readAny fun state =>
      Triple.bind (modify_fresh fun _ => id) fun _ => ofResult_fresh _
  have chosen : Keeps Fresh chosenEntry :=
    Triple.readAny fun state => Triple.ofOption fun _ _ => id
  refine Triple.ite (fun _ => fail_fresh _) fun _ => ?_
  refine Triple.bind (onExtlinux_fresh (getBootDetails_unset _ _ _)) fun _ => ?_
  refine Triple.bind chosen fun entry => ?_
  refine Triple.bind (onExtlinux_fresh (Triple.modify fun _ => id)) fun _ => ?_
  refine Triple.bind (getBootImgLoadAddr_fresh env) fun _ => ?_
  refine Triple.bind (modify_fresh fun _ => id) fun _ => ?_
  refine Triple.bind (loaded _ _) fun _ => ?_
  exact Triple.bind (modify_fresh fun _ => id) fun _ => ofResult_fresh _

theorem tryExtlinux_fresh : Keeps Fresh (tryExtlinux platform env) := by
  have freed : ∀ state state' : BootState, Fresh state →
      (freeSections state.extlinux).map (fun extlinux => { state with extlinux }) = some state' →
      Fresh state' := by
    intro state state' fresh cleaned
    obtain ⟨extlinux, freed, rfl⟩ := Option.map_eq_some_iff.mp cleaned
    exact ⟨freeSections_unset fresh.1 freed, fresh.2⟩
  have loaded : Keeps Fresh (extlinuxBootLoadKernelAndDtb platform env) :=
    Triple.always (extlinuxLoad_fresh platform env) (fun _ => freed) freed
  exact Triple.recover (Triple.bind loaded fun _ => Keeps.pure)
    fun _ => Keeps.pure

theorem finishExtlinux_fresh :
    Triple Fresh (finishExtlinux env) (fun _ _ => True) Fresh := by
  have ramdisk : Triple Fresh (extlinuxBootLoadRamdisk env) (fun _ _ => True) Fresh := by
    refine Triple.readAny fun state => ?_
    cases state.extlinux.ramdiskPath with
    | none => exact Triple.pure fun _ _ => trivial
    | some path =>
      refine Triple.bind (modify_fresh fun _ => id) fun _ => ?_
      exact Triple.bind (ofResult_fresh _) fun _ => Triple.modify fun _ _ => trivial
  have status : Triple (fun _ => True) (onExtlinux (modify fun extlinux =>
      { extlinux with isSuccess := true })) (fun _ _ => True) Fresh := by
    intro state _ x run
    cases run
    exact trivial
  exact Triple.bind ramdisk fun _ => status

theorem placeImage_fresh (bytes : List Byte) : Keeps Fresh (placeImage bytes) :=
  modify_fresh fun _ => id

theorem placeDtb_fresh (ram : ByteMem) (bytes : List Byte) : Keeps Fresh (placeDtb ram bytes) :=
  modify_fresh fun _ => id

theorem validateImage_fresh : Keeps Fresh (validateImage platform) :=
  Triple.readAny fun _ => Triple.bind (ofResult_fresh _) fun _ => modify_fresh fun _ => id

theorem validateDtb_fresh : Keeps Fresh (validateDtb platform) :=
  Triple.readAny fun _ => Triple.ofOptionThen fun _ _ => Triple.bind (ofResult_fresh _) fun _ =>
    modify_fresh fun _ => id

theorem verifyImage_fresh (imgSize : Nat) : Keeps Fresh (verifyImage imgSize) :=
  Triple.readAny fun _ => ofResult_fresh _

theorem checkImage_fresh (imgSize : Nat) : Keeps Fresh (checkImage platform imgSize) :=
  Triple.bind (validateImage_fresh platform) fun _ =>
    Triple.bind (validateDtb_fresh platform) fun _ => verifyImage_fresh imgSize

theorem usbSdLoadFromPartition_fresh : Keeps Fresh (usbSdLoadFromPartition platform env) :=
  Triple.bind (getBootImgLoadAddr_fresh env) fun _ =>
    Triple.bind (placeDtb_fresh _ _) fun _ =>
    Triple.bind (placeImage_fresh _) fun _ =>
    Triple.bind (ofResult_fresh _) fun _ =>
    Triple.bind (placeDtb_fresh _ _) fun _ =>
    Triple.bind (ofResult_fresh _) fun _ => checkImage_fresh platform _

theorem tegrablLoadFromPartition_fresh : Keeps Fresh (tegrablLoadFromPartition platform env) := by
  refine Triple.ite (fun _ => Triple.ite (fun _ => fail_fresh _) fun _ => Triple.stuck) fun _ => ?_
  refine Triple.readAny fun _ => Triple.ite (fun _ => fail_fresh _) fun _ => ?_
  exact Triple.bind (modify_fresh fun _ => id) fun _ =>
    Triple.bind (placeImage_fresh _) fun _ =>
    Triple.bind (ofResult_fresh _) fun _ =>
    Triple.bind (modify_fresh fun _ => id) fun _ =>
    Triple.bind (validateImage_fresh platform) fun _ =>
    Triple.bind (ofResult_fresh _) fun _ =>
    Triple.bind (placeDtb_fresh _ _) fun _ =>
    Triple.bind (validateDtb_fresh platform) fun _ => verifyImage_fresh _

theorem extlinuxOr_fresh {other : Prog ErrorValue BootState Unit} (loaded : Bool)
    (fallback : Keeps Fresh other) :
    Triple Fresh (if loaded then finishExtlinux env else other) (fun _ _ => True) Fresh :=
  Triple.ite (fun _ => finishExtlinux_fresh env) fun _ =>
    fallback.weaken (fun _ _ _ => trivial)

theorem usbSdBoot_fresh :
    Triple Fresh (usbSdBootLoadKernelAndDtb platform env) (fun _ _ => True) Fresh := by
  refine Triple.bind (ofResult_fresh _) fun _ => Triple.ite (fun _ => Keeps.fail)
    fun _ => Triple.ite (fun _ => Triple.pure fun _ _ => trivial) fun _ => ?_
  have tried : Keeps Fresh (tryMountedExtlinux platform env) :=
    Triple.ite (fun _ => Keeps.pure) fun _ => tryExtlinux_fresh platform env
  refine Triple.bind tried fun loaded => extlinuxOr_fresh env loaded ?_
  exact Triple.ite (fun _ => fail_fresh _) fun _ => usbSdLoadFromPartition_fresh platform env

theorem fixedBoot_fresh :
    Triple Fresh (fixedBootLoadKernelAndDtb platform env) (fun _ _ => True) Fresh := by
  refine Triple.ite (fun _ => Keeps.fail) fun _ =>
    Triple.ite (fun _ => Keeps.fail) fun _ => ?_
  refine Triple.bind (ofResult_fresh _) fun _ => ?_
  refine Triple.bind (tryExtlinux_fresh platform env) fun loaded => extlinuxOr_fresh env loaded ?_
  exact Triple.recover (tegrablLoadFromPartition_fresh platform env) fun _ =>
    Triple.ite (fun _ => Triple.stuck) fun _ => fail_fresh _

theorem netBoot_fresh : Keeps Fresh (netBootLoadKernelAndDtb platform env) :=
  Triple.ite (fun _ => fail_fresh _) fun _ =>
    Triple.bind (placeDtb_fresh _ _) fun _ =>
    Triple.bind (getBootImgLoadAddr_fresh env) fun _ =>
    Triple.bind (placeDtb_fresh _ _) fun _ =>
    Triple.bind (placeImage_fresh _) fun _ =>
    Triple.bind (ofResult_fresh _) fun _ => checkImage_fresh platform _

theorem attempt_fresh (medium : Medium) :
    Triple Fresh (attempt platform env medium) (fun _ _ => True) Fresh :=
  match medium with
  | .network => (netBoot_fresh platform env).weaken (fun _ _ _ => trivial)
  | .sd | .usb => usbSdBoot_fresh platform env
  | .builtin => fixedBoot_fresh platform env

end Attempt

/-! ### The walk -/

section Walk

variable {platform : Platform} {world : Nat → AttemptEnv}

def Succeeded (platform : Platform) (boot : Boot) : Prop :=
  ∃ medium env state, boot.tried.getLast? = some (medium, env) ∧ Fresh state ∧
    attempt platform env medium state = some (.ok (), boot.state)

theorem nextAttempt_spec (medium : Medium) :
    Triple (fun boot => Fresh boot.state) (nextAttempt platform world medium)
      (fun _ boot => Succeeded platform boot) fun boot => Fresh boot.state := by
  intro boot fresh x run
  obtain ⟨⟨result, state⟩, tried, rfl⟩ := Option.map_eq_some_iff.mp run
  cases result with
  | ok done =>
    have last : (boot.tried ++ [(medium, world boot.tried.length)]).getLast? =
        some (medium, world boot.tried.length) := List.getLast?_concat
    exact ⟨medium, world boot.tried.length, boot.state, last, fresh, tried⟩
  | error error => exact attempt_fresh platform _ medium boot.state fresh _ tried

variable {order : List Byte}

section Rule

variable {pre post : Boot → Prop}
  (each : ∀ medium, Triple pre (nextAttempt platform world medium) (fun _ => post) pre)

include each

theorem mediaLoop_spec {boot boot' : Boot} {done : Bool} (start : pre boot)
    (walked : mediaLoop (nextAttempt platform world) order boot = some (done, boot')) :
    (done = true → post boot') ∧ (done = false → pre boot') := by
  induction order generalizing boot with
  | nil => cases walked
  | cons device rest ih =>
    rw [mediaLoop] at walked
    split at walked
    · cases walked
      exact ⟨by simp, fun _ => start⟩
    · cases tried : nextAttempt platform world (mediumOf device) boot with
      | none =>
        rw [tried] at walked
        cases walked
      | some ended =>
        have reached := each (mediumOf device) boot start ended tried
        rw [tried] at walked
        rcases ended with ⟨done' | error, next⟩
        · exact ih reached walked
        · cases walked
          exact ⟨fun _ => reached, by simp⟩

theorem loadKernelAndDtb_spec {reg : BitVec 32} {bootImg : ByteMem} {boot : Boot}
    {handed : HandOver} (start : pre ⟨.initial bootImg, []⟩)
    (booted : tegrablLoadKernelAndDtb platform world reg order bootImg = some (boot, .ok handed)) :
    post boot ∧ handOver platform boot.state = some (.ok handed) := by
  unfold tegrablLoadKernelAndDtb mediaStage at booted
  obtain ⟨⟨error, boot'⟩, staged, rest⟩ := Option.bind_eq_some_iff.mp booted
  obtain ⟨⟨done, walked⟩, walk, last⟩ := Option.bind_eq_some_iff.mp staged
  have reached := mediaLoop_spec each start walk
  cases error with
  | error error => cases rest
  | ok result =>
    obtain ⟨handed', given, same⟩ := Option.map_eq_some_iff.mp rest
    cases same
    refine ⟨?_, given⟩
    cases done with
    | true =>
      cases last
      exact reached.1 rfl
    | false => exact each .builtin walked (reached.2 rfl) _ last

end Rule

theorem loadKernelAndDtb_history {reg : BitVec 32} {bootImg : ByteMem}
    {boot : Boot} {handed : HandOver}
    (booted : tegrablLoadKernelAndDtb platform world reg order bootImg = some (boot, .ok handed)) :
    Succeeded platform boot ∧ handOver platform boot.state = some (.ok handed) :=
  loadKernelAndDtb_spec nextAttempt_spec ⟨rfl, rfl⟩ booted

def Met (world : Nat → AttemptEnv) (boot : Boot) : Prop :=
  boot.tried.map Prod.snd = (List.range boot.tried.length).map world

theorem nextAttempt_met (medium : Medium) :
    Keeps (Met world) (nextAttempt platform world medium) := by
  intro boot met x run
  obtain ⟨⟨result, state⟩, -, rfl⟩ := Option.map_eq_some_iff.mp run
  have after : Met world ⟨state, boot.tried ++ [(medium, world boot.tried.length)]⟩ := by
    show (boot.tried ++ [(medium, world boot.tried.length)]).map Prod.snd = _
    rw [List.map_append, met, List.length_append, List.length_singleton, List.range_succ,
      List.map_append]
    rfl
  cases result with
  | ok done | error error => exact after

theorem loadKernelAndDtb_met {reg : BitVec 32} {bootImg : ByteMem} {boot : Boot}
    {handed : HandOver}
    (booted : tegrablLoadKernelAndDtb platform world reg order bootImg = some (boot, .ok handed)) :
    Met world boot :=
  (loadKernelAndDtb_spec nextAttempt_met rfl booted).1

end Walk

end Cboot.LinuxBoot
