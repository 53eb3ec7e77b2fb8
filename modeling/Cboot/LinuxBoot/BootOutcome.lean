/-
**What is handed over depends on the medium that succeeded.**

Two boots walk different media, fail at different places, and then the same medium with the same
contents succeeds. For clean contents (`Clean`), when what is taken out of the boot image and the
device tree lies inside the loaded bytes, both hand over the same, wherever the failed attempts have
left the shared variables.
-/

import Cboot.LinuxBoot.BootAgree

namespace Cboot.LinuxBoot

open Auth Prog

/-! ### The end of an attempt -/

structure Delivered (s t : BootState) : Prop where
  status : s.extlinux.isSuccess = t.extlinux.isSuccess
  entry : s.extlinux.isSuccess = true → s.extlinux.bootEntry = t.extlinux.bootEntry ∧
    s.extlinux.bootArgs = t.extlinux.bootArgs
  image : SameImage s t
  dtb : SameDtb s t
  raw : hasBootImgHdr s.bootImg = true ∨ s.kernelSize = t.kernelSize ∧
    s.ramdiskSize = t.ramdiskSize ∧
    (s.ramdisk.map fun ramdisk => ramdisk.load 0 s.ramdiskSize) =
      t.ramdisk.map fun ramdisk => ramdisk.load 0 t.ramdiskSize

section Finish

variable {contents : MediumContents} {console : List ConsoleRead} {memory memory' : AttemptMemory}

theorem finishExtlinux_run {env : AttemptEnv} {s s' : BootState} {path : Text}
    (initrd : s.extlinux.ramdiskPath = some path) (run : finishExtlinux env s = some (.ok (), s')) :
    (tegrablFmRead env.contents.handle (some path) env.memory.ramdisk 0 ramdiskMaxSize).error =
        .ok () ∧
      s' = { s with
        extlinux := { s.extlinux with isSuccess := true }
        ramdisk := some (tegrablFmRead env.contents.handle (some path) env.memory.ramdisk 0
          ramdiskMaxSize).memory
        ramdiskSize := (tegrablFmRead env.contents.handle (some path) env.memory.ramdisk 0
          ramdiskMaxSize).size } := by
  obtain ⟨_, mid, ran, rest⟩ := Prog.bind_eq_ok run
  unfold extlinuxBootLoadRamdisk at ran
  rw [Prog.bind_ok (rfl : Prog.read s = some (.ok s, s)), initrd] at ran
  obtain ⟨_, _, placed, ran⟩ := Prog.bind_eq_ok ran
  obtain ⟨_, _, checked, ran⟩ := Prog.bind_eq_ok ran
  cases placed
  cases ended : (tegrablFmRead env.contents.handle (some path) env.memory.ramdisk 0
      ramdiskMaxSize).error with
  | error error =>
    rw [ended] at checked
    cases checked
  | ok _ =>
    rw [ended] at checked
    cases checked
    cases ran
    cases rest
    exact ⟨rfl, rfl⟩

theorem finishExtlinux_both (whole : contents.handle.WholeReads) :
    BothOk (fun s t => ∃ entry, SameLoad contents.handle entry s t)
      (finishExtlinux ⟨contents, console, memory⟩) (finishExtlinux ⟨contents, console, memory'⟩)
      (fun _ _ => Delivered) := by
  rintro s t ⟨entry, same⟩ _ _ s' t' run runToo
  obtain ⟨mount, mounted⟩ := Option.ne_none_iff_exists'.mp same.mounted
  obtain ⟨path, initrd⟩ := Option.ne_none_iff_exists'.mp same.initrd
  obtain ⟨success, rfl⟩ := finishExtlinux_run (same.entry.ramdiskPath.1.trans initrd) run
  obtain ⟨-, rfl⟩ := finishExtlinux_run (same.entry.ramdiskPath.2.trans initrd) runToo
  have size := (tegrablFmRead_congr contents.handle (some path) memory.ramdisk memory'.ramdisk 0
    ramdiskMaxSize).2
  have agree := tegrablFmRead_agree memory'.ramdisk mounted whole success
  rw [Nat.zero_add] at agree
  refine ⟨rfl, fun _ => ⟨same.entry.bootEntry, ?_⟩, ⟨same.image.bytes, same.image.agree⟩,
    ⟨same.dtb.bytes, same.dtb.agree⟩, .inr ⟨same.size, size, ?_⟩⟩
  · exact same.entry.bootArgs.1.trans same.entry.bootArgs.2.symm
  · show some _ = some _
    rw [← size]
    exact congrArg some (agree.load (Nat.le_refl 0) (Nat.le_of_eq (Nat.zero_add _)))

end Finish

/-! ### Loads from partitions and from the network -/

structure ImagePlaced (image : List Byte) (state : BootState) : Prop where
  placed : Placed image state.bootImg
  bytes : state.imageBytes = image.length - sizeofHeader

structure DtbPlaced (dtb : List Byte) (state : BootState) : Prop where
  placed : ∃ mem, state.kernelDtb = some mem ∧ Placed dtb mem
  bytes : state.dtbBytes = dtb.length - sizeofHeader

def LeftBy (platform : Platform) (binType : BitVec 32) (binMaxSize : Nat) (data : List Byte)
    (mem : ByteMem) : Prop :=
  ∃ before authenticated, Placed data before ∧ tegrablValidateBinary platform.engine
    platform.minRatchet binType binMaxSize before 0 = .ok ⟨mem, authenticated⟩

structure ImageValidated (platform : Platform) (image : List Byte) (state : BootState) : Prop where
  left : LeftBy platform tegrablBinaryKernel bootImageMaxSize image state.bootImg
  bytes : state.imageBytes = image.length - sizeofHeader

structure DtbValidated (platform : Platform) (dtb : List Byte) (state : BootState) : Prop where
  left : ∀ mem, state.kernelDtb = some mem →
    LeftBy platform tegrablBinaryKernelDtb dtbMaxSize dtb mem
  bytes : state.dtbBytes = dtb.length - sizeofHeader

structure FromPartitions (platform : Platform) (image dtb : List Byte) (state : BootState) :
    Prop where
  imageFits : SignedFits bootImageMaxSize image
  dtbFits : SignedFits dtbMaxSize dtb
  imageValidated : ImageValidated platform image state
  dtbValidated : DtbValidated platform dtb state
  header : hasBootImgHdr state.bootImg = true

section Partitions

variable {platform : Platform} {image dtb : List Byte}

theorem LeftBy.agree {binType : BitVec 32} {binMaxSize : Nat} {data : List Byte}
    (signed : SignedFits binMaxSize data) (word : binMaxSize < 2 ^ 32) {first second : ByteMem}
    (left : LeftBy platform binType binMaxSize data first)
    (right : LeftBy platform binType binMaxSize data second) :
    AgreeOn 0 (data.length - sizeofHeader) first second := by
  obtain ⟨before, _, placed, validated⟩ := left
  obtain ⟨before', _, placed', validated'⟩ := right
  have alike := signed.alike word platform.engine platform.minRatchet binType placed placed'
  rw [validated, validated'] at alike
  exact alike.2

theorem FromPartitions.delivered {s t : BootState} (left : FromPartitions platform image dtb s)
    (right : FromPartitions platform image dtb t) (fresh : Fresh s) (freshToo : Fresh t) :
    Delivered s t := by
  have image := left.imageValidated
  have dtb := left.dtbValidated
  refine ⟨fresh.1.trans freshToo.1.symm, fun set => ?_,
    ⟨image.bytes.trans right.imageValidated.bytes.symm, ?_⟩,
    ⟨dtb.bytes.trans right.dtbValidated.bytes.symm, fun first second there thereToo => ?_⟩,
    .inl left.header⟩
  · rw [fresh.1] at set
    cases set
  · rw [image.bytes]
    exact LeftBy.agree left.imageFits (by decide) image.left right.imageValidated.left
  · rw [dtb.bytes]
    exact LeftBy.agree left.dtbFits (by decide) (dtb.left first there)
      (right.dtbValidated.left second thereToo)

theorem placeImage_placed (image : List Byte) :
    Triple (fun _ => True) (placeImage image) (fun _ => ImagePlaced image) fun _ => True :=
  Triple.modify fun _ _ => ⟨placed_store image _, rfl⟩

theorem placeDtb_placed (ram : ByteMem) (dtb : List Byte) {kept : BootState → Prop}
    (frame : ∀ state kernelDtb dtbBytes, kept state → kept { state with kernelDtb, dtbBytes }) :
    Triple kept (placeDtb ram dtb) (fun _ state => kept state ∧ DtbPlaced dtb state)
      fun _ => True :=
  Triple.modify fun state holds => ⟨frame state _ _ holds, ⟨_, rfl, placed_store dtb ram⟩, rfl⟩

theorem validateImage_validated :
    Triple (ImagePlaced image) (validateImage platform) (fun _ => ImageValidated platform image)
      fun _ => True := by
  refine Triple.readThen fun state placed => ?_
  refine Triple.ofResultThen (fun _ _ => trivial) fun outcome validated => Triple.modify ?_
  rintro _ rfl
  exact ⟨⟨_, outcome.authenticated, placed.placed, validated⟩, placed.bytes⟩

theorem validateImage_dtb :
    Triple (DtbPlaced dtb) (validateImage platform) (fun _ => DtbPlaced dtb) fun _ => True :=
  Triple.readAny fun _ => Triple.ofResultThen (fun _ _ => trivial) fun _ _ =>
    Triple.modify fun _ placed => ⟨placed.placed, placed.bytes⟩

theorem validateDtb_validated :
    Triple (fun state => ImageValidated platform image state ∧ DtbPlaced dtb state)
      (validateDtb platform)
      (fun _ state => ImageValidated platform image state ∧ DtbValidated platform dtb state)
      fun _ => True := by
  refine Triple.readThen fun state ⟨image, placed⟩ => ?_
  obtain ⟨mem, there, bytes⟩ := placed.placed
  refine Triple.ofOptionThen fun mem' found => ?_
  obtain rfl := Option.some.inj (there.symm.trans found)
  refine Triple.ofResultThen (fun _ _ => trivial) fun outcome validated => Triple.modify ?_
  rintro _ rfl
  refine ⟨⟨image.left, image.bytes⟩, fun mem left => ?_, placed.bytes⟩
  cases left
  exact ⟨_, outcome.authenticated, bytes, validated⟩

theorem verifyImage_from (imageFits : SignedFits bootImageMaxSize image)
    (dtbFits : SignedFits dtbMaxSize dtb) (imgSize : Nat) :
    Triple (fun state => ImageValidated platform image state ∧ DtbValidated platform dtb state)
      (verifyImage imgSize) (fun _ => FromPartitions platform image dtb) fun _ => True := by
  rintro state ⟨imageValidated, dtbValidated⟩ x run
  have checked : some (tegrablVerifyBootImgHdr state.bootImg (BitVec.ofNat 32 imgSize), state) =
      some x := run
  cases ended : tegrablVerifyBootImgHdr state.bootImg (BitVec.ofNat 32 imgSize) with
  | error error =>
    rw [ended] at checked
    cases checked
    exact trivial
  | ok _ =>
    rw [ended] at checked
    cases checked
    exact ⟨imageFits, dtbFits, imageValidated, dtbValidated, (verify_ok ended).1⟩

theorem checkImage_from (imageFits : SignedFits bootImageMaxSize image)
    (dtbFits : SignedFits dtbMaxSize dtb) (imgSize : Nat) :
    Triple (fun state => ImagePlaced image state ∧ DtbPlaced dtb state)
      (checkImage platform imgSize) (fun _ => FromPartitions platform image dtb)
      fun _ => True := by
  refine Triple.bind ?_ fun _ => Triple.bind validateDtb_validated fun _ =>
    verifyImage_from imageFits dtbFits imgSize
  exact (validateImage_validated.and validateImage_dtb).noError (fun _ _ => id)

theorem usbSdLoadFromPartition_from (env : AttemptEnv)
    (clean : CleanBinaries platform env.contents .usb) :
    Triple (fun _ => True) (usbSdLoadFromPartition platform env)
      (fun _ => FromPartitions platform
        (tegrablFmReadPartition (env.contents.partitions "kernel".toList) bootImageMaxSize).1
        (tegrablFmReadPartition (env.contents.partitions "kernel-dtb".toList) dtbMaxSize).1)
      fun _ => True := by
  refine Triple.bind (Triple.trivial _) fun _ => Triple.bind (Triple.trivial _) fun _ => ?_
  refine Triple.bind (placeImage_placed _) fun _ => ?_
  refine Triple.ofResultThen (fun _ _ => trivial) fun imgSize imageRead => ?_
  refine Triple.bind (placeDtb_placed _ _ fun _ _ _ placed => ⟨placed.placed, placed.bytes⟩)
    fun _ => ?_
  refine Triple.ofResultThen (fun _ _ => trivial) fun dtbSize dtbRead => ?_
  exact checkImage_from (clean.1 imgSize imageRead) (clean.2 dtbSize dtbRead) imgSize

theorem netBoot_from (env : AttemptEnv) (clean : CleanBinaries platform env.contents .network) :
    Triple (fun _ => True) (netBootLoadKernelAndDtb platform env)
      (fun _ => FromPartitions platform env.contents.tftp.bootImage env.contents.tftp.dtb)
      fun _ => True := by
  refine Triple.ite (fun _ => Triple.fail fun _ _ => trivial) fun _ => ?_
  refine Triple.bind (Triple.trivial _) fun _ => Triple.bind (Triple.trivial _) fun _ => ?_
  refine Triple.bind (placeDtb_placed _ _ fun _ _ _ _ => trivial) fun _ => ?_
  have image : Triple (fun state => True ∧ DtbPlaced env.contents.tftp.dtb state)
      (placeImage env.contents.tftp.bootImage)
      (fun _ state => ImagePlaced env.contents.tftp.bootImage state ∧
        DtbPlaced env.contents.tftp.dtb state) fun _ => True :=
    Triple.modify fun _ placed =>
      ⟨⟨placed_store _ _, rfl⟩, placed.2.placed, placed.2.bytes⟩
  refine Triple.bind image fun _ => ?_
  refine Triple.ofResultThen (fun _ _ => trivial) fun _ downloaded => ?_
  exact checkImage_from (clean.1 _ downloaded) (clean.2 _ downloaded) _

theorem tegrablLoadFromPartition_from (env : AttemptEnv)
    (clean : CleanBinaries platform env.contents .builtin) :
    Triple (fun _ => True) (tegrablLoadFromPartition platform env)
      (fun _ => FromPartitions platform (env.contents.loadBinary (imageKind platform)).data
        (env.contents.loadBinary (dtbKind platform)).data) fun _ => True := by
  refine Triple.ite (fun _ => Triple.ite (fun _ => Triple.fail fun _ _ => trivial)
    fun _ => Triple.stuck) fun _ => ?_
  refine Triple.readAny fun _ => Triple.ite (fun _ => Triple.fail fun _ _ => trivial) fun _ => ?_
  refine Triple.bind (Triple.trivial _) fun _ => Triple.bind (placeImage_placed _) fun _ => ?_
  refine Triple.ofResultThen (fun _ _ => trivial) fun _ imageRead => ?_
  have set : ∀ image, Triple (ImagePlaced image)
      (modify fun state => { state with bootImgSet := true } : Prog ErrorValue BootState Unit)
      (fun _ => ImagePlaced image) fun _ => True :=
    fun image => Triple.modify fun _ placed => ⟨placed.placed, placed.bytes⟩
  refine Triple.bind (set _) fun _ => Triple.bind validateImage_validated fun _ => ?_
  refine Triple.ofResultThen (fun _ _ => trivial) fun _ dtbRead => ?_
  refine Triple.bind (placeDtb_placed _ _ fun _ _ _ image => ⟨image.left, image.bytes⟩) fun _ => ?_
  refine Triple.bind validateDtb_validated fun _ => ?_
  exact verifyImage_from (clean.1 _ imageRead) (clean.2 _ dtbRead) _

end Partitions

/-! ### The attempt that succeeds -/

section Attempts

variable {platform : Platform} {contents : MediumContents} {console : List ConsoleRead}
  {memory memory' : AttemptMemory} {image dtb : List Byte} {p q : Prog ErrorValue BootState Unit}

abbrev BothFresh (s t : BootState) : Prop := Fresh s ∧ Fresh t

theorem delivered_of_partitions
    (first : Triple (fun _ => True) p (fun _ => FromPartitions platform image dtb) fun _ => True)
    (second : Triple (fun _ => True) q (fun _ => FromPartitions platform image dtb) fun _ => True)
    (fresh : Keeps Fresh p) (freshToo : Keeps Fresh q) :
    BothOk BothFresh p q (fun _ _ => Delivered) :=
  BothOk.of_triples (first.and fresh) (second.and freshToo)
    (fun _ _ both => ⟨⟨trivial, both.1⟩, trivial, both.2⟩)
    fun _ _ _ _ left right => left.1.delivered right.1 left.2 right.2

theorem ofResult_both (result : Result Unit) :
    BothOk BothFresh (ofResult result : Prog ErrorValue BootState Unit) (ofResult result)
      fun _ _ => BothFresh :=
  (TwoRun.ofResult (fun _ _ _ => id) fun _ _ => id).bothOk

section

variable (clean : CleanRootfs platform contents console)
include clean

theorem extlinuxOr_both (loaded : Bool)
    (fallback : BothOk BothFresh p q fun _ _ => Delivered) :
    BothOk (fun s t => (loaded = true → ∃ entry, SameLoad contents.handle entry s t) ∧
        BothFresh s t)
      (if loaded then finishExtlinux ⟨contents, console, memory⟩ else p)
      (if loaded then finishExtlinux ⟨contents, console, memory'⟩ else q)
      fun _ _ => Delivered := by
  refine BothOk.ite (fun yes => ?_) fun _ => ?_
  · exact fun s t start => finishExtlinux_both clean.whole s t (start.1 yes)
  · exact fun s t start => fallback s t start.2

variable (ample : (AttemptEnv.mk contents console memory).Ample)
  (ample' : (AttemptEnv.mk contents console memory').Ample)

include ample ample'

theorem tryExtlinux_both :
    BothOk BothFresh (tryExtlinux platform ⟨contents, console, memory⟩)
      (tryExtlinux platform ⟨contents, console, memory'⟩)
      (fun a b s t => a = b ∧ (a = true → ∃ entry, SameLoad contents.handle entry s t) ∧
        BothFresh s t) := by
  have runs := (tryExtlinux_agree clean ample ample').withTriples
    (tryExtlinux_fresh platform ⟨contents, console, memory⟩)
    (tryExtlinux_fresh platform ⟨contents, console, memory'⟩)
  exact (runs.mono (fun _ _ both => ⟨trivial, both⟩)
    (fun _ _ _ _ reached => ⟨reached.1.1, reached.1.2, reached.2⟩) fun _ _ => id).bothOk

theorem usbSdBoot_both (binaries : CleanBinaries platform contents .usb) :
    BothOk BothFresh (usbSdBootLoadKernelAndDtb platform ⟨contents, console, memory⟩)
      (usbSdBootLoadKernelAndDtb platform ⟨contents, console, memory'⟩) fun _ _ => Delivered := by
  refine BothOk.bind (ofResult_both _) fun _ _ => BothOk.ite (fun _ => BothOk.fail) fun _ => ?_
  have there : memory.handleAllocated = true := ample.handle
  have there' : memory'.handleAllocated = true := ample'.handle
  dsimp only
  rw [there, there', Bool.not_true, if_neg Bool.false_ne_true, if_neg Bool.false_ne_true]
  have tried : BothOk BothFresh (tryMountedExtlinux platform ⟨contents, console, memory⟩)
      (tryMountedExtlinux platform ⟨contents, console, memory'⟩)
      (fun a b s t => a = b ∧ (a = true → ∃ entry, SameLoad contents.handle entry s t) ∧
        BothFresh s t) := by
    refine BothOk.ite (fun _ => ?_) fun _ => tryExtlinux_both clean ample ample'
    exact (TwoRun.pure fun _ _ both => ⟨rfl, nofun, both⟩ :
      TwoRun _ _ _ _ fun _ _ => True).bothOk
  refine BothOk.bind tried fun loaded _ => BothOk.fact ?_
  rintro rfl
  refine extlinuxOr_both clean loaded (BothOk.ite (fun _ => BothOk.fail) fun _ => ?_)
  exact delivered_of_partitions (usbSdLoadFromPartition_from _ binaries)
    (usbSdLoadFromPartition_from _ binaries) (usbSdLoadFromPartition_fresh _ _)
    (usbSdLoadFromPartition_fresh _ _)

theorem fixedBoot_both (binaries : CleanBinaries platform contents .builtin) :
    BothOk BothFresh (fixedBootLoadKernelAndDtb platform ⟨contents, console, memory⟩)
      (fixedBootLoadKernelAndDtb platform ⟨contents, console, memory'⟩) fun _ _ => Delivered := by
  refine BothOk.ite (fun _ => BothOk.fail) fun _ => ?_
  have there : memory.handleAllocated = true := ample.handle
  have there' : memory'.handleAllocated = true := ample'.handle
  dsimp only
  rw [there, there', Bool.not_true, if_neg nofun, if_neg nofun]
  refine BothOk.bind (ofResult_both _) fun _ _ => ?_
  refine BothOk.bind (tryExtlinux_both clean ample ample') fun loaded _ => BothOk.fact ?_
  rintro rfl
  refine extlinuxOr_both clean loaded ?_
  -- A failure of the partitions resets the device or is an error: no value comes out of it.
  have resets : ∀ {pre err : BootState → Prop} {post : Unit → BootState → Prop} (env : AttemptEnv),
      Triple pre (tegrablLoadFromPartition platform env) post err →
      Triple pre (recover (tegrablLoadFromPartition platform env) fun error =>
        if platform.abSlot then stuck else fail error) post err := fun env triple =>
    Triple.recover triple fun _ => Triple.ite (fun _ => Triple.stuck) fun _ =>
      Keeps.fail
  exact delivered_of_partitions (resets _ (tegrablLoadFromPartition_from _ binaries))
    (resets _ (tegrablLoadFromPartition_from _ binaries))
    (resets _ (tegrablLoadFromPartition_fresh _ _)) (resets _ (tegrablLoadFromPartition_fresh _ _))

end

theorem attempt_both {medium : Medium} (clean : Clean platform medium contents console)
    (ample : (AttemptEnv.mk contents console memory).Ample)
    (ample' : (AttemptEnv.mk contents console memory').Ample) :
    BothOk BothFresh (attempt platform ⟨contents, console, memory⟩ medium)
      (attempt platform ⟨contents, console, memory'⟩ medium) fun _ _ => Delivered := by
  have binaries := clean.binaries
  cases medium with
  | network =>
    exact delivered_of_partitions (netBoot_from _ binaries) (netBoot_from _ binaries)
      (netBoot_fresh _ _) (netBoot_fresh _ _)
  | sd | usb => exact usbSdBoot_both (clean.rootfs nofun) ample ample' binaries
  | builtin => exact fixedBoot_both (clean.rootfs nofun) ample ample' binaries

end Attempts

/-! ### The hand-over -/

structure BootState.Inside (state : BootState) : Prop where
  image : ImageInside state.bootImg state.kernelSize state.imageBytes
  dtb : ∀ dtb, state.kernelDtb = some dtb → 8 ≤ state.dtbBytes ∧ fdtTotalsize dtb ≤ state.dtbBytes

section HandOver

variable {platform : Platform} {s t : BootState} {handed handed' : HandOver}

theorem fdtTotalsize_congr {first second : ByteMem} {n : Nat} (agree : AgreeOn 0 n first second)
    (header : 8 ≤ n) : fdtTotalsize first = fdtTotalsize second := by
  unfold fdtTotalsize
  rw [agree 4 (by omega) (by omega), agree 5 (by omega) (by omega), agree 6 (by omega) (by omega),
    agree 7 (by omega) (by omega)]

theorem Delivered.kernel (delivered : Delivered s t) (inside : s.Inside) :
    extractKernel platform.decompressors s.bootImg s.kernelSize =
      extractKernel platform.decompressors t.bootImg t.kernelSize := by
  rw [extractKernel_congr delivered.image.agree inside.image]
  obtain headed | ⟨size, -⟩ := delivered.raw
  · have headedToo := hasBootImgHdr_congr delivered.image.agree inside.image
    rw [headed] at headedToo
    unfold extractKernel kernelPlace
    rw [← headedToo, if_pos rfl, if_pos rfl]
  · rw [size]

theorem Delivered.ramdisk (delivered : Delivered s t) (inside : s.Inside) :
    handedRamdisk s = handedRamdisk t := by
  have agree := delivered.image.agree
  have headedToo := hasBootImgHdr_congr agree inside.image
  unfold handedRamdisk
  rw [← headedToo]
  by_cases headed : hasBootImgHdr s.bootImg = true
  · have length : ramdisksize s.bootImg = ramdisksize t.bootImg :=
      headerWord_congr agree inside.image headed (by decide : 16 ≤ 36)
    rw [if_pos headed, if_pos headed, extractRamdisk_congr agree inside.image headed, length,
      cmdline_congr agree inside.image headed]
  · obtain ⟨-, size, ramdisk⟩ := delivered.raw.resolve_left headed
    rw [if_neg headed, if_neg headed, ramdisk, size]

theorem Delivered.entries (delivered : Delivered s t) :
    (if s.extlinux.isSuccess then some s.extlinux.bootEntry else none) =
        (if t.extlinux.isSuccess then some t.extlinux.bootEntry else none) ∧
      (if s.extlinux.isSuccess then s.extlinux.bootArgs else none) =
        if t.extlinux.isSuccess then t.extlinux.bootArgs else none := by
  rw [← delivered.status]
  by_cases success : s.extlinux.isSuccess = true
  · obtain ⟨entry, args⟩ := delivered.entry success
    rw [if_pos success, if_pos success, if_pos success, if_pos success, entry, args]
    exact ⟨rfl, rfl⟩
  · rw [if_neg success, if_neg success, if_neg success, if_neg success]
    exact ⟨rfl, rfl⟩

theorem Delivered.handOver (delivered : Delivered s t) (inside : s.Inside)
    (given : handOver platform s = some (.ok handed))
    (givenToo : handOver platform t = some (.ok handed')) : handed = handed' := by
  unfold LinuxBoot.handOver at given givenToo
  split at given
  · next dtb set found =>
    split at givenToo
    · next dtb' set' found' =>
      obtain ⟨header, within⟩ := inside.dtb dtb found
      have agree := delivered.dtb.agree dtb dtb' found found'
      have total := fdtTotalsize_congr agree header
      have tree : dtb.load 0 (fdtTotalsize dtb) = dtb'.load 0 (fdtTotalsize dtb') := by
        rw [← total]
        exact agree.load (Nat.le_refl 0) (by omega)
      obtain ⟨entry, args⟩ := delivered.entries
      dsimp only at given givenToo
      rw [← delivered.kernel inside, ← delivered.ramdisk inside, ← tree, ← entry, ← args] at givenToo
      exact Except.ok.inj (Option.some.inj (given.symm.trans givenToo))
    · cases givenToo
  · cases given

/-- **Clean contents are handed over whatever has failed before.** Two boots, each over its own boot
order and with its own failed attempts, end with an attempt of one medium with the same contents and
the same answers at the console: they hand over the same. -/
theorem handOver_of_clean {world world' : Nat → AttemptEnv} {reg reg' : BitVec 32}
    {order order' : List Byte} {bootImg bootImg' : ByteMem} {boot boot' : Boot} {medium : Medium}
    {contents : MediumContents} {console : List ConsoleRead} {memory memory' : AttemptMemory}
    (booted : tegrablLoadKernelAndDtb platform world reg order bootImg = some (boot, .ok handed))
    (bootedToo : tegrablLoadKernelAndDtb platform world' reg' order' bootImg' =
      some (boot', .ok handed'))
    (last : boot.tried.getLast? = some (medium, ⟨contents, console, memory⟩))
    (lastToo : boot'.tried.getLast? = some (medium, ⟨contents, console, memory'⟩))
    (clean : Clean platform medium contents console)
    (ample : (AttemptEnv.mk contents console memory).Ample)
    (ampleToo : (AttemptEnv.mk contents console memory').Ample) (inside : boot.state.Inside) :
    handed = handed' := by
  obtain ⟨⟨medium₁, env₁, before, last₁, fresh, ran⟩, given⟩ := loadKernelAndDtb_history booted
  obtain ⟨⟨medium₂, env₂, before', last₂, fresh', ran'⟩, given'⟩ := loadKernelAndDtb_history bootedToo
  cases last.symm.trans last₁
  cases lastToo.symm.trans last₂
  have delivered := attempt_both clean ample ampleToo before before' ⟨fresh, fresh'⟩ () () _ _ ran ran'
  exact delivered.handOver inside given given'

end HandOver

/-! ### Two boots from one USB medium -/

def refusingEngine : CryptoEngine where
  bootSecurityInfo := 0
  headerHashAllocated := true
  payloadHashAllocated := true
  validatePcp := fun _ => authError .verifyFailed 0
  computeSha2 := fun _ => authError .verifyFailed 0
  rsaPssVerify := fun _ _ _ _ => authError .verifyFailed 0
  ecdsaVerify := fun _ _ _ => authError .verifyFailed 0
  ed25519Verify := fun _ _ _ => authError .verifyFailed 0

def openDevice : Platform where
  engine := refusingEngine
  minRatchet := fun _ => 0
  odmProduction := false
  abSlot := false
  loadFromStorage := true
  memoryImage := false
  recoveryMode := false
  decompressors := fun _ _ => none

def rootfs (files : List (String × List Byte)) : MediumContents where
  initDevice := .ok ()
  opens := true
  publish := .ok ()
  handle := ⟨some "/m".toList, fun path =>
    match files.find? fun file => decide ("/m".toList ++ file.1.toList = path) with
    | some file => .whole file.2
    | none => .missing⟩
  published := false
  partitions := fun _ => ⟨tegrablError .partitionManager .notFound 0, 0, .ok (), []⟩
  loadBinary := fun _ => ⟨tegrablError .loader .notFound 0, []⟩
  tftp := ⟨false, .ok (), [], []⟩

def plainMemory (fill : Byte) : AttemptMemory :=
  ⟨true, ⟨some fun _ => 0, fun _ => true⟩, true, fun _ => fill, fun _ => fill, fun _ => fill⟩

def bytesOf (text : String) : List Byte := text.toList.map fun c => BitVec.ofNat 8 c.toNat

def emptyTree : List Byte := [0xD0, 0x0D, 0xFE, 0xED, 0, 0, 0, 8]

variable (wanted : String)

def usbFiles : List (String × List Byte) :=
  [("/boot/extlinux/extlinux.conf", bytesOf ("TIMEOUT 30\nDEFAULT " ++ wanted ++
      "\nLABEL a\nLINUX /a\nFDT /d\nINITRD /r\nLABEL b\nLINUX /b\nFDT /d\nINITRD /r\n")),
    ("/a", List.replicate 8 1), ("/b", List.replicate 8 2), ("/d", emptyTree), ("/r", [7])]

def sdFiles : List (String × List Byte) :=
  [("/boot/extlinux/extlinux.conf", bytesOf
      "TIMEOUT 30\nDEFAULT b\nLABEL a\nLABEL b\nLINUX /a\nFDT /d\nINITRD /r\n"),
    ("/a", List.replicate 8 3), ("/d", emptyTree)]

def nobody : List ConsoleRead := [fun _ => none]

def usbEnv (fill : Byte) : AttemptEnv :=
  ⟨rootfs (usbFiles wanted), nobody, plainMemory fill⟩

def usbBoot : Option (Boot × Result HandOver) :=
  tegrablLoadKernelAndDtb openDevice (fun _ => usbEnv wanted 0) 0 [3, 0] fun _ => 0

def sdUsbBoot : Option (Boot × Result HandOver) :=
  tegrablLoadKernelAndDtb openDevice
    (fun n => if n = 0 then ⟨rootfs sdFiles, nobody, plainMemory 0⟩ else usbEnv wanted 0xFF) 0
    [2, 3, 0] fun _ => 0

instance (image : ByteMem) (kernelBinSize size : Nat) :
    Decidable (ImageInside image kernelBinSize size) :=
  decidable_of_iff (8 ≤ size ∧ (hasBootImgHdr image = true → 576 ≤ size) ∧
      (hasBootImgHdr image = true → ramdiskOffset image + (ramdisksize image).toNat ≤ size) ∧
      (kernelPlace image kernelBinSize).1 + 2 ≤ size ∧
      (kernelPlace image kernelBinSize).1 + (kernelPlace image kernelBinSize).2 ≤ size)
    ⟨fun ⟨magic, header, ramdisk, compression, kernel⟩ =>
        ⟨magic, header, ramdisk, compression, kernel⟩,
      fun inside =>
        ⟨inside.magic, inside.header, inside.ramdisk, inside.compression, inside.kernel⟩⟩

instance (state : BootState) : Decidable state.Inside :=
  decidable_of_iff (ImageInside state.bootImg state.kernelSize state.imageBytes ∧
      (state.kernelDtb.all fun dtb =>
        decide (8 ≤ state.dtbBytes ∧ fdtTotalsize dtb ≤ state.dtbBytes)) = true)
    ⟨fun ⟨image, dtb⟩ => ⟨image, fun tree found => by
        rw [found] at dtb
        exact of_decide_eq_true dtb⟩,
      fun inside => ⟨inside.image, by
        cases found : state.kernelDtb with
        | none => rfl
        | some tree => exact decide_eq_true (inside.dtb tree found)⟩⟩

def summary (booted : Option (Boot × Result HandOver)) :
    Option (List Medium × Bool × Result HandOver) :=
  booted.map fun ended => (ended.1.tried.map Prod.fst, decide ended.1.state.Inside, ended.2)

/-- **The default entry of a failed medium.** `DEFAULT` of the USB medium names no section. By
itself it boots its first section; after the SD medium, whose second section could not be booted, it
boots its second one. -/
theorem stale_default_entry :
    ∃ first second, summary (usbBoot "x") = some ([.usb], true, .ok first) ∧
      summary (sdUsbBoot "x") = some ([.sd, .usb], true, .ok second) ∧
      first.entry = some 0 ∧ second.entry = some 1 ∧ first.kernel ≠ second.kernel :=
  ⟨⟨some 0, List.replicate 8 1, 8, emptyTree, some [7], 1, none, none⟩,
    ⟨some 1, List.replicate 8 2, 8, emptyTree, some [7], 1, none, none⟩,
    by decide +kernel, by decide +kernel, rfl, rfl, by decide⟩

theorem booted_of_summary {platform : Platform} {world : Nat → AttemptEnv} {reg : BitVec 32}
    {order : List Byte} {bootImg : ByteMem} {media : List Medium} {medium : Medium}
    {handed : HandOver}
    (summed : summary (tegrablLoadKernelAndDtb platform world reg order bootImg) =
      some (media ++ [medium], true, .ok handed)) :
    ∃ boot, tegrablLoadKernelAndDtb platform world reg order bootImg = some (boot, .ok handed) ∧
      boot.tried.getLast? = some (medium, world media.length) ∧ boot.state.Inside := by
  obtain ⟨⟨boot, result⟩, booted, same⟩ := Option.map_eq_some_iff.mp summed
  obtain ⟨tried, same⟩ := Prod.mk.inj same
  obtain ⟨inside, rfl⟩ := Prod.mk.inj same
  refine ⟨boot, booted, ?_, of_decide_eq_true inside⟩
  have met := loadKernelAndDtb_met booted
  have length : boot.tried.length = media.length + 1 := by
    rw [← List.length_map Prod.fst, tried, List.length_append, List.length_singleton]
  have first : (boot.tried.map Prod.fst).getLast? = some medium := by
    rw [tried]
    exact List.getLast?_concat
  have second : (boot.tried.map Prod.snd).getLast? = some (world media.length) := by
    rw [met, length, List.range_succ, List.map_append]
    exact List.getLast?_concat
  rw [List.getLast?_map] at first second
  obtain ⟨last, found, rfl⟩ := Option.map_eq_some_iff.mp first
  rw [found] at second
  rw [found, ← Option.some.inj second]

instance (mem : ByteMem) (header size : Nat) : Decidable (HeaderFits mem header size) :=
  inferInstanceAs (Decidable (_ ∧ _))

instance (handle : FmHandle) (binMaxSize : Nat) (binPath : Option Text) :
    Decidable (SignatureFits handle binMaxSize binPath) :=
  decidable_of_iff ((binPath.all fun path =>
      decide (HeaderFits (loadSigFile handle path (fun _ => 0) 0).2 0
        (readBinary handle binMaxSize path (fun _ => 0) 0).size)) = true)
    ⟨fun fits path found => by
        rw [found] at fits
        exact of_decide_eq_true fits,
      fun fits => by
        cases found : binPath with
        | none => rfl
        | some path => exact decide_eq_true (fits path found)⟩

theorem rootfs_whole (files : List (String × List Byte)) : (rootfs files).handle.WholeReads := by
  intro path
  simp only [rootfs]
  split <;> rfl

theorem usb_clean : Clean openDevice .usb (rootfs (usbFiles "a")) nobody where
  rootfs := fun _ =>
    { whole := rootfs_whole _
      refuses := by decide +kernel
      conf := fun _ =>
        { written := by decide +kernel
          named := by decide +kernel
          initrd := fun _ _ entry _ found =>
            have all : ∀ entry ∈ (confFile (rootfs (usbFiles "a")).handle.confText).sections,
              entry.initrdPath ≠ none := by decide +kernel
            all entry (List.mem_of_getElem? found)
          kernel := by decide +kernel
          dtb := by decide +kernel }
      kernel := nofun
      dtb := nofun }
  binaries := ⟨nofun, nofun⟩

theorem usb_text : cString (tegrablFmRead (rootfs (usbFiles "a")).handle (some extlinuxConfPath)
    (fun _ => 0) 0 extlinuxConfMaxSize).memory 0 extlinuxConfMaxSize =
      some (rootfs (usbFiles "a")).handle.confText := by
  decide +kernel

theorem usb_ample (fill : Byte) : (usbEnv "a" fill).Ample where
  handle := rfl
  bootImg := rfl
  sections := fun _ => rfl
  conf := ⟨fun _ => 0, rfl, fun _ => usb_text⟩

/-- It boots the same by itself and after the failed SD medium, whatever the memory holds. -/
theorem handOver_of_clean_usb : ∃ boot boot' handed handed',
    usbBoot "a" = some (boot, .ok handed) ∧ sdUsbBoot "a" = some (boot', .ok handed') ∧
      handed = handed' := by
  have alone : summary (usbBoot "a") = some ([] ++ [.usb], true,
      .ok ⟨some 0, List.replicate 8 1, 8, emptyTree, some [7], 1, none, none⟩) := by decide +kernel
  have behind : summary (sdUsbBoot "a") = some ([.sd] ++ [.usb], true,
      .ok ⟨some 0, List.replicate 8 1, 8, emptyTree, some [7], 1, none, none⟩) := by decide +kernel
  obtain ⟨boot, booted, last, inside⟩ := booted_of_summary alone
  obtain ⟨boot', booted', last', -⟩ := booted_of_summary behind
  exact ⟨boot, boot', _, _, booted, booted', handOver_of_clean booted booted' last last' usb_clean
    (usb_ample 0) (usb_ample 0xFF) inside⟩

end Cboot.LinuxBoot
