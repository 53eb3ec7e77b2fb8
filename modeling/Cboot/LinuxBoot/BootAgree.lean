/-
**One configuration in two boots.**

Two boots try the root file system of one medium, with whatever earlier attempts have left in the
shared variables. For clean contents they end alike: both load the kernel and the device tree of one
section of `extlinux.conf`, or neither does (`tryExtlinux_agree`). The contents are clean
(`CleanRootfs`) when

* `DEFAULT` names a section, the chosen section has an `INITRD`, and the text of the file ends with
  the file in the buffer it is read to;
* files are read completely, and signed headers fit what they head.

None of these is checked by the code.
-/

import Cboot.LinuxBoot.BootHistory

namespace Cboot.LinuxBoot

open Auth Prog

/-! ### Clean contents -/

variable (handle : FmHandle)

def FmHandle.ConfReadable : Prop :=
  (tegrablFmRead handle (some extlinuxConfPath) (fun _ => 0) 0 extlinuxConfMaxSize).error = .ok ()

def FmHandle.confText : Text :=
  ((handle.files (handle.mountPath.getD [] ++ extlinuxConfPath)).data.takeWhile (· ≠ 0)).map
    fun byte => Char.ofNat byte.toNat

def SignatureFits (binMaxSize : Nat) (binPath : Option Text) : Prop :=
  ∀ path, binPath = some path → HeaderFits (loadSigFile handle path (fun _ => 0) 0).2 0
    (readBinary handle binMaxSize path (fun _ => 0) 0).size

def ReadFits {α : Type} (binMaxSize : Nat) (data : List Byte) (error : Result α) : Prop :=
  ∀ a, error = .ok a → SignedFits binMaxSize data

structure CleanConf (console : List ConsoleRead) : Prop where
  written : strtokLines handle.confText ≠ []
  named : (confFile handle.confText).defaultEntry ≠ none
  initrd : ∀ old chosen entry, (confFile handle.confText).choice old console = some chosen →
    (confFile handle.confText).sections[chosen]? = some entry → entry.initrdPath ≠ none
  kernel : ∀ entry ∈ (confFile handle.confText).sections,
    SignatureFits handle bootImageMaxSize entry.linuxPath
  dtb : ∀ entry ∈ (confFile handle.confText).sections,
    SignatureFits handle dtbMaxSize entry.dtbPath

structure CleanRootfs (platform : Platform) (contents : MediumContents)
    (console : List ConsoleRead) : Prop where
  whole : contents.handle.WholeReads
  refuses : authenticateOemHeader platform.engine (fun _ => 0) 0 ≠ .ok ()
  conf : contents.handle.ConfReadable → CleanConf contents.handle console
  kernel : ReadFits bootImageMaxSize (contents.loadBinary .kernel).data
    (contents.loadBinary .kernel).error
  dtb : ReadFits dtbMaxSize (contents.loadBinary .kernelDtb).data
    (contents.loadBinary .kernelDtb).error

def imageKind (platform : Platform) : BinaryKind :=
  if platform.recoveryMode then .recoveryImg else .kernel

def dtbKind (platform : Platform) : BinaryKind :=
  if platform.recoveryMode then .recoveryDtb else .kernelDtb

def CleanBinaries (platform : Platform) (contents : MediumContents) : Medium → Prop
  | .network => ReadFits bootImageMaxSize contents.tftp.bootImage contents.tftp.download ∧
      ReadFits dtbMaxSize contents.tftp.dtb contents.tftp.download
  | .builtin =>
    ReadFits bootImageMaxSize (contents.loadBinary (imageKind platform)).data
        (contents.loadBinary (imageKind platform)).error ∧
      ReadFits dtbMaxSize (contents.loadBinary (dtbKind platform)).data
        (contents.loadBinary (dtbKind platform)).error
  | _ =>
    let image := tegrablFmReadPartition (contents.partitions "kernel".toList) bootImageMaxSize
    let dtb := tegrablFmReadPartition (contents.partitions "kernel-dtb".toList) dtbMaxSize
    ReadFits bootImageMaxSize image.1 image.2 ∧ ReadFits dtbMaxSize dtb.1 dtb.2

structure Clean (platform : Platform) (medium : Medium) (contents : MediumContents)
    (console : List ConsoleRead) : Prop where
  rootfs : medium ≠ .network → CleanRootfs platform contents console
  binaries : CleanBinaries platform contents medium

structure AttemptEnv.Ample (env : AttemptEnv) : Prop where
  handle : env.memory.handleAllocated = true
  bootImg : env.memory.bootImgAllocated = true
  sections : env.memory.conf.Ample
  conf : ∃ buffer, env.memory.conf.buffer = some buffer ∧ (env.contents.handle.ConfReadable →
    cString (tegrablFmRead env.contents.handle (some extlinuxConfPath) buffer 0
      extlinuxConfMaxSize).memory 0 extlinuxConfMaxSize = some env.contents.handle.confText)

/-! ### The configuration in two boots -/

structure SameConf (file : ConfFile) (console : List ConsoleRead) (first second : Extlinux) :
    Prop where
  live : Live file first.conf
  liveToo : Live file second.conf
  entry : first.bootEntry = second.bootEntry
  chosen : ∃ old, file.choice old console = some first.bootEntry
  inside : first.bootEntry < file.sections.length

structure SameEntry (entry : BootSection) (s t : BootState) : Prop where
  bootEntry : s.extlinux.bootEntry = t.extlinux.bootEntry
  ramdiskPath : s.extlinux.ramdiskPath = entry.initrdPath ∧
    t.extlinux.ramdiskPath = entry.initrdPath
  bootArgs : s.extlinux.bootArgs = entry.bootArgs ∧ t.extlinux.bootArgs = entry.bootArgs

structure SameImage (s t : BootState) : Prop where
  bytes : s.imageBytes = t.imageBytes
  agree : AgreeOn 0 s.imageBytes s.bootImg t.bootImg

structure SameDtb (s t : BootState) : Prop where
  bytes : s.dtbBytes = t.dtbBytes
  agree : ∀ first second, s.kernelDtb = some first → t.kernelDtb = some second →
    AgreeOn 0 s.dtbBytes first second

structure SameLoad (entry : BootSection) (s t : BootState) : Prop where
  mounted : handle.mountPath ≠ none
  initrd : entry.initrdPath ≠ none
  entry : SameEntry entry s t
  image : SameImage s t
  size : s.kernelSize = t.kernelSize
  dtb : SameDtb s t

section Rootfs

variable {platform : Platform} {contents : MediumContents} {console : List ConsoleRead}
  {memory memory' : AttemptMemory}

theorem chosenEntry_agree (conf : CleanConf contents.handle console) :
    TwoRun (fun s t => SameConf (confFile contents.handle.confText) console s.extlinux t.extlinux)
      chosenEntry chosenEntry
      (fun a b s t => (a = b ∧ a ∈ (confFile contents.handle.confText).sections ∧
        a.initrdPath ≠ none) ∧ s.extlinux.bootEntry = t.extlinux.bootEntry) fun _ _ => True := by
  refine TwoRun.readThen fun s t same => ?_
  obtain ⟨old, chose⟩ := same.chosen
  have found := List.getElem?_eq_getElem same.inside
  have first := same.live _ same.inside
  have second := same.liveToo _ same.inside
  rw [← same.entry, first, second]
  refine TwoRun.pure ?_
  rintro _ _ ⟨rfl, rfl⟩
  exact ⟨⟨rfl, List.getElem_mem same.inside, conf.initrd old _ _ chose found⟩, same.entry⟩

def kernelReads (clean : CleanRootfs platform contents console) :
    PartitionReads (platform.loadEnv contents) tegrablBinaryKernel bootImageMaxSize where
  error := (contents.loadBinary .kernel).error
  place := 0
  data := (contents.loadBinary .kernel).data
  reads := fun _ => rfl
  fits := clean.kernel ()

def dtbReads (clean : CleanRootfs platform contents console) :
    PartitionReads (platform.loadEnv contents) tegrablBinaryKernelDtb dtbMaxSize where
  error := (contents.loadBinary .kernelDtb).error
  place := 0 + dtbAlignment
  data := (contents.loadBinary .kernelDtb).data
  reads := fun _ => rfl
  fits := clean.dtb ()

theorem BinaryLoad.covered_congr {first second : BinaryLoad} (agree : LoadAgree first second)
    (success : first.error = .ok ()) : first.covered = second.covered := by
  unfold BinaryLoad.covered
  rw [agree.loadSize success, agree.fromRootfs success]

variable {entry : BootSection}

section

variable (clean : CleanRootfs platform contents console) (conf : CleanConf contents.handle console)
  (mounted : contents.handle.mountPath ≠ none)
  (member : entry ∈ (confFile contents.handle.confText).sections)
include clean conf mounted member

theorem loadKernel_agree :
    TwoRun (SameEntry entry)
      (loadKernel (platform.loadEnv contents) contents.handle entry.linuxPath)
      (loadKernel (platform.loadEnv contents) contents.handle entry.linuxPath)
      (fun _ _ s t => SameEntry entry s t ∧ SameImage s t ∧ s.kernelSize = t.kernelSize)
      fun _ _ => True := by
  intro s t same x y run runToo
  obtain ⟨mount, mounted⟩ := Option.ne_none_iff_exists'.mp mounted
  have loads := loadBinaryWithSig_agree s.bootImg t.bootImg s.kernelSize t.kernelSize mounted
    clean.whole (kernelReads clean) (by decide) (by decide) clean.refuses (conf.kernel entry member)
  cases run
  cases runToo
  cases ended : (loadBinaryWithSig (platform.loadEnv contents) contents.handle tegrablBinaryKernel
      bootImageMaxSize entry.linuxPath s.bootImg 0 s.kernelSize).error with
  | error error =>
    rw [← loads.error, ended]
    exact trivial
  | ok done =>
    rw [← loads.error, ended]
    exact ⟨⟨same.bootEntry, same.ramdiskPath, same.bootArgs⟩,
      ⟨BinaryLoad.covered_congr loads ended, loads.memory ended⟩, loads.loadSize ended⟩

theorem loadDtb_agree
    (initrd : entry.initrdPath ≠ none) (ram ram' : ByteMem) :
    TwoRun (fun s t => SameEntry entry s t ∧ SameImage s t ∧ s.kernelSize = t.kernelSize)
      (loadDtb (platform.loadEnv contents) contents.handle entry.dtbPath ram)
      (loadDtb (platform.loadEnv contents) contents.handle entry.dtbPath ram')
      (fun _ _ => SameLoad contents.handle entry) fun _ _ => True := by
  rintro s t ⟨same, image, size⟩ x y run runToo
  obtain ⟨mount, found⟩ := Option.ne_none_iff_exists'.mp mounted
  have loads := loadBinaryWithSig_agree ram ram' 0 0 found clean.whole (dtbReads clean) (by decide)
    (by decide) clean.refuses (conf.dtb entry member)
  cases run
  cases runToo
  cases ended : (loadBinaryWithSig (platform.loadEnv contents) contents.handle tegrablBinaryKernelDtb
      dtbMaxSize entry.dtbPath ram 0 0).error with
  | error error =>
    rw [← loads.error, ended]
    exact trivial
  | ok done =>
    rw [← loads.error, ended]
    refine ⟨mounted, initrd, ⟨same.bootEntry, same.ramdiskPath, same.bootArgs⟩,
      ⟨image.bytes, image.agree⟩, size, BinaryLoad.covered_congr loads ended, ?_⟩
    intro first second left right
    cases left
    cases right
    exact loads.memory ended

end

theorem getBootImgLoadAddr_agree (there : memory.bootImgAllocated = true)
    (there' : memory'.bootImgAllocated = true) :
    TwoRun (SameEntry entry) (getBootImgLoadAddr memory) (getBootImgLoadAddr memory')
      (fun _ _ => SameEntry entry) fun _ _ => True := by
  refine TwoRun.readThen fun s t same => ?_
  rw [there, there', Bool.or_true, Bool.or_true, if_pos rfl]
  refine TwoRun.modify ?_
  rintro _ _ ⟨rfl, rfl⟩
  exact ⟨same.bootEntry, same.ramdiskPath, same.bootArgs⟩

theorem freeSections_same {extlinux freed : Extlinux} (cleaned : freeSections extlinux = some freed) :
    freed.bootEntry = extlinux.bootEntry ∧ freed.ramdiskPath = extlinux.ramdiskPath ∧
      freed.bootArgs = extlinux.bootArgs := by
  unfold freeSections at cleaned
  simp only at cleaned
  split at cleaned
  · cases cleaned
  · cases cleaned
    exact ⟨rfl, rfl, rfl⟩

theorem SameLoad.freed {handle : FmHandle} {entry : BootSection} {s t : BootState}
    (same : SameLoad handle entry s t) {left right : Extlinux}
    (cleaned : freeSections s.extlinux = some left)
    (cleanedToo : freeSections t.extlinux = some right) :
    SameLoad handle entry { s with extlinux := left } { t with extlinux := right } := by
  obtain ⟨first, path, args⟩ := freeSections_same cleaned
  obtain ⟨first', path', args'⟩ := freeSections_same cleanedToo
  have entries := same.entry
  refine { same with
    entry := ⟨?_, ⟨path.trans entries.ramdiskPath.1, path'.trans entries.ramdiskPath.2⟩,
      ⟨args.trans entries.bootArgs.1, args'.trans entries.bootArgs.2⟩⟩
    image := ⟨same.image.bytes, same.image.agree⟩
    dtb := ⟨same.dtb.bytes, same.dtb.agree⟩ }
  exact first.trans (entries.bootEntry.trans first'.symm)

variable (clean : CleanRootfs platform contents console)
  (ample : (AttemptEnv.mk contents console memory).Ample)
  (ample' : (AttemptEnv.mk contents console memory').Ample)
include clean ample ample'

theorem getBootDetails_agree :
    TwoRun (fun _ _ => True) (getBootDetails contents.handle memory.conf console)
      (getBootDetails contents.handle memory'.conf console)
      (fun _ _ s t => contents.handle.ConfReadable ∧
        SameConf (confFile contents.handle.confText) console s t) fun _ _ => True := by
  obtain ⟨buffer, there, ends⟩ := ample.conf
  obtain ⟨buffer', there', ends'⟩ := ample'.conf
  have same := fun buffer => (tegrablFmRead_congr contents.handle (some extlinuxConfPath)
    (fun _ => 0) buffer 0 extlinuxConfMaxSize).1
  cases read : (tegrablFmRead contents.handle (some extlinuxConfPath) (fun _ => 0) 0
      extlinuxConfMaxSize).error with
  | error error =>
    have stops : ∀ (heap : ConfHeap) (buffer : ByteMem), heap.buffer = some buffer → ∀ extlinux,
        getBootDetails contents.handle heap console extlinux = some (.error error, extlinux) := by
      intro heap buffer there extlinux
      unfold getBootDetails loadAndParseConfFile
      rw [there]
      simp only
      rw [← same buffer, read]
      rfl
    intro s t _ x y run runToo
    rw [stops _ _ there] at run
    rw [stops _ _ there'] at runToo
    cases run
    cases runToo
    exact trivial
  | ok done =>
    have conf := clean.conf read
    intro s t _
    refine TwoRun.of_triples
      (getBootDetails_ample ample.sections there ((same buffer).symm.trans read) (ends read)
        conf.written s.conf.defaultBootEntry)
      (getBootDetails_ample ample'.sections there' ((same buffer').symm.trans read) (ends' read)
        conf.written t.conf.defaultBootEntry) (fun _ _ => id) ?_ s t ⟨rfl, rfl⟩
    rintro _ _ first second ⟨parsed, chose⟩ ⟨parsed', chose'⟩
    rw [ConfFile.choice_congr conf.named _ s.conf.defaultBootEntry, chose] at chose'
    exact ⟨read, parsed.live, parsed'.live, Option.some.inj chose', ⟨_, chose⟩,
      ConfFile.choice_lt conf.named chose⟩

theorem extlinuxLoad_agree :
    TwoRun (fun _ _ => True) (extlinuxLoad platform ⟨contents, console, memory⟩)
      (extlinuxLoad platform ⟨contents, console, memory'⟩)
      (fun _ _ s t => ∃ entry, SameLoad contents.handle entry s t) fun _ _ => True := by
  refine TwoRun.ite (fun _ => TwoRun.fail fun _ _ _ => trivial) fun notNone => ?_
  have mounted : contents.handle.mountPath ≠ none := fun none => notNone (by
    show contents.handle.mountPath.isNone = true
    rw [none]
    rfl)
  have details : TwoRun (fun _ _ => True)
      (onExtlinux (getBootDetails contents.handle memory.conf console))
      (onExtlinux (getBootDetails contents.handle memory'.conf console))
      (fun _ _ s t => contents.handle.ConfReadable ∧
        SameConf (confFile contents.handle.confText) console s.extlinux t.extlinux)
      fun _ _ => True :=
    TwoRun.zoom (getBootDetails_agree clean ample ample') (fun _ _ _ => trivial)
      (fun _ _ _ _ _ _ _ => id) fun _ _ _ _ _ _ => trivial
  refine TwoRun.bind details fun _ _ => TwoRun.fact fun readable => ?_
  have conf := clean.conf readable
  refine TwoRun.bind (chosenEntry_agree conf) fun entry entry' => TwoRun.fact ?_
  rintro ⟨rfl, member, initrd⟩
  have taken : TwoRun (fun s t : BootState => s.extlinux.bootEntry = t.extlinux.bootEntry)
      (onExtlinux (modify fun extlinux =>
        { extlinux with ramdiskPath := entry.initrdPath, bootArgs := entry.bootArgs }))
      (onExtlinux (modify fun extlinux =>
        { extlinux with ramdiskPath := entry.initrdPath, bootArgs := entry.bootArgs }))
      (fun _ _ => SameEntry entry) fun _ _ => True := by
    intro s t same x y run runToo
    cases run
    cases runToo
    exact ⟨same, ⟨rfl, rfl⟩, ⟨rfl, rfl⟩⟩
  refine TwoRun.bind taken fun _ _ => ?_
  refine TwoRun.bind (getBootImgLoadAddr_agree ample.bootImg ample'.bootImg) fun _ _ => ?_
  have noted : TwoRun (SameEntry entry)
      (modify fun state => { state with kernelDtb := some memory.extlinuxDtb } :
        Prog ErrorValue BootState Unit)
      (modify fun state => { state with kernelDtb := some memory'.extlinuxDtb })
      (fun _ _ => SameEntry entry) fun _ _ => True :=
    TwoRun.modify fun _ _ same => ⟨same.bootEntry, same.ramdiskPath, same.bootArgs⟩
  refine TwoRun.bind noted fun _ _ => ?_
  refine TwoRun.bind (loadKernel_agree clean conf mounted member) fun _ _ => ?_
  exact (loadDtb_agree clean conf mounted member initrd _ _).mono (fun _ _ => id)
    (fun _ _ _ _ same => ⟨entry, same⟩) fun _ _ => id

theorem tryExtlinux_agree :
    TwoRun (fun _ _ => True) (tryExtlinux platform ⟨contents, console, memory⟩)
      (tryExtlinux platform ⟨contents, console, memory'⟩)
      (fun a b s t => a = b ∧ (a = true → ∃ entry, SameLoad contents.handle entry s t))
      fun _ _ => True := by
  have loaded : TwoRun (fun _ _ => True)
      (extlinuxBootLoadKernelAndDtb platform ⟨contents, console, memory⟩)
      (extlinuxBootLoadKernelAndDtb platform ⟨contents, console, memory'⟩)
      (fun _ _ s t => ∃ entry, SameLoad contents.handle entry s t) fun _ _ => True := by
    refine TwoRun.always (extlinuxLoad_agree clean ample ample') ?_ fun _ _ _ _ _ _ _ => trivial
    rintro _ _ s t s' t' ⟨entry, same⟩ cleaned cleanedToo
    obtain ⟨left, freed, rfl⟩ := Option.map_eq_some_iff.mp cleaned
    obtain ⟨right, freedToo, rfl⟩ := Option.map_eq_some_iff.mp cleanedToo
    exact ⟨entry, same.freed freed freedToo⟩
  refine TwoRun.recover (TwoRun.bind loaded fun _ _ => ?_) fun _ _ => ?_
  · exact TwoRun.pure fun s t same => ⟨rfl, fun _ => same⟩
  · exact TwoRun.pure fun s t _ => ⟨rfl, nofun⟩

end Rootfs

end Cboot.LinuxBoot
