/-
**The order of writes and validations in a load.**

The program of `load_binary_with_sig` step by step, with a record of what writes to memory, of the
loads of a partition and of the validations. The three attempts (signature file, binary file,
partition) share one buffer, and an attempt that failed leaves its bytes there.
-/

import Cboot.Lib.Program
import Cboot.LinuxBoot.LoadLocality

namespace Cboot.LinuxBoot

open Auth

/-! ### The steps -/

inductive LoadEvent
  | wrote (dest len : Nat)
  | loadedPartition (dest : Nat)
  | validated (memory : ByteMem) (addr : Nat) (result : Result AuthOutcome)

structure LoadTrace where
  memory : ByteMem
  loadSize : Nat
  events : List LoadEvent

abbrev LoadStep (α : Type) : Type := Prog ErrorValue LoadTrace α

def fmReadStep (handle : FmHandle) (path : Text) (dest room : Nat) :
    LoadStep (Result Unit × Nat) := fun s =>
  let read := tegrablFmRead handle (some path) s.memory dest room
  some (.ok (read.error, read.size),
    { s with memory := read.memory, events := s.events ++ [.wrote dest room] })

def memsetStep (dest n : Nat) : LoadStep Unit :=
  Prog.modify fun s =>
    { s with memory := s.memory.memset dest 0 n, events := s.events ++ [.wrote dest n] }

def memmoveStep (dest src n : Nat) : LoadStep Unit :=
  Prog.modify fun s =>
    { s with memory := s.memory.memmove dest src n, events := s.events ++ [.wrote dest n] }

def placeStep (dest src n : Nat) : LoadStep Unit :=
  if src ≠ dest then memmoveStep dest src n else pure ()

def loadSizeStep (size : Nat) : LoadStep Unit := Prog.modify fun s => { s with loadSize := size }

def loadBinaryStep (env : LoadEnv) (binType : BitVec 32) (loadAddr size : Nat) :
    LoadStep (Result Unit × Nat × Nat) := fun s =>
  let load := env.tegrablLoadBinary binType s.memory loadAddr size
  some (.ok (load.error, load.loadAddr, load.size),
    { s with memory := load.memory, events := s.events ++ [.loadedPartition loadAddr] })

def validateStep (env : LoadEnv) (binType : BitVec 32) (binMaxSize addr : Nat) :
    LoadStep (Result Unit) := fun s =>
  let result := tegrablValidateBinary env.engine env.minRatchet binType binMaxSize s.memory addr
  let memory := match result with
    | .ok outcome => outcome.memory
    | .error _ => s.memory
  some (.ok (result.map fun _ => ()),
    { s with memory := memory, events := s.events ++ [.validated s.memory addr result] })

def sigFileSteps (handle : FmHandle) (binPath : Text) (binLoadAddr : Nat) : LoadStep Bool := do
  let (error, size) ← fmReadStep handle (sigFilePath binPath) binLoadAddr sizeofHeader
  let failFlag := !error.isOk || size != sizeofHeader
  if failFlag then memsetStep binLoadAddr sizeofHeader
  return failFlag

def partitionSteps (env : LoadEnv) (binType : BitVec 32)
    (binMaxSize sigheaderSize binLoadAddr : Nat) : LoadStep Unit := do
  let (error, loadAddr, fileSize) ← loadBinaryStep env binType binLoadAddr binMaxSize
  Prog.ofResult error
  placeStep binLoadAddr loadAddr binMaxSize
  loadSizeStep fileSize
  match ← validateStep env binType binMaxSize binLoadAddr with
  | .ok () => return ()
  | .error error =>
    if env.odmProduction then Prog.fail error
    else memmoveStep binLoadAddr (binLoadAddr + sigheaderSize) fileSize

def refusalSteps (env : LoadEnv) (binType : BitVec 32) (binMaxSize binLoadAddr fileSize : Nat) :
    LoadStep Unit :=
  if env.odmProduction then partitionSteps env binType binMaxSize sizeofHeader binLoadAddr
  else memmoveStep binLoadAddr (binLoadAddr + sizeofHeader) fileSize

def validationSteps (env : LoadEnv) (binType : BitVec 32) (binMaxSize binLoadAddr fileSize : Nat)
    (failFlag : Bool) : LoadStep Unit := do
  let validated ← validateStep env binType binMaxSize binLoadAddr
  if !validated.isOk || failFlag then refusalSteps env binType binMaxSize binLoadAddr fileSize

def binarySteps (env : LoadEnv) (handle : FmHandle) (binType : BitVec 32) (binMaxSize : Nat)
    (binPath : Text) (binLoadAddr : Nat) (failFlag : Bool) : LoadStep Unit := do
  let loadAddr := binaryReadAddr binLoadAddr
  let (error, fileSize) ← fmReadStep handle binPath loadAddr (binaryRoom binMaxSize binLoadAddr)
  match error with
  | .error _ => partitionSteps env binType binMaxSize sizeofHeader binLoadAddr
  | .ok () =>
    loadSizeStep fileSize
    placeStep (binLoadAddr + sizeofHeader) loadAddr fileSize
    validationSteps env binType binMaxSize binLoadAddr fileSize failFlag

def loadSteps (env : LoadEnv) (handle : FmHandle) (binType : BitVec 32) (binMaxSize : Nat)
    (binPath : Option Text) (binLoadAddr : Nat) : LoadStep Unit :=
  if binType ≠ tegrablBinaryKernel ∧ binType ≠ tegrablBinaryKernelDtb then
    Prog.ofResult (tegrablError .linuxboot .invalid 0)
  else
    match binPath with
    | none => partitionSteps env binType binMaxSize 0 binLoadAddr
    | some binPath => do
      let failFlag ← sigFileSteps handle binPath binLoadAddr
      binarySteps env handle binType binMaxSize binPath binLoadAddr failFlag

/-! ### The steps and the load -/

def LoadEvent.isPartitionLoad : LoadEvent → Bool
  | .loadedPartition _ => true
  | _ => false

def usedPartition (events : List LoadEvent) : Bool := events.any LoadEvent.isPartitionLoad

theorem usedPartition_append (first second : List LoadEvent) :
    usedPartition (first ++ second) = (usedPartition first || usedPartition second) :=
  List.any_append

def EndsValidated (binLoadAddr : Nat) (checked memory : ByteMem) (events : List LoadEvent) : Prop :=
  ∃ before outcome, events = before ++ [.validated checked binLoadAddr (.ok outcome)] ∧
    memory = outcome.memory

theorem EndsValidated.append {binLoadAddr : Nat} {checked memory : ByteMem}
    {events : List LoadEvent} (ends : EndsValidated binLoadAddr checked memory events)
    (before : List LoadEvent) : EndsValidated binLoadAddr checked memory (before ++ events) := by
  obtain ⟨rest, outcome, rfl, left⟩ := ends
  exact ⟨before ++ rest, outcome, (List.append_assoc _ _ _).symm, left⟩

def BinaryLoad.traced (load : BinaryLoad) (events : List LoadEvent) :
    Except ErrorValue Unit × LoadTrace :=
  (load.error, ⟨load.memory, load.loadSize, events⟩)

section Runs

variable {env : LoadEnv} {handle : FmHandle} {binType : BitVec 32} {binMaxSize : Nat}
  {binPath : Text} {mem : ByteMem} {binLoadAddr loadSize : Nat} {log : List LoadEvent}

theorem sigFileSteps_run : ∃ events, usedPartition events = false ∧
    sigFileSteps handle binPath binLoadAddr ⟨mem, loadSize, log⟩ =
      some (.ok (loadSigFile handle binPath mem binLoadAddr).1,
        ⟨(loadSigFile handle binPath mem binLoadAddr).2, loadSize, log ++ events⟩) := by
  unfold sigFileSteps loadSigFile
  rw [Prog.bind_ok rfl]
  simp only
  split
  · refine ⟨[.wrote binLoadAddr sizeofHeader, .wrote binLoadAddr sizeofHeader], rfl, ?_⟩
    show some (_, LoadTrace.mk _ _ ((log ++ _) ++ _)) = _
    rw [List.append_assoc]
    rfl
  · exact ⟨[.wrote binLoadAddr sizeofHeader], rfl, rfl⟩

theorem placeStep_run (dest src n : Nat) : ∃ events, usedPartition events = false ∧
    placeStep dest src n ⟨mem, loadSize, log⟩ =
      some (.ok (), ⟨if src ≠ dest then mem.memmove dest src n else mem, loadSize,
        log ++ events⟩) := by
  unfold placeStep
  split
  · exact ⟨[.wrote dest n], rfl, rfl⟩
  · refine ⟨[], rfl, ?_⟩
    rw [List.append_nil]
    rfl

theorem partitionSteps_run (sigheaderSize : Nat) :
    let load := loadFromPartition env binType binMaxSize sigheaderSize mem binLoadAddr loadSize
    ∃ events, partitionSteps env binType binMaxSize sigheaderSize binLoadAddr
        ⟨mem, loadSize, log⟩ = some (load.traced (log ++ events)) ∧
      usedPartition events = true ∧ (env.odmProduction = true → load.error = .ok () →
        ∃ checked, EndsValidated binLoadAddr checked load.memory events) := by
  unfold partitionSteps loadFromPartition
  rw [Prog.bind_ok rfl]
  simp only
  cases (env.tegrablLoadBinary binType mem binLoadAddr binMaxSize).error with
  | error error =>
    rw [Prog.bind_error rfl]
    exact ⟨[.loadedPartition binLoadAddr], rfl, rfl, nofun⟩
  | ok done =>
    rw [Prog.bind_ok rfl]
    obtain ⟨placed, -, ran⟩ := placeStep_run binLoadAddr _ binMaxSize
    rw [Prog.bind_ok ran, Prog.bind_ok rfl, Prog.bind_ok rfl]
    simp only
    generalize (if (env.tegrablLoadBinary binType mem binLoadAddr binMaxSize).loadAddr ≠
      binLoadAddr then _ else _ : ByteMem) = loaded
    cases result : tegrablValidateBinary env.engine env.minRatchet binType binMaxSize loaded
        binLoadAddr with
    | ok outcome =>
      refine ⟨.loadedPartition binLoadAddr :: placed ++ [.validated loaded binLoadAddr (.ok outcome)],
        ?_, rfl, fun _ _ => ⟨loaded, _, outcome, rfl, rfl⟩⟩
      simp [BinaryLoad.traced, Except.map, pure]
    | error error =>
      cases production : env.odmProduction with
      | true =>
        refine ⟨.loadedPartition binLoadAddr :: placed ++
          [.validated loaded binLoadAddr (.error error)], ?_, rfl, by simp⟩
        simp [BinaryLoad.traced, Except.map, Prog.fail, Prog.ofResult]
      | false =>
        refine ⟨.loadedPartition binLoadAddr :: placed ++
          [.validated loaded binLoadAddr (.error error), .wrote binLoadAddr
            (env.tegrablLoadBinary binType mem binLoadAddr binMaxSize).size], ?_, rfl, by simp⟩
        simp [BinaryLoad.traced, Except.map, memmoveStep, Prog.modify]

def Validated (binLoadAddr : Nat) (placed : ByteMem) (failFlag : Bool) (load : BinaryLoad)
    (events : List LoadEvent) : Prop :=
  if usedPartition events then ∃ checked, EndsValidated binLoadAddr checked load.memory events
  else failFlag = false ∧ EndsValidated binLoadAddr placed load.memory events

/-- A run of the steps behind `log` is this load. -/
def Traces (env : LoadEnv) (binLoadAddr : Nat) (placed : ByteMem) (failFlag : Bool)
    (log : List LoadEvent) (load : BinaryLoad)
    (run : Option (Except ErrorValue Unit × LoadTrace)) : Prop :=
  ∃ events, run = some (load.traced (log ++ events)) ∧ load.fromRootfs = !usedPartition events ∧
    (env.odmProduction = true → load.error = .ok () →
      Validated binLoadAddr placed failFlag load events)

theorem partitionSteps_after (before : List LoadEvent) (placed : ByteMem) (failFlag : Bool) :
    Traces env binLoadAddr placed failFlag log
      (loadFromPartition env binType binMaxSize sizeofHeader mem binLoadAddr loadSize)
      (partitionSteps env binType binMaxSize sizeofHeader binLoadAddr
        ⟨mem, loadSize, log ++ before⟩) := by
  obtain ⟨events, ran, used, ends⟩ := @partitionSteps_run env binType binMaxSize mem binLoadAddr
    loadSize (log ++ before) sizeofHeader
  have usedToo : usedPartition (before ++ events) = true := by
    rw [usedPartition_append, used, Bool.or_true]
  refine ⟨before ++ events, ?_, ?_, ?_⟩
  · rw [ran, List.append_assoc]
  · rw [loadFromPartition_fromRootfs, usedToo]
    rfl
  · intro production success
    obtain ⟨checked, validated⟩ := ends production success
    rw [Validated, if_pos usedToo]
    exact ⟨checked, validated.append before⟩

def loadRefused (env : LoadEnv) (binType : BitVec 32) (binMaxSize binLoadAddr fileSize : Nat)
    (mem : ByteMem) : BinaryLoad :=
  if env.odmProduction then
    loadFromPartition env binType binMaxSize sizeofHeader mem binLoadAddr fileSize
  else ⟨.ok (), mem.memmove binLoadAddr (binLoadAddr + sizeofHeader) fileSize, fileSize, true, none⟩

theorem refusalSteps_run (before : List LoadEvent) (clean : usedPartition before = false)
    (placed : ByteMem) (failFlag : Bool) :
    Traces env binLoadAddr placed failFlag log
      (loadRefused env binType binMaxSize binLoadAddr loadSize mem)
      (refusalSteps env binType binMaxSize binLoadAddr loadSize
        ⟨mem, loadSize, log ++ before⟩) := by
  unfold refusalSteps loadRefused
  by_cases production : env.odmProduction = true
  · rw [if_pos production, if_pos production]
    exact partitionSteps_after before placed failFlag
  · rw [if_neg production, if_neg production]
    refine ⟨before ++ [.wrote binLoadAddr loadSize], ?_, ?_, fun burned => absurd burned production⟩
    · rw [← List.append_assoc]
      rfl
    · rw [usedPartition_append, clean]
      rfl

def loadPlaced (env : LoadEnv) (binType : BitVec 32) (binMaxSize binLoadAddr fileSize : Nat)
    (failFlag : Bool) (placed : ByteMem) : BinaryLoad :=
  match tegrablValidateBinary env.engine env.minRatchet binType binMaxSize placed binLoadAddr,
      failFlag with
  | .ok outcome, false => ⟨.ok (), outcome.memory, fileSize, true, outcome.authenticated⟩
  | .ok outcome, true => loadRefused env binType binMaxSize binLoadAddr fileSize outcome.memory
  | .error _, _ => loadRefused env binType binMaxSize binLoadAddr fileSize placed

theorem loadBinaryWithSig_placed
    (kind : binType = tegrablBinaryKernel ∨ binType = tegrablBinaryKernelDtb)
    (read : (readBinary handle binMaxSize binPath mem binLoadAddr).error = .ok ()) :
    loadBinaryWithSig env handle binType binMaxSize (some binPath) mem binLoadAddr loadSize =
      loadPlaced env binType binMaxSize binLoadAddr
        (readBinary handle binMaxSize binPath mem binLoadAddr).size
        (loadSigFile handle binPath mem binLoadAddr).1
        (placedBinary handle binMaxSize binPath mem binLoadAddr) := by
  have known : ¬ (binType ≠ tegrablBinaryKernel ∧ binType ≠ tegrablBinaryKernelDtb) :=
    fun neither => kind.elim neither.1 neither.2
  unfold loadBinaryWithSig loadPlaced
  rw [if_neg known]
  simp only [read]
  cases tegrablValidateBinary env.engine env.minRatchet binType binMaxSize
      (placedBinary handle binMaxSize binPath mem binLoadAddr) binLoadAddr with
  | error error => rfl
  | ok outcome =>
    cases (loadSigFile handle binPath mem binLoadAddr).1 with
    | true => rfl
    | false => rfl

theorem validationSteps_run (placed : ByteMem) (fileSize : Nat) (failFlag : Bool)
    (before : List LoadEvent) (clean : usedPartition before = false) :
    Traces env binLoadAddr placed failFlag log
      (loadPlaced env binType binMaxSize binLoadAddr fileSize failFlag placed)
      (validationSteps env binType binMaxSize binLoadAddr fileSize failFlag
        ⟨placed, fileSize, log ++ before⟩) := by
  unfold validationSteps loadPlaced
  rw [Prog.bind_ok rfl]
  simp only
  cases tegrablValidateBinary env.engine env.minRatchet binType binMaxSize placed binLoadAddr with
  | error error =>
    have unused : usedPartition (before ++ [.validated placed binLoadAddr (.error error)]) =
        false := by
      rw [usedPartition_append, clean]
      rfl
    rw [List.append_assoc]
    exact refusalSteps_run _ unused placed failFlag
  | ok outcome =>
    have unused : usedPartition (before ++ [.validated placed binLoadAddr (.ok outcome)]) =
        false := by
      rw [usedPartition_append, clean]
      rfl
    rw [List.append_assoc]
    cases failFlag with
    | true => exact refusalSteps_run _ unused placed true
    | false =>
      refine ⟨before ++ [.validated placed binLoadAddr (.ok outcome)], rfl, ?_, fun _ _ => ?_⟩
      · rw [unused]
        rfl
      · rw [Validated, unused]
        exact ⟨rfl, before, outcome, rfl, rfl⟩

theorem binarySteps_run (kind : binType = tegrablBinaryKernel ∨ binType = tegrablBinaryKernelDtb)
    (before : List LoadEvent) (clean : usedPartition before = false) :
    let sig := loadSigFile handle binPath mem binLoadAddr
    Traces env binLoadAddr (placedBinary handle binMaxSize binPath mem binLoadAddr) sig.1 log
      (loadBinaryWithSig env handle binType binMaxSize (some binPath) mem binLoadAddr loadSize)
      (binarySteps env handle binType binMaxSize binPath binLoadAddr sig.1
        ⟨sig.2, loadSize, log ++ before⟩) := by
  have known : ¬ (binType ≠ tegrablBinaryKernel ∧ binType ≠ tegrablBinaryKernelDtb) :=
    fun neither => kind.elim neither.1 neither.2
  intro sig
  unfold binarySteps
  rw [Prog.bind_ok rfl]
  change Traces _ _ _ _ _ _ ((match (readBinary handle binMaxSize binPath mem binLoadAddr).error with
    | .error _ => _
    | .ok () => _ : LoadStep Unit) _)
  cases read : (readBinary handle binMaxSize binPath mem binLoadAddr).error with
  | error error =>
    simp only [loadBinaryWithSig, if_neg known, read]
    rw [List.append_assoc]
    exact partitionSteps_after _ _ _
  | ok done =>
    obtain ⟨placed, cleanToo, ran⟩ := placeStep_run (binLoadAddr + sizeofHeader) _ _
    simp only
    rw [Prog.bind_ok rfl, Prog.bind_ok ran, List.append_assoc, List.append_assoc,
      loadBinaryWithSig_placed kind read]
    refine validationSteps_run _ _ _ _ ?_
    rw [usedPartition_append, usedPartition_append, clean, cleanToo]
    rfl

theorem loadSteps_run (binPath : Option Text) :
    let load := loadBinaryWithSig env handle binType binMaxSize binPath mem binLoadAddr loadSize
    ∃ events, loadSteps env handle binType binMaxSize binPath binLoadAddr ⟨mem, loadSize, []⟩ =
        some (load.traced events) ∧
      (env.odmProduction = true → load.error = .ok () →
        load.fromRootfs = !usedPartition events ∧
        ∃ checked, EndsValidated binLoadAddr checked load.memory events ∧
          (load.fromRootfs = true → ∃ path, binPath = some path ∧
            checked = placedBinary handle binMaxSize path mem binLoadAddr ∧
            (loadSigFile handle path mem binLoadAddr).1 = false)) := by
  unfold loadSteps
  by_cases other : binType ≠ tegrablBinaryKernel ∧ binType ≠ tegrablBinaryKernelDtb
  · unfold loadBinaryWithSig
    rw [if_pos other, if_pos other]
    exact ⟨[], rfl, fun _ => nofun⟩
  · rw [if_neg other]
    cases binPath with
    | none =>
      unfold loadBinaryWithSig
      rw [if_neg other]
      obtain ⟨events, ran, used, ends⟩ := @partitionSteps_run env binType binMaxSize mem binLoadAddr
        loadSize [] 0
      refine ⟨events, ran, fun production success => ?_⟩
      obtain ⟨checked, validated⟩ := ends production success
      have away := loadFromPartition_fromRootfs env binType binMaxSize 0 mem binLoadAddr loadSize
      refine ⟨?_, checked, validated, fun rootfs => ?_⟩
      · rw [used]
        exact away
      · exact absurd (away.symm.trans rootfs) Bool.false_ne_true
    | some path =>
      have kind : binType = tegrablBinaryKernel ∨ binType = tegrablBinaryKernelDtb := by
        rwa [not_and_or, not_not, not_not] at other
      obtain ⟨sig, clean, read⟩ := @sigFileSteps_run handle path mem binLoadAddr loadSize []
      obtain ⟨events, ran, source, ends⟩ := @binarySteps_run env handle binType binMaxSize path mem
        binLoadAddr loadSize [] kind sig clean
      simp only
      rw [Prog.bind_ok read, ran]
      refine ⟨events, rfl, fun production success => ⟨source, ?_⟩⟩
      have validated := ends production success
      rw [source]
      unfold Validated at validated
      cases used : usedPartition events with
      | true =>
        rw [used, if_pos rfl] at validated
        obtain ⟨checked, last⟩ := validated
        exact ⟨checked, last, nofun⟩
      | false =>
        rw [used, if_neg nofun] at validated
        exact ⟨_, validated.2, fun _ => ⟨path, rfl, rfl, validated.1⟩⟩

end Runs

/-! ### What was validated -/

section Signed

variable {env : LoadEnv} {handle : FmHandle} {binType : BitVec 32} {binMaxSize : Nat}
  {mem : ByteMem} {binLoadAddr loadSize : Nat}

def HeaderFromFile (handle : FmHandle) (binPath : Option Text) (checked : ByteMem)
    (binLoadAddr : Nat) : Prop :=
  ∃ path mount, binPath = some path ∧ handle.mountPath = some mount ∧
    checked.load binLoadAddr sizeofHeader = (handle.files (mount ++ sigFilePath path)).data

def SignedLoad (handle : FmHandle) (binPath : Option Text) (binLoadAddr : Nat) (s : LoadTrace) :
    Prop :=
  ∃ checked, EndsValidated binLoadAddr checked s.memory s.events ∧
    (usedPartition s.events = false → HeaderFromFile handle binPath checked binLoadAddr)

def WholeSignature (handle : FmHandle) (binPath : Option Text) : Prop :=
  ∃ path mount, binPath = some path ∧ handle.mountPath = some mount ∧
    (handle.files (mount ++ sigFilePath path)).data.length = sizeofHeader

theorem placedBinary_keeps_header (path : Text) :
    (placedBinary handle binMaxSize path mem binLoadAddr).load binLoadAddr sizeofHeader =
      (loadSigFile handle path mem binLoadAddr).2.load binLoadAddr sizeofHeader := by
  refine ByteMem.load_congr fun i bound => ?_
  have below : binLoadAddr + i < binLoadAddr + sizeofHeader := Nat.add_lt_add_left bound _
  have kept : (readBinary handle binMaxSize path mem binLoadAddr).memory (binLoadAddr + i) =
      (loadSigFile handle path mem binLoadAddr).2 (binLoadAddr + i) :=
    tegrablFmRead_outside _ _ _ _ _ _ (.inl (below.trans_le (binaryReadAddr_bounds binLoadAddr).1))
  unfold placedBinary
  split
  · rw [ByteMem.memmove_outside _ _ _ _ _ (.inl below), kept]
  · exact kept

theorem header_of_whole {path mount : Text} (mounted : handle.mountPath = some mount)
    (whole : (handle.files (mount ++ sigFilePath path)).data.length = sizeofHeader)
    (read : (loadSigFile handle path mem binLoadAddr).1 = false) :
    (loadSigFile handle path mem binLoadAddr).2.load binLoadAddr sizeofHeader =
      (handle.files (mount ++ sigFilePath path)).data := by
  obtain ⟨success, -, left⟩ := loadSigFile_ok mem read
  rw [left, tegrablFmRead_ok mounted success, ← whole]
  exact ByteMem.load_store_self _ _ _

theorem rootfs_succeeds (production : env.odmProduction = true) {binPath : Option Text}
    (rootfs : (loadBinaryWithSig env handle binType binMaxSize binPath mem binLoadAddr
      loadSize).fromRootfs = true) :
    (loadBinaryWithSig env handle binType binMaxSize binPath mem binLoadAddr loadSize).error =
      .ok () := by
  by_cases other : binType ≠ tegrablBinaryKernel ∧ binType ≠ tegrablBinaryKernelDtb
  · unfold loadBinaryWithSig at rootfs
    rw [if_pos other] at rootfs
    nomatch rootfs
  · cases binPath with
    | none =>
      unfold loadBinaryWithSig at rootfs
      rw [if_neg other] at rootfs
      simp only [loadFromPartition_fromRootfs] at rootfs
      nomatch rootfs
    | some path =>
      rw [not_and_or, not_not, not_not] at other
      obtain ⟨outcome, -, result⟩ := loadBinaryWithSig_rootfs production other rootfs
      rw [result]

end Signed

/-! ### A signature file with a hole -/

def sparseSignature : FmHandle where
  mountPath := some ['/', 's', 'd']
  files := fun path =>
    if path = ['/', 's', 'd', '/', 'I', '.', 's', 'i', 'g'] then
      ⟨true, true, true, sizeofHeader, [], Nat.zero_le _⟩
    else (signedImage [] [0xAA]).files path

end Cboot.LinuxBoot
