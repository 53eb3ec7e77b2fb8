/-
**Loading a file or a partition.**

`tegrabl_fm_read` reads a file of the file system that is mounted and, when it cannot, a partition of
the device. The size of the file is compared with the room that the caller has, and the driver is then
asked for the file; what it answers is only tested for an error.

A file system of ext4 is read by the driver in `Cboot.Ext4`. For one of ext2 what a read does is an
input. So is what the file system finds at a path.
-/

import Cboot.Ext4.Cover
import Cboot.PartitionManager.Lookup

namespace Cboot.FileManager

open Gpt Ext4 PartitionManager

/-! ### The file system -/

structure Ext2Driver where
  readFile : Inode → Nat → Nat → Nat → Io → Int × Io
  fileByte : Inode → Nat → Byte
  records : ∀ inode buf offset len io a, (readFile inode buf offset len io).2.mem a ≠ io.mem a →
    ∃ w ∈ (readFile inode buf offset len io).2.writes, w.1 ≤ a ∧ a < w.1 + w.2

inductive FileSystem
  | ext4 (fs : Fs)
  | ext2 (driver : Ext2Driver)

def FileSystem.readFile (disk : Disk) : FileSystem → Inode → Nat → Nat → Nat → Io → Int × Io
  | .ext4 fs => ext4ReadFile fs disk
  | .ext2 driver => driver.readFile

def FileSystem.byte (bytes : ByteMem) : FileSystem → Inode → Nat → Byte
  | .ext4 fs, inode => fileByte fs (treeExtents fs bytes inode) bytes
  | .ext2 driver, inode => driver.fileByte inode

structure Env where
  storage : Option StorageList
  blockSizeLog2 : Nat
  disk : Disk
  fileSystem : FileSystem
  fileAt : List Byte → Except Int Inode
  readError : ErrorValue

structure FmHandle where
  bdev : Nat
  mountPath : Option (List Byte)

structure FmRead where
  error : Result Unit
  io : Io
  size : Nat
  fromFs : Bool

def fmError {α : Type} (reason : ErrReason) (auxInfo : Nat) : Result α :=
  tegrablError .fileManager reason auxInfo

def fsMaxPathLen : Nat := 128

section Model

variable (env : Env)

def fsOpenFile (path : List Byte) : Except Int Inode := env.fileAt (path.take (fsMaxPathLen - 1))

def loadFromFs (mountPath filePath : List Byte) (loadAddress size : Nat) (io : Io) :
    Result Nat × Io :=
  if 200 ≤ mountPath.length + filePath.length then (fmError .overflow 2, io)
  else match fsOpenFile env (mountPath ++ filePath) with
    | .error _ => (fmError .openFailed 0, io)
    | .ok inode =>
      if size < inode.size then (fmError .overflow 0, io)
      else
        let out := env.fileSystem.readFile env.disk inode loadAddress 0 inode.size io
        if out.1.bmod (2 ^ 32) < 0 then (fmError .readFailed 1, out.2)
        else (.ok (inode.size % 2 ^ 32), out.2)

def tegrablPartitionRead (p : NamedPartition) (buf numBytes : Nat) (io : Io) : Result Unit × Io :=
  if buf = 0 ∨ numBytes = 0 then (managerError .invalid 4, io)
  else if p.totalSize < numBytes then (managerError .overflow 1, io)
  else match tegrablBlockdevRead env.disk buf (p.startSector * 2 ^ env.blockSizeLog2 % 2 ^ 64)
      numBytes io with
    | (.error _, io') => (.error (setHighestModule .partitionManager env.readError), io')
    | (.ok _, io') => (.ok (), io')

def tegrablFmReadPartition (bdev : Nat) (partitionName : Option (List Byte)) (loadAddress size : Nat)
    (io : Io) : FmRead :=
  match partitionName with
  | none => ⟨fmError .invalid 3, io, size, false⟩
  | some name =>
    if bdev = 0 ∨ loadAddress = 0 then ⟨fmError .invalid 3, io, size, false⟩
    else match tegrablPartitionLookupBdev env.storage name bdev none with
      | (.error error, _) => ⟨.error (setHighestModule .fileManager error), io, size, false⟩
      | (.ok _, partition) =>
        match partition.bind fun handle => handle.array[handle.index]? with
        | none => ⟨fmError .invalid 4, io, size, false⟩
        | some p =>
          let partitionSize := p.totalSize % 2 ^ 32
          if partitionSize = 0 then ⟨fmError .invalid 4, io, size, false⟩
          else if size < partitionSize then ⟨fmError .overflow 1, io, size, false⟩
          else match tegrablPartitionRead env p loadAddress partitionSize io with
            | (.error error, io') => ⟨.error (setHighestModule .fileManager error), io', size, false⟩
            | (.ok _, io') => ⟨.ok (), io', partitionSize, false⟩

def loadFromPartition (handle : FmHandle) (partitionName : Option (List Byte))
    (loadAddress size : Nat) (error : Result Unit) (io : Io) : FmRead :=
  match partitionName with
  | none => ⟨error, io, size, false⟩
  | some _ => tegrablFmReadPartition env handle.bdev partitionName loadAddress size io

def tegrablFmRead (handle : Option FmHandle) (filePath partitionName : Option (List Byte))
    (loadAddress size : Nat) (io : Io) : FmRead :=
  match handle with
  | none => ⟨fmError .invalid 3, io, size, false⟩
  | some handle =>
    match filePath, handle.mountPath with
    | some filePath, some mountPath =>
      match loadFromFs env mountPath filePath loadAddress size io with
      | (.ok fileSize, io') => ⟨.ok (), io', fileSize, true⟩
      | (.error error, io') =>
        loadFromPartition env handle partitionName loadAddress size (.error error) io'
    | _, _ => loadFromPartition env handle partitionName loadAddress size (.ok ()) io

end Model

/-! ### What is asked for -/

def FileOf (env : Env) (handle : FmHandle) (filePath : Option (List Byte)) (inode : Inode) : Prop :=
  ∃ mountPath path, handle.mountPath = some mountPath ∧ filePath = some path ∧
    env.fileAt (mountPath ++ path) = .ok inode

def StorageList.partitionsOf (storage : StorageList) (bdev : Nat) : List NamedPartition :=
  (storage.entries.filter fun entry => entry.bdev == bdev).flatMap (·.partitions)

def PartitionOf (env : Env) (handle : FmHandle) (partitionName : Option (List Byte))
    (p : NamedPartition) : Prop :=
  ∃ storage name, env.storage = some storage ∧ partitionName = some name ∧
    (StorageList.partitionsOf storage handle.bdev).find? (fun p => cString p.name == name) = some p

def Holds (mem : ByteMem) (loadAddress size : Nat) (content : Nat → Byte) : Prop :=
  ∀ j < size, mem (loadAddress + j) = content j

def partitionByte (env : Env) (p : NamedPartition) (j : Nat) : Byte :=
  env.disk.bytes (p.startSector * 2 ^ env.blockSizeLog2 % 2 ^ 64 + j)

/-- **What a call promises**: the whole file or the whole partition, its length, which of the two it
is, and nothing behind the room of `n` bytes. -/
structure Loaded (env : Env) (handle : FmHandle) (filePath partitionName : Option (List Byte))
    (loadAddress n : Nat) (out : FmRead) : Prop where
  content : (out.fromFs = true ∧ ∃ inode, FileOf env handle filePath inode ∧ out.size = inode.size ∧
      Holds out.io.mem loadAddress out.size (env.fileSystem.byte env.disk.bytes inode)) ∨
    (out.fromFs = false ∧ ∃ p, PartitionOf env handle partitionName p ∧ out.size = p.totalSize ∧
      Holds out.io.mem loadAddress out.size (partitionByte env p))
  below : out.io.Below (loadAddress + n)

/-! ### The lookup -/

theorem flatMap_find {entries : List StorageInfo} {isMatch : NamedPartition → Bool} {bdev : Nat}
    {entry : StorageInfo}
    (first : entries.find? (holdsMatch (fun e => e.bdev == bdev) isMatch) = some entry) :
    ((entries.filter fun e => e.bdev == bdev).flatMap (·.partitions)).find? isMatch =
      entry.partitions.find? isMatch := by
  induction entries with
  | nil => simp at first
  | cons e rest ih =>
    rw [List.find?_cons] at first
    cases holds : holdsMatch (fun e => e.bdev == bdev) isMatch e with
    | true =>
      rw [holds] at first
      obtain rfl := Option.some.inj first
      obtain ⟨here, found⟩ := Bool.and_eq_true_iff.mp holds
      have kept : (e :: rest).filter (fun e => e.bdev == bdev) =
          e :: rest.filter fun e => e.bdev == bdev := List.filter_cons_of_pos here
      rw [kept, List.flatMap_cons, List.find?_append]
      obtain ⟨p, isFound⟩ := Option.isSome_iff_exists.mp
        (List.find?_isSome.mpr (List.any_eq_true.mp found))
      rw [isFound]
      rfl
    | false =>
      rw [holds] at first
      unfold holdsMatch at holds
      cases here : e.bdev == bdev with
      | true =>
        have missing : e.partitions.find? isMatch = none := by
          simpa [here, List.any_eq_false] using holds
        have kept : (e :: rest).filter (fun e => e.bdev == bdev) =
            e :: rest.filter fun e => e.bdev == bdev := List.filter_cons_of_pos here
        rw [kept, List.flatMap_cons, List.find?_append, missing, Option.none_or, ih first]
      | false =>
        have dropped : (e :: rest).filter (fun e => e.bdev == bdev) =
            rest.filter fun e => e.bdev == bdev := List.filter_cons_of_neg (by simp [here])
        rw [dropped, ih first]

theorem lookupBdev_ok {storage : Option StorageList} {name : List Byte} {bdev : Nat}
    {partition : Option Handle}
    (ran : tegrablPartitionLookupBdev storage name bdev none = (.ok (), partition)) :
    ∃ list p, storage = some list ∧
      (partition.bind fun handle => handle.array[handle.index]?) = some p ∧
      (StorageList.partitionsOf list bdev).find? (fun p => cString p.name == name) = some p := by
  unfold tegrablPartitionLookupBdev at ran
  split at ran
  · cases congrArg Prod.fst ran
  cases storage with
  | none => cases congrArg Prod.fst ran
  | some list =>
    dsimp only at ran
    rw [lookupByName_ok] at ran
    cases first : list.entries.find? (holdsMatch (fun e => e.bdev == bdev)
        fun p => cString p.name == name) with
    | none =>
      rw [first] at ran
      cases congrArg Prod.fst ran
    | some entry =>
      rw [first] at ran
      obtain rfl := (congrArg Prod.snd ran).symm
      have holds : holdsMatch (fun e => e.bdev == bdev) (fun p => cString p.name == name) entry =
          true := List.find?_some first
      obtain ⟨-, found⟩ := Bool.and_eq_true_iff.mp holds
      obtain ⟨p, isFound⟩ := Option.isSome_iff_exists.mp
        (List.find?_isSome.mpr (List.any_eq_true.mp found))
      refine ⟨list, p, rfl, ?_, (flatMap_find first).trans isFound⟩
      exact List.find?_eq_getElem?_findIdx.symm.trans isFound

/-! ### The ways to return -/

section Cases

variable {env : Env} {handle : FmHandle} {filePath partitionName : Option (List Byte)}
  {loadAddress n : Nat} {io : Io}

def attempt (env : Env) (handle : FmHandle) (filePath : Option (List Byte)) (loadAddress n : Nat)
    (io : Io) : Io :=
  match filePath, handle.mountPath with
  | some path, some mountPath => (loadFromFs env mountPath path loadAddress n io).2
  | _, _ => io

structure FromFile (env : Env) (handle : FmHandle) (filePath : Option (List Byte))
    (loadAddress n : Nat) (io : Io) (opened : Inode) (out : FmRead) : Prop where
  path : ∃ mountPath path, handle.mountPath = some mountPath ∧ filePath = some path ∧
    fsOpenFile env (mountPath ++ path) = .ok opened
  fits : opened.size ≤ n
  status : 0 ≤ (env.fileSystem.readFile env.disk opened loadAddress 0 opened.size io).1.bmod (2 ^ 32)
  isOut : out = ⟨.ok (), (env.fileSystem.readFile env.disk opened loadAddress 0 opened.size io).2,
    opened.size % 2 ^ 32, true⟩

structure FromPartition (env : Env) (handle : FmHandle)
    (filePath partitionName : Option (List Byte)) (loadAddress n : Nat) (io : Io)
    (p : NamedPartition) (out : FmRead) : Prop where
  found : PartitionOf env handle partitionName p
  fits : p.totalSize % 2 ^ 32 ≤ n
  isOut : out = ⟨.ok (), (attempt env handle filePath loadAddress n io).filled env.disk.bytes
    loadAddress (p.startSector * 2 ^ env.blockSizeLog2 % 2 ^ 64) (p.totalSize % 2 ^ 32),
    p.totalSize % 2 ^ 32, false⟩

theorem partitionRead_ok {p : NamedPartition} {buf numBytes : Nat} {io io' : Io}
    (ran : tegrablPartitionRead env p buf numBytes io = (.ok (), io')) :
    io' = io.filled env.disk.bytes buf (p.startSector * 2 ^ env.blockSizeLog2 % 2 ^ 64) numBytes := by
  unfold tegrablPartitionRead at ran
  split at ran
  · cases congrArg Prod.fst ran
  split at ran
  · cases congrArg Prod.fst ran
  unfold tegrablBlockdevRead at ran
  split at ran
  · next failed =>
    split at failed <;> cases ran
  · next read =>
    split at read
    · cases read
    · obtain ⟨-, rfl⟩ := Prod.mk.inj read
      exact (congrArg Prod.snd ran).symm

theorem fmReadPartition_ok
    (returned : (tegrablFmReadPartition env handle.bdev partitionName loadAddress n
      (attempt env handle filePath loadAddress n io)).error = .ok ()) :
    ∃ p, FromPartition env handle filePath partitionName loadAddress n io p
      (tegrablFmReadPartition env handle.bdev partitionName loadAddress n
        (attempt env handle filePath loadAddress n io)) := by
  unfold tegrablFmReadPartition at returned ⊢
  cases partitionName with
  | none => cases returned
  | some name =>
    dsimp only at returned ⊢
    split at returned
    · cases returned
    next accepted =>
    rw [if_neg accepted]
    split at returned
    · cases returned
    next partition looked =>
    obtain ⟨list, p, isList, isPart, first⟩ := lookupBdev_ok looked
    rw [isPart] at returned ⊢
    dsimp only at returned ⊢
    split at returned
    · cases returned
    next some_ =>
    rw [if_neg some_]
    split at returned
    · cases returned
    next room =>
    rw [if_neg room]
    split at returned
    · cases returned
    next io' read =>
    exact ⟨p, ⟨list, name, isList, rfl, first⟩, Nat.not_lt.mp room, by rw [partitionRead_ok read]⟩

theorem loadFromFs_ok {mountPath path : List Byte} {fileSize : Nat} {io' : Io}
    (ran : loadFromFs env mountPath path loadAddress n io = (.ok fileSize, io')) :
    ∃ opened, fsOpenFile env (mountPath ++ path) = .ok opened ∧ opened.size ≤ n ∧
      0 ≤ (env.fileSystem.readFile env.disk opened loadAddress 0 opened.size io).1.bmod (2 ^ 32) ∧
      fileSize = opened.size % 2 ^ 32 ∧
      io' = (env.fileSystem.readFile env.disk opened loadAddress 0 opened.size io).2 := by
  unfold loadFromFs at ran
  split at ran
  · cases congrArg Prod.fst ran
  cases isOpen : fsOpenFile env (mountPath ++ path) with
  | error err =>
    rw [isOpen] at ran
    cases congrArg Prod.fst ran
  | ok opened =>
    rw [isOpen] at ran
    dsimp only at ran
    split at ran
    · cases congrArg Prod.fst ran
    next room =>
    split at ran
    · cases congrArg Prod.fst ran
    next status =>
    obtain ⟨same, isIo⟩ := Prod.mk.inj ran
    exact ⟨opened, rfl, Nat.not_lt.mp room, Int.not_lt.mp status, (Except.ok.inj same).symm, isIo.symm⟩

theorem fmRead_cases
    (returned : (tegrablFmRead env (some handle) filePath partitionName loadAddress n io).error =
      .ok ()) :
    (∃ opened, FromFile env handle filePath loadAddress n io opened
      (tegrablFmRead env (some handle) filePath partitionName loadAddress n io)) ∨
    (∃ p, FromPartition env handle filePath partitionName loadAddress n io p
      (tegrablFmRead env (some handle) filePath partitionName loadAddress n io)) ∨
    partitionName = none ∧
      (tegrablFmRead env (some handle) filePath partitionName loadAddress n io).fromFs = false := by
  have fallBack : ∀ error : Result Unit,
      tegrablFmRead env (some handle) filePath partitionName loadAddress n io =
        loadFromPartition env handle partitionName loadAddress n error
          (attempt env handle filePath loadAddress n io) →
      (∃ p, FromPartition env handle filePath partitionName loadAddress n io p
        (tegrablFmRead env (some handle) filePath partitionName loadAddress n io)) ∨
      partitionName = none ∧
        (tegrablFmRead env (some handle) filePath partitionName loadAddress n io).fromFs = false := by
    intro error isFall
    rw [isFall] at returned ⊢
    cases partitionName with
    | none => exact .inr ⟨rfl, rfl⟩
    | some name => exact .inl (fmReadPartition_ok returned)
  cases isPath : filePath with
  | none =>
    refine .inr (isPath ▸ fallBack (.ok ()) ?_)
    rw [isPath]
    rfl
  | some path =>
    cases isMount : handle.mountPath with
    | none =>
      refine .inr (isPath ▸ fallBack (.ok ()) ?_)
      unfold tegrablFmRead attempt
      simp only [isPath, isMount]
    | some mountPath =>
      have isAttempt : attempt env handle filePath loadAddress n io =
          (loadFromFs env mountPath path loadAddress n io).2 := by
        unfold attempt
        simp only [isPath, isMount]
      have isCall : tegrablFmRead env (some handle) filePath partitionName loadAddress n io =
          match loadFromFs env mountPath path loadAddress n io with
          | (.ok fileSize, io') => ⟨.ok (), io', fileSize, true⟩
          | (.error error, io') =>
            loadFromPartition env handle partitionName loadAddress n (.error error) io' := by
        unfold tegrablFmRead
        simp only [isPath, isMount]
      rw [← isPath]
      cases loaded : loadFromFs env mountPath path loadAddress n io with
      | mk result io' =>
        rw [loaded] at isCall isAttempt
        cases result with
        | error error => exact .inr (fallBack (.error error) (by rw [isCall, isAttempt]))
        | ok fileSize =>
          obtain ⟨opened, isOpen, fits, status, isSize, isIo⟩ := loadFromFs_ok loaded
          refine .inl ⟨opened, ⟨mountPath, path, isMount, isPath, isOpen⟩, fits, status, ?_⟩
          rw [isCall, isSize, isIo]

/-! ### When a file has been loaded -/

def FileRight (env : Env) (opened inode : Inode) (loadAddress n : Nat) (io : Io) : Prop :=
  let out := env.fileSystem.readFile env.disk opened loadAddress 0 opened.size io
  let placed := Holds out.2.mem loadAddress opened.size (env.fileSystem.byte env.disk.bytes inode) ∧
    out.2.Below (loadAddress + n)
  match env.fileSystem with
  | .ext4 fs =>
    (WellFormed fs env.disk.bytes opened ∧ Small fs env.disk.bytes opened →
      out.1 ≤ n ∧ ∀ j < opened.size,
        (mapByte fs (firstLeaf fs env.disk.bytes opened) j).elim (out.2.mem (loadAddress + j))
          env.disk.bytes = fileByte fs (treeExtents fs env.disk.bytes inode) env.disk.bytes j) ∧
    (¬ (WellFormed fs env.disk.bytes opened ∧ Small fs env.disk.bytes opened) → placed)
  | .ext2 _ => placed

theorem not_readError {ret : Int} (status : 0 ≤ ret.bmod (2 ^ 32)) : ¬ IsReadError ret := by
  rintro (rfl | rfl)
  all_goals exact absurd status (by decide)

theorem readFile_regular {fs : Fs} {disk : Disk} {inode : Inode}
    (succeeded : ¬ IsReadError (ext4ReadFile fs disk inode loadAddress 0 inode.size io).1) :
    ext4ReadFile fs disk inode loadAddress 0 inode.size io =
      ext4ReadDataFromExtent fs disk inode loadAddress io := by
  unfold ext4ReadFile at succeeded ⊢
  split at succeeded
  · exact absurd (.inl rfl) succeeded
  · next regular => rw [if_neg regular]

theorem fileRight_iff (opened inode : Inode) (unwritten : io.writes = [])
    (status : 0 ≤
      (env.fileSystem.readFile env.disk opened loadAddress 0 opened.size io).1.bmod (2 ^ 32)) :
    FileRight env opened inode loadAddress n io ↔
      Holds (env.fileSystem.readFile env.disk opened loadAddress 0 opened.size io).2.mem loadAddress
        opened.size (env.fileSystem.byte env.disk.bytes inode) ∧
      (env.fileSystem.readFile env.disk opened loadAddress 0 opened.size io).2.Below
        (loadAddress + n) := by
  unfold FileRight
  cases isFs : env.fileSystem with
  | ext2 driver => rfl
  | ext4 fs =>
    have succeeded : ¬ IsReadError
        (ext4ReadFile fs env.disk opened loadAddress 0 opened.size io).1 := by
      rw [isFs] at status
      exact not_readError status
    clear status
    dsimp only [FileSystem.readFile, FileSystem.byte]
    by_cases described : WellFormed fs env.disk.bytes opened ∧ Small fs env.disk.bytes opened
    · obtain ⟨wf, small⟩ := described
      have regular := readFile_regular succeeded
      rw [regular] at succeeded ⊢
      cases ran : ext4ReadDataFromExtent fs env.disk opened loadAddress io with
      | mk ret io' =>
        rw [ran] at succeeded
        dsimp only at succeeded ⊢
        obtain ⟨total, -, placed⟩ := (readData_placed wf small ran).resolve_left succeeded
        have bytes : ∀ j, (mapByte fs (firstLeaf fs env.disk.bytes opened) j).elim
            (io'.mem (loadAddress + j)) env.disk.bytes = io'.mem (loadAddress + j) := by
          intro j
          cases mapped : mapByte fs (firstLeaf fs env.disk.bytes opened) j with
          | none => rfl
          | some pos => exact (placed.covered j pos mapped).symm
        simp only [bytes, ← readData_below_iff wf small unwritten ran succeeded, Holds, wf, small,
          true_and, forall_const, not_true_eq_false, IsEmpty.forall_iff, and_true, and_comm]
    · simp only [described, IsEmpty.forall_iff, true_and, not_false_eq_true, forall_const]

/-! ### When a call has loaded what was asked for -/

def Right (env : Env) (handle : FmHandle) (filePath partitionName : Option (List Byte))
    (loadAddress n : Nat) (io : Io) (out : FmRead) : Prop :=
  (out.fromFs = true ∧ ∃ opened inode mountPath path,
    handle.mountPath = some mountPath ∧ filePath = some path ∧
    fsOpenFile env (mountPath ++ path) = .ok opened ∧ env.fileAt (mountPath ++ path) = .ok inode ∧
    inode.size = opened.size ∧ FileRight env opened inode loadAddress n io) ∨
  (out.fromFs = false ∧ ∃ p, PartitionOf env handle partitionName p ∧ p.totalSize < 2 ^ 32 ∧
    (attempt env handle filePath loadAddress n io).Below (loadAddress + n))

theorem Loaded.from_file {opened : Inode} {out : FmRead} (bound : n < 2 ^ 32)
    (unwritten : io.writes = [])
    (file : FromFile env handle filePath loadAddress n io opened out) :
    Loaded env handle filePath partitionName loadAddress n out ↔
      Right env handle filePath partitionName loadAddress n io out := by
  obtain ⟨⟨mountPath, path, isMount, isPath, isOpen⟩, fits, status, rfl⟩ := file
  have whole : opened.size % 2 ^ 32 = opened.size := Nat.mod_eq_of_lt (by omega)
  rw [whole]
  constructor
  · rintro ⟨⟨-, inode, ⟨mountPath', path', isMount', isPath', isFile⟩, isSize, holds⟩ | ⟨other, -⟩,
      below⟩
    · obtain rfl := Option.some.inj (isMount.symm.trans isMount')
      obtain rfl := Option.some.inj (isPath.symm.trans isPath')
      exact .inl ⟨rfl, opened, inode, mountPath, path, isMount, isPath, isOpen, isFile, isSize.symm,
        (fileRight_iff opened inode unwritten status).mpr ⟨holds, below⟩⟩
    · cases other
  · rintro (⟨-, opened', inode, mountPath', path', isMount', isPath', isOpen', isFile, isSize, right⟩
      | ⟨other, -⟩)
    · obtain rfl := Option.some.inj (isMount.symm.trans isMount')
      obtain rfl := Option.some.inj (isPath.symm.trans isPath')
      obtain rfl := Except.ok.inj (isOpen.symm.trans isOpen')
      obtain ⟨holds, below⟩ := (fileRight_iff opened inode unwritten status).mp right
      exact ⟨.inl ⟨rfl, inode, ⟨mountPath, path, isMount, isPath, isFile⟩, isSize.symm, holds⟩, below⟩
    · cases other

theorem filled_below_iff {limit buf addr len : Nat} (io : Io) (source : ByteMem)
    (within : buf + len ≤ limit) : (io.filled source buf addr len).Below limit ↔ io.Below limit := by
  unfold Io.Below Io.filled
  simp only [List.mem_append, List.mem_singleton]
  constructor
  · exact fun below w written => below w (.inl written)
  · rintro below w (written | rfl) a above before
    · exact below w written a above before
    · exact Nat.lt_of_lt_of_le before within

theorem Loaded.from_partition {p : NamedPartition} {out : FmRead}
    (part : FromPartition env handle filePath partitionName loadAddress n io p out) :
    Loaded env handle filePath partitionName loadAddress n out ↔
      Right env handle filePath partitionName loadAddress n io out := by
  obtain ⟨found, fits, rfl⟩ := part
  have same : ∀ q, PartitionOf env handle partitionName q → q = p := by
    rintro q ⟨list, name, isList, isName, first⟩
    obtain ⟨list', name', isList', isName', first'⟩ := found
    obtain rfl := Option.some.inj (isList.symm.trans isList')
    obtain rfl := Option.some.inj (isName.symm.trans isName')
    exact Option.some.inj (first.symm.trans first')
  have inside : loadAddress + p.totalSize % 2 ^ 32 ≤ loadAddress + n := Nat.add_le_add_left fits _
  constructor
  · rintro ⟨⟨other, -⟩ | ⟨-, q, isPart, isSize, -⟩, below⟩
    · cases other
    · obtain rfl := same q isPart
      refine .inr ⟨rfl, q, isPart, ?_, (filled_below_iff _ _ inside).mp below⟩
      have whole : q.totalSize % 2 ^ 32 = q.totalSize := isSize
      omega
  · rintro (⟨other, -⟩ | ⟨-, q, isPart, small, below⟩)
    · cases other
    · obtain rfl := same q isPart
      refine ⟨.inr ⟨rfl, q, isPart, Nat.mod_eq_of_lt small, ?_⟩,
        (filled_below_iff _ _ inside).mpr below⟩
      intro j bound
      refine (ByteMem.copyFrom_inside _ _ (Nat.le_add_right _ _)
        (Nat.add_lt_add_left bound _)).trans ?_
      rw [Nat.add_sub_cancel_left]
      rfl

end Cases

/-! #### A file, and nothing -/

def sampleEnv : Env where
  storage := none
  blockSizeLog2 := 9
  disk := cleanDisk zeroMem
  fileSystem := .ext4 sampleFs
  fileAt _ := .ok flatInode
  readError := ⟨.noModule, .noModule, 0, .invalid⟩

def sampleHandle : FmHandle := ⟨1, some [0x2F]⟩

def sampleRead : FmRead :=
  tegrablFmRead sampleEnv (some sampleHandle) (some [0x61]) none 0x1000 4096 (startIo zeroMem)

end Cboot.FileManager
