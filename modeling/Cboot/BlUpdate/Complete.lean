/-
**What an update that succeeds has written.**

For each name the first entry of the payload that is for this device should be written to the
partition of that name in the slot that is updated. An update can succeed without that: when the
buffer has no payload or one of another type, when the specification of the platform cannot be read
at the time a partition is updated, and for names that start with `BCT`, which the callback for the
BCT writes to the partition `BCT`.
-/

import Cboot.BlUpdate.Traversal

namespace Cboot.BlUpdate

open Prog PartitionManager

/-! ### What is to be written -/

section Spec

variable {σ : Type} (platform : Platform σ) (cbs : Callbacks σ) (blob : Blob) (suffix : List Byte)

structure FirstFor (i : Nat) (entry : ImageEntry) : Prop where
  inside : i < blob.numEntries
  read : blob.getEntry i = .ok entry
  isFor : entry.isFor platform.specInfo platform.opMode = true
  first : ∀ j < i, ∀ other, blob.getEntry j = .ok other → key other.partname = key entry.partname →
    other.isFor platform.specInfo platform.opMode = false

def slotName (slot : Nat) (name : List Byte) : List Byte :=
  if partitionHasSlot platform cbs name = false then name else getFullPartName cbs slot name

def Diverted (name : List Byte) : Prop :=
  cbs.updateBct ≠ none ∧ brBctPartitionName.isPrefixOf name = true

instance (name : List Byte) : Decidable (Diverted cbs name) :=
  decidable_of_iff (cbs.updateBct.isSome = true ∧ brBctPartitionName.isPrefixOf name = true)
    (by simp [Diverted, Option.ne_none_iff_isSome])

def writeTarget (name : List Byte) : Result Target :=
  openPartition platform (if Diverted cbs name then brBctPartitionName else name)

def WrittenTo (i : Nat) (entry : ImageEntry) (target : Target) (s : UpdateState σ) : Prop :=
  ∃ data size, blob.getEntryData i = .ok (data, size) ∧
    ⟨i, target, data, entry.imageSize⟩ ∈ s.written

def EntryWritten (i : Nat) (entry : ImageEntry) (s : UpdateState σ) : Prop :=
  ∃ slot target, tegrablABGetSlotViaSuffix suffix = .ok slot ∧
    openPartition platform (slotName platform cbs slot entry.partname) = .ok target ∧
    WrittenTo blob i entry target s

structure Complete (s : UpdateState σ) : Prop where
  isBlob : blob.init = .ok ()
  isUpdate : blob.isUpdate = true
  written : ∀ i entry, FirstFor platform blob i entry → EntryWritten platform cbs blob suffix i entry s

def Delivered (i : Nat) (entry : ImageEntry) (s : UpdateState σ) : Prop :=
  ∃ slot target, tegrablABGetSlotViaSuffix suffix = .ok slot ∧
    writeTarget platform cbs (slotName platform cbs slot entry.partname) = .ok target ∧
    WrittenTo blob i entry target s

end Spec

theorem isPrefixOf_take {short name : List Byte} {n : Nat} (fits : short.length ≤ n) :
    short.isPrefixOf (name.take n) = short.isPrefixOf name := by
  rw [Bool.eq_iff_iff, List.isPrefixOf_iff_prefix, List.isPrefixOf_iff_prefix]
  exact ⟨fun starts => starts.trans (List.take_prefix n name), fun starts =>
    List.prefix_take_iff.mpr ⟨starts, fits⟩⟩

theorem bct_isPrefixOf_append (name : List Byte) :
    brBctPartitionName.isPrefixOf (name ++ bootChainSuffixB) = brBctPartitionName.isPrefixOf name := by
  match name with
  | [] => decide
  | [a] | [a, b] => simp [brBctPartitionName, bootChainSuffixB, List.isPrefixOf]
  | a :: b :: c :: rest => simp [brBctPartitionName, List.isPrefixOf]

section Steps

variable {σ : Type} {platform : Platform σ} {cbs : Callbacks σ} {blob : Blob} {suffix : List Byte}

theorem diverted_getFullPartName (slot : Nat) (name : List Byte) :
    Diverted cbs (getFullPartName cbs slot name) ↔ Diverted cbs name := by
  have copy : brBctPartitionName.isPrefixOf (name.take (gptPartNameLen - 1)) =
      brBctPartitionName.isPrefixOf name := isPrefixOf_take (by decide)
  unfold Diverted getFullPartName
  dsimp only
  split
  · rw [copy]
  · split
    · rw [copy]
    · rw [bct_isPrefixOf_append, copy]

theorem diverted_slotName (slot : Nat) (name : List Byte) :
    Diverted cbs (slotName platform cbs slot name) ↔ Diverted cbs name := by
  unfold slotName
  split
  · rfl
  · exact diverted_getFullPartName slot name

/-! ### What the steps leave alone -/

def view (s : UpdateState σ) : List (List Byte) × List (List Byte) × Nat × List Written :=
  (s.updated, s.missed, s.entry, s.written)

def Quiet {α : Type} (p : Prog ErrorValue (UpdateState σ) α) : Prop :=
  ∀ v, Keeps (fun s => view s = v) p

theorem Quiet.keeps {α : Type} {p : Prog ErrorValue (UpdateState σ) α} (quiet : Quiet p)
    {inv : UpdateState σ → Prop} (same : ∀ s s', view s' = view s → inv s → inv s') :
    Keeps inv p := by
  intro s holds x run
  exact (quiet (view s) s rfl x run).mono (fun _ s' kept => same s s' kept holds) fun s' kept =>
    same s s' kept holds

variable {α : Type}

theorem Quiet.pure (a : α) : Quiet (Pure.pure a : Prog ErrorValue (UpdateState σ) α) :=
  fun _ => Keeps.pure

theorem Quiet.fail {α : Type} (e : ErrorValue) :
    Quiet (Prog.fail e : Prog ErrorValue (UpdateState σ) α) := fun _ => Keeps.fail

theorem callback_quiet (f : σ → Result α × σ) : Quiet (callback f) :=
  fun _ => Keeps.step fun _ => id

theorem suffixCall_quiet : Quiet (suffixCall cbs) := fun v =>
  Triple.ite (fun _ => Quiet.pure () v) fun _ => callback_quiet _ v

theorem callbackOr_quiet (f : Option (σ → Result α × σ)) : Quiet (callbackOr f) := by
  cases f with
  | none => exact Quiet.fail _
  | some f => exact callback_quiet f

theorem allocate_quiet (size : Nat) : Quiet (allocate platform size) :=
  fun _ => Keeps.step fun _ => id

theorem eraseOnQspi_quiet (target : Target) : Quiet (eraseOnQspi platform target) := fun v => by
  refine Triple.ite (fun _ => ?_) fun _ => Quiet.pure () v
  exact Triple.recover (Keeps.step fun _ => id) fun _ => Quiet.fail _ v

theorem isUpdateAllSlotsRequired_quiet (isBlob : Bool) :
    Quiet (isUpdateAllSlotsRequired cbs isBlob) := fun v => by
  have stored : ∀ required, Keeps (fun s : UpdateState σ => view s = v) (storeRequired required) := by
    intro required
    refine Triple.bind (?_ : Keeps _ _) fun _ => Quiet.pure required v
    exact Triple.modify fun _ => id
  refine Triple.readAny fun s => ?_
  refine Triple.ite (fun _ => Quiet.pure _ v) fun _ => ?_
  match cbs.isRatchetUpdateRequired with
  | none => exact stored false
  | some (.error _) => exact Triple.ite (fun _ => Triple.stuck) fun _ => stored false
  | some (.ok required) => exact Triple.ite (fun _ => Triple.stuck) fun _ => stored required

/-! ### What one entry writes -/

structure Within (platform : Platform σ) (cbs : Callbacks σ) (s₀ : UpdateState σ) (i : Nat)
    (name : List Byte) (s : UpdateState σ) : Prop where
  updated : s.updated = s₀.updated
  missed : s.missed = s₀.missed
  entry : s.entry = i
  old : ∀ w ∈ s₀.written, w ∈ s.written
  new : ∀ w ∈ s.written, w ∈ s₀.written ∨
    w.entry = i ∧ (Diverted cbs name → openPartition platform brBctPartitionName = .ok w.target)

variable {s₀ : UpdateState σ} {i : Nat} {name : List Byte}

variable {s s' : UpdateState σ}

theorem of_view_eq (same : view s' = view s) : s'.updated = s.updated ∧ s'.missed = s.missed ∧
    s'.entry = s.entry ∧ s'.written = s.written := by
  simpa only [view, Prod.mk.injEq] using same

theorem Within.of_view (same : view s' = view s)
    (within : Within platform cbs s₀ i name s) : Within platform cbs s₀ i name s' := by
  obtain ⟨updated, missed, entry, written⟩ := of_view_eq same
  exact ⟨updated.trans within.updated, missed.trans within.missed, entry.trans within.entry,
    written ▸ within.old, written ▸ within.new⟩

theorem Quiet.within {p : Prog ErrorValue (UpdateState σ) α} (quiet : Quiet p) :
    Keeps (Within platform cbs s₀ i name) p :=
  quiet.keeps fun _ _ same within => within.of_view same

theorem writeToPartition_triple {target : Target} (data size : Nat)
    (allowed : Diverted cbs name → openPartition platform brBctPartitionName = .ok target) :
    Triple (Within platform cbs s₀ i name) (writeToPartition platform target data size)
      (fun _ s => Within platform cbs s₀ i name s ∧ ⟨i, target, data, size⟩ ∈ s.written)
      (Within platform cbs s₀ i name) := by
  intro s within x run
  obtain rfl := Option.some.inj run
  cases wrote : (platform.write target data size s.world).1 with
  | error e =>
    exact ⟨within.updated, within.missed, within.entry, within.old, within.new⟩
  | ok done =>
    refine ⟨⟨within.updated, within.missed, within.entry, fun w old => ?_, fun w written => ?_⟩, ?_⟩
    · exact List.mem_append_left _ (within.old w old)
    · rcases List.mem_append.mp written with old | new
      · exact within.new w old
      · rw [List.mem_singleton.mp new]
        exact .inr ⟨within.entry, allowed⟩
    · refine List.mem_append_right _ ?_
      rw [within.entry]
      exact List.mem_singleton_self _

theorem writePartition_triple {partName : List Byte} (data size : Nat)
    (sameKind : Diverted cbs partName ↔ Diverted cbs name) :
    Triple (Within platform cbs s₀ i name) (writePartition platform cbs partName data size)
      (fun _ s => Within platform cbs s₀ i name s ∧ ∃ target,
        writeTarget platform cbs partName = .ok target ∧ ⟨i, target, data, size⟩ ∈ s.written)
      (Within platform cbs s₀ i name) := by
  refine Triple.ofResultThen (fun _ => id) fun target opened => ?_
  refine Triple.bind (eraseOnQspi_quiet target).within fun _ => ?_
  split
  · next customerData isBct set =>
    have diverted : Diverted cbs partName := ⟨by rw [set]; exact Option.some_ne_none _, isBct⟩
    refine Triple.bind (callback_quiet customerData).within fun _ => ?_
    refine Triple.ofResultThen (fun _ => id) fun bct isOpen => ?_
    refine (writeToPartition_triple data size fun _ => isOpen).weaken ?_
    rintro - s ⟨within, written⟩
    refine ⟨within, bct, ?_, written⟩
    unfold writeTarget
    rw [if_pos diverted, isOpen]
  · next other =>
    have plain : ¬ Diverted cbs partName := by
      rintro ⟨set, isBct⟩
      obtain ⟨customerData, isSet⟩ := Option.ne_none_iff_exists'.mp set
      exact other customerData isBct isSet
    refine (writeToPartition_triple data size fun diverted => ?_).weaken ?_
    · exact absurd (sameKind.mpr diverted) plain
    · rintro - s ⟨within, written⟩
      refine ⟨within, target, ?_, written⟩
      unfold writeTarget
      rw [if_neg plain, opened]

theorem getSlotViaSuffix_within : Triple (Within platform cbs s₀ i name)
    (getSlotViaSuffix cbs suffix) (fun slot s => tegrablABGetSlotViaSuffix suffix = .ok slot ∧
      Within platform cbs s₀ i name s) (Within platform cbs s₀ i name) := by
  refine Triple.ite (fun _ => Keeps.fail) fun _ => ?_
  refine Triple.bind (callback_quiet cbs.suffixFault).within fun _ => ?_
  cases tegrablABGetSlotViaSuffix suffix with
  | error e => exact Keeps.fail
  | ok slot => exact Triple.pure fun _ within => ⟨rfl, within⟩

theorem writeOtherSlots_within (data size updateSlot : Nat) (slots : List Nat) :
    Keeps (Within platform cbs s₀ i name)
      (writeOtherSlots platform cbs name data size updateSlot slots) := by
  induction slots with
  | nil => exact Keeps.pure
  | cons other rest ih =>
    refine Triple.ite (fun _ => ih) fun _ => ?_
    refine Triple.bind suffixCall_quiet.within fun _ => ?_
    have writes : Keeps (Within platform cbs s₀ i name)
        (writePartition platform cbs (getFullPartName cbs other name) data size) :=
      (writePartition_triple data size (diverted_getFullPartName other name)).mono
        (fun _ => id) (fun _ _ post => post.1) fun _ => id
    exact Triple.bind writes fun _ => ih

theorem Keeps.withWritten {p : Prog ErrorValue (UpdateState σ) α} {w : Written}
    (keeps : ∀ s₀ : UpdateState σ, Keeps (Within platform cbs s₀ i name) p) :
    Keeps (fun s => Within platform cbs s₀ i name s ∧ w ∈ s.written) p := by
  rintro s ⟨within, written⟩ x run
  have self : Within platform cbs s i name s :=
    ⟨rfl, rfl, within.entry, fun _ => id, fun _ old => .inl old⟩
  have both := (keeps s₀).and (keeps s) s ⟨within, self⟩ x run
  exact both.mono (fun _ s' kept => ⟨kept.1, kept.2.old w written⟩) fun s' kept =>
    ⟨kept.1, kept.2.old w written⟩

theorem writeABPartition_triple (data size : Nat) :
    Triple (Within platform cbs s₀ i name) (writeABPartition platform cbs suffix name data size)
      (fun _ s => Within platform cbs s₀ i name s ∧ ∃ slot target,
        tegrablABGetSlotViaSuffix suffix = .ok slot ∧
        writeTarget platform cbs (slotName platform cbs slot name) = .ok target ∧
        ⟨i, target, data, size⟩ ∈ s.written)
      (Within platform cbs s₀ i name) := by
  refine Triple.bind getSlotViaSuffix_within fun slot => ?_
  refine Triple.fact fun isSlot => ?_
  refine Triple.bind suffixCall_quiet.within fun _ => ?_
  refine Triple.ite (fun alone => ?_) fun slots => ?_
  · refine (writePartition_triple data size Iff.rfl).weaken ?_
    rintro - s ⟨within, target, isTarget, written⟩
    refine ⟨within, slot, target, isSlot, ?_, written⟩
    unfold slotName
    rwa [if_pos alone]
  · refine Triple.bind suffixCall_quiet.within fun _ => ?_
    refine Triple.bind (writePartition_triple data size (diverted_getFullPartName slot name))
      fun _ => ?_
    -- The other slots come behind the write that counts.
    intro s reached
    obtain ⟨within, target, isTarget, written⟩ := reached
    have isName : slotName platform cbs slot name = getFullPartName cbs slot name := if_neg slots
    have others : Keeps (fun s => Within platform cbs s₀ i name s ∧
        ⟨i, target, data, size⟩ ∈ s.written) (do
        let numSlots ← callbackOr cbs.getSlotNum
        if numSlots = 1 then return ()
        else do
          let alwaysAb ← ofResult (alwaysAbPartition cbs name)
          let all ← isUpdateAllSlotsRequired cbs false
          if all || alwaysAb then
            writeOtherSlots platform cbs name data size slot (List.range numSlots)
          else return ()) := by
      refine Keeps.withWritten fun s₁ => ?_
      refine Triple.bind (callbackOr_quiet cbs.getSlotNum).within fun numSlots => ?_
      refine Triple.ite (fun _ => Keeps.pure) fun _ => ?_
      refine Triple.ofResultThen (fun _ => id) fun alwaysAb _ => ?_
      refine Triple.bind (isUpdateAllSlotsRequired_quiet false).within fun all => ?_
      refine Triple.ite (fun _ => ?_) fun _ => Keeps.pure
      exact writeOtherSlots_within data size slot _
    intro x run
    refine (others s ⟨within, written⟩ x run).mono ?_ fun _ kept => kept.1
    exact fun _ s' kept => ⟨kept.1, slot, target, isSlot, isName ▸ isTarget, kept.2⟩

theorem updateFrom_triple (entry : ImageEntry) :
    Triple (· = s₀) (updateFrom platform cbs blob suffix i entry)
      (fun _ s => Within platform cbs s₀ i entry.partname s ∧
        Delivered platform cbs blob suffix i entry s)
      fun _ => True := by
  have start : Triple (· = s₀) (modify fun s => { s with entry := i } :
      Prog ErrorValue (UpdateState σ) Unit) (fun _ => Within platform cbs s₀ i entry.partname)
      (Within platform cbs s₀ i entry.partname) := by
    refine Triple.modify ?_
    rintro _ rfl
    exact ⟨rfl, rfl, rfl, fun _ => id, fun _ old => .inl old⟩
  refine (Triple.bind start fun _ => ?_).noError (fun _ _ => id)
  refine Triple.ofResultThen (fun _ => id) fun data isData => ?_
  obtain ⟨data, size⟩ := data
  refine Triple.ofResultThen (fun _ => id) fun target opened => ?_
  refine Triple.bind (eraseOnQspi_quiet target).within fun _ => ?_
  have aligned : Quiet (if data % 8 ≠ 0 then allocate platform size else pure ()) := fun v =>
    Triple.ite (fun _ => allocate_quiet size v) fun _ => Quiet.pure () v
  refine Triple.bind aligned.within fun _ => ?_
  refine (writeABPartition_triple data entry.imageSize).weaken ?_
  rintro - s ⟨within, slot, target, isSlot, isTarget, written⟩
  exact ⟨within, slot, target, isSlot, isTarget, data, size, isData, written⟩

/-! ### What one partition gets -/

structure LoopDone (platform : Platform σ) (cbs : Callbacks σ) (blob : Blob) (suffix : List Byte)
    (s₀ : UpdateState σ) (name : List Byte) (s : UpdateState σ) : Prop where
  updated : s.updated = s₀.updated
  missed : s.missed = s₀.missed
  old : ∀ w ∈ s₀.written, w ∈ s.written
  new : ∀ w ∈ s.written, w ∈ s₀.written ∨ ∃ entry, blob.getEntry w.entry = .ok entry ∧
    key entry.partname = key name ∧
    (Diverted cbs entry.partname → openPartition platform brBctPartitionName = .ok w.target)
  delivered : ∀ i entry, FirstFor platform blob i entry → key entry.partname = key name →
    Delivered platform cbs blob suffix i entry s

theorem updateLoop_triple (count : Nat) (upTo : i + count = blob.numEntries)
    (passed : ∀ j < i, ∀ other, blob.getEntry j = .ok other → key other.partname = key name →
      other.isFor platform.specInfo platform.opMode = false) :
    Triple (· = s₀) (updateLoop platform cbs blob suffix platform.specInfo name (List.range' i count))
      (fun _ => LoopDone platform cbs blob suffix s₀ name) fun _ => True := by
  induction count generalizing i with
  | zero =>
    refine Triple.pure ?_
    rintro _ rfl
    refine ⟨rfl, rfl, fun _ => id, fun _ old => .inl old, fun j entry first same => ?_⟩
    have before : j < i := by
      have inside := first.inside
      omega
    have none_ := passed j before entry first.read same
    exact absurd first.isFor (by rw [none_]; exact Bool.false_ne_true)
  | succ count ih =>
    rw [List.range'_succ]
    refine Triple.ofResultThen (fun _ _ => trivial) fun entry read => ?_
    refine Triple.ite (fun chosen => ?_) fun other => ?_
    · obtain ⟨isName, isFor⟩ := Bool.and_eq_true_iff.mp chosen
      rw [sameName_iff] at isName
      refine (updateFrom_triple entry).noError ?_
      rintro - s ⟨within, delivered⟩
      refine ⟨within.updated, within.missed, within.old, fun w written => ?_,
        fun j other first same => ?_⟩
      · refine (within.new w written).imp_right ?_
        rintro ⟨rfl, diverted⟩
        exact ⟨entry, read, isName, diverted⟩
      · rcases Nat.lt_trichotomy j i with before | rfl | behind
        · exact absurd first.isFor (by
            rw [passed j before other first.read same]; exact Bool.false_ne_true)
        · obtain rfl := Except.ok.inj (read.symm.trans first.read)
          exact delivered
        · exact absurd isFor (by
            rw [first.first i behind entry read (isName.trans same.symm)]; exact Bool.false_ne_true)
    · refine ih (by omega) fun j before earlier isEntry same => ?_
      rcases Nat.lt_succ_iff_lt_or_eq.mp before with before | rfl
      · exact passed j before earlier isEntry same
      · obtain rfl := Except.ok.inj (read.symm.trans isEntry)
        refine Bool.eq_false_of_not_eq_true fun isFor => other ?_
        exact Bool.and_eq_true_iff.mpr ⟨sameName_iff.mpr same, isFor⟩

/-- **Between two updates**: the names that are done have been passed over, or the first entry for
this device has been delivered; nothing else has been passed over or written. -/
structure Progress (platform : Platform σ) (cbs : Callbacks σ) (blob : Blob) (suffix : List Byte)
    (done : List (List Byte)) (s : UpdateState σ) : Prop where
  served : ∀ name ∈ done, key name ∈ s.missed.map key ∨ ∀ i entry, FirstFor platform blob i entry →
    key entry.partname = key name → Delivered platform cbs blob suffix i entry s
  missed : ∀ name ∈ s.missed, key name ∈ done.map key
  written : ∀ w ∈ s.written, ∃ entry, blob.getEntry w.entry = .ok entry ∧
    key entry.partname ∈ done.map key ∧ key entry.partname ∉ s.missed.map key ∧
    (Diverted cbs entry.partname → openPartition platform brBctPartitionName = .ok w.target)

variable {done : List (List Byte)}

theorem Delivered.mono {entry : ImageEntry}
    (delivered : Delivered platform cbs blob suffix i entry s)
    (more : ∀ w ∈ s.written, w ∈ s'.written) : Delivered platform cbs blob suffix i entry s' := by
  obtain ⟨slot, target, isSlot, isTarget, data, size, isData, written⟩ := delivered
  exact ⟨slot, target, isSlot, isTarget, data, size, isData, more _ written⟩

theorem Progress.of_view (same : view s' = view s)
    (progress : Progress platform cbs blob suffix done s) :
    Progress platform cbs blob suffix done s' := by
  obtain ⟨-, missed, -, written⟩ := of_view_eq same
  refine ⟨fun name member => ?_, missed ▸ progress.missed, ?_⟩
  · rw [missed]
    refine (progress.served name member).imp_right fun delivered i entry first isName => ?_
    exact (delivered i entry first isName).mono fun w old => written ▸ old
  · rw [missed, written]
    exact progress.written

theorem Progress.loop {s s' : UpdateState σ} (progress : Progress platform cbs blob suffix done s)
    (fresh : key name ∉ done.map key) (loop : LoopDone platform cbs blob suffix s name s') :
    Progress platform cbs blob suffix (name :: done) s' := by
  have notMissed : key name ∉ s.missed.map key := by
    rintro member
    obtain ⟨other, isMissed, same⟩ := List.mem_map.mp member
    exact fresh (same ▸ progress.missed other isMissed)
  refine ⟨fun other member => ?_, fun other member => ?_, fun w member => ?_⟩
  · rcases List.mem_cons.mp member with rfl | earlier
    · exact .inr loop.delivered
    · rw [loop.missed]
      refine (progress.served other earlier).imp_right fun delivered i entry first isName => ?_
      exact (delivered i entry first isName).mono loop.old
  · rw [loop.missed] at member
    exact .tail _ (progress.missed other member)
  · rw [loop.missed]
    rcases loop.new w member with old | ⟨entry, read, isName, diverted⟩
    · obtain ⟨entry, read, isDone, kept, diverted⟩ := progress.written w old
      exact ⟨entry, read, .tail _ isDone, kept, diverted⟩
    · exact ⟨entry, read, isName ▸ .head _, isName ▸ notMissed, diverted⟩

theorem Progress.miss {s : UpdateState σ} (progress : Progress platform cbs blob suffix done s)
    (fresh : key name ∉ done.map key) :
    Progress platform cbs blob suffix (name :: done) { s with missed := name :: s.missed } := by
  refine ⟨fun other member => ?_, fun other member => ?_, fun w member => ?_⟩
  · rcases List.mem_cons.mp member with rfl | earlier
    · exact .inl (.head _)
    · refine (progress.served other earlier).imp (.tail _) fun delivered => ?_
      exact fun i entry first isName => (delivered i entry first isName).mono fun w old => old
  · rcases List.mem_cons.mp member with rfl | earlier
    · exact (.head _)
    · exact .tail _ (progress.missed other earlier)
  · obtain ⟨entry, read, isDone, kept, diverted⟩ := progress.written w member
    refine ⟨entry, read, .tail _ isDone, fun isMissed => ?_, diverted⟩
    rcases List.mem_cons.mp isMissed with same | earlier
    · exact fresh (same ▸ isDone)
    · exact kept earlier

/-! ### The whole update -/

theorem getSpecInfo_quiet : Quiet (getSpecInfo platform) := fun v => by
  refine Triple.readAny fun s => ?_
  refine Triple.ite (fun _ => Quiet.pure () v) fun _ => ?_
  refine Triple.bind (callback_quiet platform.nctGetSpec v) fun _ => ?_
  exact Triple.modify fun _ => id

theorem updatePartition_triple (fresh : key name ∉ done.map key) :
    Triple (fun s => s.updated = done ∧ Progress platform cbs blob suffix done s)
      (updatePartition platform cbs blob suffix name)
      (fun _ s => s.updated = done ∧ Progress platform cbs blob suffix (name :: done) s)
      fun _ => True := by
  have quiet : Keeps (fun s => s.updated = done ∧ Progress platform cbs blob suffix done s)
      (getSpecInfo platform) := by
    refine getSpecInfo_quiet.keeps fun s s' same holds => ⟨?_, holds.2.of_view same⟩
    exact (congrArg Prod.fst same).trans holds.1
  have spec : Triple (fun s => s.updated = done ∧ Progress platform cbs blob suffix done s)
      (specFor platform name) (fun known s => s.updated = done ∧ if known = true then
        Progress platform cbs blob suffix done s
        else Progress platform cbs blob suffix (name :: done) s) fun _ => True := by
    refine Triple.recover (Triple.bind quiet fun _ => ?_) fun _ => ?_
    · exact Triple.pure fun _ holds => ⟨holds.1, by rw [if_pos rfl]; exact holds.2⟩
    · have passed : Triple (fun s => s.updated = done ∧ Progress platform cbs blob suffix done s)
          (modify fun s => { s with missed := name :: s.missed } :
            Prog ErrorValue (UpdateState σ) Unit)
          (fun _ s => s.updated = done ∧ Progress platform cbs blob suffix (name :: done) s)
          fun _ => True := Triple.modify fun _ holds => ⟨holds.1, holds.2.miss fresh⟩
      refine Triple.bind passed fun _ => Triple.pure fun _ holds => ⟨holds.1, ?_⟩
      rw [if_neg nofun]
      exact holds.2
  refine Triple.bind spec fun known => ?_
  refine Triple.ite (fun isKnown => ?_) fun notKnown => ?_
  · rintro s ⟨isDone, progress⟩ x run
    rw [if_pos isKnown] at progress
    rw [List.range_eq_range'] at run
    refine (updateLoop_triple blob.numEntries (Nat.zero_add _) ?_ s rfl x run).mono ?_
      fun _ _ => trivial
    · exact fun j before => absurd before (Nat.not_lt_zero j)
    · exact fun _ s' loop => ⟨loop.updated.trans isDone, progress.loop fresh loop⟩
  · refine Triple.pure fun s holds => ⟨holds.1, ?_⟩
    have progress := holds.2
    rwa [if_neg notKnown] at progress

theorem updatePartitionRecursive_triple (name : List Byte) (s₀ : UpdateState σ)
    (progress : Progress platform cbs blob suffix s₀.updated s₀) :
    Triple (· = s₀) (updatePartitionRecursive platform cbs blob suffix 3 name)
      (fun _ s => Progress platform cbs blob suffix s.updated s ∧
        Grown s₀.updated (chain 3 name) s.updated ∧ key name ∈ s.updated.map key)
      fun _ => True := by
  rw [updatePartitionRecursive_eq]
  refine recursively_triple (fun s => Progress platform cbs blob suffix s.updated s) ?_ 3
    name s₀ progress
  rintro name s₀ progress fresh -
  have room : Triple (fun s => s.updated = s₀.updated ∧
      Progress platform cbs blob suffix (name :: s₀.updated) s) (allocate platform 16)
      (fun _ s => s.updated = s₀.updated ∧
        Progress platform cbs blob suffix (name :: s₀.updated) s) fun _ => True := by
    refine ((allocate_quiet 16).keeps fun t t' same holds => ?_).noError (fun _ _ => id)
    exact ⟨(congrArg Prod.fst same).trans holds.1, holds.2.of_view same⟩
  refine Triple.start (Triple.bind (updatePartition_triple fresh) fun _ => Triple.bind room fun _ =>
    Triple.modify fun t holds => ?_) ⟨rfl, progress⟩
  dsimp only
  rw [holds.1]
  exact ⟨⟨holds.2.served, holds.2.missed, holds.2.written⟩, rfl⟩

theorem updateEntries_triple (entries : List Nat) (status : Result Unit) (s₀ : UpdateState σ)
    (progress : Progress platform cbs blob suffix s₀.updated s₀) :
    Triple (· = s₀) (updateEntries platform cbs blob suffix entries status)
      (fun _ s => Progress platform cbs blob suffix s.updated s ∧
        (∀ name ∈ s₀.updated, name ∈ s.updated) ∧
        ∀ i ∈ entries, ∀ entry, blob.getEntry i = .ok entry → key entry.partname ∈ s.updated.map key)
      fun _ => True := by
  induction entries generalizing status s₀ with
  | nil =>
    refine Triple.ofResult ?_ fun _ _ => trivial
    rintro - _ rfl
    exact ⟨progress, fun _ => id, fun _ member => absurd member List.not_mem_nil⟩
  | cons i rest ih =>
    rw [updateEntries]
    cases read : blob.getEntry i with
    | error e =>
      refine (ih _ s₀ progress).noError ?_
      rintro - s ⟨progress', old, names⟩
      refine ⟨progress', old, fun j member entry isEntry => ?_⟩
      rcases List.mem_cons.mp member with rfl | later
      · cases read.symm.trans isEntry
      · exact names j later entry isEntry
    | ok entry =>
      dsimp only
      refine Triple.bind (updatePartitionRecursive_triple entry.partname s₀ progress) fun _ => ?_
      rintro s ⟨progress', grown, isDone⟩ x run
      refine (ih _ s progress' s rfl x run).mono ?_ fun _ _ => trivial
      rintro - t ⟨progress'', old, names⟩
      refine ⟨progress'', fun name member => old name (grown.old name member),
        fun j member other isEntry => ?_⟩
      rcases List.mem_cons.mp member with rfl | later
      · obtain rfl := Except.ok.inj (read.symm.trans isEntry)
        obtain ⟨name, inList, same⟩ := List.mem_map.mp isDone
        exact List.mem_map.mpr ⟨name, old name inList, same⟩
      · exact names j later other isEntry

/-- When an update that succeeds is complete: there is an update payload, and for the first entry of
each name that is for this device the specification of the platform could be read, and the callback
for the BCT does not write another partition in its place. -/
structure Served (platform : Platform σ) (cbs : Callbacks σ) (blob : Blob) (suffix : List Byte)
    (s : UpdateState σ) : Prop where
  isBlob : blob.init = .ok ()
  isUpdate : blob.isUpdate = true
  known : ∀ i entry, FirstFor platform blob i entry → key entry.partname ∉ s.missed.map key
  own : ∀ i entry, FirstFor platform blob i entry → Diverted cbs entry.partname → ∀ slot,
    tegrablABGetSlotViaSuffix suffix = .ok slot →
    openPartition platform (slotName platform cbs slot entry.partname) =
      openPartition platform brBctPartitionName

theorem writeTarget_slotName (slot : Nat) (name : List Byte)
    (own : Diverted cbs name → openPartition platform (slotName platform cbs slot name) =
      openPartition platform brBctPartitionName) :
    writeTarget platform cbs (slotName platform cbs slot name) =
      openPartition platform (slotName platform cbs slot name) := by
  unfold writeTarget
  split
  · next diverted => exact (own ((diverted_slotName slot name).mp diverted)).symm
  · rfl

theorem Progress.complete_iff {s : UpdateState σ} (progress : Progress platform cbs blob suffix done s)
    (all : ∀ i < blob.numEntries, ∀ entry, blob.getEntry i = .ok entry →
      key entry.partname ∈ done.map key) :
    Complete platform cbs blob suffix s ↔ Served platform cbs blob suffix s := by
  constructor
  · rintro ⟨isBlob, isUpdate, written⟩
    have records : ∀ i entry, FirstFor platform blob i entry → ∃ slot target,
        tegrablABGetSlotViaSuffix suffix = .ok slot ∧
        openPartition platform (slotName platform cbs slot entry.partname) = .ok target ∧
        key entry.partname ∉ s.missed.map key ∧
        (Diverted cbs entry.partname → openPartition platform brBctPartitionName = .ok target) := by
      intro i entry first
      obtain ⟨slot, target, isSlot, opened, data, size, -, member⟩ := written i entry first
      obtain ⟨entry', read, -, notMissed, diverted⟩ := progress.written _ member
      obtain rfl := Except.ok.inj (first.read.symm.trans read)
      exact ⟨slot, target, isSlot, opened, notMissed, diverted⟩
    refine ⟨isBlob, isUpdate, fun i entry first => ?_, fun i entry first diverted slot isSlot => ?_⟩
    · obtain ⟨-, -, -, -, notMissed, -⟩ := records i entry first
      exact notMissed
    · obtain ⟨slot', target, isSlot', opened, -, isBct⟩ := records i entry first
      obtain rfl := Except.ok.inj (isSlot.symm.trans isSlot')
      rw [opened, isBct diverted]
  · rintro ⟨isBlob, isUpdate, known, own⟩
    refine ⟨isBlob, isUpdate, fun i entry first => ?_⟩
    obtain ⟨name, inDone, same⟩ := List.mem_map.mp (all i first.inside entry first.read)
    rcases progress.served name inDone with missed | delivered
    · exact absurd (same ▸ missed) (known i entry first)
    · obtain ⟨slot, target, isSlot, isTarget, written⟩ := delivered i entry first same.symm
      rw [writeTarget_slotName slot entry.partname fun diverted =>
        own i entry first diverted slot isSlot] at isTarget
      exact ⟨slot, target, isSlot, isTarget, written⟩

structure Start (s : UpdateState σ) : Prop where
  updated : s.updated = []
  written : s.written = []
  missed : s.missed = []

theorem Start.progress {s : UpdateState σ} (start : Start s) :
    Progress platform cbs blob suffix s.updated s := by
  refine ⟨fun name member => ?_, fun name member => ?_, fun w member => ?_⟩
  · rw [start.updated] at member
    cases member
  · rw [start.missed] at member
    cases member
  · rw [start.written] at member
    cases member

theorem Start.of_view (same : view s' = view s) (start : Start s) :
    Start s' := by
  obtain ⟨updated, missed, -, written⟩ := of_view_eq same
  exact ⟨updated.trans start.updated, written.trans start.written, missed.trans start.missed⟩

def AllDone (platform : Platform σ) (cbs : Callbacks σ) (blob : Blob) (suffix : List Byte)
    (s : UpdateState σ) : Prop :=
  ∃ done, Progress platform cbs blob suffix done s ∧ ∀ i < blob.numEntries, ∀ entry,
    blob.getEntry i = .ok entry → key entry.partname ∈ done.map key

theorem payload_triple (few : blob.numEntries < 256) (size rounds : Nat) :
    Triple Start (tegrablCheckAndUpdateBlPayload platform cbs blob suffix size rounds)
      (fun _ s => blob.init = .ok () → blob.isUpdate = true → AllDone platform cbs blob suffix s)
      fun _ => True := by
  have quiet : ∀ {α : Type} {p : Prog ErrorValue (UpdateState σ) α}, Quiet p →
      Triple Start p (fun _ => Start) fun _ => True := fun quiet =>
    (quiet.keeps fun _ _ same start => start.of_view same).noError (fun _ _ => id)
  have loop : Triple Start
      (updateEntries platform cbs blob suffix (entryRounds blob rounds) (.ok ()))
      (fun _ => AllDone platform cbs blob suffix) fun _ => True := by
    intro s start x run
    refine (updateEntries_triple _ _ s start.progress s rfl x run).mono ?_ fun _ _ => trivial
    rintro - t ⟨progress, -, names⟩
    refine ⟨t.updated, progress, fun i inside => names i ?_⟩
    unfold entryRounds
    rw [if_pos few]
    exact List.mem_range.mpr inside
  unfold tegrablCheckAndUpdateBlPayload
  cases blob.init with
  | error e =>
    refine Triple.ite (fun _ => Triple.pure fun _ _ isOk => ?_) fun _ =>
      Triple.fail fun _ _ => trivial
    cases isOk
  | ok init =>
    refine Triple.ite (fun _ => Triple.fail fun _ _ => trivial) fun _ => ?_
    have body : Triple Start (do
        ofResult (cbs.verifyPayload.getD (.ok ()))
        if blob.isUpdate = false then return ()
        else do
          let _ ← isUpdateAllSlotsRequired cbs true
          if blob.numEntries = 0 then ofResult (updateError .notFound 0)
          else do
            updateEntries platform cbs blob suffix (entryRounds blob rounds) (.ok ())
            modify fun s => { s with isNewBupChecked := false })
        (fun _ s => blob.isUpdate = true → AllDone platform cbs blob suffix s) fun _ => True := by
      refine Triple.ofResultThen (fun _ _ => trivial) fun _ _ => ?_
      refine Triple.ite (fun other => Triple.pure fun _ _ isUpdate => ?_) fun _ => ?_
      · cases other.symm.trans isUpdate
      refine Triple.bind (quiet (isUpdateAllSlotsRequired_quiet true)) fun _ => ?_
      refine Triple.ite (fun _ => Triple.fail fun _ _ => trivial) fun _ => ?_
      refine Triple.bind loop fun _ => ?_
      refine Triple.modify fun s allDone _ => ?_
      obtain ⟨done, progress, all⟩ := allDone
      exact ⟨done, ⟨progress.served, progress.missed, progress.written⟩, all⟩
    refine Triple.always body ?_ fun _ _ _ _ => trivial
    rintro _ s s' allDone cleared - isUpdate
    obtain rfl := Option.some.inj cleared
    obtain ⟨done, progress, all⟩ := allDone isUpdate
    exact ⟨done, ⟨progress.served, progress.missed, progress.written⟩, all⟩

/-- **An update that succeeds** is complete exactly when `Served` holds. -/
theorem update_complete_iff (few : blob.numEntries < 256) {size rounds : Nat} {s s' : UpdateState σ}
    (start : Start s)
    (run : tegrablCheckAndUpdateBlPayload platform cbs blob suffix size rounds s =
      some (.ok (), s')) :
    Complete platform cbs blob suffix s' ↔ Served platform cbs blob suffix s' := by
  have allDone : blob.init = .ok () → blob.isUpdate = true → AllDone platform cbs blob suffix s' :=
    payload_triple few size rounds s start _ run
  constructor
  · intro complete
    obtain ⟨done, progress, all⟩ := allDone complete.isBlob complete.isUpdate
    exact (progress.complete_iff all).mp complete
  · intro served
    obtain ⟨done, progress, all⟩ := allDone served.isBlob served.isUpdate
    exact (progress.complete_iff all).mpr served

end Steps

/-! ### A sample -/

def plainPartition : Gpt.NamedPartition where
  startSector := 40
  numSectors := 8
  totalSize := 4096
  name := [0x78, 0]
  guid := []
  ptypeGuid := []

def plainPlatform (spec : Result Unit) : Platform Unit where
  storage := ⟨[⟨0x100, [plainPartition]⟩], 0⟩
  isQspi _ := false
  erase _ s := (.ok (), s)
  write _ _ _ s := (.ok (), s)
  alloc _ s := (true, s)
  specInfo := [0x61]
  nctGetSpec s := (spec, s)
  opMode := 0

def plainCallbacks : Callbacks Unit where
  verifyPayload := none
  updateBct := none
  getSlotNum := some fun s => (.ok 2, s)
  hasSlotSuffix := true
  suffixFault s := (.ok (), s)
  isRatchetUpdateRequired := none
  isAlwaysAbPartition := some fun _ => false

def plainBlob : Blob where
  init := .ok ()
  size := 0
  isUpdate := true
  numEntries := 1
  getEntry i := if i = 0 then .ok ⟨[0x78], 16, 0, []⟩ else updateError .invalid 0
  getEntryData _ := .ok (0x2000, 16)

def plainStart : UpdateState Unit := ⟨(), [], [], false, false, false, 0, [], []⟩

theorem plain_first (spec : Result Unit) :
    FirstFor (plainPlatform spec) plainBlob 0 ⟨[0x78], 16, 0, []⟩ :=
  ⟨by decide, rfl, rfl, fun j before => absurd before (Nat.not_lt_zero j)⟩

def plainEnd : UpdateState Unit where
  world := ()
  effects := [⟨.write, ⟨0x100, [0x78]⟩⟩]
  updated := []
  isNewBupChecked := false
  isRequired := false
  specKnown := true
  entry := 0
  written := [⟨0, ⟨0x100, [0x78]⟩, 0x2000, 16⟩]
  missed := []

/-- The payload is written. -/
theorem update_complete_plain : tegrablCheckAndUpdateBlPayload (plainPlatform (.ok ()))
      plainCallbacks plainBlob [] 0 0 plainStart = some (.ok (), plainEnd) ∧
    Complete (plainPlatform (.ok ())) plainCallbacks plainBlob [] plainEnd := by
  have run : tegrablCheckAndUpdateBlPayload (plainPlatform (.ok ())) plainCallbacks plainBlob [] 0 0
      plainStart = some (.ok (), plainEnd) := rfl
  refine ⟨run, (update_complete_iff (by decide) ⟨rfl, rfl, rfl⟩ run).mpr ⟨rfl, rfl, ?_, ?_⟩⟩
  · rintro i entry -
    exact List.not_mem_nil
  · rintro i entry - ⟨set, -⟩
    exact absurd rfl set

/-- Without the specification of the platform nothing is written, and there is no error. -/
theorem update_without_spec : tegrablCheckAndUpdateBlPayload
      (plainPlatform (updateError .notFound 0)) plainCallbacks plainBlob [] 0 0 plainStart =
        some (.ok (), { plainStart with missed := [[0x78]] }) ∧
    ¬ Complete (plainPlatform (updateError .notFound 0)) plainCallbacks plainBlob []
      { plainStart with missed := [[0x78]] } := by
  refine ⟨rfl, fun complete => ?_⟩
  obtain ⟨slot, target, -, -, data, size, -, written⟩ := complete.written 0 _ (plain_first _)
  cases written

end Cboot.BlUpdate
