/-
**Dependencies first.**

`update_partition_recursive` goes to the name that a name depends on before it, and passes over the
names on a list of those that are done. What the traversal does is independent of what the update of
one name is: `recursively` has it as a parameter.
-/

import Cboot.BlUpdate.Payload

namespace Cboot.BlUpdate

open Prog

/-! ### Names -/

def key (name : List Byte) : List Byte := name.take gptPartNameLen

theorem sameName_iff {first second : List Byte} :
    sameName gptPartNameLen first second = true ↔ key first = key second := beq_iff_eq

def chain : Nat → List Byte → List (List Byte)
  | 0, _ => []
  | depth + 1, name => name :: ((getDependency name).map (chain depth)).getD []

theorem getDependency_some {name dependency : List Byte} (found : getDependency name = some dependency) :
    key name = brBctPartitionName ∧ dependency = mb2BlPartitionName ∨
      key name = mb1PartitionName ∧ dependency = brBctPartitionName := by
  obtain ⟨row, first, rfl⟩ := Option.map_eq_some_iff.mp found
  have same : sameName gptPartNameLen name row.1 = true := by simpa using List.find?_some first
  rw [sameName_iff] at same
  rcases List.mem_pair.mp (List.mem_of_find?_eq_some first) with rfl | rfl
  · exact .inl ⟨same, rfl⟩
  · exact .inr ⟨same, rfl⟩

theorem chain_fresh {name dependency : List Byte} (found : getDependency name = some dependency)
    (depth : Nat) : key name ∉ (chain depth dependency).map key := by
  have ofMb2 : ∀ depth, ∀ other ∈ chain depth mb2BlPartitionName, other = mb2BlPartitionName := by
    rintro (- | depth) other member
    · cases member
    · exact List.mem_singleton.mp member
  have ofBct : ∀ other ∈ chain depth brBctPartitionName,
      other = brBctPartitionName ∨ other = mb2BlPartitionName := by
    cases depth with
    | zero => exact fun other member => absurd member List.not_mem_nil
    | succ depth =>
      intro other member
      rcases List.mem_cons.mp member with same | deeper
      · exact .inl same
      · exact .inr (ofMb2 depth other deeper)
  intro member
  obtain ⟨other, inChain, same⟩ := List.mem_map.mp member
  rcases getDependency_some found with ⟨isBct, rfl⟩ | ⟨isMb1, rfl⟩
  · rw [ofMb2 depth other inChain, isBct] at same
    exact absurd same (by decide)
  · rw [isMb1] at same
    rcases ofBct other inChain with rfl | rfl
    · exact absurd same (by decide)
    · exact absurd same (by decide)

/-! ### Dependencies first -/

section Traversal

variable {S : Type} (done : S → List (List Byte)) (step : List Byte → Prog ErrorValue S Unit)

def recursively : Nat → List Byte → Prog ErrorValue S Unit
  | 0, _ => stuck
  | depth + 1, name => do
    let s ← read
    if (done s).any (sameName gptPartNameLen name) then return ()
    else do
      (match getDependency name with
        | some dependency => recursively depth dependency
        | none => pure ())
      step name

structure Grown (before names after : List (List Byte)) : Prop where
  old : ∀ name ∈ before, name ∈ after
  new : ∀ name ∈ after, name ∈ before ∨ key name ∈ names.map key

def eachEntry (blob : Blob) : List Nat → Result Unit → Prog ErrorValue S Unit
  | [], status => ofResult status
  | i :: rest, _ =>
    match blob.getEntry i with
    | .error e => eachEntry blob rest (.error e)
    | .ok entry => do
      step entry.partname
      eachEntry blob rest (.ok ())

variable {done step} (inv : S → Prop) {err : S → Prop}

theorem recursively_triple (own : ∀ name s₀, inv s₀ → key name ∉ (done s₀).map key →
      (∀ dependency, getDependency name = some dependency → key dependency ∈ (done s₀).map key) →
      Triple (· = s₀) (step name) (fun _ s => inv s ∧ done s = name :: done s₀) err)
    (depth : Nat) (name : List Byte) (s₀ : S) (holds : inv s₀) :
    Triple (· = s₀) (recursively done step depth name)
      (fun _ s => inv s ∧ Grown (done s₀) (chain depth name) (done s) ∧
        key name ∈ (done s).map key) err := by
  induction depth generalizing name s₀ with
  | zero => exact Triple.stuck
  | succ depth ih =>
    refine Triple.readThen fun _ same => ?_
    subst same
    refine Triple.ite (fun already => ?_) fun fresh => ?_
    · refine Triple.pure ?_
      rintro _ rfl
      obtain ⟨other, member, same⟩ := List.any_eq_true.mp already
      refine ⟨holds, ⟨fun _ => id, fun _ old => .inl old⟩, ?_⟩
      exact List.mem_map.mpr ⟨other, member, (sameName_iff.mp same).symm⟩
    · rename_i s
      have notDone : key name ∉ (done s).map key := by
        intro member
        obtain ⟨other, isDone, same⟩ := List.mem_map.mp member
        exact fresh (List.any_eq_true.mpr ⟨other, isDone, sameName_iff.mpr same.symm⟩)
      have dependency : Triple (· = s) (match getDependency name with
          | some dependency => recursively done step depth dependency
          | none => pure ())
          (fun _ s' => inv s' ∧ Grown (done s) (((getDependency name).map (chain depth)).getD [])
            (done s') ∧ key name ∉ (done s').map key ∧ ∀ dependency,
              getDependency name = some dependency → key dependency ∈ (done s').map key) err := by
        cases found : getDependency name with
        | none =>
          refine Triple.pure ?_
          rintro _ rfl
          exact ⟨holds, ⟨fun _ => id, fun _ old => .inl old⟩, notDone, nofun⟩
        | some dependency =>
          refine (ih dependency s holds).weaken ?_
          rintro - s' ⟨holds', grown, isDone⟩
          refine ⟨holds', grown, fun member => ?_, fun _ same => Option.some.inj same ▸ isDone⟩
          obtain ⟨other, isDone, same⟩ := List.mem_map.mp member
          rcases grown.new other isDone with old | new
          · exact notDone (List.mem_map.mpr ⟨other, old, same⟩)
          · exact chain_fresh found depth (same ▸ new)
      refine Triple.bind dependency fun _ => ?_
      rintro s' ⟨holds', grown, notYet, after⟩ x run
      refine (own name s' holds' notYet after s' rfl x run).mono ?_ fun _ => id
      rintro - t ⟨holds'', isDone⟩
      rw [isDone]
      refine ⟨holds'', ⟨fun other old => .tail _ (grown.old other old),
        fun other member => ?_⟩, .head _⟩
      rcases List.mem_cons.mp member with rfl | earlier
      · exact .inr (.head _)
      · exact (grown.new other earlier).imp_right (.tail _)

theorem eachEntry_triple {inv : S → Prop} (blob : Blob) (ended : ∀ s, inv s → err s)
    (own : ∀ name, Triple inv (step name) (fun _ => inv) err) (entries : List Nat)
    (status : Result Unit) : Triple inv (eachEntry step blob entries status) (fun _ => inv) err := by
  induction entries generalizing status with
  | nil => exact Triple.ofResult (fun _ _ => id) ended
  | cons i rest ih =>
    rw [eachEntry]
    cases blob.getEntry i with
    | error e => exact ih _
    | ok entry => exact (own _).bind fun _ => ih _

end Traversal

section Model

variable {σ : Type} (platform : Platform σ) (cbs : Callbacks σ) (blob : Blob) (suffix : List Byte)

def updateName (name : List Byte) : Prog ErrorValue (UpdateState σ) Unit := do
  updatePartition platform cbs blob suffix name
  allocate platform 16
  modify fun s => { s with updated := name :: s.updated }

theorem updatePartitionRecursive_eq (depth : Nat) (name : List Byte) :
    updatePartitionRecursive platform cbs blob suffix depth name =
      recursively UpdateState.updated (updateName platform cbs blob suffix) depth name := by
  induction depth generalizing name with
  | zero => rfl
  | succ depth ih =>
    rw [updatePartitionRecursive, recursively]
    cases getDependency name with
    | none => rfl
    | some dependency =>
      dsimp only
      rw [ih]
      rfl

theorem updateEntries_eq (entries : List Nat) (status : Result Unit) :
    updateEntries platform cbs blob suffix entries status =
      eachEntry (updatePartitionRecursive platform cbs blob suffix 3) blob entries status := by
  induction entries generalizing status with
  | nil => rfl
  | cons i rest ih =>
    rw [updateEntries, eachEntry]
    cases blob.getEntry i with
    | error e => exact ih _
    | ok entry =>
      dsimp only
      rw [ih]

def aroundEntries {S : Type} (part : ∀ {α : Type}, Prog ErrorValue (UpdateState σ) α →
    Prog ErrorValue S α) (clear : S → S) (size : Nat) (entries : Prog ErrorValue S Unit) :
    Prog ErrorValue S Unit :=
  match blob.init with
  | .error e => if e.reason = .invalid then return () else fail e
  | .ok () =>
    if size < blob.size then ofResult (updateError .invalid 0)
    else always (do
        ofResult (cbs.verifyPayload.getD (.ok ()))
        if blob.isUpdate = false then return ()
        else do
          let _ ← part (isUpdateAllSlotsRequired cbs true)
          if blob.numEntries = 0 then ofResult (updateError .notFound 0)
          else do
            entries
            part (modify fun s => { s with isNewBupChecked := false }))
      fun s => some (clear s)

theorem payload_eq (size rounds : Nat) :
    tegrablCheckAndUpdateBlPayload platform cbs blob suffix size rounds =
      aroundEntries cbs blob (fun p => p) (fun s => { s with updated := [] }) size
        (updateEntries platform cbs blob suffix (entryRounds blob rounds) (.ok ())) := rfl

end Model

end Cboot.BlUpdate
