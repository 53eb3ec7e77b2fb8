/-
**The order of the updates.**

With a log of the calls of `update_partition` beside the state, an update is the same update: the log
is only written. In one call of `tegrabl_check_and_update_bl_payload` no name is in it twice, and
before a name that depends on another one there is a call for that one that succeeded.
-/

import Cboot.BlUpdate.Complete

namespace Cboot.BlUpdate

open Prog

/-! ### Programs that write beside the state -/

section Projects

variable {S T α β : Type} {view : S → T}

def Projects (view : S → T) (p : Prog ErrorValue S α) (q : Prog ErrorValue T α) : Prop :=
  ∀ s, (p s).map (Prod.map id view) = q (view s)

variable {p : Prog ErrorValue S α} {q : Prog ErrorValue T α} {f : α → Prog ErrorValue S β}
  {g : α → Prog ErrorValue T β}

theorem Projects.result (result : Result α) : Projects view (ofResult result) (ofResult result) :=
  fun _ => rfl

theorem Projects.bind (first : Projects view p q) (second : ∀ a, Projects view (f a) (g a)) :
    Projects view (p >>= f) (q >>= g) := by
  intro s
  rw [bind_apply, bind_apply, ← first s]
  rcases p s with _ | ⟨_ | a, s'⟩
  · rfl
  · rfl
  · exact second a s'

theorem Projects.ite {c : Prop} [Decidable c] {p' : Prog ErrorValue S α} {q' : Prog ErrorValue T α}
    (yes : Projects view p q) (no : Projects view p' q') :
    Projects view (if c then p else p') (if c then q else q') := by
  split
  · exact yes
  · exact no

theorem Projects.always {clear : S → S} {clear' : T → T} (body : Projects view p q)
    (same : ∀ s, view (clear s) = clear' (view s)) :
    Projects view (always p fun s => some (clear s)) (always q fun s => some (clear' s)) := by
  intro s
  unfold Prog.always
  rw [← body s]
  rcases p s with _ | ⟨result, s'⟩
  · rfl
  · exact congrArg some (Prod.ext rfl (same s'))

variable {done : T → List (List Byte)} {step : List Byte → Prog ErrorValue S Unit}
  {step' : List Byte → Prog ErrorValue T Unit}

theorem Projects.recursively (own : ∀ name, Projects view (step name) (step' name)) (depth : Nat)
    (name : List Byte) : Projects view (recursively (fun s => done (view s)) step depth name)
      (recursively done step' depth name) := by
  induction depth generalizing name with
  | zero => exact fun _ => rfl
  | succ depth ih =>
    intro s
    refine Projects.ite (Projects.result (.ok ())) (Projects.bind ?_ fun _ => own name) s
    cases getDependency name with
    | none => exact Projects.result (.ok ())
    | some dependency => exact ih dependency

theorem Projects.eachEntry (own : ∀ name, Projects view (step name) (step' name)) (blob : Blob)
    (entries : List Nat) (status : Result Unit) : Projects view (eachEntry step blob entries status)
      (eachEntry step' blob entries status) := by
  induction entries generalizing status with
  | nil => exact Projects.result status
  | cons i rest ih =>
    unfold BlUpdate.eachEntry
    cases blob.getEntry i with
    | error e => exact ih _
    | ok entry => exact (own _).bind fun _ => ih _

end Projects

section Log

variable {σ : Type} (platform : Platform σ) (cbs : Callbacks σ) (blob : Blob) (suffix : List Byte)

abbrev Logged (σ : Type) : Type := UpdateState σ × List (List Byte × Bool)

def unlogged {α : Type} (p : Prog ErrorValue (UpdateState σ) α) : Prog ErrorValue (Logged σ) α :=
  zoom Prod.fst (fun s t => (s, t.2)) p

variable (name : List Byte)

def attempt : Prog ErrorValue (Logged σ) Unit := fun t =>
  (updatePartition platform cbs blob suffix name t.1).map fun end_ =>
    (end_.1, end_.2, t.2 ++ [(name, end_.1.isOk)])

def attemptName : Prog ErrorValue (Logged σ) Unit := do
  attempt platform cbs blob suffix name
  unlogged (allocate platform 16)
  unlogged (modify fun s => { s with updated := name :: s.updated })

def loggedPayload (size rounds : Nat) : Prog ErrorValue (Logged σ) Unit :=
  aroundEntries cbs blob unlogged (fun t => ({ t.1 with updated := [] }, t.2)) size (eachEntry
    (recursively (fun t => t.1.updated) (attemptName platform cbs blob suffix) 3) blob
    (entryRounds blob rounds) (.ok ()))

theorem unlogged_projects {α : Type} (p : Prog ErrorValue (UpdateState σ) α) :
    Projects Prod.fst (unlogged p) p := by
  intro t
  unfold unlogged zoom
  rw [Option.map_map]
  exact Option.map_id'

theorem attemptName_projects : Projects Prod.fst
    (attemptName platform cbs blob suffix name) (updateName platform cbs blob suffix name) := by
  refine Projects.bind (fun t => ?_) fun _ => (unlogged_projects _).bind fun _ => unlogged_projects _
  unfold attempt
  rw [Option.map_map]
  exact Option.map_id'

theorem loggedPayload_projects (size rounds : Nat) : Projects Prod.fst
    (loggedPayload platform cbs blob suffix size rounds)
    (tegrablCheckAndUpdateBlPayload platform cbs blob suffix size rounds) := by
  rw [payload_eq, updateEntries_eq, funext (updatePartitionRecursive_eq platform cbs blob suffix 3)]
  unfold loggedPayload aroundEntries
  cases blob.init with
  | error e => exact Projects.ite (Projects.result (.ok ())) (Projects.result _)
  | ok _ =>
    refine Projects.ite (Projects.result _) (Projects.always ?_ fun _ => rfl)
    refine (Projects.result _).bind fun _ => Projects.ite (Projects.result (.ok ())) ?_
    refine (unlogged_projects _).bind fun _ => Projects.ite (Projects.result _) ?_
    refine Projects.bind (Projects.eachEntry (fun name => ?_) blob _ _) fun _ => unlogged_projects _
    exact Projects.recursively (attemptName_projects platform cbs blob suffix) 3 name

/-! ### The log -/

structure InOrder (log : List (List Byte × Bool)) : Prop where
  once : (log.map fun call => key call.1).Nodup
  after : ∀ before name ok later, log = before ++ (name, ok) :: later → ∀ dependency,
    getDependency name = some dependency → ∃ other, (other, true) ∈ before ∧ key other = key dependency

def Tally (t : Logged σ) : Prop :=
  InOrder t.2 ∧ t.2 = t.1.updated.reverse.map fun name => (name, true)

variable {platform cbs blob suffix}

theorem InOrder.snoc {log : List (List Byte × Bool)} (order : InOrder log) {name : List Byte} (ok : Bool)
    (fresh : ∀ call ∈ log, key call.1 ≠ key name) (dep : ∀ dependency,
      getDependency name = some dependency → ∃ other, (other, true) ∈ log ∧ key other = key dependency) :
    InOrder (log ++ [(name, ok)]) := by
  refine ⟨?_, fun before other ok' later split => ?_⟩
  · rw [List.map_append, List.nodup_append]
    refine ⟨order.once, List.nodup_singleton _, fun a member b last => ?_⟩
    obtain ⟨call, inLog, rfl⟩ := List.mem_map.mp member
    exact List.mem_singleton.mp last ▸ fresh call inLog
  · rcases later.eq_nil_or_concat with rfl | ⟨later, last, rfl⟩
    · obtain ⟨rfl, same⟩ := List.append_inj' split rfl
      cases same
      exact dep
    · rw [List.concat_eq_append, ← List.cons_append, ← List.append_assoc] at split
      exact order.after before other ok' later (List.append_inj' split rfl).1

theorem updatePartition_updated (done : List (List Byte)) :
    Triple (fun s => s.updated = done) (updatePartition platform cbs blob suffix name)
      (fun _ s => s.updated = done) fun _ => True := by
  have read : Keeps (fun s => s.updated = done) (getSpecInfo platform) :=
    getSpecInfo_quiet.keeps fun s s' same holds => (congrArg Prod.fst same).trans holds
  have spec : Keeps (fun s => s.updated = done) (specFor platform name) :=
    Triple.recover (Triple.bind read fun _ => Keeps.pure) fun _ =>
      Triple.bind (Triple.modify fun _ => id) fun _ => Keeps.pure
  refine Triple.bind (spec.noError (fun _ _ => id))
    fun known => Triple.ite (fun _ => ?_) fun _ => Keeps.pure
  intro s isDone x run
  rw [List.range_eq_range'] at run
  refine (updateLoop_triple blob.numEntries (Nat.zero_add _) ?_ s rfl x run).mono ?_
    fun _ _ => trivial
  · exact fun j before => absurd before (Nat.not_lt_zero j)
  · exact fun _ s' loop => loop.updated.trans isDone

theorem unlogged_quiet {α : Type} {p : Prog ErrorValue (UpdateState σ) α} (quiet : Quiet p)
    (done : List (List Byte)) (log : List (List Byte × Bool)) :
    Keeps (fun t : Logged σ => t.1.updated = done ∧ t.2 = log) (unlogged p) := by
  have kept : Keeps (fun s => s.updated = done) p :=
    quiet.keeps fun s s' same holds => (congrArg Prod.fst same).trans holds
  exact Triple.zoom kept (fun _ holds => holds.1) (fun _ _ _ holds kept => ⟨kept, holds.2⟩)
    fun _ _ holds kept => ⟨kept, holds.2⟩

theorem attemptName_tally (t₀ : Logged σ) (tally : Tally t₀)
    (fresh : key name ∉ t₀.1.updated.map key) (dep : ∀ dependency,
      getDependency name = some dependency → key dependency ∈ t₀.1.updated.map key) :
    Triple (· = t₀) (attemptName platform cbs blob suffix name)
      (fun _ t => Tally t ∧ t.1.updated = name :: t₀.1.updated) fun t => InOrder t.2 := by
  have order (ok : Bool) : InOrder (t₀.2 ++ [(name, ok)]) := by
    refine tally.1.snoc ok ?_ fun dependency found => ?_
    · rintro call member same
      rw [tally.2] at member
      obtain ⟨other, isDone, rfl⟩ := List.mem_map.mp member
      exact fresh (List.mem_map.mpr ⟨other, List.mem_reverse.mp isDone, same⟩)
    · obtain ⟨other, isDone, same⟩ := List.mem_map.mp (dep dependency found)
      rw [tally.2]
      exact ⟨other, List.mem_map.mpr ⟨other, List.mem_reverse.mpr isDone, rfl⟩, same⟩
  have tried : Triple (· = t₀) (attempt platform cbs blob suffix name)
      (fun _ t => t.1.updated = t₀.1.updated ∧ t.2 = t₀.2 ++ [(name, true)])
      fun t => InOrder t.2 := by
    rintro t rfl x run
    obtain ⟨⟨result, s⟩, ran, rfl⟩ := Option.map_eq_some_iff.mp run
    have kept := updatePartition_updated name t.1.updated _ rfl _ ran
    cases result with
    | ok _ => exact ⟨kept, rfl⟩
    | error e => exact order false
  have node : Triple (fun t => t.1.updated = t₀.1.updated ∧ t.2 = t₀.2 ++ [(name, true)])
      (unlogged (allocate platform 16))
      (fun _ t => t.1.updated = t₀.1.updated ∧ t.2 = t₀.2 ++ [(name, true)])
      fun t => InOrder t.2 :=
    (unlogged_quiet (allocate_quiet 16) _ _).mono (fun _ => id) (fun _ _ => id)
      fun t holds => holds.2 ▸ order true
  have pushed : Triple (fun s => s.updated = t₀.1.updated)
      (modify fun s => { s with updated := name :: s.updated } : Prog ErrorValue (UpdateState σ) Unit)
      (fun _ s => s.updated = name :: t₀.1.updated) fun _ => False :=
    Triple.modify fun s isDone => congrArg (name :: ·) isDone
  refine Triple.bind tried fun _ => Triple.bind node fun _ => Triple.zoom pushed
    (fun _ holds => holds.1) (fun t _ s holds isDone => ⟨⟨holds.2 ▸ order true, ?_⟩, isDone⟩)
    fun _ _ _ failed => failed.elim
  show t.2 = s.updated.reverse.map _
  simp [isDone, holds.2, tally.2]

theorem loggedBody_triple (rounds : Nat) : Triple Tally (eachEntry (recursively (fun t => t.1.updated)
    (attemptName platform cbs blob suffix) 3) blob (entryRounds blob rounds) (.ok ()))
    (fun _ => Tally) fun t => InOrder t.2 := by
  refine eachEntry_triple blob (fun _ tally => tally.1) (fun name t tally => ?_) _ _
  exact Triple.mono (recursively_triple Tally attemptName_tally 3 name t tally) (fun _ => id)
    (fun _ _ ended => ended.1) (fun _ => id) t rfl

theorem loggedPayload_triple (size rounds : Nat) :
    Triple (fun t => Tally t ∧ t.1.updated = []) (loggedPayload platform cbs blob suffix size rounds)
      (fun _ t => InOrder t.2 ∧ t.1.updated = []) fun t => InOrder t.2 ∧ t.1.updated = [] := by
  have early (result : Result Unit) : Triple (fun t : Logged σ => Tally t ∧ t.1.updated = [])
      (ofResult result) (fun _ t => InOrder t.2 ∧ t.1.updated = [])
      fun t => InOrder t.2 ∧ t.1.updated = [] :=
    Triple.ofResult (fun _ _ holds => ⟨holds.1.1, holds.2⟩) fun _ holds => ⟨holds.1.1, holds.2⟩
  have stays {α : Type} {p : Prog ErrorValue (UpdateState σ) α} (quiet : Quiet p) :
      Triple (fun t : Logged σ => Tally t) (unlogged p) (fun _ => Tally) fun t => InOrder t.2 := fun t tally x run =>
    (unlogged_quiet quiet t.1.updated t.2 t ⟨rfl, rfl⟩ x run).mono
      (fun _ t' same => ⟨same.2 ▸ tally.1, same.2.trans (same.1 ▸ tally.2)⟩)
      fun t' same => same.2 ▸ tally.1
  have ends (result : Result Unit) : Triple (fun t : Logged σ => Tally t) (ofResult result)
      (fun _ => Tally) fun t => InOrder t.2 :=
    Triple.ofResult (fun _ _ => id) fun _ tally => tally.1
  unfold loggedPayload aroundEntries
  cases blob.init with
  | error e => exact Triple.ite (fun _ => early (.ok ())) fun _ => early _
  | ok _ =>
    refine Triple.ite (fun _ => early _) fun _ => Triple.mono (Triple.always (Triple.bind (ends _)
      fun _ => Triple.ite (fun _ => ends (.ok ())) fun _ => Triple.bind
        (stays (isUpdateAllSlotsRequired_quiet true)) fun _ => Triple.ite (fun _ => ends _) fun _ =>
          Triple.bind (loggedBody_triple rounds) fun _ => stays fun v => Triple.modify fun _ => id)
      ?_ ?_) (fun _ holds => holds.1) (fun _ _ => id) fun _ => id
    · rintro - t _ tally cleared
      obtain rfl := Option.some.inj cleared
      exact ⟨tally.1, rfl⟩
    · rintro t _ order cleared
      obtain rfl := Option.some.inj cleared
      exact ⟨order, rfl⟩

/-- **The updates of a call**: each name once, after what it depends on. -/
theorem updates_in_order {size rounds : Nat} {s s' : UpdateState σ} {log : List (List Byte × Bool)}
    {result : Result Unit} (empty : s.updated = [])
    (run : loggedPayload platform cbs blob suffix size rounds (s, []) = some (result, s', log)) :
    tegrablCheckAndUpdateBlPayload platform cbs blob suffix size rounds s = some (result, s') ∧
      InOrder log ∧ s'.updated = [] := by
  have same := loggedPayload_projects platform cbs blob suffix size rounds (s, [])
  rw [run] at same
  have start : Tally (s, []) := ⟨⟨List.nodup_nil, fun _ _ _ _ split => by simp at split⟩, by simp [empty]⟩
  have reached := loggedPayload_triple size rounds (s, []) ⟨start, empty⟩ _ run
  refine ⟨same.symm, ?_⟩
  cases result with
  | ok _ | error e => exact reached

end Log

/-- A payload for `BCT` on a platform without a specification: `mb2` is tried first. -/
theorem updates_in_order_bct : ∃ s', tegrablCheckAndUpdateBlPayload
      (plainPlatform (updateError .notFound 0)) plainCallbacks
      { plainBlob with getEntry := fun _ => .ok ⟨brBctPartitionName, 16, 0, []⟩ } [] 0 0 plainStart =
        some (.ok (), s') ∧
    InOrder [(mb2BlPartitionName, true), (brBctPartitionName, true)] ∧ s'.updated = [] :=
  ⟨{ plainStart with missed := [brBctPartitionName, mb2BlPartitionName] }, updates_in_order rfl rfl⟩

end Cboot.BlUpdate
