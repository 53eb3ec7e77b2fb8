/-
**Payloads one after another, and payloads with many entries.**

The answer of the ratchet callback is kept in a static variable, and only a payload that has been
written to the end lets the next one ask again: after a payload that failed the next one is applied
with the answer for the failed one. The loop over the entries has a counter of 8 bits, so that with
256 entries or more it begins again instead of ending.
-/

import Cboot.BlUpdate.Complete
import Cboot.BlUpdate.World

namespace Cboot.BlUpdate

open Prog

section Asked

variable {σ : Type} {platform : Platform σ} {cbs : Callbacks σ} {blob : Blob} {suffix : List Byte}

variable {size : Nat}

theorem worldKept_true : WorldKept platform cbs blob fun _ => True :=
  ⟨fun _ _ _ => trivial, fun _ _ _ _ _ _ => trivial, fun _ _ _ => trivial, fun _ _ => trivial,
    fun _ _ _ _ => trivial, fun _ _ _ _ => trivial, fun _ _ => trivial⟩

theorem payload_answer (accepted : asks cbs blob size = true) (rounds : Nat) (s : UpdateState σ) :
    ∃ result s', tegrablCheckAndUpdateBlPayload platform cbs blob suffix size rounds s =
        some (result, s') ∧ s'.isRequired = decision cbs s ∧ s'.isNewBupChecked = !result.isOk := by
  have body : Total (Known (fun _ => True) (decision cbs s)) (afterQuestion blob
      (updateEntries platform cbs blob suffix (entryRounds blob rounds) (.ok ())))
      (fun _ s' => s'.isRequired = decision cbs s ∧ s'.isNewBupChecked = false)
      fun s' => s'.isRequired = decision cbs s ∧ s'.isNewBupChecked = true :=
    afterQuestion_total (updateEntries_walk (worldKept_true.walk _) _ _)
      (fun _ known => ⟨known.2, rfl⟩) fun _ known => ⟨known.2, known.1.2⟩
  obtain ⟨⟨result, s'⟩, ran, ended⟩ := body (asked cbs s) ⟨⟨trivial, rfl⟩, rfl⟩
  refine ⟨result, s', (around_asked accepted s).trans ran, ?_⟩
  cases result with
  | ok _ | error e => exact ended

end Asked

/-! ### Sequences -/

structure Update (σ : Type) where
  cbs : Callbacks σ
  blob : Blob
  suffix : List Byte
  size : Nat
  rounds : Nat

section Sequence

variable {σ : Type} (platform : Platform σ)

def Update.run (u : Update σ) : Prog ErrorValue (UpdateState σ) Unit :=
  tegrablCheckAndUpdateBlPayload platform u.cbs u.blob u.suffix u.size u.rounds

def Update.asks (u : Update σ) : Bool := BlUpdate.asks u.cbs u.blob u.size

inductive Processed (s₀ : UpdateState σ) : List (Update σ × Result Unit) → UpdateState σ → Prop
  | start : Processed s₀ [] s₀
  | next {earlier : List (Update σ × Result Unit)} {s s' : UpdateState σ} {u : Update σ}
      {result : Result Unit} : Processed s₀ earlier s → u.run platform s = some (result, s') →
      Processed s₀ ((u, result) :: earlier) s'

def pending : List (Update σ × Result Unit) → Option Bool
  | [] => none
  | (u, result) :: earlier =>
    if u.asks then if result.isOk then none else some ((pending earlier).getD (answer u.cbs))
    else pending earlier

variable {platform} {s₀ s : UpdateState σ} {earlier : List (Update σ × Result Unit)}

theorem decision_eq {cbs : Callbacks σ} {left : Option Bool} (flag : s.isNewBupChecked = left.isSome)
    (kept : ∀ required ∈ left, s.isRequired = required) :
    decision cbs s = left.getD (answer cbs) := by
  unfold decision
  rw [flag]
  cases left with
  | none => rfl
  | some required => exact kept required rfl

theorem Processed.variables (clear : s₀.isNewBupChecked = false)
    (processed : Processed platform s₀ earlier s) :
    s.isNewBupChecked = (pending earlier).isSome ∧
      ∀ required ∈ pending earlier, s.isRequired = required := by
  induction processed with
  | start => exact ⟨clear, nofun⟩
  | @next earlier s s' u result processed run ih =>
    rcases around_cases s with ⟨accepted, -⟩ | ⟨refused, ended, updated, same⟩
    · have isAsked : u.asks = true := accepted
      obtain ⟨_, _, ran, required, flag⟩ := payload_answer accepted u.rounds s
      cases run.symm.trans ran
      rw [pending, if_pos isAsked, flag, required, decision_eq ih.1 ih.2]
      cases result with
      | ok _ => exact ⟨rfl, nofun⟩
      | error e => exact ⟨rfl, fun _ same => Option.some.inj same⟩
    · have notAsked : ¬u.asks = true := by rw [Update.asks, refused]; exact Bool.false_ne_true
      cases run.symm.trans same
      rw [pending, if_neg notAsked]
      exact ih

end Sequence

def twoSlots : Platform Unit :=
  { plainPlatform (.ok ()) with
    storage := ⟨[⟨0x100, [plainPartition, { plainPartition with name := [0x78, 0x5F, 0x62, 0] }]⟩], 0⟩ }

def ratchetUpdate (required : Bool) (numEntries : Nat) : Update Unit where
  cbs := { plainCallbacks with isRatchetUpdateRequired := some (.ok required) }
  blob := { plainBlob with numEntries }
  suffix := []
  size := 0
  rounds := 0

section Counter

variable {S : Type} {blob : Blob} (visit : List Byte → Prog ErrorValue S Unit)

def countedEntries (blob : Blob) : Nat → BitVec 8 → Result Unit → Prog ErrorValue S Unit
  | 0, _, _ => stuck
  | fuel + 1, i, status =>
    if i.toNat < blob.numEntries then
      match blob.getEntry i.toNat with
      | .error e => countedEntries blob fuel (i + 1) (.error e)
      | .ok entry => do
        visit entry.partname
        countedEntries blob fuel (i + 1) (.ok ())
    else ofResult status

variable {visit}

theorem countedEntries_few (few : blob.numEntries < 256) (count i fuel : Nat) (status : Result Unit)
    (upTo : i + count = blob.numEntries) (enough : count < fuel) :
    countedEntries visit blob fuel (BitVec.ofNat 8 i) status =
      eachEntry visit blob (List.range' i count) status := by
  have counter (i : Nat) (small : i < 256) : (BitVec.ofNat 8 i).toNat = i := Nat.mod_eq_of_lt small
  induction count generalizing i fuel status with
  | zero =>
    obtain ⟨fuel, rfl⟩ := Nat.exists_eq_succ_of_ne_zero enough.ne'
    rw [countedEntries, counter i (by omega), if_neg (by omega)]
    rfl
  | succ count ih =>
    obtain ⟨fuel, rfl⟩ := Nat.exists_eq_succ_of_ne_zero (Nat.ne_zero_of_lt enough)
    have next : BitVec.ofNat 8 i + 1 = BitVec.ofNat 8 (i + 1) := (BitVec.ofNat_add i 1).symm
    have later (status : Result Unit) := ih (i + 1) fuel status (by omega) (Nat.lt_of_succ_lt_succ enough)
    rw [countedEntries, counter i (by omega), if_pos (by omega), next, List.range'_succ, eachEntry]
    cases blob.getEntry i with
    | error e => exact later _
    | ok entry =>
      dsimp only
      rw [later]

theorem countedEntries_many {inv : S → Prop} (many : 256 ≤ blob.numEntries)
    (smooth : ∀ i entry, blob.getEntry i = .ok entry →
      Total inv (visit entry.partname) (fun _ => inv) fun _ => False) (fuel : Nat) (i : BitVec 8)
    (status : Result Unit) {s : S} (holds : inv s) :
    countedEntries visit blob fuel i status s = none := by
  induction fuel generalizing i status s with
  | zero => rfl
  | succ fuel ih =>
    rw [countedEntries, if_pos (Nat.lt_of_lt_of_le i.isLt many)]
    cases found : blob.getEntry i.toNat with
    | error e => exact ih _ _ holds
    | ok entry =>
      obtain ⟨⟨_ | _, s'⟩, ran, kept⟩ := smooth _ entry found s holds
      · exact kept.elim
      · exact (bind_ok ran _).trans (ih _ _ kept)

end Counter

section Ends

variable {σ : Type} (platform : Platform σ) (cbs : Callbacks σ) (blob : Blob) (suffix : List Byte)

def countedPayload (fuel size : Nat) : Prog ErrorValue (UpdateState σ) Unit :=
  aroundEntries cbs blob (fun p => p) (fun s => { s with updated := [] }) size
    (countedEntries (updatePartitionRecursive platform cbs blob suffix 3) blob fuel 0 (.ok ()))

def Smooth (inv : UpdateState σ → Prop) : Prop :=
  ∀ i entry, blob.getEntry i = .ok entry → Total inv
    (updatePartitionRecursive platform cbs blob suffix 3 entry.partname) (fun _ => inv) fun _ => False

variable {platform cbs blob suffix} in
theorem countedPayload_many (inv : UpdateState σ → Prop) {size : Nat} {s : UpdateState σ}
    (accepted : asks cbs blob size = true) (many : 256 ≤ blob.numEntries) (start : inv (asked cbs s))
    (smooth : Smooth platform cbs blob suffix inv) (fuel : Nat) :
    countedPayload platform cbs blob suffix fuel size s = none := by
  have endless := countedEntries_many many smooth fuel 0 (.ok ()) start
  rw [countedPayload, around_asked accepted, afterQuestion, if_neg (by omega)]
  simp only [Prog.always, bind_apply, endless]
  rfl

end Ends

end Cboot.BlUpdate
