/-
**The order in which boot media are tried.**

`tegrabl_load_kernel_and_dtb` walks the boot order, a byte array that ends with `BOOT_DEFAULT`, until
a medium delivers a kernel; the builtin storage is the last resort. A device that runs from a boot
slot other than A skips the first medium of the list. The media are tried by a program `attempt` on
a state, so that the walk is the same for any medium.
-/

import Cboot.ABBoot.Control
import Cboot.Lib.Program

namespace Cboot.LinuxBoot

open ABBoot

/-! ### The walk over the boot order -/

inductive Medium
  | network
  | sd
  | usb
  | builtin
  deriving DecidableEq, Repr

def bootDefault : Byte := 0

def mediumOf (device : Byte) : Medium :=
  if device = 1 then .network
  else if device = 2 then .sd
  else if device = 3 then .usb
  else .builtin

def bootorderStart (reg : BitVec 32) (bootOrder : List Byte) : Nat :=
  let bootslot := match bootChainGetBootslotFromReg reg with
    | (.ok (), slot) => slot
    | (.error _, _) => bootSlotA
  if bootslot ≠ bootSlotA then
    if bootOrder.head? ≠ some bootDefault then 1 else 0
  else 0

section Stage

variable {σ : Type} (attempt : Medium → Prog ErrorValue σ Unit)

def mediaLoop : List Byte → σ → Option (Bool × σ)
  | [], _ => none
  | device :: rest, state =>
    if device = bootDefault then some (false, state)
    else
      match attempt (mediumOf device) state with
      | none => none
      | some (.ok (), state) => some (true, state)
      | some (.error _, state) => mediaLoop rest state

def mediaStage (reg : BitVec 32) (bootOrder : List Byte) (state : σ) :
    Option (Result Unit × σ) := do
  let (isLoadDone, state) ← mediaLoop attempt (bootOrder.drop (bootorderStart reg bootOrder)) state
  if isLoadDone then some (.ok (), state) else attempt .builtin state

end Stage

/-! ### The sequence of attempts -/

variable (outcome : Nat → Result Unit)

def traced (medium : Medium) :
    Prog ErrorValue (List Medium) Unit := fun trace =>
  some (outcome trace.length, trace ++ [medium])

theorem mediaLoop_traced (tail order : List Byte) (listed : ∀ device ∈ order, device ≠ bootDefault)
    (trace : List Medium) :
    (∃ k < order.length, (∀ j < k, (outcome (trace.length + j)).isOk = false) ∧
        (outcome (trace.length + k)).isOk = true ∧
        mediaLoop (traced outcome) (order ++ bootDefault :: tail) trace =
          some (true, trace ++ (order.take (k + 1)).map mediumOf)) ∨
      ((∀ j < order.length, (outcome (trace.length + j)).isOk = false) ∧
        mediaLoop (traced outcome) (order ++ bootDefault :: tail) trace =
          some (false, trace ++ order.map mediumOf)) := by
  induction order generalizing trace with
  | nil =>
    refine .inr ⟨fun j none => absurd none (Nat.not_lt_zero j), ?_⟩
    simp [mediaLoop]
  | cons device rest ih =>
    have here : device ≠ bootDefault := listed device (.head _)
    have later : ∀ other ∈ rest, other ≠ bootDefault :=
      fun other member => listed other (.tail _ member)
    cases tried : outcome trace.length with
    | ok done =>
      refine .inl ⟨0, Nat.succ_pos _, fun j none => absurd none (Nat.not_lt_zero j), ?_, ?_⟩
      · rw [Nat.add_zero, tried]
        rfl
      · simp [mediaLoop, here, traced, tried]
    | error error =>
      have next : mediaLoop (traced outcome) (device :: rest ++ bootDefault :: tail) trace =
          mediaLoop (traced outcome) (rest ++ bootDefault :: tail) (trace ++ [mediumOf device]) := by
        simp [mediaLoop, here, traced, tried]
      have first : (outcome trace.length).isOk = false := by
        rw [tried]
        rfl
      have shift : ∀ j, (trace ++ [mediumOf device]).length + j = trace.length + (j + 1) := by
        intro j
        rw [List.length_append, List.length_singleton, Nat.add_assoc, Nat.add_comm 1 j]
      have failed : ∀ n, (∀ j < n, (outcome ((trace ++ [mediumOf device]).length + j)).isOk = false) →
          ∀ j < n + 1, (outcome (trace.length + j)).isOk = false := by
        intro n before j bound
        cases j with
        | zero => exact first
        | succ j =>
          rw [← shift]
          exact before j (Nat.lt_of_succ_lt_succ bound)
      rcases ih later (trace ++ [mediumOf device]) with
        ⟨k, bound, before, success, walked⟩ | ⟨before, walked⟩
      · refine .inl ⟨k + 1, Nat.succ_lt_succ bound, failed k before, ?_, ?_⟩
        · rw [← shift]
          exact success
        · rw [next, walked]
          simp
      · refine .inr ⟨failed rest.length before, ?_⟩
        rw [next, walked]
        simp

def triedMedia (reg : BitVec 32) (order : List Byte) : List Byte :=
  if tegrablABIsValidReg reg = true ∧ (bootChainRegSlotNumGet reg).toNat ≠ bootSlotA ∧ order ≠ [] then
    order.tail
  else order

theorem drop_bootorderStart (reg : BitVec 32) (order tail : List Byte)
    (listed : ∀ device ∈ order, device ≠ bootDefault) :
    (order ++ bootDefault :: tail).drop (bootorderStart reg (order ++ bootDefault :: tail)) =
      triedMedia reg order ++ bootDefault :: tail := by
  unfold bootorderStart triedMedia bootChainGetBootslotFromReg
  cases valid : tegrablABIsValidReg reg with
  | false => simp [abError, tegrablError]
  | true =>
    by_cases slotA : (bootChainRegSlotNumGet reg).toNat = bootSlotA
    · simp [slotA]
    · cases order with
      | nil => simp [slotA]
      | cons device rest =>
        have here : device ≠ bootDefault := listed device (.head _)
        simp [slotA, here]

/-- For every boot order, register and assignment of outcomes, the media tried are the listed ones
up to and including the first success, without the first one when the register holds a slot other
than A; the builtin storage follows when none of them succeeded; and the stage passes exactly when
one of the attempts succeeded. -/
theorem media_sequence (reg : BitVec 32) (order tail : List Byte)
    (listed : ∀ device ∈ order, device ≠ bootDefault) :
    ∃ result trace,
      mediaStage (traced outcome) reg (order ++ bootDefault :: tail) [] = some (result, trace) ∧
        ((∃ k < (triedMedia reg order).length, (∀ j < k, (outcome j).isOk = false) ∧
            (outcome k).isOk = true ∧
            trace = ((triedMedia reg order).take (k + 1)).map mediumOf) ∨
          ((∀ j < (triedMedia reg order).length, (outcome j).isOk = false) ∧
            trace = (triedMedia reg order).map mediumOf ++ [.builtin])) ∧
        (result.isOk = true ↔ ∃ j < trace.length, (outcome j).isOk = true) := by
  have stillListed : ∀ device ∈ triedMedia reg order, device ≠ bootDefault := by
    unfold triedMedia
    split
    · exact fun device member => listed device (List.mem_of_mem_tail member)
    · exact listed
  unfold mediaStage
  rw [drop_bootorderStart reg order tail listed]
  rcases mediaLoop_traced outcome tail (triedMedia reg order) stillListed [] with
    ⟨k, bound, before, success, walked⟩ | ⟨before, walked⟩
  · simp only [List.length_nil, Nat.zero_add, List.nil_append] at before success walked
    refine ⟨.ok (), ((triedMedia reg order).take (k + 1)).map mediumOf, ?_,
      .inl ⟨k, bound, before, success, rfl⟩, iff_of_true rfl ⟨k, ?_, success⟩⟩
    · simp [walked]
    · simp only [List.length_map, List.length_take]
      omega
  · simp only [List.length_nil, Nat.zero_add, List.nil_append] at before walked
    refine ⟨outcome (triedMedia reg order).length, (triedMedia reg order).map mediumOf ++ [.builtin],
      ?_, .inr ⟨before, rfl⟩, ?_⟩
    · simp [walked, traced]
    · simp only [List.length_append, List.length_map, List.length_singleton]
      refine ⟨fun passed => ⟨_, Nat.lt_succ_self _, passed⟩, ?_⟩
      rintro ⟨j, bound, success⟩
      rcases Nat.lt_succ_iff_lt_or_eq.mp bound with earlier | rfl
      · rw [before j earlier] at success
        cases success
      · exact success

/-- A device that runs from slot B, with the order network, SD and with no medium that works. -/
theorem media_sequence_slotB :
    ∃ result trace,
      mediaStage (traced fun _ => abError .notFound 0) 0x11CAFE [1, 2, 0] [] =
          some (result, trace) ∧
        (result.isOk = true ↔ ∃ j < trace.length,
          (abError .notFound 0 : Result Unit).isOk = true) := by
  obtain ⟨result, trace, staged, -, passes⟩ := media_sequence (fun _ => abError .notFound 0) 0x11CAFE
    [1, 2] [] (by decide)
  exact ⟨result, trace, staged, passes⟩

/-- That device tries SD and then the builtin storage. -/
example : mediaStage (traced fun _ => abError .notFound 0) 0x11CAFE [1, 2, 0] [] =
    some (abError .notFound 0, [.sd, .builtin]) := by
  decide

end Cboot.LinuxBoot
