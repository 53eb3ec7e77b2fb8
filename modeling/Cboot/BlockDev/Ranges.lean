/-
**The range checks of the block device functions.**

Six functions check the range of a request before they call the driver. All of them add the start
and the length in the type of the arguments, so that a sum that wraps passes as a small number.
-/

import Cboot.BlockDev.Device

namespace Cboot.BlockDev

open Prog

inductive Request
  | read (buf offset len : Nat)
  | readBlock (buf block count : Nat)
  | write (buf offset len : Nat)
  | writeBlock (buf block count : Nat)
  | erase (block count : Nat) (isSecure : Bool)
  | xfer (startBlock blockCount : Nat)

namespace Request

def run {σ : Type} (dev : Bdev) (call : Prog ErrorValue σ Unit) : Request → Prog ErrorValue σ Unit
  | .read buf offset len => tegrablBlockdevRead dev (fun _ _ _ => call) buf offset len
  | .readBlock buf block count => tegrablBlockdevReadBlock dev (fun _ _ _ => call) buf block count
  | .write buf offset len => tegrablBlockdevWrite dev (fun _ _ _ => call) buf offset len
  | .writeBlock buf block count => tegrablBlockdevWriteBlock dev (fun _ _ _ => call) buf block count
  | .erase block count isSecure => tegrablBlockdevErase dev (fun _ _ _ => call) block count isSecure
  | .xfer startBlock blockCount => tegrablBlockdevXfer dev (fun _ _ => call) startBlock blockCount

def CallsDriver (dev : Bdev) (r : Request) : Prop :=
  r.run dev (modify fun _ => true) false = some (.ok (), true)

instance (dev : Bdev) (r : Request) : Decidable (r.CallsDriver dev) :=
  inferInstanceAs (Decidable (_ = _))

structure Span where
  first : Nat
  count : Nat
  width : Nat
  unit : Nat

def span (dev : Bdev) : Request → Span
  | .read _ offset len | .write _ offset len => ⟨offset, len, 64, 1⟩
  | .readBlock _ block count | .writeBlock _ block count | .erase block count _
  | .xfer block count => ⟨block, count, 32, dev.blockSize⟩

def Representable (dev : Bdev) (r : Request) : Prop :=
  (r.span dev).first < 2 ^ (r.span dev).width ∧ (r.span dev).count < 2 ^ (r.span dev).width

def NoWrap (dev : Bdev) (r : Request) : Prop :=
  (r.span dev).first + (r.span dev).count < 2 ^ (r.span dev).width

def Inside (dev : Bdev) (r : Request) : Prop :=
  (r.span dev).first * (r.span dev).unit + (r.span dev).count * (r.span dev).unit ≤
    dev.blockCount * 2 ^ dev.blockSizeLog2

instance (dev : Bdev) (r : Request) : Decidable (r.Representable dev) :=
  inferInstanceAs (Decidable (_ ∧ _))

instance (dev : Bdev) (r : Request) : Decidable (r.NoWrap dev) :=
  inferInstanceAs (Decidable (_ < _))

instance (dev : Bdev) (r : Request) : Decidable (r.Inside dev) :=
  inferInstanceAs (Decidable (_ ≤ _))

end Request

/-! ### The checks -/

theorem guarded_called {checks : List (Bool × ErrReason × Nat)}
    (called : guarded checks (modify fun _ => true) false = some (.ok (), true)) :
    ∀ check ∈ checks, check.1 = false := by
  intro check member
  unfold guarded at called
  cases found : checks.find? Prod.fst with
  | none => exact Bool.not_eq_true _ ▸ List.find?_eq_none.mp found check member
  | some failed =>
    rw [found] at called
    cases called

variable {dev : Bdev}

theorem blocks_inside_iff {block count : Nat} (geometry : dev.blockCount < 2 ^ 32)
    (passed : dev.blocksBeyond block count = false) :
    block * dev.blockSize + count * dev.blockSize ≤ dev.blockCount * 2 ^ dev.blockSizeLog2 ↔
      block + count < 2 ^ 32 := by
  obtain ⟨-, sum⟩ := not_blocksBeyond passed
  rw [← Nat.add_mul]
  show (block + count) * 2 ^ dev.blockSizeLog2 ≤ _ ↔ _
  rw [Nat.mul_le_mul_right_iff (Nat.two_pow_pos _)]
  constructor
  · intro inside
    exact Nat.lt_of_le_of_lt inside geometry
  · intro noWrap
    rwa [Nat.mod_eq_of_lt noWrap] at sum

theorem bytes_inside {offset len : Nat} (passed : dev.bytesBeyond offset len = false)
    (noWrap : offset + len < 2 ^ 64) :
    offset * 1 + len * 1 ≤ dev.blockCount * 2 ^ dev.blockSizeLog2 := by
  obtain ⟨-, sum⟩ := not_bytesBeyond passed
  rw [Nat.mod_eq_of_lt noWrap] at sum
  rw [Nat.mul_one, Nat.mul_one]
  exact Nat.le_trans sum (Nat.mod_le _ _)

theorem Request.passed {r : Request} (called : r.CallsDriver dev) :
    match r with
    | .read _ offset len | .write _ offset len => dev.bytesBeyond offset len = false
    | .readBlock _ block count | .writeBlock _ block count | .erase block count _
    | .xfer block count => dev.blocksBeyond block count = false := by
  cases r with
  | read buf offset len =>
    exact guarded_called called (dev.bytesBeyond offset len, .overflow, 0) (by simp)
  | readBlock buf block count =>
    exact guarded_called called (dev.blocksBeyond block count, .overflow, 1) (by simp)
  | write buf offset len =>
    exact guarded_called called (dev.bytesBeyond offset len, .overflow, 2) (by simp)
  | writeBlock buf block count =>
    exact guarded_called called (dev.blocksBeyond block count, .overflow, 3) (by simp)
  | erase block count isSecure =>
    exact guarded_called called (dev.blocksBeyond block count, .overflow, 4) (by simp)
  | xfer block count =>
    exact guarded_called called (dev.blocksBeyond block count, .overflow, 5) (by simp)

theorem noWrap_of_bytes_inside {offset len capacity : Nat} (fits : capacity < 2 ^ 64)
    (inside : offset * 1 + len * 1 ≤ capacity) : offset + len < 2 ^ 64 := by
  omega

/-- **A request that reaches the driver** lies inside the device if its sum does not wrap, and only
then when the size of the device fits its type. -/
theorem range_inside_iff (dev : Bdev) (r : Request) (geometry : dev.blockCount < 2 ^ 32)
    (called : r.CallsDriver dev) :
    (r.NoWrap dev → r.Inside dev) ∧
      (dev.blockCount * 2 ^ dev.blockSizeLog2 < 2 ^ 64 → (r.Inside dev ↔ r.NoWrap dev)) := by
  have passed := Request.passed called
  cases r with
  | read buf offset len | write buf offset len =>
    exact ⟨bytes_inside passed, fun fits => ⟨noWrap_of_bytes_inside fits, bytes_inside passed⟩⟩
  | readBlock buf block count | writeBlock buf block count | erase block count isSecure =>
    exact ⟨(blocks_inside_iff geometry passed).mpr, fun _ => blocks_inside_iff geometry passed⟩
  | xfer block count =>
    exact ⟨(blocks_inside_iff geometry passed).mpr, fun _ => blocks_inside_iff geometry passed⟩

def smallDev : Bdev := ⟨1, 9, 16, 1⟩

def wrappedRequests : List Request :=
  [.read 8 512 (2 ^ 64 - 256), .readBlock 8 1 (2 ^ 32 - 1), .write 8 512 (2 ^ 64 - 256),
    .writeBlock 8 1 (2 ^ 32 - 1), .erase 1 (2 ^ 32 - 1) false, .xfer 1 (2 ^ 32 - 1)]

/-- **Each of the six functions calls the driver** for a range far beyond the device. -/
theorem wrapped_requests_called :
    wrappedRequests.all fun r =>
      decide (r.Representable smallDev ∧ r.CallsDriver smallDev ∧ ¬ r.Inside smallDev) := by
  decide +kernel

/-- The last block of the device. -/
theorem range_inside_iff_last :
    (Request.readBlock 8 15 1).CallsDriver smallDev ∧ (Request.readBlock 8 15 1).Inside smallDev :=
  have called : (Request.readBlock 8 15 1).CallsDriver smallDev := by decide +kernel
  ⟨called, (range_inside_iff smallDev (.readBlock 8 15 1) (by decide) called).1 (by decide)⟩

end Cboot.BlockDev
