/-
**The zlib decompressor.**

`zlib_decompress` calls `inflate` with room for one chunk until a call leaves some of it, and it takes
that for the end of the stream. A call also leaves room if the input is used up, so that an input
that was cut off is decompressed without an error.
-/

import Cboot.Error

namespace Cboot.Decompress

/-! ### The decompressor -/

def chunkSize : Nat := 2048 * 32 * 16

inductive InflateRet
  | ok
  | streamEnd
  | failed
  deriving DecidableEq

structure Inflated (σ : Type) where
  ret : InflateRet
  used : Nat
  made : Nat
  strm : σ

section Model

variable {σ : Type} (inflate : Nat → Nat → σ → Inflated σ)

def zlibLoop (outbufSize availIn written : Nat) (strm : σ) : Result (Nat × Bool) :=
  if outbufSize - written < chunkSize then tegrablError .decompress .overflow 0
  else
    let call := inflate availIn chunkSize strm
    if call.ret = .failed then tegrablError .decompress .badParameter 0
    else if call.made = chunkSize then
      zlibLoop outbufSize (availIn - call.used) (written + call.made) call.strm
    else .ok (written + call.made, call.ret == .streamEnd)
  termination_by outbufSize - written
  decreasing_by
    have positive : 0 < chunkSize := by decide
    change outbufSize - (written + call.made) < outbufSize - written
    omega

def zlibDecompress (inSize outbufSize : Nat) (strm : σ) : Result (Nat × Bool) :=
  zlibLoop inflate outbufSize inSize 0 strm

end Model

/-! ### The contract of inflate -/

structure Stream where
  ends : Option Nat
  length : Nat

/-- What a call may do on a stream of which `consumed` bytes have been read and `produced` written:
it reports the end at the end, and as long as there is room it goes on while it has input. -/
structure InflateAllowed {σ : Type} (stream : Stream) (consumed produced : σ → Nat)
    (availIn availOut : Nat) (strm : σ) (call : Inflated σ) : Prop where
  used : call.used ≤ availIn ∧ consumed call.strm = consumed strm + call.used
  made : call.made ≤ availOut ∧ produced call.strm = produced strm + call.made
  ended : call.ret = .streamEnd → stream.ends = some (consumed call.strm) ∧
    produced call.strm = stream.length
  pending : call.ret = .ok → call.made < availOut → call.used = availIn ∧
    ∀ last, stream.ends = some last → consumed call.strm < last

def Stream.EndsIn (stream : Stream) (inSize : Nat) : Prop :=
  ∃ last, stream.ends = some last ∧ last ≤ inSize

section Contract

variable {σ : Type} {inflate : Nat → Nat → σ → Inflated σ} {stream : Stream}
  {consumed produced : σ → Nat} (contract : ∀ availIn availOut strm, InflateAllowed stream consumed
    produced availIn availOut strm (inflate availIn availOut strm))
include contract

theorem zlibLoop_done {inSize outbufSize : Nat} {result : Nat × Bool} (availIn written : Nat)
    (strm : σ) (position : consumed strm + availIn = inSize) (output : produced strm = written)
    (run : zlibLoop inflate outbufSize availIn written strm = .ok result) :
    (result.2 = true ↔ stream.EndsIn inSize) ∧ (result.2 = true → result.1 = stream.length) := by
  -- a call that fills its chunk leaves the relation of the stream and the counts as it was
  induction availIn, written, strm using zlibLoop.induct inflate outbufSize with
  | case1 availIn written strm short =>
    rw [zlibLoop, if_pos short] at run
    cases run
  | case2 availIn written strm room call error =>
    rw [zlibLoop, if_neg room, if_pos error] at run
    cases run
  | case3 availIn written strm room call fine full again =>
    rw [zlibLoop, if_neg room, if_neg fine, if_pos full] at run
    have allowed : InflateAllowed stream consumed produced availIn chunkSize strm call :=
      contract availIn chunkSize strm
    refine again ?_ ?_ run
    · rw [allowed.used.2]
      have := allowed.used.1
      omega
    · rw [allowed.made.2, output]
  | case4 availIn written strm room call fine notFull =>
    rw [zlibLoop, if_neg room, if_neg fine, if_neg notFull] at run
    cases run
    have allowed : InflateAllowed stream consumed produced availIn chunkSize strm call :=
      contract availIn chunkSize strm
    obtain ⟨bound, moved⟩ := allowed.used
    cases ret : call.ret with
    | failed => exact absurd ret fine
    | streamEnd =>
      obtain ⟨last, whole⟩ := allowed.ended ret
      have inside : stream.EndsIn inSize := ⟨_, last, by omega⟩
      exact ⟨iff_of_true rfl inside, fun _ => by rw [← whole, allowed.made.2, output]⟩
    | ok =>
      obtain ⟨all, before⟩ := allowed.pending ret (lt_of_le_of_ne allowed.made.1 notFull)
      have outside : ¬ stream.EndsIn inSize := by
        rintro ⟨last, ends, inside⟩
        have := before last ends
        omega
      exact ⟨iff_of_false Bool.false_ne_true outside, nofun⟩

/-- **A stream that was decompressed without an error has been read to its end exactly if it ends in
the input**, and what was written then is all of it. -/
theorem zlib_complete_iff {inSize outbufSize written : Nat} {done : Bool} {strm : σ}
    (fresh : consumed strm = 0 ∧ produced strm = 0)
    (run : zlibDecompress inflate inSize outbufSize strm = .ok (written, done)) :
    (done = true ↔ stream.EndsIn inSize) ∧ (done = true → written = stream.length) :=
  zlibLoop_done contract inSize 0 strm (by omega) fresh.2 run

end Contract

/-! ### A sample -/

def copyInflate (length availIn availOut position : Nat) : Inflated Nat :=
  let count := min availIn (min availOut (length - position))
  ⟨if length < position then .failed else if position + count = length then .streamEnd else .ok,
    count, count, position + count⟩

theorem copyInflate_allowed (length availIn availOut position : Nat) :
    InflateAllowed ⟨some length, length⟩ id id availIn availOut position
      (copyInflate length availIn availOut position) where
  used := ⟨Nat.min_le_left _ _, rfl⟩
  made := ⟨(Nat.min_le_right _ _).trans (Nat.min_le_left _ _), rfl⟩
  ended ret := by
    simp only [copyInflate] at ret ⊢
    split_ifs at ret with past last
    exact ⟨congrArg some last.symm, last⟩
  pending ret left := by
    simp only [copyInflate, id] at ret left ⊢
    split_ifs at ret with past last
    refine ⟨by omega, fun stop same => ?_⟩
    cases same
    omega

/-- **Five of ten bytes are decompressed without an error.** -/
theorem cut_stream_accepted :
    zlibDecompress (copyInflate 10) 5 chunkSize 0 = .ok (5, false) := by
  rw [zlibDecompress, zlibLoop]
  decide

theorem whole_stream_complete : zlibDecompress (copyInflate 10) 10 chunkSize 0 = .ok (10, true) ∧
    Stream.EndsIn ⟨some 10, 10⟩ 10 := by
  have run : zlibDecompress (copyInflate 10) 10 chunkSize 0 = .ok (10, true) := by
    rw [zlibDecompress, zlibLoop]
    decide
  exact ⟨run, (zlib_complete_iff (copyInflate_allowed 10) ⟨rfl, rfl⟩ run).1.mp rfl⟩

end Cboot.Decompress
