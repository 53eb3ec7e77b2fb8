/-
**The queues of an IVC channel.**

An endpoint counts its frames modulo `2 ^ 32` in shared memory and keeps the position of the next
frame beside the counters. `tegra_ivc_channel_sync` computes the positions from the counters again:

* `Since.counted`: from a reset of the counters on, the positions are the true counts modulo
  `nframes` and the counters are the true counts modulo `2 ^ 32`, so that the two agree only if
  `nframes` divides what the counter lost.
* `accepted_apart_iff`: the test of the two queues in `tegra_ivc_init` leaves out the channel
  headers, the end of the upper queue and the width of `tegra_ivc_total_queue_size`.
-/

import Mathlib

namespace Cboot.Ipc

inductive Errno
  | einval
  | e2big
  deriving DecidableEq

/-! ### Positions and counters -/

structure Ivc where
  nframes : Nat
  wPos : Nat
  rPos : Nat
  wCount : Nat
  rCount : Nat
  deriving DecidableEq

def nextPos (nframes pos : Nat) : Nat :=
  if pos = nframes - 1 then 0 else pos + 1

def ivcAdvanceTx (ivc : Ivc) : Ivc :=
  { ivc with wCount := (ivc.wCount + 1) % 2 ^ 32, wPos := nextPos ivc.nframes ivc.wPos }

def ivcAdvanceRx (ivc : Ivc) : Ivc :=
  { ivc with rCount := (ivc.rCount + 1) % 2 ^ 32, rPos := nextPos ivc.nframes ivc.rPos }

def clearCounters (ivc : Ivc) : Ivc :=
  { ivc with wCount := 0, rCount := 0, wPos := 0, rPos := 0 }

def tegraIvcChannelSync (ivc : Ivc) : Except Errno Ivc :=
  if ivc.nframes = 0 then .error .einval
  else .ok { ivc with wPos := ivc.wCount % ivc.nframes, rPos := ivc.rCount % ivc.nframes }

inductive Since : Nat → Nat → Ivc → Prop
  | cleared (ivc : Ivc) : Since 0 0 (clearCounters ivc)
  | tx {sent received : Nat} {ivc : Ivc} (since : Since sent received ivc) :
      Since (sent + 1) received (ivcAdvanceTx ivc)
  | rx {sent received : Nat} {ivc : Ivc} (since : Since sent received ivc) :
      Since sent (received + 1) (ivcAdvanceRx ivc)

theorem nextPos_mod {nframes : Nat} (some_ : nframes ≠ 0) (count : Nat) :
    nextPos nframes (count % nframes) = (count + 1) % nframes := by
  have below := Nat.mod_lt count (Nat.pos_of_ne_zero some_)
  rw [nextPos, Nat.add_mod_eq_ite]
  by_cases one : nframes = 1
  · subst one
    simp [Nat.mod_one]
  have unit : 1 % nframes = 1 := Nat.mod_eq_of_lt (by omega)
  rw [unit]
  split_ifs <;> omega

theorem Since.counted {sent received : Nat} {ivc : Ivc} (since : Since sent received ivc)
    (some_ : ivc.nframes ≠ 0) :
    ivc.wPos = sent % ivc.nframes ∧ ivc.rPos = received % ivc.nframes ∧
      ivc.wCount = sent % 2 ^ 32 ∧ ivc.rCount = received % 2 ^ 32 := by
  induction since with
  | cleared ivc => simp [clearCounters]
  | tx since ih =>
    obtain ⟨written, read, writes, reads⟩ := ih some_
    refine ⟨?_, read, ?_, reads⟩
    · simpa only [ivcAdvanceTx, written] using nextPos_mod some_ _
    · simp only [ivcAdvanceTx, writes, Nat.mod_add_mod]
  | rx since ih =>
    obtain ⟨written, read, writes, reads⟩ := ih some_
    refine ⟨written, ?_, writes, ?_⟩
    · simpa only [ivcAdvanceRx, read] using nextPos_mod some_ _
    · simp only [ivcAdvanceRx, reads, Nat.mod_add_mod]

def lost (count : Nat) : Nat := 2 ^ 32 * (count / 2 ^ 32)

theorem mod_mod_eq_iff_dvd_lost (nframes count : Nat) :
    count % 2 ^ 32 % nframes = count % nframes ↔ nframes ∣ lost count := by
  have whole : count - count % 2 ^ 32 = lost count := by
    have := Nat.div_add_mod count (2 ^ 32)
    rw [lost]
    omega
  rw [← whole]
  exact Nat.modEq_iff_dvd' (Nat.mod_le _ _)

/-- A synchronisation leaves the positions alone iff the number of frames divides what the two
counters lost: always below `2 ^ 32` frames, and at any count if it is a power of two. -/
theorem channel_sync_keeps_iff {sent received : Nat} {ivc : Ivc}
    (since : Since sent received ivc) (some_ : 1 ≤ ivc.nframes) :
    tegraIvcChannelSync ivc = .ok ivc ↔
      ivc.nframes ∣ lost sent ∧ ivc.nframes ∣ lost received := by
  have nonzero : ivc.nframes ≠ 0 := Nat.one_le_iff_ne_zero.mp some_
  obtain ⟨written, read, writes, reads⟩ := since.counted nonzero
  rw [tegraIvcChannelSync, if_neg nonzero, ← mod_mod_eq_iff_dvd_lost, ← mod_mod_eq_iff_dvd_lost,
    ← writes, ← reads, ← written, ← read]
  cases ivc
  simp

theorem one_frame_sync_keeps :
    tegraIvcChannelSync ⟨4, 1, 0, 1, 0⟩ = .ok ⟨4, 1, 0, 1, 0⟩ :=
  (channel_sync_keeps_iff (.tx (.cleared ⟨4, 0, 0, 0, 0⟩)) (by decide)).mpr (by decide)

theorem Since.sent (nframes count : Nat) : ∃ ivc, ivc.nframes = nframes ∧ Since count 0 ivc := by
  induction count with
  | zero => exact ⟨_, rfl, .cleared ⟨nframes, 0, 0, 0, 0⟩⟩
  | succ count ih =>
    obtain ⟨ivc, frames, since⟩ := ih
    exact ⟨ivcAdvanceTx ivc, frames, .tx since⟩

/-- After `2 ^ 32` frames through a queue of three the next frame is the second, and the
synchronisation moves it to the first. -/
theorem wrapped_count_moves :
    ∃ ivc synced, Since (2 ^ 32) 0 ivc ∧ ivc.nframes = 3 ∧
      tegraIvcChannelSync ivc = .ok synced ∧ ivc.wPos = 1 ∧ synced.wPos = 0 := by
  obtain ⟨ivc, frames, since⟩ := Since.sent 3 (2 ^ 32)
  have nonzero : ivc.nframes ≠ 0 := by simp [frames]
  obtain ⟨written, -, writes, -⟩ := since.counted nonzero
  refine ⟨ivc, _, since, frames, if_neg nonzero, ?_, ?_⟩
  · simp [written, frames]
  · simp [writes]

/-! ### The memory of the two queues -/

def ivcAlign : Nat := 64

def channelHeader : Nat := 2 * ivcAlign

structure Params where
  rxBase : Nat
  txBase : Nat
  nframes : Nat
  frameSize : Nat
  rx_lt : rxBase < 2 ^ 64 := by decide
  tx_lt : txBase < 2 ^ 64 := by decide
  nframes_lt : nframes < 2 ^ 32 := by decide
  frameSize_lt : frameSize < 2 ^ 32 := by decide

def tegraIvcTotalQueueSize (queueSize : Nat) : Nat :=
  if queueSize % ivcAlign ≠ 0 then 0 else (queueSize + channelHeader) % 2 ^ 32

def overlaps (low high nframes frameSize : Nat) : Bool :=
  decide (high < (low + frameSize * nframes % 2 ^ 32) % 2 ^ 64)

def checkIvcParams (queueBase1 queueBase2 nframes frameSize : Nat) : Option Errno :=
  if nframes * frameSize ≥ 0x100000000 then some .einval
  else if queueBase1 % ivcAlign ≠ 0 then some .einval
  else if queueBase2 % ivcAlign ≠ 0 then some .einval
  else if frameSize % ivcAlign ≠ 0 then some .einval
  else if queueBase1 < queueBase2 then
    if overlaps queueBase1 queueBase2 nframes frameSize then some .einval else none
  else if overlaps queueBase2 queueBase1 nframes frameSize then some .einval else none

def tegraIvcInit (p : Params) : Option Errno :=
  match checkIvcParams p.rxBase p.txBase p.nframes p.frameSize with
  | some err => some err
  | none => if p.frameSize > 2 ^ 31 then some .e2big else none

namespace Params

variable (p : Params)

def size : Nat := p.nframes * p.frameSize

def low : Nat := min p.rxBase p.txBase

def high : Nat := max p.rxBase p.txBase

def queue (base : Nat) : Set Nat := Set.Ico base (base + channelHeader + p.size)

/-- What the caller relies on: `tegra_ivc_total_queue_size` is the size of a queue, neither queue
runs past the end of the address space, and they share no byte. -/
structure Apart : Prop where
  sized : tegraIvcTotalQueueSize p.size = channelHeader + p.size
  rx_fits : p.rxBase + channelHeader + p.size ≤ 2 ^ 64
  tx_fits : p.txBase + channelHeader + p.size ≤ 2 ^ 64
  disjoint : Disjoint (p.queue p.rxBase) (p.queue p.txBase)

end Params

theorem frames_aligned {p : Params} (accepted : tegraIvcInit p = none) :
    p.size % ivcAlign = 0 := by
  have frame : p.frameSize % ivcAlign = 0 := by
    by_contra odd
    simp [tegraIvcInit, checkIvcParams, odd] at accepted
  exact Nat.mod_eq_zero_of_dvd ((Nat.dvd_of_mod_eq_zero frame).mul_left _)

theorem Params.sized_iff {p : Params} (aligned : p.size % ivcAlign = 0) :
    tegraIvcTotalQueueSize p.size = channelHeader + p.size ↔ channelHeader + p.size < 2 ^ 32 := by
  rw [tegraIvcTotalQueueSize, if_neg (not_not.mpr aligned), Nat.add_comm p.size]
  constructor
  · intro exact_
    exact exact_ ▸ Nat.mod_lt _ (by decide)
  · exact Nat.mod_eq_of_lt

theorem Params.disjoint_iff (p : Params) :
    Disjoint (p.queue p.rxBase) (p.queue p.txBase) ↔
      p.low + channelHeader + p.size ≤ p.high := by
  have header : channelHeader = 128 := rfl
  rw [Params.queue, Params.queue, Set.Ico_disjoint_Ico, Params.low, Params.high]
  omega

theorem Params.fits_iff (p : Params) :
    p.high + channelHeader + p.size ≤ 2 ^ 64 ↔
      p.rxBase + channelHeader + p.size ≤ 2 ^ 64 ∧ p.txBase + channelHeader + p.size ≤ 2 ^ 64 := by
  rw [Params.high]
  omega

/-- The queues of accepted parameters are apart iff the gap between the bases also holds a header,
the upper queue ends inside the address space and the size of a queue fits in 32 bits. -/
theorem accepted_apart_iff (p : Params) (accepted : tegraIvcInit p = none) :
    p.Apart ↔ p.low + channelHeader + p.size ≤ p.high ∧
      p.high + channelHeader + p.size ≤ 2 ^ 64 ∧ channelHeader + p.size < 2 ^ 32 := by
  rw [← p.disjoint_iff, p.fits_iff, ← Params.sized_iff (frames_aligned accepted)]
  constructor
  · rintro ⟨sized, rx_fits, tx_fits, disjoint⟩
    exact ⟨disjoint, ⟨rx_fits, tx_fits⟩, sized⟩
  · rintro ⟨disjoint, ⟨rx_fits, tx_fits⟩, sized⟩
    exact ⟨sized, rx_fits, tx_fits, disjoint⟩

def spacedParams : Params where
  rxBase := 0x1000
  txBase := 0x1100
  nframes := 2
  frameSize := 64

theorem spaced_queues_apart : tegraIvcInit spacedParams = none ∧ spacedParams.Apart :=
  ⟨by decide, (accepted_apart_iff spacedParams (by decide)).mpr (by decide)⟩

/-- The second queue begins where the frames of the first would end without its header, so that the
header of the second lies on those frames. -/
theorem adjacent_queues_overlap :
    ∃ p : Params, tegraIvcInit p = none ∧ p.rxBase = 0x1000 ∧ p.txBase = 0x1080 ∧
      p.nframes = 2 ∧ p.frameSize = 64 ∧ 0x1080 ∈ p.queue p.rxBase ∩ p.queue p.txBase ∧
      ¬ p.Apart := by
  refine ⟨⟨0x1000, 0x1080, 2, 64, by decide, by decide, by decide, by decide⟩, by decide, rfl, rfl,
    rfl, rfl, ⟨?_, ?_⟩, ?_⟩
  · simp [Params.queue, Params.size, channelHeader, ivcAlign]
  · simp [Params.queue, Params.size, channelHeader, ivcAlign]
  · intro apart
    have order := (Params.disjoint_iff _).mp apart.disjoint
    simp [Params.low, Params.high, Params.size, channelHeader, ivcAlign] at order

end Cboot.Ipc
