/-
**Asynchronous transfers of a SATA device.**

`tegrabl_sata_bdev_xfer` starts the first chunk of a transfer and `tegrabl_sata_bdev_xfer_wait` is
called until it reports that the transfer is complete. A wait whose time is over leaves the block
and the count of the chunk in flight in the transfer, but not its place in the buffer, so the next
wait takes the start of the buffer for it.
-/

import Cboot.BlockDev.Async

namespace Cboot.Sata

open Prog
open BlockDev (XferInfo blockdevRead)

/-! ### The two functions -/

def sataMaxReadWriteSectors : Nat := 0x1FFF

def blockSize : Nat := 2 ^ 9

structure Chunk where
  block : Nat
  count : Nat
  buf : Nat
  isWrite : Bool
  deriving DecidableEq

structure Hardware (σ : Type) where
  /-- `tegrabl_sata_ahci_xfer` behind its assertions. -/
  ahciXfer : Chunk → σ → Result Unit × σ
  /-- `tegrabl_sata_xfer_complete`, for the command that was started last. -/
  xferComplete : σ → Result Unit × σ
  /-- `tegrabl_get_timestamp_us`. -/
  timestampUs : σ → Nat × σ

structure Context (σ : Type) where
  dmaInProgress : Bool
  bulkCount : Nat
  isWrite : Bool
  hw : σ
  issued : List Chunk
  completed : List Chunk

structure Rest where
  block : Nat
  count : Nat
  buf : Nat

section Model

variable {σ : Type} (hw : Hardware σ)

def tegrablSataAhciXfer (c : Chunk) : Prog ErrorValue (Context σ) Unit := fun s =>
  if c.buf = 0 ∨ c.count = 0 then none
  else match hw.ahciXfer c s.hw with
    | (.ok (), after) => some (.ok (), { s with hw := after, issued := s.issued ++ [c] })
    | (.error e, after) => some (.error e, { s with hw := after })

def tegrablSataXferComplete : Prog ErrorValue (Context σ) Unit := fun s =>
  match hw.xferComplete s.hw with
  | (.ok (), after) => some (.ok (),
      { s with hw := after, completed := s.completed ++ s.issued.getLast?.toList })
  | (.error e, after) => some (.error e, { s with hw := after })

def timestamp : Prog ErrorValue (Context σ) Nat := fun s =>
  some (.ok (hw.timestampUs s.hw).1, { s with hw := (hw.timestampUs s.hw).2 })

def tegrablSataBdevXfer (blockCount : Nat) (xfer : XferInfo) : Prog ErrorValue (Context σ) Unit :=
  if xfer.buf = 0 then ofResult (tegrablError .sata .invalid 0)
  else if blockCount < xfer.startBlock + xfer.blockCount then
    ofResult (tegrablError .sata .overflow 0)
  else do
    let bulkCount := min xfer.blockCount sataMaxReadWriteSectors
    let isWrite := decide (xfer.xferType ≠ blockdevRead)
    tegrablSataAhciXfer hw ⟨xfer.startBlock, bulkCount, xfer.buf, isWrite⟩
    modify fun s => { s with dmaInProgress := true, bulkCount := bulkCount, isWrite := isWrite }

def Rest.behind (rest : Rest) (bulkCount : Nat) : Rest where
  block := (rest.block + bulkCount) % 2 ^ 32
  count := (rest.count + (2 ^ 32 - bulkCount)) % 2 ^ 32
  buf := rest.buf + bulkCount * blockSize % 2 ^ 32

def collect (rest : Rest) : Prog ErrorValue (Context σ) Rest := do
  let s ← read
  if s.dmaInProgress then do
    tegrablSataXferComplete hw
    return rest.behind s.bulkCount
  else return rest

def waitRound (rest : Rest) : Prog ErrorValue (Context σ) (Rest × Bool) := do
  let rest ← collect hw rest
  let bulkCount := min rest.count sataMaxReadWriteSectors
  if bulkCount = 0 then return (rest, false)
  else do
    let s ← read
    tegrablSataAhciXfer hw ⟨rest.block, bulkCount, rest.buf, s.isWrite⟩
    modify fun s => { s with bulkCount := bulkCount }
    return (rest, true)

def waitLoop (timeout start : Nat) : Nat → Nat → Rest → Prog ErrorValue (Context σ) Rest
  | 0, _, _ => stuck
  | rounds + 1, elapsed, rest =>
    if rest.count = 0 ∨ timeout < elapsed then return rest
    else do
      let (rest, more) ← waitRound hw rest
      if more = false then return rest
      else do
        let now ← timestamp hw
        waitLoop timeout start rounds ((now + (2 ^ 64 - start % 2 ^ 64)) % 2 ^ 64) rest

def tegrablSataBdevXferWait (rounds timeout : Nat) (xfer : XferInfo) :
    Prog ErrorValue (Context σ) (Bool × XferInfo) :=
  if xfer.buf = 0 then ofResult (tegrablError .sata .invalid 0)
  else do
    let start ← timestamp hw
    let rest ← waitLoop hw timeout start rounds 0 ⟨xfer.startBlock, xfer.blockCount, xfer.buf⟩
    if 0 < rest.count then
      return (false, { xfer with startBlock := rest.block, blockCount := rest.count })
    else return (true, xfer)

def waits (rounds : Nat) : List Nat → XferInfo → Prog ErrorValue (Context σ) Bool
  | [], _ => return false
  | timeout :: timeouts, xfer => do
    let (complete, xfer) ← tegrablSataBdevXferWait hw rounds timeout xfer
    if complete then return true else waits rounds timeouts xfer

def asyncXfer (blockCount rounds : Nat) (timeouts : List Nat) (xfer : XferInfo) :
    Prog ErrorValue (Context σ) Bool := do
  tegrablSataBdevXfer hw blockCount xfer
  waits hw rounds timeouts xfer

end Model

/-! ### Transfers -/

structure Request (blockCount : Nat) where
  xferType : Nat
  block : Nat
  count : Nat
  buf : Nat
  blockLt : block < 2 ^ 32
  countLt : count < 2 ^ 32
  inside : block + count ≤ blockCount
  buffer : buf ≠ 0

variable {blockCount : Nat}

def Request.xfer (request : Request blockCount) : XferInfo :=
  ⟨request.xferType, request.buf, request.block, request.count, true⟩

def Request.isWrite (request : Request blockCount) : Bool :=
  decide (request.xferType ≠ blockdevRead)

def Chunk.moves (c : Chunk) : List (Nat × Nat) :=
  (List.range c.count).map fun j => (c.block + j, c.buf + j * blockSize)

def Request.moves (request : Request blockCount) : List (Nat × Nat) :=
  (List.range request.count).map fun i => (request.block + i, request.buf + i * blockSize)

def Exact {σ : Type} (request : Request blockCount) (before after : Context σ) : Prop :=
  ∃ chunks, after.issued = before.issued ++ chunks ∧ after.completed = before.completed ++ chunks ∧
    (∀ c ∈ chunks, c.isWrite = request.isWrite) ∧ chunks.flatMap Chunk.moves = request.moves

structure Hardware.FaultFree {σ : Type} (hw : Hardware σ) (blockCount : Nat) : Prop where
  xfer : ∀ c s, c.count ≤ sataMaxReadWriteSectors → c.block + c.count ≤ blockCount →
    (hw.ahciXfer c s).1 = .ok ()
  complete : ∀ s, (hw.xferComplete s).1 = .ok ()

def TransfersExactly (request : Request blockCount) : Prop :=
  ∀ (σ : Type) (hw : Hardware σ), hw.FaultFree blockCount →
    ∀ (before : Context σ) rounds timeouts after,
    asyncXfer hw blockCount rounds timeouts request.xfer before = some (.ok true, after) →
    Exact request before after

def Completes (request : Request blockCount) : Prop :=
  ∀ (σ : Type) (hw : Hardware σ), hw.FaultFree blockCount → ∀ (before : Context σ) rounds timeouts,
    request.count < rounds → request.count < timeouts.length →
    ∃ after, asyncXfer hw blockCount rounds timeouts request.xfer before = some (.ok true, after)

/-! ### The chunks of a request -/

def Request.chunk (request : Request blockCount) (k : Nat) : Chunk where
  block := request.block + k * sataMaxReadWriteSectors
  count := min (request.count - k * sataMaxReadWriteSectors) sataMaxReadWriteSectors
  buf := request.buf + k * sataMaxReadWriteSectors * blockSize
  isWrite := request.isWrite

theorem chunks_moves (request : Request blockCount) (k : Nat) :
    ((List.range k).map request.chunk).flatMap Chunk.moves =
      (List.range (min request.count (k * sataMaxReadWriteSectors))).map fun i =>
        (request.block + i, request.buf + i * blockSize) := by
  induction k with
  | zero => simp
  | succ k ih =>
    have total : min request.count ((k + 1) * sataMaxReadWriteSectors) =
        min request.count (k * sataMaxReadWriteSectors) + (request.chunk k).count := by
      simp only [Request.chunk, Nat.succ_mul]
      omega
    rw [List.range_succ, List.map_append, List.flatMap_append, ih, total, List.range_add,
      List.map_append, List.map_map]
    congr 1
    simp only [List.map_cons, List.map_nil, List.flatMap_cons, List.flatMap_nil, List.append_nil,
      Chunk.moves]
    refine List.map_congr_left fun j member => ?_
    have some_ : 0 < (request.chunk k).count := Nat.zero_lt_of_lt (List.mem_range.mp member)
    have reached : min request.count (k * sataMaxReadWriteSectors) =
        k * sataMaxReadWriteSectors := by
      simp only [Request.chunk] at some_
      omega
    simp only [Function.comp_apply, reached, Request.chunk, Nat.add_mul, Nat.add_assoc]

theorem exact_of_chunks {σ : Type} {request : Request blockCount} {before after : Context σ}
    {k : Nat} (all : request.count ≤ k * sataMaxReadWriteSectors)
    (issued : after.issued = before.issued ++ (List.range k).map request.chunk)
    (completed : after.completed = before.completed ++ (List.range k).map request.chunk) :
    Exact request before after := by
  refine ⟨_, issued, completed, fun c member => ?_, ?_⟩
  · obtain ⟨i, -, rfl⟩ := List.mem_map.mp member
    rfl
  · rw [chunks_moves, Nat.min_eq_left all]
    rfl

/-! ### One round -/

section Rounds

variable {σ : Type} {hw : Hardware σ} {request : Request blockCount} {before s : Context σ}

def Request.Short (request : Request blockCount) : Prop :=
  request.count ≤ sataMaxReadWriteSectors ∨
    (request.count ≤ 2 * sataMaxReadWriteSectors ∧
      request.block + sataMaxReadWriteSectors < 2 ^ 32)

instance (request : Request blockCount) : Decidable request.Short :=
  inferInstanceAs (Decidable (_ ∨ _ ∧ _))

structure Moving (request : Request blockCount) (before s : Context σ) (done : List Chunk)
    (flight : Chunk) : Prop where
  dma : s.dmaInProgress = true
  isWrite : s.isWrite = request.isWrite
  bulk : s.bulkCount = min (request.count - done.length * sataMaxReadWriteSectors)
    sataMaxReadWriteSectors
  issued : s.issued = before.issued ++ (done ++ [flight])
  completed : s.completed = before.completed ++ done
  left : done.length * sataMaxReadWriteSectors < request.count

theorem Moving.tick {done : List Chunk} {flight : Chunk}
    (moving : Moving request before s done flight) (hw : σ) :
    Moving request before { s with hw := hw } done flight :=
  ⟨moving.dma, moving.isWrite, moving.bulk, moving.issued, moving.completed, moving.left⟩

def Request.rest (request : Request blockCount) (k buf : Nat) : Rest where
  block := (request.block + k * sataMaxReadWriteSectors) % 2 ^ 32
  count := request.count - k * sataMaxReadWriteSectors
  buf := buf

def Request.next (request : Request blockCount) (k buf : Nat) : Chunk where
  block := (request.block + k * sataMaxReadWriteSectors) % 2 ^ 32
  count := min (request.count - k * sataMaxReadWriteSectors) sataMaxReadWriteSectors
  buf := buf
  isWrite := request.isWrite

theorem Request.next_eq_chunk {k buf : Nat}
    (place : buf = request.buf + k * sataMaxReadWriteSectors * blockSize)
    (numbered : request.block + k * sataMaxReadWriteSectors < 2 ^ 32) :
    request.next k buf = request.chunk k := by
  rw [Request.next, Request.chunk, Nat.mod_eq_of_lt numbered, place]

theorem ahciXfer_ok (free : hw.FaultFree blockCount) {c : Chunk}
    (size : c.count ≤ sataMaxReadWriteSectors) (some_ : c.count ≠ 0) (buffer : c.buf ≠ 0)
    (range : c.block + c.count ≤ blockCount) (s : Context σ) :
    tegrablSataAhciXfer hw c s =
      some (.ok (), { s with hw := (hw.ahciXfer c s.hw).2, issued := s.issued ++ [c] }) := by
  have ran : hw.ahciXfer c s.hw = (.ok (), _) := Prod.ext (free.xfer c s.hw size range) rfl
  rw [tegrablSataAhciXfer, if_neg (not_or.mpr ⟨buffer, some_⟩), ran]

theorem xferComplete_ok (free : hw.FaultFree blockCount) (s : Context σ) :
    tegrablSataXferComplete hw s = some (.ok (), { s with
      hw := (hw.xferComplete s.hw).2
      completed := s.completed ++ s.issued.getLast?.toList }) := by
  have ran : hw.xferComplete s.hw = (.ok (), _) := Prod.ext (free.complete s.hw) rfl
  rw [tegrablSataXferComplete, ran]

variable {done : List Chunk} {flight : Chunk}

theorem Moving.collected (free : hw.FaultFree blockCount)
    (moving : Moving request before s done flight) (rest : Rest) :
    ∃ s', collect hw rest s = some (.ok (rest.behind s.bulkCount), s') ∧ s'.dmaInProgress = true ∧
      s'.isWrite = request.isWrite ∧ s'.issued = before.issued ++ (done ++ [flight]) ∧
      s'.completed = before.completed ++ (done ++ [flight]) := by
  rw [collect, read_bind, if_pos moving.dma, bind_ok (xferComplete_ok free s)]
  refine ⟨_, rfl, moving.dma, moving.isWrite, moving.issued, ?_⟩
  dsimp only
  rw [moving.issued, moving.completed, ← List.append_assoc, List.getLast?_concat, List.append_assoc]
  rfl

theorem bulk_bytes {bulkCount : Nat} (size : bulkCount ≤ sataMaxReadWriteSectors) :
    bulkCount * blockSize % 2 ^ 32 = bulkCount * blockSize := by
  refine Nat.mod_eq_of_lt ?_
  calc bulkCount * blockSize ≤ sataMaxReadWriteSectors * blockSize := Nat.mul_le_mul_right _ size
    _ < 2 ^ 32 := by decide

theorem behind_last {k : Nat} (buf : Nat) (left : k * sataMaxReadWriteSectors < request.count)
    (last : request.count ≤ (k + 1) * sataMaxReadWriteSectors) :
    ((request.rest k buf).behind (min (request.count - k * sataMaxReadWriteSectors)
      sataMaxReadWriteSectors)).count = 0 := by
  have bound := request.countLt
  rw [Nat.succ_mul] at last
  have whole : min (request.count - k * sataMaxReadWriteSectors) sataMaxReadWriteSectors =
      request.count - k * sataMaxReadWriteSectors := Nat.min_eq_left (by omega)
  simp only [Rest.behind, Request.rest, whole]
  have full : request.count - k * sataMaxReadWriteSectors +
      (2 ^ 32 - (request.count - k * sataMaxReadWriteSectors)) = 2 ^ 32 := by omega
  rw [full, Nat.mod_self]

theorem behind_next {k buf : Nat} (more : (k + 1) * sataMaxReadWriteSectors < request.count) :
    (request.rest k buf).behind (min (request.count - k * sataMaxReadWriteSectors)
      sataMaxReadWriteSectors) =
        request.rest (k + 1) (buf + sataMaxReadWriteSectors * blockSize) := by
  have bound := request.countLt
  rw [Nat.succ_mul] at more
  have full : min (request.count - k * sataMaxReadWriteSectors) sataMaxReadWriteSectors =
      sataMaxReadWriteSectors := Nat.min_eq_right (by omega)
  rw [full, Rest.behind, bulk_bytes le_rfl]
  simp only [Request.rest, Nat.succ_mul, Rest.mk.injEq, and_true]
  refine ⟨?_, ?_⟩
  · rw [Nat.mod_add_mod, Nat.add_assoc]
  · have less : sataMaxReadWriteSectors < 2 ^ 32 := by decide
    omega

theorem waitRound_moves (free : hw.FaultFree blockCount)
    (moving : Moving request before s done flight) {buf : Nat} (buffer : buf ≠ 0) :
    (request.count ≤ (done.length + 1) * sataMaxReadWriteSectors ∧
      ∃ rest s', waitRound hw (request.rest done.length buf) s = some (.ok (rest, false), s') ∧
        rest.count = 0 ∧ s'.issued = before.issued ++ (done ++ [flight]) ∧
        s'.completed = before.completed ++ (done ++ [flight])) ∨
    ((done.length + 1) * sataMaxReadWriteSectors < request.count ∧
      ∃ s', waitRound hw (request.rest done.length buf) s =
          some (.ok (request.rest (done.length + 1)
            (buf + sataMaxReadWriteSectors * blockSize), true), s') ∧
      Moving request before s' (done ++ [flight])
        (request.next (done.length + 1) (buf + sataMaxReadWriteSectors * blockSize))) := by
  obtain ⟨s', ran, dma, isWrite, issued, completed⟩ :=
    moving.collected free (request.rest done.length buf)
  rw [waitRound, bind_ok ran, moving.bulk]
  by_cases last : request.count ≤ (done.length + 1) * sataMaxReadWriteSectors
  · have empty := behind_last buf moving.left last
    refine .inl ⟨last, _, s', ?_, empty, issued, completed⟩
    rw [empty, Nat.zero_min, if_pos rfl]
    rfl
  · have more := Nat.lt_of_not_le last
    refine .inr ⟨more, ?_⟩
    rw [behind_next more]
    have positive : 0 < sataMaxReadWriteSectors := by decide
    have some_ : min (request.count - (done.length + 1) * sataMaxReadWriteSectors)
        sataMaxReadWriteSectors ≠ 0 := by omega
    have range : (request.block + (done.length + 1) * sataMaxReadWriteSectors) % 2 ^ 32 +
        min (request.count - (done.length + 1) * sataMaxReadWriteSectors) sataMaxReadWriteSectors ≤
        blockCount := by
      have inside := request.inside
      have below :=
        Nat.mod_le (request.block + (done.length + 1) * sataMaxReadWriteSectors) (2 ^ 32)
      omega
    have place : buf + sataMaxReadWriteSectors * blockSize ≠ 0 := by omega
    have started : tegrablSataAhciXfer hw (request.next (done.length + 1)
        (buf + sataMaxReadWriteSectors * blockSize)) s' = _ :=
      ahciXfer_ok free (Nat.min_le_right _ _) some_ place range s'
    rw [if_neg (show ¬ min (request.rest (done.length + 1)
      (buf + sataMaxReadWriteSectors * blockSize)).count sataMaxReadWriteSectors = 0 from some_),
      read_bind, isWrite]
    refine ⟨_, bind_ok started _, ?_⟩
    have length : (done ++ [flight]).length = done.length + 1 := List.length_append
    refine ⟨dma, isWrite, ?_, ?_, completed, length.symm ▸ more⟩
    · rw [length]
      rfl
    · dsimp only
      rw [issued, List.append_assoc]

end Rounds

/-! ### Waits -/

section Waits

variable {σ : Type} {hw : Hardware σ} {request : Request blockCount} {before s : Context σ}
  {done seen : List Chunk} {flight : Chunk} {least : Nat}

def Right (request : Request blockCount) (chunks : List Chunk) : Prop :=
  request.Short → chunks = (List.range chunks.length).map request.chunk

structure Finished (request : Request blockCount) (before s : Context σ)
    (seen chunks : List Chunk) : Prop where
  all : request.count ≤ chunks.length * sataMaxReadWriteSectors
  issued : s.issued = before.issued ++ chunks
  completed : s.completed = before.completed ++ chunks
  later : seen <+: chunks
  right : Right request chunks

inductive Waited (request : Request blockCount) (before s : Context σ) (seen : List Chunk)
    (least : Nat) (rest : Rest) : Prop
  | complete (chunks : List Chunk) (empty : rest.count = 0)
      (finished : Finished request before s seen chunks)
  | moving (done : List Chunk) (flight : Chunk) (buf : Nat)
      (moving : Moving request before s done flight) (same : rest = request.rest done.length buf)
      (further : least ≤ done.length) (later : seen <+: done ++ [flight])
      (right : Right request (done ++ [flight]))

theorem Finished.earlier {seen' chunks : List Chunk}
    (finished : Finished request before s seen chunks) (earlier : seen' <+: seen) :
    Finished request before s seen' chunks :=
  { finished with later := earlier.trans finished.later }

theorem Waited.weaken {seen' : List Chunk} {least' : Nat} {rest : Rest}
    (waited : Waited request before s seen least rest) (earlier : seen' <+: seen)
    (fewer : least' ≤ least) : Waited request before s seen' least' rest := by
  cases waited with
  | complete chunks empty finished => exact .complete chunks empty (finished.earlier earlier)
  | moving done flight buf moving same further later right =>
    exact .moving done flight buf moving same (fewer.trans further) (earlier.trans later) right

theorem Right.next (right : Right request (done ++ [flight])) {buf : Nat}
    (more : (done.length + 1) * sataMaxReadWriteSectors < request.count)
    (first : done = [] → buf = request.buf) : Right request (done ++ [flight] ++
      [request.next (done.length + 1) (buf + sataMaxReadWriteSectors * blockSize)]) := by
  intro short
  have positive : 0 < sataMaxReadWriteSectors := by decide
  have bounds : request.count ≤ 2 * sataMaxReadWriteSectors ∧
      request.block + sataMaxReadWriteSectors < 2 ^ 32 := by
    refine short.resolve_left fun single => ?_
    rw [Nat.succ_mul] at more
    omega
  have none_ : done = [] := by
    have few : done.length + 1 < 2 := Nat.lt_of_mul_lt_mul_right (more.trans_le bounds.1)
    exact List.eq_nil_of_length_eq_zero (by omega)
  subst none_
  have second : request.next 1 (buf + sataMaxReadWriteSectors * blockSize) = request.chunk 1 := by
    refine Request.next_eq_chunk ?_ ?_
    · rw [first rfl, Nat.one_mul]
    · rw [Nat.one_mul]
      exact bounds.2
  have only : [flight] = [request.chunk 0] := right short
  simp only [List.nil_append, List.length_nil, Nat.zero_add, second, only]
  rfl

theorem waitLoop_run (free : hw.FaultFree blockCount) (timeout start rounds : Nat) :
    ∀ (s : Context σ) done flight buf elapsed, Moving request before s done flight → buf ≠ 0 →
      Right request (done ++ [flight]) → (done = [] → buf = request.buf) →
      (waitLoop hw timeout start rounds elapsed (request.rest done.length buf) s = none ∧
          rounds ≤ request.count - done.length * sataMaxReadWriteSectors) ∨
        ∃ rest s', waitLoop hw timeout start rounds elapsed (request.rest done.length buf) s =
            some (.ok rest, s') ∧
          Waited request before s' (done ++ [flight])
            (if elapsed ≤ timeout then done.length + 1 else done.length) rest := by
  induction rounds with
  | zero => exact fun s done flight buf elapsed _ _ _ _ => .inl ⟨rfl, Nat.zero_le _⟩
  | succ rounds ih =>
    intro s done flight buf elapsed moving buffer right first
    have some_ : (request.rest done.length buf).count ≠ 0 := Nat.sub_ne_zero_of_lt moving.left
    rw [waitLoop]
    by_cases late : timeout < elapsed
    · rw [if_pos (.inr late), if_neg (Nat.not_le.mpr late)]
      exact .inr ⟨_, s, rfl, .moving done flight buf moving rfl le_rfl (List.prefix_refl _) right⟩
    · rw [if_neg (not_or.mpr ⟨some_, late⟩), if_pos (Nat.le_of_not_lt late)]
      rcases waitRound_moves free moving buffer with
        ⟨last, rest, s', ran, empty, issued, completed⟩ | ⟨more, s', ran, moving'⟩
      · rw [bind_ok ran]
        refine .inr ⟨rest, s', rfl, .complete (done ++ [flight]) empty
          ⟨?_, issued, completed, List.prefix_refl _, right⟩⟩
        rw [List.length_append]
        exact last
      · rw [bind_ok ran]
        have length : (done ++ [flight]).length = done.length + 1 := List.length_append
        have place : buf + sataMaxReadWriteSectors * blockSize ≠ 0 := by omega
        have nonempty : done ++ [flight] ≠ [] := List.concat_ne_nil _ _
        rcases ih _ _ _ _ (((hw.timestampUs s'.hw).1 + (2 ^ 64 - start % 2 ^ 64)) % 2 ^ 64)
          (moving'.tick (hw.timestampUs s'.hw).2) place (right.next more first)
          (fun none_ => absurd none_ nonempty) with ⟨none_, few⟩ | ⟨rest, s'', run, waited⟩
        · refine .inl ⟨?_, ?_⟩
          · rw [length] at none_
            exact none_
          · rw [length, Nat.succ_mul] at few
            have positive : 0 < sataMaxReadWriteSectors := by decide
            rw [Nat.succ_mul] at more
            omega
        · rw [length] at run
          refine .inr ⟨rest, s'', run, waited.weaken (List.prefix_append _ _) ?_⟩
          rw [length]
          split <;> omega

def Request.resumed (request : Request blockCount) (k : Nat) : XferInfo :=
  { request.xfer with
    startBlock := (request.rest k request.buf).block
    blockCount := (request.rest k request.buf).count }

theorem Request.resumed_zero (request : Request blockCount) : request.resumed 0 = request.xfer := by
  simp only [Request.resumed, Request.rest, Nat.zero_mul, Nat.sub_zero, Nat.add_zero,
    Nat.mod_eq_of_lt request.blockLt]
  rfl

variable (free : hw.FaultFree blockCount)
include free

theorem wait_run (rounds timeout : Nat)
    (moving : Moving request before s done flight) (right : Right request (done ++ [flight])) :
    (tegrablSataBdevXferWait hw rounds timeout (request.resumed done.length) s = none ∧
        rounds ≤ request.count) ∨
      (∃ s' chunks, tegrablSataBdevXferWait hw rounds timeout (request.resumed done.length) s =
          some (.ok (true, request.resumed done.length), s') ∧
        Finished request before s' (done ++ [flight]) chunks) ∨
      ∃ s' done' flight',
        tegrablSataBdevXferWait hw rounds timeout (request.resumed done.length) s =
          some (.ok (false, request.resumed done'.length), s') ∧
        Moving request before s' done' flight' ∧ done.length < done'.length ∧
        done ++ [flight] <+: done' ++ [flight'] ∧ Right request (done' ++ [flight']) := by
  have stamped : timestamp hw s =
      some (.ok (hw.timestampUs s.hw).1, { s with hw := (hw.timestampUs s.hw).2 }) := rfl
  have buffer : (request.resumed done.length).buf ≠ 0 := request.buffer
  rw [tegrablSataBdevXferWait, if_neg buffer, bind_ok stamped]
  rcases waitLoop_run free timeout (hw.timestampUs s.hw).1 rounds _ _ _ _ 0
    (moving.tick (hw.timestampUs s.hw).2) request.buffer right (fun _ => rfl) with
    ⟨none_, few⟩ | ⟨rest, s', ran, waited⟩
  · refine .inl ⟨?_, few.trans (Nat.sub_le _ _)⟩
    rw [bind_apply]
    exact congrArg (Option.bind · _) none_
  · refine .inr ?_
    rw [if_pos (Nat.zero_le _)] at waited
    rw [bind_ok (show waitLoop hw timeout (hw.timestampUs s.hw).1 rounds 0
      ⟨(request.resumed done.length).startBlock, (request.resumed done.length).blockCount,
        (request.resumed done.length).buf⟩ { s with hw := (hw.timestampUs s.hw).2 } = _ from ran)]
    cases waited with
    | complete chunks empty finished =>
      rw [if_neg (by omega)]
      exact .inl ⟨s', chunks, rfl, finished⟩
    | moving done' flight' buf moving' same further later right' =>
      have left : 0 < rest.count := by
        rw [same]
        exact Nat.sub_pos_of_lt moving'.left
      rw [if_pos left, same]
      exact .inr ⟨s', done', flight', rfl, moving', further, later, right'⟩

theorem waits_run (rounds : Nat) (timeouts : List Nat) :
    ∀ (s : Context σ) done flight, Moving request before s done flight →
      Right request (done ++ [flight]) →
      (waits hw rounds timeouts (request.resumed done.length) s = none ∧ rounds ≤ request.count) ∨
      ∃ complete s', waits hw rounds timeouts (request.resumed done.length) s =
          some (.ok complete, s') ∧
        (complete = true → ∃ chunks, Finished request before s' (done ++ [flight]) chunks) ∧
        (complete = false → timeouts.length + done.length < request.count) := by
  induction timeouts with
  | nil =>
    intro s done flight moving right
    refine .inr ⟨false, s, rfl, nofun, fun _ => ?_⟩
    have left := moving.left
    have positive : 0 < sataMaxReadWriteSectors := by decide
    have most := Nat.le_mul_of_pos_right done.length positive
    simp only [List.length_nil]
    omega
  | cons timeout timeouts ih =>
    intro s done flight moving right
    rcases wait_run free rounds timeout moving right with
      ⟨none_, few⟩ | ⟨s', chunks, ran, finished⟩ |
        ⟨s', done', flight', ran, moving', further, later, right'⟩
    · refine .inl ⟨?_, few⟩
      rw [waits, bind_apply, none_]
      rfl
    · rw [waits, bind_ok ran]
      exact .inr ⟨true, s', rfl, fun _ => ⟨chunks, finished⟩, nofun⟩
    · rw [waits, bind_ok ran]
      rcases ih s' done' flight' moving' right' with
        ⟨none_, few⟩ | ⟨complete, s'', run, done_, short⟩
      · exact .inl ⟨none_, few⟩
      · refine .inr ⟨complete, s'', run, fun yes => ?_, fun no => ?_⟩
        · obtain ⟨chunks, finished⟩ := done_ yes
          exact ⟨chunks, finished.earlier later⟩
        · have := short no
          rw [List.length_cons]
          omega

theorem xfer_moving (some_ : 0 < request.count)
    (before : Context σ) :
    ∃ s, tegrablSataBdevXfer hw blockCount request.xfer before = some (.ok (), s) ∧
      Moving request before s [] (request.chunk 0) := by
  have inside := request.inside
  have positive : 0 < sataMaxReadWriteSectors := by decide
  have started := ahciXfer_ok (c := ⟨request.block, min request.count sataMaxReadWriteSectors,
    request.buf, request.isWrite⟩) free (Nat.min_le_right _ _) (by dsimp only; omega) request.buffer
    (by dsimp only; omega) before
  have buffer : request.xfer.buf ≠ 0 := request.buffer
  have within : ¬ blockCount < request.xfer.startBlock + request.xfer.blockCount :=
    Nat.not_lt.mpr inside
  rw [tegrablSataBdevXfer, if_neg buffer, if_neg within]
  refine ⟨_, bind_ok started _, rfl, rfl, ?_, ?_, ?_, ?_⟩
  · simp [Request.xfer]
  · simp [Request.chunk]
  · simp
  · simpa using some_

theorem asyncXfer_run (some_ : 0 < request.count)
    (before : Context σ) (rounds : Nat) (timeouts : List Nat) :
    (asyncXfer hw blockCount rounds timeouts request.xfer before = none ∧ rounds ≤ request.count) ∨
    ∃ complete after, asyncXfer hw blockCount rounds timeouts request.xfer before =
        some (.ok complete, after) ∧
      (complete = true → request.Short → Exact request before after) ∧
      (complete = false → timeouts.length < request.count) := by
  obtain ⟨s, ran, moving⟩ := xfer_moving free some_ before
  rw [asyncXfer, bind_ok ran, ← request.resumed_zero]
  rcases waits_run free rounds timeouts s [] _ moving (fun _ => rfl) with
    ⟨none_, few⟩ | ⟨complete, after, run, finished, short⟩
  · exact .inl ⟨none_, few⟩
  · refine .inr ⟨complete, after, run, fun yes isShort => ?_, short⟩
    obtain ⟨chunks, finished⟩ := finished yes
    have places := finished.right isShort
    exact exact_of_chunks finished.all (places ▸ finished.issued) (places ▸ finished.completed)

end Waits

/-! ### Waits without time -/

section Impatient

variable {request : Request blockCount} {before s : Context Nat} {done : List Chunk}
  {flight : Chunk}

def ticking : Hardware Nat where
  ahciXfer _ now := (.ok (), now)
  xferComplete now := (.ok (), now)
  timestampUs now := (now, now + 1)

theorem ticking_faultFree : ticking.FaultFree blockCount := ⟨fun _ _ _ _ => rfl, fun _ => rfl⟩

theorem waitRound_clock (now : Nat) (rest : Rest) :
    Keeps (fun s => s.hw = now) (waitRound ticking rest) := by
  have started : ∀ c, Keeps (fun s => s.hw = now) (tegrablSataAhciXfer ticking c) := by
    intro c s same out ran
    rw [tegrablSataAhciXfer] at ran
    split at ran
    · cases ran
    · cases ran
      exact same
  have completed : Keeps (fun s => s.hw = now) (tegrablSataXferComplete ticking) := by
    intro s same out ran
    cases ran
    exact same
  have collected : Keeps (fun s => s.hw = now) (collect ticking rest) :=
    Triple.readAny fun s => Triple.ite
      (fun _ => completed.bind fun _ => Keeps.pure)
      fun _ => Keeps.pure
  refine collected.bind fun next => Triple.ite (fun _ => Keeps.pure) fun _ => ?_
  refine Triple.readAny fun s => (started _).bind fun _ => ?_
  refine Triple.bind (Triple.modify fun _ same => ?_) fun _ => Keeps.pure
  exact same

theorem wait_once (moving : Moving request before s done flight)
    (more : (done.length + 1) * sataMaxReadWriteSectors < request.count) (rounds : Nat) :
    ∃ s', tegrablSataBdevXferWait ticking (rounds + 2) 0 (request.resumed done.length) s =
        some (.ok (false, request.resumed (done.length + 1)), s') ∧
      Moving request before s' (done ++ [flight]) (request.next (done.length + 1)
        (request.buf + sataMaxReadWriteSectors * blockSize)) := by
  have stamped : timestamp ticking s = some (.ok s.hw, { s with hw := s.hw + 1 }) := rfl
  have buffer : (request.resumed done.length).buf ≠ 0 := request.buffer
  rcases waitRound_moves ticking_faultFree (moving.tick (s.hw + 1)) request.buffer with
    ⟨last, -⟩ | ⟨-, s', ran, moving'⟩
  · exact absurd more (Nat.not_lt.mpr last)
  · have clock : s'.hw = s.hw + 1 := waitRound_clock (s.hw + 1) _ _ rfl _ ran
    have later : (s'.hw + (2 ^ 64 - s.hw % 2 ^ 64)) % 2 ^ 64 = 1 := by
      rw [clock]
      omega
    have some_ : (request.rest done.length request.buf).count ≠ 0 :=
      Nat.sub_ne_zero_of_lt moving.left
    have loop : waitLoop ticking 0 s.hw (rounds + 2) 0 (request.rest done.length request.buf)
        { s with hw := s.hw + 1 } = some (.ok (request.rest (done.length + 1)
          (request.buf + sataMaxReadWriteSectors * blockSize)), { s' with hw := s'.hw + 1 }) := by
      rw [waitLoop, if_neg (not_or.mpr ⟨some_, Nat.not_lt_zero 0⟩), bind_ok ran]
      show waitLoop ticking 0 s.hw (rounds + 1) ((s'.hw + (2 ^ 64 - s.hw % 2 ^ 64)) % 2 ^ 64) _
        { s' with hw := s'.hw + 1 } = _
      rw [later, waitLoop, if_pos (.inr Nat.one_pos)]
      rfl
    refine ⟨{ s' with hw := s'.hw + 1 }, ?_, moving'.tick _⟩
    rw [tegrablSataBdevXferWait, if_neg buffer, bind_ok stamped]
    refine (bind_ok loop _).trans ?_
    have left : 0 < (request.rest (done.length + 1)
        (request.buf + sataMaxReadWriteSectors * blockSize)).count := Nat.sub_pos_of_lt more
    rw [if_pos left]
    rfl

theorem Exact.place {σ : Type} {before after : Context σ} {chunks : List Chunk}
    (exact_ : Exact request before after) (completed : after.completed = before.completed ++ chunks)
    {c : Chunk} (member : c ∈ chunks) (some_ : c.count ≠ 0) :
    ∃ i, c.block = request.block + i ∧ c.buf = request.buf + i * blockSize := by
  obtain ⟨chunks', -, completed', -, moves⟩ := exact_
  obtain rfl : chunks' = chunks := List.append_cancel_left (completed'.symm.trans completed)
  have moved : (c.block, c.buf) ∈ request.moves := by
    rw [← moves]
    refine List.mem_flatMap.mpr ⟨c, member, List.mem_map.mpr ⟨0, ?_, ?_⟩⟩
    · exact List.mem_range.mpr (Nat.pos_of_ne_zero some_)
    · simp
  obtain ⟨i, -, same⟩ := List.mem_map.mp moved
  obtain ⟨block, buf⟩ := Prod.mk.inj same
  exact ⟨i, block.symm, buf.symm⟩

theorem TransfersExactly.place (exactly : TransfersExactly request) (long : ¬ request.Short)
    {rounds : Nat} {timeouts timeouts' : List Nat} (moving : Moving request before s done flight)
    (run : asyncXfer ticking blockCount rounds timeouts request.xfer before =
      waits ticking rounds timeouts' (request.resumed done.length) s)
    (enough : request.count < rounds) (many : request.count ≤ timeouts'.length)
    (some_ : flight.count ≠ 0) :
    ∃ i, flight.block = request.block + i ∧ flight.buf = request.buf + i * blockSize := by
  rcases waits_run ticking_faultFree rounds timeouts' s done flight moving
    (fun short => absurd short long) with ⟨-, few⟩ | ⟨complete, after, ran, finished, short⟩
  · omega
  · cases complete with
    | false =>
      have := short rfl
      omega
    | true =>
      obtain ⟨chunks, finished⟩ := finished rfl
      have exact_ :=
        exactly Nat ticking ticking_faultFree before rounds timeouts after (run.trans ran)
      exact exact_.place finished.completed (finished.later.subset (by simp)) some_

theorem next_misplaced {k : Nat} (more : k * sataMaxReadWriteSectors < request.count)
    (wrong : 2 ≤ k ∨ k = 1 ∧ 2 ^ 32 ≤ request.block + sataMaxReadWriteSectors) {i : Nat}
    (block : (request.next k (request.buf + sataMaxReadWriteSectors * blockSize)).block =
      request.block + i)
    (buf : (request.next k (request.buf + sataMaxReadWriteSectors * blockSize)).buf =
      request.buf + i * blockSize) : False := by
  have bound := request.countLt
  have start := request.blockLt
  have position : i = sataMaxReadWriteSectors :=
    (Nat.eq_of_mul_eq_mul_right (by decide) (Nat.add_left_cancel buf)).symm
  have number : (request.block + k * sataMaxReadWriteSectors) % 2 ^ 32 = request.block + i := block
  rcases wrong with third | ⟨rfl, wraps⟩
  · have larger : 2 * sataMaxReadWriteSectors ≤ k * sataMaxReadWriteSectors :=
      Nat.mul_le_mul_right _ third
    have positive : 0 < sataMaxReadWriteSectors := by decide
    omega
  · rw [Nat.one_mul] at number
    omega

theorem next_count_ne_zero {k buf : Nat} (more : k * sataMaxReadWriteSectors < request.count) :
    (request.next k buf).count ≠ 0 := by
  have positive : 0 < sataMaxReadWriteSectors := by decide
  simp only [Request.next]
  omega

theorem not_transfersExactly (long : ¬ request.Short) : ¬ TransfersExactly request := by
  intro exactly
  obtain ⟨several, reason⟩ := not_or.mp long
  have some_ : 0 < request.count := Nat.zero_lt_of_lt (Nat.lt_of_not_le several)
  let before : Context Nat := ⟨false, 0, false, 0, [], []⟩
  obtain ⟨s, ran, moving⟩ := xfer_moving ticking_faultFree some_ before
  have second : (([] : List Chunk).length + 1) * sataMaxReadWriteSectors < request.count := by
    rw [List.length_nil, Nat.zero_add, Nat.one_mul]
    exact Nat.lt_of_not_le several
  obtain ⟨s', waited, moving'⟩ := wait_once moving second request.count
  have once (timeouts : List Nat) : asyncXfer ticking blockCount (request.count + 2) (0 :: timeouts)
      request.xfer before = waits ticking (request.count + 2) timeouts (request.resumed 1) s' := by
    rw [asyncXfer, bind_ok ran, ← request.resumed_zero]
    exact bind_ok waited _
  by_cases wraps : 2 ^ 32 ≤ request.block + sataMaxReadWriteSectors
  · obtain ⟨i, block, buf⟩ := exactly.place long moving' (once (List.replicate request.count 0))
      (by omega) (by simp) (next_count_ne_zero second)
    exact next_misplaced second (.inr ⟨rfl, wraps⟩) block buf
  · have third : (1 + 1) * sataMaxReadWriteSectors < request.count := by omega
    obtain ⟨s'', waited', moving''⟩ := wait_once moving' third request.count
    have twice : asyncXfer ticking blockCount (request.count + 2)
        (0 :: 0 :: List.replicate request.count 0) request.xfer before =
        waits ticking (request.count + 2) (List.replicate request.count 0) (request.resumed 2)
          s'' :=
      (once _).trans (bind_ok waited' _)
    obtain ⟨i, block, buf⟩ := exactly.place long moving'' twice (by omega) (by simp)
      (next_count_ne_zero third)
    exact next_misplaced third (.inl le_rfl) block buf

end Impatient

theorem asyncXfer_zero {σ : Type} {hw : Hardware σ} {request : Request blockCount}
    (zero : request.count = 0) (before : Context σ) (rounds : Nat) (timeouts : List Nat) :
    asyncXfer hw blockCount rounds timeouts request.xfer before = none := by
  have buffer : request.xfer.buf ≠ 0 := request.buffer
  have within : ¬ blockCount < request.xfer.startBlock + request.xfer.blockCount :=
    Nat.not_lt.mpr request.inside
  have none_ : min request.xfer.blockCount sataMaxReadWriteSectors = 0 := by
    show min request.count _ = 0
    rw [zero, Nat.zero_min]
  rw [asyncXfer, bind_apply, tegrablSataBdevXfer, if_neg buffer, if_neg within]
  rw [bind_apply, tegrablSataAhciXfer, if_pos (.inr none_)]
  rfl

/-- **Which transfers are exact**, with all waits: those of at most two chunks, unless the number of
the second chunk's first block wraps. All transfers of some blocks are reported complete after
enough waits. -/
theorem xfer_exact_iff (request : Request blockCount) :
    (TransfersExactly request ↔ request.Short) ∧ (0 < request.count → Completes request) := by
  refine ⟨⟨fun exactly => ?_, fun short => ?_⟩, fun some_ => ?_⟩
  · by_contra long
    exact not_transfersExactly long exactly
  · intro σ hw free before rounds timeouts after run
    rcases Nat.eq_zero_or_pos request.count with zero | some_
    · rw [asyncXfer_zero zero] at run
      cases run
    · rcases asyncXfer_run free some_ before rounds timeouts with
        ⟨none_, -⟩ | ⟨complete, after', ran, exact_, -⟩
      · cases none_.symm.trans run
      · cases ran.symm.trans run
        exact exact_ rfl short
  · intro σ hw free before rounds timeouts enough many
    rcases asyncXfer_run free some_ before rounds timeouts with
      ⟨-, few⟩ | ⟨complete, after, ran, -, short⟩
    · omega
    · cases complete with
      | true => exact ⟨after, ran⟩
      | false =>
        have := short rfl
        omega

def threeChunks : Request 0x10000 where
  xferType := blockdevRead
  block := 16
  count := 2 * 0x1FFF + 1
  buf := 0x1000
  blockLt := by decide
  countLt := by decide
  inside := by decide
  buffer := by decide

/-- Waits without time put the third chunk of a read into the place of the second. -/
theorem third_chunk_misplaced :
    ∃ after, asyncXfer ticking 0x10000 2 [0, 0, 0] threeChunks.xfer ⟨false, 0, false, 0, [], []⟩ =
        some (.ok true, after) ∧
      after.completed = [⟨16, 0x1FFF, 0x1000, false⟩,
        ⟨16 + 0x1FFF, 0x1FFF, 0x1000 + 0x1FFF * 512, false⟩,
        ⟨16 + 2 * 0x1FFF, 1, 0x1000 + 0x1FFF * 512, false⟩] ∧
      ¬ Exact threeChunks ⟨false, 0, false, 0, [], []⟩ after := by
  have ran : (asyncXfer ticking 0x10000 2 [0, 0, 0] threeChunks.xfer
      ⟨false, 0, false, 0, [], []⟩).map (fun out => (out.1, out.2.completed)) =
    some (.ok true, [⟨16, 0x1FFF, 0x1000, false⟩,
        ⟨16 + 0x1FFF, 0x1FFF, 0x1000 + 0x1FFF * 512, false⟩,
        ⟨16 + 2 * 0x1FFF, 1, 0x1000 + 0x1FFF * 512, false⟩]) := by decide +kernel
  obtain ⟨⟨result, after⟩, run, same⟩ := Option.map_eq_some_iff.mp ran
  obtain ⟨rfl, completed⟩ := Prod.mk.inj same
  refine ⟨after, run, completed, fun exact_ => ?_⟩
  obtain ⟨i, block, buf⟩ := exact_.place completed (.tail _ (.tail _ (.head _))) (by decide)
  simp only [threeChunks, blockSize] at block buf
  omega

end Cboot.Sata
