/-
**Asynchronous reads of a UFS device.**

`tegrabl_ufs_blockdev_xfer` starts the first chunk of a read and `tegrabl_ufs_blockdev_xfer_wait` is
called until it reports that the read is complete. A wait looks at the chunk in flight, starts the
next one, and leaves what is left of the read in the transfer when its time is over.

The size of the chunk in flight is kept in the context by the first of the two functions only.
-/

import Cboot.BlockDev.Async
import Cboot.Lib.Tiling

namespace Cboot.Ufs

open Prog Tiling
open BlockDev (XferInfo blockdevRead)

/-! ### The two functions -/

def ufsRwBlockMax : Nat := 16 * 64

structure Chunk where
  block : Nat
  count : Nat
  buf : Nat
  deriving DecidableEq

structure Hardware (σ : Type) where
  /-- `tegrabl_ufs_xfer`. -/
  ufsXfer : Chunk → σ → Result Unit × σ
  /-- `tegrabl_ufs_rw_check_complete`, for the transfer that was started last. -/
  rwCheckComplete : Nat → Nat → σ → Result Unit × σ
  /-- `tegrabl_get_timestamp_us`. -/
  timestampUs : σ → Nat × σ

structure Device where
  blockCount : Nat
  blockCountLt : blockCount < 2 ^ 32
  pageSize : Fin 4

def Device.blockSizeLog2 (dev : Device) : Nat := 12 + dev.pageSize

def Device.blockSize (dev : Device) : Nat := 2 ^ dev.blockSizeLog2

structure Context (σ : Type) where
  dmaInProgress : Bool
  bulkCount : Nat
  hw : σ
  issued : List Chunk
  completed : List Chunk

section Model

variable {σ : Type} (hw : Hardware σ) (dev : Device)

def startXfer (c : Chunk) : Prog ErrorValue (Context σ) Unit := fun s =>
  match hw.ufsXfer c s.hw with
  | (.ok (), after) => some (.ok (), { s with hw := after, issued := s.issued ++ [c] })
  | (.error e, after) => some (.error e, { s with hw := after })

def checkComplete (count buf : Nat) : Prog ErrorValue (Context σ) Unit := fun s =>
  match hw.rwCheckComplete count buf s.hw with
  | (.ok (), after) => some (.ok (),
      { s with hw := after, completed := s.completed ++ s.issued.getLast?.toList })
  | (.error e, after) => some (.error e, { s with hw := after })

def timestamp : Prog ErrorValue (Context σ) Nat := fun s =>
  some (.ok (hw.timestampUs s.hw).1, { s with hw := (hw.timestampUs s.hw).2 })

def badXfer (xfer : XferInfo) : Bool :=
  xfer.buf = 0 || (xfer.xferType ≠ blockdevRead || !xfer.isNonBlocking)

def tegrablUfsBlockdevXfer (xfer : XferInfo) : Prog ErrorValue (Context σ) Unit :=
  if badXfer xfer then ofResult (tegrablError .ufs .invalid 0)
  else if dev.blockCount < (xfer.startBlock + xfer.blockCount) % 2 ^ 32 then
    ofResult (tegrablError .ufs .overflow 0)
  else if xfer.blockCount = 0 then return ()
  else do
    let bulkCount := min xfer.blockCount ufsRwBlockMax
    startXfer hw ⟨xfer.startBlock, bulkCount, xfer.buf⟩
    modify fun s => { s with dmaInProgress := true, bulkCount := bulkCount }

def Chunk.behind (rest : Chunk) (bulkCount : Nat) : Chunk where
  block := (rest.block + bulkCount) % 2 ^ 32
  count := (rest.count + (2 ^ 32 - bulkCount)) % 2 ^ 32
  buf := rest.buf + bulkCount * 2 ^ dev.blockSizeLog2 % 2 ^ 32

def collect (rest : Chunk) : Prog ErrorValue (Context σ) Chunk := do
  let s ← read
  if s.dmaInProgress then do
    checkComplete hw s.bulkCount rest.buf
    return rest.behind dev s.bulkCount
  else return rest

def waitRound (rest : Chunk) : Prog ErrorValue (Context σ) (Chunk × Bool) := do
  let rest ← collect hw dev rest
  if min rest.count ufsRwBlockMax = 0 then return (rest, false)
  else do
    startXfer hw ⟨rest.block, min rest.count ufsRwBlockMax, rest.buf⟩
    return (rest, true)

def waitLoop (timeout start : Nat) : Nat → Nat → Chunk → Prog ErrorValue (Context σ) Chunk
  | 0, _, _ => stuck
  | rounds + 1, elapsed, rest =>
    if rest.count = 0 ∨ timeout < elapsed then return rest
    else do
      let (rest, more) ← waitRound hw dev rest
      if more = false then return rest
      else do
        let now ← timestamp hw
        waitLoop timeout start rounds ((now + (2 ^ 64 - start % 2 ^ 64)) % 2 ^ 64) rest

def tegrablUfsBlockdevXferWait (rounds timeout : Nat) (xfer : XferInfo) :
    Prog ErrorValue (Context σ) (Bool × XferInfo) :=
  if badXfer xfer then ofResult (tegrablError .ufs .invalid 0)
  else do
    let start ← timestamp hw
    let rest ← waitLoop hw dev timeout start rounds 0 ⟨xfer.startBlock, xfer.blockCount, xfer.buf⟩
    if 0 < rest.count then
      return (false,
        { xfer with startBlock := rest.block, blockCount := rest.count, buf := rest.buf })
    else return (true, xfer)

def waits (rounds : Nat) : List Nat → XferInfo → Prog ErrorValue (Context σ) Bool
  | [], _ => return false
  | timeout :: timeouts, xfer => do
    let (complete, xfer) ← tegrablUfsBlockdevXferWait hw dev rounds timeout xfer
    if complete then return true else waits rounds timeouts xfer

def asyncRead (rounds : Nat) (timeouts : List Nat) (xfer : XferInfo) :
    Prog ErrorValue (Context σ) Bool := do
  tegrablUfsBlockdevXfer hw dev xfer
  waits hw dev rounds timeouts xfer

end Model

/-! ### Consecutive chunks -/

def Chunk.tile (c : Chunk) : Tile Nat := ⟨c.buf, c.count⟩

def blocks (chunks : List Chunk) : Nat := extent (chunks.map Chunk.tile)

structure Consecutive (size : Nat) (request : Chunk) (chunks : List Chunk) : Prop where
  order : chunks.map (fun c => (c.block, c.tile)) = placed request.block (chunks.map Chunk.tile)
  places : ∀ c ∈ chunks, c.buf = request.buf + (c.block - request.block) * size

section Chunks

variable {size : Nat} {request : Chunk} {chunks : List Chunk}

@[simp] theorem blocks_nil : blocks [] = 0 := rfl

@[simp] theorem blocks_snoc (chunks : List Chunk) (c : Chunk) :
    blocks (chunks ++ [c]) = blocks chunks + c.count := by
  rw [blocks, List.map_append, extent_append]
  rfl

theorem Consecutive.nil : Consecutive size request [] := ⟨rfl, nofun⟩

theorem Consecutive.snoc (consecutive : Consecutive size request chunks) (count : Nat) :
    Consecutive size request (chunks ++
      [⟨request.block + blocks chunks, count, request.buf + blocks chunks * size⟩]) where
  order := by
    rw [List.map_append, List.map_append, placed_append, consecutive.order]
    rfl
  places := by
    intro c member
    rcases List.mem_append.mp member with earlier | last
    · exact consecutive.places c earlier
    · rw [List.mem_singleton.mp last, Nat.add_sub_cancel_left]

theorem Consecutive.disjoint (consecutive : Consecutive size request chunks) :
    chunks.Pairwise fun c d => c.block + c.count ≤ d.block := by
  have apart := placed_pairwise request.block (chunks.map Chunk.tile)
  rw [← consecutive.order] at apart
  exact List.pairwise_map.mp apart

end Chunks

/-! ### What a read does -/

section Reads

variable {σ : Type}

structure Hardware.FaultFree (hw : Hardware σ) (dev : Device) : Prop where
  xfer : ∀ c s, c.count ≤ ufsRwBlockMax → c.block + c.count ≤ dev.blockCount →
    (hw.ufsXfer c s).1 = .ok ()
  complete : ∀ count buf s, (hw.rwCheckComplete count buf s).1 = .ok ()

def Exact (dev : Device) (request : Chunk) (before after : Context σ) (complete : Bool) : Prop :=
  ∃ chunks, after.issued = before.issued ++ chunks ∧ Consecutive dev.blockSize request chunks ∧
    chunks.Pairwise (fun c d => c.block + c.count ≤ d.block) ∧ blocks chunks ≤ request.count ∧
    (complete = true →
      blocks chunks = request.count ∧ after.completed = before.completed ++ chunks)

def Chunk.xfer (request : Chunk) : XferInfo :=
  ⟨blockdevRead, request.buf, request.block, request.count, true⟩

/-- Reads of this request are right, on all hardware without faults and with all timeouts: whatever
has been waited for is as it should be, and with enough waits the read is complete. -/
structure ReadsExactly (dev : Device) (request : Chunk) : Prop where
  exact_ : ∀ (σ : Type) (hw : Hardware σ), hw.FaultFree dev → ∀ (before : Context σ) rounds timeouts
    outcome, asyncRead hw dev rounds timeouts request.xfer before = some outcome →
    ∃ complete, outcome.1 = .ok complete ∧ Exact dev request before outcome.2 complete
  completes : ∀ (σ : Type) (hw : Hardware σ), hw.FaultFree dev → ∀ (before : Context σ) rounds timeouts,
    request.count < rounds → request.count < timeouts.length →
    ∃ after, asyncRead hw dev rounds timeouts request.xfer before = some (.ok true, after)

end Reads

/-! ### One round -/

section Rounds

variable {σ : Type} {hw : Hardware σ} {dev : Device} {request rest : Chunk} {before s : Context σ}

structure Chunk.Inside (request : Chunk) (dev : Device) : Prop where
  blocks : request.block + request.count ≤ dev.blockCount
  buffer : request.buf ≠ 0

theorem Chunk.Inside.within (inside : request.Inside dev) :
    ¬ dev.blockCount < (request.xfer.startBlock + request.xfer.blockCount) % 2 ^ 32 := by
  have range := inside.blocks
  have bound := dev.blockCountLt
  show ¬ dev.blockCount < (request.block + request.count) % 2 ^ 32
  omega

def Chunk.after (request : Chunk) (size : Nat) (done : List Chunk) : Chunk :=
  ⟨request.block + blocks done, request.count - blocks done, request.buf + blocks done * size⟩

structure Moving (dev : Device) (request : Chunk) (before s : Context σ) (done : List Chunk) : Prop where
  dma : s.dmaInProgress = true
  bulk : s.bulkCount = min request.count ufsRwBlockMax
  issued : s.issued = before.issued ++ (done ++
    [⟨request.block + blocks done, min (request.count - blocks done) ufsRwBlockMax,
      request.buf + blocks done * dev.blockSize⟩])
  completed : s.completed = before.completed ++ done
  consecutive : Consecutive dev.blockSize request done
  left : blocks done < request.count
  whole : ufsRwBlockMax ∣ blocks done

theorem Moving.tick {done : List Chunk} (moving : Moving dev request before s done) (hw : σ) :
    Moving dev request before { s with hw := hw } done :=
  ⟨moving.dma, moving.bulk, moving.issued, moving.completed, moving.consecutive, moving.left,
    moving.whole⟩

theorem startXfer_ok (free : hw.FaultFree dev) {c : Chunk} (size : c.count ≤ ufsRwBlockMax)
    (range : c.block + c.count ≤ dev.blockCount) (s : Context σ) :
    startXfer hw c s =
      some (.ok (), { s with hw := (hw.ufsXfer c s.hw).2, issued := s.issued ++ [c] }) := by
  have ran : hw.ufsXfer c s.hw = (.ok (), _) := Prod.ext (free.xfer c s.hw size range) rfl
  rw [startXfer, ran]

theorem checkComplete_ok (free : hw.FaultFree dev) (count buf : Nat) (s : Context σ) :
    checkComplete hw count buf s = some (.ok (), { s with
      hw := (hw.rwCheckComplete count buf s.hw).2,
      completed := s.completed ++ s.issued.getLast?.toList }) := by
  have ran : hw.rwCheckComplete count buf s.hw = (.ok (), _) :=
    Prod.ext (free.complete count buf s.hw) rfl
  rw [checkComplete, ran]

theorem timestamp_bind {α : Type} (f : Nat → Prog ErrorValue (Context σ) α) (s : Context σ) :
    (timestamp hw >>= f) s =
      f (hw.timestampUs s.hw).1 { s with hw := (hw.timestampUs s.hw).2 } := rfl

theorem chunk_bytes (dev : Device) {count : Nat} (size : count ≤ ufsRwBlockMax) :
    count * 2 ^ dev.blockSizeLog2 % 2 ^ 32 = count * dev.blockSize := by
  refine Nat.mod_eq_of_lt ?_
  have exponent : dev.blockSizeLog2 ≤ 15 := Nat.add_le_add_left (Nat.le_of_lt_succ dev.pageSize.2) 12
  calc count * 2 ^ dev.blockSizeLog2 ≤ ufsRwBlockMax * 2 ^ 15 :=
        Nat.mul_le_mul size (Nat.pow_le_pow_right (by decide) exponent)
    _ < 2 ^ 32 := by decide

variable {done : List Chunk}

def Chunk.next (request : Chunk) (size : Nat) (done : List Chunk) : Chunk :=
  ⟨request.block + blocks done, min (request.count - blocks done) ufsRwBlockMax,
    request.buf + blocks done * size⟩

theorem Moving.completes_next (moving : Moving dev request before s done) :
    s.completed ++ s.issued.getLast?.toList =
      before.completed ++ (done ++ [request.next dev.blockSize done]) := by
  rw [moving.issued, moving.completed, ← List.append_assoc, List.getLast?_concat, List.append_assoc]
  rfl

theorem Moving.none_done (moving : Moving dev request before s done)
    (single : request.count ≤ ufsRwBlockMax) : blocks done = 0 :=
  Nat.eq_zero_of_dvd_of_lt moving.whole (moving.left.trans_le single)

theorem Moving.bulk_eq (moving : Moving dev request before s done)
    (enough : s.bulkCount ≤ request.count - blocks done) :
    s.bulkCount = (request.next dev.blockSize done).count := by
  have recorded := moving.bulk
  have left := moving.left
  show s.bulkCount = min (request.count - blocks done) ufsRwBlockMax
  by_cases single : request.count ≤ ufsRwBlockMax
  · have := moving.none_done single
    omega
  · omega

theorem behind_next (inside : request.Inside dev) (left : blocks done < request.count) :
    (request.after dev.blockSize done).behind dev (request.next dev.blockSize done).count =
      request.after dev.blockSize (done ++ [request.next dev.blockSize done]) := by
  have range := inside.blocks
  have bound := dev.blockCountLt
  have size : (request.next dev.blockSize done).count ≤ ufsRwBlockMax := Nat.min_le_right _ _
  have most : (request.next dev.blockSize done).count ≤ request.count - blocks done :=
    Nat.min_le_left _ _
  unfold Chunk.behind Chunk.after
  rw [chunk_bytes dev size, blocks_snoc, Nat.add_mul]
  generalize (request.next dev.blockSize done).count = count at *
  refine Chunk.mk.injEq .. |>.mpr ⟨?_, ?_, ?_⟩
  · show (request.block + blocks done + count) % 2 ^ 32 = request.block + (blocks done + count)
    omega
  · show (request.count - blocks done + (2 ^ 32 - count)) % 2 ^ 32 =
      request.count - (blocks done + count)
    omega
  · exact Nat.add_assoc _ _ _

inductive Reached (dev : Device) (request : Chunk) (before s : Context σ) (done : List Chunk) : Prop
  | complete (consecutive : Consecutive dev.blockSize request done)
      (all : blocks done = request.count) (issued : s.issued = before.issued ++ done)
      (completed : s.completed = before.completed ++ done)
  | moving (moving : Moving dev request before s done)

theorem waitRound_moves (free : hw.FaultFree dev) (inside : request.Inside dev)
    (moving : Moving dev request before s done)
    (enough : s.bulkCount ≤ request.count - blocks done) :
    ∃ s', waitRound hw dev (request.after dev.blockSize done) s =
        some (.ok (request.after dev.blockSize (done ++ [request.next dev.blockSize done]),
          decide (blocks (done ++ [request.next dev.blockSize done]) < request.count)), s') ∧
      Reached dev request before s' (done ++ [request.next dev.blockSize done]) := by
  set later := done ++ [request.next dev.blockSize done]
  have range := inside.blocks
  have left := moving.left
  have recorded := moving.bulk_eq enough
  have consecutive : Consecutive dev.blockSize request later :=
    moving.consecutive.snoc _
  have collected : collect hw dev (request.after dev.blockSize done) s = some (.ok
      (request.after dev.blockSize later), { s with
        hw := (hw.rwCheckComplete s.bulkCount (request.after dev.blockSize done).buf s.hw).2,
        completed := before.completed ++ later }) := by
    rw [collect, read_bind, if_pos moving.dma, bind_ok (checkComplete_ok free _ _ s),
      moving.completes_next, recorded, behind_next inside left]
    rfl
  have total : blocks later =
      blocks done + min (request.count - blocks done) ufsRwBlockMax := blocks_snoc _ _
  rw [waitRound, bind_ok collected]
  have positive : 0 < ufsRwBlockMax := by decide
  by_cases last : blocks later < request.count
  · have bulk : min (request.count - blocks done) ufsRwBlockMax = ufsRwBlockMax := by omega
    have more : ¬ min (request.after dev.blockSize
        later).count ufsRwBlockMax = 0 := by
      show ¬ min (request.count - blocks later) _ = 0
      omega
    rw [if_neg more, bind_ok (startXfer_ok free (Nat.min_le_right _ _) (by
      show request.block + blocks later +
        min (request.count - blocks later) _ ≤ _
      omega) _), decide_eq_true last]
    refine ⟨_, rfl, .moving ?_⟩
    refine ⟨moving.dma, moving.bulk, ?_, rfl, consecutive, last, ?_⟩
    · show s.issued ++ _ = _
      rw [moving.issued, List.append_assoc]
      rfl
    · rw [total, bulk]
      exact Nat.dvd_add moving.whole (Nat.dvd_refl _)
  · have all : blocks later = request.count := by omega
    have none_ : min (request.after dev.blockSize
        later).count ufsRwBlockMax = 0 := by
      show min (request.count - blocks later) _ = 0
      omega
    rw [if_pos none_, decide_eq_false last]
    exact ⟨_, rfl, .complete consecutive all moving.issued rfl⟩

end Rounds

/-! ### Waits for reads of whole chunks -/

section Whole

variable {σ : Type} {hw : Hardware σ} {dev : Device} {request : Chunk} {before s : Context σ}
  {done : List Chunk}

def WholeChunks (count : Nat) : Prop := count ≤ ufsRwBlockMax ∨ ufsRwBlockMax ∣ count

instance (count : Nat) : Decidable (WholeChunks count) := inferInstanceAs (Decidable (_ ∨ _))

theorem Moving.enough (moving : Moving dev request before s done)
    (whole : WholeChunks request.count) : s.bulkCount ≤ request.count - blocks done := by
  have recorded := moving.bulk
  have left := moving.left
  obtain ⟨rounds, multiple⟩ := moving.whole
  have positive : 0 < ufsRwBlockMax := by decide
  rcases whole with single | ⟨total, product⟩
  · have := moving.none_done single
    omega
  · have fewer : rounds < total := by
      rw [multiple, product] at left
      exact Nat.lt_of_mul_lt_mul_left left
    have : ufsRwBlockMax * (rounds + 1) ≤ ufsRwBlockMax * total := Nat.mul_le_mul_left _ fewer
    rw [Nat.mul_add] at this
    omega

def Waited (dev : Device) (request : Chunk) (before : Context σ) (least : Nat)
    (rest : Chunk) (s : Context σ) : Prop :=
  ∃ done, rest = request.after dev.blockSize done ∧ least ≤ blocks done ∧
    Reached dev request before s done

theorem waitLoop_run (free : hw.FaultFree dev) (inside : request.Inside dev)
    (whole : WholeChunks request.count) (timeout start rounds : Nat) :
    ∀ (s : Context σ) done elapsed, Moving dev request before s done →
      (waitLoop hw dev timeout start rounds elapsed (request.after dev.blockSize done) s = none ∧
          rounds ≤ request.count - blocks done) ∨
        ∃ rest s', waitLoop hw dev timeout start rounds elapsed
            (request.after dev.blockSize done) s = some (.ok rest, s') ∧
          Waited dev request before (if elapsed ≤ timeout then blocks done + 1 else blocks done)
            rest s' := by
  induction rounds with
  | zero => exact fun s done elapsed moving => .inl ⟨rfl, Nat.zero_le _⟩
  | succ rounds ih =>
    intro s done elapsed moving
    have left := moving.left
    have some_ : (request.after dev.blockSize done).count ≠ 0 := Nat.sub_ne_zero_of_lt left
    rw [waitLoop]
    by_cases late : timeout < elapsed
    · rw [if_pos (.inr late), if_neg (Nat.not_le.mpr late)]
      exact .inr ⟨_, s, rfl, done, rfl, le_rfl, .moving moving⟩
    · rw [if_neg (not_or.mpr ⟨some_, late⟩), if_pos (Nat.le_of_not_lt late)]
      obtain ⟨s', ran, reached⟩ := waitRound_moves free inside moving (moving.enough whole)
      rw [bind_ok ran]
      have further : blocks done + 1 ≤ blocks (done ++ [request.next dev.blockSize done]) := by
        have positive : 0 < ufsRwBlockMax := by decide
        rw [blocks_snoc]
        show _ ≤ blocks done + min (request.count - blocks done) ufsRwBlockMax
        omega
      cases reached with
      | complete consecutive all issued completed =>
        rw [decide_eq_false (Nat.not_lt.mpr (Nat.le_of_eq all.symm))]
        exact .inr ⟨_, s', rfl, _, rfl, further, .complete consecutive all issued completed⟩
      | moving moving' =>
        rw [decide_eq_true moving'.left]
        rcases ih _ _ _ (moving'.tick (hw.timestampUs s'.hw).2) with ⟨none_, few⟩ | ⟨rest, s'', run, waited⟩
        · exact .inl ⟨none_, by omega⟩
        · obtain ⟨done', same, least, reached'⟩ := waited
          refine .inr ⟨rest, s'', run, done', same, Nat.le_trans further (Nat.le_trans ?_ least),
            reached'⟩
          split <;> omega

theorem not_badXfer {c : Chunk} (buffer : c.buf ≠ 0) : badXfer c.xfer = false := by
  simp [badXfer, Chunk.xfer, buffer]

theorem Chunk.Inside.after_buf (inside : request.Inside dev) (done : List Chunk) :
    (request.after dev.blockSize done).buf ≠ 0 := by
  have buffer := inside.buffer
  show request.buf + _ ≠ 0
  omega

theorem Moving.exact_ (moving : Moving dev request before s done) :
    Exact dev request before s false := by
  have left := moving.left
  refine ⟨_, moving.issued, moving.consecutive.snoc _, (moving.consecutive.snoc _).disjoint, ?_, nofun⟩
  rw [blocks_snoc]
  show blocks done + min (request.count - blocks done) ufsRwBlockMax ≤ _
  omega

section

variable (free : hw.FaultFree dev) (inside : request.Inside dev)
include free inside

theorem wait_run
    (whole : WholeChunks request.count) (rounds timeout : Nat)
    (moving : Moving dev request before s done) :
    (tegrablUfsBlockdevXferWait hw dev rounds timeout (request.after dev.blockSize done).xfer s =
          none ∧ rounds ≤ request.count - blocks done) ∨
      ∃ xfer s' done', tegrablUfsBlockdevXferWait hw dev rounds timeout
            (request.after dev.blockSize done).xfer s =
          some (.ok (decide (blocks done' = request.count), xfer), s') ∧
        Reached dev request before s' done' ∧ blocks done < blocks done' ∧
        (blocks done' < request.count → xfer = (request.after dev.blockSize done').xfer) := by
  rw [tegrablUfsBlockdevXferWait, not_badXfer (inside.after_buf done)]
  rw [if_neg nofun, timestamp_bind]
  rcases waitLoop_run free inside whole timeout (hw.timestampUs s.hw).1 rounds _ done 0
    (moving.tick (hw.timestampUs s.hw).2) with ⟨none_, few⟩ | ⟨rest, s', run, done', rfl, least, reached⟩
  · refine .inl ⟨?_, few⟩
    rw [bind_apply]
    show Option.bind (waitLoop hw dev timeout _ rounds 0 (request.after dev.blockSize done) _) _ = _
    rw [none_]
    rfl
  · rw [if_pos (Nat.zero_le _)] at least
    refine .inr ?_
    have loop : waitLoop hw dev timeout (hw.timestampUs s.hw).1 rounds 0
        ⟨(request.after dev.blockSize done).xfer.startBlock,
          (request.after dev.blockSize done).xfer.blockCount,
          (request.after dev.blockSize done).xfer.buf⟩ { s with hw := (hw.timestampUs s.hw).2 } =
        some (.ok (request.after dev.blockSize done'), s') := run
    rw [bind_ok loop]
    by_cases all : blocks done' = request.count
    · have none_ : ¬ 0 < (request.after dev.blockSize done').count := by
        show ¬ 0 < request.count - blocks done'
        omega
      rw [if_neg none_]
      refine ⟨(request.after dev.blockSize done).xfer, s', done', ?_, reached, least,
        fun more => absurd all (Nat.ne_of_lt more)⟩
      rw [decide_eq_true all]
      rfl
    · have left : blocks done' < request.count := by
        cases reached with
        | complete _ complete _ _ => exact absurd complete all
        | moving moving' => exact moving'.left
      have some_ : 0 < (request.after dev.blockSize done').count := Nat.sub_pos_of_lt left
      rw [if_pos some_]
      refine ⟨(request.after dev.blockSize done').xfer, s', done', ?_, reached, least, fun _ => rfl⟩
      rw [decide_eq_false all]
      rfl

theorem waits_run
    (whole : WholeChunks request.count) (rounds : Nat) (timeouts : List Nat) :
    ∀ (s : Context σ) done, Moving dev request before s done →
      (waits hw dev rounds timeouts (request.after dev.blockSize done).xfer s = none ∧
          rounds ≤ request.count) ∨
        ∃ complete s', waits hw dev rounds timeouts (request.after dev.blockSize done).xfer s =
            some (.ok complete, s') ∧ Exact dev request before s' complete ∧
          (complete = false → timeouts.length + blocks done < request.count) := by
  induction timeouts with
  | nil =>
    intro s done moving
    refine .inr ⟨false, s, rfl, moving.exact_, fun _ => ?_⟩
    rw [List.length_nil, Nat.zero_add]
    exact moving.left
  | cons timeout timeouts ih =>
    intro s done moving
    rcases wait_run free inside whole rounds timeout moving with
      ⟨none_, few⟩ | ⟨xfer, s', done', run, reached, further, same⟩
    · refine .inl ⟨?_, Nat.le_trans few (Nat.sub_le _ _)⟩
      rw [waits, bind_apply, none_]
      rfl
    · rw [waits, bind_ok run]
      cases reached with
      | complete consecutive all issued completed =>
        rw [decide_eq_true all]
        exact .inr ⟨true, s', rfl, ⟨done', issued, consecutive, consecutive.disjoint,
          Nat.le_of_eq all, fun _ => ⟨all, completed⟩⟩, nofun⟩
      | moving moving' =>
        rw [decide_eq_false (Nat.ne_of_lt moving'.left), same moving'.left]
        rcases ih s' done' moving' with ⟨none_, few⟩ | ⟨complete, s'', ran, exact_, short⟩
        · exact .inl ⟨none_, few⟩
        · refine .inr ⟨complete, s'', ran, exact_, fun unfinished => ?_⟩
          have := short unfinished
          rw [List.length_cons]
          omega

theorem xfer_moving
    (some_ : 0 < request.count) (before : Context σ) :
    ∃ s, tegrablUfsBlockdevXfer hw dev request.xfer before = some (.ok (), s) ∧
      Moving dev request before s [] := by
  have range := inside.blocks
  have nonzero : ¬ request.xfer.blockCount = 0 := Nat.ne_of_gt some_
  have started := startXfer_ok free (c := ⟨request.block, min request.count ufsRwBlockMax, request.buf⟩)
    (Nat.min_le_right _ _) (by show request.block + min request.count _ ≤ _; omega) before
  rw [tegrablUfsBlockdevXfer, not_badXfer inside.buffer, if_neg nofun,
    if_neg inside.within, if_neg nonzero]
  refine ⟨_, bind_ok started _, rfl, rfl, ?_, (List.append_nil _).symm, .nil, some_, Nat.dvd_zero _⟩
  simp

end

theorem asyncRead_zero (hw : Hardware σ) (inside : request.Inside dev) (zero : request.count = 0)
    (before : Context σ) (rounds : Nat) (timeouts : List Nat) :
    (asyncRead hw dev rounds timeouts request.xfer before = none ∧ rounds = 0) ∨
      ∃ complete s, asyncRead hw dev rounds timeouts request.xfer before = some (.ok complete, s) ∧
        s.issued = before.issued ∧ s.completed = before.completed ∧
        (complete = false → timeouts = []) := by
  have started : tegrablUfsBlockdevXfer hw dev request.xfer before = some (.ok (), before) := by
    rw [tegrablUfsBlockdevXfer, not_badXfer inside.buffer, if_neg nofun,
      if_neg inside.within, if_pos (show request.xfer.blockCount = 0 from zero)]
    rfl
  rw [asyncRead, bind_ok started]
  cases timeouts with
  | nil => exact .inr ⟨false, before, rfl, rfl, rfl, fun _ => rfl⟩
  | cons timeout timeouts =>
    cases rounds with
    | zero =>
      refine .inl ⟨?_, rfl⟩
      rw [waits, tegrablUfsBlockdevXferWait, not_badXfer inside.buffer]
      rfl
    | succ rounds =>
      refine .inr ⟨true, { before with hw := (hw.timestampUs before.hw).2 }, ?_, rfl, rfl, nofun⟩
      have waited : tegrablUfsBlockdevXferWait hw dev (rounds + 1) timeout request.xfer before =
          some (.ok (true, request.xfer), { before with hw := (hw.timestampUs before.hw).2 }) := by
        have loop : waitLoop hw dev timeout (hw.timestampUs before.hw).1 (rounds + 1) 0 request
            { before with hw := (hw.timestampUs before.hw).2 } =
            some (.ok request, { before with hw := (hw.timestampUs before.hw).2 }) := by
          rw [waitLoop, if_pos (.inl zero)]
          rfl
        rw [tegrablUfsBlockdevXferWait, not_badXfer inside.buffer, if_neg nofun, timestamp_bind]
        refine (bind_ok loop _).trans ?_
        rw [zero]
        rfl
      rw [waits, bind_ok waited]
      rfl

theorem asyncRead_run (free : hw.FaultFree dev) (inside : request.Inside dev)
    (whole : WholeChunks request.count) (before : Context σ) (rounds : Nat) (timeouts : List Nat) :
    (asyncRead hw dev rounds timeouts request.xfer before = none ∧ rounds ≤ request.count) ∨
      ∃ complete s, asyncRead hw dev rounds timeouts request.xfer before = some (.ok complete, s) ∧
        Exact dev request before s complete ∧
        (complete = false → timeouts.length ≤ request.count) := by
  rcases Nat.eq_zero_or_pos request.count with zero | some_
  · rcases asyncRead_zero hw inside zero before rounds timeouts with
      ⟨none_, few⟩ | ⟨complete, s, ran, issued, completed, short⟩
    · exact .inl ⟨none_, few ▸ Nat.zero_le _⟩
    · refine .inr ⟨complete, s, ran, ⟨[], ?_, .nil, .nil, Nat.zero_le _, fun _ => ⟨zero.symm, ?_⟩⟩,
        fun unfinished => ?_⟩
      · rw [issued, List.append_nil]
      · rw [completed, List.append_nil]
      · rw [short unfinished]
        exact Nat.zero_le _
  · obtain ⟨s, started, moving⟩ := xfer_moving free inside some_ before
    rw [asyncRead, bind_ok started]
    have same : request.xfer = (request.after dev.blockSize []).xfer := by
      simp [Chunk.after, Chunk.xfer]
    rw [same]
    rcases waits_run free inside whole rounds timeouts s [] moving with
      none_ | ⟨complete, s', ran, exact_, short⟩
    · exact .inl none_
    · exact .inr ⟨complete, s', ran, exact_, fun unfinished => Nat.le_of_lt (short unfinished)⟩

end Whole

/-! ### Waits for other reads -/

def ticking : Hardware Nat where
  ufsXfer _ s := (.ok (), s)
  rwCheckComplete _ _ s := (.ok (), s)
  timestampUs s := (s, s + 1)

theorem ticking_faultFree (dev : Device) : ticking.FaultFree dev :=
  ⟨fun _ _ _ _ => rfl, fun _ _ _ => rfl⟩

section Beyond

variable {dev : Device} {request : Chunk} {before s : Context Nat} {done : List Chunk}

theorem wait_once {rest next : Chunk} {s' : Context Nat} (buffer : rest.buf ≠ 0)
    (some_ : rest.count ≠ 0) (left : 0 < next.count)
    (round : waitRound ticking dev rest { s with hw := s.hw + 1 } = some (.ok (next, true), s'))
    (clock : s'.hw = s.hw + 1) :
    tegrablUfsBlockdevXferWait ticking dev 2 0 rest.xfer s =
      some (.ok (false, next.xfer), { s' with hw := s'.hw + 1 }) := by
  have loop : waitLoop ticking dev 0 s.hw 2 0 rest { s with hw := s.hw + 1 } =
      some (.ok next, { s' with hw := s'.hw + 1 }) := by
    rw [waitLoop, if_neg (not_or.mpr ⟨some_, Nat.not_lt_zero 0⟩), bind_ok round]
    have later : (s'.hw + (2 ^ 64 - s.hw % 2 ^ 64)) % 2 ^ 64 = 1 := by
      rw [clock]
      omega
    show waitLoop ticking dev 0 s.hw 1 ((s'.hw + (2 ^ 64 - s.hw % 2 ^ 64)) % 2 ^ 64) next
      { s' with hw := s'.hw + 1 } = _
    rw [later, waitLoop, if_pos (.inr Nat.one_pos)]
    rfl
  rw [tegrablUfsBlockdevXferWait, not_badXfer buffer, if_neg nofun, timestamp_bind]
  refine (bind_ok loop _).trans ?_
  rw [if_pos left]
  rfl

theorem collect_beyond (moving : Moving dev request before s done) :
    collect ticking dev (request.after dev.blockSize done) s =
      some (.ok ((request.after dev.blockSize done).behind dev s.bulkCount),
        { s with completed := s.completed ++ s.issued.getLast?.toList }) := by
  rw [collect, read_bind, if_pos moving.dma]
  rfl

theorem waitRound_clock (now : Nat) (rest : Chunk) :
    Keeps (fun s => s.hw = now) (waitRound ticking dev rest) := by
  have kept : ∀ c, Keeps (fun s => s.hw = now) (startXfer ticking c) := by
    intro c s same x run
    cases run
    exact same
  have checked : ∀ count buf, Keeps (fun s => s.hw = now) (checkComplete ticking count buf) := by
    intro count buf s same x run
    cases run
    exact same
  have collected : Keeps (fun s => s.hw = now) (collect ticking dev rest) :=
    Triple.readAny fun s => Triple.ite
      (fun _ => (checked _ _).bind fun _ => Keeps.pure)
      fun _ => Keeps.pure
  refine collected.bind fun next => Triple.ite (fun _ => Keeps.pure) fun _ => ?_
  exact (kept _).bind fun _ => Keeps.pure

theorem waitRound_beyond (inside : request.Inside dev) (moving : Moving dev request before s done)
    (less : request.count - blocks done < s.bulkCount) :
    ∃ next s', waitRound ticking dev (request.after dev.blockSize done) s =
        some (.ok (next, true), s') ∧ 0 < next.count ∧ ¬ Exact dev request before s' false := by
  have range := inside.blocks
  have bound := dev.blockCountLt
  have left := moving.left
  have recorded := moving.bulk
  have size : ufsRwBlockMax = 1024 := rfl
  have wrapped : ((request.after dev.blockSize done).behind dev s.bulkCount).count =
      request.count - blocks done + (2 ^ 32 - s.bulkCount) := by
    show (request.count - blocks done + (2 ^ 32 - s.bulkCount)) % 2 ^ 32 = _
    omega
  have some_ : ¬ min ((request.after dev.blockSize done).behind dev s.bulkCount).count
      ufsRwBlockMax = 0 := by
    rw [wrapped]
    omega
  rw [waitRound, bind_ok (collect_beyond moving), if_neg some_]
  refine ⟨_, _, rfl, by rw [wrapped]; omega, ?_⟩
  rintro ⟨chunks, issued, -, -, short, -⟩
  generalize behind : (request.after dev.blockSize done).behind dev s.bulkCount = rest at *
  have same : chunks = done ++ [request.next dev.blockSize done] ++
      [⟨rest.block, min rest.count ufsRwBlockMax, rest.buf⟩] := by
    refine List.append_cancel_left (issued.symm.trans ?_)
    show s.issued ++ _ = _
    rw [moving.issued, List.append_assoc]
    rfl
  rw [same, blocks_snoc, blocks_snoc, wrapped] at short
  dsimp only at short
  have last : (request.next dev.blockSize done).count =
      min (request.count - blocks done) ufsRwBlockMax := rfl
  omega

theorem waits_beyond (inside : request.Inside dev) (more : ufsRwBlockMax < request.count)
    (full last : Nat) (some_ : 0 < last) (short : last < ufsRwBlockMax) :
    ∀ (s : Context Nat) done, Moving dev request before s done →
      request.count - blocks done = ufsRwBlockMax * full + last →
      ∃ s', waits ticking dev 2 (List.replicate (full + 1) 0) (request.after dev.blockSize done).xfer
          s = some (.ok false, s') ∧ ¬ Exact dev request before s' false := by
  induction full with
  | zero =>
    intro s done moving rest
    have recorded := moving.bulk
    obtain ⟨next, s', round, left, wrong⟩ :=
      waitRound_beyond inside (moving.tick (s.hw + 1)) (by show _ < s.bulkCount; omega)
    have clock : s'.hw = s.hw + 1 := waitRound_clock (s.hw + 1) _ _ rfl _ round
    have waited := wait_once (inside.after_buf done) (Nat.sub_ne_zero_of_lt moving.left) left round
      clock
    refine ⟨_, (bind_ok waited _).trans rfl, ?_⟩
    rintro ⟨chunks, issued, rest⟩
    exact wrong ⟨chunks, issued, rest⟩
  | succ full ih =>
    intro s done moving rest
    have recorded := moving.bulk
    have size : ufsRwBlockMax = 1024 := rfl
    have bulk : (request.next dev.blockSize done).count = ufsRwBlockMax := by
      show min (request.count - blocks done) ufsRwBlockMax = _
      rw [rest, Nat.mul_add]
      omega
    obtain ⟨s', round, reached⟩ := waitRound_moves (ticking_faultFree dev) inside
      (moving.tick (s.hw + 1)) (by show s.bulkCount ≤ _; rw [rest, Nat.mul_add]; omega)
    have remaining : request.count - blocks (done ++ [request.next dev.blockSize done]) =
        ufsRwBlockMax * full + last := by
      rw [blocks_snoc, bulk]
      rw [Nat.mul_add] at rest
      omega
    have left : blocks (done ++ [request.next dev.blockSize done]) < request.count := by omega
    have clock : s'.hw = s.hw + 1 := waitRound_clock (s.hw + 1) _ _ rfl _ round
    rw [decide_eq_true left] at round
    cases reached with
    | complete _ all _ _ => exact absurd all (Nat.ne_of_lt left)
    | moving moving' =>
      have waited := wait_once (inside.after_buf done) (Nat.sub_ne_zero_of_lt moving.left)
        (Nat.sub_pos_of_lt left) round clock
      obtain ⟨s'', ran, wrong⟩ := ih _ _ (moving'.tick (s'.hw + 1)) remaining
      exact ⟨s'', (bind_ok waited _).trans ran, wrong⟩

end Beyond

/-! ### Reads -/

/-- **Asynchronous reads are exact for one chunk and for whole chunks**, and for no others. -/
theorem read_exact_iff (dev : Device) (request : Chunk) (inside : request.Inside dev) :
    ReadsExactly dev request ↔ WholeChunks request.count := by
  constructor
  · intro reads
    by_contra broken
    obtain ⟨more, notWhole⟩ := not_or.mp broken
    have size : ufsRwBlockMax = 1024 := rfl
    let before : Context Nat := ⟨false, 0, 0, [], []⟩
    obtain ⟨s, started, moving⟩ :=
      xfer_moving (ticking_faultFree dev) inside (by omega) before
    have split := Nat.div_add_mod request.count ufsRwBlockMax
    have some_ : request.count % ufsRwBlockMax ≠ 0 := fun zero => notWhole (Nat.dvd_of_mod_eq_zero zero)
    obtain ⟨after, ran, wrong⟩ := waits_beyond inside (by omega) (request.count / ufsRwBlockMax)
      (request.count % ufsRwBlockMax) (Nat.pos_of_ne_zero some_) (Nat.mod_lt _ (by decide)) s []
      moving split.symm
    have whole : asyncRead ticking dev 2 (List.replicate (request.count / ufsRwBlockMax + 1) 0)
        request.xfer before = some (.ok false, after) := by
      rw [asyncRead, bind_ok started]
      simpa [Chunk.after, Chunk.xfer] using ran
    obtain ⟨complete, ended, exact_⟩ :=
      reads.exact_ Nat ticking (ticking_faultFree dev) before 2 _ _ whole
    cases ended
    exact wrong exact_
  · intro whole
    refine ⟨fun σ hw free before rounds timeouts outcome ran => ?_,
      fun σ hw free before rounds timeouts enough long => ?_⟩
    · rcases asyncRead_run free inside whole before rounds timeouts with
        ⟨none_, -⟩ | ⟨complete, s, done, exact_, -⟩
      · cases none_.symm.trans ran
      · cases done.symm.trans ran
        exact ⟨complete, rfl, exact_⟩
    · rcases asyncRead_run free inside whole before rounds timeouts with
        ⟨-, few⟩ | ⟨complete, s, done, -, short⟩
      · omega
      · cases complete with
        | true => exact ⟨s, done⟩
        | false =>
          have := short rfl
          omega

def smallDevice : Device := ⟨8192, by decide, 0⟩

theorem read_exact_two_chunks :
    (⟨16, 2048, 4096⟩ : Chunk).Inside smallDevice ∧ ReadsExactly smallDevice ⟨16, 2048, 4096⟩ :=
  have inside : (⟨16, 2048, 4096⟩ : Chunk).Inside smallDevice := ⟨by decide, by decide⟩
  ⟨inside, (read_exact_iff smallDevice ⟨16, 2048, 4096⟩ inside).mpr (.inr (by decide))⟩

/-- A read of 1025 blocks: behind its two chunks, a third one is started that lies outside. -/
theorem read_past_end :
    (asyncRead ticking smallDevice 2 [0, 0] (⟨16, 1025, 4096⟩ : Chunk).xfer
        ⟨false, 0, 0, [], []⟩).map (fun outcome => (outcome.1, outcome.2.issued)) =
      some (.ok false, [⟨16, 1024, 4096⟩, ⟨1040, 1, 4198400⟩, ⟨2064, 1024, 8392704⟩]) := by
  decide +kernel

end Cboot.Ufs
