/-
**Whether a call ends, and how much it hands out.**

The buffers of an image are given to one call after the other. In a chunk with a check value the loop
goes round without an end, and nothing compares the sizes of the chunks with the size that was
allowed for the image.

* `Run.books`, `produced_iff`: what is handed out, and when it keeps to the limit.
-/

import Cboot.Sparse.Unsparse

namespace Cboot.Sparse

open Chunks Relation

def Work.GoesOn (work : Work) : Prop := work.length ≠ 0 ∨ work.state = .dontCare

def UnsparseState.start (state : UnsparseState) (length : Nat) : Work :=
  { state with sparseBuffer := 0, length }

/-! ### Rounds that end the loop -/

section Ends

variable {τ : Type} {out : Output τ} {buff : ByteMem} {work next : Work} {t u : τ}

def Part.InChunk : Part → Prop
  | .imageHeader | .chunkHeader => False
  | _ => True

theorem validateChunkHeader_ok {image chunk : ByteMem} {part : Part}
    (ok : tegrablSparseValidateChunkHeader image chunk = .ok part) :
    part.InChunk ∧ chunkType chunk ≠ 0 := by
  unfold tegrablSparseValidateChunkHeader at ok
  have typed : ∀ {n : BitVec 16}, n ≠ 0 → chunkType chunk = n → chunkType chunk ≠ 0 :=
    fun other same zero => other (same.symm.trans zero)
  dsimp only at ok
  split_ifs at ok with raw _ skip _ fill _ crc <;> cases ok
  · exact ⟨trivial, typed (by decide) raw⟩
  · exact ⟨trivial, typed (by decide) skip⟩
  · exact ⟨trivial, typed (by decide) fill⟩
  · exact ⟨trivial, typed (by decide) crc⟩

inductive Took (out : Output τ) (work : Work) (t : τ) (next : Work) : τ → Prop
  | headerPart (header : ¬work.state.InChunk) (same : next.state = work.state)
      (short : work.length < work.remaining) (none_ : next.length = 0)
      (left : next.remaining = work.remaining - work.length) : Took out work t next t
  | imageHeader (was : work.state = .imageHeader) (is : next.state = .chunkHeader)
      (whole : work.remaining ≤ work.length) (used : next.length = work.length - work.remaining)
      (clear : next.chunkHeader = fun _ => 0) : Took out work t next t
  | chunkHeader (was : work.state = .chunkHeader) (is : next.state.InChunk)
      (whole : work.remaining ≤ work.length) (used : next.length = work.length - work.remaining)
      (start : next.offset = 0) (typed : work.remaining = 0 → chunkType work.chunkHeader ≠ 0) :
      Took out work t next t
  | rawPart {u : τ} (was : work.state = .raw) (is : next.state = .raw)
      (short : work.length < work.remaining) (none_ : next.length = 0)
      (left : next.remaining = work.remaining - work.length)
      (written : out.writer (.buffer work.sparseBuffer) work.length t = (.ok (), u)) :
      Took out work t next u
  | raw {u : τ} (was : work.state = .raw) (is : next.state = .chunkHeader)
      (whole : work.remaining ≤ work.length) (used : next.length = work.length - work.remaining)
      (left : next.remaining = chunkHeaderSize)
      (written : out.writer (.buffer work.sparseBuffer) work.remaining t = (.ok (), u)) :
      Took out work t next u
  | fillPart (was : work.state = .fill) (is : next.state = .fill) (none_ : next.length = 0)
      (early : next.offset < 4) (left : next.remaining = work.remaining) : Took out work t next t
  | fill {u : τ} {value : BitVec 32} (was : work.state = .fill) (is : next.state = .chunkHeader)
      (used : next.length = work.length - if work.offset < 4 then min work.length 4 else 0)
      (left : next.remaining = chunkHeaderSize)
      (written : fillLoop out value (chunks sparseMaxLocalBuffer 0 work.remaining) t = (.ok (), u)) :
      Took out work t next u
  | dontCare {u : τ} (was : work.state = .dontCare) (is : next.state = .chunkHeader)
      (used : next.length = work.length) (left : next.remaining = chunkHeaderSize)
      (skipped : out.seeker work.remaining t = (.ok (), u)) : Took out work t next u
  | crc (was : work.state = .crc) (same : next = work) : Took out work t next t

theorem startChunk_next (ran : startChunk work = .next next) :
    next.length = work.length ∧ next.offset = 0 ∧ next.state.InChunk ∧
      chunkType work.chunkHeader ≠ 0 := by
  unfold startChunk at ran
  split at ran
  · cases ran
  · next ok =>
    split at ran <;> cases ran
    have typed := validateChunkHeader_ok ok
    exact ⟨rfl, rfl, typed.1, typed.2⟩

theorem afterOutput_next {result : Result Unit × τ} (ran : afterOutput result work = (.next next, u)) :
    result = (.ok (), u) ∧ next = work := by
  unfold afterOutput at ran
  split at ran <;> cases ran
  next ok => exact ⟨Prod.ext ok rfl, rfl⟩

theorem round_took (ran : round out buff work t = (.next next, u)) :
    Took out work t next u := by
  unfold round at ran
  cases part : work.state <;> simp only [part] at ran
  case imageHeader =>
    unfold imageHeaderRound at ran
    dsimp only at ran
    split at ran
    · cases ran
      exact .headerPart (by simp [part, Part.InChunk]) rfl (by omega) (by simp only [Work.take]; omega)
        (by dsimp only; omega)
    · split at ran <;> cases ran
      exact .imageHeader part rfl (by omega) (by simp only [Work.toChunkHeader, Work.take]; omega) rfl
  case chunkHeader =>
    unfold chunkHeaderRound at ran
    dsimp only at ran
    split at ran
    · cases ran
    split at ran
    · cases ran
      exact .headerPart (by simp [part, Part.InChunk]) rfl (by omega) (by simp only [Work.take]; omega)
        (by dsimp only; omega)
    · obtain ⟨ended, rfl⟩ := Prod.mk.inj ran
      obtain ⟨used, start, inChunk, typed⟩ := startChunk_next ended
      refine .chunkHeader part inChunk (by omega) (used.trans (by simp only [Work.take]; omega)) start
        fun zero same => typed ?_
      simp only [zero, Nat.min_zero, ByteMem.load, List.range_zero, List.map_nil]
      rw [← same]
      split
      · congr
        funext a
        exact ByteMem.store_outside _ _ _ _ (by simp; omega)
      · rfl
  case raw =>
    obtain ⟨written, rfl⟩ := afterOutput_next ran
    by_cases whole : work.remaining ≤ work.length
    · rw [Nat.min_eq_right whole] at written ⊢
      rw [if_pos (Nat.sub_self _)]
      exact .raw part rfl whole rfl rfl written
    · rw [Nat.min_eq_left (by omega)] at written ⊢
      rw [if_neg (show work.remaining - work.length ≠ 0 by omega)]
      exact .rawPart part part (by omega) (Nat.sub_self _) rfl written
  case fill =>
    unfold fillRound at ran
    dsimp only at ran
    by_cases before : work.offset < 4
    · rw [if_pos before] at ran
      by_cases early : (work.take (min work.length 4)).offset < 4
      · rw [if_pos early] at ran
        cases ran
        refine .fillPart part part ?_ early rfl
        simp only [Work.take] at early ⊢
        omega
      · rw [if_neg early] at ran
        obtain ⟨written, rfl⟩ := afterOutput_next ran
        exact .fill part rfl (by rw [if_pos before]; rfl) rfl written
    · rw [if_neg before, if_neg before] at ran
      obtain ⟨written, rfl⟩ := afterOutput_next ran
      exact .fill part rfl (by rw [if_neg before]; rfl) rfl written
  case dontCare =>
    obtain ⟨skipped, rfl⟩ := afterOutput_next ran
    exact .dontCare part rfl rfl rfl skipped
  case crc =>
    cases ran
    exact .crc part rfl

def rank (work : Work) : Nat :=
  4 * work.length + match work.state with
    | .imageHeader => 3
    | .chunkHeader => if work.remaining = 0 then 2 else 0
    | _ => 1

theorem rank_inChunk (inChunk : work.state.InChunk) : rank work = 4 * work.length + 1 := by
  unfold rank
  cases part : work.state <;> simp_all [Part.InChunk]

theorem rank_afresh (is : work.state = .chunkHeader) (left : work.remaining = chunkHeaderSize) :
    rank work = 4 * work.length := by
  simp [rank, is, left, chunkHeaderSize]

theorem rank_lt (goesOn : work.GoesOn) (other : work.state ≠ .crc)
    (ran : round out buff work t = (.next next, u)) : rank next < rank work := by
  have some_ : work.state ≠ .dontCare → 0 < work.length := by
    intro apart
    have := goesOn.resolve_right apart
    omega
  cases round_took ran with
  | headerPart header same short none_ left =>
    have := some_ fun skip => header (by simp [skip, Part.InChunk])
    simp only [rank, same, none_, left]
    split
    · omega
    · rw [if_neg (by omega), if_neg (by omega)]
      omega
    · omega
  | imageHeader was is whole used clear =>
    have := some_ (by simp [was])
    simp only [rank, was, is, used]
    split <;> omega
  | chunkHeader was is whole used start typed =>
    rw [rank_inChunk is]
    have := some_ (by simp [was])
    simp only [rank, was, used]
    split <;> omega
  | rawPart was is short none_ left _ | fillPart was is none_ early left =>
    have := some_ (by simp [was])
    simp only [rank, was, is]
    omega
  | raw was is whole used left _ | fill was is used left _ | dontCare was is used left _ =>
    rw [rank_afresh is left, rank_inChunk (by simp [was, Part.InChunk])]
    omega
  | crc was same => exact absurd was other

end Ends

/-! ### Calls that end -/

section Stops

variable {τ : Type} {out : Output τ} {buff : ByteMem}

def Goes (out : Output τ) (buff : ByteMem) (first second : Work × τ) : Prop :=
  first.1.GoesOn ∧ round out buff first.1 first.2 = (.next second.1, second.2)

def Work.InCheck (work : Work) : Prop := work.state = .crc ∧ work.length ≠ 0

def MeetsCheck (out : Output τ) (buff : ByteMem) (start : Work × τ) : Prop :=
  ∃ now, ReflTransGen (Goes out buff) start now ∧ now.1.InCheck

theorem Work.InCheck.stays {work : Work} (inCheck : work.InCheck) (t : τ) :
    Goes out buff (work, t) (work, t) := ⟨.inl inCheck.2, by rw [round, inCheck.1]⟩

theorem unsparseLoop_goes {work next : Work} {t u : τ} (goes : Goes out buff (work, t) (next, u))
    (rounds : Nat) :
    unsparseLoop out buff (rounds + 1) work t = unsparseLoop out buff rounds next u := by
  rw [unsparseLoop, if_pos (show _ ∨ _ from goes.1), goes.2]

theorem unsparseLoop_unseen {work : Work} {t : τ} (meets : MeetsCheck out buff (work, t))
    (rounds : Nat) : (unsparseLoop out buff rounds work t).1 = .unseen := by
  obtain ⟨now, path, inCheck⟩ := meets
  induction rounds generalizing work t with
  | zero => rfl
  | succ rounds ih =>
    cases path using ReflTransGen.head_induction_on with
    | refl =>
      rw [unsparseLoop_goes (inCheck.stays t)]
      exact ih .refl
    | head goes path =>
      rw [unsparseLoop_goes goes]
      exact ih path

theorem unsparseLoop_seen {work : Work} {t : τ} {rounds : Nat}
    (apart : ¬MeetsCheck out buff (work, t)) (enough : rank work < rounds) :
    (unsparseLoop out buff rounds work t).1 ≠ .unseen := by
  induction rounds generalizing work t with
  | zero => omega
  | succ rounds ih =>
    by_cases goesOn : work.GoesOn
    · rcases ran : round out buff work t with ⟨next | error | -, u⟩
      · have goes : Goes out buff (work, t) (next, u) := ⟨goesOn, ran⟩
        have other : work.state ≠ .crc := fun inCheck => apart ⟨(work, t), .refl, inCheck,
          goesOn.resolve_right fun skip => by cases inCheck.symm.trans skip⟩
        have less := rank_lt goesOn other ran
        rw [unsparseLoop_goes goes]
        exact ih (fun ⟨now, path, bad⟩ => apart ⟨now, .head goes path, bad⟩) (by omega)
      · simp [unsparseLoop, show _ ∨ _ from goesOn, ran]
      · simp [unsparseLoop, show _ ∨ _ from goesOn, ran]
    · rw [unsparseLoop, if_neg (show ¬(_ ∨ _) from goesOn)]
      simp

end Stops

/-! ### Any calls -/

section Runs

variable {τ : Type} {out : ByteMem → Output τ} {first : UnsparseState} {start : τ} {buff : ByteMem}
  {work next : Work} {t u : τ} {promised : Nat}

def UnsparseState.pending (state : UnsparseState) : Nat :=
  match state.state with
  | .imageHeader | .chunkHeader => 0
  | _ => state.remaining

def promise (work next : Work) : Nat := if work.state = .chunkHeader then next.pending else 0

/-- The variables of the loop in any call, with the sum of the sizes in the chunk headers so far:
calls follow each other with the same state as long as they succeed. -/
inductive Run (out : ByteMem → Output τ) (first : UnsparseState) (start : τ) :
    ByteMem → Work → τ → Nat → Prop
  | first {buff : ByteMem} {length : Nat} (some_ : length ≠ 0) :
      Run out first start buff (first.start length) start 0
  | round {buff : ByteMem} {work next : Work} {t u : τ} {promised : Nat}
      (run : Run out first start buff work t promised)
      (goes : Goes (out buff) buff (work, t) (next, u)) :
      Run out first start buff next u (promised + promise work next)
  | call {buff buff' : ByteMem} {work : Work} {t : τ} {promised length : Nat}
      (run : Run out first start buff work t promised) (ended : ¬work.GoesOn) (some_ : length ≠ 0) :
      Run out first start buff' (work.toUnsparseState.start length) t promised

theorem Run.done {rounds : Nat} {state : UnsparseState}
    (run : Run out first start buff work t promised)
    (ran : unsparseLoop (out buff) buff rounds work t = (.done state, u)) :
    ∃ last promised, Run out first start buff last u promised ∧ ¬last.GoesOn ∧
      last.toUnsparseState = state := by
  induction rounds generalizing work t promised with
  | zero => cases ran
  | succ rounds ih =>
    rw [unsparseLoop] at ran
    split at ran
    · next goesOn =>
      split at ran
      · next ran' => exact ih (run.round ⟨goesOn, ran'⟩) ran
      · cases ran
      · cases ran
    · next ended =>
      cases ran
      exact ⟨work, promised, run, ended, rfl⟩

structure UnsparseState.Sound (state : UnsparseState) : Prop where
  image : state.state = .imageHeader → 0 < state.remaining
  chunk : state.state = .chunkHeader → 0 < state.remaining ∨ state.chunkHeader = fun _ => 0
  fill : state.state = .fill → state.offset < 4

theorem round_sound {out : Output τ} (ran : round out buff work t = (.next next, u))
    (sound : work.Sound) : next.Sound := by
  cases round_took ran with
  | headerPart header same short none_ left =>
    exact ⟨fun _ => by omega, fun _ => .inl (by omega),
      fun is => absurd (same.symm.trans is) fun was => header (by simp [was, Part.InChunk])⟩
  | imageHeader was is whole used clear => exact ⟨by simp [is], fun _ => .inr clear, by simp [is]⟩
  | chunkHeader was is whole used start typed =>
    exact ⟨fun header => absurd is (by simp [header, Part.InChunk]),
      fun header => absurd is (by simp [header, Part.InChunk]), fun _ => by omega⟩
  | rawPart was is short none_ left _ => exact ⟨by simp [is], by simp [is], by simp [is]⟩
  | fillPart was is none_ early left => exact ⟨by simp [is], by simp [is], fun _ => early⟩
  | raw was is _ _ left _ | fill was is _ left _ | dontCare was is _ left _ =>
    exact ⟨by simp [is], fun _ => .inl (by rw [left]; decide), by simp [is]⟩
  | crc was same => exact same ▸ sound

theorem init_sound {limit : Nat} (fresh : tegrablSparseInitUnsparseState limit = .ok first) :
    first.Sound ∧ first.pending = 0 := by
  unfold tegrablSparseInitUnsparseState at fresh
  split at fresh <;> cases fresh
  exact ⟨⟨fun _ => show 0 < imageHeaderSize by decide, nofun, nofun⟩, rfl⟩

theorem Run.sound (run : Run out first start buff work t promised) (sound : first.Sound) :
    work.Sound := by
  induction run with
  | first => exact ⟨sound.image, sound.chunk, sound.fill⟩
  | round _ goes ih => exact round_sound goes.2 ih
  | call _ _ _ ih => exact ⟨ih.image, ih.chunk, ih.fill⟩

def Idle (out : Output τ) (work : Work) (t : τ) : Prop :=
  work.InCheck ∨ work.state = .raw ∧ work.remaining = 0 ∧ work.length ≠ 0 ∧
    (out.writer (.buffer work.sparseBuffer) 0 t).1 = .ok ()

def Progresses (out : Output τ) (buff : ByteMem) (work : Work) (t : τ) : Prop :=
  ∀ next u, Goes out buff (work, t) (next, u) → next.length < work.length ∨ work.state = .dontCare

theorem progresses_iff {out : Output τ} (sound : work.Sound) :
    Progresses out buff work t ↔ ¬Idle out work t := by
  constructor
  · rintro progresses (inCheck | ⟨isRaw, zero, some_, written⟩)
    · have := progresses work t (inCheck.stays t)
      simp [inCheck.1] at this
    · have := progresses ((work.take 0).toChunkHeader chunkHeaderSize) _ ⟨.inl some_, by
        simp only [round, isRaw, rawRound, zero, afterOutput, Nat.min_zero, written]
        rfl⟩
      simp [isRaw, Work.take, Work.toChunkHeader] at this
  · intro busy next u goes
    by_contra idle
    obtain ⟨kept, other⟩ := not_or.mp idle
    have some_ : work.length ≠ 0 := goes.1.resolve_right other
    refine busy ?_
    have took : Took out work t next u := round_took goes.2
    cases took with
    | headerPart _ _ _ none_ _ | rawPart _ _ _ none_ _ _ | fillPart _ _ none_ _ _ => omega
    | imageHeader was _ whole used _ =>
      have := sound.image was
      omega
    | chunkHeader was _ whole used _ typed =>
      rcases sound.chunk was with positive | clear
      · omega
      · exact absurd (by rw [clear]; rfl) (typed (by omega))
    | raw was _ whole used _ written =>
      have zero : work.remaining = 0 := by omega
      rw [zero] at written
      exact .inr ⟨was, zero, some_, by rw [written]⟩
    | fill was _ used _ _ =>
      rw [if_pos (sound.fill was)] at used
      omega
    | dontCare was => exact absurd was other
    | crc was _ => exact .inl ⟨was, some_⟩

def oneChunk (chunkType : Byte) (blocks size : Byte) : ByteMem := ByteMem.store (fun _ => 0) 0
  [0x3A, 0xFF, 0x26, 0xED, 1, 0, 0, 0, 28, 0, 12, 0, 0, 0x10, 0, 0, 0, 0, 0, 0, 1, 0, 0, 0, 0, 0, 0, 0,
    chunkType, 0xCA, 0, 0, blocks, 0, 0, 0, size, 0, 0, 0, 0, 0, 0, 0]

def quiet : Output Unit := ⟨fun _ _ _ => (.ok (), ()), fun _ _ => (.ok (), ())⟩

end Runs

/-! ### What is handed out -/

section Books

variable {τ : Type} {out : Output τ} {buff : ByteMem} {work next : Work} {t u : τ} {n m : Nat}
  (result : Result Unit × τ)

def counted (total size : Nat) : Result Unit × τ × Nat :=
  match result with
  | (.ok (), t) => (.ok (), t, total + size)
  | (.error error, t) => (.error error, t, total)

def Output.counted (out : Output τ) : Output (τ × Nat) where
  writer source size t := Sparse.counted (out.writer source size t.1) t.2 size
  seeker size t := Sparse.counted (out.seeker size t.1) t.2 size

theorem counted_le (n size : Nat) :
    (counted result n size).2.2 ≤ n + size ∧
      ((counted result n size).1 = .ok () → (counted result n size).2.2 = n + size) := by
  unfold counted
  split
  · exact ⟨le_rfl, fun _ => rfl⟩
  · exact ⟨Nat.le_add_right _ _, nofun⟩

theorem fillLoop_le (out : Output τ) (value : BitVec 32) (sizes : List (Nat × Nat)) (t : τ × Nat) :
    (fillLoop out.counted value sizes t).2.2 ≤ t.2 + (sizes.map Prod.snd).sum ∧
      ((fillLoop out.counted value sizes t).1 = .ok () →
        (fillLoop out.counted value sizes t).2.2 = t.2 + (sizes.map Prod.snd).sum) := by
  induction sizes generalizing t with
  | nil => exact ⟨le_rfl, fun _ => rfl⟩
  | cons first rest ih =>
    have step := counted_le (out.writer (.fill value) first.2 t.1) t.2 first.2
    rw [fillLoop, List.map_cons, List.sum_cons]
    split
    · next failed =>
      rw [show counted _ _ _ = _ from failed] at step
      exact ⟨by have := step.1; dsimp only at this ⊢; omega, by simp⟩
    · next after ok =>
      rw [show counted _ _ _ = _ from ok] at step
      have := ih after
      rw [step.2 rfl] at this
      exact ⟨by omega, fun done => by have := this.2 done; omega⟩

theorem chunks_total (start count : Nat) :
    ((chunks sparseMaxLocalBuffer start count).map Prod.snd).sum = count := by
  induction count using Nat.strong_induction_on generalizing start with
  | _ count ih =>
    rcases Nat.eq_zero_or_pos count with rfl | some_
    · simp
    · have positive : 0 < sparseMaxLocalBuffer := by decide
      rw [chunks_cons positive start some_, List.map_cons, List.sum_cons, ih _ (by omega)]
      dsimp only
      omega

theorem pending_of_header {state : UnsparseState} (header : ¬state.state.InChunk) :
    state.pending = 0 := by
  unfold UnsparseState.pending
  cases part : state.state <;> simp_all [Part.InChunk]

theorem round_books (ran : round out.counted buff work (t, n) = (.next next, u, m)) :
    m + next.pending = n + work.pending + promise work next := by
  have ok : ∀ {result : Result Unit × τ} {size : Nat},
      counted result n size = (.ok (), u, m) → m = n + size := by
    intro result size same
    have total := (counted_le result n size).2
    rw [same] at total
    exact total rfl
  cases round_took ran with
  | headerPart header same =>
    simp [promise, pending_of_header header, pending_of_header (same ▸ header)]
  | imageHeader was is => simp [promise, UnsparseState.pending, was, is]
  | chunkHeader was is => simp [promise, was, pending_of_header, Part.InChunk]
  | rawPart was is short none_ left written =>
    simp only [promise, UnsparseState.pending, was, is, ok written]
    simp
    omega
  | raw was is _ _ _ written | dontCare was is _ _ written =>
    simp [promise, UnsparseState.pending, was, is, ok written]
  | fillPart was is _ _ left => simp [promise, UnsparseState.pending, was, is, left]
  | @fill _ value was is _ _ written =>
    have total := (fillLoop_le out value
      (chunks sparseMaxLocalBuffer 0 work.remaining) (t, n)).2
    rw [written, chunks_total] at total
    simpa [promise, UnsparseState.pending, was, is] using total rfl
  | crc was same => simp [promise, was, same]

theorem afterOutput_snd : (afterOutput result work).2 = result.2 := by
  unfold afterOutput
  split <;> rfl

theorem round_le (out : Output τ) (buff : ByteMem) (work : Work) (t : τ) (n : Nat) :
    (round out.counted buff work (t, n)).2.2 ≤ n + work.pending := by
  unfold round UnsparseState.pending
  cases part : work.state <;> dsimp only
  case raw =>
    rw [rawRound, afterOutput_snd]
    exact (counted_le _ _ _).1.trans (Nat.add_le_add_left (Nat.min_le_right _ _) n)
  case fill =>
    have le := fun value => (fillLoop_le out value
      (chunks sparseMaxLocalBuffer 0 work.remaining) (t, n)).1
    simp only [chunks_total] at le
    simp only [fillRound]
    by_cases before : work.offset < 4
    · simp only [if_pos before]
      split
      · exact Nat.le_add_right n _
      · rw [afterOutput_snd]
        exact le _
    · simp only [if_neg before, afterOutput_snd]
      exact le _
  case dontCare =>
    rw [afterOutput_snd]
    exact (counted_le _ _ _).1
  all_goals omega

variable {out : ByteMem → Output τ} {first : UnsparseState} {start : τ} {promised : Nat}

theorem Run.books
    (run : Run (fun buff => (out buff).counted) first (start, 0) buff work (t, n) promised)
    (none_ : first.pending = 0) : n + work.pending = promised := by
  generalize now : (t, n) = pair at run
  induction run generalizing t n with
  | first =>
    cases now
    exact (Nat.zero_add _).trans none_
  | round _ goes ih =>
    subst now
    have step := @round_books _ (out _) _ _ _ _ _ _ _ goes.2
    have := ih rfl
    dsimp only at step
    omega
  | call _ _ _ ih => exact ih now

end Books

end Cboot.Sparse
