/-
**An image in pieces.**

An image may be given to one call, or cut into pieces that are given to one call after the other. A
round of the one call is a round of the call on a piece or, at the end of the piece, two rounds of the
two calls. Only a word to be repeated that is cut is an exception: the second call takes up to four
bytes for it, also if fewer are missing.
-/

import Cboot.Sparse.Rounds

namespace Cboot.Sparse

open Chunks

inductive Item
  | byte (value : Byte)
  | skip (size : Nat)
  deriving DecidableEq

def repeated (value : BitVec 32) (size : Nat) : List Byte :=
  (List.range size).map fun i => (bytes32 value).getD (i % 4) 0

def record (buff : ByteMem) : Output (List Item) where
  writer source size t := (.ok (), t ++ (match source with
    | .buffer offset => buff.load offset size
    | .fill value => repeated value size).map .byte)
  seeker size t := (.ok (), t ++ [.skip size])

/-! ### The loop by the bytes that it takes -/

def want (s : UnsparseState) : Nat :=
  match s.state with
  | .imageHeader | .chunkHeader | .raw => s.remaining
  | .fill => if s.offset < 4 then 4 else 0
  | .dontCare | .crc => 0

def UnsparseState.toHeader (s : UnsparseState) (remaining : Nat) : UnsparseState :=
  { s with state := .chunkHeader, chunkHeader := fun _ => 0, remaining, offset := 0 }

def UnsparseState.startChunk (s : UnsparseState) : Result UnsparseState :=
  match tegrablSparseValidateChunkHeader s.imageHeader s.chunkHeader with
  | .error error => .error error
  | .ok part =>
    if totalChunks s.imageHeader < s.chunksProcessed + 1 then .error (sparseError .outOfRange 0)
    else .ok { s with
      chunksProcessed := s.chunksProcessed + 1
      state := part
      offset := 0
      remaining := (chunkSz s.chunkHeader).toNat * (blkSz s.imageHeader).toNat }

def UnsparseState.got (s : UnsparseState) (bytes : List Byte) : UnsparseState :=
  let offset := s.offset + bytes.length
  let remaining := s.remaining - bytes.length
  match s.state with
  | .imageHeader =>
    { s with imageHeader := s.imageHeader.store s.offset bytes, offset, remaining }
  | .chunkHeader =>
    { s with
      chunkHeader := if s.offset < chunkHeaderSize then s.chunkHeader.store s.offset bytes
        else s.chunkHeader
      offset, remaining }
  | .raw => { s with offset, remaining }
  | .fill => { s with fillValue := s.fillValue.store s.offset bytes, offset }
  | _ => s

def taking (s : UnsparseState) (bytes : List Byte) (t : List Item) :
    Option (Result UnsparseState) × List Item :=
  let next := s.got bytes
  match s.state with
  | .imageHeader =>
    (if next.remaining ≠ 0 then some (.ok next)
      else match tegrablSparseValidateHeader next.imageHeader next.maxUnsparseSize with
      | .error error => some (.error error)
      | .ok () => some (.ok (next.toHeader (chunkHdrSz next.imageHeader))), t)
  | .chunkHeader =>
    (if s.offset < chunkHeaderSize ∧ chunkHeaderSize < next.offset then none
      else some (if next.remaining ≠ 0 then .ok next else next.startChunk), t)
  | .raw =>
    (some (.ok (if next.remaining = 0 then next.toHeader chunkHeaderSize else next)),
      t ++ bytes.map .byte)
  | .fill =>
    if next.offset < 4 then (some (.ok next), t)
    else (some (.ok (next.toHeader chunkHeaderSize)),
      t ++ (repeated (word32 next.fillValue 0) next.remaining).map .byte)
  | .dontCare => (some (.ok (s.toHeader chunkHeaderSize)), t ++ [.skip s.remaining])
  | .crc => (some (.ok s), t)

def consume : Nat → UnsparseState → List Byte → List Item → CallEnd × List Item
  | 0, _, _, t => (.unseen, t)
  | rounds + 1, s, bytes, t =>
    if bytes ≠ [] ∨ s.state = .dontCare then
      match taking s (bytes.take (want s)) t with
      | (some (.ok s'), t) => consume rounds s' (bytes.drop (want s)) t
      | (some (.error error), t) => (.failed error, t)
      | (none, t) => (.overrun, t)
    else (.done s, t)

section Taking

variable {buff : ByteMem} {work : Work} {t : List Item}

theorem repeated_add {value : BitVec 32} {n : Nat} (words : 4 ∣ n) (m : Nat) :
    repeated value (n + m) = repeated value n ++ repeated value m := by
  obtain ⟨k, rfl⟩ := words
  simp [repeated, List.range_add, Function.comp_def]

theorem fillLoop_record (value : BitVec 32) (start count : Nat) (t : List Item) :
    fillLoop (record buff) value (chunks sparseMaxLocalBuffer start count) t =
      (.ok (), t ++ (repeated value count).map .byte) := by
  induction count using Nat.strong_induction_on generalizing start t with
  | _ count ih =>
    have positive : 0 < sparseMaxLocalBuffer := by decide
    rcases Nat.eq_zero_or_pos count with rfl | some_
    · simp [fillLoop, repeated]
    · rw [chunks_cons positive start some_, fillLoop]
      show fillLoop (record buff) value _ (t ++ (repeated value _).map .byte) = _
      rw [ih _ (by omega), List.append_assoc, ← List.map_append]
      rcases Nat.le_total count sparseMaxLocalBuffer with last | more
      · simp [Nat.min_eq_left last, repeated]
      · rw [Nat.min_eq_right more, ← repeated_add (by decide), Nat.add_sub_cancel' more]

def Work.ended (work : Work) (size : Nat) : Option (Result UnsparseState) → RoundEnd
  | some (.ok s) =>
    .next { s with sparseBuffer := work.sparseBuffer + size, length := work.length - size }
  | some (.error error) => .failed error
  | none => .overrun

theorem startChunk_ended {next : Work} {size : Nat} (place : next.sparseBuffer = work.sparseBuffer + size)
    (rest : next.length = work.length - size) :
    startChunk next = work.ended size (some next.toUnsparseState.startChunk) := by
  unfold startChunk UnsparseState.startChunk
  cases tegrablSparseValidateChunkHeader next.imageHeader next.chunkHeader with
  | error error => rfl
  | ok part =>
    rw [apply_ite some, apply_ite (work.ended size)]
    simp only [Work.ended, ← place, ← rest]

theorem round_taking (early : work.state = .fill → work.offset < 4) :
    round (record buff) buff work t =
      Prod.map (work.ended (min work.length (want work.toUnsparseState))) id
        (taking work.toUnsparseState (buff.load work.sparseBuffer
          (min work.length (want work.toUnsparseState))) t) := by
  unfold round taking want UnsparseState.got
  cases part : work.state <;> simp only [ByteMem.load_length, Prod.map, id_eq]
  case imageHeader =>
    rw [imageHeaderRound, apply_ite (work.ended _)]
    refine congrArg (·, t) (if_congr Iff.rfl (part ▸ rfl) ?_)
    dsimp only [Work.take]
    generalize tegrablSparseValidateHeader _ _ = checked
    cases checked <;> rfl
  case chunkHeader =>
    rw [chunkHeaderRound, apply_ite some, apply_ite (work.ended _), apply_ite (work.ended _)]
    exact congrArg (·, t) (if_congr Iff.rfl rfl (if_congr Iff.rfl (part ▸ rfl)
      (part ▸ startChunk_ended rfl rfl)))
  case raw =>
    refine congrArg (·, _) ?_
    dsimp only [Work.take]
    split
    · rfl
    · exact part ▸ rfl
  case fill =>
    unfold fillRound
    simp only [if_pos (early part), Work.take, fillLoop_record]
    split_ifs
    · exact part ▸ rfl
    · rfl
  case dontCare =>
    rw [Nat.min_zero]
    rfl
  case crc =>
    rw [Nat.min_zero]
    rfl

theorem drop_load_min (mem : ByteMem) (addr n size : Nat) :
    (mem.load addr n).drop size = mem.load (addr + min n size) (n - min n size) := by
  refine List.ext_getElem (by simp; omega) fun i inside _ => ?_
  rw [List.getElem_drop, ByteMem.load_getElem, ByteMem.load_getElem]
  simp only [List.length_drop, ByteMem.load_length] at inside
  congr 1
  omega

theorem loop_consume (rounds : Nat) (sound : work.Sound) :
    unsparseLoop (record buff) buff rounds work t =
      consume rounds work.toUnsparseState (buff.load work.sparseBuffer work.length) t := by
  induction rounds generalizing work t with
  | zero => rfl
  | succ rounds ih =>
    have empty : buff.load work.sparseBuffer work.length ≠ [] ↔ work.length ≠ 0 := by
      rw [ne_eq, ← List.length_eq_zero_iff, ByteMem.load_length]
    rw [unsparseLoop, consume, ByteMem.take_load, drop_load_min, round_taking sound.fill]
    refine if_congr (or_congr_left empty.symm) ?_ rfl
    rcases took : taking work.toUnsparseState (buff.load work.sparseBuffer
      (min work.length (want work.toUnsparseState))) t with ⟨⟨⟩ | ⟨error | s⟩, u⟩
    · rfl
    · rfl
    · exact ih (round_sound (by rw [round_taking sound.fill, took]; rfl) sound)

end Taking

/-! ### Cuts -/

section Cut

variable {s next : UnsparseState} {first second : List Byte} {t u : List Item}

theorem got_state (s : UnsparseState) (bytes : List Byte) : (s.got bytes).state = s.state := by
  unfold UnsparseState.got
  cases part : s.state <;> simp only [part]

theorem got_append (s : UnsparseState) (first second : List Byte)
    (header : s.state = .chunkHeader → s.offset < chunkHeaderSize →
      s.offset + first.length < chunkHeaderSize) :
    (s.got first).got second = s.got (first ++ second) := by
  unfold UnsparseState.got
  cases part : s.state <;>
    simp only [part, ByteMem.store_append, List.length_append, Nat.add_assoc, Nat.sub_sub]
  by_cases before : s.offset < chunkHeaderSize
  · simp only [if_pos before, if_pos (header part before), ByteMem.store_append]
  · simp only [if_neg before, if_neg (show ¬s.offset + first.length < chunkHeaderSize by omega)]

theorem taking_append (short : first.length < want s) (more : second ≠ [])
    (fresh : s.state = .fill → s.offset = 0) (seen : (taking s (first ++ second) t).1 ≠ none) :
    ∃ v, taking s first t = (some (.ok (s.got first)), v) ∧
      taking (s.got first) second v = taking s (first ++ second) t := by
  have some_ := List.length_pos_of_ne_nil more
  unfold want at short
  cases part : s.state <;> simp only [part] at short
  case imageHeader =>
    have left : (s.got first).remaining ≠ 0 := by
      simp only [UnsparseState.got, part]
      omega
    refine ⟨t, by simp only [taking, part, if_pos left], ?_⟩
    simp only [taking, got_state, part, got_append s first second (by simp [part])]
  case chunkHeader =>
    have offset : ∀ bytes, (s.got bytes).offset = s.offset + bytes.length := by
      simp [UnsparseState.got, part]
    have left : (s.got first).remaining ≠ 0 := by
      simp only [UnsparseState.got, part]
      omega
    have room : ¬(s.offset < chunkHeaderSize ∧
        chunkHeaderSize < s.offset + (first.length + second.length)) := by
      intro past
      rw [← List.length_append, ← offset] at past
      simp [taking, part, past] at seen
    have joined := got_append s first second fun _ before => by omega
    refine ⟨t, ?_, ?_⟩
    · simp only [taking, part, offset, if_pos left]
      rw [if_neg (by omega)]
    · simp only [taking, got_state, part, joined, offset, List.length_append]
      rw [if_neg room, if_neg (by omega)]
  case raw =>
    have left : (s.got first).remaining ≠ 0 := by
      simp only [UnsparseState.got, part]
      omega
    refine ⟨t ++ first.map .byte, by simp only [taking, part, if_neg left], ?_⟩
    simp only [taking, got_state, part, got_append s first second (by simp [part]), List.map_append,
      List.append_assoc]
  case fill =>
    rw [if_pos (fresh part ▸ by decide)] at short
    have early : (s.got first).offset < 4 := by
      simp only [UnsparseState.got, part, fresh part]
      omega
    refine ⟨t, by simp only [taking, part, if_pos early], ?_⟩
    simp only [taking, got_state, part, got_append s first second (by simp [part])]
  case dontCare => omega
  case crc => omega

def UnsparseState.Fits (s : UnsparseState) (length : Nat) : Prop :=
  s.state = .fill → 0 < s.offset → s.offset + length ≤ 4

theorem got_want (short : first.length < want s) (fresh : s.state = .fill → s.offset = 0)
    (some_ : first ≠ []) (fits : (s.got first).Fits second.length) :
    second.take (want (s.got first)) = second.take (want s - first.length) ∧
      second.drop (want (s.got first)) = second.drop (want s - first.length) := by
  unfold want at short ⊢
  rw [got_state]
  cases part : s.state <;> simp only [part] at short ⊢
  case fill =>
    have start := fresh part
    have offset : (s.got first).offset = first.length := by simp [UnsparseState.got, part, start]
    have within := fits (by rw [got_state, part])
      (by rw [offset]; exact List.length_pos_of_ne_nil some_)
    rw [if_pos (by omega)] at short ⊢
    rw [if_pos (by omega), List.take_of_length_le (by omega), List.take_of_length_le (by omega),
      List.drop_of_length_le (by omega), List.drop_of_length_le (by omega)]
    exact ⟨rfl, rfl⟩
  all_goals simp [UnsparseState.got, part]

theorem startChunk_fresh (ok : s.startChunk = .ok next) : next.offset = 0 := by
  unfold UnsparseState.startChunk at ok
  split at ok
  · cases ok
  · split at ok <;> cases ok
    rfl

theorem taking_fresh {bytes : List Byte} (full : bytes.length = want s)
    (fresh : s.state = .fill → s.offset = 0) (took : taking s bytes t = (some (.ok next), u))
    (isFill : next.state = .fill) : next.offset = 0 := by
  have other : (s.got bytes).state = .fill → s.state = .fill := fun same => got_state s bytes ▸ same
  unfold taking at took
  unfold want at full
  cases part : s.state <;> simp only [part] at took full other
  case imageHeader =>
    split at took
    · cases took
      exact absurd (other isFill) nofun
    · split at took <;> cases took
      cases isFill
  case chunkHeader =>
    split at took
    · cases took
    · split at took
      · cases took
        exact absurd (other isFill) nofun
      · obtain ⟨started, -⟩ := Prod.mk.inj took
        exact startChunk_fresh (Option.some.inj started)
  case raw =>
    obtain ⟨same, -⟩ := Prod.mk.inj took
    cases same
    split at isFill
    · cases isFill
    · exact absurd (other isFill) nofun
  case fill =>
    rw [if_pos (fresh part ▸ by decide)] at full
    rw [if_neg (by simp [UnsparseState.got, part, full])] at took
    cases took
    cases isFill
  case dontCare =>
    cases took
    cases isFill
  case crc =>
    cases took
    cases part.symm.trans isFill

theorem consume_succ {rounds : Nat} {last : UnsparseState} {bytes : List Byte}
    (ran : consume rounds s bytes t = (.done last, u)) :
    consume (rounds + 1) s bytes t = (.done last, u) := by
  induction rounds generalizing s bytes t with
  | zero => cases ran
  | succ rounds ih =>
    rw [consume] at ran ⊢
    split at ran
    · next goesOn =>
      rw [if_pos goesOn]
      split at ran
      · exact ih ran
      · cases ran
      · cases ran
    · next ended =>
      rw [if_neg ended]
      exact ran

theorem consume_append {rounds : Nat} {last : UnsparseState} (more : second ≠ [])
    (fresh : s.state = .fill → s.offset = 0)
    (ran : consume rounds s (first ++ second) t = (.done last, u)) :
    ∃ mid v, consume rounds s first t = (.done mid, v) ∧
      (mid.Fits second.length → consume rounds mid second v = (.done last, u)) := by
  induction rounds generalizing s first t with
  | zero => cases ran
  | succ rounds ih =>
    by_cases goesOn : first ≠ [] ∨ s.state = .dontCare
    · have both : first ++ second ≠ [] ∨ s.state = .dontCare := .inl (by simp [more])
      rw [consume, if_pos both] at ran
      rw [consume, if_pos goesOn]
      by_cases whole : want s ≤ first.length
      · rw [List.take_append_of_le_length whole, List.drop_append_of_le_length whole] at ran
        split at ran
        · next took =>
          obtain ⟨mid, v, done, rest⟩ := ih
            (taking_fresh (List.length_take_of_le whole) fresh took) ran
          exact ⟨mid, v, done, fun fits => consume_succ (rest fits)⟩
        · cases ran
        · cases ran
      · have short := Nat.lt_of_not_le whole
        have used : second.take (want s - first.length) ≠ [] := by
          simp [more]
          omega
        rw [List.take_append, List.drop_append, List.take_of_length_le short.le,
          List.drop_of_length_le short.le, List.nil_append] at ran
        rw [List.take_of_length_le short.le, List.drop_of_length_le short.le]
        split at ran
        · next tookAll =>
          obtain ⟨v, took, same⟩ := taking_append short used fresh (by rw [tookAll]; nofun)
          have other : s.state ≠ .dontCare := fun skip => by simp [want, skip] at short
          rw [took]
          refine ⟨s.got first, v, ?_, fun fits => ?_⟩
          · cases rounds with
            | zero => cases ran
            | succ rounds => simp [consume, got_state, other]
          · obtain ⟨samePart, sameRest⟩ := got_want short fresh (goesOn.resolve_right other) fits
            rw [consume, if_pos (.inl more), samePart, sameRest, same, tookAll]
            exact ran
        · cases ran
        · cases ran
    · obtain ⟨rfl, other⟩ : first = [] ∧ s.state ≠ .dontCare := by simpa using goesOn
      exact ⟨s, t, by rw [consume, if_neg goesOn], fun _ => ran⟩

end Cut

/-! ### Any pieces -/

section Pieces

variable {rounds : Nat} {first last : UnsparseState}

def feed (rounds : Nat) (before : CallEnd × List Item) (piece : ByteMem × Nat) :
    CallEnd × List Item :=
  match before with
  | (.done state, t) => tegrablSparseUnsparse (record piece.1) piece.1 rounds state piece.2 t
  | ended => ended

def calls (rounds : Nat) (first : UnsparseState) (pieces : List (ByteMem × Nat)) :
    CallEnd × List Item := pieces.foldl (feed rounds) (.done first, [])

def pieceBytes (pieces : List (ByteMem × Nat)) : List Byte :=
  pieces.flatMap fun piece => piece.1.load 0 piece.2

def CutsFit (rounds : Nat) (first : UnsparseState) (pieces : List (ByteMem × Nat)) : Prop :=
  ∀ before piece after, pieces = before ++ piece :: after → ∀ state t,
    calls rounds first before = (.done state, t) → state.Fits piece.2

theorem loop_sound {τ : Type} {out : Output τ} {buff : ByteMem} {work : Work} {t u : τ}
    (sound : work.Sound) (ran : unsparseLoop out buff rounds work t = (.done last, u)) :
    last.Sound := by
  induction rounds generalizing work t with
  | zero => cases ran
  | succ rounds ih =>
    rw [unsparseLoop] at ran
    split at ran
    · split at ran
      · next ran' => exact ih (round_sound ran' sound) ran
      · cases ran
      · cases ran
    · cases ran
      exact sound

theorem calls_consume {pieces : List (ByteMem × Nat)} {trace : List Item} (sound : first.Sound)
    (start : first.state = .imageHeader) (some_ : ∀ piece ∈ pieces, piece.2 ≠ 0)
    (fits : CutsFit rounds first pieces)
    (ran : consume rounds first (pieceBytes pieces) [] = (.done last, trace)) :
    calls rounds first pieces = (.done last, trace) ∧ last.Sound := by
  induction pieces using List.reverseRecOn generalizing last trace with
  | nil =>
    cases rounds with
    | zero => cases ran
    | succ rounds =>
      rw [consume, if_neg (by simp [pieceBytes, start])] at ran
      cases ran
      exact ⟨rfl, sound⟩
  | append_singleton pieces piece ih =>
    have nonzero : piece.2 ≠ 0 := some_ piece (by simp)
    rw [pieceBytes, List.flatMap_append, List.flatMap_singleton] at ran
    obtain ⟨mid, v, done, rest⟩ := consume_append
      (by rw [ne_eq, ← List.length_eq_zero_iff, ByteMem.load_length]; exact nonzero)
      (by simp [start]) ran
    obtain ⟨called, soundMid⟩ := ih (fun p member => some_ p (List.mem_append_left _ member))
      (fun before p after same => fits before p (after ++ [piece]) (by simp [same])) done
    have again := rest (by
      rw [ByteMem.load_length]
      exact fits pieces piece [] rfl mid v called)
    have soundStart : (mid.start piece.2).Sound := ⟨soundMid.image, soundMid.chunk, soundMid.fill⟩
    have loop : unsparseLoop (record piece.1) piece.1 rounds (mid.start piece.2) v = (.done last, trace) :=
      (loop_consume rounds soundStart).trans again
    refine ⟨?_, loop_sound soundStart loop⟩
    rw [calls, List.foldl_append, show pieces.foldl _ _ = _ from called]
    exact (if_neg nonzero).trans loop

/-- **An image in pieces.** Every image that one call accepts is expanded in the same way when it is
given to the calls piece by piece, if no piece that starts in a word to be repeated goes on behind
it. -/
theorem pieces_alike {limit length : Nat} {image : ByteMem} {trace : List Item}
    {pieces : List (ByteMem × Nat)} (fresh : tegrablSparseInitUnsparseState limit = .ok first)
    (accepted : tegrablSparseUnsparse (record image) image rounds first length [] = (.done last, trace))
    (some_ : ∀ piece ∈ pieces, piece.2 ≠ 0) (cut : pieceBytes pieces = image.load 0 length)
    (fits : CutsFit rounds first pieces) : calls rounds first pieces = (.done last, trace) := by
  have sound := (init_sound fresh).1
  have start : first.state = .imageHeader := by
    unfold tegrablSparseInitUnsparseState at fresh
    split at fresh <;> cases fresh
    rfl
  rw [tegrablSparseUnsparse] at accepted
  split at accepted
  · cases accepted
  · have startSound : (first.start length).Sound := ⟨sound.image, sound.chunk, sound.fill⟩
    refine (calls_consume sound start some_ fits ?_).1
    rw [cut]
    exact (loop_consume rounds startSound).symm.trans accepted

def wordAndSkip : ByteMem := ByteMem.store (fun _ => 0) 0
  [0x3A, 0xFF, 0x26, 0xED, 1, 0, 0, 0, 28, 0, 12, 0, 4, 0, 0, 0, 2, 0, 0, 0, 2, 0, 0, 0, 0, 0, 0, 0,
    0xC2, 0xCA, 0, 0, 1, 0, 0, 0, 16, 0, 0, 0, 1, 2, 3, 4, 0xC3, 0xCA, 0, 0, 1, 0, 0, 0, 12, 0, 0, 0]

/-- A cut in the word: the second call takes two bytes of the next header for it, and the block is
not skipped. -/
theorem cut_word_differs : ∃ first, tegrablSparseInitUnsparseState 8 = .ok first ∧
    (∃ last, tegrablSparseUnsparse (record wordAndSkip) wordAndSkip 9 first 56 [] =
      (.done last, [.byte 1, .byte 2, .byte 3, .byte 4, .skip 4])) ∧
    ∃ last, calls 9 first [(wordAndSkip, 42), (wordAndSkip.view 42, 14)] =
      (.done last, [.byte 1, .byte 2, .byte 3, .byte 4]) :=
  ⟨_, rfl, ⟨_, rfl⟩, ⟨_, rfl⟩⟩

/-- A cut in the image header. -/
theorem cut_header_alike : ∃ first, tegrablSparseInitUnsparseState 8 = .ok first ∧
    ∃ last, calls 9 first [(wordAndSkip, 20), (wordAndSkip.view 20, 36)] =
      (.done last, [.byte 1, .byte 2, .byte 3, .byte 4, .skip 4]) := by
  refine ⟨_, rfl, _, @pieces_alike 9 _ _ 8 56 wordAndSkip _ _ rfl rfl (by decide) rfl ?_⟩
  rintro (_ | ⟨p, _ | ⟨q, before⟩⟩) piece after same state t ran isFill
  · cases ran
    cases isFill
  · cases same
    cases ran
    cases isFill
  · simp at same

end Pieces

end Cboot.Sparse
