/-
**What a validation reads.**

A validation reads the header and as many bytes behind it as the header says, and the ratchet check
reads one byte for each component the header counts. Nothing bounds these numbers by what was
loaded: a header that counts more components than it has room for, or that announces a longer
payload, is checked against whatever the memory holds. For a header that fits (`HeaderFits`) two
memories that agree on the header and the payload are validated alike (`validate_alike`).
-/

import Cboot.Auth.Validate

namespace Cboot.Auth

def HeaderFits (mem : ByteMem) (header size : Nat) : Prop :=
  (numBinaries2 mem header).toNat % 256 ≤ maxComponentCount ∧ binaryLen mem header ≤ size

section Locality

variable {first second : ByteMem} {header : Nat}

theorem numBinaries2_congr (agree : AgreeOn header (header + sizeofHeader) first second) :
    numBinaries2 first header = numBinaries2 second header := by
  have inside : offsetofNumBinaries2 + 4 ≤ sizeofHeader := by decide
  exact agree.word32 (by omega) (by omega)

theorem binaryLen_congr (agree : AgreeOn header (header + sizeofHeader) first second) :
    binaryLen first header = binaryLen second header := by
  have inside : offsetofStage2Components + 4 + 4 ≤ sizeofHeader := by decide
  exact congrArg BitVec.toNat (agree.word32 (by omega) (by omega))

theorem HeaderFits.congr {size : Nat} (fits : HeaderFits first header size)
    (agree : AgreeOn header (header + sizeofHeader) first second) :
    HeaderFits second header size := by
  unfold HeaderFits at *
  rwa [← numBinaries2_congr agree, ← binaryLen_congr agree]

theorem ratchetLevel_congr (agree : AgreeOn header (header + sizeofHeader) first second) {i : Nat}
    (counted : i < maxComponentCount) : ratchetLevel first header i = ratchetLevel second header i := by
  have inside : offsetofStage2Components + maxComponentCount * sizeofStage2Component ≤
      sizeofHeader := by decide
  have component : i * sizeofStage2Component + sizeofStage2Component ≤
      maxComponentCount * sizeofStage2Component := by
    rw [← Nat.succ_mul]
    exact Nat.mul_le_mul_right _ counted
  have version : 18 < sizeofStage2Component := by decide
  exact agree _ (by omega) (by omega)

theorem tegrablDoRatchetCheck_congr (minRatchet : Nat → Byte) (binType : Byte)
    (agree : AgreeOn header (header + sizeofHeader) first second)
    (counted : (numBinaries2 first header).toNat % 256 ≤ maxComponentCount) :
    tegrablDoRatchetCheck minRatchet binType first header =
      tegrablDoRatchetCheck minRatchet binType second header := by
  rw [Bool.eq_iff_iff, tegrablDoRatchetCheck_iff, tegrablDoRatchetCheck_iff,
    ← numBinaries2_congr agree]
  refine or_congr_right (forall₂_congr fun i bound => ?_)
  rw [ratchetLevel_congr agree (bound.trans_le counted)]

theorem authenticateOemHeader_congr (engine : CryptoEngine)
    (agree : AgreeOn header (header + sizeofHeader) first second) :
    authenticateOemHeader engine first header = authenticateOemHeader engine second header := by
  have load : ∀ offset n, offset + n ≤ sizeofHeader →
      first.load (header + offset) n = second.load (header + offset) n := fun offset n inside =>
    agree.load (Nat.le_add_right _ _) (by rw [Nat.add_assoc]; exact Nat.add_le_add_left inside _)
  unfold authenticateOemHeader
  simp only [Nat.add_assoc]
  rw [load stage2SignOffset stage2SignSize (by decide), load offsetofPcp sizeofPcp (by decide),
    load offsetofStage2Signature 32 (by decide),
    load (offsetofStage2Signature + 32) 384 (by decide), load offsetofPcp (3 * 384) (by decide),
    load offsetofPcp 384 (by decide), load (offsetofPcp + 384) 384 (by decide),
    load (offsetofPcp + 2 * 384) 384 (by decide), load (offsetofPcp + 3 * 384) 64 (by decide),
    load (offsetofStage2Signature + (32 + 384)) 64 (by decide)]

theorem payloadBytes_congr {size : Nat}
    (agree : AgreeOn header (header + sizeofHeader + size) first second)
    (fits : binaryLen first header ≤ size) :
    payloadBytes first header = payloadBytes second header := by
  have within := agree.mono le_rfl (Nat.le_add_right (header + sizeofHeader) size)
  unfold payloadBytes
  rw [← binaryLen_congr within]
  exact agree.load (Nat.le_add_right _ _) (Nat.add_le_add_left fits _)

theorem authenticateOemPayload_congr (engine : CryptoEngine) {size : Nat}
    (agree : AgreeOn header (header + sizeofHeader + size) first second)
    (fits : binaryLen first header ≤ size) :
    authenticateOemPayload engine first header = authenticateOemPayload engine second header := by
  have digest : componentDigest first header = componentDigest second header := by
    have inside : offsetofStage2Components + 48 + 32 ≤ sizeofHeader := by decide
    exact agree.load (by omega) (by omega)
  rw [authenticateOemPayload, authenticateOemPayload, payloadBytes_congr agree fits, digest]

end Locality

/-! ### Two validations -/

def Alike (low high : Nat) : Result AuthOutcome → Result AuthOutcome → Prop
  | .ok first, .ok second =>
    first.authenticated = second.authenticated ∧ AgreeOn low high first.memory second.memory
  | .error first, .error second => first = second
  | _, _ => False

theorem Alike.cases {low high : Nat} {first second : Result AuthOutcome}
    (alike : Alike low high first second) :
    (∃ left right, first = .ok left ∧ second = .ok right ∧
        AgreeOn low high left.memory right.memory) ∨
      ∃ error, first = .error error ∧ second = .error error := by
  cases first with
  | ok left =>
    cases second with
    | ok right => exact .inl ⟨left, right, rfl, rfl, alike.2⟩
    | error error => exact alike.elim
  | error error =>
    cases second with
    | ok right => exact alike.elim
    | error other => exact .inr ⟨error, rfl, congrArg _ (Eq.symm alike)⟩

theorem payloadMoveSize_eq {binMaxSize : Nat} (room : sizeofHeader ≤ binMaxSize)
    (word : binMaxSize < 2 ^ 32) : payloadMoveSize binMaxSize = binMaxSize - sizeofHeader := by
  unfold payloadMoveSize
  rw [sizeofHeader_eq] at *
  omega

section Alike

variable (engine : CryptoEngine) {first second : ByteMem} {header size : Nat} (binMaxSize : Nat)

theorem tegrablAuthPayload_alike
    (agree : AgreeOn header (header + sizeofHeader + size) first second)
    (fits : binaryLen first header ≤ size) (room : size ≤ payloadMoveSize binMaxSize) :
    Alike header (header + size) (tegrablAuthPayload engine first header binMaxSize)
      (tegrablAuthPayload engine second header binMaxSize) := by
  have within := agree.mono le_rfl (Nat.le_add_right (header + sizeofHeader) size)
  unfold tegrablAuthPayload
  rw [← authenticateOemHeader_congr engine within, ← authenticateOemPayload_congr engine agree fits,
    ← payloadBytes_congr agree fits]
  cases authenticateOemHeader engine first header with
  | error error => exact rfl
  | ok checked =>
    cases authenticateOemPayload engine first header with
    | error error => exact rfl
    | ok checked =>
      exact ⟨rfl, AgreeOn.of_memmove _ room (agree.mono (Nat.le_add_right _ _) le_rfl)⟩

theorem validate_alike (minRatchet : Nat → Byte) (binType : BitVec 32)
    (agree : AgreeOn header (header + sizeofHeader + size) first second)
    (fits : HeaderFits first header size) (room : size ≤ payloadMoveSize binMaxSize) :
    Alike header (header + size)
      (tegrablValidateBinary engine minRatchet binType binMaxSize first header)
      (tegrablValidateBinary engine minRatchet binType binMaxSize second header) := by
  have within := agree.mono le_rfl (Nat.le_add_right (header + sizeofHeader) size)
  unfold tegrablValidateBinary
  rw [← tegrablDoRatchetCheck_congr minRatchet (binType.setWidth 8) within fits.1]
  split
  · split
    · exact ⟨rfl, agree.mono le_rfl (by omega)⟩
    · exact tegrablAuthPayload_alike engine binMaxSize agree fits.2 room
  · exact rfl

end Alike

end Cboot.Auth
