/-
**Validation of a binary.**

`tegrablValidateBinary` checks the ratchet and then authenticates: the owner's signature over the
signed part of the header, and the digest in the header over the payload. The hash and the signature
primitives of the crypto engine are the functions of a `CryptoEngine`, about which nothing is
assumed. Next to the memory it leaves, an authentication returns the bytes its payload digest was
checked over, which is how later results speak about what was authenticated.
-/

import Cboot.Auth.Header

namespace Cboot.Auth

/-! ### The crypto engine -/

inductive AuthenticationScheme
  | sha2
  | rsa2k
  | rsa3k
  | ecc
  | ed25519
  | other
  deriving DecidableEq

def authenticationScheme (bootSecurityInfo : BitVec 32) : AuthenticationScheme :=
  let scheme := bootSecurityInfo &&& 0x83#32
  if scheme = 0x0#32 then .sha2
  else if scheme = 0x1#32 then .rsa2k
  else if scheme = 0x2#32 then .rsa3k
  else if scheme = 0x3#32 then .ecc
  else if scheme = 0x83#32 then .ed25519
  else .other

/-- What the authentication asks of its environment: the fuse, the two allocations of a digest, and
the primitives of the crypto engine on byte strings. -/
structure CryptoEngine where
  bootSecurityInfo : BitVec 32
  headerHashAllocated : Bool
  payloadHashAllocated : Bool
  validatePcp : List Byte → Result Unit
  computeSha2 : List Byte → Result (List Byte)
  rsaPssVerify : (message signature : List Byte) → (keyBits : Nat) →
    (parameters : List (List Byte)) → Result Unit
  ecdsaVerify : (message signature key : List Byte) → Result Unit
  ed25519Verify : (message signature key : List Byte) → Result Unit

def authError {α : Type} (reason : ErrReason) (auxInfo : Nat) : Result α :=
  tegrablError .auth reason auxInfo

/-! ### Authentication -/

def checkDigest (engine : CryptoEngine) (message expected : List Byte) : Result Unit := do
  let hash ← engine.computeSha2 message
  if hash = expected then .ok () else authError .verifyFailed 0

def authenticateOemHeader (engine : CryptoEngine) (mem : ByteMem) (header : Nat) : Result Unit := do
  if !engine.headerHashAllocated then authError .noMemory 0
  else
    let message := mem.load (header + stage2SignOffset) stage2SignSize
    let signature := header + offsetofStage2Signature
    let pcp := header + offsetofPcp
    let scheme := authenticationScheme engine.bootSecurityInfo
    if scheme ≠ .sha2 then engine.validatePcp (mem.load pcp sizeofPcp)
    match scheme with
    | .sha2 => checkDigest engine message (mem.load signature 32)
    | .rsa2k =>
      engine.rsaPssVerify message (mem.load (signature + 32) 384) 2048 [mem.load pcp (3 * 384)]
    | .rsa3k =>
      engine.rsaPssVerify message (mem.load (signature + 32) 384) 3072
        [mem.load pcp 384, mem.load (pcp + 384) 384, mem.load (pcp + 2 * 384) 384]
    | .ecc =>
      engine.ecdsaVerify message (mem.load (signature + 32 + 384) 64)
        (mem.load (pcp + 3 * 384) 64)
    | .ed25519 =>
      engine.ed25519Verify message (mem.load (signature + 32 + 384) 64)
        (mem.load (pcp + 3 * 384) 64)
    | .other => authError .notSupported 0

def payloadBytes (mem : ByteMem) (header : Nat) : List Byte :=
  mem.load (header + sizeofHeader) (binaryLen mem header)

def authenticateOemPayload (engine : CryptoEngine) (mem : ByteMem) (header : Nat) : Result Unit :=
  if !engine.payloadHashAllocated then authError .noMemory 0
  else checkDigest engine (payloadBytes mem header) (componentDigest mem header)

structure AuthOutcome where
  memory : ByteMem
  authenticated : Option (List Byte)

def payloadMoveSize (maxSize : Nat) : Nat := (maxSize + (2 ^ 64 - sizeofHeader)) % 2 ^ 64

def tegrablAuthPayload (engine : CryptoEngine) (mem : ByteMem) (payload maxSize : Nat) :
    Result AuthOutcome := do
  authenticateOemHeader engine mem payload
  authenticateOemPayload engine mem payload
  return ⟨mem.memmove payload (payload + sizeofHeader) (payloadMoveSize maxSize),
    some (payloadBytes mem payload)⟩

def tegrablValidateBinary (engine : CryptoEngine) (minRatchet : Nat → Byte) (binType : BitVec 32)
    (binMaxSize : Nat) (mem : ByteMem) (loadAddr : Nat) : Result AuthOutcome :=
  if binType = tegrablBinaryKernel ∨ binType = tegrablBinaryKernelDtb then
    if !tegrablDoRatchetCheck minRatchet (binType.setWidth 8) mem loadAddr then .ok ⟨mem, none⟩
    else tegrablAuthPayload engine mem loadAddr binMaxSize
  else tegrablError .linuxboot .invalid 0

/-! ### What a reported success means -/

section Validate

variable (engine : CryptoEngine) (minRatchet : Nat → Byte) (binType : BitVec 32)
  (binMaxSize : Nat) (mem : ByteMem) (loadAddr : Nat)

theorem validate_ok_iff
    (kind : binType = tegrablBinaryKernel ∨ binType = tegrablBinaryKernelDtb)
    (outcome : AuthOutcome) :
    tegrablValidateBinary engine minRatchet binType binMaxSize mem loadAddr = .ok outcome ↔
      (tegrablDoRatchetCheck minRatchet (binType.setWidth 8) mem loadAddr = false ∧
          outcome = ⟨mem, none⟩) ∨
        (tegrablDoRatchetCheck minRatchet (binType.setWidth 8) mem loadAddr = true ∧
          tegrablAuthPayload engine mem loadAddr binMaxSize = .ok outcome) := by
  rw [tegrablValidateBinary, if_pos kind]
  cases tegrablDoRatchetCheck minRatchet (binType.setWidth 8) mem loadAddr with
  | false => simp [eq_comm]
  | true => simp

theorem tegrablAuthPayload_ok {outcome : AuthOutcome}
    (success : tegrablAuthPayload engine mem loadAddr binMaxSize = .ok outcome) :
    authenticateOemHeader engine mem loadAddr = .ok () ∧
      authenticateOemPayload engine mem loadAddr = .ok () ∧
      outcome = ⟨mem.memmove loadAddr (loadAddr + sizeofHeader) (payloadMoveSize binMaxSize),
        some (payloadBytes mem loadAddr)⟩ := by
  unfold tegrablAuthPayload at success
  cases header : authenticateOemHeader engine mem loadAddr with
  | error error =>
    rw [header] at success
    cases success
  | ok checked =>
    rw [header] at success
    cases payload : authenticateOemPayload engine mem loadAddr with
    | error error =>
      rw [payload] at success
      cases success
    | ok checked =>
      rw [payload] at success
      cases success
      exact ⟨rfl, rfl, rfl⟩

/-- For every buffer, every ratchet table and every crypto engine: success of a validation implies
an accepted ratchet check and a successful authentication exactly when the ratchet is off for the
binary or every component its header counts is at the minimum level. -/
theorem validate_sound_iff
    (kind : binType = tegrablBinaryKernel ∨ binType = tegrablBinaryKernelDtb) :
    ((∃ outcome, tegrablValidateBinary engine minRatchet binType binMaxSize mem loadAddr =
          .ok outcome) →
        tegrablDoRatchetCheck minRatchet (binType.setWidth 8) mem loadAddr = true ∧
          ∃ outcome, tegrablAuthPayload engine mem loadAddr binMaxSize = .ok outcome) ↔
      (minRatchet (oemFwBinTypeMapping (binType.setWidth 8)) = 0 ∨
        ∀ i < (numBinaries2 mem loadAddr).toNat % 256,
          minRatchet (oemFwBinTypeMapping (binType.setWidth 8)) ≤ ratchetLevel mem loadAddr i) := by
  rw [← tegrablDoRatchetCheck_iff]
  constructor
  · intro sound
    by_contra refused
    have rejected := Bool.eq_false_of_not_eq_true refused
    have reported := (validate_ok_iff engine minRatchet binType binMaxSize mem loadAddr kind
      ⟨mem, none⟩).mpr (.inl ⟨rejected, rfl⟩)
    exact refused (sound ⟨_, reported⟩).1
  · rintro accepted ⟨outcome, reported⟩
    refine ⟨accepted, outcome, ?_⟩
    rcases (validate_ok_iff engine minRatchet binType binMaxSize mem loadAddr kind outcome).mp
      reported with ⟨rejected, -⟩ | ⟨-, authenticated⟩
    · rw [accepted] at rejected
      cases rejected
    · exact authenticated

end Validate

def refusingEngine : CryptoEngine where
  bootSecurityInfo := 2
  headerHashAllocated := true
  payloadHashAllocated := true
  validatePcp := fun _ => authError .verifyFailed 0
  computeSha2 := fun _ => .ok (List.replicate 32 0)
  rsaPssVerify := fun _ _ _ _ => authError .verifyFailed 0
  ecdsaVerify := fun _ _ _ => authError .verifyFailed 0
  ed25519Verify := fun _ _ _ => authError .verifyFailed 0

def oneComponent : ByteMem := fun a => if a = offsetofNumBinaries2 then 1 else 0

/-- The kernel of an image with a component of level zero is validated against the minimum level
one: success is reported although the ratchet check refuses the image and no signature of it would
be accepted. -/
theorem validate_reports_refused_ratchet :
    tegrablValidateBinary refusingEngine (fun _ => 1) tegrablBinaryKernel 0x05000000 oneComponent
        0 = .ok ⟨oneComponent, none⟩ ∧
      tegrablDoRatchetCheck (fun _ => 1) (tegrablBinaryKernel.setWidth 8) oneComponent 0 = false ∧
      ∀ outcome, tegrablAuthPayload refusingEngine oneComponent 0 0x05000000 ≠ .ok outcome := by
  have refused : tegrablDoRatchetCheck (fun _ => 1) (tegrablBinaryKernel.setWidth 8) oneComponent
      0 = false := by decide
  refine ⟨?_, refused, fun outcome => nofun⟩
  rw [tegrablValidateBinary, if_pos (.inl rfl), refused]
  rfl

def zeroHashEngine : CryptoEngine :=
  { refusingEngine with bootSecurityInfo := 0 }

/-- An image of zeros counts no component, so its reported success is one. -/
theorem validate_sound_zeros :
    tegrablDoRatchetCheck (fun _ => 1) (tegrablBinaryKernel.setWidth 8) (fun _ => 0) 0 = true ∧
      ∃ outcome, tegrablAuthPayload zeroHashEngine (fun _ => 0) 0 0x05000000 = .ok outcome :=
  (validate_sound_iff zeroHashEngine (fun _ => 1) tegrablBinaryKernel 0x05000000 (fun _ => 0) 0
    (.inl rfl)).mpr (.inr fun _ none => absurd none (Nat.not_lt_zero _)) ⟨_, rfl⟩

end Cboot.Auth
