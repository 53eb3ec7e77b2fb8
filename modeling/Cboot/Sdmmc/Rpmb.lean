/-
**Authenticated access to the RPMB partition.**

`sdmmc_rpmb_get_write_counter`, `sdmmc_rpmb_read` and `sdmmc_rpmb_write` exchange frames with the
storage device. A frame carries a MAC over its last 284 bytes, a nonce, and the result and the type
of a response. The device is any state machine: it may answer a request with any frame. SHA-256 is
any function.

The three functions check different things: a counter is accepted without a look at its nonce, and
the result of a write without a look at its MAC.
-/

import Cboot.Error
import Cboot.Lib.ByteMem
import Cboot.Lib.Program

namespace Cboot.Rpmb

open Prog

/-! ### Frames -/

structure Frame where
  keyOrMac : Vector Byte 32
  data : Vector Byte 256
  nonce : Vector Byte 16
  writeCounter : Vector Byte 4
  address : Vector Byte 2
  blockCount : Vector Byte 2
  result : Vector Byte 2
  reqOrResp : Vector Byte 2
  deriving DecidableEq

def Frame.zero : Frame where
  keyOrMac := Vector.replicate 32 0
  data := Vector.replicate 256 0
  nonce := Vector.replicate 16 0
  writeCounter := Vector.replicate 4 0
  address := Vector.replicate 2 0
  blockCount := Vector.replicate 2 0
  result := Vector.replicate 2 0
  reqOrResp := Vector.replicate 2 0

def Frame.macMsg (frame : Frame) : List Byte :=
  frame.data.toList ++ frame.nonce.toList ++ frame.writeCounter.toList ++ frame.address.toList ++
    frame.blockCount.toList ++ frame.result.toList ++ frame.reqOrResp.toList

def toRpmbU16 (value : Nat) : Vector Byte 2 :=
  #v[BitVec.ofNat 8 (value >>> 8), BitVec.ofNat 8 value]

def toRpmbU32 (value : Nat) : Vector Byte 4 :=
  #v[BitVec.ofNat 8 (value >>> 24), BitVec.ofNat 8 (value >>> 16), BitVec.ofNat 8 (value >>> 8),
    BitVec.ofNat 8 value]

def fromRpmbU16 (bytes : Vector Byte 2) : Nat := bytes[0].toNat * 2 ^ 8 + bytes[1].toNat

def fromRpmbU32 (bytes : Vector Byte 4) : Nat :=
  bytes[0].toNat * 2 ^ 24 + bytes[1].toNat * 2 ^ 16 + bytes[2].toNat * 2 ^ 8 + bytes[3].toNat

def rpmbNonce : Vector Byte 16 :=
  #v[0x01, 0xFF, 0x3E, 0x26, 0x49, 0x67, 0x80, 0x63, 0x99, 0xE1, 0xCB, 0x11, 0xDA, 0xD6, 0x05, 0x00]

inductive Kind
  | getCounter
  | read
  | write
  deriving DecidableEq

def Kind.request : Kind → Nat
  | .getCounter => 2
  | .read => 4
  | .write => 3

def Kind.response : Kind → Nat
  | .getCounter => 0x0200
  | .read => 0x0400
  | .write => 0x0300

def rpmbReqGetResult : Nat := 5

structure Exchange where
  kind : Kind
  request : Frame
  response : Frame

/-! ### The functions -/

structure Device (σ : Type) where
  /-- `sdmmc_rpmb_io` with the frames `req_frame` and `req_resp_frame`: an error or the response. -/
  rpmbIo : Bool → Frame → Frame → σ → Result Frame × σ
  /-- Whether `tegrabl_alloc` has memory. -/
  alloc : σ → Bool × σ
  /-- An error of the hash engine. -/
  hashFault : σ → Option ErrorValue × σ
  sha256 : List Byte → Vector Byte 32

structure Access (σ : Type) where
  device : σ
  exchanges : List Exchange

section Model

variable {σ : Type} (dev : Device σ)

def alloc (auxInfo : Nat) : Prog ErrorValue (Access σ) Unit := fun s =>
  let out := dev.alloc s.device
  some (if out.1 then .ok () else tegrablError .sdmmc .noMemory auxInfo,
    { s with device := out.2 })

def rpmbIo (kind : Kind) (isWrite : Bool) (request reqResp : Frame) :
    Prog ErrorValue (Access σ) Frame := fun s =>
  match dev.rpmbIo isWrite request reqResp s.device with
  | (.ok response, after) =>
    some (.ok response, ⟨after, s.exchanges ++ [⟨kind, request, response⟩]⟩)
  | (.error e, after) => some (.error e, { s with device := after })

def compareMac (frame : Frame) (mac : Vector Byte 32) : Result Unit :=
  if frame.keyOrMac ≠ mac then tegrablError .sdmmc .invalid 0 else .ok ()

def compareNonce (frame : Frame) (nonce : Vector Byte 16) : Result Unit :=
  if frame.nonce ≠ nonce then tegrablError .sdmmc .invalid 0 else .ok ()

def checkResponse (frame : Frame) (response : Nat) : Result Unit :=
  if fromRpmbU16 frame.result ≠ 0 then
    if fromRpmbU16 frame.result = 7 then tegrablError .sdmmc .notProgrammed 0
    else tegrablError .sdmmc .invalid 0
  else if fromRpmbU16 frame.reqOrResp ≠ response then tegrablError .sdmmc .invalid 0
  else .ok ()

def generateSha256Hash (input : List Byte) : Prog ErrorValue (Access σ) (Vector Byte 32) := fun s =>
  match dev.hashFault s.device with
  | (none, after) => some (.ok (dev.sha256 input), { s with device := after })
  | (some e, after) => some (.error (setHighestModule .sdmmc e), { s with device := after })

def padded (key : Vector Byte 32) (pad : Byte) : List Byte :=
  (key.toList ++ List.replicate 32 0).map fun byte => byte ^^^ pad

variable (key : Option (Vector Byte 32))

def calculateMac (frame : Frame) : Prog ErrorValue (Access σ) (Vector Byte 32) :=
  match key with
  | none => ofResult (tegrablError .sdmmc .invalid 0)
  | some key => do
    alloc dev 11
    alloc dev 12
    let digest ← generateSha256Hash dev (padded key 0x36 ++ frame.macMsg)
    generateSha256Hash dev (padded key 0x5c ++ digest.toList)

def counterRequest : Frame :=
  { Frame.zero with reqOrResp := toRpmbU16 Kind.getCounter.request, nonce := rpmbNonce }

def readRequest (addr : Nat) : Frame :=
  { Frame.zero with
    address := toRpmbU16 addr, reqOrResp := toRpmbU16 Kind.read.request, nonce := rpmbNonce }

def writeRequest (counter addr : Nat) (buf : List Byte) : Frame :=
  { Frame.zero with
    writeCounter := toRpmbU32 counter, address := toRpmbU16 addr, blockCount := toRpmbU16 1,
    reqOrResp := toRpmbU16 Kind.write.request, data := Vector.ofFn fun i => buf.getD i 0 }

def resultRequest : Frame := { Frame.zero with reqOrResp := toRpmbU16 rpmbReqGetResult }

def rpmbGetWriteCounter (context : Bool) (key : Option (Vector Byte 32)) :
    Prog ErrorValue (Access σ) Nat := do
  if context = false then alloc dev 10
  let response ← rpmbIo dev .getCounter false counterRequest Frame.zero
  ofResult (checkResponse response Kind.getCounter.response)
  let mac ← calculateMac dev key response
  ofResult (compareMac response mac)
  return fromRpmbU32 response.writeCounter

def rpmbRead (addr buflen : Nat) : Prog ErrorValue (Access σ) (List Byte) :=
  if key = none then ofResult (tegrablError .sdmmc .invalid 0)
  else if buflen = 0 ∨ 256 < buflen then ofResult (tegrablError .sdmmc .invalid 1)
  else do
    let response ← rpmbIo dev .read false (readRequest addr) Frame.zero
    ofResult (checkResponse response Kind.read.response)
    ofResult (compareNonce response rpmbNonce)
    let mac ← calculateMac dev key response
    ofResult (compareMac response mac)
    return response.data.toList.take buflen

def rpmbWrite (addr : Nat) (buf : List Byte) : Prog ErrorValue (Access σ) Unit :=
  if key = none then ofResult (tegrablError .sdmmc .invalid 0)
  else if buf.length = 0 ∨ 256 < buf.length then ofResult (tegrablError .sdmmc .invalid 0)
  else do
    let counter ← rpmbGetWriteCounter dev true key
    let mac ← calculateMac dev key (writeRequest counter addr buf)
    let response ← rpmbIo dev .write true { writeRequest counter addr buf with keyOrMac := mac }
      resultRequest
    ofResult (checkResponse response Kind.write.response)

inductive Call
  | getWriteCounter (context : Bool)
  | read (addr buflen : Nat)
  | write (addr : Nat) (buf : List Byte)

def Call.run : Call → Prog ErrorValue (Access σ) Unit
  | .getWriteCounter context => do
    let _ ← rpmbGetWriteCounter dev context key
    return ()
  | .read addr buflen => do
    let _ ← rpmbRead dev key addr buflen
    return ()
  | .write addr buf => rpmbWrite dev key addr buf

end Model

/-! ### Authentic responses -/

variable (sha256 : List Byte → Vector Byte 32)

def hmac (key : Vector Byte 32) (msg : List Byte) : Vector Byte 32 :=
  sha256 (padded key 0x5c ++ (sha256 (padded key 0x36 ++ msg)).toList)

namespace Exchange

def Typed (e : Exchange) : Prop := fromRpmbU16 e.response.reqOrResp = e.kind.response

def Signed (key : Vector Byte 32) (e : Exchange) : Prop :=
  e.response.keyOrMac = hmac sha256 key e.response.macMsg

def Repeats (e : Exchange) : Prop := e.response.nonce = e.request.nonce

instance (e : Exchange) : Decidable e.Repeats := inferInstanceAs (Decidable (_ = _))

instance (key : Vector Byte 32) (e : Exchange) :
    Decidable (e.Signed sha256 key) := inferInstanceAs (Decidable (_ = _))

structure Authentic (key : Vector Byte 32) (e : Exchange) :
    Prop where
  typed : e.Typed
  signed : e.Signed sha256 key
  nonce : e.kind ≠ .write → e.Repeats

end Exchange

def Call.kinds : Call → List Kind
  | .getWriteCounter _ => [.getCounter]
  | .read _ _ => [.read]
  | .write _ _ => [.getCounter, .write]

/-! ### What the functions check -/

section Checks

variable {σ : Type} {dev : Device σ} {key : Option (Vector Byte 32)} {log : List Exchange}

theorem alloc_triple (auxInfo : Nat) :
    Triple (fun s => s.exchanges = log) (alloc dev auxInfo) (fun _ s => s.exchanges = log)
      fun _ => True := by
  rintro s same ⟨result, s'⟩ run
  cases run
  cases (dev.alloc s.device).1 with
  | true => exact same
  | false => trivial

theorem generateSha256Hash_triple (dev : Device σ) (log : List Exchange) (input : List Byte) :
    Triple (fun s => s.exchanges = log) (generateSha256Hash dev input)
      (fun digest s => s.exchanges = log ∧ digest = dev.sha256 input) fun _ => True := by
  rintro s same ⟨result, s'⟩ run
  unfold generateSha256Hash at run
  split at run
  · cases run
    exact ⟨same, rfl⟩
  · cases run
    trivial

theorem calculateMac_triple (frame : Frame) :
    Triple (fun s => s.exchanges = log) (calculateMac dev key frame)
      (fun mac s => s.exchanges = log ∧ ∃ k, key = some k ∧ mac = hmac dev.sha256 k frame.macMsg)
      fun _ => True := by
  cases key with
  | none =>
    intro s same x run
    cases run
    trivial
  | some k =>
    refine (alloc_triple 11).bind fun _ => (alloc_triple 12).bind fun _ => ?_
    refine (generateSha256Hash_triple dev log _).bind fun digest s inner => ?_
    have outer := generateSha256Hash_triple dev log
      (padded k 0x5c ++ digest.toList) s inner.1
    refine fun x run => (outer x run).mono (fun mac _ known => ⟨known.1, k, rfl, ?_⟩) fun _ _ => trivial
    rw [known.2, inner.2, hmac]

theorem rpmbIo_triple (kind : Kind) (isWrite : Bool) (request reqResp : Frame) :
    Triple (fun s => s.exchanges = log) (rpmbIo dev kind isWrite request reqResp)
      (fun response s => s.exchanges = log ++ [⟨kind, request, response⟩]) fun _ => True := by
  rintro s same ⟨result, s'⟩ run
  unfold rpmbIo at run
  split at run
  · cases run
    exact congrArg (· ++ _) same
  · cases run
    trivial

theorem checkResponse_ok {frame : Frame} {response : Nat}
    (ok : checkResponse frame response = .ok ()) : fromRpmbU16 frame.reqOrResp = response := by
  unfold checkResponse at ok
  split at ok
  · split at ok <;> cases ok
  · split at ok
    · cases ok
    · exact not_ne_iff.mp ‹_›

theorem compareMac_ok {frame : Frame} {mac : Vector Byte 32} (ok : compareMac frame mac = .ok ()) :
    frame.keyOrMac = mac := by
  unfold compareMac at ok
  split at ok
  · cases ok
  · exact not_ne_iff.mp ‹_›

theorem compareNonce_ok {frame : Frame} {nonce : Vector Byte 16}
    (ok : compareNonce frame nonce = .ok ()) : frame.nonce = nonce := by
  unfold compareNonce at ok
  split at ok
  · cases ok
  · exact not_ne_iff.mp ‹_›

def Checked (dev : Device σ) (key : Option (Vector Byte 32)) (e : Exchange) : Prop :=
  e.Typed ∧ ∃ k, key = some k ∧ e.Signed dev.sha256 k

theorem checkMac_triple (e : Exchange) (typed : e.Typed) {α : Type} (value : α) :
    Triple (fun s => s.exchanges = log) (do
        let mac ← calculateMac dev key e.response
        ofResult (compareMac e.response mac)
        return value)
      (fun _ s => s.exchanges = log ∧ Checked dev key e) fun _ => True := by
  refine (calculateMac_triple e.response).bind fun mac => ?_
  refine Triple.ofResultThen (fun _ _ => trivial) fun _ same => Triple.pure fun s known => ?_
  obtain ⟨logged, k, given, valid⟩ := known
  exact ⟨logged, typed, k, given, (compareMac_ok same).trans valid⟩

theorem getWriteCounter_triple (context : Bool) :
    Triple (fun s => s.exchanges = log) (rpmbGetWriteCounter dev context key)
      (fun _ s => ∃ response, s.exchanges = log ++ [⟨.getCounter, counterRequest, response⟩] ∧
        Checked dev key ⟨.getCounter, counterRequest, response⟩)
      fun _ => True := by
  have body : Triple (fun s => s.exchanges = log) (do
      let response ← rpmbIo dev .getCounter false counterRequest Frame.zero
      ofResult (checkResponse response Kind.getCounter.response)
      let mac ← calculateMac dev key response
      ofResult (compareMac response mac)
      return fromRpmbU32 response.writeCounter)
      (fun _ s => ∃ response, s.exchanges = log ++ [⟨.getCounter, counterRequest, response⟩] ∧
        Checked dev key ⟨.getCounter, counterRequest, response⟩)
      fun _ => True := by
    refine (rpmbIo_triple _ _ _ _).bind fun response => ?_
    refine Triple.ofResultThen (fun _ _ => trivial) fun _ ok => ?_
    exact (checkMac_triple ⟨.getCounter, counterRequest, response⟩ (checkResponse_ok ok) _).mono
      (fun _ => id) (fun _ _ known => ⟨response, known⟩) fun _ _ => trivial
  cases context with
  | true => exact body
  | false => exact (alloc_triple 10).bind fun _ => body

theorem rpmbRead_triple (addr buflen : Nat) :
    Triple (fun s => s.exchanges = log) (rpmbRead dev key addr buflen)
      (fun _ s => ∃ response, s.exchanges = log ++ [⟨.read, readRequest addr, response⟩] ∧
        response.nonce = rpmbNonce ∧ Checked dev key ⟨.read, readRequest addr, response⟩)
      fun _ => True := by
  refine Triple.ite (fun _ => Triple.fail fun _ _ => trivial) fun _ => ?_
  refine Triple.ite (fun _ => Triple.fail fun _ _ => trivial) fun _ => ?_
  refine (rpmbIo_triple _ _ _ _).bind fun response => ?_
  refine Triple.ofResultThen (fun _ _ => trivial) fun _ typed => ?_
  refine Triple.ofResultThen (fun _ _ => trivial) fun _ repeated => ?_
  exact (checkMac_triple ⟨.read, readRequest addr, response⟩ (checkResponse_ok typed) _).mono
    (fun _ => id) (fun _ _ known => ⟨response, known.1, compareNonce_ok repeated, known.2⟩)
    fun _ _ => trivial

theorem rpmbWrite_triple (addr : Nat) (buf : List Byte) :
    Triple (fun s => s.exchanges = log) (rpmbWrite dev key addr buf)
      (fun _ s => ∃ first request response,
        s.exchanges = log ++ [⟨.getCounter, counterRequest, first⟩, ⟨.write, request, response⟩] ∧
          Checked dev key ⟨.getCounter, counterRequest, first⟩ ∧
          (⟨.write, request, response⟩ : Exchange).Typed)
      fun _ => True := by
  refine Triple.ite (fun _ => Triple.fail fun _ _ => trivial) fun _ => ?_
  refine Triple.ite (fun _ => Triple.fail fun _ _ => trivial) fun _ => ?_
  refine (getWriteCounter_triple true).bind fun counter s known => ?_
  obtain ⟨first, logged, checked⟩ := known
  have rest : Triple (fun s => s.exchanges = log ++ [⟨.getCounter, counterRequest, first⟩]) (do
      let mac ← calculateMac dev key (writeRequest counter addr buf)
      let response ← rpmbIo dev .write true { writeRequest counter addr buf with keyOrMac := mac }
        resultRequest
      ofResult (checkResponse response Kind.write.response))
      (fun _ s => ∃ request response,
        s.exchanges = log ++ [⟨.getCounter, counterRequest, first⟩, ⟨.write, request, response⟩] ∧
          (⟨.write, request, response⟩ : Exchange).Typed) fun _ => True := by
    have signed : Triple (fun s => s.exchanges = log ++ [⟨.getCounter, counterRequest, first⟩])
        (calculateMac dev key (writeRequest counter addr buf))
        (fun _ s => s.exchanges = log ++ [⟨.getCounter, counterRequest, first⟩]) fun _ => True :=
      (calculateMac_triple _).weaken (fun _ _ known => known.1)
    refine signed.bind fun mac => (rpmbIo_triple _ _ _ _).bind fun response => ?_
    rintro s logged x run
    cases run
    cases ok : checkResponse response Kind.write.response with
    | ok _ => exact ⟨_, response, logged.trans (List.append_assoc ..), checkResponse_ok ok⟩
    | error _ => trivial
  refine fun x run => (rest s logged x run).mono (fun _ _ known => ?_) fun _ => id
  obtain ⟨request, response, all, typed⟩ := known
  exact ⟨first, request, response, all, checked, typed⟩

end Checks

/-! ### Authentic responses and the checks -/

/-- **The responses of a call without an error are authentic exactly when** every counter has the
nonce of its request and every result of a write has a valid MAC. -/
theorem accepted_authentic_iff {σ : Type} (dev : Device σ) (key : Option (Vector Byte 32))
    (call : Call) (s s' : Access σ) (ok : call.run dev key s = some (.ok (), s')) :
    ∃ k exchanges, key = some k ∧ s'.exchanges = s.exchanges ++ exchanges ∧
      exchanges.map Exchange.kind = call.kinds ∧
      ((∀ e ∈ exchanges, e.Authentic dev.sha256 k) ↔
        ∀ e ∈ exchanges, (e.kind = .getCounter → e.Repeats) ∧
          (e.kind = .write → e.Signed dev.sha256 k)) := by
  cases call with
  | getWriteCounter context =>
    obtain ⟨counter, mid, ran, done⟩ := Prog.bind_eq_ok ok
    cases done
    obtain ⟨response, logged, typed, k, given, signed⟩ :=
      getWriteCounter_triple context s rfl _ ran
    refine ⟨k, _, given, logged, rfl, fun authentic e member => ?_, fun fresh e member => ?_⟩
    · obtain rfl := List.mem_singleton.mp member
      exact ⟨fun _ => (authentic _ member).nonce nofun, nofun⟩
    · obtain rfl := List.mem_singleton.mp member
      exact ⟨typed, signed, fun _ => (fresh _ member).1 rfl⟩
  | read addr buflen =>
    obtain ⟨data, mid, ran, done⟩ := Prog.bind_eq_ok ok
    cases done
    obtain ⟨response, logged, nonce, typed, k, given, signed⟩ :=
      rpmbRead_triple addr buflen s rfl _ ran
    refine ⟨k, _, given, logged, rfl, fun _ e member => ?_, fun _ e member => ?_⟩
    · obtain rfl := List.mem_singleton.mp member
      exact ⟨nofun, nofun⟩
    · obtain rfl := List.mem_singleton.mp member
      exact ⟨typed, signed, fun _ => nonce⟩
  | write addr buf =>
    obtain ⟨first, request, response, logged, ⟨typed, k, given, signed⟩, typed'⟩ :=
      rpmbWrite_triple addr buf s rfl _ ok
    refine ⟨k, _, given, logged, rfl, fun authentic e member => ?_, fun fresh e member => ?_⟩
    · exact ⟨fun counter => (authentic e member).nonce (counter ▸ nofun),
        fun _ => (authentic e member).signed⟩
    · rcases List.mem_cons.mp member with rfl | last
      · exact ⟨typed, signed, fun _ => (fresh _ member).1 rfl⟩
      · obtain rfl := List.mem_singleton.mp last
        exact ⟨typed', (fresh _ member).2 rfl, fun other => absurd rfl other⟩

/-! ### Samples -/

def onesHash (_ : List Byte) : Vector Byte 32 := Vector.replicate 32 1

def scripted : Device (List Frame) where
  rpmbIo _ _ _ frames := (.ok (frames.headD Frame.zero), frames.tail)
  alloc frames := (true, frames)
  hashFault frames := (none, frames)
  sha256 := onesHash

def counterResponse (nonce : Vector Byte 16) : Frame :=
  { Frame.zero with
    keyOrMac := Vector.replicate 32 1, nonce := nonce, reqOrResp := toRpmbU16 0x0200 }

def sampleKey : Vector Byte 32 := Vector.replicate 32 9

def afterCall (call : Call) (frames : List Frame) : Access (List Frame) :=
  ((call.run scripted (some sampleKey) ⟨frames, []⟩).map Prod.snd).getD ⟨frames, []⟩

theorem counter_authentic :
    (Call.getWriteCounter true).run scripted (some sampleKey) ⟨[counterResponse rpmbNonce], []⟩ =
        some (.ok (), afterCall (.getWriteCounter true) [counterResponse rpmbNonce]) ∧
      ∃ k exchanges, some sampleKey = some k ∧
        (afterCall (.getWriteCounter true) [counterResponse rpmbNonce]).exchanges = [] ++ exchanges ∧
        exchanges.map Exchange.kind = (Call.getWriteCounter true).kinds ∧
        ((∀ e ∈ exchanges, e.Authentic onesHash k) ↔
          ∀ e ∈ exchanges, (e.kind = .getCounter → e.Repeats) ∧
            (e.kind = .write → e.Signed onesHash k)) :=
  ⟨rfl, accepted_authentic_iff scripted (some sampleKey) (.getWriteCounter true)
    ⟨[counterResponse rpmbNonce], []⟩ _ rfl⟩

def forgedFrames : List Frame :=
  [counterResponse (Vector.replicate 16 0), { Frame.zero with reqOrResp := toRpmbU16 0x0300 }]

/-- A write accepts both. -/
theorem forged_write_accepted :
    ((Call.write 0 [5]).run scripted (some sampleKey) ⟨forgedFrames, []⟩).map (fun out =>
        (out.1.isOk, out.2.exchanges.map fun e =>
          (e.kind, decide e.Repeats, decide (e.Signed onesHash sampleKey)))) =
      some (true, [(.getCounter, false, true), (.write, true, false)]) := by
  decide +kernel

end Cboot.Rpmb
