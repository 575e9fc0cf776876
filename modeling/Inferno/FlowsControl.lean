import Inferno.FlowsTransmitter

/-!
# The flows control server

`flows_control_server::run_server`: datagrams that request, stop and update
flows, and the operations of `FlowsTransmitter` they lead to. A panic of the
server task is `none`.
-/

namespace Inferno

/-! ## Reading datagrams -/

/-- `make_u16(b[i], b[i + 1])`; the callers check the length first. -/
def u16At (b : List Byte) (i : Nat) : BitVec 16 := b.getD i 0 ++ b.getD (i + 1) 0

/-- `u32::from_be_bytes(b[i..i + 4])`. -/
def u32At (b : List Byte) (i : Nat) : BitVec 32 :=
  fromBeBytes (b.getD i 0) (b.getD (i + 1) 0) (b.getD (i + 2) 0) (b.getD (i + 3) 0)

/-- `str::from_utf8`. -/
def fromUtf8 (b : List Byte) : Option String :=
  String.fromUTF8? (ByteArray.mk (b.map UInt8.ofBitVec).toArray)

/-- `read_0term_str_from_buffer`. Without a terminator the length of the whole
buffer is taken for the position, which is out of range unless the offset is
zero: the outer `none`, a panic. -/
def read0termStrFromBuffer (buffer : List Byte) (offset : Nat) : Option (Option String) :=
  if offset ≥ buffer.length then some none
  else
    let tail := buffer.drop offset
    let ntpos := match tail.findIdx? (· = 0) with
      | some x => x
      | none => buffer.length
    if ntpos ≤ tail.length then some (fromUtf8 (tail.take ntpos)) else none

/-- The channel ids from position `i` on. -/
def channelIds (c : List Byte) (i numChannels : Nat) : List (Option Nat) :=
  (List.range numChannels).map fun k =>
    let id := u16At c (i + k * 2)
    if id = 0 then none else some (id.toNat - 1)

def HEADER_LENGTH : Nat := 10

/-- What `DeviceInfo` has of interest here. -/
structure DeviceInfo where
  sampleRate : BitVec 32
  txChannels : Nat

/-- An answer: the header fields it echoes, its code and its content. -/
structure Response where
  startCode : BitVec 16
  seqnum : BitVec 16
  opcode1 : BitVec 16
  opcode2 : BitVec 16
  content : List Byte
deriving DecidableEq

/-- `respond_with_code`. -/
def respondWithCode (request : List Byte) (opcode2 : BitVec 16) (content : List Byte) : Response :=
  ⟨u16At request 0, u16At request 4, u16At request 6, opcode2, content⟩

/-- `respond`. -/
def respond (request : List Byte) (content : List Byte) : Response :=
  respondWithCode request 1 content

/-- What is read from a datagram: the task panics, or the loop goes on to the
next one, or there is something to do; the answers already given. -/
inductive Parsed (A : Type) where
  | panic
  | skip (answers : List Response)
  | act (answers : List Response) (a : A)

/-- The arguments of `add_flow`. -/
structure FlowRequest where
  info : FlowInfo
  fpp : Nat
  bytesPerSample : Nat

/-- The last checks of a request. A channel number that is too large is
answered, but the request goes on. -/
def checkRequest (selfInfo : DeviceInfo) (request : List Byte) (sampleRate : BitVec 32)
    (r : FlowRequest) : Parsed FlowRequest :=
  let answers := if r.info.localChannelIndices.any (·.any (selfInfo.txChannels ≤ ·))
    then [respondWithCode request 0x0302 []] else []
  if sampleRate ≠ selfInfo.sampleRate then
    .skip (answers ++ [respondWithCode request 0x0301 []])
  else if r.fpp > FPP_MAX then .skip (answers ++ [respondWithCode request 0x0302 []])
  else .act answers r

/-- The request flow datagram. -/
def parseRequest (selfInfo : DeviceInfo) (request : List Byte) : Parsed FlowRequest :=
  let c := request.drop HEADER_LENGTH
  if c.length < 16 then .skip []
  else
    let hostnameOffset := (u16At c 0).toNat
    let sampleRate := u32At c 2
    let bitsPerSample := u32At c 6
    let numChannels := u16At c 12
    let remoteDescrOffset := (u16At c 14).toNat
    let refuse := Parsed.skip [respondWithCode request 0x0302 []]
    if c.length < 16 + numChannels.toNat * 2 + 6 + 4 then refuse
    else
      let channelIndices := channelIds c 16 numChannels.toNat
      let offset := (16 + numChannels * 2 + 6).toNat
      let fpp := (u16At c offset).toNat
      let rxFlowNameOffset := (u16At c (offset + 2)).toNat
      match read0termStrFromBuffer request hostnameOffset with
      | none => .panic
      | some none => refuse
      | some (some hostname) =>
          match read0termStrFromBuffer request rxFlowNameOffset with
          | none => .panic
          | some none => refuse
          | some (some rxFlowName) =>
              if request.length < remoteDescrOffset + 8 then refuse
              else
                let info : FlowInfo := {
                  rxHostname := some hostname
                  rxFlowName := some rxFlowName
                  dstAddr := u32At request (remoteDescrOffset + 4)
                  dstPort := u16At request (remoteDescrOffset + 2)
                  localChannelIndices := channelIndices }
                checkRequest selfInfo request sampleRate ⟨info, fpp, bitsPerSample.toNat / 8⟩

/-- The stop flow datagram: exactly a handle. -/
def parseStop (request : List Byte) : Parsed FlowHandle :=
  let c := request.drop HEADER_LENGTH
  if c.length = 6 then .act [] c else .skip [respondWithCode request 0x0302 []]

/-- The update flow datagram. -/
def parseUpdate (request : List Byte) : Parsed (FlowHandle × List (Option Nat)) :=
  let c := request.drop HEADER_LENGTH
  if c.length < 8 then .skip [respondWithCode request 0x0302 []]
  else
    let numChannels := (u16At c 6).toNat
    if c.length < 8 + numChannels * 2 then .skip [respondWithCode request 0x0302 []]
    else .act [] (c.take 6, channelIds c 8 numChannels)

/-! ## Serving them -/

/-- Does what a datagram asks for, unless the loop has gone on. -/
def Parsed.serve {A : Type} (tx : FlowsTransmitter)
    (f : A → Option (FlowsTransmitter × Response)) :
    Parsed A → Option (FlowsTransmitter × List Response)
  | .panic => none
  | .skip answers => some (tx, answers)
  | .act answers a => do
      let (tx, answer) ← f a
      some (tx, answers ++ [answer])

/-- One datagram: the answers to it, in order. -/
def handleDatagram (selfInfo : DeviceInfo) (env : AddFlowEnv) (request : List Byte)
    (tx : FlowsTransmitter) : Option (FlowsTransmitter × List Response) :=
  if request.length < HEADER_LENGTH then some (tx, [])
  else if u16At request 8 ≠ 0 then some (tx, [])
  else if u16At request 6 = 0x0100 then
    (parseRequest selfInfo request).serve tx fun r => do
      let (tx, result) ← tx.addFlow r.info r.fpp r.bytesPerSample none false env
      match result with
      | .ok (_, handle) => some (tx, respond request handle)
      | .error _ => some (tx, respondWithCode request 0x0315 [])
  else if u16At request 6 = 0x0101 then
    (parseStop request).serve tx fun handle => do
      let (tx, result) ← tx.removeFlow handle
      match result with
      | .ok _ => some (tx, respond request [])
      | .error _ => some (tx, respondWithCode request 0x0103 [])
  else if u16At request 6 = 0x0102 then
    (parseUpdate request).serve tx fun (handle, channelIndices) => do
      let (tx, result) ← tx.setChannels handle channelIndices
      match result with
      | .ok _ => some (tx, respond request [])
      | .error _ => some (tx, respondWithCode request 0x0103 [])
  else some (tx, [])

/-! ## What a datagram grants -/

open FlowsTransmitter

/-- What a datagram grants fits: a new flow has samples and its packets fit,
channels set in a flow there is already fit that flow. -/
structure Grants (selfInfo : DeviceInfo) (p : Nat → Option FlowFormat) (tx : FlowsTransmitter)
    (request : List Byte) : Prop where
  add : u16At request 6 = 0x0100 → ∀ answers r,
    parseRequest selfInfo request = .act answers r → AddFits p tx r.info r.fpp r.bytesPerSample
  set : u16At request 6 = 0x0102 → ∀ answers handle chs,
    parseUpdate request = .act answers (handle, chs) → SetFits p tx handle chs

/-- A property of what there is to do. -/
def Parsed.All {A : Type} (q : A → Prop) : Parsed A → Prop
  | .act _ a => q a
  | _ => True

instance {A : Type} (q : A → Prop) [DecidablePred q] : (x : Parsed A) → Decidable (x.All q)
  | .act _ a => inferInstanceAs (Decidable (q a))
  | .skip _ => isTrue trivial
  | .panic => isTrue trivial

instance (selfInfo : DeviceInfo) (p : Nat → Option FlowFormat) (tx : FlowsTransmitter)
    (request : List Byte) : Decidable (Grants selfInfo p tx request) :=
  decidable_of_iff
    ((u16At request 6 = 0x0100 →
      (parseRequest selfInfo request).All fun r => AddFits p tx r.info r.fpp r.bytesPerSample) ∧
    (u16At request 6 = 0x0102 → (parseUpdate request).All fun a => SetFits p tx a.1 a.2))
    (by
      refine ⟨fun ⟨h1, h2⟩ => ⟨fun hop answers r hparse => ?_,
          fun hop answers handle chs hparse => ?_⟩,
        fun ⟨h1, h2⟩ => ⟨fun hop => ?_, fun hop => ?_⟩⟩
      · have h := h1 hop
        rw [hparse] at h
        exact h
      · have h := h2 hop
        rw [hparse] at h
        exact h
      · cases hparse : parseRequest selfInfo request with
        | act answers r => exact h1 hop answers r hparse
        | _ => exact trivial
      · cases hparse : parseUpdate request with
        | act answers a => exact h2 hop answers a.1 a.2 hparse
        | _ => exact trivial)

section

variable {p : Nat → Option FlowFormat} {tx : FlowsTransmitter}

theorem Parsed.serve_consistent {A : Type} {f : A → Option (FlowsTransmitter × Response)}
    (h : tx.Consistent p) {parsed : Parsed A}
    (hf : ∀ answers a, parsed = .act answers a → ∃ tx' r, f a = some (tx', r) ∧ tx'.Consistent p)
    {tx' : FlowsTransmitter} {out : List Response} (hrun : parsed.serve tx f = some (tx', out)) :
    tx'.Consistent p := by
  cases parsed with
  | panic => cases hrun
  | skip answers =>
      cases hrun
      exact h
  | act answers a =>
      obtain ⟨tx₁, r, hfa, h₁⟩ := hf answers a rfl
      simp only [Parsed.serve, hfa, Option.bind_eq_bind, Option.bind_some] at hrun
      cases hrun
      exact h₁

/-- A datagram that is served leaves everything consistent, if what it grants
fits. -/
theorem handleDatagram_consistent (h : tx.Consistent p) {selfInfo : DeviceInfo}
    {request : List Byte} (hfits : Grants selfInfo p tx request) {env : AddFlowEnv}
    {tx' : FlowsTransmitter} {out : List Response}
    (hrun : handleDatagram selfInfo env request tx = some (tx', out)) : tx'.Consistent p := by
  unfold handleDatagram at hrun
  split at hrun
  · cases hrun
    exact h
  split at hrun
  · cases hrun
    exact h
  split at hrun
  · next hop =>
      refine Parsed.serve_consistent h (fun answers r hparse => ?_) hrun
      obtain ⟨tx₁, result, hadd, h₁⟩ := h.addFlow (hfits.add hop answers r hparse) false env
      simp only [hadd, Option.bind_eq_bind, Option.bind_some]
      rcases result with _ | ⟨_, _⟩ <;> exact ⟨_, _, rfl, h₁⟩
  split at hrun
  · refine Parsed.serve_consistent h (fun answers handle _ => ?_) hrun
    obtain ⟨tx₁, result, hremove, h₁⟩ := h.removeFlow handle
    simp only [hremove, Option.bind_eq_bind, Option.bind_some]
    cases result <;> exact ⟨_, _, rfl, h₁⟩
  split at hrun
  · next hop =>
      refine Parsed.serve_consistent h (fun answers a hparse => ?_) hrun
      obtain ⟨handle, chs⟩ := a
      obtain ⟨tx₁, result, hset, h₁⟩ := h.setChannels (hfits.set hop answers handle chs hparse)
      simp only [hset, Option.bind_eq_bind, Option.bind_some]
      cases result <;> exact ⟨_, _, rfl, h₁⟩
  · cases hrun
    exact h

end

end Inferno
