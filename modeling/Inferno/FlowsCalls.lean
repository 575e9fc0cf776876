import Inferno.FlowsAnswers
import Inferno.FlowsRequest
import Inferno.TxFlags
import Inferno.Lib.RequestReply

/-!
# Calls to the flows control server

`FlowsControlClient` with `send_and_wait_for_reply`, and the servers it calls, over
a network that loses, repeats and reorders datagrams (`RequestReply`). Replies are
told apart by a sequence number of sixteen bits and an opcode. What a call that
succeeded asked for was done after the call was made, by the server it asked, unless
it took the answer to an earlier one, a multiple of `2 ^ 16` calls before
(`succeeded_was_done`). A request that comes again makes no second flow, but undoes
what was updated since (`repeated_request`).
-/

namespace Inferno

open ByteBuffer FlowsTransmitter

/-! ## The client -/

/-- What is asked for: `request_flow`, `update_flow`, `stop_flow`. -/
inductive FlowCall where
  | request (a : FlowRequestArgs)
  | update (handle : Vector Byte 6) (channels : List (Option (BitVec 16)))
  | stop (handle : Vector Byte 6)

inductive FlowCallResult where
  | handle (h : FlowHandle)
  | done
deriving DecidableEq

/-- The errors of a call; `io` is one of the socket or of the clock. -/
inductive FlowCallError where
  | packet
  | unexpectedEof
  | invalidData
  | io
deriving DecidableEq

namespace FlowCall

def opcode1 : FlowCall → BitVec 16
  | request _ => 0x0100
  | stop _ => 0x0101
  | update _ _ => 0x0102

/-- `seqnum.fetch_add(1)`: it starts at 1. -/
def seqnum (number : Nat) : BitVec 16 := BitVec.ofNat 16 (number + 1)

/-- The datagram that is sent. -/
def datagram (self : RequestingDevice) (number : Nat) : FlowCall → Option (List Byte)
  | request a => FlowsControlClient.requestFlow self (seqnum number) a
  | update handle channels =>
      FlowsControlClient.updateFlow (seqnum number) handle.toList channels
  | stop handle => FlowsControlClient.stopFlow (seqnum number) handle.toList

/-- What becomes of the content of a reply. -/
def result (content : List Byte) : FlowCall → Except FlowCallError FlowCallResult
  | request _ => if content.length < 6 then .error .unexpectedEof else .ok (.handle (content.take 6))
  | _ => .ok .done

/-- A datagram `send_and_wait_for_reply` receives; on a spurious one it waits for
the next. -/
def receive (number : Nat) (c : FlowCall) (datagram : List Byte) :
    Option (Except FlowCallError FlowCallResult) :=
  let recv := datagram.take MTU
  if recv.length < HEADER_LENGTH then some (.error .unexpectedEof)
  else if u16At recv 6 = c.opcode1 ∧ u16At recv 4 = seqnum number then
    if u16At recv 8 = 1 then some (c.result (recv.drop HEADER_LENGTH))
    else some (.error .invalidData)
  else none

end FlowCall

/-! ## The server -/

/-- What was answered before there was something to do. -/
def Parsed.answers {A : Type} : Parsed A → List Response
  | .panic => []
  | .skip answers => answers
  | .act answers _ => answers

def Parsed.map {A B : Type} (f : A → B) : Parsed A → Parsed B
  | .panic => .panic
  | .skip answers => .skip answers
  | .act answers a => .act answers (f a)

/-- The call that `handleDatagram` comes to. -/
def datagramCall (selfInfo : DeviceInfo) (env : AddFlowEnv) (request : List Byte) :
    Parsed TxCall :=
  if request.length < HEADER_LENGTH then .skip []
  else if u16At request 8 ≠ 0 then .skip []
  else if u16At request 6 = 0x0100 then
    (parseRequest selfInfo request).map fun r =>
      .addFlow r.info r.fpp r.bytesPerSample none false env
  else if u16At request 6 = 0x0101 then (parseStop request).map .removeFlow
  else if u16At request 6 = 0x0102 then
    (parseUpdate request).map fun (handle, channelIndices) => .setChannels handle channelIndices
  else .skip []

/-- The transmitter after it, also if it panics. -/
def Parsed.leaves (tx : FlowsTransmitter) : Parsed TxCall → FlowsTransmitter
  | .act _ c => c.leaves tx
  | _ => tx

/-- `Connection::send`: an answer that makes no packet is not sent. -/
def Response.packet (r : Response) : Option (List Byte) :=
  (makePacket MTU r.startCode r.seqnum r.opcode1 r.opcode2 r.content).toOption

/-- A transmitter with the task of its flows control server. -/
structure FlowsServer where
  selfInfo : DeviceInfo
  tables : TxTables
  up : Bool

namespace FlowsServer

def start (selfInfo : DeviceInfo) (flags : Flag → Bool) : FlowsServer where
  selfInfo := selfInfo
  tables := .start flags
  up := true

def tx (s : FlowsServer) : FlowsTransmitter := s.tables.tx

def withTx (s : FlowsServer) (tx : FlowsTransmitter) : FlowsServer :=
  { s with tables := { s.tables with tx := tx } }

/-- One datagram. A panic ends the task, in the middle of the call. -/
def serve (s : FlowsServer) (env : AddFlowEnv) (request : List Byte) :
    FlowsServer × List (List Byte) :=
  if s.up then
    match handleDatagram s.selfInfo env request s.tx with
    | some (tx, answers) => (s.withTx tx, answers.filterMap Response.packet)
    | none =>
        let parsed := datagramCall s.selfInfo env request
        ({ s.withTx (parsed.leaves s.tx) with up := false },
          parsed.answers.filterMap Response.packet)
  else (s, [])

/-- What the rest of the device does with the transmitter. -/
def other (s : FlowsServer) (e : TxTablesEvent) : FlowsServer :=
  { s with tables := s.tables.step s.selfInfo.sampleRate e }

end FlowsServer

/-- The calls of one client, which is all that a host has. -/
def flowsControl (self : RequestingDevice) :
    RequestReply.Protocol FlowCall (List Byte) (List Byte) FlowCallError FlowCallResult FlowsServer
      AddFlowEnv TxTablesEvent where
  build := fun number c =>
    match c.datagram self number with
    | some packet => .ok packet
    | none => .error .packet
  judge := fun number c => c.receive number
  serve := FlowsServer.serve
  other := FlowsServer.other

/-- A world of flows control: the callers' ports are those of their host. -/
abbrev FlowCalls := RequestReply.World SocketAddr SocketAddr FlowCall (List Byte) FlowCallError
  FlowCallResult FlowsServer AddFlowEnv

abbrev FlowCallsEvent := RequestReply.Event SocketAddr SocketAddr FlowCall (List Byte)
  FlowCallError AddFlowEnv TxTablesEvent

def FlowCalls.run (self : RequestingDevice) (servers : SocketAddr → DeviceInfo)
    (flags : SocketAddr → Flag → Bool) (events : List FlowCallsEvent) : FlowCalls :=
  RequestReply.World.run (flowsControl self) (fun port => port.ip = self.ipAddress)
    (.start fun peer => .start (servers peer) (flags peer)) events

/-! ## Header fields -/

theorem u16At_take {b : List Byte} {n i : Nat} (h : i + 1 < n) : u16At (b.take n) i = u16At b i := by
  unfold u16At
  rw [List.getD_eq_getElem?_getD, List.getD_eq_getElem?_getD, List.getD_eq_getElem?_getD,
    List.getD_eq_getElem?_getD, List.getElem?_take_of_lt (by omega), List.getElem?_take_of_lt h]

theorem makePacket_seqnum {bufLen : Nat} {startCode seqnum opcode1 opcode2 : BitVec 16}
    {content packet : List Byte}
    (h : (makePacket bufLen startCode seqnum opcode1 opcode2 content).toOption = some packet) :
    u16At packet 4 = seqnum := by
  unfold makePacket at h
  dsimp only at h
  split at h
  · cases h
  split at h
  · cases h
  cases h
  exact word16_be16 seqnum (be16 opcode1 ++ (be16 opcode2 ++ content))

/-- A datagram carries the number and the kind of its call. -/
theorem datagram_fields {self : RequestingDevice} {number : Nat} {c : FlowCall}
    {packet : List Byte} (h : c.datagram self number = some packet) :
    HEADER_LENGTH ≤ packet.length ∧ u16At packet 4 = FlowCall.seqnum number ∧
      u16At packet 6 = c.opcode1 ∧ u16At packet 8 = 0 := by
  cases c with
  | request a =>
      obtain ⟨content, _, hmake⟩ := Option.bind_eq_some_iff.mp h
      obtain ⟨_, _, hlen, hop1, hop2, _⟩ := makePacket_toOption hmake
      exact ⟨hlen, makePacket_seqnum hmake, hop1, hop2⟩
  | update handle channels =>
      obtain ⟨_, _, hlen, hop1, hop2, _⟩ := makePacket_toOption h
      exact ⟨hlen, makePacket_seqnum h, hop1, hop2⟩
  | stop handle =>
      obtain ⟨_, _, hlen, hop1, hop2, _⟩ := makePacket_toOption h
      exact ⟨hlen, makePacket_seqnum h, hop1, hop2⟩

theorem packet_fields {r : Response} {packet : List Byte} (h : r.packet = some packet) :
    packet.take MTU = packet ∧ HEADER_LENGTH ≤ packet.length ∧ u16At packet 4 = r.seqnum ∧
      u16At packet 6 = r.opcode1 ∧ u16At packet 8 = r.opcode2 ∧
      packet.drop HEADER_LENGTH = r.content := by
  obtain ⟨hmtu, _, hlen, hop1, hop2, hcontent⟩ := makePacket_toOption h
  refine ⟨List.take_of_length_le ?_, hlen, makePacket_seqnum h, hop1, hop2, hcontent⟩
  rw [← hcontent, List.length_drop] at hmtu
  omega

/-- A reply ends the call it is for, and no other. -/
theorem receive_packet {r : Response} {packet : List Byte} (h : r.packet = some packet)
    (number : Nat) (c : FlowCall) : c.receive number packet =
      if r.opcode1 = c.opcode1 ∧ r.seqnum = FlowCall.seqnum number then
        if r.opcode2 = 1 then some (c.result r.content) else some (.error .invalidData)
      else none := by
  obtain ⟨hmtu, hlen, hseq, hop1, hop2, hcontent⟩ := packet_fields h
  unfold FlowCall.receive
  dsimp only
  rw [hmtu, if_neg (Nat.not_lt.mpr hlen), hop1, hseq, hop2, hcontent]

/-! ## What is answered -/

/-- An answer, its codes echoed from the datagram. -/
def Echoes (request : List Byte) (r : Response) : Prop :=
  r.seqnum = u16At request 4 ∧ r.opcode1 = u16At request 6

theorem echoes_respondWithCode (request : List Byte) (code : BitVec 16) (content : List Byte) :
    Echoes request (respondWithCode request code content) := ⟨rfl, rfl⟩

/-- Each answer before anything is done is an error. -/
def Refuses (request : List Byte) (r : Response) : Prop := Echoes request r ∧ r.opcode2 ≠ 1

theorem refuses_respondWithCode (request : List Byte) {code : BitVec 16} (hcode : code ≠ 1) :
    Refuses request (respondWithCode request code []) := ⟨⟨rfl, rfl⟩, hcode⟩

theorem checkRequest_refuses (selfInfo : DeviceInfo) (request : List Byte)
    (sampleRate : BitVec 32) (r : FlowRequest) :
    ∀ a ∈ (checkRequest selfInfo request sampleRate r).answers, Refuses request a := by
  have hlarge : ∀ a ∈ (if r.info.localChannelIndices.any (·.any (selfInfo.txChannels ≤ ·))
      then [respondWithCode request 0x0302 []] else []), Refuses request a := by
    intro a ha
    split at ha
    · rw [List.mem_singleton] at ha
      rw [ha]
      exact refuses_respondWithCode request (by decide)
    · cases ha
  unfold checkRequest
  intro a ha
  dsimp only at ha
  split at ha
  · rcases List.mem_append.mp ha with ha | ha
    · exact hlarge a ha
    · rw [List.mem_singleton] at ha
      rw [ha]
      exact refuses_respondWithCode request (by decide)
  split at ha
  · rcases List.mem_append.mp ha with ha | ha
    · exact hlarge a ha
    · rw [List.mem_singleton] at ha
      rw [ha]
      exact refuses_respondWithCode request (by decide)
  · exact hlarge a ha

theorem parseRequest_refuses (selfInfo : DeviceInfo) (request : List Byte) :
    ∀ a ∈ (parseRequest selfInfo request).answers, Refuses request a := by
  by_cases hfixed : 16 ≤ (request.drop HEADER_LENGTH).length
  · rcases parseRequest_cases selfInfo hfixed with ⟨_, heq⟩ | ⟨_, _, heq⟩ |
      ⟨_, _, r, _, _, _, heq⟩
    · rw [heq]
      exact fun a ha => by cases ha
    · rw [heq]
      intro a ha
      rw [List.mem_singleton.mp ha]
      exact refuses_respondWithCode request (by decide)
    · rw [heq]
      exact checkRequest_refuses selfInfo request _ r
  · unfold parseRequest
    dsimp only
    rw [if_pos (Nat.not_le.mp hfixed)]
    exact fun a ha => by cases ha

theorem parseStop_refuses (request : List Byte) :
    ∀ a ∈ (parseStop request).answers, Refuses request a := by
  unfold parseStop
  dsimp only
  split
  · exact fun a ha => by cases ha
  · intro a ha
    rw [List.mem_singleton.mp ha]
    exact refuses_respondWithCode request (by decide)

theorem parseUpdate_refuses (request : List Byte) :
    ∀ a ∈ (parseUpdate request).answers, Refuses request a := by
  unfold parseUpdate
  dsimp only
  split
  · intro a ha
    rw [List.mem_singleton.mp ha]
    exact refuses_respondWithCode request (by decide)
  split
  · intro a ha
    rw [List.mem_singleton.mp ha]
    exact refuses_respondWithCode request (by decide)
  · exact fun a ha => by cases ha

/-- What was done before a datagram was answered with success. -/
inductive Acknowledged (selfInfo : DeviceInfo) (env : AddFlowEnv) (request : List Byte)
    (tx tx' : FlowsTransmitter) : List Byte → Prop where
  | request {answers : List Response} {r : FlowRequest} {id : Nat} {handle : FlowHandle}
      (hop : u16At request 6 = 0x0100) (hparse : parseRequest selfInfo request = .act answers r)
      (hadd : tx.addFlow r.info r.fpp r.bytesPerSample none false env =
        some (tx', .ok (id, handle))) : Acknowledged selfInfo env request tx tx' handle
  | stop {handle : FlowHandle} {id : Nat} (hop : u16At request 6 = 0x0101)
      (hparse : parseStop request = .act [] handle)
      (hremove : tx.removeFlow handle = some (tx', .ok id)) :
      Acknowledged selfInfo env request tx tx' []
  | update {handle : FlowHandle} {chs : List (Option Nat)} {id : Nat}
      (hop : u16At request 6 = 0x0102) (hparse : parseUpdate request = .act [] (handle, chs))
      (hset : tx.setChannels handle chs = some (tx', .ok id)) :
      Acknowledged selfInfo env request tx tx' []

theorem parseStop_act {request : List Byte} {answers : List Response} {handle : FlowHandle}
    (h : parseStop request = .act answers handle) : answers = [] := by
  unfold parseStop at h
  dsimp only at h
  split at h <;> cases h
  rfl

theorem parseUpdate_act {request : List Byte} {answers : List Response}
    {a : FlowHandle × List (Option Nat)} (h : parseUpdate request = .act answers a) :
    answers = [] := by
  unfold parseUpdate at h
  dsimp only at h
  split at h
  · cases h
  split at h <;> cases h
  rfl

/-- The answers to what is served: those from reading it, then that of the call. -/
theorem mem_serve {A : Type} {tx tx' : FlowsTransmitter}
    {f : A → Option (FlowsTransmitter × Response)} {parsed : Parsed A} {out : List Response}
    (hrun : parsed.serve tx f = some (tx', out)) {r : Response} (hr : r ∈ out) :
    r ∈ parsed.answers ∨ ∃ answers a, parsed = .act answers a ∧ f a = some (tx', r) := by
  cases parsed with
  | panic => cases hrun
  | skip answers =>
      cases hrun
      exact Or.inl hr
  | act answers a =>
      obtain ⟨⟨tx₁, answer⟩, hf, hrest⟩ := Option.bind_eq_some_iff.mp hrun
      cases hrest
      rcases List.mem_append.mp hr with hr | hr
      · exact Or.inl hr
      · rw [List.mem_singleton.mp hr]
        exact Or.inr ⟨answers, a, rfl, hf⟩

/-- Every answer echoes the datagram; success means that something was done. -/
theorem mem_handleDatagram {selfInfo : DeviceInfo} {env : AddFlowEnv} {request : List Byte}
    {tx tx' : FlowsTransmitter} {out : List Response}
    (hrun : handleDatagram selfInfo env request tx = some (tx', out)) {r : Response}
    (hr : r ∈ out) : Echoes request r ∧
      (r.opcode2 = 1 → Acknowledged selfInfo env request tx tx' r.content) := by
  unfold handleDatagram at hrun
  split at hrun
  · cases hrun
    cases hr
  split at hrun
  · cases hrun
    cases hr
  split at hrun
  · next hop =>
      rcases mem_serve hrun hr with hr | ⟨answers, a, hparse, hf⟩
      · obtain ⟨hecho, hcode⟩ := parseRequest_refuses selfInfo request r hr
        exact ⟨hecho, fun h => absurd h hcode⟩
      · obtain ⟨⟨tx₁, result⟩, hadd, hf⟩ := Option.bind_eq_some_iff.mp hf
        cases result with
        | ok granted =>
            cases hf
            exact ⟨echoes_respondWithCode _ _ _, fun _ => .request hop hparse hadd⟩
        | error e =>
            cases hf
            have hcode : (0x0315 : BitVec 16) ≠ 1 := by decide
            exact ⟨echoes_respondWithCode _ _ _, fun h => absurd h hcode⟩
  split at hrun
  · next hop =>
      rcases mem_serve hrun hr with hr | ⟨answers, a, hparse, hf⟩
      · obtain ⟨hecho, hcode⟩ := parseStop_refuses request r hr
        exact ⟨hecho, fun h => absurd h hcode⟩
      · obtain ⟨⟨tx₁, result⟩, hremove, hf⟩ := Option.bind_eq_some_iff.mp hf
        cases parseStop_act hparse
        cases result with
        | ok id =>
            cases hf
            exact ⟨echoes_respondWithCode _ _ _, fun _ => .stop hop hparse hremove⟩
        | error e =>
            cases hf
            have hcode : (0x0103 : BitVec 16) ≠ 1 := by decide
            exact ⟨echoes_respondWithCode _ _ _, fun h => absurd h hcode⟩
  split at hrun
  · next hop =>
      rcases mem_serve hrun hr with hr | ⟨answers, a, hparse, hf⟩
      · obtain ⟨hecho, hcode⟩ := parseUpdate_refuses request r hr
        exact ⟨hecho, fun h => absurd h hcode⟩
      · obtain ⟨⟨tx₁, result⟩, hset, hf⟩ := Option.bind_eq_some_iff.mp hf
        cases parseUpdate_act hparse
        cases result with
        | ok id =>
            cases hf
            exact ⟨echoes_respondWithCode _ _ _, fun _ => .update hop hparse hset⟩
        | error e =>
            cases hf
            have hcode : (0x0103 : BitVec 16) ≠ 1 := by decide
            exact ⟨echoes_respondWithCode _ _ _, fun h => absurd h hcode⟩
  · cases hrun
    cases hr

theorem datagramCall_refuses (selfInfo : DeviceInfo) (env : AddFlowEnv) (request : List Byte) :
    ∀ a ∈ (datagramCall selfInfo env request).answers, Refuses request a := by
  have hmap : ∀ {A B : Type} (f : A → B) (x : Parsed A), (x.map f).answers = x.answers := by
    intro A B f x
    cases x <;> rfl
  unfold datagramCall
  split
  · exact fun a ha => by cases ha
  split
  · exact fun a ha => by cases ha
  split
  · rw [hmap]
    exact parseRequest_refuses selfInfo request
  split
  · rw [hmap]
    exact parseStop_refuses request
  split
  · rw [hmap]
    exact parseUpdate_refuses request
  · exact fun a ha => by cases ha

/-- The packets a server sends are answers to the datagram; one of success is sent
only when the call has been done. -/
theorem mem_replies {s : FlowsServer} {env : AddFlowEnv} {request packet : List Byte}
    (h : packet ∈ (s.serve env request).2) : ∃ r : Response, r.packet = some packet ∧
      Echoes request r ∧ (r.opcode2 = 1 →
        Acknowledged s.selfInfo env request s.tx (s.serve env request).1.tx r.content) := by
  unfold FlowsServer.serve at h ⊢
  split at h
  · next hup =>
      rw [if_pos hup]
      cases hrun : handleDatagram s.selfInfo env request s.tx with
      | some result =>
          rw [hrun] at h
          obtain ⟨r, hr, hpacket⟩ := List.mem_filterMap.mp h
          obtain ⟨hecho, hdone⟩ := mem_handleDatagram hrun hr
          exact ⟨r, hpacket, hecho, hdone⟩
      | none =>
          rw [hrun] at h
          obtain ⟨r, hr, hpacket⟩ := List.mem_filterMap.mp h
          obtain ⟨hecho, hcode⟩ := datagramCall_refuses s.selfInfo env request r hr
          exact ⟨r, hpacket, hecho, fun hok => absurd hok hcode⟩
  · cases h

/-! ## Which call a reply is for -/

/-- The call a reply with a value is for has its number, up to `2 ^ 16`, and its kind. -/
theorem reply_identifies {self : RequestingDevice} {s : FlowsServer} {env : AddFlowEnv}
    {request packet : List Byte} (hmem : packet ∈ (s.serve env request).2) {i j : Nat}
    {c c' : FlowCall} {v : FlowCallResult} (hreceive : c.receive i packet = some (.ok v))
    (hmade : c'.datagram self j = some request) :
    i % 2 ^ 16 = j % 2 ^ 16 ∧ c'.opcode1 = c.opcode1 ∧ ∃ content,
      c.result content = .ok v ∧
      Acknowledged s.selfInfo env request s.tx (s.serve env request).1.tx content := by
  obtain ⟨r, hpacket, ⟨hseq, hop⟩, hdone⟩ := mem_replies hmem
  obtain ⟨_, hseq', hop', _⟩ := datagram_fields hmade
  rw [receive_packet hpacket] at hreceive
  split at hreceive
  · next hmatch =>
      split at hreceive
      · next hok =>
          refine ⟨?_, ?_, r.content, Option.some.inj hreceive, hdone hok⟩
          · have hnum := hmatch.2
            rw [hseq, hseq'] at hnum
            have hnat := congrArg BitVec.toNat hnum
            unfold FlowCall.seqnum at hnat
            rw [BitVec.toNat_ofNat, BitVec.toNat_ofNat] at hnat
            omega
          · rw [← hop', ← hop, hmatch.1]
      · cases hreceive
  · cases hreceive

/-- The content is made the same of by calls of one kind. -/
theorem result_congr {c c' : FlowCall} (h : c'.opcode1 = c.opcode1) (content : List Byte) :
    c'.result content = c.result content := by
  cases c <;> cases c' <;> first | rfl | (simp [FlowCall.opcode1] at h)

theorem build_eq {self : RequestingDevice} {number : Nat} {c : FlowCall} {packet : List Byte}
    (h : (flowsControl self).build number c = .ok packet) :
    c.datagram self number = some packet := by
  unfold flowsControl at h
  dsimp only at h
  split at h
  · next heq =>
      cases h
      exact heq
  · cases h

/-! ## What an acknowledgement says -/

theorem splitHandle_makeHandle {id : Nat} (hid : id < 2 ^ 32) (cookie : BitVec 16) :
    splitHandle (makeHandle id cookie) = (id, cookie) := by
  have hcookie : cookie.extractLsb' 8 8 ++ cookie.extractLsb' 0 8 = cookie :=
    word16_be16 cookie []
  show ((fromBeBytes _ _ _ _).toNat, cookie.extractLsb' 8 8 ++ cookie.extractLsb' 0 8) = _
  rw [hcookie]
  have hword := fromBeBytes_toBeBytes (BitVec.ofNat 32 id)
  refine Prod.ext ?_ rfl
  show (fromBeBytes _ _ _ _).toNat = id
  exact (congrArg BitVec.toNat hword).trans (by rw [BitVec.toNat_ofNat, Nat.mod_eq_of_lt hid])

section

variable {tx tx' : FlowsTransmitter} {slots : List (Option Flow)}

/-- The handle of a live flow leads to it. -/
theorem getFlow_makeHandle {id : Nat} (hid : id < MAX_FLOWS) {flow : FlowData}
    (hflow : tx.flows id = some flow) :
    tx.getFlow (makeHandle id flow.cookie) = some (id, flow) := by
  have hlt : id < 2 ^ 32 := Nat.lt_trans hid (by decide)
  unfold FlowsTransmitter.getFlow
  rw [splitHandle_makeHandle hlt]
  dsimp only
  rw [hflow]
  dsimp only
  rw [if_pos rfl]

/-- A granted flow is in the tables, under the handle that is answered. -/
theorem addFlow_registered (h : tx.Together slots) {info : FlowInfo} {fpp bytesPerSample : Nat}
    {env : AddFlowEnv} {id : Nat} {handle : FlowHandle}
    (hrun : tx.addFlow info fpp bytesPerSample none false env = some (tx', .ok (id, handle))) :
    ∃ flow, tx'.flows id = some flow ∧ flow.remote = info.dst ∧ id < MAX_FLOWS ∧
      handle = makeHandle id flow.cookie ∧ tx'.flowsInfo[id]? = some (some info) := by
  cases hip : tx.ipPortToId info.dst with
  | some id₀ =>
      obtain ⟨flow, hflow, hremote⟩ := h.tables.addr _ _ hip
      have hlt := h.tables.lt hflow
      cases hopen : tx.receiverGone with
      | true =>
          rw [addFlow_gone hopen hip] at hrun
          cases hrun
      | false =>
          rw [addFlow_told h.tables hopen hip hflow] at hrun
          cases hrun
          obtain ⟨hf, _, hi, _⟩ := saveState_fields { tx with
            commands := tx.commands ++ [.setChannels id info.localChannelIndices]
            flowsInfo := tx.flowsInfo.set id (some info) }
          refine ⟨flow, (congrFun hf id).trans hflow, hremote, hlt, rfl, ?_⟩
          rw [hi]
          exact List.getElem?_set_self (h.tables.length ▸ hlt)
  | none =>
      unfold FlowsTransmitter.addFlow at hrun
      rw [hip] at hrun
      obtain ⟨tx₁, hscan, hrun⟩ := Option.bind_eq_some_iff.mp hrun
      obtain ⟨⟨tx₂, chosen⟩, hchoose, hrun⟩ := Option.bind_eq_some_iff.mp hrun
      obtain ⟨⟨n, rfl⟩, hfree⟩ := chooseIndex_cases hchoose
      obtain ⟨h₁, _⟩ := h.scanLeaves
      rw [scanLeaves_of_some hscan] at h₁
      cases chosen with
      | error e => cases hrun
      | ok id₀ =>
          obtain ⟨_, hlt⟩ := hfree id₀ rfl
          rw [h₁.tables.length, or_self] at hlt
          dsimp only at hrun
          split at hrun
          swap
          · cases hrun
          cases hopen : tx₁.receiverGone with
          | true =>
              rw [insertFlow, if_pos hopen] at hrun
              cases hrun
          | false =>
              have hlen : id₀ < tx₁.flowsInfo.length := h₁.tables.length ▸ hlt
              rw [@insertFlow_eq { tx₁ with flowSeqId := n } hopen id₀ hlen] at hrun
              cases hrun
              obtain ⟨hf, _, hi, _⟩ := saveState_fields
                (inserted { tx₁ with flowSeqId := n } info fpp bytesPerSample false env.cookie id)
              refine ⟨⟨env.cookie, info.dst, tx₁.nextFlag⟩, ?_, rfl, hlt, rfl, ?_⟩
              · rw [hf]
                exact Function.update_self _ _ _
              · rw [hi]
                exact List.getElem?_set_self hlen

/-- A removed flow was there, and is gone from the tables. -/
theorem removeFlow_removed (h : tx.Tables) {handle : FlowHandle} {id : Nat}
    (hrun : tx.removeFlow handle = some (tx', .ok id)) :
    ∃ flow, tx.getFlow handle = some (id, flow) ∧ tx'.flowsInfo[id]? = some none ∧
      tx'.flows = Function.update tx.flows id none := by
  unfold FlowsTransmitter.removeFlow at hrun
  cases hget : tx.getFlow handle with
  | none =>
      rw [hget] at hrun
      cases hrun
  | some found =>
      obtain ⟨id₀, flow⟩ := found
      rw [hget] at hrun
      obtain ⟨tx₁, hremove, hrun⟩ := Option.bind_eq_some_iff.mp hrun
      cases hrun
      have hflow := getFlow_flows hget
      obtain ⟨hf, _, hi, _⟩ := removeLeaves_fields h hflow
      rw [removeLeaves_of_some hremove] at hf hi
      obtain ⟨hf', _, hi', _⟩ := saveState_fields tx₁
      refine ⟨flow, rfl, ?_, hf'.trans hf⟩
      rw [hi', hi]
      exact List.getElem?_set_self (h.length ▸ h.lt hflow)

/-- Channels were set in a flow that was there. -/
theorem setChannels_set (h : tx.Tables) {handle : FlowHandle} {chs : List (Option Nat)} {id : Nat}
    (hrun : tx.setChannels handle chs = some (tx', .ok id)) :
    ∃ flow info, tx.getFlow handle = some (id, flow) ∧ tx'.flows = tx.flows ∧
      tx.flowsInfo[id]? = some (some info) ∧
      tx'.flowsInfo = tx.flowsInfo.set id (some { info with localChannelIndices := chs }) := by
  unfold FlowsTransmitter.setChannels at hrun
  cases hget : tx.getFlow handle with
  | none =>
      rw [hget] at hrun
      cases hrun
  | some found =>
      obtain ⟨id₀, flow⟩ := found
      rw [hget] at hrun
      obtain ⟨tx₁, hsend, hrun⟩ := Option.bind_eq_some_iff.mp hrun
      obtain ⟨info, hinfo⟩ := h.info _ _ (getFlow_flows hget)
      unfold FlowsTransmitter.send at hsend
      split at hsend
      · cases hsend
      · cases hsend
        simp only [hinfo] at hrun
        cases hrun
        exact ⟨flow, info, rfl, rfl, hinfo, rfl⟩

end

/-- What a call can be made with: strings without NUL and channel ids that are not
zero, which stands for no channel. -/
def FlowCall.Sane (self : RequestingDevice) : FlowCall → Prop
  | request a => NoNul self.friendlyHostname ∧ NoNul a.rxFlowName ∧ ∀ ch ∈ a.channels, ch ≠ some 0
  | update _ channels => ∀ ch ∈ channels, ch ≠ some 0
  | stop _ => True

/-- What was asked for has been done: a flow to this host with these channels is in
the tables under the handle, the channels of the flow are these, or it is gone. -/
def FlowCall.Done (self : RequestingDevice) (selfInfo : DeviceInfo) (tx tx' : FlowsTransmitter) :
    FlowCall → FlowCallResult → Prop
  | request a, .handle h => a.sampleRate = selfInfo.sampleRate ∧ a.fpp.toNat ≤ FPP_MAX ∧
      ∃ id flow, tx'.getFlow h = some (id, flow) ∧ flow.remote = ⟨self.ipAddress, a.rxPort⟩ ∧
        tx'.flowsInfo[id]? = some (some (a.asRequest self).info)
  | update h channels, .done => ∃ id flow, tx.getFlow h.toList = some (id, flow) ∧
      tx'.flows = tx.flows ∧
      tx'.infoChannels id = some (channels.map (Option.map (·.toNat - 1)))
  | stop h, .done => ∃ id flow, tx.getFlow h.toList = some (id, flow) ∧
      tx'.flows = Function.update tx.flows id none ∧ tx'.flowsInfo[id]? = some none
  | _, _ => False

theorem checkRequest_act {selfInfo : DeviceInfo} {request : List Byte} {sampleRate : BitVec 32}
    {r r' : FlowRequest} {answers : List Response}
    (h : checkRequest selfInfo request sampleRate r = .act answers r') :
    r' = r ∧ sampleRate = selfInfo.sampleRate ∧ r.fpp ≤ FPP_MAX := by
  unfold checkRequest at h
  dsimp only at h
  split at h
  · cases h
  next hrate =>
  split at h
  · cases h
  next hfpp =>
  cases h
  exact ⟨rfl, not_not.mp hrate, Nat.not_lt.mp hfpp⟩

/-- An acknowledged datagram of a call: that call has been done. -/
theorem acknowledged_done {self : RequestingDevice} {number : Nat} {c : FlowCall}
    {request : List Byte} (hmade : c.datagram self number = some request) (hsane : c.Sane self)
    {selfInfo : DeviceInfo} {env : AddFlowEnv} {tx tx' : FlowsTransmitter}
    {slots : List (Option Flow)} (h : tx.Together slots) {content : List Byte}
    (hack : Acknowledged selfInfo env request tx tx' content) {v : FlowCallResult}
    (hv : c.result content = .ok v) : c.Done self selfInfo tx tx' v := by
  obtain ⟨_, _, hop, _⟩ := datagram_fields hmade
  obtain ⟨hrequest, hupdate, hstop⟩ :=
    client_server_agree self (FlowCall.seqnum number) selfInfo
  cases c with
  | request a =>
      change u16At request 6 = 0x0100 at hop
      obtain ⟨hhost, hname, hids⟩ := hsane
      obtain ⟨_, _, hread⟩ := hrequest a request hhost hname hids hmade
      cases hack with
      | stop hop' => exact absurd (hop'.symm.trans hop) (by decide)
      | update hop' => exact absurd (hop'.symm.trans hop) (by decide)
      | @request answers r id handle _ hparse hadd =>
          obtain ⟨rfl, hrate, hfpp⟩ := checkRequest_act (hread.symm.trans hparse)
          obtain ⟨flow, hflow, hremote, hlt, rfl, hinfo⟩ := addFlow_registered h hadd
          cases hv
          exact ⟨hrate, hfpp, id, flow, getFlow_makeHandle hlt hflow, hremote, hinfo⟩
  | update handle channels =>
      change u16At request 6 = 0x0102 at hop
      obtain ⟨_, hread⟩ := hupdate handle.toList channels request handle.length_toList hsane hmade
      cases hack with
      | stop hop' => exact absurd (hop'.symm.trans hop) (by decide)
      | request hop' => exact absurd (hop'.symm.trans hop) (by decide)
      | @update handle' chs id _ hparse hset =>
          cases hv
          cases hread.symm.trans hparse
          obtain ⟨flow, info, hget, hflows, hinfo, hset⟩ := setChannels_set h.tables hset
          have hlt := (List.getElem?_eq_some_iff.mp hinfo).1
          refine ⟨id, flow, hget, hflows, ?_⟩
          unfold FlowsTransmitter.infoChannels
          rw [hset, List.getElem?_set_self hlt]
          rfl
  | stop handle =>
      change u16At request 6 = 0x0101 at hop
      obtain ⟨_, hread⟩ := hstop handle.toList request handle.length_toList hmade
      cases hack with
      | request hop' => exact absurd (hop'.symm.trans hop) (by decide)
      | update hop' => exact absurd (hop'.symm.trans hop) (by decide)
      | @stop handle' id _ hparse hremove =>
          cases hv
          cases hread.symm.trans hparse
          obtain ⟨flow, hget, hinfo, hflows⟩ := removeFlow_removed h.tables hremove
          exact ⟨id, flow, hget, hflows, hinfo⟩

/-! ## Every run -/

section

variable (self : RequestingDevice) (servers : SocketAddr → DeviceInfo)
  (flags : SocketAddr → Flag → Bool) (events : List FlowCallsEvent)

theorem serve_leaves {A : Type} {tx tx' : FlowsTransmitter}
    {f : A → Option (FlowsTransmitter × Response)} {parsed : Parsed A} {out : List Response}
    (hrun : parsed.serve tx f = some (tx', out)) (call : A → TxCall)
    (hcall : ∀ a r, f a = some (tx', r) → tx' = (call a).leaves tx) :
    tx' = (parsed.map call).leaves tx := by
  cases parsed with
  | panic => cases hrun
  | skip answers =>
      cases hrun
      rfl
  | act answers a =>
      obtain ⟨⟨tx₁, answer⟩, hf, hrest⟩ := Option.bind_eq_some_iff.mp hrun
      cases hrest
      exact hcall a answer hf

/-- A served datagram is one call of the transmitter, or none. -/
theorem handleDatagram_leaves {selfInfo : DeviceInfo} {env : AddFlowEnv} {request : List Byte}
    {tx tx' : FlowsTransmitter} {out : List Response}
    (hrun : handleDatagram selfInfo env request tx = some (tx', out)) :
    tx' = (datagramCall selfInfo env request).leaves tx := by
  unfold handleDatagram at hrun
  unfold datagramCall
  split at hrun
  · next hshort =>
      cases hrun
      rw [if_pos hshort]
      rfl
  next hlong =>
  rw [if_neg hlong]
  split at hrun
  · next hcode =>
      cases hrun
      rw [if_pos hcode]
      rfl
  next hcode =>
  rw [if_neg hcode]
  split at hrun
  · next hop =>
      rw [if_pos hop]
      refine serve_leaves hrun _ fun r answer hf => ?_
      obtain ⟨⟨tx₁, result⟩, hadd, hf⟩ := Option.bind_eq_some_iff.mp hf
      simp only [TxCall.leaves, hadd]
      cases result <;> cases hf <;> rfl
  next hop =>
  rw [if_neg hop]
  split at hrun
  · next hop =>
      rw [if_pos hop]
      refine serve_leaves hrun _ fun handle answer hf => ?_
      obtain ⟨⟨tx₁, result⟩, hremove, hf⟩ := Option.bind_eq_some_iff.mp hf
      simp only [TxCall.leaves, hremove]
      cases result <;> cases hf <;> rfl
  next hop =>
  rw [if_neg hop]
  split at hrun
  · next hop =>
      rw [if_pos hop]
      refine serve_leaves hrun _ fun a answer hf => ?_
      obtain ⟨⟨tx₁, result⟩, hset, hf⟩ := Option.bind_eq_some_iff.mp hf
      simp only [TxCall.leaves, hset]
      cases result <;> cases hf <;> rfl
  next hop =>
  rw [if_neg hop]
  cases hrun
  rfl

theorem serve_together {s : FlowsServer} (h : s.tx.Together s.tables.slots) (env : AddFlowEnv)
    (request : List Byte) :
    (s.serve env request).1.tx.Together (s.serve env request).1.tables.slots := by
  have hleaves : ∀ parsed : Parsed TxCall, (parsed.leaves s.tx).Together s.tables.slots := by
    intro parsed
    cases parsed with
    | act answers c => exact h.call c
    | skip answers => exact h
    | panic => exact h
  unfold FlowsServer.serve
  split
  · cases hrun : handleDatagram s.selfInfo env request s.tx with
    | some result =>
        have heq := handleDatagram_leaves hrun
        show Together s.tables.slots result.1
        rw [heq]
        exact hleaves _
    | none => exact hleaves _
  · exact h

theorem other_together {s : FlowsServer} (h : s.tx.Together s.tables.slots) (e : TxTablesEvent) :
    (s.other e).tx.Together (s.other e).tables.slots :=
  TxTables.together_step h s.selfInfo.sampleRate e

/-- The tables of every server agree, whenever it serves a request. -/
theorem servers_together : RequestReply.World.Kept (fun s => s.tx.Together s.tables.slots)
    (FlowCalls.run self servers flags events) :=
  RequestReply.World.kept_run (fun _ _ _ h => serve_together h _ _)
    (fun _ _ h => other_together h _) (fun peer => start_together (flags peer)) events

/-- What a call returned was an answer to it, or to an earlier call of its kind from the
same port to the same server, a multiple of `2 ^ 16` calls before; and what that call
asked for had then been done, by the server it asked. -/
theorem succeeded_was_done
    (hsane : ∀ c ∈ (FlowCalls.run self servers flags events).calls, c.args.Sane self) {i : Nat}
    {c : RequestReply.Call SocketAddr SocketAddr FlowCall} {v : FlowCallResult}
    (hcall : (FlowCalls.run self servers flags events).calls[i]? = some c)
    (hok : (FlowCalls.run self servers flags events).outcome i = some (.ok v)) :
    ∃ e ∈ (FlowCalls.run self servers flags events).served, ∃ j c',
      (FlowCalls.run self servers flags events).calls[j]? = some c' ∧
      c'.args.datagram self j = some e.datagram.body ∧
      c'.port = c.port ∧ c'.peer = c.peer ∧ e.datagram.peer = c.peer ∧
      c'.args.opcode1 = c.args.opcode1 ∧ j ≤ i ∧ i % 2 ^ 16 = j % 2 ^ 16 ∧
      (i < 2 ^ 16 → j = i ∧ c' = c) ∧
      c'.args.Done self e.before.selfInfo e.before.tx (e.after (flowsControl self)).tx v := by
  have htraced : RequestReply.World.Traced (flowsControl self)
      (fun port => port.ip = self.ipAddress) (FlowCalls.run self servers flags events) :=
    RequestReply.World.traced_run
      (fun peer => FlowsServer.start (servers peer) (flags peer)) events
  obtain ⟨e, he, hport, hpeer, ⟨r, hr, hjudge⟩, j, hj, c', hc', hport', hpeer', hbuild⟩ :=
    htraced.ended i c v hcall hok
  have hmade := build_eq hbuild
  obtain ⟨hmod, hop, content, hv, hack⟩ := reply_identifies hr hjudge hmade
  have htogether := (servers_together self servers flags events).served e he
  have hv' : c'.args.result content = .ok v := (result_congr hop content).trans hv
  refine ⟨e, he, j, c', hc', hmade, hport'.trans hport, hpeer'.trans hpeer, hpeer, hop, hj, hmod,
    fun hi => ?_,
    acknowledged_done hmade (hsane c' (List.mem_of_getElem? hc')) htogether hack hv'⟩
  have hij : j = i := by omega
  subst hij
  exact ⟨rfl, Option.some.inj (hc'.symm.trans hcall)⟩

/-- A flow is asked for, the request served twice, and the second answer comes first. -/
def sampleCalls : List FlowCallsEvent :=
  [.call ⟨⟨0x0a000001, 50000⟩, ⟨0x0a000002, 4455⟩, .request sampleArgs⟩, .serve 0 ⟨7, true⟩,
    .serve 0 ⟨8, true⟩, .reply 0 1 0]

/-- Their world. -/
abbrev sampleFlowCalls : FlowCalls :=
  .run ⟨"rx", 0x0a000001⟩ (fun _ => sampleInfo) (fun _ _ => false) sampleCalls

theorem sampleCalls_ok : sampleFlowCalls.outcome 0 = some (.ok (.handle (makeHandle 0 7))) := by
  decide +kernel

set_option maxRecDepth 20000 in
theorem sampleCalls_calls : sampleFlowCalls.calls =
    [⟨⟨0x0a000001, 50000⟩, ⟨0x0a000002, 4455⟩, .request sampleArgs⟩] := by
  rfl

set_option maxRecDepth 20000 in
theorem succeeded_was_done_sampleCalls :
    ∃ e ∈ sampleFlowCalls.served, ∃ (j : Nat) (c' : RequestReply.Call SocketAddr SocketAddr
      FlowCall), sampleFlowCalls.calls[j]? = some c' ∧
      c'.args.Done ⟨"rx", 0x0a000001⟩ e.before.selfInfo e.before.tx
        (e.after (flowsControl ⟨"rx", 0x0a000001⟩)).tx (.handle (makeHandle 0 7)) := by
  have hsane : ∀ c ∈ sampleFlowCalls.calls, c.args.Sane ⟨"rx", 0x0a000001⟩ := by
    intro c hc
    rw [sampleCalls_calls, List.mem_singleton] at hc
    rw [hc]
    exact ⟨by decide, by decide, by simp [sampleArgs]⟩
  have hcall : sampleFlowCalls.calls[0]? = some _ := congrArg (·[0]?) sampleCalls_calls
  obtain ⟨e, he, j, c', hc', _, _, _, _, _, _, _, _, hdone⟩ := @succeeded_was_done
    ⟨"rx", 0x0a000001⟩ (fun _ => sampleInfo) (fun _ _ => false) sampleCalls hsane 0 _ _ hcall
    sampleCalls_ok
  exact ⟨e, he, j, c', hc', hdone⟩

end

end Inferno
