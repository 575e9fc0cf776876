import Inferno.MdnsResolve
import Inferno.PacketFraming
import Inferno.SelfInfo

/-!
# Information about the device

What `Multicaster` sends to the network: the descriptions of the device on request, the
notifications of others, and the heartbeat. Each attempt has a number, also one whose
packet is too long for the buffer and is never sent.

Whatever order requests, notifications and heartbeats come in, the datagrams are read as
what was tried and fits, each with the number of its attempt (`datagrams_in_order`).

The clock says its frequency offset, and the files are those in `/tmp` when
`send_clock_stats` reads them.
-/

namespace Inferno

open ByteBuffer BinaryLayout

namespace InfoMcast

/-! ## Contents -/

/-- `write_str_to_buffer`. -/
def writeStrToBuffer (buffer : List Byte) (offset maxLen : Nat) (s : String) : List Byte :=
  let len := min maxLen (utf8 s).length
  write buffer (⟨offset, len⟩, (utf8 s).take len)

/-- The bytes from `start` on are copied from `bytes`. -/
def put (content : List Byte) (start : Nat) (bytes : List Byte) : List Byte :=
  write content (⟨start, bytes.length⟩, bytes)

/-- The version of the package, 0.5.0. -/
def productVersionBytes : List Byte := [0, 5, 0, 0]

def boardInfo (info : SelfInfo) : List Byte :=
  let content := List.replicate 200 0
  -- firmware, hardware and boot version
  let content := put content 0 [4, 1, 0, 6]
  let content := put content 0x23 [2]
  let content := put content 4 [4, 1, 0, 3]
  let content := put content 0x27 [1]
  let content := put content 0x28 [1, 0, 0, 0]
  -- supported features
  let content := put content 0x14 [0]
  let content := put content 0x15 [0]
  let content := put content 0x16 [0x10]
  let content := put content 0x17 [0]
  let content := put content 0xbb [0x1f]
  let content := put content 0xbf [5]
  let content := put content 0xc3 [3]
  let content := put content 0xc7 [3]
  let content := writeStrToBuffer content 12 8 info.boardName
  writeStrToBuffer content 0x38 16 info.boardName

def productInfo (info : SelfInfo) : List Byte :=
  let content := List.replicate 336 0
  let content := writeStrToBuffer content 0 8 info.manufacturer
  let content := writeStrToBuffer content 8 8 info.boardName
  let content := writeStrToBuffer content 0x2c 16 info.manufacturer
  let content := writeStrToBuffer content 0xac 16 info.modelName
  let content := put content 0x12c productVersionBytes
  put content 0x1c productVersionBytes

/-- `octets` of a `MacAddr`. -/
def macOctets (mac : BitVec 48) : List Byte :=
  [mac.extractLsb' 40 8, mac.extractLsb' 32 8, mac.extractLsb' 24 8, mac.extractLsb' 16 8,
    mac.extractLsb' 8 8, mac.extractLsb' 0 8]

def isAsciiWhitespace (b : Byte) : Bool := b = 0x20 || b = 9 || b = 10 || b = 12 || b = 13

/-- `trim_ascii`. -/
def trimAscii (text : List Byte) : List Byte :=
  ((text.dropWhile isAsciiWhitespace).reverse.dropWhile isAsciiWhitespace).reverse

/-- A byte that goes on with a character. -/
def isContinuation (b : Byte) : Bool := 0x80 ≤ b && b < 0xc0

/-- The loop of `send_clock_stats` over the directory: the outer `none` is a slice that
panics. A file has its name, and its text if it is read. -/
def masterClock (requiredPrefix : String) :
    List (String × Option String) → Option (Option (List Byte))
  | [] => some none
  | (name, content) :: entries =>
      match content with
      | some text =>
          let text := trimAscii (utf8 text)
          if startsWith requiredPrefix name ∧ 12 ≤ text.length then
            if text.length < 16 ∨ (text[16]?.any isContinuation) then none
            else
              match decodePairs (text.take 16) with
              | (id, true) => some (some id)
              | (_, false) => masterClock requiredPrefix entries
          else masterClock requiredPrefix entries
      | none => masterClock requiredPrefix entries

def clockStats (info : SelfInfo) (freqOffset : BitVec 32) (master : List Byte) : List Byte :=
  [0, 3, 0, 3, 0, 0, 0, 0x9f] ++ be32 freqOffset ++ macOctets info.macAddress ++ be16 0 ++
    master ++ master ++ List.replicate 76 0

def networkInfo (info : SelfInfo) : List Byte :=
  [0, 1, 0, 0, 0, 0] ++ be16 info.linkSpeed ++ be16 1 ++ macOctets info.macAddress ++
    be32 info.ipAddress ++ be32 info.netmask ++ be32 info.gateway ++ be32 info.gateway ++
    [0, 0x18, 0, 0x30] ++ List.replicate 28 0

/-- The blocks of the utilization and of the clock's offset. -/
def utilizationBlocks (ctr : BitVec 16) (freqOffset : BitVec 32) : List Byte :=
  be16 36 ++ be16 0x8000 ++ be16 4 ++ be16 4 ++ be16 ctr ++ be16 0 ++
    (be16 0x0010 ++ be16 0x0000 ++ be16 0x0001 ++ be16 0x0010 ++
      be32 0 ++ be32 0 ++ be32 0 ++ be32 0) ++
  (be16 16 ++ be16 0x8001 ++ be16 4 ++ be16 4 ++ be16 ctr ++ be16 0 ++ be32 freqOffset)

/-- The blocks of the latencies and of the missed packets. -/
def latencyBlocks (ctr : BitVec 16) (sampleRate : BitVec 32) (latencies : List Int) : List Byte :=
  let flowsCount := BitVec.ofNat 16 latencies.length
  be16 (24 + flowsCount * 4) ++ be16 0x8003 ++ be16 4 ++ be16 (12 + flowsCount * 4) ++
    be16 ctr ++ be16 0 ++
    (be16 flowsCount ++ be16 0 ++ be16 24 ++ be16 0 ++ be32 sampleRate ++
      latencies.flatMap fun latency => be32 (BitVec.ofInt 32 (max 0 (min latency (2 ^ 31 - 1))))) ++
  (be16 (20 + flowsCount * 4) ++ be16 0x8004 ++ be16 4 ++ be16 (8 + flowsCount * 4) ++
    be16 ctr ++ be16 0 ++
    (be16 flowsCount ++ be16 0 ++ be16 20 ++ be16 0 ++
      (List.range flowsCount.toNat).flatMap fun _ => be32 0))

/-! ## Sending -/

def SEND_BUFFER_SIZE : Nat := 1500
def DST_PORT_HEARTBEAT : BitVec 16 := 8708
def DST_PORT_DEVICE_INFO : BitVec 16 := 8702

/-- 224.0.0.231 -/
def deviceInfoDestination : SocketAddr := ⟨0xe00000e7, DST_PORT_DEVICE_INFO⟩

/-- 224.0.0.233 -/
def heartbeatDestination : SocketAddr := ⟨0xe00000e9, DST_PORT_HEARTBEAT⟩

/-- What is to be sent. -/
structure Attempt where
  dst : SocketAddr
  startCode : BitVec 16
  opcode : Vector Byte 8
  content : List Byte

/-- The fields of `Multicaster` that change. -/
structure Multicaster where
  seqnum : BitVec 16
  sendBuffer : List Byte
  utilBlockSeqnum : BitVec 16
  latencyBlockSeqnum : BitVec 16

/-- The multicaster, while its server works, with everything it has tried to send and
everything that was sent, the oldest first. -/
structure InfoServer where
  mcaster : Multicaster
  working : Bool
  tried : List Attempt
  sent : List (SocketAddr × List Byte)

/-- The vendor, padded with blanks. -/
def vendor (info : SelfInfo) : Vector Byte 8 :=
  Vector.ofFn fun i => (writeStrToBuffer (List.replicate 8 32) 0 8 info.vendorString).getD i 0

def factoryDeviceId (info : SelfInfo) : Vector Byte 8 :=
  ⟨info.factoryDeviceId.bytes.toArray, by simp [info.factoryDeviceId.length_eq]⟩

namespace InfoServer

/-- `send`: the number is used up even if no packet is built. -/
def send (info : SelfInfo) (s : InfoServer) (a : Attempt) : InfoServer :=
  let mcaster := { s.mcaster with seqnum := s.mcaster.seqnum + 1 }
  match Mcast.makePacket s.mcaster.sendBuffer a.startCode s.mcaster.seqnum info.processId
      (factoryDeviceId info) (vendor info) a.opcode a.content with
  | .ok pkt =>
      { s with
        mcaster := { mcaster with sendBuffer := pkt ++ s.mcaster.sendBuffer.drop pkt.length }
        tried := s.tried ++ [a]
        sent := s.sent ++ [(a.dst, pkt)] }
  | .error _ => { s with mcaster, tried := s.tried ++ [a] }

/-- A message to the port of the device information. -/
def toDeviceInfo (opcode : Vector Byte 8) (content : List Byte) : Attempt :=
  ⟨deviceInfoDestination, 0xffff, opcode, content⟩

def heartbeatAttempt (content : List Byte) : Attempt :=
  ⟨heartbeatDestination, 0xfffe, #v[0, 8, 0, 1, 0x10, 0, 0, 0], content⟩

def boardInfoAttempt (info : SelfInfo) : Attempt :=
  toDeviceInfo #v[0x07, 0x2a, 0x00, 0x60, 0, 0, 0, 0] (boardInfo info)

def productInfoAttempt (info : SelfInfo) : Attempt :=
  toDeviceInfo #v[0x07, 0x2a, 0x00, 0xc0, 0, 0, 0, 0] (productInfo info)

/-- `send_clock_stats`: nothing without a clock or a master. -/
def clockStatsAttempts (info : SelfInfo) (freqOffset : Option (BitVec 32))
    (files : List (String × Option String)) : Option (List Attempt) :=
  match freqOffset with
  | none => some []
  | some freqOffset =>
      (masterClock ("clock-stats." ++ hexEncode (macOctets info.macAddress) ++ "0000") files).map
        fun master => (master.map fun id => toDeviceInfo #v[0x07, 0x2a, 0x00, 0x20, 0, 0, 0, 0]
          (clockStats info freqOffset id)).toList

/-- What a request is answered with, by its opcode; `none` is a panic. -/
def answer (info : SelfInfo) (freqOffset : Option (BitVec 32))
    (files : List (String × Option String)) : List Byte → Option (List Attempt)
  | [0x07, _, 0, 0x61, 0, 0, 0, 0] => some [boardInfoAttempt info]
  | [0x07, _, 0, 0xc1, 0, 0, 0, 0] => some [productInfoAttempt info]
  | [0x07, _, 0, 0x21, 0, 0, 0, _] => clockStatsAttempts info freqOffset files
  | [0x07, _, 0, 0x13, 0, 0, 0, _] =>
      some [toDeviceInfo #v[0x07, 0x2a, 0x00, 0x11, 0, 0, 0, 0] (networkInfo info)]
  | [0x07, _, 0, 0x77, 0, 0, 0, _] =>
      some [toDeviceInfo #v[0x07, 0x2a, 0x00, 0x78, 0, 0, 0, 0] [0, 0, 0, 3, 0, 0, 0, 0]]
  | _ => some []

/-- The first packet of `send_heartbeat`. -/
def sendUtilization (info : SelfInfo) (s : InfoServer) (freqOffset : BitVec 32) : InfoServer :=
  let ctr := s.mcaster.utilBlockSeqnum
  { s with mcaster := { s.mcaster with utilBlockSeqnum := ctr + 1 } }.send info
    (heartbeatAttempt (utilizationBlocks ctr freqOffset))

/-- The second packet of `send_heartbeat`. -/
def sendLatencies (info : SelfInfo) (s : InfoServer) (latencies : List Int) : InfoServer :=
  let ctr := s.mcaster.latencyBlockSeqnum
  { s with mcaster := { s.mcaster with latencyBlockSeqnum := ctr + 1 } }.send info
    (heartbeatAttempt (latencyBlocks ctr info.sampleRate latencies))

/-- `send_heartbeat`, with a clock: the latencies are those of the flows of the subscriber,
if there is one. -/
def sendHeartbeat (info : SelfInfo) (s : InfoServer) (freqOffset : BitVec 32)
    (latencies : Option (List Int)) : InfoServer :=
  match latencies with
  | some latencies => (s.sendUtilization info freqOffset).sendLatencies info latencies
  | none => s.sendUtilization info freqOffset

end InfoServer

/-- What happens to the server. -/
inductive InfoEvent where
  | request (packet : List Byte) (freqOffset : Option (BitVec 32))
    (files : List (String × Option String))
  | message (startCode : BitVec 16) (opcode : Vector Byte 8) (content : List Byte)
  | heartbeat (freqOffset : Option (BitVec 32)) (latencies : Option (List Int))
  | closed

namespace InfoServer

/-- One turn of the loop of `run_server`. -/
def step (info : SelfInfo) (s : InfoServer) (e : InfoEvent) : InfoServer :=
  if !s.working then s
  else match e with
    | .request packet freqOffset files =>
        if packet.length < 32 then s
        else match answer info freqOffset files ((packet.drop 24).take 8) with
          | some attempts => attempts.foldl (send info) s
          | none => { s with working := false }
    | .message startCode opcode content =>
        s.send info ⟨deviceInfoDestination, startCode, opcode, content⟩
    | .heartbeat (some freqOffset) latencies => s.sendHeartbeat info freqOffset latencies
    | .heartbeat none _ => s
    | .closed => { s with working := false }

def new : InfoServer where
  mcaster := ⟨1, List.replicate SEND_BUFFER_SIZE 0, 1, 1⟩
  working := true
  tried := []
  sent := []

/-- `run_server` up to its loop. -/
def start (info : SelfInfo) : InfoServer :=
  (new.send info (boardInfoAttempt info)).send info (productInfoAttempt info)

def run (info : SelfInfo) (s : InfoServer) (events : List InfoEvent) : InfoServer :=
  events.foldl (step info) s

end InfoServer

/-! ## What is tried -/

namespace InfoServer

variable {info : SelfInfo} {s : InfoServer}

/-- A message is tried, whether a packet is built or not. -/
theorem send_tried (a : Attempt) :
    (s.send info a).tried = s.tried ++ [a] ∧ (s.send info a).working = s.working := by
  unfold send
  dsimp only
  split <;> exact ⟨rfl, rfl⟩

theorem sendAll_tried (attempts : List Attempt) :
    (attempts.foldl (send info) s).tried = s.tried ++ attempts := by
  induction attempts generalizing s with
  | nil => exact (List.append_nil _).symm
  | cons a attempts ih => rw [List.foldl_cons, ih, (send_tried a).1, List.append_assoc]; rfl

/-- Requests are answered to the port of the device information. -/
theorem answer_dst {freqOffset : Option (BitVec 32)} {files : List (String × Option String)}
    {opcode : List Byte} {attempts : List Attempt}
    (h : answer info freqOffset files opcode = some attempts) :
    ∀ a ∈ attempts, a.dst = deviceInfoDestination := by
  unfold answer at h
  split at h
  case h_3 =>
    unfold clockStatsAttempts at h
    split at h
    · rw [← Option.some.inj h]
      exact fun a ha => absurd ha List.not_mem_nil
    · obtain ⟨master, _, rfl⟩ := Option.map_eq_some_iff.mp h
      intro a ha
      rw [Option.mem_toList, Option.map_eq_some_iff] at ha
      obtain ⟨id, _, rfl⟩ := ha
      rfl
  all_goals
    rw [← Option.some.inj h]
    intro a ha
    first
      | rw [List.mem_singleton.mp ha]; rfl
      | cases ha

end InfoServer

/-! ## Datagrams -/

/-- A datagram as a receiver reads it: the attempt at a place, if it fits the buffer. -/
def Attempt.received (info : SelfInfo) (a : Attempt × Nat) : Option (SocketAddr × Mcast.View) :=
  if a.1.content.length + Mcast.HEADER_LENGTH ≤ SEND_BUFFER_SIZE then
    some (a.1.dst, {
      startCode := a.1.startCode
      totalLength := BitVec.ofNat 16 (a.1.content.length + Mcast.HEADER_LENGTH)
      seqnum := BitVec.ofNat 16 (a.2 + 1)
      process := info.processId
      factoryDeviceId := info.factoryDeviceId.bytes
      vendor := (vendor info).toList
      opcode := a.1.opcode.toList
      content := a.1.content })
  else none

namespace InfoServer

/-- What was sent is what was tried and fits, in order and with its number. -/
structure Numbered (info : SelfInfo) (s : InfoServer) : Prop where
  room : s.mcaster.sendBuffer.length = SEND_BUFFER_SIZE
  next : s.mcaster.seqnum = BitVec.ofNat 16 (s.tried.length + 1)
  sent : s.sent.map (fun d => (d.1, Mcast.View.new d.2)) =
    s.tried.zipIdx.filterMap (Attempt.received info)

variable {info : SelfInfo} {s : InfoServer}

theorem Numbered.send (h : s.Numbered info) (a : Attempt) : (s.send info a).Numbered info := by
  have hlast : (s.tried ++ [a]).zipIdx.filterMap (Attempt.received info) =
      s.tried.zipIdx.filterMap (Attempt.received info) ++
        (Attempt.received info (a, s.tried.length)).toList := by
    rw [List.zipIdx_append, List.filterMap_append]
    simp [List.filterMap_cons]
    cases Attempt.received info (a, s.tried.length) <;> rfl
  have hnext : s.mcaster.seqnum + 1 = BitVec.ofNat 16 ((s.tried ++ [a]).length + 1) := by
    rw [h.next, List.length_append]
    simp [BitVec.ofNat_add]
  have hok := Mcast.makePacket_ok_iff s.mcaster.sendBuffer a.content a.startCode s.mcaster.seqnum
    info.processId (factoryDeviceId info) (vendor info) a.opcode
  rw [h.room] at hok
  unfold InfoServer.send
  dsimp only
  split
  · next pkt hpkt =>
      obtain ⟨hlen, hview⟩ := Mcast.view_makePacket hpkt
      have hfits := (hok.mp ⟨pkt, hpkt⟩).2
      refine ⟨?_, hnext, ?_⟩
      · rw [List.length_append, List.length_drop, h.room, hlen]
        omega
      · dsimp only
        rw [List.map_append, h.sent, hlast]
        congr 1
        rw [Attempt.received, if_pos hfits, List.map_cons, hview, h.next, hlen]
        simp [factoryDeviceId]
  · next msg hmsg =>
      refine ⟨h.room, hnext, ?_⟩
      have hlong : ¬ a.content.length + Mcast.HEADER_LENGTH ≤ SEND_BUFFER_SIZE := by
        intro hfits
        obtain ⟨pkt, hpkt⟩ := hok.mpr ⟨hfits.trans (by decide), hfits⟩
        rw [hmsg] at hpkt
        cases hpkt
      dsimp only
      rw [h.sent, hlast, Attempt.received, if_neg hlong]
      exact (List.append_nil _).symm

theorem Numbered.sendAll (h : s.Numbered info) (attempts : List Attempt) :
    (attempts.foldl (InfoServer.send info) s).Numbered info := by
  induction attempts generalizing s with
  | nil => exact h
  | cons a attempts ih => exact ih (h.send a)

/-- The counters of the blocks do not matter. -/
theorem Numbered.withCounters (h : s.Numbered info) (util latency : BitVec 16) :
    Numbered info { s with mcaster := { s.mcaster with
      utilBlockSeqnum := util, latencyBlockSeqnum := latency } } :=
  ⟨h.room, h.next, h.sent⟩

theorem Numbered.stopped (h : s.Numbered info) : Numbered info { s with working := false } :=
  ⟨h.room, h.next, h.sent⟩

theorem Numbered.sendHeartbeat (h : s.Numbered info) (freqOffset : BitVec 32)
    (latencies : Option (List Int)) :
    (s.sendHeartbeat info freqOffset latencies).Numbered info := by
  have hutil : (s.sendUtilization info freqOffset).Numbered info :=
    (h.withCounters (s.mcaster.utilBlockSeqnum + 1) s.mcaster.latencyBlockSeqnum).send _
  cases latencies with
  | none => exact hutil
  | some latencies =>
      exact (hutil.withCounters (s.sendUtilization info freqOffset).mcaster.utilBlockSeqnum
        ((s.sendUtilization info freqOffset).mcaster.latencyBlockSeqnum + 1)).send _

theorem Numbered.step (h : s.Numbered info) (e : InfoEvent) : (s.step info e).Numbered info := by
  unfold InfoServer.step
  split
  · exact h
  cases e with
  | request packet freqOffset files =>
      dsimp only
      split
      · exact h
      · split
        · exact h.sendAll _
        · exact h.stopped
  | message startCode opcode content => exact h.send _
  | heartbeat freqOffset latencies =>
      cases freqOffset with
      | none => exact h
      | some freqOffset => exact h.sendHeartbeat freqOffset latencies
  | closed => exact h.stopped

theorem start_numbered (info : SelfInfo) : (start info).Numbered info :=
  (Numbered.send ⟨List.length_replicate, rfl, rfl⟩ _).send _

end InfoServer

end InfoMcast

open InfoMcast in
/-- Whatever happens to the server, its datagrams are read as what it tried to send and
what fits its buffer, in order, each with its number among all that was tried. -/
theorem datagrams_in_order (info : SelfInfo) (events : List InfoEvent) :
    ((InfoServer.start info).run info events).sent.map (fun d => (d.1, Mcast.View.new d.2)) =
      ((InfoServer.start info).run info events).tried.zipIdx.filterMap (Attempt.received info) := by
  suffices ∀ s : InfoServer, s.Numbered info → (s.run info events).Numbered info from
    (this _ (InfoServer.start_numbered info)).sent
  induction events with
  | nil => exact fun _ h => h
  | cons e events ih => exact fun _ h => ih _ (h.step e)

end Inferno
