import Inferno.Bytes

/-!
# Asking for a flow

`FlowsControlClient` builds the datagrams that `flows_control_server` reads:
`make_packet` around a body whose layout both sides compute by hand. What the
client was given is what the server reads (`client_server_agree`).
-/

namespace Inferno

open ByteBuffer

/-! ## Packets -/

/-- `make_packet` into a buffer of so many bytes. -/
def makePacket (bufLen : Nat) (startCode seqnum opcode1 opcode2 : BitVec 16)
    (content : List Byte) : Except String (List Byte) :=
  let totalLen := content.length + HEADER_LENGTH
  if totalLen ≥ 2 ^ 16 then .error "packet payload too large (exceeds u16 max)"
  else if bufLen < totalLen then .error "buffer too small for packet"
  else .ok (be16 startCode ++ (be16 (BitVec.ofNat 16 totalLen) ++ (be16 seqnum ++
    (be16 opcode1 ++ (be16 opcode2 ++ content)))))

/-- What the client's device says about itself. -/
structure RequestingDevice where
  friendlyHostname : String
  ipAddress : BitVec 32

/-- The arguments of `request_flow`, but for where to send it. -/
structure FlowRequestArgs where
  sampleRate : BitVec 32
  bitsPerSample : BitVec 32
  fpp : BitVec 16
  channels : List (Option (BitVec 16))
  rxPort : BitVec 16
  rxFlowName : String

namespace FlowsControlClient

/-- `write_channels`. -/
def writeChannels (buffer : ByteBuffer) (channels : List (Option (BitVec 16))) : ByteBuffer :=
  channels.foldl (fun b ch => b.writeU16 (ch.getD 0)) buffer

/-- The content of a flow request; `none` is the position check that fails. -/
def requestContent (self : RequestingDevice) (a : FlowRequestArgs) : Option (List Byte) :=
  let stringsOffset := 0x26 + a.channels.length * 2 + HEADER_LENGTH
  let body := new.writeU16 (BitVec.ofNat 16 stringsOffset)
  let strings := (new.writeBytes (utf8 self.friendlyHostname)).writeU8 0
  let rxFlowNameOffset := BitVec.ofNat 16 (strings.wpos + stringsOffset)
  let strings := (strings.writeBytes (utf8 a.rxFlowName)).writeU8 0
  let body := (body.writeU32 a.sampleRate).writeU32 a.bitsPerSample
  let body := (body.writeU16 1).writeU16 (BitVec.ofNat 16 a.channels.length)
  let strings := padLoop stringsOffset 8 8 strings
  let body := body.writeU16 (BitVec.ofNat 16 (strings.wpos + stringsOffset))
  let strings := ((strings.writeU16 0x0802).writeU16 a.rxPort).writeBytes (be32 self.ipAddress)
  let body := writeChannels body a.channels
  let body := body.writeU16 (BitVec.ofNat 16 (0x1c + 2 * a.channels.length))
  let body := ((body.writeU16 0x0a00).writeU16 0x0002).writeU16 a.fpp
  let body := (body.writeU16 rxFlowNameOffset).writeBytes (List.replicate 12 0)
  if body.wpos ≠ stringsOffset - HEADER_LENGTH then none
  else some (body.writeBytes strings.data).data

def START_CODE : BitVec 16 := 0x1102

/-- The datagram `request_flow` sends. -/
def requestFlow (self : RequestingDevice) (seqnum : BitVec 16) (a : FlowRequestArgs) :
    Option (List Byte) := do
  let content ← requestContent self a
  (makePacket MTU START_CODE seqnum 0x0100 0 content).toOption

/-- The datagram `update_flow` sends. -/
def updateFlow (seqnum : BitVec 16) (handle : FlowHandle) (channels : List (Option (BitVec 16))) :
    Option (List Byte) :=
  let body := (new.writeBytes handle).writeU16 (BitVec.ofNat 16 channels.length)
  (makePacket MTU START_CODE seqnum 0x0102 0 (writeChannels body channels).data).toOption

/-- The datagram `stop_flow` sends. -/
def stopFlow (seqnum : BitVec 16) (handle : FlowHandle) : Option (List Byte) :=
  (makePacket MTU START_CODE seqnum 0x0101 0 (new.writeBytes handle).data).toOption

end FlowsControlClient

/-! ## What is in them -/

theorem makePacket_toOption {bufLen : Nat} {startCode seqnum opcode1 opcode2 : BitVec 16}
    {content packet : List Byte}
    (h : (makePacket bufLen startCode seqnum opcode1 opcode2 content).toOption = some packet) :
    content.length + HEADER_LENGTH ≤ bufLen ∧ content.length + HEADER_LENGTH < 2 ^ 16 ∧
      HEADER_LENGTH ≤ packet.length ∧ u16At packet 6 = opcode1 ∧ u16At packet 8 = opcode2 ∧
      packet.drop HEADER_LENGTH = content := by
  unfold makePacket at h
  dsimp only at h
  split at h
  · cases h
  next hshort =>
  split at h
  · cases h
  next hfits =>
  cases h
  refine ⟨Nat.not_lt.mp hfits, Nat.not_le.mp hshort, ?_, ?_, ?_, rfl⟩
  · exact Nat.le_add_left HEADER_LENGTH content.length
  · exact word16_be16 opcode1 (be16 opcode2 ++ content)
  · exact word16_be16 opcode2 content

theorem FlowsControlClient.writeChannels_ofBytes (data : List Byte) (channels : List (Option (BitVec 16))) :
    writeChannels (ofBytes data) channels =
      ofBytes (data ++ (channels.map (·.getD 0)).flatMap be16) := by
  induction channels generalizing data with
  | nil => rw [List.map_nil, List.flatMap_nil, List.append_nil]; rfl
  | cons ch channels ih =>
      show writeChannels ((ofBytes data).writeU16 (ch.getD 0)) channels = _
      rw [ofBytes_writeU16, ih, List.map_cons, List.flatMap_cons, List.append_assoc]

theorem length_flatMap_be16 (words : List (BitVec 16)) :
    (words.flatMap be16).length = 2 * words.length := by
  induction words with
  | nil => rfl
  | cons w words ih =>
      rw [List.flatMap_cons, List.length_append, length_be16, ih, List.length_cons]
      omega

/-- Channel ids that were written are read as indices. -/
theorem channelIds_at {pre : List Byte} {i : Nat} (hi : pre.length = i)
    {channels : List (Option (BitVec 16))} (hids : ∀ ch ∈ channels, ch ≠ some 0)
    (rest : List Byte) :
    channelIds (pre ++ ((channels.map (·.getD 0)).flatMap be16 ++ rest)) i channels.length =
      channels.map (Option.map (·.toNat - 1)) := by
  refine List.ext_getElem ?_ fun k hk hk' => ?_
  · rw [channelIds, List.length_map, List.length_map, List.length_range]
  have hlt : k < channels.length := by rwa [List.length_map] at hk'
  have hword : u16At (pre ++ ((channels.map (·.getD 0)).flatMap be16 ++ rest)) (i + k * 2) =
      channels[k].getD 0 := by
    have hflat := @word16_flatMap (channels.map (·.getD 0)) k (by rw [List.length_map]; exact hlt)
      rest
    rw [List.getElem_map] at hflat
    rw [← hi]
    exact (word16_append_length _ _ _).trans hflat
  have hid := hids channels[k] (List.getElem_mem hlt)
  simp only [channelIds, List.getElem_map, List.getElem_range]
  rw [hword]
  cases hch : channels[k] with
  | none => rfl
  | some id =>
      rw [hch] at hid
      rw [Option.getD_some, if_neg (fun h0 => hid (congrArg some h0))]
      rfl

/-- A string the protocol can carry. -/
def NoNul (s : String) : Prop := ∀ c ∈ s.toList, c ≠ '\x00'

instance (s : String) : Decidable (NoNul s) :=
  decidable_of_iff (s.toList.all (· ≠ '\x00') = true) (by
    rw [List.all_eq_true]
    exact forall₂_congr fun c _ => decide_eq_true_iff)

/-- The content of a request in four parts: a head and a tail of fixed length
with the channels between them, then the strings and, behind so many zeros, the
socket descriptor. -/
structure RequestLayout where
  self : RequestingDevice
  args : FlowRequestArgs
  zeros : Nat

namespace RequestLayout

variable (l : RequestLayout)

/-- Positions in the packet. -/
def stringsOffset : Nat := 0x26 + l.args.channels.length * 2 + HEADER_LENGTH

def nameOffset : Nat := (utf8 l.self.friendlyHostname).length + 1 + l.stringsOffset

def descrOffset : Nat := l.nameOffset + (utf8 l.args.rxFlowName).length + 1 + l.zeros

def head : List Byte :=
  be16 (BitVec.ofNat 16 l.stringsOffset) ++ (be32 l.args.sampleRate ++
    (be32 l.args.bitsPerSample ++ (be16 1 ++ (be16 (BitVec.ofNat 16 l.args.channels.length) ++
      be16 (BitVec.ofNat 16 l.descrOffset)))))

def channels : List Byte := (l.args.channels.map (·.getD 0)).flatMap be16

def tail : List Byte :=
  be16 (BitVec.ofNat 16 (0x1c + 2 * l.args.channels.length)) ++ (be16 0x0a00 ++ (be16 0x0002 ++
    (be16 l.args.fpp ++ (be16 (BitVec.ofNat 16 l.nameOffset) ++ List.replicate 12 0))))

def descr : List Byte := be16 0x0802 ++ (be16 l.args.rxPort ++ be32 l.self.ipAddress)

def content : List Byte :=
  l.head ++ (l.channels ++ (l.tail ++ (utf8 l.self.friendlyHostname ++ 0 ::
    (utf8 l.args.rxFlowName ++ 0 :: (List.replicate l.zeros 0 ++ l.descr)))))

theorem length_head : l.head.length = 16 := rfl

theorem length_tail : l.tail.length = 22 := rfl

theorem length_channels : l.channels.length = 2 * l.args.channels.length := by
  rw [channels, length_flatMap_be16, List.length_map]

end RequestLayout

theorem requestContent_eq (self : RequestingDevice) (a : FlowRequestArgs) :
    ∃ zeros, FlowsControlClient.requestContent self a =
      some (RequestLayout.content ⟨self, a, zeros⟩) := by
  have hstrings : (((new.writeBytes (utf8 self.friendlyHostname)).writeU8 0).writeBytes
      (utf8 a.rxFlowName)).writeU8 0 = ofBytes (utf8 self.friendlyHostname ++ [0] ++
        utf8 a.rxFlowName ++ [0]) := by
    rw [new_eq, ofBytes_writeBytes, ofBytes_writeU8, ofBytes_writeBytes, ofBytes_writeU8,
      List.nil_append]
  obtain ⟨zeros, _, hpad, _⟩ := @padLoop_aligned (0x26 + a.channels.length * 2 + HEADER_LENGTH) 8
    (by decide) (utf8 self.friendlyHostname ++ [0] ++ utf8 a.rxFlowName ++ [0])
  have hname : (utf8 self.friendlyHostname ++ [0]).length +
      (0x26 + a.channels.length * 2 + HEADER_LENGTH) =
        RequestLayout.nameOffset ⟨self, a, zeros⟩ := by
    rw [List.length_append]
    rfl
  have hdescr : (utf8 self.friendlyHostname ++ [0] ++ utf8 a.rxFlowName ++ [0] ++
      List.replicate zeros 0).length + (0x26 + a.channels.length * 2 + HEADER_LENGTH) =
        RequestLayout.descrOffset ⟨self, a, zeros⟩ := by
    rw [RequestLayout.descrOffset, ← hname]
    simp only [List.length_append, List.length_singleton, List.length_replicate]
    omega
  refine ⟨zeros, ?_⟩
  unfold FlowsControlClient.requestContent
  dsimp only
  rw [hstrings, hpad]
  simp only [new_eq, ofBytes_writeBytes, ofBytes_writeU8, ofBytes_writeU16, ofBytes_writeU32,
    FlowsControlClient.writeChannels_ofBytes, ofBytes_wpos, ofBytes_data, List.nil_append]
  rw [hname, hdescr, if_neg]
  · refine congrArg some ?_
    simp only [RequestLayout.content, RequestLayout.head, RequestLayout.channels,
      RequestLayout.tail, RequestLayout.descr, RequestLayout.stringsOffset, List.append_assoc,
      List.cons_append, List.nil_append]
  · -- the body ends where the strings begin
    simp only [List.length_append, length_be16, length_be32, length_flatMap_be16, List.length_map,
      List.length_replicate, not_not]
    omega

namespace RequestLayout

variable {l : RequestLayout}

/-- The packet up to the strings. -/
def front (l : RequestLayout) (header : List Byte) : List Byte :=
  header ++ (l.head ++ (l.channels ++ l.tail))

theorem length_front {header : List Byte} (hheader : header.length = HEADER_LENGTH) :
    (l.front header).length = l.stringsOffset := by
  rw [front, List.length_append, List.length_append, List.length_append, hheader, length_head,
    length_channels, length_tail, stringsOffset]
  omega

theorem packet_eq {header : List Byte} : header ++ l.content = l.front header ++
    (utf8 l.self.friendlyHostname ++ 0 :: (utf8 l.args.rxFlowName ++ 0 ::
      (List.replicate l.zeros 0 ++ l.descr))) := by
  simp only [content, front, List.append_assoc]

/-- The fields of the head, as the server reads them. -/
theorem head_fields (l : RequestLayout) :
    u16At l.content 0 = BitVec.ofNat 16 l.stringsOffset ∧ u32At l.content 2 = l.args.sampleRate ∧
      u32At l.content 6 = l.args.bitsPerSample ∧
      u16At l.content 12 = BitVec.ofNat 16 l.args.channels.length ∧
      u16At l.content 14 = BitVec.ofNat 16 l.descrOffset := by
  show word16 _ 0 = _ ∧ word32 _ 2 = _ ∧ word32 _ 6 = _ ∧ word16 _ 12 = _ ∧ word16 _ 14 = _
  simp only [content, head, List.append_assoc, word16_be16, word32_be32, word16_skip16,
    word16_skip32, word32_skip16, word32_skip32, and_self]

/-- The fields of the tail. -/
theorem tail_fields (l : RequestLayout) :
    u16At l.content (16 + 2 * l.args.channels.length + 6) = l.args.fpp ∧
      u16At l.content (16 + 2 * l.args.channels.length + 8) = BitVec.ofNat 16 l.nameOffset := by
  have hpre : (l.head ++ l.channels).length = 16 + 2 * l.args.channels.length := by
    rw [List.length_append, length_head, length_channels]
  have hcontent : l.content = (l.head ++ l.channels) ++ (l.tail ++
      (utf8 l.self.friendlyHostname ++ 0 :: (utf8 l.args.rxFlowName ++ 0 ::
        (List.replicate l.zeros 0 ++ l.descr)))) := by
    simp only [content, List.append_assoc]
  rw [hcontent, ← hpre]
  show word16 _ _ = _ ∧ word16 _ _ = _
  rw [word16_append_length, word16_append_length]
  simp only [tail, List.append_assoc, word16_be16, word16_skip16, and_self]

theorem length_content (l : RequestLayout) :
    l.content.length + HEADER_LENGTH = l.descrOffset + 8 := by
  simp only [content, List.length_append, List.length_cons, length_head, length_channels,
    length_tail, List.length_replicate, descrOffset, nameOffset, stringsOffset]
  rw [show l.descr.length = 8 from rfl]
  omega

/-- The strings and the socket descriptor stand where their offsets say. -/
theorem read_strings (l : RequestLayout) {header : List Byte}
    (hheader : header.length = HEADER_LENGTH) (hhost : NoNul l.self.friendlyHostname)
    (hname : NoNul l.args.rxFlowName) :
    read0termStrFromBuffer (header ++ l.content) l.stringsOffset =
        some (some l.self.friendlyHostname) ∧
      read0termStrFromBuffer (header ++ l.content) l.nameOffset = some (some l.args.rxFlowName) ∧
      u16At (header ++ l.content) (l.descrOffset + 2) = l.args.rxPort ∧
      u32At (header ++ l.content) (l.descrOffset + 4) = l.self.ipAddress := by
  have hfront := l.length_front hheader
  have hpre : (l.front header ++ (utf8 l.self.friendlyHostname ++ [0])).length = l.nameOffset := by
    rw [List.length_append, List.length_append, hfront, nameOffset, Nat.add_comm]
    rfl
  have hpre' : (l.front header ++ (utf8 l.self.friendlyHostname ++ [0]) ++
      (utf8 l.args.rxFlowName ++ (0 :: List.replicate l.zeros 0))).length = l.descrOffset := by
    rw [List.length_append, hpre, List.length_append, List.length_cons, List.length_replicate,
      descrOffset]
    omega
  have hname_eq : header ++ l.content = (l.front header ++ (utf8 l.self.friendlyHostname ++ [0])) ++
      (utf8 l.args.rxFlowName ++ 0 :: (List.replicate l.zeros 0 ++ l.descr)) := by
    rw [packet_eq]
    simp only [List.append_assoc, List.singleton_append]
  have hdescr_eq : header ++ l.content = (l.front header ++ (utf8 l.self.friendlyHostname ++ [0]) ++
      (utf8 l.args.rxFlowName ++ (0 :: List.replicate l.zeros 0))) ++ l.descr := by
    rw [hname_eq]
    simp only [List.append_assoc, List.cons_append]
  refine ⟨?_, ?_, ?_, ?_⟩
  · rw [packet_eq]
    exact read0term_at hfront hhost _
  · rw [hname_eq]
    exact read0term_at hpre hname _
  · rw [hdescr_eq, ← hpre']
    show word16 _ _ = _
    rw [word16_append_length]
    simp only [descr, word16_skip16, word16_be16]
  · rw [hdescr_eq, ← hpre']
    show word32 _ _ = _
    rw [word32_append_length, ← List.append_nil l.descr]
    simp only [descr, List.append_assoc, word32_skip16, word32_be32]

end RequestLayout

/-! ## What the server makes of it -/

/-- The request as the server has it. -/
def FlowRequestArgs.asRequest (a : FlowRequestArgs) (self : RequestingDevice) : FlowRequest where
  info := {
    rxHostname := some self.friendlyHostname
    rxFlowName := some a.rxFlowName
    dstAddr := self.ipAddress
    dstPort := a.rxPort
    localChannelIndices := a.channels.map (Option.map (·.toNat - 1)) }
  fpp := a.fpp.toNat
  bytesPerSample := a.bitsPerSample.toNat / 8

theorem request_parsed {self : RequestingDevice} (hhost : NoNul self.friendlyHostname)
    {a : FlowRequestArgs} (hname : NoNul a.rxFlowName) (hids : ∀ ch ∈ a.channels, ch ≠ some 0)
    {seqnum : BitVec 16} {packet : List Byte}
    (hpacket : FlowsControlClient.requestFlow self seqnum a = some packet)
    (selfInfo : DeviceInfo) :
    u32At (packet.drop HEADER_LENGTH) 6 = a.bitsPerSample ∧ parseRequest selfInfo packet =
      checkRequest selfInfo packet a.sampleRate (a.asRequest self) := by
  obtain ⟨zeros, hcontent⟩ := requestContent_eq self a
  unfold FlowsControlClient.requestFlow at hpacket
  simp only [hcontent, Option.bind_eq_bind, Option.bind_some] at hpacket
  obtain ⟨hmtu, _, hlen, _, _, hdrop⟩ := makePacket_toOption hpacket
  have hsplit : packet = packet.take HEADER_LENGTH ++ RequestLayout.content ⟨self, a, zeros⟩ := by
    rw [← hdrop, List.take_append_drop]
  have hheader : (packet.take HEADER_LENGTH).length = HEADER_LENGTH := by
    rw [List.length_take, Nat.min_eq_left hlen]
  obtain ⟨hso, hrate, hbits, hn, hdo⟩ := RequestLayout.head_fields ⟨self, a, zeros⟩
  obtain ⟨hfpp, hno⟩ := RequestLayout.tail_fields ⟨self, a, zeros⟩
  obtain ⟨hhost', hname', hport, hip⟩ := RequestLayout.read_strings ⟨self, a, zeros⟩ hheader hhost
    hname
  rw [← hsplit] at hhost' hname' hport hip
  have hsize := RequestLayout.length_content ⟨self, a, zeros⟩
  have hstart : RequestLayout.stringsOffset ⟨self, a, zeros⟩ = 48 + a.channels.length * 2 := by
    show 0x26 + a.channels.length * 2 + 10 = _
    omega
  have hmiddle : RequestLayout.nameOffset ⟨self, a, zeros⟩ =
      (utf8 self.friendlyHostname).length + 1 + RequestLayout.stringsOffset ⟨self, a, zeros⟩ := rfl
  have hend : RequestLayout.descrOffset ⟨self, a, zeros⟩ =
      RequestLayout.nameOffset ⟨self, a, zeros⟩ + (utf8 a.rxFlowName).length + 1 + zeros := rfl
  have hpacketLen : packet.length = RequestLayout.descrOffset ⟨self, a, zeros⟩ + 8 := by
    rw [hsplit, List.length_append, hheader, ← hsize, Nat.add_comm]
  have hten : HEADER_LENGTH = 10 := rfl
  unfold MTU at hmtu
  dsimp only at hn hfpp hno
  have hnat : ∀ k, k ≤ RequestLayout.descrOffset ⟨self, a, zeros⟩ →
      (BitVec.ofNat 16 k).toNat = k := by
    intro k hk
    rw [BitVec.toNat_ofNat]
    exact Nat.mod_eq_of_lt (by omega)
  have htail : (16 + BitVec.ofNat 16 a.channels.length * 2 + 6).toNat =
      16 + 2 * a.channels.length + 6 := by
    have hlt := hnat a.channels.length (by omega)
    bv_omega
  have hchannels : channelIds (RequestLayout.content ⟨self, a, zeros⟩) 16 a.channels.length =
      a.channels.map (Option.map (·.toNat - 1)) :=
    channelIds_at (RequestLayout.length_head _) hids _
  refine ⟨by rw [hdrop, hbits], ?_⟩
  unfold parseRequest
  dsimp only
  rw [hdrop, hso, hrate, hbits, hn, hdo, htail, hfpp, hno, hnat _ (by omega), hnat _ (by omega),
    hnat _ (by omega), hnat _ (by omega), hchannels, hhost', hname', hport, hip,
    if_neg (by omega), if_neg (by omega)]
  dsimp only
  rw [if_neg (by omega)]
  rfl

theorem update_parsed {handle : FlowHandle} (hhandle : handle.length = 6)
    {channels : List (Option (BitVec 16))} (hids : ∀ ch ∈ channels, ch ≠ some 0)
    {seqnum : BitVec 16} {packet : List Byte}
    (hpacket : FlowsControlClient.updateFlow seqnum handle channels = some packet) :
    parseUpdate packet = .act [] (handle, channels.map (Option.map (·.toNat - 1))) := by
  unfold FlowsControlClient.updateFlow at hpacket
  simp only [new_eq, ofBytes_writeBytes, ofBytes_writeU16, ofBytes_data, List.nil_append,
    FlowsControlClient.writeChannels_ofBytes] at hpacket
  obtain ⟨_, hsize, _, _, _, hdrop⟩ := makePacket_toOption hpacket
  rw [List.length_append, List.length_append, length_flatMap_be16, List.length_map, hhandle] at hsize
  have hn : u16At (packet.drop HEADER_LENGTH) 6 = BitVec.ofNat 16 channels.length := by
    rw [hdrop, List.append_assoc]
    exact word16_at hhandle _ _
  have hnat : (BitVec.ofNat 16 channels.length).toNat = channels.length := by
    rw [BitVec.toNat_ofNat]
    exact Nat.mod_eq_of_lt (by rw [length_be16] at hsize; omega)
  have hlen : (packet.drop HEADER_LENGTH).length = 8 + channels.length * 2 := by
    rw [hdrop, List.length_append, List.length_append, length_flatMap_be16, List.length_map,
      hhandle, length_be16]
    omega
  have hhead : (packet.drop HEADER_LENGTH).take 6 = handle := by
    rw [hdrop, List.append_assoc, ← hhandle, List.take_left]
  have hchannels : channelIds (packet.drop HEADER_LENGTH) 8 channels.length =
      channels.map (Option.map (·.toNat - 1)) := by
    rw [hdrop, ← List.append_nil (List.flatMap _ _)]
    exact channelIds_at (by rw [List.length_append, hhandle, length_be16]) hids []
  unfold parseUpdate
  dsimp only
  rw [hn, hnat, hhead, hchannels, if_neg (by omega), if_neg (by omega)]

theorem stop_parsed {handle : FlowHandle} (hhandle : handle.length = 6) {seqnum : BitVec 16}
    {packet : List Byte} (hpacket : FlowsControlClient.stopFlow seqnum handle = some packet) :
    parseStop packet = .act [] handle := by
  unfold FlowsControlClient.stopFlow at hpacket
  rw [new_eq, ofBytes_writeBytes, ofBytes_data, List.nil_append] at hpacket
  obtain ⟨_, _, _, _, _, hdrop⟩ := makePacket_toOption hpacket
  unfold parseStop
  dsimp only
  rw [hdrop, if_pos hhandle]

/-- The server takes a datagram for this kind of request. -/
def IsRequest (opcode1 : BitVec 16) (packet : List Byte) : Prop :=
  HEADER_LENGTH ≤ packet.length ∧ u16At packet 6 = opcode1 ∧ u16At packet 8 = 0

/-- The server reads from each kind of request what the client was given. -/
theorem client_server_agree (self : RequestingDevice) (seqnum : BitVec 16)
    (selfInfo : DeviceInfo) :
    (∀ a packet, NoNul self.friendlyHostname → NoNul a.rxFlowName →
      (∀ ch ∈ a.channels, ch ≠ some 0) →
      FlowsControlClient.requestFlow self seqnum a = some packet →
      IsRequest 0x0100 packet ∧ u32At (packet.drop HEADER_LENGTH) 6 = a.bitsPerSample ∧
        parseRequest selfInfo packet =
          checkRequest selfInfo packet a.sampleRate (a.asRequest self)) ∧
    (∀ handle channels packet, handle.length = 6 → (∀ ch ∈ channels, ch ≠ some 0) →
      FlowsControlClient.updateFlow seqnum handle channels = some packet →
      IsRequest 0x0102 packet ∧
        parseUpdate packet = .act [] (handle, channels.map (Option.map (·.toNat - 1)))) ∧
    (∀ handle packet, handle.length = 6 →
      FlowsControlClient.stopFlow seqnum handle = some packet →
      IsRequest 0x0101 packet ∧ parseStop packet = .act [] handle) := by
  refine ⟨fun a packet hhost hname hids hpacket => ⟨?_, ?_⟩,
    fun handle channels packet hhandle hids hpacket => ⟨?_, ?_⟩,
    fun handle packet hhandle hpacket => ⟨?_, ?_⟩⟩
  · obtain ⟨content, _, hmake⟩ := Option.bind_eq_some_iff.mp hpacket
    obtain ⟨_, _, hlen, hop1, hop2, _⟩ := makePacket_toOption hmake
    exact ⟨hlen, hop1, hop2⟩
  · exact request_parsed hhost hname hids hpacket selfInfo
  · obtain ⟨_, _, hlen, hop1, hop2, _⟩ := makePacket_toOption hpacket
    exact ⟨hlen, hop1, hop2⟩
  · exact update_parsed hhandle hids hpacket
  · obtain ⟨_, _, hlen, hop1, hop2, _⟩ := makePacket_toOption hpacket
    exact ⟨hlen, hop1, hop2⟩
  · exact stop_parsed hhandle hpacket

/-- A request from `rx` for its flow `1_0`: the first channel and a gap. -/
def sampleArgs : FlowRequestArgs := ⟨48000, 24, 16, [some 1, none], 14336, "1_0"⟩

theorem client_server_agree_sampleArgs :
    ∃ packet, FlowsControlClient.requestFlow ⟨"rx", 0x0a000001⟩ 7 sampleArgs = some packet ∧
      parseRequest ⟨48000, 2⟩ packet = .act [] (sampleArgs.asRequest ⟨"rx", 0x0a000001⟩) := by
  have hsome : (FlowsControlClient.requestFlow ⟨"rx", 0x0a000001⟩ 7 sampleArgs).isSome = true := by
    decide +kernel
  obtain ⟨packet, hpacket⟩ := Option.isSome_iff_exists.mp hsome
  obtain ⟨_, _, hparse⟩ := (client_server_agree ⟨"rx", 0x0a000001⟩ 7 ⟨48000, 2⟩).1 sampleArgs
    packet (by decide) (by decide) (by simp [sampleArgs]) hpacket
  refine ⟨packet, hpacket, hparse.trans ?_⟩
  rfl

end Inferno
