import Inferno.FlowsRequest
import Inferno.Lib.BinaryLayout

/-!
# Framing packets

`req_resp::make_packet` and `mcast::make_packet`: both check the length, cut
the packet out of a buffer, and write the fields of their layout and the content
behind them. What is written is read back with the layout, whatever was in the
buffer (`framePacket_read`). The length field has sixteen bits, and one of the
two checks lets through the length that is one too large for it
(`framed_iff`).
-/

namespace Inferno

open ByteBuffer BinaryLayout

/-! ## Building a packet -/

/-- Either `make_packet`: `header` are the values of the fields in front of the
content, with the length they tell. -/
def framePacket (tooLarge : Nat → Bool) (header : BitVec 16 → List (List Byte))
    (headerLength : Nat) (buffer content : List Byte) : Except String (List Byte) :=
  let totalLen := content.length + headerLength
  if tooLarge totalLen then .error "packet payload too large (exceeds u16 max)"
  else if buffer.length < totalLen then .error "buffer too small for packet"
  else .ok (writeAll (fieldsFrom 0 (header (BitVec.ofNat 16 totalLen) ++ [content]))
    (buffer.take totalLen))

section

variable {tooLarge : Nat → Bool} {headerLength : Nat} {header : BitVec 16 → List (List Byte)}
  {buffer content pkt : List Byte}

theorem framePacket_ok_iff :
    (∃ pkt, framePacket tooLarge header headerLength buffer content = .ok pkt) ↔
      tooLarge (content.length + headerLength) = false ∧
        content.length + headerLength ≤ buffer.length := by
  unfold framePacket
  dsimp only
  split
  next hlarge => exact iff_of_false (fun ⟨_, h⟩ => (by cases h)) fun h => by simp_all
  next hfits =>
    rw [Bool.not_eq_true] at hfits
    split
    next hsmall => exact iff_of_false (fun ⟨_, h⟩ => (by cases h)) fun h => absurd h.2 (by omega)
    next hroom => exact iff_of_true ⟨_, rfl⟩ ⟨hfits, Nat.not_lt.mp hroom⟩

/-- Every field of a packet is read back, and nothing else is in it. -/
theorem framePacket_read (hheader : ∀ len, (header len).flatten.length = headerLength)
    (h : framePacket tooLarge header headerLength buffer content = .ok pkt) :
    pkt.length = content.length + headerLength ∧
      pkt = (header (BitVec.ofNat 16 pkt.length)).flatten ++ content ∧
      ∀ e ∈ fieldsFrom 0 (header (BitVec.ofNat 16 pkt.length) ++ [content]),
        read e.1 pkt = e.2 := by
  obtain ⟨hfits, hroom⟩ := framePacket_ok_iff.mp ⟨pkt, h⟩
  unfold framePacket at h
  dsimp only at h
  rw [if_neg (Bool.not_eq_true _ ▸ hfits), if_neg (Nat.not_lt.mpr hroom)] at h
  cases h
  have hlen : (buffer.take (content.length + headerLength)).length =
      content.length + headerLength := List.length_take_of_le hroom
  have htotal : 0 + (header (BitVec.ofNat 16 (content.length + headerLength)) ++
      [content]).flatten.length = (buffer.take (content.length + headerLength)).length := by
    rw [hlen, List.flatten_append, List.length_append, hheader, List.flatten_cons, List.flatten_nil,
      List.append_nil]
    omega
  have hall := fieldsFrom_fits (Nat.le_of_eq htotal)
  rw [length_writeAll hall, hlen]
  refine ⟨rfl, ?_, fun e he => read_writeAll hall (fieldsFrom_apart _ _) he⟩
  rw [writeAll_fieldsFrom htotal, List.take_zero, List.nil_append, List.flatten_append,
    List.flatten_cons, List.flatten_nil, List.append_nil]

end

/-! ## The two layouts -/

namespace ReqResp

/-- The fields of `req_resp_packet`. -/
structure View where
  startCode : BitVec 16
  totalLength : BitVec 16
  seqnum : BitVec 16
  opcode1 : BitVec 16
  opcode2 : BitVec 16
  content : List Byte

/-- `req_resp_packet::View::new`, and each field read. -/
def View.new (pkt : List Byte) : View where
  startCode := word16 (read ⟨0, 2⟩ pkt) 0
  totalLength := word16 (read ⟨2, 2⟩ pkt) 0
  seqnum := word16 (read ⟨4, 2⟩ pkt) 0
  opcode1 := word16 (read ⟨6, 2⟩ pkt) 0
  opcode2 := word16 (read ⟨8, 2⟩ pkt) 0
  content := read ⟨10, pkt.length - 10⟩ pkt

/-- `make_packet`. -/
def makePacket (buf : List Byte) (startCode seqnum opcode1 opcode2 : BitVec 16)
    (content : List Byte) : Except String (List Byte) :=
  framePacket (fun totalLen => totalLen ≥ 2 ^ 16) (fun totalLength =>
    [be16 startCode, be16 totalLength, be16 seqnum, be16 opcode1, be16 opcode2])
    HEADER_LENGTH buf content

end ReqResp

namespace Mcast

def HEADER_LENGTH : Nat := 32

/-- The fields of `mcast_packet`. -/
structure View where
  startCode : BitVec 16
  totalLength : BitVec 16
  seqnum : BitVec 16
  process : BitVec 16
  factoryDeviceId : List Byte
  vendor : List Byte
  opcode : List Byte
  content : List Byte

/-- `mcast_packet::View::new`, and each field read. -/
def View.new (pkt : List Byte) : View where
  startCode := word16 (read ⟨0, 2⟩ pkt) 0
  totalLength := word16 (read ⟨2, 2⟩ pkt) 0
  seqnum := word16 (read ⟨4, 2⟩ pkt) 0
  process := word16 (read ⟨6, 2⟩ pkt) 0
  factoryDeviceId := read ⟨8, 8⟩ pkt
  vendor := read ⟨16, 8⟩ pkt
  opcode := read ⟨24, 8⟩ pkt
  content := read ⟨32, pkt.length - 32⟩ pkt

/-- `make_packet`; a length of `2 ^ 16` passes its check. -/
def makePacket (buffer : List Byte) (startCode seqnum process : BitVec 16)
    (factoryDeviceId vendorStr opcode : Vector Byte 8) (content : List Byte) :
    Except String (List Byte) :=
  framePacket (fun totalLen => totalLen > 2 ^ 16) (fun totalLength =>
    [be16 startCode, be16 totalLength, be16 seqnum, be16 process, factoryDeviceId.toList,
      vendorStr.toList, opcode.toList])
    HEADER_LENGTH buffer content

end Mcast

/-! ## Reading back -/

variable {buffer content pkt : List Byte}

theorem ReqResp.makePacket_ok_iff (buffer content : List Byte)
    (startCode seqnum opcode1 opcode2 : BitVec 16) :
    (∃ pkt, makePacket buffer startCode seqnum opcode1 opcode2 content = .ok pkt) ↔
      content.length + Inferno.HEADER_LENGTH < 2 ^ 16 ∧
        content.length + Inferno.HEADER_LENGTH ≤ buffer.length := by
  rw [makePacket, framePacket_ok_iff, decide_eq_false_iff_not, Nat.not_le]

theorem Mcast.makePacket_ok_iff (buffer content : List Byte)
    (startCode seqnum process : BitVec 16)
    (factoryDeviceId vendorStr opcode : Vector Byte 8) :
    (∃ pkt, makePacket buffer startCode seqnum process factoryDeviceId vendorStr opcode content =
        .ok pkt) ↔
      content.length + HEADER_LENGTH ≤ 2 ^ 16 ∧
        content.length + HEADER_LENGTH ≤ buffer.length := by
  rw [makePacket, framePacket_ok_iff, decide_eq_false_iff_not, Nat.not_lt]

theorem ReqResp.length_header (startCode seqnum opcode1 opcode2 len : BitVec 16) :
    [be16 startCode, be16 len, be16 seqnum, be16 opcode1, be16 opcode2].flatten.length =
      Inferno.HEADER_LENGTH := by
  simp [Inferno.HEADER_LENGTH]

theorem Mcast.length_header (startCode seqnum process len : BitVec 16)
    (factoryDeviceId vendorStr opcode : Vector Byte 8) :
    [be16 startCode, be16 len, be16 seqnum, be16 process, factoryDeviceId.toList,
      vendorStr.toList, opcode.toList].flatten.length = HEADER_LENGTH := by
  simp [HEADER_LENGTH]

theorem word16_of_eq {bytes : List Byte} {x : BitVec 16} (h : bytes = be16 x) :
    word16 bytes 0 = x := by
  rw [h]
  exact word16_be16 x []

/-- A packet is read with its fields, and it tells its length. -/
theorem ReqResp.view_makePacket {buf : List Byte} {startCode seqnum opcode1 opcode2 : BitVec 16}
    (h : makePacket buf startCode seqnum opcode1 opcode2 content = .ok pkt) :
    pkt.length = content.length + Inferno.HEADER_LENGTH ∧ View.new pkt =
      ⟨startCode, BitVec.ofNat 16 pkt.length, seqnum, opcode1, opcode2, content⟩ := by
  obtain ⟨hlen, _, hread⟩ :=
    framePacket_read (ReqResp.length_header startCode seqnum opcode1 opcode2) h
  simp only [List.cons_append, List.nil_append, fieldsFrom, List.forall_mem_cons, length_be16,
    Nat.reduceAdd] at hread
  obtain ⟨h0, h2, h4, h6, h8, hcontent, _⟩ := hread
  have hrest : pkt.length - 10 = content.length := by rw [hlen]; exact Nat.add_sub_cancel _ _
  refine ⟨hlen, ?_⟩
  rw [View.new, word16_of_eq h0, word16_of_eq h2, word16_of_eq h4, word16_of_eq h6,
    word16_of_eq h8, hrest, hcontent]

theorem Mcast.view_makePacket {buffer : List Byte} {startCode seqnum process : BitVec 16}
    {factoryDeviceId vendorStr opcode : Vector Byte 8}
    (h : makePacket buffer startCode seqnum process factoryDeviceId vendorStr opcode content =
      .ok pkt) :
    pkt.length = content.length + HEADER_LENGTH ∧ View.new pkt =
      ⟨startCode, BitVec.ofNat 16 pkt.length, seqnum, process, factoryDeviceId.toList,
        vendorStr.toList, opcode.toList, content⟩ := by
  obtain ⟨hlen, _, hread⟩ := framePacket_read
    (fun len => Mcast.length_header startCode seqnum process len factoryDeviceId vendorStr opcode) h
  simp only [List.cons_append, List.nil_append, fieldsFrom, List.forall_mem_cons, length_be16,
    Vector.length_toList, Nat.reduceAdd] at hread
  obtain ⟨h0, h2, h4, h6, h8, h16, h24, hcontent, _⟩ := hread
  have hrest : pkt.length - 32 = content.length := by rw [hlen]; exact Nat.add_sub_cancel _ _
  refine ⟨hlen, ?_⟩
  rw [View.new, word16_of_eq h0, word16_of_eq h2, word16_of_eq h4, word16_of_eq h6, h8, h16, h24,
    hrest, hcontent]

/-- The packets of requests and answers, whatever was in the buffer. -/
theorem ReqResp.makePacket_eq (buf : List Byte) (startCode seqnum opcode1 opcode2 : BitVec 16)
    (content : List Byte) :
    makePacket buf startCode seqnum opcode1 opcode2 content =
      Inferno.makePacket buf.length startCode seqnum opcode1 opcode2 content := by
  by_cases hlarge : content.length + Inferno.HEADER_LENGTH ≥ 2 ^ 16
  · unfold makePacket framePacket Inferno.makePacket
    dsimp only
    rw [if_pos (decide_eq_true hlarge), if_pos hlarge]
  by_cases hsmall : buf.length < content.length + Inferno.HEADER_LENGTH
  · unfold makePacket framePacket Inferno.makePacket
    dsimp only
    rw [if_neg (by simpa using hlarge), if_neg hlarge, if_pos hsmall, if_pos hsmall]
  · obtain ⟨pkt, hpkt⟩ : ∃ pkt, makePacket buf startCode seqnum opcode1 opcode2 content = .ok pkt :=
      framePacket_ok_iff.mpr ⟨decide_eq_false hlarge, Nat.not_lt.mp hsmall⟩
    obtain ⟨hlen, heq, _⟩ :=
      framePacket_read (ReqResp.length_header startCode seqnum opcode1 opcode2) hpkt
    rw [hpkt, Inferno.makePacket, if_neg hlarge, if_neg hsmall, heq, hlen]
    simp

/-! ## Framing is right -/

/-- A packet to be made: the fields of one layout or of the other. -/
inductive PacketHeader where
  | reqResp (startCode seqnum opcode1 opcode2 : BitVec 16)
  | mcast (startCode seqnum process : BitVec 16) (factoryDeviceId vendorStr opcode : Vector Byte 8)

namespace PacketHeader

def headerLength : PacketHeader → Nat
  | reqResp .. => Inferno.HEADER_LENGTH
  | mcast .. => Mcast.HEADER_LENGTH

def makePacket (buffer content : List Byte) : PacketHeader → Except String (List Byte)
  | reqResp startCode seqnum opcode1 opcode2 =>
      ReqResp.makePacket buffer startCode seqnum opcode1 opcode2 content
  | mcast startCode seqnum process factoryDeviceId vendorStr opcode =>
      Mcast.makePacket buffer startCode seqnum process factoryDeviceId vendorStr opcode content

/-- The fields that a packet is read with, the length told apart. -/
def ReadFrom (content pkt : List Byte) : PacketHeader → Prop
  | reqResp startCode seqnum opcode1 opcode2 =>
      ReqResp.View.new pkt =
        ⟨startCode, (ReqResp.View.new pkt).totalLength, seqnum, opcode1, opcode2, content⟩ ∧
      (ReqResp.View.new pkt).totalLength.toNat = pkt.length
  | mcast startCode seqnum process factoryDeviceId vendorStr opcode =>
      Mcast.View.new pkt =
        ⟨startCode, (Mcast.View.new pkt).totalLength, seqnum, process, factoryDeviceId.toList,
          vendorStr.toList, opcode.toList, content⟩ ∧
      (Mcast.View.new pkt).totalLength.toNat = pkt.length

/-- A packet is read back as it was made, with its length; if none is made it
has no room, or its length does not fit the field. -/
def Framed (buffer content : List Byte) (hdr : PacketHeader) : Prop :=
  match hdr.makePacket buffer content with
  | .ok pkt => hdr.ReadFrom content pkt
  | .error _ => buffer.length < content.length + hdr.headerLength ∨
      2 ^ 16 ≤ content.length + hdr.headerLength

/-- The one packet whose length passes the check and is too large. -/
def Overlong (buffer content : List Byte) : PacketHeader → Prop
  | reqResp .. => False
  | mcast .. => content.length + Mcast.HEADER_LENGTH = 2 ^ 16 ∧ 2 ^ 16 ≤ buffer.length

theorem toNat_ofNat_length_iff {n : Nat} (h : n ≤ 2 ^ 16) :
    (BitVec.ofNat 16 n).toNat = n ↔ n ≠ 2 ^ 16 := by
  rw [BitVec.toNat_ofNat]
  omega

theorem reqResp_framed (startCode seqnum opcode1 opcode2 : BitVec 16)
    (buffer content : List Byte) :
    (reqResp startCode seqnum opcode1 opcode2).Framed buffer content := by
  have hiff := ReqResp.makePacket_ok_iff buffer content startCode seqnum opcode1 opcode2
  unfold Framed
  dsimp only [makePacket, headerLength, ReadFrom]
  cases hpkt : ReqResp.makePacket buffer startCode seqnum opcode1 opcode2 content with
  | error msg =>
      rw [hpkt] at hiff
      have hnot := mt hiff.mpr fun ⟨pkt, h⟩ => by cases h
      dsimp only
      omega
  | ok pkt =>
      obtain ⟨hlen, hview⟩ := ReqResp.view_makePacket hpkt
      obtain ⟨hlt, _⟩ := hiff.mp ⟨pkt, hpkt⟩
      dsimp only
      rw [hview]
      refine ⟨rfl, (toNat_ofNat_length_iff ?_).mpr ?_⟩ <;> omega

theorem mcast_framed_iff (startCode seqnum process : BitVec 16)
    (factoryDeviceId vendorStr opcode : Vector Byte 8) (buffer content : List Byte) :
    (mcast startCode seqnum process factoryDeviceId vendorStr opcode).Framed buffer content ↔
      ¬(content.length + Mcast.HEADER_LENGTH = 2 ^ 16 ∧ 2 ^ 16 ≤ buffer.length) := by
  have hiff := Mcast.makePacket_ok_iff buffer content startCode seqnum process factoryDeviceId
    vendorStr opcode
  unfold Framed
  dsimp only [makePacket, headerLength, ReadFrom]
  cases hpkt : Mcast.makePacket buffer startCode seqnum process factoryDeviceId vendorStr opcode
      content with
  | error msg =>
      rw [hpkt] at hiff
      have hnot := mt hiff.mpr fun ⟨pkt, h⟩ => by cases h
      dsimp only
      refine iff_of_true ?_ ?_ <;> omega
  | ok pkt =>
      obtain ⟨hlen, hview⟩ := Mcast.view_makePacket hpkt
      obtain ⟨hle, hroom⟩ := hiff.mp ⟨pkt, hpkt⟩
      dsimp only
      rw [hview]
      dsimp only
      rw [toNat_ofNat_length_iff (by omega), hlen]
      exact ⟨fun h hover => h.2 hover.1, fun h => ⟨rfl, fun hover => h ⟨hover, by omega⟩⟩⟩

/-- Packets are framed right, but for that one. -/
theorem framed_iff (hdr : PacketHeader) (buffer content : List Byte) :
    hdr.Framed buffer content ↔ ¬hdr.Overlong buffer content := by
  cases hdr with
  | reqResp startCode seqnum opcode1 opcode2 =>
      exact iff_of_true (reqResp_framed startCode seqnum opcode1 opcode2 buffer content) not_false
  | mcast startCode seqnum process factoryDeviceId vendorStr opcode =>
      exact mcast_framed_iff startCode seqnum process factoryDeviceId vendorStr opcode buffer content

/-- A notification of 65536 bytes says that it has none. -/
theorem overlong_not_framed :
    ¬∀ (hdr : PacketHeader) (buffer content : List Byte), hdr.Framed buffer content := by
  intro h
  have hlong : ∀ n, ∃ bytes : List Byte, bytes.length = n := fun n =>
    ⟨List.replicate n 0, List.length_replicate⟩
  obtain ⟨buffer, hbuffer⟩ := hlong 65536
  obtain ⟨content, hcontent⟩ := hlong 65504
  have hzeros : Vector Byte 8 := Vector.replicate 8 0
  refine (mcast_framed_iff 0 0 0 hzeros hzeros hzeros buffer content).mp (h _ _ _) ?_
  rw [hbuffer, hcontent]
  decide

end PacketHeader

end Inferno
