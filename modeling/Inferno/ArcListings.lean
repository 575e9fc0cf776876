import Inferno.ProtoArc
import Inferno.ChannelsSubscriber
import Inferno.FlowsReceiver

/-!
# The listings of the ARC server

The opcodes of `arc_server::run_server` that list channels and flows, page by
page: the records of `proto_arc.rs` with the format of their fields, and the
closures that are handed to `serialize_items`. An offset that is no `u16`, and
every other failed conversion, is a panic: `none`.
-/

namespace Inferno

open ByteBuffer BinarySerde

/-- `Channel`. -/
structure ArcChannel where
  factoryName : String
  friendlyName : String

/-- What the listings use of `DeviceInfo`. -/
structure ArcDevice where
  ipAddress : BitVec 32
  processId : BitVec 16
  rxChannels : List ArcChannel
  txChannels : List ArcChannel
  bitsPerSample : BitVec 8
  pcmType : BitVec 8
  sampleRate : BitVec 32

/-! ## Records -/

structure CommonChannelsDescriptor where
  sampleRate : BitVec 32
  unknown1_1 : BitVec 8
  unknown2_1 : BitVec 8
  bitsPerSample1 : BitVec 16
  unknown3_400 : BitVec 16
  bitsPerSample2 : BitVec 16
  bitsPerSample3 : BitVec 16
  pcmType : BitVec 16

instance : BinarySerde CommonChannelsDescriptor :=
  ofFields (fun d => (d.sampleRate, d.unknown1_1, d.unknown2_1, d.bitsPerSample1, d.unknown3_400,
    d.bitsPerSample2, d.bitsPerSample3, d.pcmType))
    (fun (a, b, c, d, e, f, g, h) => ⟨a, b, c, d, e, f, g, h⟩) fun _ => rfl

/-- `CommonChannelsDescriptor::new`. -/
def CommonChannelsDescriptor.new (selfInfo : ArcDevice) : CommonChannelsDescriptor where
  sampleRate := selfInfo.sampleRate
  unknown1_1 := 1
  unknown2_1 := 1
  bitsPerSample1 := selfInfo.bitsPerSample.setWidth 16
  unknown3_400 := 0x400
  bitsPerSample2 := selfInfo.bitsPerSample.setWidth 16
  bitsPerSample3 := selfInfo.bitsPerSample.setWidth 16
  pcmType := selfInfo.pcmType.setWidth 16

/-- `get_receive_channels::ChannelDescriptor`. -/
structure ReceiveChannelDescriptor where
  channelId : BitVec 16
  unknown1_6 : BitVec 16
  commonDescriptorOffset : BitVec 16
  txChannelNameOffset : BitVec 16
  txHostnameOffset : BitVec 16
  friendlyNameOffset : BitVec 16
  subscriptionStatus : BitVec 32
  unknown2_0 : BitVec 32

instance : BinarySerde ReceiveChannelDescriptor :=
  ofFields (fun d => (d.channelId, d.unknown1_6, d.commonDescriptorOffset, d.txChannelNameOffset,
    d.txHostnameOffset, d.friendlyNameOffset, d.subscriptionStatus, d.unknown2_0))
    (fun (a, b, c, d, e, f, g, h) => ⟨a, b, c, d, e, f, g, h⟩) fun _ => rfl

/-- `get_transmit_channels::ChannelDescriptor`. -/
structure TransmitChannelDescriptor where
  channelId : BitVec 16
  unknown1_7 : BitVec 16
  commonDescriptorOffset : BitVec 16
  nameOffset : BitVec 16

instance : BinarySerde TransmitChannelDescriptor :=
  ofFields (fun d => (d.channelId, d.unknown1_7, d.commonDescriptorOffset, d.nameOffset))
    (fun (a, b, c, d) => ⟨a, b, c, d⟩) fun _ => rfl

/-- `get_transmit_channels_friendly_names::ChannelDescriptor`. -/
structure FriendlyNameDescriptor where
  channelId1 : BitVec 16
  channelId2 : BitVec 16
  friendlyNameOffset : BitVec 16

instance : BinarySerde FriendlyNameDescriptor :=
  ofFields (fun d => (d.channelId1, d.channelId2, d.friendlyNameOffset))
    (fun (a, b, c) => ⟨a, b, c⟩) fun _ => rfl

structure DestinationSocketDescriptor where
  unknown1_8002 : BitVec 16
  port : BitVec 16
  /-- Four octets. -/
  addr : BitVec 32

instance : BinarySerde DestinationSocketDescriptor :=
  ofFields (fun d => (d.unknown1_8002, d.port, d.addr)) (fun (a, b, c) => ⟨a, b, c⟩) fun _ => rfl

/-- `query_tx_flows::NamesDescriptor`. -/
structure NamesDescriptor where
  unknown1_a00 : BitVec 16
  unknown2_1 : BitVec 16
  remoteHostnameOffset : BitVec 16
  remoteRxFlowNameOffset : BitVec 16
  unknown3_10 : BitVec 16
  localTxFlowNameOffset : BitVec 16
  /-- Eight octets. -/
  unknown4_0 : BitVec 32 × BitVec 32

instance : BinarySerde NamesDescriptor :=
  ofFields (fun d => (d.unknown1_a00, d.unknown2_1, d.remoteHostnameOffset,
    d.remoteRxFlowNameOffset, d.unknown3_10, d.localTxFlowNameOffset, d.unknown4_0))
    (fun (a, b, c, d, e, f, g) => ⟨a, b, c, d, e, f, g⟩) fun _ => rfl

/-- `query_tx_flows::FlowDescriptorHeader`. -/
structure TxFlowDescriptorHeader where
  flowId : BitVec 16
  flowType : BitVec 16
  sampleRate : BitVec 32
  unknown1_0 : BitVec 16
  bitsPerSample : BitVec 16
  unknown2_1 : BitVec 16
  channelsCount : BitVec 16
  receiverSocketDescriptorOffset : BitVec 16

instance : BinarySerde TxFlowDescriptorHeader :=
  ofFields (fun d => (d.flowId, d.flowType, d.sampleRate, d.unknown1_0, d.bitsPerSample,
    d.unknown2_1, d.channelsCount, d.receiverSocketDescriptorOffset))
    (fun (a, b, c, d, e, f, g, h) => ⟨a, b, c, d, e, f, g, h⟩) fun _ => rfl

/-- `query_rx_flows::Descriptor2`. -/
structure RxDescriptor2 where
  unknown1_9 : BitVec 16
  unknown2_1 : BitVec 16
  unknown3_800 : BitVec 16
  unknown4_0 : BitVec 16
  latencyNs : BitVec 32
  unknown5_0 : BitVec 32

instance : BinarySerde RxDescriptor2 :=
  ofFields (fun d => (d.unknown1_9, d.unknown2_1, d.unknown3_800, d.unknown4_0, d.latencyNs,
    d.unknown5_0)) (fun (a, b, c, d, e, f) => ⟨a, b, c, d, e, f⟩) fun _ => rfl

/-- `query_rx_flows::FlowDescriptorHeader`. -/
structure RxFlowDescriptorHeader where
  flowId : BitVec 16
  unknown1_1 : BitVec 16
  sampleRate : BitVec 32
  unknown2_0 : BitVec 16
  bitsPerSample : BitVec 16
  unknown3_1 : BitVec 16
  channelsCount : BitVec 16
  wordsPerBitmask : BitVec 16
  receiverSocketDescriptorOffset : BitVec 16

instance : BinarySerde RxFlowDescriptorHeader :=
  ofFields (fun d => (d.flowId, d.unknown1_1, d.sampleRate, d.unknown2_0, d.bitsPerSample,
    d.unknown3_1, d.channelsCount, d.wordsPerBitmask, d.receiverSocketDescriptorOffset))
    (fun (a, b, c, d, e, f, g, h, i) => ⟨a, b, c, d, e, f, g, h, i⟩) fun _ => rfl

/-! ## Channels -/

/-- `try_into().unwrap()` to `u16`. -/
def tryIntoU16 (n : Nat) : Option (BitVec 16) :=
  if n < 2 ^ 16 then some (BitVec.ofNat 16 n) else none

/-- `try_into().unwrap()` to `u32`. -/
def tryIntoU32 (n : Nat) : Option (BitVec 32) :=
  if n < 2 ^ 32 then some (BitVec.ofNat 32 n) else none

/-- The value of a status on the wire. -/
def SubscriptionStatus.code : SubscriptionStatus → BitVec 32
  | unresolved => 1
  | inProgress => 8
  | tooManyTxFlows => 0x14
  | txFail => 0x15
  | receivingUnicast => 0x01010009
  | receivingMulticast => 0x0101000a

/-- The common descriptor is written once, by the first call; its offset is what
the closures keep. -/
def writeCommonDescriptor (selfInfo : ArcDevice) (commonDescriptorOffset : BitVec 16)
    (bytes : ByteBuffer) : Option (BitVec 16 × ByteBuffer) :=
  if commonDescriptorOffset = 0 then do
    let offset ← tryIntoU16 bytes.wpos
    return (offset, bytes.writeBytes (binarySerialize (CommonChannelsDescriptor.new selfInfo)))
  else some (commonDescriptorOffset, bytes)

/-- The names of a subscription, or offsets that are zero. -/
def writeSubscription (bytes : ByteBuffer) :
    Option SubscriptionInfo → Option (ByteBuffer × BitVec 16 × BitVec 16)
  | none => some (bytes, 0, 0)
  | some status => do
      let (bytes, txChannelNameOffset) ← write0termStr bytes status.txChannelName
      let (bytes, txHostnameOffset) ← write0termStr bytes status.txHostname
      return (bytes, txChannelNameOffset, txHostnameOffset)

/-- The closure of `get_receive_channels`. -/
def receiveChannel (selfInfo : ArcDevice) (subscriptionsInfo : List (Option SubscriptionInfo)) :
    Transform (BitVec 16) (ArcChannel × Nat) ReceiveChannelDescriptor :=
  fun commonDescriptorOffset (ch, channelIndex) bytes => do
    let (commonDescriptorOffset, bytes) ←
      writeCommonDescriptor selfInfo commonDescriptorOffset bytes
    let status ← subscriptionsInfo[channelIndex]?
    let (bytes, txChannelNameOffset, txHostnameOffset) ← writeSubscription bytes status
    let statusValue : BitVec 32 := match status with
      | none => 0
      | some ss => ss.status.code
    let channelId ← tryIntoU16 (channelIndex + 1)
    let (bytes, friendlyNameOffset) ← write0termStr bytes ch.friendlyName
    return (commonDescriptorOffset, bytes, some {
      channelId := channelId
      unknown1_6 := 6
      commonDescriptorOffset := commonDescriptorOffset
      txChannelNameOffset := txChannelNameOffset
      txHostnameOffset := txHostnameOffset
      friendlyNameOffset := friendlyNameOffset
      subscriptionStatus := statusValue
      unknown2_0 := 0 })

/-- The closure of `get_transmit_channels`. -/
def transmitChannel (selfInfo : ArcDevice) :
    Transform (BitVec 16) (ArcChannel × Nat) TransmitChannelDescriptor :=
  fun commonDescriptorOffset (ch, channelIndex) bytes => do
    let (commonDescriptorOffset, bytes) ←
      writeCommonDescriptor selfInfo commonDescriptorOffset bytes
    let channelId ← tryIntoU16 (channelIndex + 1)
    let (bytes, nameOffset) ← write0termStr bytes ch.factoryName
    return (commonDescriptorOffset, bytes, some {
      channelId := channelId
      unknown1_7 := 7
      commonDescriptorOffset := commonDescriptorOffset
      nameOffset := nameOffset })

/-- The closure of `get_transmit_channels_friendly_names`; it keeps `wrote`. -/
def friendlyName : Transform Bool (ArcChannel × Nat) FriendlyNameDescriptor :=
  fun wrote (ch, channelIndex) bytes => do
    let bytes := if wrote then bytes else bytes.writeU32 0
    let channelId ← tryIntoU16 (channelIndex + 1)
    let (bytes, friendlyNameOffset) ← write0termStr bytes ch.friendlyName
    return (true, bytes, some {
      channelId1 := channelId
      channelId2 := channelId
      friendlyNameOffset := friendlyNameOffset })

/-- So many items at most on a page of channels. -/
def channelsSpace (channels : List ArcChannel) : Byte := BitVec.ofNat 8 (min channels.length 32)

/-- `get_receive_channels`; `none` for the subscriber means there is none yet. -/
def getReceiveChannels (selfInfo : ArcDevice)
    (subscriptionsInfo : Option (List (Option SubscriptionInfo))) (content : List Byte) :
    Option (BitVec 16 × List Byte) :=
  paginateMakeResponse content
    (if subscriptionsInfo.isSome then channelsSpace selfInfo.rxChannels else 0)
    selfInfo.rxChannels.zipIdx
    (fun offset x bytes => do receiveChannel selfInfo (← subscriptionsInfo) offset x bytes) 0

/-- `get_transmit_channels`. -/
def getTransmitChannels (selfInfo : ArcDevice) (content : List Byte) :
    Option (BitVec 16 × List Byte) :=
  paginateMakeResponse content (channelsSpace selfInfo.txChannels) selfInfo.txChannels.zipIdx
    (transmitChannel selfInfo) 0

/-- `get_transmit_channels_friendly_names`. -/
def getTransmitChannelsFriendlyNames (selfInfo : ArcDevice) (content : List Byte) :
    Option (BitVec 16 × List Byte) :=
  paginateMakeResponse content (channelsSpace selfInfo.txChannels) selfInfo.txChannels.zipIdx
    friendlyName false

/-! ## Flows -/

/-- Numbers as `u16`s, one behind the other. -/
def writeU16s (bytes : ByteBuffer) : List Nat → Option ByteBuffer
  | [] => some bytes
  | n :: ns => do
      let x ← tryIntoU16 n
      writeU16s (bytes.writeU16 x) ns

/-- What the closure of `query_tx_flows` does with a flow. -/
def txFlowDescriptor (selfInfo : ArcDevice) (flowIndex : Nat) (flowInfo : FlowInfo)
    (bytes : ByteBuffer) : Option (ByteBuffer × BitVec 16) := do
  let flowId := flowIndex + 1
  let flowName := s!"{flowId}_{selfInfo.processId.toNat}"
  let (bytes, localTxFlowNameOffset) ← write0termStr bytes flowName
  let (bytes, remoteHostnameOffset) ← write0termStrOr0 bytes flowInfo.rxHostname
  let (bytes, remoteRxFlowNameOffset) ← write0termStrOr0 bytes flowInfo.rxFlowName
  let isMulticast := remoteHostnameOffset = 0 ∧ remoteRxFlowNameOffset = 0
  let bytes := alignWpos bytes 4
  let receiverSocketDescriptorOffset ← tryIntoU16 bytes.wpos
  let bytes := bytes.writeBytes (binarySerialize (α := DestinationSocketDescriptor) {
    unknown1_8002 := 0x8002
    port := flowInfo.dstPort
    addr := flowInfo.dstAddr })
  let namesDescriptorOffset ← tryIntoU16 bytes.wpos
  let bytes := bytes.writeBytes (binarySerialize (α := NamesDescriptor) {
    unknown1_a00 := 0xa00
    unknown2_1 := 1
    remoteHostnameOffset := remoteHostnameOffset
    remoteRxFlowNameOffset := remoteRxFlowNameOffset
    unknown3_10 := 0x10
    localTxFlowNameOffset := localTxFlowNameOffset
    unknown4_0 := (0, 0) })
  let mainDescriptorOffset := bytes.wpos
  let bytes := bytes.writeBytes (binarySerialize (α := TxFlowDescriptorHeader) {
    flowId := ← tryIntoU16 flowId
    flowType := if isMulticast then 2 else 0x11
    sampleRate := selfInfo.sampleRate
    unknown1_0 := 0
    bitsPerSample := selfInfo.bitsPerSample.setWidth 16
    unknown2_1 := 1
    channelsCount := ← tryIntoU16 flowInfo.localChannelIndices.length
    receiverSocketDescriptorOffset := receiverSocketDescriptorOffset })
  -- the ids of the channels, zero for an empty slot
  let bytes ← writeU16s bytes
    (flowInfo.localChannelIndices.map fun ch => (ch.map (· + 1)).getD 0)
  let bytes := bytes.writeU16 namesDescriptorOffset
  return (bytes, ← tryIntoU16 mainDescriptorOffset)

/-- The closure of `query_tx_flows`. -/
def txFlow (selfInfo : ArcDevice) : Transform Unit (Option FlowInfo × Nat) (BitVec 16) :=
  fun _ (flowOpt, flowIndex) bytes =>
    match flowOpt with
    | none => some ((), bytes, none)
    | some flowInfo => do
        let (bytes, offset) ← txFlowDescriptor selfInfo flowIndex flowInfo bytes
        return ((), bytes, some offset)

/-- `query_tx_flows`; without a transmitter there are no flows. -/
def queryTxFlows (selfInfo : ArcDevice) (flowsTx : Option (List (Option FlowInfo)))
    (content : List Byte) : Option (BitVec 16 × List Byte) :=
  paginateMakeResponse content 16 (flowsTx.getD []).zipIdx (txFlow selfInfo) ()

/-- What the listing shows of a receiver's flow. -/
structure ListedRxFlow extends RxFlowInfo where
  rxPort : BitVec 16

/-- One word of a bitmask: sixteen channels from `chi` on, the lowest bit first. -/
def bitmaskWord (mask : List Bool) (chi : Nat) : BitVec 16 :=
  (List.range 16).foldl (fun word k =>
    word ||| if mask.getD (chi + k) false then (1 : BitVec 16) <<< k else 0) 0

/-- The words of one bitmask. -/
def writeBitmask (bytes : ByteBuffer) (mask : List Bool) (wordsPerBitmask : Nat) : ByteBuffer :=
  (List.range wordsPerBitmask).foldl (fun bytes w => bytes.writeU16 (bitmaskWord mask (w * 16)))
    bytes

/-- `bitmask_offsets`. -/
def writeBitmasks (wordsPerBitmask : Nat) :
    ByteBuffer → List (List Bool) → ByteBuffer × List Nat
  | bytes, [] => (bytes, [])
  | bytes, mask :: masks =>
      let pos := bytes.wpos
      let (bytes, offsets) := writeBitmasks wordsPerBitmask
        (writeBitmask bytes mask wordsPerBitmask) masks
      (bytes, pos :: offsets)

/-- So many words each flow's bitmasks need. -/
def wordsPerBitmask (channelsMap : List (List Bool)) : Nat :=
  let reqBitsInMask := (channelsMap.map List.length).max?.getD 0
  max ((reqBitsInMask + 15) / 16) 1

/-- The latency of a flow; the division can be by zero. -/
def rxLatencyNs (selfInfo : ArcDevice) (flowInfo : ListedRxFlow) : Option (BitVec 32) :=
  if selfInfo.sampleRate = 0 then none
  else tryIntoU32 (flowInfo.latencySamples * 1000000000 / selfInfo.sampleRate.toNat)

/-- What the closure of `query_rx_flows` does with a flow. -/
def rxFlowDescriptor (selfInfo : ArcDevice) (flowIndex : Nat) (flowInfo : ListedRxFlow)
    (bytes : ByteBuffer) : Option (ByteBuffer × BitVec 16) := do
  let bytes := alignWpos bytes 4
  let receiverSocketDescriptorOffset ← tryIntoU16 bytes.wpos
  let bytes := bytes.writeBytes (binarySerialize (α := DestinationSocketDescriptor) {
    unknown1_8002 := 0x8002
    port := flowInfo.rxPort
    addr := selfInfo.ipAddress })
  let descriptor2Offset ← tryIntoU16 bytes.wpos
  let latencyNs ← rxLatencyNs selfInfo flowInfo
  let bytes := bytes.writeBytes (binarySerialize (α := RxDescriptor2) {
    unknown1_9 := 9
    unknown2_1 := 1
    unknown3_800 := 0x800
    unknown4_0 := 0
    latencyNs := latencyNs
    unknown5_0 := 0 })
  let words := wordsPerBitmask flowInfo.channelsMap
  let (bytes, bitmaskOffsets) := writeBitmasks words bytes flowInfo.channelsMap
  let bytes := alignWpos bytes 4
  let mainDescriptorOffset := bytes.wpos
  let bytes := bytes.writeBytes (binarySerialize (α := RxFlowDescriptorHeader) {
    flowId := ← tryIntoU16 (flowIndex + 1)
    unknown1_1 := 1
    sampleRate := selfInfo.sampleRate
    unknown2_0 := 0
    bitsPerSample := selfInfo.bitsPerSample.setWidth 16
    unknown3_1 := 1
    channelsCount := ← tryIntoU16 flowInfo.channelsMap.length
    wordsPerBitmask := ← tryIntoU16 words
    receiverSocketDescriptorOffset := receiverSocketDescriptorOffset })
  let bytes ← writeU16s bytes bitmaskOffsets
  let bytes := bytes.writeU16 descriptor2Offset
  return (bytes, ← tryIntoU16 mainDescriptorOffset)

/-- The closure of `query_rx_flows`. -/
def rxFlow (selfInfo : ArcDevice) : Transform Unit (Option ListedRxFlow × Nat) (BitVec 16) :=
  fun _ (flowOpt, flowIndex) bytes =>
    match flowOpt with
    | none => some ((), bytes, none)
    | some flowInfo => do
        let (bytes, offset) ← rxFlowDescriptor selfInfo flowIndex flowInfo bytes
        return ((), bytes, some offset)

/-- `query_rx_flows`; without a subscriber the answer is empty. -/
def queryRxFlows (selfInfo : ArcDevice) (subscriber : Option (List (Option ListedRxFlow)))
    (content : List Byte) : Option (BitVec 16 × List Byte) :=
  match subscriber with
  | some flowsInfo => paginateMakeResponse content 16 flowsInfo.zipIdx (rxFlow selfInfo) ()
  | none => some (1, [])

end Inferno
