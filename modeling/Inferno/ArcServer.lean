import Inferno.ArcListings
import Inferno.FlowsRequest
import Inferno.Lib.Serve
import Inferno.TxMulticasts

/-!
# The ARC server

`arc_server::run_server`: what one datagram does. The server reads the device,
what the subscriber shows and the multicast bundles, renames channels, and
forwards subscriptions and multicast flows; a panic of its task is `none`. An
index, a slice, a subtraction or a conversion that fails panics.

The names of the mDNS services are made by the DNS library: `named` says of
which labels it can make one. Each item of a request for multicast flows is
served in one step, with what it draws from outside.
-/

namespace Inferno

open ByteBuffer BinarySerde

/-! ## What the server has -/

/-- `ChannelSettings`. -/
structure ChannelSettings where
  id : Nat
  friendlyName : String

/-- `SavedChannelsSettings::load_and_init`: the settings, one for each channel at
least, and the channels with their saved names. -/
def loadAndInit (src : List ChannelSettings) (dst : List ArcChannel) :
    List ChannelSettings × List ArcChannel :=
  (src ++ List.replicate (dst.length - src.length) ⟨0, ""⟩,
    dst.zipIdx.map fun (ch, index) =>
      match src[index]? with
      | some cs =>
          if cs.id = 0 ∨ cs.friendlyName = "" then ch
          else if index ≠ cs.id - 1 then ch
          else { ch with friendlyName := cs.friendlyName }
      | none => ch)

/-- What the server sees of `ChannelsSubscriber`. -/
structure ListedSubscriber where
  subscriptionsInfo : List (Option SubscriptionInfo)
  flowsInfo : List (Option ListedRxFlow)

/-- `ChannelsSubscriber::subscribe`, up to the command it sends. -/
def ListedSubscriber.subscribe (sub : ListedSubscriber) (localChannelIndex : Nat)
    (txChannelName txHostname : String) : Option ListedSubscriber :=
  if localChannelIndex < sub.subscriptionsInfo.length then
    some { sub with
      subscriptionsInfo := sub.subscriptionsInfo.set localChannelIndex
        (some ⟨txChannelName, txHostname, .unresolved⟩) }
  else none

structure ArcServer where
  selfInfo : ArcDevice
  friendlyHostname : String
  factoryHostname : String
  boardName : String
  /-- `SavedChannelsSettings`. -/
  savedRx : List ChannelSettings
  savedTx : List ChannelSettings
  subscriber : Option ListedSubscriber
  /-- `tx_multicasts`, and `flows_tx` with it. -/
  multicasts : TransmitMulticasts
  /-- The mDNS responder has its handle. -/
  mdnsRunning : Bool

/-- What the server asks of the rest of the device. -/
inductive ArcCall where
  | subscribe (localChannelIndex : Nat) (txChannelName txHostname : String)
  | unsubscribe (localChannelIndex : Nat)
  | addFlow (flowIndex : Nat) (channelIndices : List (Option Nat))
  | removeFlow (flowIndex : Nat)
  /-- The content of a notification to the controllers. -/
  | notify (content : List Byte)
  | restart

/-- The server after a datagram, what it asked for and the packet it sent. -/
structure ArcOutcome where
  server : ArcServer
  calls : List ArcCall
  sent : Option (List Byte)

/-- `respond_with_code`; nothing is sent if the packet has no room. -/
def sendWithCode (request : List Byte) (code : BitVec 16) (content : List Byte) :
    Option (List Byte) :=
  (makePacket MTU (u16At request 0) (u16At request 4) (u16At request 6) code content).toOption

namespace ArcServer

/-- The part of the device `TransmitMulticasts` reads. -/
def multicastDevice (s : ArcServer) : MulticastDevice :=
  ⟨s.selfInfo.bitsPerSample.toNat, s.selfInfo.txChannels.length⟩

/-- Answers and does nothing else. -/
def answer (s : ArcServer) (request : List Byte) (code : BitVec 16) (content : List Byte) :
    ArcOutcome :=
  ⟨s, [], sendWithCode request code content⟩

/-! ## The device -/

def MAX_CHANNELS_IN_FLOW : Nat := 8

/-- The content of the answer to `channels_and_flows_count`. -/
def channelsAndFlowsCount (s : ArcServer) : Option (List Byte) := do
  let txChannelsCount ← tryIntoU16 s.selfInfo.txChannels.length
  let rxChannelsCount ← tryIntoU16 s.selfInfo.rxChannels.length
  let totalChannels ← tryIntoU16 (s.selfInfo.txChannels.length + s.selfInfo.rxChannels.length)
  let maxChannelsInFlow := BitVec.ofNat 16 (min MAX_CHANNELS_IN_FLOW txChannelsCount.toNat)
  let maxFlows := BitVec.ofNat 16 MAX_FLOWS
  -- renaming of transmitters and multicasts are supported
  return [0, 0x30] ++ [txChannelsCount, rxChannelsCount, 4, maxChannelsInFlow, 8, maxFlows, maxFlows,
    totalChannels, 1, 1, 0, 0, 0, 0, 0, 0].flatMap be16

/-- The content of the answer to `GET_DEVICE_NAME`. -/
def getDeviceName (s : ArcServer) : List Byte :=
  ((new.writeBytes (utf8 s.friendlyHostname)).writeU8 0).data

/-- The size of `get_device_names::ResponseHeader`. -/
def deviceNamesHeader : Nat := 38

/-- The content of the answer to `get_device_names`. -/
def getDeviceNames (s : ArcServer) : Option (List Byte) := do
  let bytes := new.writeBytes (List.replicate deviceNamesHeader 0)
  let friendlyHostnameOffset ← tryIntoU16 (bytes.wpos + HEADER_LENGTH)
  let bytes := (bytes.writeBytes (utf8 s.friendlyHostname)).writeU8 0
  let factoryHostnameOffset ← tryIntoU16 (bytes.wpos + HEADER_LENGTH)
  let bytes := (bytes.writeBytes (utf8 s.factoryHostname)).writeU8 0
  let boardNameOffset ← tryIntoU16 (bytes.wpos + HEADER_LENGTH)
  let bytes := (bytes.writeBytes (utf8 s.boardName)).writeU8 0
  let revisionStringOffset ← tryIntoU16 (bytes.wpos + HEADER_LENGTH)
  let bytes := bytes.writeBytes (utf8 ":705" ++ [0])
  let header := [0, 0, 0, boardNameOffset, revisionStringOffset, 0, friendlyHostnameOffset,
    factoryHostnameOffset, friendlyHostnameOffset, 0, 0, 0, 0, 0, 0, 0x2729, 0, 0x1102, 0]
  return ((bytes.setWpos 0).writeBytes (header.flatMap be16)).data

/-! ## Renaming -/

/-- `rename_tx_channels::SingleChannelRenameRequest`. -/
structure RenameTxRequest where
  unknown1_0 : BitVec 16
  channelId : BitVec 16
  newNameOffset : BitVec 16

instance : BinarySerde RenameTxRequest :=
  ofFields (fun r => (r.unknown1_0, r.channelId, r.newNameOffset)) (fun (a, b, c) => ⟨a, b, c⟩)
    fun _ => rfl

/-- `rename_rx_channels::SingleChannelRenameRequest`. -/
structure RenameRxRequest where
  channelId : BitVec 16
  newNameOffset : BitVec 16

instance : BinarySerde RenameRxRequest :=
  ofFields (fun r => (r.channelId, r.newNameOffset)) (fun (a, b) => ⟨a, b⟩) fun _ => rfl

/-- `SavedChannelsSettings::rename`: the settings, and the channels. -/
def renameChannel (saved : List ChannelSettings) (channels : List ArcChannel) (index : Nat)
    (name : String) : Option (List ChannelSettings × List ArcChannel) :=
  if index < saved.length ∧ index < channels.length then
    some (saved.set index ⟨index + 1, name⟩,
      channels.modify index fun ch => { ch with friendlyName := name })
  else none

def renameRxChannel (s : ArcServer) (index : Nat) (name : String) : Option ArcServer := do
  let (saved, channels) ← renameChannel s.savedRx s.selfInfo.rxChannels index name
  return { s with savedRx := saved, selfInfo := { s.selfInfo with rxChannels := channels } }

def renameTxChannel (s : ArcServer) (index : Nat) (name : String) : Option ArcServer := do
  let (saved, channels) ← renameChannel s.savedTx s.selfInfo.txChannels index name
  return { s with savedTx := saved, selfInfo := { s.selfInfo with txChannels := channels } }

section

variable (named : String → Bool)

/-- The labels of a channel to transmit, by both its names. -/
def labelsOk (s : ArcServer) (ch : ArcChannel) : Bool :=
  named (ch.factoryName ++ "@" ++ s.friendlyHostname) &&
    (ch.factoryName = ch.friendlyName || named (ch.friendlyName ++ "@" ++ s.friendlyHostname))

/-- `DeviceMDNSResponder::remove_tx_channel`. -/
def removeTxChannel (s : ArcServer) (index : Nat) : Option Unit := do
  let txch ← s.selfInfo.txChannels[index]?
  if s.labelsOk named txch then some () else none

/-- `DeviceMDNSResponder::add_tx_channel`. -/
def addTxChannel (s : ArcServer) (index : Nat) : Option Unit := do
  let txch ← s.selfInfo.txChannels[index]?
  if s.mdnsRunning then if s.labelsOk named txch then some () else none else some ()

/-- What `rename_tx_channels` does with a name for a channel that is there. -/
def renameTx (s : ArcServer) (index : Nat) (name : String) : Option ArcServer := do
  s.removeTxChannel named index
  let s ← s.renameTxChannel index name
  s.addTxChannel named index
  return s

/-- One item of a request to rename channels, of which there are so many; the
index of the channel that got its name. -/
def renameItem (channels : Nat) (rename : Nat → String → Option ArcServer) (s : ArcServer)
    (content : List Byte) (channelId newNameOffset : BitVec 16) : Option (ArcServer × Option Nat) :=
  let nameOffset := newNameOffset.toNat - HEADER_LENGTH
  if channelId = 0 ∨ nameOffset = 0 then some (s, none)
  else
    match read0termStrFromBuffer content nameOffset with
    | none => none
    | some none => some (s, none)
    | some (some newName) =>
        let index := channelId.toNat - 1
        if index < channels then (rename index newName).map fun s => (s, some index)
        else some (s, none)

def renameTxItem (content : List Byte) (s : ArcServer) (r : RenameTxRequest) :
    Option (ArcServer × Option Nat) :=
  renameItem s.selfInfo.txChannels.length (s.renameTx named) s content r.channelId r.newNameOffset

def renameRxItem (content : List Byte) (s : ArcServer) (r : RenameRxRequest) :
    Option (ArcServer × Option Nat) :=
  renameItem s.selfInfo.rxChannels.length s.renameRxChannel s content r.channelId r.newNameOffset

end

/-- The bit of a channel in the mask behind the two bytes of its length. -/
def markChannel (content : List Byte) (ch : Nat) : Option (List Byte) :=
  let byte := ch / 8
  let content :=
    if byte ≥ content.length - 2 then
      content ++ List.replicate (byte + 3 - content.length) 0
    else content
  if byte + 2 < content.length then
    some (content.modify (byte + 2) (· ||| (1 : Byte) <<< (ch % 8)))
  else none

/-- `make_channel_change_notification`; the inner `none` is no notification. -/
def makeChannelChangeNotification (channelIndices : List Nat) : Option (Option (List Byte)) := do
  let content ← channelIndices.foldlM markChannel [0, 0, 0]
  let maskLen := content.length - 2
  return if maskLen < 2 ^ 16 then some (be16 (BitVec.ofNat 16 maskLen) ++ content.drop 2) else none

/-- `rename_tx_channels`. -/
def renameTxChannels (named : String → Bool) (s : ArcServer) (request : List Byte) :
    Option ArcOutcome := do
  let content := request.drop HEADER_LENGTH
  let renames ← deserializeItems RenameTxRequest content
  let (s, renamed) ← Serve.items (renameTxItem named content) s renames
  if renamed.any Option.isSome then return s.answer request 1 [0, 0]
  else return s.answer request 0xFFFF []

/-- `rename_rx_channels`. -/
def renameRxChannels (s : ArcServer) (request : List Byte) : Option ArcOutcome := do
  let content := request.drop HEADER_LENGTH
  let renames ← deserializeItems RenameRxRequest content
  let (s, renamed) ← Serve.items (renameRxItem content) s renames
  let msg ← makeChannelChangeNotification (renamed.filterMap id)
  let code := if renamed.any Option.isSome then 1 else 0xFFFF
  return { s.answer request code [] with calls := (msg.map ArcCall.notify).toList }

/-! ## Subscriptions -/

/-- `set_channels_subscriptions::SingleChannelSubscriptionRequest`. -/
structure SubscriptionRequest where
  localChannelId : BitVec 16
  txChannelNameOffset : BitVec 16
  txHostnameOffset : BitVec 16

instance : BinarySerde SubscriptionRequest :=
  ofFields (fun r => (r.localChannelId, r.txChannelNameOffset, r.txHostnameOffset))
    (fun (a, b, c) => ⟨a, b, c⟩) fun _ => rfl

/-- `str_or_none`. -/
def strOrNone (content : List Byte) (offset : BitVec 16) : Option (Option String) :=
  if offset.toNat < HEADER_LENGTH then some none
  else read0termStrFromBuffer content (offset.toNat - HEADER_LENGTH)

/-- One item of `set_channels_subscriptions`. -/
def subscriptionItem (rxChannels : Nat) (content : List Byte) (sub : ListedSubscriber)
    (req : SubscriptionRequest) : Option (ListedSubscriber × Option ArcCall) :=
  if req.localChannelId = 0 then some (sub, none)
  else
    let localChannelIndex := req.localChannelId.toNat - 1
    if localChannelIndex ≥ rxChannels then some (sub, none)
    else if 0 < req.txChannelNameOffset.toNat ∧ 0 < req.txHostnameOffset.toNat then do
      let txChannelName ← strOrNone content req.txChannelNameOffset
      let txHostname ← strOrNone content req.txHostnameOffset
      match txChannelName, txHostname with
      | some txChannelName, some txHostname => do
          let sub ← sub.subscribe localChannelIndex txChannelName txHostname
          return (sub, some (.subscribe localChannelIndex txChannelName txHostname))
      | _, _ => some (sub, none)
    else some (sub, some (.unsubscribe localChannelIndex))

/-- `set_channels_subscriptions`; without a subscriber there is no answer. -/
def setChannelsSubscriptions (s : ArcServer) (request : List Byte) : Option ArcOutcome :=
  match s.subscriber with
  | none => some ⟨s, [], none⟩
  | some channelsRecv => do
      let content := request.drop HEADER_LENGTH
      let reqs ← deserializeItems SubscriptionRequest content
      let (sub, calls) ← Serve.items (subscriptionItem s.selfInfo.rxChannels.length content)
        channelsRecv reqs
      return ⟨{ s with subscriber := some sub }, calls.filterMap id, sendWithCode request 1 []⟩

/-- Opcode 0x3014. -/
def removeSubscription (s : ArcServer) (request : List Byte) : Option ArcOutcome :=
  match s.subscriber with
  | none => some ⟨s, [], none⟩
  | some _ =>
      let content := request.drop HEADER_LENGTH
      let localChannel := u16At content 4
      if content.length < 6 then none
      else if localChannel = 0 then none
      else some ⟨s, [.unsubscribe (localChannel.toNat - 1)], sendWithCode request 1 []⟩

/-! ## Multicast flows -/

/-- `create_multicast_tx_flow::FlowDescriptorHeader`. -/
structure MulticastFlowHeader where
  flowId : BitVec 16
  flowType : BitVec 16
  /-- Ten octets. -/
  unknown1_0 : BitVec 32 × BitVec 32 × BitVec 16
  channelsCount : BitVec 16

instance : BinarySerde MulticastFlowHeader :=
  ofFields (fun d => (d.flowId, d.flowType, d.unknown1_0, d.channelsCount))
    (fun (a, b, c, d) => ⟨a, b, c, d⟩) fun _ => rfl

/-- What a descriptor in a request asks for. -/
structure MulticastRequest where
  flowIndex : Nat
  channelIndices : List (Option Nat)

/-- The checks of a descriptor; the inner `none` is a `continue`. -/
def checkDescriptor (w : TransmitMulticasts) (content : List Byte) (descrOffset : BitVec 16) :
    Option (Option MulticastRequest) :=
  let size := SERIALIZED_SIZE MulticastFlowHeader
  let start := descrOffset.toNat - HEADER_LENGTH
  if descrOffset.toNat < HEADER_LENGTH then none
  else if start + size > content.length then some none
  else
    match @binaryDeserialize MulticastFlowHeader _ ((content.drop start).take size) with
    | none => some none
    | some descr =>
        if descr.flowType ≠ 2 then some none
        else if descr.flowId = 0 ∨ descr.flowId.toNat > MAX_FLOWS then some none
        else
          let flowIndex := descr.flowId.toNat - 1
          match w.flowsTx with
          | none => some none
          | some t =>
              match t.tx.flowsInfo[flowIndex]? with
              | none => none
              | some (some _) => some none
              | some none =>
                  let afterHeader := content.drop (start + size)
                  let channelsCount := descr.channelsCount.toNat
                  if afterHeader.length < channelsCount + 2 then some none
                  else if afterHeader.length < channelsCount * 2 then none
                  else some (some ⟨flowIndex, channelIds afterHeader 0 channelsCount⟩)

/-- An operation on the bundles that the server's task waits for. -/
def awaited (w : TransmitMulticasts) (f : TransmitMulticasts → TransmitMulticasts) :
    Option TransmitMulticasts :=
  let w' := f { w with panicked := false }
  if w'.panicked then none else some { w' with panicked := w.panicked }

/-- One item of `create_multicast_tx_flow`. -/
def createItem (dev : MulticastDevice) (content : List Byte) (w : TransmitMulticasts)
    (item : BitVec 16 × MulticastDraw) : Option (TransmitMulticasts × Option MulticastRequest) := do
  match ← checkDescriptor w content item.1 with
  | none => some (w, none)
  | some r =>
      if w.published then do
        let w ← awaited w fun w => w.addFlowInternal dev r.flowIndex r.channelIndices 0 item.2
        return (w, some r)
      else some (w, none)

/-- `create_multicast_tx_flow`; each item has what it draws. -/
def createMulticastTxFlow (s : ArcServer) (request : List Byte) (draw : Nat → MulticastDraw) :
    Option ArcOutcome := do
  let content := request.drop HEADER_LENGTH
  let offsets ← deserializeItems (BitVec 16) content
  let items := offsets.zipIdx.map fun (offset, k) => (offset, draw k)
  let (w, created) ← Serve.items (createItem s.multicastDevice content) s.multicasts items
  let created := created.filterMap id
  let flowIds := created.map fun r => BitVec.ofNat 16 (r.flowIndex + 1)
  let sent :=
    if 0 < flowIds.length then
      sendWithCode request 1 ((BitVec.ofNat 16 flowIds.length :: 0 :: flowIds).flatMap be16)
    else sendWithCode request 0xFFFF []
  return ⟨{ s with multicasts := w },
    created.map fun r => ArcCall.addFlow r.flowIndex r.channelIndices, sent⟩

/-- The channels that `remove_flow` will announce anew, if it gets so far. -/
def refreshed (w : TransmitMulticasts) (flowIndex : Nat) : List (Option Nat) :=
  match w.bundles[flowIndex]?, w.flowsTx with
  | some (some bundle), some _ => if w.shouldWork then bundle.localChannelIndices else []
  | _, _ => []

/-- `TransmitMulticasts::remove_flow`, with the names the channels are announced
by, and whether it was successful. -/
def removeFlow (named : String → Bool) (s : ArcServer) (w : TransmitMulticasts) (flowIndex : Nat) :
    Option (TransmitMulticasts × Bool) := do
  let removed := (w.removeFlowInternal s.multicastDevice flowIndex false).2
  let w' ← awaited w fun w => w.removeFlow s.multicastDevice flowIndex
  let announced := (refreshed w flowIndex).filterMap id
  if announced.all fun index => (s.removeTxChannel named index).isSome &&
      (s.addTxChannel named index).isSome then some (w', removed.toOption.isSome)
  else none

/-- One item of `delete_multicast_tx_flow`. -/
def deleteItem (named : String → Bool) (s : ArcServer) (w : TransmitMulticasts) (flowIndex : Nat) :
    Option (TransmitMulticasts × Option (Nat × Bool)) :=
  if w.published then
    (s.removeFlow named w flowIndex).map fun (w, deleted) => (w, some (flowIndex, deleted))
  else some (w, none)

/-- The flows a request wants deleted. -/
def deletedIndices (content : List Byte) : List Nat :=
  let count := (u16At content 0).toNat
  (channelIds content 4 (min count ((content.length - 4) / 2))).filterMap id

/-- `delete_multicast_tx_flow`. -/
def deleteMulticastTxFlow (named : String → Bool) (s : ArcServer) (request : List Byte) :
    Option ArcOutcome :=
  let content := request.drop HEADER_LENGTH
  if content.length < 4 then none
  else do
    let (w, deleted) ← Serve.items (s.deleteItem named) s.multicasts (deletedIndices content)
    let deleted := deleted.filterMap id
    let code := if deleted.any (·.2) then 1 else 0xFFFF
    return ⟨{ s with multicasts := w }, deleted.map fun d => ArcCall.removeFlow d.1,
      sendWithCode request code []⟩

/-! ## Datagrams -/

/-- The answer of a listing. -/
def list (s : ArcServer) (request : List Byte)
    (listing : List Byte → Option (BitVec 16 × List Byte)) : Option ArcOutcome := do
  let (code, response) ← listing (request.drop HEADER_LENGTH)
  return s.answer request code response

/-- The flows of the transmitter, if there is one. -/
def txFlowsInfo (s : ArcServer) : Option (List (Option FlowInfo)) :=
  s.multicasts.flowsTx.map fun t => t.tx.flowsInfo

end ArcServer

/-- What a datagram may be about. -/
inductive ArcOpcode where
  | channelsAndFlowsCount
  | getDeviceName
  | getDeviceNames
  | getReceiveChannels
  | getTransmitChannels
  | getTransmitChannelsFriendlyNames
  | renameTxChannels
  | renameRxChannels
  | queryTxFlows
  | createMulticastTxFlow
  | deleteMulticastTxFlow
  | code2320
  | queryRxFlows
  | code1100
  | code1102
  | code3300
  | setChannelsSubscriptions
  | code3014
  | reboot
  | clearConfig
  | unknown
deriving DecidableEq

def ArcOpcode.ofCode (opcode1 : BitVec 16) : ArcOpcode :=
  if opcode1 = 0x1000 then channelsAndFlowsCount
  else if opcode1 = 0x1002 then getDeviceName
  else if opcode1 = 0x1003 then getDeviceNames
  else if opcode1 = 0x3000 then getReceiveChannels
  else if opcode1 = 0x2000 then getTransmitChannels
  else if opcode1 = 0x2010 then getTransmitChannelsFriendlyNames
  else if opcode1 = 0x2013 then renameTxChannels
  else if opcode1 = 0x3001 then renameRxChannels
  else if opcode1 = 0x2200 then queryTxFlows
  else if opcode1 = 0x2201 then createMulticastTxFlow
  else if opcode1 = 0x2202 then deleteMulticastTxFlow
  else if opcode1 = 0x2320 then code2320
  else if opcode1 = 0x3200 then queryRxFlows
  else if opcode1 = 0x1100 then code1100
  else if opcode1 = 0x1102 then code1102
  else if opcode1 = 0x3300 then code3300
  else if opcode1 = 0x3010 then setChannelsSubscriptions
  else if opcode1 = 0x3014 then code3014
  else if opcode1 = 0x0090 then reboot
  else if opcode1 = 0x0077 then clearConfig
  else unknown

namespace ArcServer

/-- One datagram of at least a header. The device is not locked. -/
def handle (named : String → Bool) (s : ArcServer) (request : List Byte)
    (draw : Nat → MulticastDraw) : Option ArcOutcome :=
  if u16At request 8 ≠ 0 then some ⟨s, [], none⟩
  else
    match ArcOpcode.ofCode (u16At request 6) with
    | .channelsAndFlowsCount => s.channelsAndFlowsCount.map (s.answer request 1)
    | .getDeviceName => some (s.answer request 1 s.getDeviceName)
    | .getDeviceNames => s.getDeviceNames.map (s.answer request 1)
    | .getReceiveChannels => s.list request
        (getReceiveChannels s.selfInfo (s.subscriber.map ListedSubscriber.subscriptionsInfo))
    | .getTransmitChannels => s.list request (getTransmitChannels s.selfInfo)
    | .getTransmitChannelsFriendlyNames =>
        s.list request (getTransmitChannelsFriendlyNames s.selfInfo)
    | .renameTxChannels => s.renameTxChannels named request
    | .renameRxChannels => s.renameRxChannels request
    | .queryTxFlows => s.list request (queryTxFlows s.selfInfo s.txFlowsInfo)
    | .createMulticastTxFlow => s.createMulticastTxFlow request draw
    | .deleteMulticastTxFlow => s.deleteMulticastTxFlow named request
    | .code2320 => some (s.answer request 0x30 [])
    | .queryRxFlows =>
        s.list request (queryRxFlows s.selfInfo (s.subscriber.map ListedSubscriber.flowsInfo))
    | .code1100 => some (s.answer request 1 (List.replicate 110 0))
    | .code1102 => some (s.answer request 1 (List.replicate 94 0))
    | .code3300 => some (s.answer request 1 [0x38, 0x00, 0x38, 0xfd, 0x38, 0xfe, 0x38, 0xff])
    | .setChannelsSubscriptions => s.setChannelsSubscriptions request
    | .code3014 => s.removeSubscription request
    | .reboot => some { s.answer request 1 [] with calls := [.restart] }
    | .clearConfig => some (s.answer request 1 [])
    | .unknown => some (s.answer request 0xFFFF [])

end ArcServer

/-! ## Runs -/

/-- What happens next: a datagram comes, or another task does something. -/
inductive ArcEvent where
  | datagram (request : List Byte) (draw : Nat → MulticastDraw)
  /-- The subscriber is there, or shows something else. -/
  | subscriber (subscriptions : Nat → Option SubscriptionInfo)
      (flowsInfo : List (Option ListedRxFlow))
  /-- A transmitter is started. -/
  | transmitter (flags : Flag → Bool)
  | multicasts (e : MulticastEvent)
  | mdnsShutdown

/-- What is fixed about the device, and what was saved of it. -/
structure ArcConfig where
  selfInfo : ArcDevice
  friendlyHostname : String
  factoryHostname : String
  boardName : String
  savedRx : List ChannelSettings
  savedTx : List ChannelSettings

namespace ArcServer

/-- `run_server` before its first datagram: no transmitter, no subscriber. -/
def start (cfg : ArcConfig) : ArcServer :=
  let (savedRx, rxChannels) := loadAndInit cfg.savedRx cfg.selfInfo.rxChannels
  let (savedTx, txChannels) := loadAndInit cfg.savedTx cfg.selfInfo.txChannels
  { selfInfo := { cfg.selfInfo with rxChannels := rxChannels, txChannels := txChannels }
    friendlyHostname := cfg.friendlyHostname
    factoryHostname := cfg.factoryHostname
    boardName := cfg.boardName
    savedRx := savedRx
    savedTx := savedTx
    subscriber := none
    multicasts := { TransmitMulticasts.new (.start fun _ => false) with flowsTx := none }
    mdnsRunning := true }

/-- The bundles after what another task did; creating and deleting is for the
server. -/
def multicastsStep (s : ArcServer) : MulticastEvent → TransmitMulticasts
  | .check _ _ => s.multicasts
  | .create _ => s.multicasts
  | .delete _ => s.multicasts
  | e => s.multicasts.step s.multicastDevice s.selfInfo.sampleRate e

/-- One event, and what the server asked for. -/
def step (named : String → Bool) (s : ArcServer) : ArcEvent → Option (ArcServer × List ArcCall)
  | .datagram request draw =>
      if request.length < HEADER_LENGTH then some (s, [])
      else (s.handle named request draw).map fun o => (o.server, o.calls)
  | .subscriber subscriptions flowsInfo =>
      let sub : ListedSubscriber := {
        subscriptionsInfo := (List.range s.selfInfo.rxChannels.length).map subscriptions
        flowsInfo := flowsInfo }
      some ({ s with subscriber := some sub }, [])
  | .transmitter flags =>
      some ({ s with multicasts := TransmitMulticasts.new (.start flags) }, [])
  | .multicasts e => some ({ s with multicasts := s.multicastsStep e }, [])
  | .mdnsShutdown => some ({ s with mdnsRunning := false }, [])

/-- A run that does not panic, and what the server asked for at each event. -/
def run (named : String → Bool) (s : ArcServer) (events : List ArcEvent) :
    Option (ArcServer × List (List ArcCall)) :=
  Serve.items (step named) s events

end ArcServer

end Inferno
