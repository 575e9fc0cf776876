import Inferno.ArcListings

/-!
# What the pages of the listings say

Every offset in an item or a record of a page leads to what was written for it:
names, descriptors, bitmasks. For each kind of item a structure says what it
shows (`ReceiveChannelShown` and so on), over a notion of what stands at an
offset (`Pointing`): while a page grows that is bytes behind the reserved space
(`placed`), in a received page it is what the reader gets there (`decoded`).
-/

namespace Inferno

open ByteBuffer BinarySerde

/-! ## Offsets -/

/-- What is at an offset of the packet: a name, a record. -/
structure Pointing where
  name : Nat → String → Prop
  record : (α : Type) → [BinarySerde α] → Nat → α → Prop

/-- The bytes stand there, behind the first `start`. -/
def placed (start : Nat) (data : List Byte) : Pointing where
  name i s := start ≤ i ∧ StandsAt data i (utf8 s ++ [0])
  record _ _ i x := start ≤ i ∧ StandsAt data i (binarySerialize x)

/-- The reader of the packet's content gets them there; names have no NUL. -/
def decoded (content : List Byte) : Pointing where
  name i s := HEADER_LENGTH ≤ i ∧ i - HEADER_LENGTH < content.length ∧
    (NoNul s → read0termStrFromBuffer content (i - HEADER_LENGTH) = some (some s))
  record α _ i x := HEADER_LENGTH ≤ i ∧ i - HEADER_LENGTH < content.length ∧
    binaryDeserialize ((content.drop (i - HEADER_LENGTH)).take (SERIALIZED_SIZE α)) = some x

/-- What is at an offset for `p` is there for `q`. -/
structure Pointing.Le (p q : Pointing) : Prop where
  name : ∀ {i s}, p.name i s → q.name i s
  record : ∀ {α : Type} [BinarySerde α] {i} {x : α}, p.record α i x → q.record α i x

theorem placed_mono {start : Nat} {data data' : List Byte} (h : data <+: data') :
    (placed start data).Le (placed start data') where
  name := And.imp_right (·.mono h)
  record := And.imp_right (·.mono h)

theorem placed_grows {start : Nat} {data data' : List Byte} (h : Grows start data data') :
    (placed start data).Le (placed start data') where
  name := fun ⟨hi, hs⟩ => ⟨hi, hs.grows h hi⟩
  record := fun ⟨hi, hs⟩ => ⟨hi, hs.grows h hi⟩

theorem placed_decoded {start : Nat} (hstart : HEADER_LENGTH ≤ start) (data : List Byte) :
    (placed start data).Le (decoded (data.drop HEADER_LENGTH)) where
  name := by
    intro i s ⟨hi, hs⟩
    have hi := hstart.trans hi
    have hne : utf8 s ++ [(0 : Byte)] ≠ [] := by
      rw [← List.length_pos_iff, List.length_append]
      exact Nat.succ_pos _
    have hs := hs.drop hi
    refine ⟨hi, hs.lt_length hne, fun hnul => ?_⟩
    obtain ⟨pre, rest, hsplit, hpre⟩ := hs.split hne
    rw [hsplit, List.append_assoc, List.singleton_append]
    exact read0term_at hpre hnul rest
  record := by
    intro α _ i x ⟨hi, hs⟩
    have hi := hstart.trans hi
    have hs := hs.drop hi
    exact ⟨hi, hs.lt_length (serialize_ne_nil x), deserialize_standsAt hs⟩

/-! ## What an item shows -/

/-- An item of `get_receive_channels`. -/
structure ReceiveChannelShown (p : Pointing) (selfInfo : ArcDevice)
    (subscriptionsInfo : List (Option SubscriptionInfo)) (x : ArcChannel × Nat)
    (item : ReceiveChannelDescriptor) : Prop where
  channelId : item.channelId.toNat = x.2 + 1
  constants : item.unknown1_6 = 6 ∧ item.unknown2_0 = 0
  common : p.record _ item.commonDescriptorOffset.toNat (CommonChannelsDescriptor.new selfInfo)
  friendlyName : p.name item.friendlyNameOffset.toNat x.1.friendlyName
  subscription : ∃ status, subscriptionsInfo[x.2]? = some status ∧
    match status with
    | none => item.txChannelNameOffset = 0 ∧ item.txHostnameOffset = 0 ∧
        item.subscriptionStatus = 0
    | some ss => p.name item.txChannelNameOffset.toNat ss.txChannelName ∧
        p.name item.txHostnameOffset.toNat ss.txHostname ∧ item.subscriptionStatus = ss.status.code

/-- An item of `get_transmit_channels`. -/
structure TransmitChannelShown (p : Pointing) (selfInfo : ArcDevice) (x : ArcChannel × Nat)
    (item : TransmitChannelDescriptor) : Prop where
  channelId : item.channelId.toNat = x.2 + 1
  constants : item.unknown1_7 = 7
  common : p.record _ item.commonDescriptorOffset.toNat (CommonChannelsDescriptor.new selfInfo)
  factoryName : p.name item.nameOffset.toNat x.1.factoryName

/-- An item of `get_transmit_channels_friendly_names`. -/
structure FriendlyNameShown (p : Pointing) (x : ArcChannel × Nat) (item : FriendlyNameDescriptor) :
    Prop where
  channelId : item.channelId1.toNat = x.2 + 1 ∧ item.channelId2 = item.channelId1
  friendlyName : p.name item.friendlyNameOffset.toNat x.1.friendlyName

/-- An offset that is zero where there is no name. -/
def Pointing.nameOr0 (p : Pointing) (offset : BitVec 16) : Option String → Prop
  | some s => p.name offset.toNat s
  | none => offset = 0

/-- What the offset of `query_tx_flows` leads to. -/
structure TxFlowShown (p : Pointing) (selfInfo : ArcDevice) (flowIndex : Nat) (flowInfo : FlowInfo)
    (offset : BitVec 16) (header : TxFlowDescriptorHeader) (namesDescriptorOffset : BitVec 16)
    (names : NamesDescriptor) : Prop where
  headerAt : p.record _ offset.toNat header
  flowId : header.flowId.toNat = flowIndex + 1
  flowType : header.flowType = if flowInfo.isMulticast then 2 else 0x11
  constants : header.sampleRate = selfInfo.sampleRate ∧ header.unknown1_0 = 0 ∧
    header.bitsPerSample = selfInfo.bitsPerSample.setWidth 16 ∧ header.unknown2_1 = 1
  socket : p.record _ header.receiverSocketDescriptorOffset.toNat
    (⟨0x8002, flowInfo.dstPort, flowInfo.dstAddr⟩ : DestinationSocketDescriptor)
  channelsCount : header.channelsCount.toNat = flowInfo.localChannelIndices.length
  channels : ∀ k ch, flowInfo.localChannelIndices[k]? = some ch →
    ∃ id : BitVec 16, p.record _ (offset.toNat + SERIALIZED_SIZE TxFlowDescriptorHeader + k * 2) id ∧
      id.toNat = (ch.map (· + 1)).getD 0
  footer : p.record _ (offset.toNat + SERIALIZED_SIZE TxFlowDescriptorHeader +
    flowInfo.localChannelIndices.length * 2) namesDescriptorOffset
  namesAt : p.record _ namesDescriptorOffset.toNat names
  namesConstants : names.unknown1_a00 = 0xa00 ∧ names.unknown2_1 = 1 ∧ names.unknown3_10 = 0x10 ∧
    names.unknown4_0 = (0, 0)
  localName : p.name names.localTxFlowNameOffset.toNat
    s!"{flowIndex + 1}_{selfInfo.processId.toNat}"
  rxHostname : p.nameOr0 names.remoteHostnameOffset flowInfo.rxHostname
  rxFlowName : p.nameOr0 names.remoteRxFlowNameOffset flowInfo.rxFlowName

/-- A bitmask at an offset: bit `c` of it is for local channel `c`. -/
def BitmaskShown (p : Pointing) (offset words : Nat) (mask : List Bool) : Prop :=
  mask.length ≤ words * 16 ∧ ∀ w < words, ∃ word : BitVec 16,
    p.record _ (offset + w * 2) word ∧
      ∀ k < 16, word.getLsbD k = mask.getD (w * 16 + k) false

/-- What the offset of `query_rx_flows` leads to. -/
structure RxFlowShown (p : Pointing) (selfInfo : ArcDevice) (flowIndex : Nat)
    (flowInfo : ListedRxFlow) (offset : BitVec 16) (header : RxFlowDescriptorHeader)
    (descriptor2Offset : BitVec 16) (descriptor2 : RxDescriptor2) : Prop where
  headerAt : p.record _ offset.toNat header
  flowId : header.flowId.toNat = flowIndex + 1
  constants : header.unknown1_1 = 1 ∧ header.sampleRate = selfInfo.sampleRate ∧
    header.unknown2_0 = 0 ∧ header.bitsPerSample = selfInfo.bitsPerSample.setWidth 16 ∧
    header.unknown3_1 = 1
  socket : p.record _ header.receiverSocketDescriptorOffset.toNat
    (⟨0x8002, flowInfo.rxPort, selfInfo.ipAddress⟩ : DestinationSocketDescriptor)
  channelsCount : header.channelsCount.toNat = flowInfo.channelsMap.length
  bitmasks : ∀ j mask, flowInfo.channelsMap[j]? = some mask →
    ∃ bitmaskOffset : BitVec 16,
      p.record _ (offset.toNat + SERIALIZED_SIZE RxFlowDescriptorHeader + j * 2) bitmaskOffset ∧
      BitmaskShown p bitmaskOffset.toNat header.wordsPerBitmask.toNat mask
  footer : p.record _ (offset.toNat + SERIALIZED_SIZE RxFlowDescriptorHeader +
    flowInfo.channelsMap.length * 2) descriptor2Offset
  descriptor2At : p.record _ descriptor2Offset.toNat descriptor2
  descriptor2Constants : descriptor2.unknown1_9 = 9 ∧ descriptor2.unknown2_1 = 1 ∧
    descriptor2.unknown3_800 = 0x800 ∧ descriptor2.unknown4_0 = 0 ∧ descriptor2.unknown5_0 = 0
  latency : descriptor2.latencyNs.toNat =
    flowInfo.latencySamples * 1000000000 / selfInfo.sampleRate.toNat

/-- An element of a table of flows is shown if there is a flow. -/
def TxFlowAt (p : Pointing) (selfInfo : ArcDevice) (x : Option FlowInfo × Nat)
    (offset : BitVec 16) : Prop :=
  ∃ flowInfo header namesDescriptorOffset names, x.1 = some flowInfo ∧
    TxFlowShown p selfInfo x.2 flowInfo offset header namesDescriptorOffset names

def RxFlowAt (p : Pointing) (selfInfo : ArcDevice) (x : Option ListedRxFlow × Nat)
    (offset : BitVec 16) : Prop :=
  ∃ flowInfo header descriptor2Offset descriptor2, x.1 = some flowInfo ∧
    RxFlowShown p selfInfo x.2 flowInfo offset header descriptor2Offset descriptor2

section Le

variable {p q : Pointing} (h : p.Le q) {selfInfo : ArcDevice}
include h

theorem ReceiveChannelShown.le {subscriptionsInfo : List (Option SubscriptionInfo)}
    {x : ArcChannel × Nat} {item : ReceiveChannelDescriptor}
    (hx : ReceiveChannelShown p selfInfo subscriptionsInfo x item) :
    ReceiveChannelShown q selfInfo subscriptionsInfo x item where
  channelId := hx.channelId
  constants := hx.constants
  common := h.record hx.common
  friendlyName := h.name hx.friendlyName
  subscription := by
    obtain ⟨status, hstatus, hnames⟩ := hx.subscription
    refine ⟨status, hstatus, ?_⟩
    cases status with
    | none => exact hnames
    | some ss => exact ⟨h.name hnames.1, h.name hnames.2.1, hnames.2.2⟩

theorem TransmitChannelShown.le {x : ArcChannel × Nat} {item : TransmitChannelDescriptor}
    (hx : TransmitChannelShown p selfInfo x item) : TransmitChannelShown q selfInfo x item where
  channelId := hx.channelId
  constants := hx.constants
  common := h.record hx.common
  factoryName := h.name hx.factoryName

theorem FriendlyNameShown.le {x : ArcChannel × Nat} {item : FriendlyNameDescriptor}
    (hx : FriendlyNameShown p x item) : FriendlyNameShown q x item where
  channelId := hx.channelId
  friendlyName := h.name hx.friendlyName

theorem Pointing.nameOr0_le {offset : BitVec 16} {s : Option String} (hs : p.nameOr0 offset s) :
    q.nameOr0 offset s := by
  cases s with
  | none => exact hs
  | some s => exact h.name hs

theorem TxFlowAt.le {x : Option FlowInfo × Nat} {offset : BitVec 16}
    (hx : TxFlowAt p selfInfo x offset) : TxFlowAt q selfInfo x offset := by
  obtain ⟨flowInfo, header, namesDescriptorOffset, names, hflow, hx⟩ := hx
  exact ⟨flowInfo, header, namesDescriptorOffset, names, hflow, {
    hx with
    headerAt := h.record hx.headerAt
    socket := h.record hx.socket
    channels := fun k ch hk => (hx.channels k ch hk).imp fun _ hid => ⟨h.record hid.1, hid.2⟩
    footer := h.record hx.footer
    namesAt := h.record hx.namesAt
    localName := h.name hx.localName
    rxHostname := Pointing.nameOr0_le h hx.rxHostname
    rxFlowName := Pointing.nameOr0_le h hx.rxFlowName }⟩

theorem BitmaskShown.le {offset words : Nat} {mask : List Bool}
    (hx : BitmaskShown p offset words mask) : BitmaskShown q offset words mask :=
  ⟨hx.1, fun w hw => (hx.2 w hw).imp fun _ hword => ⟨h.record hword.1, hword.2⟩⟩

theorem RxFlowAt.le {x : Option ListedRxFlow × Nat} {offset : BitVec 16}
    (hx : RxFlowAt p selfInfo x offset) : RxFlowAt q selfInfo x offset := by
  obtain ⟨flowInfo, header, descriptor2Offset, descriptor2, hflow, hx⟩ := hx
  exact ⟨flowInfo, header, descriptor2Offset, descriptor2, hflow, {
    hx with
    headerAt := h.record hx.headerAt
    socket := h.record hx.socket
    bitmasks := fun j mask hj =>
      (hx.bitmasks j mask hj).imp fun _ hmask => ⟨h.record hmask.1, hmask.2.le h⟩
    footer := h.record hx.footer
    descriptor2At := h.record hx.descriptor2At }⟩

end Le

/-! ## What the writers place -/

theorem tryIntoU16_eq_some {n : Nat} {x : BitVec 16} (h : tryIntoU16 n = some x) : x.toNat = n := by
  unfold tryIntoU16 at h
  split at h
  · cases h
    rw [BitVec.toNat_ofNat]
    exact Nat.mod_eq_of_lt ‹_›
  · cases h

theorem write0termStr_ofBytes {data : List Byte} {s : String} {b : ByteBuffer} {offset : BitVec 16}
    (h : write0termStr (ofBytes data) s = some (b, offset)) :
    b = ofBytes (data ++ (utf8 s ++ [0])) ∧ offset.toNat = data.length := by
  unfold write0termStr at h
  split at h
  next hlt =>
    cases h
    rw [ofBytes_writeBytes, ofBytes_writeU8, List.append_assoc, ofBytes_wpos, BitVec.toNat_ofNat]
    exact ⟨rfl, Nat.mod_eq_of_lt hlt⟩
  · cases h

variable {start : Nat} {data : List Byte}

/-- Bytes written at the end are placed there. -/
theorem placed_end_name (hstart : start ≤ data.length) (s : String) :
    (placed start (data ++ (utf8 s ++ [0]))).name data.length s :=
  ⟨hstart, standsAt_end data _⟩

theorem placed_end_record {α : Type} [BinarySerde α] (hstart : start ≤ data.length) (x : α) :
    ∃ data', data ++ binarySerialize x = data' ∧ data <+: data' ∧
      data'.length = data.length + SERIALIZED_SIZE α ∧ start ≤ data'.length ∧
      (placed start data').record α data.length x := by
  have hlen : (data ++ binarySerialize x).length = data.length + SERIALIZED_SIZE α := by
    rw [List.length_append, length_serialize]
  exact ⟨_, rfl, List.prefix_append _ _, hlen, hlen ▸ Nat.le_add_right_of_le hstart, hstart,
    standsAt_end data _⟩

/-- A written name: the buffer stays at its end, the offset leads to it. -/
theorem write0termStr_placed {s : String} {b : ByteBuffer} {offset : BitVec 16}
    (hstart : start ≤ data.length) (h : write0termStr (ofBytes data) s = some (b, offset)) :
    ∃ data', b = ofBytes data' ∧ data <+: data' ∧ (placed start data').name offset.toNat s := by
  obtain ⟨hb, hoffset⟩ := write0termStr_ofBytes h
  refine ⟨_, hb, List.prefix_append _ _, ?_⟩
  rw [hoffset]
  exact placed_end_name hstart s

theorem write0termStrOr0_placed {s : Option String} {b : ByteBuffer} {offset : BitVec 16}
    (hstart : start ≤ data.length) (h : write0termStrOr0 (ofBytes data) s = some (b, offset)) :
    ∃ data', b = ofBytes data' ∧ data <+: data' ∧ (placed start data').nameOr0 offset s := by
  cases s with
  | none =>
      cases h
      exact ⟨data, rfl, List.prefix_refl _, rfl⟩
  | some s => exact write0termStr_placed hstart h

theorem alignWpos_ofBytes (data : List Byte) {alignment : Nat} (ha : 0 < alignment) :
    ∃ data', alignWpos (ofBytes data) alignment = ofBytes data' ∧ data <+: data' := by
  obtain ⟨k, _, hrun, _⟩ := padLoop_aligned 0 ha data
  exact ⟨_, hrun, List.prefix_append _ _⟩

/-- The common descriptor is where the closure's offset says, once that is set. -/
def CommonPlaced (start : Nat) (selfInfo : ArcDevice) (offset : BitVec 16) (data : List Byte) :
    Prop :=
  offset ≠ 0 → (placed start data).record _ offset.toNat (CommonChannelsDescriptor.new selfInfo)

theorem writeCommonDescriptor_placed {selfInfo : ArcDevice} {offset offset' : BitVec 16}
    {b : ByteBuffer} (hstart : start ≤ data.length)
    (hcommon : CommonPlaced start selfInfo offset data)
    (h : writeCommonDescriptor selfInfo offset (ofBytes data) = some (offset', b)) :
    ∃ data', b = ofBytes data' ∧ data <+: data' ∧
      (placed start data').record _ offset'.toNat (CommonChannelsDescriptor.new selfInfo) := by
  unfold writeCommonDescriptor at h
  split at h
  · obtain ⟨offset'', hoffset, h⟩ := Option.bind_eq_some_iff.mp h
    cases h
    obtain ⟨data', hdata', hp, _, _, hcommon⟩ := placed_end_record hstart
      (CommonChannelsDescriptor.new selfInfo)
    rw [ofBytes_writeBytes, hdata', tryIntoU16_eq_some hoffset]
    exact ⟨data', rfl, hp, hcommon⟩
  next hset =>
    cases h
    exact ⟨data, rfl, List.prefix_refl _, hcommon hset⟩

theorem writeSubscription_placed {status : Option SubscriptionInfo} {b : ByteBuffer}
    {nameOffset hostOffset : BitVec 16} (hstart : start ≤ data.length)
    (h : writeSubscription (ofBytes data) status = some (b, nameOffset, hostOffset)) :
    ∃ data', b = ofBytes data' ∧ data <+: data' ∧
      match status with
      | none => nameOffset = 0 ∧ hostOffset = 0
      | some ss => (placed start data').name nameOffset.toNat ss.txChannelName ∧
          (placed start data').name hostOffset.toNat ss.txHostname := by
  cases status with
  | none =>
      cases h
      exact ⟨data, rfl, List.prefix_refl _, rfl, rfl⟩
  | some ss =>
      obtain ⟨⟨b₁, off₁⟩, h₁, h⟩ := Option.bind_eq_some_iff.mp h
      obtain ⟨⟨b₂, off₂⟩, h₂, h⟩ := Option.bind_eq_some_iff.mp h
      cases h
      obtain ⟨data₁, rfl, hp₁, hname⟩ := write0termStr_placed hstart h₁
      obtain ⟨data₂, rfl, hp₂, hhost⟩ := write0termStr_placed (hstart.trans hp₁.length_le) h₂
      exact ⟨data₂, rfl, hp₁.trans hp₂, (placed_mono hp₂).name hname, hhost⟩

/-! ## The closures -/

theorem receiveChannel_appends (start : Nat) (selfInfo : ArcDevice)
    (subscriptionsInfo : List (Option SubscriptionInfo)) :
    Appends start (receiveChannel selfInfo subscriptionsInfo) (fun _ => true)
      (CommonPlaced start selfInfo)
      (fun x item data => ReceiveChannelShown (placed start data) selfInfo subscriptionsInfo x
        item) where
  step := by
    rintro offset ⟨ch, i⟩ data offset' b' out hstart hcommon h
    obtain ⟨⟨offset₁, b₁⟩, h₁, h⟩ := Option.bind_eq_some_iff.mp h
    obtain ⟨status, hstatus, h⟩ := Option.bind_eq_some_iff.mp h
    obtain ⟨⟨b₂, nameOffset, hostOffset⟩, h₂, h⟩ := Option.bind_eq_some_iff.mp h
    obtain ⟨channelId, hid, h⟩ := Option.bind_eq_some_iff.mp h
    obtain ⟨⟨b₃, friendlyOffset⟩, h₃, h⟩ := Option.bind_eq_some_iff.mp h
    cases h
    obtain ⟨data₁, rfl, hp₁, hcommon₁⟩ := writeCommonDescriptor_placed hstart hcommon h₁
    have hstart₁ := hstart.trans hp₁.length_le
    obtain ⟨data₂, rfl, hp₂, hsub⟩ := writeSubscription_placed hstart₁ h₂
    have hstart₂ := hstart₁.trans hp₂.length_le
    obtain ⟨data₃, rfl, hp₃, hfriendly⟩ := write0termStr_placed hstart₂ h₃
    have hcommon₃ := (placed_mono (hp₂.trans hp₃)).record hcommon₁
    refine ⟨data₃, rfl, hp₁.trans (hp₂.trans hp₃), fun _ => hcommon₃, rfl, ?_⟩
    rintro item ⟨⟩
    refine ⟨tryIntoU16_eq_some hid, ⟨rfl, rfl⟩, hcommon₃, hfriendly, status, hstatus, ?_⟩
    cases status with
    | none => exact ⟨hsub.1, hsub.2, rfl⟩
    | some ss => exact ⟨(placed_mono hp₃).name hsub.1, (placed_mono hp₃).name hsub.2, rfl⟩
  inv_grows := fun hinv hgrows hset => (placed_grows hgrows).record (hinv hset)
  reads_grows := fun hreads hgrows => hreads.le (placed_grows hgrows)

theorem transmitChannel_appends (start : Nat) (selfInfo : ArcDevice) :
    Appends start (transmitChannel selfInfo) (fun _ => true) (CommonPlaced start selfInfo)
      (fun x item data => TransmitChannelShown (placed start data) selfInfo x item) where
  step := by
    rintro offset ⟨ch, i⟩ data offset' b' out hstart hcommon h
    obtain ⟨⟨offset₁, b₁⟩, h₁, h⟩ := Option.bind_eq_some_iff.mp h
    obtain ⟨channelId, hid, h⟩ := Option.bind_eq_some_iff.mp h
    obtain ⟨⟨b₂, nameOffset⟩, h₂, h⟩ := Option.bind_eq_some_iff.mp h
    cases h
    obtain ⟨data₁, rfl, hp₁, hcommon₁⟩ := writeCommonDescriptor_placed hstart hcommon h₁
    obtain ⟨data₂, rfl, hp₂, hname⟩ := write0termStr_placed (hstart.trans hp₁.length_le) h₂
    have hcommon₂ := (placed_mono hp₂).record hcommon₁
    refine ⟨data₂, rfl, hp₁.trans hp₂, fun _ => hcommon₂, rfl, ?_⟩
    rintro item ⟨⟩
    exact ⟨tryIntoU16_eq_some hid, rfl, hcommon₂, hname⟩
  inv_grows := fun hinv hgrows hset => (placed_grows hgrows).record (hinv hset)
  reads_grows := fun hreads hgrows => hreads.le (placed_grows hgrows)

theorem friendlyName_appends (start : Nat) :
    Appends start friendlyName (fun _ => true) (fun _ _ => True)
      (fun x item data => FriendlyNameShown (placed start data) x item) where
  step := by
    rintro wrote ⟨ch, i⟩ data wrote' b' out hstart _ h
    obtain ⟨channelId, hid, h⟩ := Option.bind_eq_some_iff.mp h
    obtain ⟨⟨b₂, offset⟩, h₂, h⟩ := Option.bind_eq_some_iff.mp h
    cases h
    obtain ⟨data₁, hb₁, hp₁⟩ : ∃ data₁, (if wrote then ofBytes data else
        (ofBytes data).writeU32 0) = ofBytes data₁ ∧ data <+: data₁ := by
      cases wrote with
      | true => exact ⟨data, rfl, List.prefix_refl _⟩
      | false => exact ⟨_, ofBytes_writeU32 _ _, List.prefix_append _ _⟩
    rw [hb₁] at h₂
    obtain ⟨data₂, rfl, hp₂, hname⟩ := write0termStr_placed (hstart.trans hp₁.length_le) h₂
    refine ⟨data₂, rfl, hp₁.trans hp₂, trivial, rfl, ?_⟩
    rintro item ⟨⟩
    exact ⟨⟨tryIntoU16_eq_some hid, rfl⟩, hname⟩
  inv_grows := fun _ _ => trivial
  reads_grows := fun hreads hgrows => hreads.le (placed_grows hgrows)

/-! ## Flows -/

theorem writeU16s_ofBytes {ns : List Nat} {b : ByteBuffer}
    (h : writeU16s (ofBytes data) ns = some b) :
    ∃ words : List (BitVec 16), b = ofBytes (data ++ words.flatMap binarySerialize) ∧
      words.map BitVec.toNat = ns := by
  induction ns generalizing data with
  | nil =>
      cases h
      exact ⟨[], by rw [List.flatMap_nil, List.append_nil], rfl⟩
  | cons n ns ih =>
      obtain ⟨x, hx, h⟩ := Option.bind_eq_some_iff.mp h
      rw [ofBytes_writeU16] at h
      obtain ⟨words, rfl, hwords⟩ := ih h
      refine ⟨x :: words, ?_, ?_⟩
      · rw [List.flatMap_cons, List.append_assoc]
        rfl
      · rw [List.map_cons, hwords, tryIntoU16_eq_some hx]

/-- Written numbers stand one behind the other. -/
theorem writeU16s_placed {ns : List Nat} {b : ByteBuffer} (hstart : start ≤ data.length)
    (h : writeU16s (ofBytes data) ns = some b) :
    ∃ data', b = ofBytes data' ∧ data <+: data' ∧ data'.length = data.length + ns.length * 2 ∧
      ∀ k n, ns[k]? = some n → ∃ x : BitVec 16,
        (placed start data').record _ (data.length + k * 2) x ∧ x.toNat = n := by
  obtain ⟨words, rfl, rfl⟩ := writeU16s_ofBytes h
  refine ⟨_, rfl, List.prefix_append _ _, ?_, ?_⟩
  · rw [List.length_append, length_flatMap_serialize, List.length_map]
    rfl
  · intro k n hk
    rw [List.getElem?_map] at hk
    obtain ⟨x, hx, rfl⟩ := Option.map_eq_some_iff.mp hk
    exact ⟨x, ⟨Nat.le_add_right_of_le hstart, standsAt_flatMap data hx⟩, rfl⟩

/-- The offset of a name that is there is not zero. -/
theorem nameOr0_eq_zero {p : Pointing} {s : Option String} {offset : BitVec 16}
    (hp : ∀ {i s}, p.name i s → 0 < i) (h : p.nameOr0 offset s) : offset = 0 ↔ s = none := by
  cases s with
  | none => exact iff_of_true h rfl
  | some s =>
      refine iff_of_false ?_ (by intro h0; cases h0)
      rintro rfl
      exact Nat.lt_irrefl 0 (hp h)

theorem txFlowDescriptor_placed {selfInfo : ArcDevice} {flowIndex : Nat} {flowInfo : FlowInfo}
    {b : ByteBuffer} {offset : BitVec 16} (hpos : 0 < start) (hstart : start ≤ data.length)
    (h : txFlowDescriptor selfInfo flowIndex flowInfo (ofBytes data) = some (b, offset)) :
    ∃ data', b = ofBytes data' ∧ data <+: data' ∧
      TxFlowAt (placed start data') selfInfo (some flowInfo, flowIndex) offset := by
  obtain ⟨⟨b₁, localOffset⟩, h₁, h⟩ := Option.bind_eq_some_iff.mp h
  obtain ⟨⟨b₂, hostOffset⟩, h₂, h⟩ := Option.bind_eq_some_iff.mp h
  obtain ⟨⟨b₃, flowOffset⟩, h₃, h⟩ := Option.bind_eq_some_iff.mp h
  obtain ⟨socketOffset, h₄, h⟩ := Option.bind_eq_some_iff.mp h
  obtain ⟨namesOffset, h₅, h⟩ := Option.bind_eq_some_iff.mp h
  obtain ⟨flowId, hflowId, h⟩ := Option.bind_eq_some_iff.mp h
  obtain ⟨channelsCount, hcount, h⟩ := Option.bind_eq_some_iff.mp h
  obtain ⟨b₆, h₆, h⟩ := Option.bind_eq_some_iff.mp h
  obtain ⟨mainOffset, hmain, h⟩ := Option.bind_eq_some_iff.mp h
  cases h
  -- the names
  obtain ⟨data₁, rfl, hp₁, hlocal⟩ := write0termStr_placed hstart h₁
  have hstart₁ := hstart.trans hp₁.length_le
  obtain ⟨data₂, rfl, hp₂, hhost⟩ := write0termStrOr0_placed hstart₁ h₂
  have hstart₂ := hstart₁.trans hp₂.length_le
  obtain ⟨data₃, rfl, hp₃, hname⟩ := write0termStrOr0_placed hstart₂ h₃
  obtain ⟨data₄, h4, hp₄⟩ := alignWpos_ofBytes data₃ (show 0 < 4 by decide)
  have hstart₄ := (hstart₂.trans hp₃.length_le).trans hp₄.length_le
  simp only [h4, ofBytes_wpos, ofBytes_writeBytes] at h₄ h₅ h₆ hmain
  -- the records
  obtain ⟨data₅, h5, hp₅, hlen₅, hstart₅, hsocket⟩ := placed_end_record hstart₄
    (⟨0x8002, flowInfo.dstPort, flowInfo.dstAddr⟩ : DestinationSocketDescriptor)
  simp only [h5] at h₅ h₆ hmain
  obtain ⟨data₆, h6, hp₆, hlen₆, hstart₆, hnames⟩ := placed_end_record hstart₅
    (⟨0xa00, 1, hostOffset, flowOffset, 0x10, localOffset, (0, 0)⟩ : NamesDescriptor)
  simp only [h6] at h₆ hmain
  obtain ⟨data₇, h7, hp₇, hlen₇, hstart₇, hheader⟩ := placed_end_record hstart₆
    (⟨flowId, if hostOffset = 0 ∧ flowOffset = 0 then 2 else 0x11, selfInfo.sampleRate, 0,
      selfInfo.bitsPerSample.setWidth 16, 1, channelsCount, socketOffset⟩ :
        TxFlowDescriptorHeader)
  simp only [h7] at h₆
  obtain ⟨data₈, rfl, hp₈, hlen₈, hids⟩ := writeU16s_placed hstart₇ h₆
  have hstart₈ := hstart₇.trans hp₈.length_le
  obtain ⟨data₉, h9, hp₉, hlen₉, hstart₉, hfooter⟩ := placed_end_record hstart₈ namesOffset
  rw [List.length_map] at hlen₈
  rw [← tryIntoU16_eq_some hmain] at hheader hlen₇
  rw [← tryIntoU16_eq_some h₅] at hnames
  rw [← tryIntoU16_eq_some h₄] at hsocket
  rw [hlen₇] at hids hlen₈
  rw [hlen₈] at hfooter
  have hp₇₉ := hp₇.trans (hp₈.trans hp₉)
  have hp₃₉ := hp₄.trans (hp₅.trans (hp₆.trans hp₇₉))
  refine ⟨data₉, ?_, hp₁.trans (hp₂.trans (hp₃.trans hp₃₉)), flowInfo, _, namesOffset, _, rfl, {
    headerAt := (placed_mono (hp₈.trans hp₉)).record hheader
    flowId := tryIntoU16_eq_some hflowId
    flowType := ?_
    constants := ⟨rfl, rfl, rfl, rfl⟩
    socket := (placed_mono (hp₆.trans hp₇₉)).record hsocket
    channelsCount := tryIntoU16_eq_some hcount
    channels := ?_
    footer := hfooter
    namesAt := (placed_mono hp₇₉).record hnames
    namesConstants := ⟨rfl, rfl, rfl, rfl⟩
    localName := (placed_mono (hp₂.trans (hp₃.trans hp₃₉))).name hlocal
    rxHostname := Pointing.nameOr0_le (placed_mono (hp₃.trans hp₃₉)) hhost
    rxFlowName := Pointing.nameOr0_le (placed_mono hp₃₉) hname }⟩
  · rw [ofBytes_writeU16]
    exact congrArg ofBytes h9
  · have hzero : ∀ {d : List Byte} {i s}, (placed start d).name i s → 0 < i :=
      fun hi => Nat.lt_of_lt_of_le hpos hi.1
    show (if hostOffset = 0 ∧ flowOffset = 0 then (2 : BitVec 16) else 0x11) = _
    simp only [nameOr0_eq_zero hzero hhost, nameOr0_eq_zero hzero hname, FlowInfo.isMulticast,
      Bool.and_eq_true, Option.isNone_iff_eq_none]
  · intro k ch hk
    obtain ⟨id, hid, hidn⟩ := hids k ((ch.map (· + 1)).getD 0)
      (by rw [List.getElem?_map, hk]; rfl)
    exact ⟨id, (placed_mono hp₉).record hid, hidn⟩

theorem txFlow_appends {start : Nat} (hpos : 0 < start) (selfInfo : ArcDevice) :
    Appends start (txFlow selfInfo) (fun x => x.1.isSome) (fun _ _ => True)
      (fun x item data => TxFlowAt (placed start data) selfInfo x item) where
  step := by
    rintro s ⟨flowOpt, flowIndex⟩ data s' b' out hstart _ h
    cases flowOpt with
    | none =>
        cases h
        exact ⟨data, rfl, List.prefix_refl _, trivial, rfl, by rintro item ⟨⟩⟩
    | some flowInfo =>
        obtain ⟨⟨b, offset⟩, hdescr, h⟩ := Option.bind_eq_some_iff.mp h
        cases h
        obtain ⟨data', rfl, hp, hshown⟩ := txFlowDescriptor_placed hpos hstart hdescr
        refine ⟨data', rfl, hp, trivial, rfl, ?_⟩
        rintro item ⟨⟩
        exact hshown
  inv_grows := fun _ _ => trivial
  reads_grows := fun hreads hgrows => hreads.le (placed_grows hgrows)

/-! ## Bitmasks -/

theorem getLsbD_bitmaskWord {mask : List Bool} {chi k : Nat} (hk : k < 16) :
    (bitmaskWord mask chi).getLsbD k = mask.getD (chi + k) false := by
  have hfold : ∀ n ≤ 16, ((List.range n).foldl (fun (word : BitVec 16) k =>
      word ||| if mask.getD (chi + k) false then (1 : BitVec 16) <<< k else 0) 0).getLsbD k =
        (decide (k < n) && mask.getD (chi + k) false) := by
    intro n hn
    induction n with
    | zero => exact BitVec.getLsbD_zero
    | succ n ih =>
        rw [List.range_succ, List.foldl_append, List.foldl_cons, List.foldl_nil, BitVec.getLsbD_or,
          ih (Nat.le_of_succ_le hn)]
        by_cases hkn : k = n
        · subst hkn
          cases mask.getD (chi + k) false <;> simp [hk]
        · have hbit : (if mask.getD (chi + n) false then (1 : BitVec 16) <<< n else 0).getLsbD k =
              false := by
            split
            · simp only [BitVec.getLsbD_shiftLeft]
              grind
            · exact BitVec.getLsbD_zero
          rw [hbit, Bool.or_false]
          congr 1
          exact decide_eq_decide.mpr (by omega)
  rw [bitmaskWord, hfold 16 (Nat.le_refl 16), decide_eq_true hk, Bool.true_and]

theorem le_wordsPerBitmask {channelsMap : List (List Bool)} {mask : List Bool}
    (h : mask ∈ channelsMap) : mask.length ≤ wordsPerBitmask channelsMap * 16 := by
  have hmem : mask.length ∈ channelsMap.map List.length := List.mem_map_of_mem h
  have hle : mask.length ≤ (channelsMap.map List.length).max?.getD 0 := by
    cases hmax : (channelsMap.map List.length).max? with
    | none => rw [List.max?_eq_none_iff.mp hmax] at hmem; cases hmem
    | some m => exact (List.max?_eq_some_iff.mp hmax).2 _ hmem
  unfold wordsPerBitmask
  dsimp only
  omega

theorem writeBitmask_ofBytes (data : List Byte) (mask : List Bool) (words : Nat) :
    writeBitmask (ofBytes data) mask words = ofBytes (data ++
      ((List.range words).map fun w => bitmaskWord mask (w * 16)).flatMap binarySerialize) := by
  unfold writeBitmask
  generalize List.range words = ws
  induction ws generalizing data with
  | nil => rw [List.map_nil, List.flatMap_nil, List.append_nil]; rfl
  | cons w ws ih =>
      rw [List.foldl_cons, ofBytes_writeU16, ih, List.map_cons, List.flatMap_cons,
        List.append_assoc]
      rfl

theorem writeBitmask_placed (hstart : start ≤ data.length) {mask : List Bool} {words : Nat}
    (hmask : mask.length ≤ words * 16) :
    ∃ data', writeBitmask (ofBytes data) mask words = ofBytes data' ∧ data <+: data' ∧
      BitmaskShown (placed start data') data.length words mask := by
  refine ⟨_, writeBitmask_ofBytes data mask words, List.prefix_append _ _, hmask, ?_⟩
  intro w hw
  have hword : ((List.range words).map fun w => bitmaskWord mask (w * 16))[w]? =
      some (bitmaskWord mask (w * 16)) := by
    rw [List.getElem?_map, List.getElem?_range hw]
    rfl
  exact ⟨_, ⟨Nat.le_add_right_of_le hstart, standsAt_flatMap data hword⟩,
    fun k hk => getLsbD_bitmaskWord hk⟩

theorem writeBitmasks_placed {words : Nat} {masks : List (List Bool)}
    (hstart : start ≤ data.length) (hmasks : ∀ mask ∈ masks, mask.length ≤ words * 16) :
    ∃ (data' : List Byte) (offsets : List Nat), writeBitmasks words (ofBytes data) masks = (ofBytes data', offsets) ∧
      data <+: data' ∧ offsets.length = masks.length ∧
      ∀ (j : Nat) (mask : List Bool), masks[j]? = some mask →
        ∃ pos, offsets[j]? = some pos ∧ BitmaskShown (placed start data') pos words mask := by
  induction masks generalizing data with
  | nil =>
      refine ⟨data, [], rfl, List.prefix_refl _, rfl, ?_⟩
      intro j mask hj
      cases hj
  | cons mask masks ih =>
      obtain ⟨data₁, h1, hp₁, hshown⟩ := writeBitmask_placed hstart
        (hmasks mask List.mem_cons_self)
      obtain ⟨data₂, offsets, h2, hp₂, hlen, hrest⟩ := ih (hstart.trans hp₁.length_le)
        fun m hm => hmasks m (List.mem_cons_of_mem _ hm)
      refine ⟨data₂, data.length :: offsets, ?_, hp₁.trans hp₂, congrArg (· + 1) hlen, ?_⟩
      · rw [writeBitmasks, h1, h2]
        rfl
      · intro j mask' hj
        cases j with
        | zero =>
            obtain rfl : mask = mask' := Option.some.inj hj
            exact ⟨data.length, rfl, hshown.le (placed_mono hp₂)⟩
        | succ j => exact hrest j mask' hj

theorem tryIntoU32_eq_some {n : Nat} {x : BitVec 32} (h : tryIntoU32 n = some x) :
    x.toNat = n := by
  unfold tryIntoU32 at h
  split at h
  · cases h
    rw [BitVec.toNat_ofNat]
    exact Nat.mod_eq_of_lt ‹_›
  · cases h

theorem rxLatencyNs_eq_some {selfInfo : ArcDevice} {flowInfo : ListedRxFlow} {x : BitVec 32}
    (h : rxLatencyNs selfInfo flowInfo = some x) :
    x.toNat = flowInfo.latencySamples * 1000000000 / selfInfo.sampleRate.toNat := by
  unfold rxLatencyNs at h
  split at h
  · cases h
  · exact tryIntoU32_eq_some h

theorem rxFlowDescriptor_placed {selfInfo : ArcDevice} {flowIndex : Nat} {flowInfo : ListedRxFlow}
    {b : ByteBuffer} {offset : BitVec 16} (hstart : start ≤ data.length)
    (h : rxFlowDescriptor selfInfo flowIndex flowInfo (ofBytes data) = some (b, offset)) :
    ∃ data', b = ofBytes data' ∧ data <+: data' ∧
      RxFlowAt (placed start data') selfInfo (some flowInfo, flowIndex) offset := by
  obtain ⟨socketOffset, h₁, h⟩ := Option.bind_eq_some_iff.mp h
  obtain ⟨descriptor2Offset, h₂, h⟩ := Option.bind_eq_some_iff.mp h
  obtain ⟨latencyNs, hlatency, h⟩ := Option.bind_eq_some_iff.mp h
  obtain ⟨data₁, h1, hp₁⟩ := alignWpos_ofBytes data (show 0 < 4 by decide)
  have hstart₁ := hstart.trans hp₁.length_le
  simp only [h1, ofBytes_wpos, ofBytes_writeBytes] at h₁ h₂ h
  obtain ⟨data₂, h2, hp₂, hlen₂, hstart₂, hsocket⟩ := placed_end_record hstart₁
    (⟨0x8002, flowInfo.rxPort, selfInfo.ipAddress⟩ : DestinationSocketDescriptor)
  simp only [h2] at h₂ h
  obtain ⟨data₃, h3, hp₃, hlen₃, hstart₃, hdescr2⟩ := placed_end_record hstart₂
    (⟨9, 1, 0x800, 0, latencyNs, 0⟩ : RxDescriptor2)
  simp only [h3] at h
  obtain ⟨data₄, offsets, h4, hp₄, hlen₄, hmasks⟩ := writeBitmasks_placed hstart₃
    fun mask hmask => @le_wordsPerBitmask flowInfo.channelsMap mask hmask
  have hstart₄ := hstart₃.trans hp₄.length_le
  obtain ⟨data₅, h5, hp₅⟩ := alignWpos_ofBytes data₄ (show 0 < 4 by decide)
  have hstart₅ := hstart₄.trans hp₅.length_le
  simp only [h4, h5, ofBytes_wpos, ofBytes_writeBytes] at h
  obtain ⟨flowId, hflowId, h⟩ := Option.bind_eq_some_iff.mp h
  obtain ⟨channelsCount, hcount, h⟩ := Option.bind_eq_some_iff.mp h
  obtain ⟨words, hwords, h⟩ := Option.bind_eq_some_iff.mp h
  obtain ⟨b₇, h₇, h⟩ := Option.bind_eq_some_iff.mp h
  obtain ⟨mainOffset, hmain, h⟩ := Option.bind_eq_some_iff.mp h
  cases h
  obtain ⟨data₆, h6, hp₆, hlen₆, hstart₆, hheader⟩ := placed_end_record hstart₅
    (⟨flowId, 1, selfInfo.sampleRate, 0, selfInfo.bitsPerSample.setWidth 16, 1, channelsCount,
      words, socketOffset⟩ : RxFlowDescriptorHeader)
  rw [h6] at h₇
  obtain ⟨data₇, rfl, hp₇, hlen₇, hoffsets⟩ := writeU16s_placed hstart₆ h₇
  obtain ⟨data₈, h8, hp₈, _, _, hfooter⟩ := placed_end_record (hstart₆.trans hp₇.length_le)
    descriptor2Offset
  rw [← tryIntoU16_eq_some hmain] at hheader hlen₆
  rw [← tryIntoU16_eq_some h₂] at hdescr2
  rw [← tryIntoU16_eq_some h₁] at hsocket
  rw [hlen₆] at hoffsets hlen₇
  rw [hlen₇, hlen₄] at hfooter
  have hp₄₈ := hp₅.trans (hp₆.trans (hp₇.trans hp₈))
  have hp₂₈ := hp₃.trans (hp₄.trans hp₄₈)
  refine ⟨data₈, ?_, hp₁.trans (hp₂.trans hp₂₈), flowInfo, _, descriptor2Offset, _, rfl, {
    headerAt := (placed_mono (hp₇.trans hp₈)).record hheader
    flowId := tryIntoU16_eq_some hflowId
    constants := ⟨rfl, rfl, rfl, rfl, rfl⟩
    socket := (placed_mono hp₂₈).record hsocket
    channelsCount := tryIntoU16_eq_some hcount
    bitmasks := ?_
    footer := hfooter
    descriptor2At := (placed_mono (hp₄.trans hp₄₈)).record hdescr2
    descriptor2Constants := ⟨rfl, rfl, rfl, rfl, rfl⟩
    latency := rxLatencyNs_eq_some hlatency }⟩
  · rw [ofBytes_writeU16]
    exact congrArg ofBytes h8
  · intro j mask hj
    obtain ⟨pos, hpos, hshown⟩ := hmasks j mask hj
    obtain ⟨bitmaskOffset, hat, hnat⟩ := hoffsets j pos hpos
    refine ⟨bitmaskOffset, (placed_mono hp₈).record hat, ?_⟩
    show BitmaskShown _ _ words.toNat _
    rw [hnat, tryIntoU16_eq_some hwords]
    exact hshown.le (placed_mono hp₄₈)

theorem rxFlow_appends (start : Nat) (selfInfo : ArcDevice) :
    Appends start (rxFlow selfInfo) (fun x => x.1.isSome) (fun _ _ => True)
      (fun x item data => RxFlowAt (placed start data) selfInfo x item) where
  step := by
    rintro s ⟨flowOpt, flowIndex⟩ data s' b' out hstart _ h
    cases flowOpt with
    | none =>
        cases h
        exact ⟨data, rfl, List.prefix_refl _, trivial, rfl, by rintro item ⟨⟩⟩
    | some flowInfo =>
        obtain ⟨⟨b, offset⟩, hdescr, h⟩ := Option.bind_eq_some_iff.mp h
        cases h
        obtain ⟨data', rfl, hp, hshown⟩ := rxFlowDescriptor_placed hstart hdescr
        refine ⟨data', rfl, hp, trivial, rfl, ?_⟩
        rintro item ⟨⟩
        exact hshown
  inv_grows := fun _ _ => trivial
  reads_grows := fun hreads hgrows => hreads.le (placed_grows hgrows)

/-! ## Pages -/

section

variable {σ In Out : Type} [BinarySerde Out]

/-- A page of the answer, read by the one who asked. -/
theorem paginateMakeResponse_decodes (Shown : Pointing → In → Out → Prop) {spaceItems : Byte}
    {source : List In} {transform : Transform σ In Out} {s : σ} {yields : In → Bool}
    {Inv : σ → List Byte → Prop} {request page : List Byte} {code : BitVec 16} {startIndex : Nat}
    (h : Appends (2 + HEADER_LENGTH + spaceItems.toNat * SERIALIZED_SIZE Out) transform yields Inv
      (fun x item data => Shown (placed (2 + HEADER_LENGTH + spaceItems.toNat *
        SERIALIZED_SIZE Out) data) x item))
    (hle : ∀ {p q : Pointing} {x item}, p.Le q → Shown p x item → Shown q x item)
    (hinv : ∀ data, Inv s data)
    (hstart : extractStartIndex request = some startIndex)
    (hpage : paginateMakeResponse request spaceItems source transform s = some (code, page)) :
    ∃ items : List Out, deserializeItems Out page = some items ∧
      List.Forall₂ (Shown (decoded page))
        (((source.drop startIndex).filter yields).take items.length) items := by
  unfold paginateMakeResponse at hpage
  rw [hstart] at hpage
  obtain ⟨itemsPage, hrun, h'⟩ := Option.bind_eq_some_iff.mp hpage
  cases h'
  obtain ⟨hitems, hreads⟩ := h.serializeItems_reads (hinv _) hrun
  have hhead : HEADER_LENGTH ≤ 2 + HEADER_LENGTH + spaceItems.toNat * SERIALIZED_SIZE Out :=
    Nat.le_add_right_of_le (Nat.le_add_left _ _)
  exact ⟨itemsPage.counted, hitems, hreads.imp fun _ _ => hle (placed_decoded hhead _)⟩

end

/-- **Listings decode to what was listed.** The items read from a page are those
that were counted, whatever closure made them, as long as it writes behind the
reserved space; and in the five listings they show, in order, the channels and
the flows from the asked one on. -/
theorem listings_decode :
    (∀ (σ In Out : Type) [BinarySerde Out] (spaceItems : Byte) (source : List In)
        (transform : Transform σ In Out) (s : σ) (I : σ → ByteBuffer → Prop) (page : ItemsPage Out),
      WritesBehind (2 + HEADER_LENGTH + spaceItems.toNat * SERIALIZED_SIZE Out) transform I →
      I s (reservedSpace Out spaceItems) →
      serializeItems spaceItems source transform s = some page →
      deserializeItems Out page.content = some page.counted) ∧
    ∀ (selfInfo : ArcDevice) (request page : List Byte) (startIndex : Nat) (code : BitVec 16),
      extractStartIndex request = some startIndex →
      (∀ subscriptionsInfo,
        getReceiveChannels selfInfo subscriptionsInfo request = some (code, page) →
        ∃ items, deserializeItems ReceiveChannelDescriptor page = some items ∧
          List.Forall₂ (ReceiveChannelShown (decoded page) selfInfo (subscriptionsInfo.getD []))
            ((selfInfo.rxChannels.zipIdx.drop startIndex).take items.length) items) ∧
      (getTransmitChannels selfInfo request = some (code, page) →
        ∃ items, deserializeItems TransmitChannelDescriptor page = some items ∧
          List.Forall₂ (TransmitChannelShown (decoded page) selfInfo)
            ((selfInfo.txChannels.zipIdx.drop startIndex).take items.length) items) ∧
      (getTransmitChannelsFriendlyNames selfInfo request = some (code, page) →
        ∃ items, deserializeItems FriendlyNameDescriptor page = some items ∧
          List.Forall₂ (FriendlyNameShown (decoded page))
            ((selfInfo.txChannels.zipIdx.drop startIndex).take items.length) items) ∧
      (∀ flowsTx, queryTxFlows selfInfo flowsTx request = some (code, page) →
        ∃ items, deserializeItems (BitVec 16) page = some items ∧
          List.Forall₂ (TxFlowAt (decoded page) selfInfo)
            ((((flowsTx.getD []).zipIdx.drop startIndex).filter (·.1.isSome)).take items.length)
            items) ∧
      ∀ flowsInfo, queryRxFlows selfInfo (some flowsInfo) request = some (code, page) →
        ∃ items, deserializeItems (BitVec 16) page = some items ∧
          List.Forall₂ (RxFlowAt (decoded page) selfInfo)
            (((flowsInfo.zipIdx.drop startIndex).filter (·.1.isSome)).take items.length) items := by
  have hall : ∀ {In : Type} (xs : List In), xs.filter (fun _ => true) = xs := fun xs =>
    List.filter_eq_self.mpr fun _ _ => rfl
  have hunset : ∀ start (selfInfo : ArcDevice) data, CommonPlaced start selfInfo 0 data :=
    fun _ _ _ hset => absurd rfl hset
  refine ⟨fun σ In Out _ spaceItems source transform s I page htransform hI hrun =>
    deserialize_page htransform hI hrun, ?_⟩
  intro selfInfo request page startIndex code hstart
  refine ⟨?_, ?_, ?_, ?_, ?_⟩
  · intro subscriptionsInfo hpage
    have happends : ∀ start, Appends start (fun offset x bytes => do
        receiveChannel selfInfo (← subscriptionsInfo) offset x bytes) (fun _ => true)
        (CommonPlaced start selfInfo) (fun x item data =>
          ReceiveChannelShown (placed start data) selfInfo (subscriptionsInfo.getD []) x item) := by
      intro start
      have hsome := receiveChannel_appends start selfInfo (subscriptionsInfo.getD [])
      cases subscriptionsInfo with
      | some subs => exact hsome
      | none => exact { hsome with step := by intro s x data s' b' out _ _ h; cases h }
    have hdec := paginateMakeResponse_decodes
      (fun p => ReceiveChannelShown p selfInfo (subscriptionsInfo.getD [])) (happends _)
      (fun hle hx => hx.le hle)
      (hunset _ selfInfo) hstart hpage
    simpa only [hall] using hdec
  · intro hpage
    have hdec := paginateMakeResponse_decodes (fun p => TransmitChannelShown p selfInfo)
      (transmitChannel_appends _ selfInfo) (fun hle hx => hx.le hle) (hunset _ selfInfo) hstart hpage
    simpa only [hall] using hdec
  · intro hpage
    have hdec := paginateMakeResponse_decodes FriendlyNameShown (friendlyName_appends _)
      (fun hle hx => hx.le hle) (fun _ => trivial) hstart hpage
    simpa only [hall] using hdec
  · intro flowsTx hpage
    exact paginateMakeResponse_decodes (fun p => TxFlowAt p selfInfo)
      (txFlow_appends (Nat.lt_of_lt_of_le (by decide) (Nat.le_add_right (2 + HEADER_LENGTH) _))
        selfInfo) (fun hle hx => hx.le hle) (fun _ => trivial) hstart hpage
  · intro flowsInfo hpage
    exact paginateMakeResponse_decodes (fun p => RxFlowAt p selfInfo)
      (rxFlow_appends _ selfInfo) (fun hle hx => hx.le hle) (fun _ => trivial) hstart hpage

/-- Two channels to transmit. -/
def twoNames : ArcDevice where
  ipAddress := 0
  processId := 0
  rxChannels := []
  txChannels := [⟨"01", "L"⟩, ⟨"02", "R"⟩]
  bitsPerSample := 24
  pcmType := 0xe
  sampleRate := 48000

theorem listings_decode_twoNames : ∃ items,
    deserializeItems FriendlyNameDescriptor [2, 2, 0, 1, 0, 1, 0, 28, 0, 2, 0, 2, 0, 30,
      0, 0, 0, 0, 0x4c, 0, 0x52, 0] = some items ∧
    List.Forall₂ (FriendlyNameShown (decoded [2, 2, 0, 1, 0, 1, 0, 28, 0, 2, 0, 2, 0, 30,
      0, 0, 0, 0, 0x4c, 0, 0x52, 0])) (twoNames.txChannels.zipIdx.take items.length) items :=
  (listings_decode.2 twoNames [0, 0, 0, 1] _ 0 1 (by decide)).2.2.1 (by decide)

/-- A closure that goes back and writes over the first item. -/
def scribble : Transform Unit Bool (BitVec 16) := fun _ back bytes =>
  if back then
    some ((), ((bytes.setWpos (2 + HEADER_LENGTH)).writeU16 0xFFFF).setWpos bytes.wpos, none)
  else some ((), bytes, some 1)

theorem scribbled_page_differs : ∃ page,
    serializeItems 2 [false, true] scribble () = some page ∧
      deserializeItems (BitVec 16) page.content ≠ some page.counted :=
  ⟨_, rfl, by decide⟩

end Inferno
