import Inferno.ListingsPages

/-!
# When a listing panics

The closures of the listings convert ids, counts and positions to 16 bits, and a
conversion that fails panics. What a page looks at, and at which position,
depends on the sizes of what it lists only (`PageSizes`), so that a listing does
not panic exactly if each item a page gets to fits where it gets to it
(`PageOk`).
-/

namespace Inferno

open ByteBuffer BinarySerde

section

variable {σ In Out : Type}

/-- Each item that a page looks at is `okAt` the size the page has by then, of
which `grow` makes the next. A page is left when it has so many items, or is
past its limit. -/
def PageOk (spaceItems : Nat) (grow : Nat → In → Option Nat) (okAt : Nat → In → Prop) :
    List In → Nat → Nat → Prop
  | [], _, _ => True
  | x :: source, size, count =>
      spaceItems ≤ count ∨ okAt size x ∧
        match grow size x with
        | none => PageOk spaceItems grow okAt source size count
        | some size' => PACKET_SIZE_SOFT_LIMIT ≤ size' ∨
            PageOk spaceItems grow okAt source size' (count + 1)

/-- What a call of the closure makes of the size, `lead` included: nothing if
there is no item. -/
structure PageSizes (transform : Transform σ In Out) (lead : σ → Nat)
    (grow : Nat → In → Option Nat) (okAt : Nat → In → Prop) : Prop where
  isSome_iff : ∀ {s x data}, 0 < data.length →
    ((transform s x (ofBytes data)).isSome ↔ okAt (data.length + lead s) x)
  step : ∀ {s x data s' b' out}, 0 < data.length →
    transform s x (ofBytes data) = some (s', b', out) →
    ∃ data', b' = ofBytes data' ∧ data.length ≤ data'.length ∧
      match out with
      | none => grow (data.length + lead s) x = none ∧
          data'.length + lead s' = data.length + lead s
      | some _ => grow (data.length + lead s) x = some data'.length ∧ lead s' = 0

variable [BinarySerde Out] {transform : Transform σ In Out} {lead : σ → Nat}
  {grow : Nat → In → Option Nat} {okAt : Nat → In → Prop}

theorem serializeLoop_isSome_iff (h : PageSizes transform lead grow okAt) {spaceItems : Nat}
    {source : List In} {s : σ} {data : List Byte} {counted : List Out}
    (hdata : 2 + HEADER_LENGTH + spaceItems * SERIALIZED_SIZE Out ≤ data.length) :
    (serializeLoop spaceItems transform source s (ofBytes data)
      (2 + HEADER_LENGTH + counted.length * SERIALIZED_SIZE Out) counted).isSome ↔
      PageOk spaceItems grow okAt source (data.length + lead s) counted.length := by
  induction source generalizing s data counted with
  | nil => exact iff_of_true rfl trivial
  | cons x source ih =>
      rw [serializeLoop, PageOk]
      by_cases hfull : spaceItems ≤ counted.length
      · rw [if_pos hfull]
        exact iff_of_true rfl (Or.inl hfull)
      · rw [if_neg hfull, or_iff_right hfull, ← h.isSome_iff (s := s) (by omega)]
        cases hcall : transform s x (ofBytes data) with
        | none => exact iff_of_false Bool.false_ne_true fun hf => Bool.false_ne_true hf.1
        | some result =>
            obtain ⟨s', b', out⟩ := result
            obtain ⟨data', rfl, hgrown, hout⟩ := h.step (by omega) hcall
            rw [Option.isSome_some, and_iff_right rfl]
            cases out with
            | none =>
                dsimp only at hout ⊢
                rw [hout.1, ← hout.2]
                exact ih (by omega)
            | some item =>
                dsimp only at hout ⊢
                obtain ⟨hgrow, hlead⟩ := hout
                have hitem : 2 + HEADER_LENGTH + counted.length * SERIALIZED_SIZE Out +
                    (binarySerialize item).length ≤ data'.length := by
                  have hroom := Nat.mul_le_mul_right (SERIALIZED_SIZE Out) (Nat.not_le.mp hfull)
                  rw [Nat.succ_mul] at hroom
                  rw [length_serialize]
                  omega
                obtain ⟨data'', hput, hlen⟩ := ofBytes_writeInside hitem
                rw [ofBytes_wpos, hput, hgrow]
                dsimp only
                by_cases hcross : data'.length ≥ PACKET_SIZE_SOFT_LIMIT
                · rw [if_pos hcross]
                  exact iff_of_true rfl (Or.inl hcross)
                · rw [if_neg hcross, or_iff_right (by exact hcross)]
                  have hstep := @ih s' data'' (counted ++ [item]) (by omega)
                  rw [List.length_append, List.length_singleton, Nat.succ_mul, ← Nat.add_assoc,
                    hlen, hlead, Nat.add_zero] at hstep
                  exact hstep

/-- The page a request asks for, if there is one. -/
def ListingOk (spaceItems : Byte) (base : Nat) (grow : Nat → In → Option Nat)
    (okAt : Nat → In → Prop) (source : List In) (content : List Byte) : Prop :=
  ∀ start, extractStartIndex content = some start → spaceItems ≠ 0 →
    PageOk spaceItems.toNat grow okAt (source.drop start) base 0

theorem paginateMakeResponse_isSome_iff (h : PageSizes transform lead grow okAt)
    (content : List Byte) (spaceItems : Byte) (source : List In) (s : σ) :
    (paginateMakeResponse content spaceItems source transform s).isSome ↔
      ListingOk spaceItems (2 + HEADER_LENGTH + spaceItems.toNat * SERIALIZED_SIZE Out + lead s)
        grow okAt source content := by
  unfold paginateMakeResponse ListingOk
  cases extractStartIndex content with
  | none => exact iff_of_true rfl fun start hstart => by cases hstart
  | some start =>
      simp only [Option.some.injEq, forall_eq']
      have hmap : ((serializeItems spaceItems (source.drop start) transform s).bind fun page =>
          some (if page.haveMore then (0x8112 : BitVec 16) else 1, page.content)).isSome ↔
          (serializeItems spaceItems (source.drop start) transform s).isSome := by
        rw [Option.isSome_bind]
        cases serializeItems spaceItems (source.drop start) transform s with
        | none => exact Iff.rfl
        | some page => exact Iff.rfl
      refine hmap.trans ?_
      unfold serializeItems
      by_cases hzero : spaceItems = 0
      · rw [if_pos hzero]
        exact iff_of_true rfl fun hf => absurd hzero hf
      · rw [if_neg hzero, forall_prop_of_true hzero, reservedSpace_eq]
        have hlen := length_reservedSpace Out spaceItems
        have hloop := @serializeLoop_isSome_iff σ In Out _ transform lead grow okAt h
          spaceItems.toNat (source.drop start) s _ [] hlen.ge
        rw [hlen, List.length_nil, Nat.zero_mul, Nat.add_zero] at hloop
        rw [← hloop]
        cases serializeLoop spaceItems.toNat transform (source.drop start) s
          (ofBytes (List.replicate HEADER_LENGTH 0 ++ [spaceItems, 0] ++
            List.replicate (spaceItems.toNat * SERIALIZED_SIZE Out) 0)) (2 + HEADER_LENGTH)
            ([] : List Out) with
        | none => exact Iff.rfl
        | some page => exact Iff.rfl

end

/-! ## Channels -/

theorem toNat_lt_of_eq {n : Nat} {x : BitVec 16} (h : x.toNat = n) : n < 2 ^ 16 := h ▸ x.isLt

theorem transmitChannel_sizes (selfInfo : ArcDevice) :
    PageSizes (transmitChannel selfInfo) commonLead
      (fun size x => some (size + nameSize x.1.factoryName))
      (fun size x => x.2 + 1 < 2 ^ 16 ∧ size < 2 ^ 16) where
  isSome_iff := by
    rintro offset ⟨ch, i⟩ data hpos
    constructor
    · intro hsome
      obtain ⟨result, h⟩ := Option.isSome_iff_exists.mp hsome
      obtain ⟨⟨offset₁, b₁⟩, h₁, h⟩ := Option.bind_eq_some_iff.mp h
      obtain ⟨channelId, hid, h⟩ := Option.bind_eq_some_iff.mp h
      obtain ⟨⟨b₂, nameOffset⟩, h₂, _⟩ := Option.bind_eq_some_iff.mp h
      obtain ⟨data₁, rfl, hlen₁, _⟩ := writeCommonDescriptor_size hpos h₁
      refine ⟨toNat_lt_of_eq (tryIntoU16_eq_some hid), ?_⟩
      rw [← hlen₁]
      exact toNat_lt_of_eq (write0termStr_ofBytes h₂).2
    · rintro ⟨hid, hlen⟩
      exact transmitChannel_isSome selfInfo hid hlen
  step := by
    intro offset x data offset' b' out hpos h
    obtain ⟨data', item, rfl, rfl, hlen, hlead⟩ := (transmitChannel_costs selfInfo).step hpos h
    exact ⟨data', rfl, by omega, by rw [hlen], hlead⟩

theorem friendlyName_sizes :
    PageSizes friendlyName (fun wrote => if wrote then 0 else 4)
      (fun size x => some (size + nameSize x.1.friendlyName))
      (fun size x => x.2 + 1 < 2 ^ 16 ∧ size < 2 ^ 16) where
  isSome_iff := by
    rintro wrote ⟨ch, i⟩ data hpos
    constructor
    · intro hsome
      obtain ⟨result, h⟩ := Option.isSome_iff_exists.mp hsome
      obtain ⟨channelId, hid, h⟩ := Option.bind_eq_some_iff.mp h
      obtain ⟨⟨b₂, offset⟩, h₂, _⟩ := Option.bind_eq_some_iff.mp h
      refine ⟨toNat_lt_of_eq (tryIntoU16_eq_some hid), ?_⟩
      cases wrote with
      | true => exact toNat_lt_of_eq (write0termStr_ofBytes h₂).2
      | false =>
          rw [if_neg Bool.false_ne_true, ofBytes_writeU32] at h₂
          have hlt := toNat_lt_of_eq (write0termStr_ofBytes h₂).2
          rwa [List.length_append] at hlt
    · rintro ⟨hid, hlen⟩
      exact friendlyName_isSome hid hlen
  step := by
    intro wrote x data wrote' b' out hpos h
    obtain ⟨data', item, rfl, rfl, hlen, hlead⟩ := friendlyName_costs.step hpos h
    exact ⟨data', rfl, by omega, by rw [hlen], hlead⟩

theorem receiveChannel_sizes (selfInfo : ArcDevice)
    (subscriptionsInfo : List (Option SubscriptionInfo)) :
    PageSizes (receiveChannel selfInfo subscriptionsInfo) commonLead
      (fun size x => some (size + receiveSize (some subscriptionsInfo) x))
      (fun size x => x.2 + 1 < 2 ^ 16 ∧ x.2 < subscriptionsInfo.length ∧
        size + subscriptionSize (subscriptionsInfo[x.2]?).join < 2 ^ 16) where
  isSome_iff := by
    rintro offset ⟨ch, i⟩ data hpos
    constructor
    · intro hsome
      obtain ⟨result, h⟩ := Option.isSome_iff_exists.mp hsome
      obtain ⟨⟨offset₁, b₁⟩, h₁, h⟩ := Option.bind_eq_some_iff.mp h
      obtain ⟨status, hstatus, h⟩ := Option.bind_eq_some_iff.mp h
      obtain ⟨⟨b₂, nameOffset, hostOffset⟩, h₂, h⟩ := Option.bind_eq_some_iff.mp h
      obtain ⟨channelId, hid, h⟩ := Option.bind_eq_some_iff.mp h
      obtain ⟨⟨b₃, friendlyOffset⟩, h₃, _⟩ := Option.bind_eq_some_iff.mp h
      obtain ⟨data₁, rfl, hlen₁, _⟩ := writeCommonDescriptor_size hpos h₁
      obtain ⟨data₂, rfl, hlen₂⟩ := writeSubscription_size h₂
      refine ⟨toNat_lt_of_eq (tryIntoU16_eq_some hid), (List.getElem?_eq_some_iff.mp hstatus).1, ?_⟩
      dsimp only
      rw [hstatus, Option.join_some, ← hlen₁, ← hlen₂]
      exact toNat_lt_of_eq (write0termStr_ofBytes h₃).2
    · rintro ⟨hid, hi, hlen⟩
      exact receiveChannel_isSome selfInfo hid hi hlen
  step := by
    intro offset x data offset' b' out hpos h
    obtain ⟨data', item, rfl, rfl, hlen, hlead⟩ :=
      (receiveChannel_costs selfInfo subscriptionsInfo).step hpos h
    exact ⟨data', rfl, by omega, by rw [hlen], hlead⟩

/-! ## Flows -/

theorem tryIntoU16_of_lt {n : Nat} (h : n < 2 ^ 16) : tryIntoU16 n = some (BitVec.ofNat 16 n) :=
  if_pos h

/-- The next multiple of four. -/
def aligned4 (size : Nat) : Nat := size + (4 - size % 4) % 4

theorem le_aligned4 (size : Nat) : size ≤ aligned4 size := Nat.le_add_right _ _

theorem alignWpos_size (data : List Byte) :
    ∃ data', alignWpos (ofBytes data) 4 = ofBytes data' ∧ data'.length = aligned4 data.length := by
  obtain ⟨k, hk, hrun, hmod⟩ := @padLoop_ofBytes 0 4 4 data
    ⟨(4 - data.length % 4) % 4, by omega, by omega⟩
  by_cases haligned : data.length % 4 = 0
  · refine ⟨data, ?_, by unfold aligned4; omega⟩
    rw [alignWpos, padLoop, ofBytes_wpos, Nat.add_zero, if_neg (not_not_intro haligned)]
  · refine ⟨_, hrun, ?_⟩
    rw [List.length_append, List.length_replicate, aligned4]
    omega

def optNameSize : Option String → Nat
  | none => 0
  | some s => nameSize s

theorem write0termStrOr0_size {data : List Byte} {s : Option String} {b : ByteBuffer}
    {offset : BitVec 16} (h : write0termStrOr0 (ofBytes data) s = some (b, offset)) :
    ∃ data', b = ofBytes data' ∧ data'.length = data.length + optNameSize s := by
  cases s with
  | none =>
      cases h
      exact ⟨data, rfl, rfl⟩
  | some s =>
      obtain ⟨rfl, _⟩ := write0termStr_ofBytes h
      exact ⟨_, rfl, length_name data s⟩

theorem write0termStrOr0_isSome {data : List Byte} (s : Option String) (h : data.length < 2 ^ 16) :
    ∃ data' offset, write0termStrOr0 (ofBytes data) s = some (ofBytes data', offset) ∧
      data'.length = data.length + optNameSize s := by
  cases s with
  | none => exact ⟨data, 0, rfl, rfl⟩
  | some s =>
      obtain ⟨offset, hs⟩ := write0termStr_isSome s h
      exact ⟨_, offset, hs, length_name data s⟩

theorem writeU16s_size {data : List Byte} {ns : List Nat} {b : ByteBuffer}
    (h : writeU16s (ofBytes data) ns = some b) :
    ∃ data', b = ofBytes data' ∧ data'.length = data.length + ns.length * 2 ∧
      ∀ n ∈ ns, n < 2 ^ 16 := by
  obtain ⟨words, rfl, rfl⟩ := writeU16s_ofBytes h
  refine ⟨_, rfl, ?_, fun n hn => ?_⟩
  · rw [List.length_append, length_flatMap_serialize, List.length_map]
    rfl
  · obtain ⟨x, _, rfl⟩ := List.mem_map.mp hn
    exact x.isLt

theorem writeU16s_isSome {ns : List Nat} (h : ∀ n ∈ ns, n < 2 ^ 16) (b : ByteBuffer) :
    ∃ b', writeU16s b ns = some b' := by
  induction ns generalizing b with
  | nil => exact ⟨b, rfl⟩
  | cons n ns ih =>
      obtain ⟨hn, hns⟩ := List.forall_mem_cons.mp h
      rw [writeU16s, tryIntoU16, if_pos hn]
      exact ih hns _

/-- The name a flow of the transmitter is listed under. -/
def txFlowName (selfInfo : ArcDevice) (flowIndex : Nat) : String :=
  s!"{flowIndex + 1}_{selfInfo.processId.toNat}"

/-- Where the header of a flow stands whose bytes begin at `size`. -/
def txFlowHeaderAt (selfInfo : ArcDevice) (flowIndex : Nat) (flowInfo : FlowInfo) (size : Nat) :
    Nat :=
  aligned4 (size + nameSize (txFlowName selfInfo flowIndex) +
    optNameSize flowInfo.rxHostname + optNameSize flowInfo.rxFlowName) +
    SERIALIZED_SIZE DestinationSocketDescriptor + SERIALIZED_SIZE NamesDescriptor

structure TxFlowFits (selfInfo : ArcDevice) (flowIndex : Nat) (flowInfo : FlowInfo) (size : Nat) :
    Prop where
  header : txFlowHeaderAt selfInfo flowIndex flowInfo size < 2 ^ 16
  flowId : flowIndex + 1 < 2 ^ 16
  count : flowInfo.localChannelIndices.length < 2 ^ 16
  channels : ∀ c, some c ∈ flowInfo.localChannelIndices → c + 1 < 2 ^ 16

/-- The size behind a flow. -/
def txFlowEnd (selfInfo : ArcDevice) (flowIndex : Nat) (flowInfo : FlowInfo) (size : Nat) : Nat :=
  txFlowHeaderAt selfInfo flowIndex flowInfo size + SERIALIZED_SIZE TxFlowDescriptorHeader +
    flowInfo.localChannelIndices.length * 2 + 2

theorem txFlowDescriptor_size {selfInfo : ArcDevice} {flowIndex : Nat} {flowInfo : FlowInfo}
    {data : List Byte} {b : ByteBuffer} {offset : BitVec 16}
    (h : txFlowDescriptor selfInfo flowIndex flowInfo (ofBytes data) = some (b, offset)) :
    TxFlowFits selfInfo flowIndex flowInfo data.length ∧
      ∃ data', b = ofBytes data' ∧
        data'.length = txFlowEnd selfInfo flowIndex flowInfo data.length := by
  obtain ⟨⟨b₁, localOffset⟩, h₁, h⟩ := Option.bind_eq_some_iff.mp h
  obtain ⟨⟨b₂, hostOffset⟩, h₂, h⟩ := Option.bind_eq_some_iff.mp h
  obtain ⟨⟨b₃, flowOffset⟩, h₃, h⟩ := Option.bind_eq_some_iff.mp h
  obtain ⟨socketOffset, h₄, h⟩ := Option.bind_eq_some_iff.mp h
  obtain ⟨namesOffset, h₅, h⟩ := Option.bind_eq_some_iff.mp h
  obtain ⟨flowId, hflowId, h⟩ := Option.bind_eq_some_iff.mp h
  obtain ⟨channelsCount, hcount, h⟩ := Option.bind_eq_some_iff.mp h
  obtain ⟨b₆, h₆, h⟩ := Option.bind_eq_some_iff.mp h
  obtain ⟨mainOffset, hmain, h⟩ := Option.bind_eq_some_iff.mp h
  cases h
  obtain ⟨rfl, _⟩ := write0termStr_ofBytes h₁
  obtain ⟨data₂, rfl, hlen₂⟩ := write0termStrOr0_size h₂
  obtain ⟨data₃, rfl, hlen₃⟩ := write0termStrOr0_size h₃
  obtain ⟨data₄, h4, hlen₄⟩ := alignWpos_size data₃
  simp only [h4, ofBytes_writeBytes] at h₆ hmain
  obtain ⟨data₇, rfl, hlen₇, hids⟩ := writeU16s_size h₆
  have hheader := tryIntoU16_eq_some hmain
  rw [length_name] at hlen₂
  rw [hlen₃, hlen₂] at hlen₄
  simp only [ofBytes_wpos, List.length_append, length_serialize, hlen₄] at hheader hlen₇
  refine ⟨⟨toNat_lt_of_eq hheader, toNat_lt_of_eq (tryIntoU16_eq_some hflowId),
    toNat_lt_of_eq (tryIntoU16_eq_some hcount), fun c hc => ?_⟩, _, ofBytes_writeU16 _ _, ?_⟩
  · exact hids (c + 1) (List.mem_map.mpr ⟨some c, hc, rfl⟩)
  · rw [List.length_append, length_be16, hlen₇, List.length_map]
    rfl

theorem txFlowDescriptor_isSome {selfInfo : ArcDevice} {flowIndex : Nat} {flowInfo : FlowInfo}
    {data : List Byte} (h : TxFlowFits selfInfo flowIndex flowInfo data.length) :
    (txFlowDescriptor selfInfo flowIndex flowInfo (ofBytes data)).isSome := by
  obtain ⟨hheader, hflowId, hcount, hchannels⟩ := h
  have halign := le_aligned4 (data.length + nameSize (txFlowName selfInfo flowIndex) +
    optNameSize flowInfo.rxHostname + optNameSize flowInfo.rxFlowName)
  unfold txFlowHeaderAt at hheader
  obtain ⟨localOffset, h₁⟩ := write0termStr_isSome (txFlowName selfInfo flowIndex)
    (show data.length < 2 ^ 16 by omega)
  have hlen₁ := length_name data (txFlowName selfInfo flowIndex)
  obtain ⟨data₂, hostOffset, h₂, hlen₂⟩ := write0termStrOr0_isSome flowInfo.rxHostname
    (show (data ++ (utf8 (txFlowName selfInfo flowIndex) ++ [0])).length < 2 ^ 16 by omega)
  obtain ⟨data₃, flowOffset, h₃, hlen₃⟩ := write0termStrOr0_isSome flowInfo.rxFlowName
    (show data₂.length < 2 ^ 16 by omega)
  obtain ⟨data₄, h4, hlen₄⟩ := alignWpos_size data₃
  rw [hlen₃, hlen₂, hlen₁] at hlen₄
  rw [← hlen₄] at hheader
  have hids : ∀ n ∈ flowInfo.localChannelIndices.map fun ch => (ch.map (· + 1)).getD 0,
      n < 2 ^ 16 := by
    intro n hn
    obtain ⟨ch, hch, rfl⟩ := List.mem_map.mp hn
    cases ch with
    | none => exact Nat.two_pow_pos 16
    | some c => exact hchannels c hch
  have h₅ := tryIntoU16_of_lt (show data₄.length + SERIALIZED_SIZE DestinationSocketDescriptor <
    2 ^ 16 by omega)
  simp only [txFlowName] at h₁ h₂
  simp only [txFlowDescriptor, h₁, h₂, h₃, h4, ofBytes_wpos, ofBytes_writeBytes, List.length_append,
    length_serialize, tryIntoU16_of_lt (show data₄.length < 2 ^ 16 by omega), h₅,
    tryIntoU16_of_lt hheader, tryIntoU16_of_lt hflowId, tryIntoU16_of_lt hcount,
    Option.bind_eq_bind, Option.bind_some]
  obtain ⟨b, hb⟩ := writeU16s_isSome hids _
  exact Option.isSome_iff_exists.mpr ⟨_, Option.bind_eq_some_iff.mpr ⟨b, hb, rfl⟩⟩

/-- A listing of flows: what it makes of a flow, if there is one. -/
theorem flow_sizes {F : Type} {transform : Transform Unit (Option F × Nat) (BitVec 16)}
    {descriptor : Nat → F → ByteBuffer → Option (ByteBuffer × BitVec 16)}
    {fits : Nat → F → Nat → Prop} {endAt : Nat → F → Nat → Nat}
    (hnone : ∀ s i b, transform s (none, i) b = some ((), b, none))
    (hsome : ∀ s i flow b, transform s (some flow, i) b =
      (descriptor i flow b).map fun (b, offset) => ((), b, some offset))
    (hsize : ∀ {i flow data b offset}, descriptor i flow (ofBytes data) = some (b, offset) →
      fits i flow data.length ∧ ∃ data', b = ofBytes data' ∧ data'.length = endAt i flow data.length)
    (hfits : ∀ {i flow data}, fits i flow data.length → (descriptor i flow (ofBytes data)).isSome)
    (hgrows : ∀ i flow size, size ≤ endAt i flow size) :
    PageSizes transform (fun _ => 0) (fun size x => x.1.map fun flow => endAt x.2 flow size)
      (fun size x => ∀ flow, x.1 = some flow → fits x.2 flow size) where
  isSome_iff := by
    rintro s ⟨flowOpt, i⟩ data _
    cases flowOpt with
    | none =>
        rw [hnone]
        exact iff_of_true rfl fun flow h => by cases h
    | some flow =>
        simp only [hsome, Option.isSome_map, Option.some.injEq, forall_eq', Nat.add_zero]
        refine ⟨fun h => ?_, hfits⟩
        obtain ⟨⟨b, offset⟩, hflow⟩ := Option.isSome_iff_exists.mp h
        exact (hsize hflow).1
  step := by
    rintro s ⟨flowOpt, i⟩ data s' b' out _ h
    cases flowOpt with
    | none =>
        rw [hnone] at h
        cases h
        exact ⟨data, rfl, Nat.le_refl _, rfl, rfl⟩
    | some flow =>
        rw [hsome] at h
        obtain ⟨⟨b, offset⟩, hflow, hend⟩ := Option.map_eq_some_iff.mp h
        cases hend
        obtain ⟨_, data', rfl, hlen⟩ := hsize hflow
        exact ⟨data', rfl, hlen ▸ hgrows i flow data.length, congrArg some hlen.symm, rfl⟩

theorem txFlow_sizes (selfInfo : ArcDevice) :
    PageSizes (txFlow selfInfo) (fun _ => 0)
      (fun size x => x.1.map fun flowInfo => txFlowEnd selfInfo x.2 flowInfo size)
      (fun size x => ∀ flowInfo, x.1 = some flowInfo → TxFlowFits selfInfo x.2 flowInfo size) := by
  refine flow_sizes (fun _ _ _ => rfl) (fun s i flowInfo b => ?_) txFlowDescriptor_size
    txFlowDescriptor_isSome fun i flowInfo size => ?_
  · rw [txFlow]
    cases txFlowDescriptor selfInfo i flowInfo b <;> rfl
  · have halign := le_aligned4 (size + nameSize (txFlowName selfInfo i) +
      optNameSize flowInfo.rxHostname + optNameSize flowInfo.rxFlowName)
    unfold txFlowEnd txFlowHeaderAt
    omega

/-! ### Of the receiver -/

theorem writeBitmask_size (data : List Byte) (mask : List Bool) (words : Nat) :
    ∃ data', writeBitmask (ofBytes data) mask words = ofBytes data' ∧
      data'.length = data.length + words * 2 := by
  refine ⟨_, writeBitmask_ofBytes data mask words, ?_⟩
  rw [List.length_append, length_flatMap_serialize, List.length_map, List.length_range]
  rfl

theorem writeBitmasks_size (words : Nat) (data : List Byte) (masks : List (List Bool)) :
    ∃ (data' : List Byte) (offsets : List Nat),
      writeBitmasks words (ofBytes data) masks = (ofBytes data', offsets) ∧
      data'.length = data.length + masks.length * (words * 2) ∧
      offsets.length = masks.length ∧ ∀ pos ∈ offsets, pos ≤ data'.length := by
  induction masks generalizing data with
  | nil => exact ⟨data, [], rfl, by rw [List.length_nil, Nat.zero_mul, Nat.add_zero], rfl, nofun⟩
  | cons mask masks ih =>
      obtain ⟨data₁, h₁, hlen₁⟩ := writeBitmask_size data mask words
      obtain ⟨data₂, offsets, h₂, hlen₂, hcount, hoffsets⟩ := ih data₁
      refine ⟨data₂, data.length :: offsets, ?_, ?_, congrArg (· + 1) hcount, ?_⟩
      · rw [writeBitmasks, h₁, h₂]
        rfl
      · rw [hlen₂, hlen₁, List.length_cons, Nat.succ_mul]
        omega
      · refine List.forall_mem_cons.mpr ⟨?_, hoffsets⟩
        omega

/-- Where the header of a flow stands whose bytes begin at `size`. -/
def rxFlowHeaderAt (flowInfo : ListedRxFlow) (size : Nat) : Nat :=
  aligned4 (aligned4 size + SERIALIZED_SIZE DestinationSocketDescriptor +
    SERIALIZED_SIZE RxDescriptor2 +
    flowInfo.channelsMap.length * (wordsPerBitmask flowInfo.channelsMap * 2))

structure RxFlowFits (selfInfo : ArcDevice) (flowIndex : Nat) (flowInfo : ListedRxFlow)
    (size : Nat) : Prop where
  header : rxFlowHeaderAt flowInfo size < 2 ^ 16
  flowId : flowIndex + 1 < 2 ^ 16
  count : flowInfo.channelsMap.length < 2 ^ 16
  words : wordsPerBitmask flowInfo.channelsMap < 2 ^ 16
  rate : selfInfo.sampleRate ≠ 0
  latency : flowInfo.latencySamples * 1000000000 / selfInfo.sampleRate.toNat < 2 ^ 32

/-- The size behind a flow. -/
def rxFlowEnd (flowInfo : ListedRxFlow) (size : Nat) : Nat :=
  rxFlowHeaderAt flowInfo size + SERIALIZED_SIZE RxFlowDescriptorHeader +
    flowInfo.channelsMap.length * 2 + 2

theorem rxLatencyNs_isSome_iff {selfInfo : ArcDevice} {flowInfo : ListedRxFlow} :
    (∃ x, rxLatencyNs selfInfo flowInfo = some x) ↔ selfInfo.sampleRate ≠ 0 ∧
      flowInfo.latencySamples * 1000000000 / selfInfo.sampleRate.toNat < 2 ^ 32 := by
  unfold rxLatencyNs tryIntoU32
  split
  next hzero => exact iff_of_false (fun ⟨x, h⟩ => (by cases h)) fun h => h.1 hzero
  next hrate =>
    split
    next hfits => exact iff_of_true ⟨_, rfl⟩ ⟨hrate, hfits⟩
    next hover => exact iff_of_false (fun ⟨x, h⟩ => (by cases h)) fun h => hover h.2

theorem rxFlowDescriptor_size {selfInfo : ArcDevice} {flowIndex : Nat} {flowInfo : ListedRxFlow}
    {data : List Byte} {b : ByteBuffer} {offset : BitVec 16}
    (h : rxFlowDescriptor selfInfo flowIndex flowInfo (ofBytes data) = some (b, offset)) :
    RxFlowFits selfInfo flowIndex flowInfo data.length ∧
      ∃ data', b = ofBytes data' ∧ data'.length = rxFlowEnd flowInfo data.length := by
  obtain ⟨socketOffset, h₁, h⟩ := Option.bind_eq_some_iff.mp h
  obtain ⟨descriptor2Offset, h₂, h⟩ := Option.bind_eq_some_iff.mp h
  obtain ⟨latencyNs, hlatency, h⟩ := Option.bind_eq_some_iff.mp h
  obtain ⟨data₁, h1, hlen₁⟩ := alignWpos_size data
  simp only [h1, ofBytes_writeBytes] at h
  obtain ⟨data₄, offsets, h4, hlen₄, hcount₄, _⟩ := writeBitmasks_size
    (wordsPerBitmask flowInfo.channelsMap) (data₁ ++ binarySerialize (α := DestinationSocketDescriptor)
      ⟨0x8002, flowInfo.rxPort, selfInfo.ipAddress⟩ ++
        binarySerialize (α := RxDescriptor2) ⟨9, 1, 0x800, 0, latencyNs, 0⟩) flowInfo.channelsMap
  obtain ⟨data₅, h5, hlen₅⟩ := alignWpos_size data₄
  simp only [h4, h5, ofBytes_wpos, ofBytes_writeBytes] at h
  obtain ⟨flowId, hflowId, h⟩ := Option.bind_eq_some_iff.mp h
  obtain ⟨channelsCount, hcount, h⟩ := Option.bind_eq_some_iff.mp h
  obtain ⟨words, hwords, h⟩ := Option.bind_eq_some_iff.mp h
  obtain ⟨b₇, h₇, h⟩ := Option.bind_eq_some_iff.mp h
  obtain ⟨mainOffset, hmain, h⟩ := Option.bind_eq_some_iff.mp h
  cases h
  obtain ⟨data₇, rfl, hlen₇, _⟩ := writeU16s_size h₇
  have hheader := tryIntoU16_eq_some hmain
  obtain ⟨hrate, hfits⟩ := rxLatencyNs_isSome_iff.mp ⟨_, hlatency⟩
  simp only [List.length_append, length_serialize] at hlen₄
  rw [hlen₄, hlen₁] at hlen₅
  simp only [List.length_append, length_serialize, hlen₅] at hheader hlen₇
  refine ⟨⟨toNat_lt_of_eq hheader, toNat_lt_of_eq (tryIntoU16_eq_some hflowId),
    toNat_lt_of_eq (tryIntoU16_eq_some hcount), toNat_lt_of_eq (tryIntoU16_eq_some hwords),
    hrate, hfits⟩, _, ofBytes_writeU16 _ _, ?_⟩
  rw [List.length_append, length_be16, hlen₇, hcount₄]
  rfl

theorem rxFlowDescriptor_isSome {selfInfo : ArcDevice} {flowIndex : Nat} {flowInfo : ListedRxFlow}
    {data : List Byte} (h : RxFlowFits selfInfo flowIndex flowInfo data.length) :
    (rxFlowDescriptor selfInfo flowIndex flowInfo (ofBytes data)).isSome := by
  obtain ⟨hheader, hflowId, hcount, hwords, hrate, hfits⟩ := h
  obtain ⟨latencyNs, hlatency⟩ := rxLatencyNs_isSome_iff.mpr ⟨hrate, hfits⟩
  obtain ⟨data₁, h1, hlen₁⟩ := alignWpos_size data
  obtain ⟨data₄, offsets, h4, hlen₄, _, hoffsets⟩ := writeBitmasks_size
    (wordsPerBitmask flowInfo.channelsMap) (data₁ ++ binarySerialize (α := DestinationSocketDescriptor)
      ⟨0x8002, flowInfo.rxPort, selfInfo.ipAddress⟩ ++
        binarySerialize (α := RxDescriptor2) ⟨9, 1, 0x800, 0, latencyNs, 0⟩) flowInfo.channelsMap
  obtain ⟨data₅, h5, hlen₅⟩ := alignWpos_size data₄
  have halign := le_aligned4 data₄.length
  simp only [List.length_append, length_serialize] at hlen₄
  have hheaderAt : rxFlowHeaderAt flowInfo data.length = data₅.length := by
    rw [hlen₅, hlen₄, hlen₁]
    rfl
  rw [hheaderAt] at hheader
  have hsocket := tryIntoU16_of_lt (show data₁.length < 2 ^ 16 by omega)
  have hdescr2 := tryIntoU16_of_lt (show data₁.length + SERIALIZED_SIZE DestinationSocketDescriptor <
    2 ^ 16 by omega)
  have hpositions : ∀ n ∈ offsets, n < 2 ^ 16 := by
    intro n hn
    have hpos := hoffsets n hn
    omega
  simp only [rxFlowDescriptor, h1, ofBytes_wpos, ofBytes_writeBytes, hsocket, List.length_append,
    length_serialize, hdescr2, hlatency, Option.bind_eq_bind, Option.bind_some, h4, h5,
    tryIntoU16_of_lt hflowId, tryIntoU16_of_lt hcount, tryIntoU16_of_lt hwords,
    tryIntoU16_of_lt hheader]
  obtain ⟨b, hb⟩ := writeU16s_isSome hpositions _
  exact Option.isSome_iff_exists.mpr ⟨_, Option.bind_eq_some_iff.mpr ⟨b, hb, rfl⟩⟩

theorem rxFlow_sizes (selfInfo : ArcDevice) :
    PageSizes (rxFlow selfInfo) (fun _ => 0)
      (fun size x => x.1.map fun flowInfo => rxFlowEnd flowInfo size)
      (fun size x => ∀ flowInfo, x.1 = some flowInfo → RxFlowFits selfInfo x.2 flowInfo size) := by
  refine @flow_sizes _ _ _ _ (fun _ => rxFlowEnd) (fun _ _ _ => rfl) (fun s i flowInfo b => ?_)
    rxFlowDescriptor_size rxFlowDescriptor_isSome fun i flowInfo size => ?_
  · rw [rxFlow]
    cases rxFlowDescriptor selfInfo i flowInfo b <;> rfl
  · have halign := le_aligned4 size
    have halign' := le_aligned4 (aligned4 size + SERIALIZED_SIZE DestinationSocketDescriptor +
      SERIALIZED_SIZE RxDescriptor2 +
        flowInfo.channelsMap.length * (wordsPerBitmask flowInfo.channelsMap * 2))
    unfold rxFlowEnd rxFlowHeaderAt
    omega

/-! ## The five listings -/

/-- What a page of `get_receive_channels` gets to has its id, and its names
begin, in 16 bits. -/
def ReceiveChannelsFit (selfInfo : ArcDevice) (subs : List (Option SubscriptionInfo))
    (content : List Byte) : Prop :=
  ListingOk (channelsSpace selfInfo.rxChannels)
    (2 + HEADER_LENGTH + (channelsSpace selfInfo.rxChannels).toNat *
      SERIALIZED_SIZE ReceiveChannelDescriptor + SERIALIZED_SIZE CommonChannelsDescriptor)
    (fun size x => some (size + receiveSize (some subs) x))
    (fun size x => x.2 + 1 < 2 ^ 16 ∧ x.2 < subs.length ∧
      size + subscriptionSize (subs[x.2]?).join < 2 ^ 16)
    selfInfo.rxChannels.zipIdx content

def TransmitChannelsFit (selfInfo : ArcDevice) (content : List Byte) : Prop :=
  ListingOk (channelsSpace selfInfo.txChannels)
    (2 + HEADER_LENGTH + (channelsSpace selfInfo.txChannels).toNat *
      SERIALIZED_SIZE TransmitChannelDescriptor + SERIALIZED_SIZE CommonChannelsDescriptor)
    (fun size x => some (size + nameSize x.1.factoryName))
    (fun size x => x.2 + 1 < 2 ^ 16 ∧ size < 2 ^ 16) selfInfo.txChannels.zipIdx content

def FriendlyNamesFit (selfInfo : ArcDevice) (content : List Byte) : Prop :=
  ListingOk (channelsSpace selfInfo.txChannels)
    (2 + HEADER_LENGTH + (channelsSpace selfInfo.txChannels).toNat *
      SERIALIZED_SIZE FriendlyNameDescriptor + 4)
    (fun size x => some (size + nameSize x.1.friendlyName))
    (fun size x => x.2 + 1 < 2 ^ 16 ∧ size < 2 ^ 16) selfInfo.txChannels.zipIdx content

/-- The flows have sixteen places on a page. -/
def TxFlowsFit (selfInfo : ArcDevice) (flows : List (Option FlowInfo)) (content : List Byte) :
    Prop :=
  ListingOk 16 (2 + HEADER_LENGTH + 16 * SERIALIZED_SIZE (BitVec 16))
    (fun size x => x.1.map fun flowInfo => txFlowEnd selfInfo x.2 flowInfo size)
    (fun size x => ∀ flowInfo, x.1 = some flowInfo → TxFlowFits selfInfo x.2 flowInfo size)
    flows.zipIdx content

def RxFlowsFit (selfInfo : ArcDevice) (flows : List (Option ListedRxFlow)) (content : List Byte) :
    Prop :=
  ListingOk 16 (2 + HEADER_LENGTH + 16 * SERIALIZED_SIZE (BitVec 16))
    (fun size x => x.1.map fun flowInfo => rxFlowEnd flowInfo size)
    (fun size x => ∀ flowInfo, x.1 = some flowInfo → RxFlowFits selfInfo x.2 flowInfo size)
    flows.zipIdx content

theorem getReceiveChannels_isSome_iff (selfInfo : ArcDevice)
    (subs : Option (List (Option SubscriptionInfo))) (content : List Byte) :
    (getReceiveChannels selfInfo subs content).isSome ↔
      ∀ l, subs = some l → ReceiveChannelsFit selfInfo l content := by
  cases subs with
  | none =>
      refine iff_of_true ?_ fun l h => by cases h
      unfold getReceiveChannels paginateMakeResponse
      cases extractStartIndex content <;> rfl
  | some l =>
      simp only [Option.some.injEq, forall_eq']
      exact paginateMakeResponse_isSome_iff (receiveChannel_sizes selfInfo l) content _ _ 0

theorem getTransmitChannels_isSome_iff (selfInfo : ArcDevice) (content : List Byte) :
    (getTransmitChannels selfInfo content).isSome ↔ TransmitChannelsFit selfInfo content :=
  paginateMakeResponse_isSome_iff (transmitChannel_sizes selfInfo) content _ _ 0

theorem getTransmitChannelsFriendlyNames_isSome_iff (selfInfo : ArcDevice) (content : List Byte) :
    (getTransmitChannelsFriendlyNames selfInfo content).isSome ↔
      FriendlyNamesFit selfInfo content :=
  paginateMakeResponse_isSome_iff friendlyName_sizes content _ _ false

theorem queryTxFlows_isSome_iff (selfInfo : ArcDevice) (flows : Option (List (Option FlowInfo)))
    (content : List Byte) :
    (queryTxFlows selfInfo flows content).isSome ↔ TxFlowsFit selfInfo (flows.getD []) content :=
  paginateMakeResponse_isSome_iff (txFlow_sizes selfInfo) content 16 _ ()

theorem queryRxFlows_isSome_iff (selfInfo : ArcDevice)
    (subscriber : Option (List (Option ListedRxFlow))) (content : List Byte) :
    (queryRxFlows selfInfo subscriber content).isSome ↔
      ∀ flows, subscriber = some flows → RxFlowsFit selfInfo flows content := by
  cases subscriber with
  | none => exact iff_of_true rfl fun flows h => by cases h
  | some flows =>
      simp only [Option.some.injEq, forall_eq']
      exact paginateMakeResponse_isSome_iff (rxFlow_sizes selfInfo) content 16 _ ()

end Inferno
