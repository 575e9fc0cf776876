import Inferno.Lib.Paging
import Inferno.ListingsDecode

/-!
# Going through a listing

A client that asks for the pages of a channel listing one after the other, each
from where the last one ended. What a page holds depends on the sizes of the
names only (`Costs`), so that the server's pages are those of `Paging`, and the
client gets every channel exactly when the sizes can be cut into pages
(`all_channels_iff`).
-/

namespace Inferno

open ByteBuffer BinarySerde

/-! ## Client and server -/

/-- The answer to a request for a page: none if the server panics, or if
`make_packet` has no room. -/
def answerListing (listing : List Byte → Option (BitVec 16 × List Byte)) (request : List Byte) :
    Option (List Byte) := do
  let (code, response) ← listing (request.drop HEADER_LENGTH)
  (makePacket MTU (u16At request 0) (u16At request 4) (u16At request 6) code response).toOption

/-- A page as the client has it. -/
structure ClientPage (Out : Type) where
  packet : List Byte
  items : List Out

namespace ClientPage

variable {Out : Type} (page : ClientPage Out)

def code : BitVec 16 := u16At page.packet 8

/-- The count byte. -/
def count : Nat := ((page.packet.drop HEADER_LENGTH).getD 1 0).toNat

end ClientPage

section

variable (Out : Type) [BinarySerde Out] (header : Fin HEADER_LENGTH → Byte)
  (listing : List Byte → Option (BitVec 16 × List Byte))

/-- Asks for the page that begins at `start`, which has to be a `u16`. -/
def askPage (start : Nat) : Option (ClientPage Out) := do
  let start ← tryIntoU16 start
  let packet ← answerListing listing (List.ofFn header ++ ([0, 0] ++ be16 start))
  let items ← deserializeItems Out (packet.drop HEADER_LENGTH)
  return ⟨packet, items⟩

/-- Asks for page after page while the code says that there is more. -/
def collectPages : Nat → Nat → Option (List (ClientPage Out))
  | 0, _ => none
  | fuel + 1, start => do
      let page ← askPage Out header listing start
      if page.code = 0x8112 then
        let rest ← collectPages fuel (start + page.count)
        return page :: rest
      else return [page]

/-- The client comes to an end and has every channel once, in order; each page
that is not the last counts something, and each fits the send buffer. -/
def ListsAll {Out : Type} [BinarySerde Out] (channelId : Out → BitVec 16)
    (header : Fin HEADER_LENGTH → Byte) (listing : List Byte → Option (BitVec 16 × List Byte))
    (channels : Nat) : Prop :=
  ∃ fuel pages, collectPages Out header listing fuel 1 = some pages ∧
    (pages.flatMap (·.items)).map (fun item => (channelId item).toNat) = List.range' 1 channels ∧
    ∀ page ∈ pages, (page.code = 0x8112 → 0 < page.count) ∧ page.packet.length ≤ MTU

end

/-! ## Sizes -/

/-- A name with its terminator. -/
def nameSize (s : String) : Nat := (utf8 s).length + 1

/-- The names of a subscription. -/
def subscriptionSize : Option SubscriptionInfo → Nat
  | none => 0
  | some ss => nameSize ss.txChannelName + nameSize ss.txHostname

def receiveSize (subscriptionsInfo : Option (List (Option SubscriptionInfo)))
    (x : ArcChannel × Nat) : Nat :=
  subscriptionSize ((subscriptionsInfo.getD [])[x.2]?).join + nameSize x.1.friendlyName

/-- The pages of a list of channels: items of so many bytes, and so many bytes
that each page has once. -/
def channelPages (channels : List ArcChannel) (itemSize lead : Nat) : Paging where
  space := min channels.length 32
  base := 2 + HEADER_LENGTH + min channels.length 32 * itemSize + lead
  limit := PACKET_SIZE_SOFT_LIMIT
  room := MTU

/-- What a call of the closure adds: `lead` before the first item of a page, and
`cost` for each; and when it does not panic. -/
structure Costs {σ In Out : Type} (transform : Transform σ In Out) (lead : σ → Nat)
    (cost : In → Nat) (ok : In → Prop) : Prop where
  step : ∀ {s x data s' b' out}, 0 < data.length →
    transform s x (ofBytes data) = some (s', b', out) →
    ∃ data' item, b' = ofBytes data' ∧ out = some item ∧
      data'.length = data.length + lead s + cost x ∧ lead s' = 0
  total : ∀ {s x data}, ok x → data.length + lead s + cost x ≤ 2 ^ 16 →
    (transform s x (ofBytes data)).isSome

theorem write0termStr_isSome {data : List Byte} (s : String) (h : data.length < 2 ^ 16) :
    ∃ offset, write0termStr (ofBytes data) s =
      some (ofBytes (data ++ (utf8 s ++ [0])), offset) := by
  refine ⟨BitVec.ofNat 16 data.length, ?_⟩
  rw [write0termStr, ofBytes_wpos, if_pos h, ofBytes_writeBytes, ofBytes_writeU8,
    List.append_assoc]

theorem length_name (data : List Byte) (s : String) :
    (data ++ (utf8 s ++ [0])).length = data.length + nameSize s := by
  rw [List.length_append, List.length_append]
  rfl

/-- The common descriptor is the lead of two listings. -/
def commonLead (offset : BitVec 16) : Nat :=
  if offset = 0 then SERIALIZED_SIZE CommonChannelsDescriptor else 0

theorem writeCommonDescriptor_size {selfInfo : ArcDevice} {data : List Byte}
    {offset offset' : BitVec 16} {b : ByteBuffer} (hpos : 0 < data.length)
    (h : writeCommonDescriptor selfInfo offset (ofBytes data) = some (offset', b)) :
    ∃ data', b = ofBytes data' ∧ data'.length = data.length + commonLead offset ∧
      commonLead offset' = 0 := by
  unfold writeCommonDescriptor at h
  unfold commonLead
  split at h
  next hunset =>
    obtain ⟨offset'', hoffset, h⟩ := Option.bind_eq_some_iff.mp h
    cases h
    have hnat := tryIntoU16_eq_some hoffset
    refine ⟨_, ofBytes_writeBytes _ _, ?_, ?_⟩
    · rw [List.length_append, length_serialize, if_pos hunset]
    · rw [if_neg]
      rintro rfl
      exact absurd hnat (Nat.ne_of_lt hpos)
  next hset =>
    cases h
    exact ⟨data, rfl, by rw [if_neg hset, Nat.add_zero], if_neg hset⟩

theorem writeCommonDescriptor_isSome (selfInfo : ArcDevice) {data : List Byte}
    (offset : BitVec 16) (h : data.length < 2 ^ 16) :
    ∃ offset' data', writeCommonDescriptor selfInfo offset (ofBytes data) =
      some (offset', ofBytes data') ∧ data'.length = data.length + commonLead offset := by
  unfold writeCommonDescriptor commonLead
  split
  next hunset =>
    refine ⟨BitVec.ofNat 16 data.length,
      data ++ binarySerialize (CommonChannelsDescriptor.new selfInfo), ?_, ?_⟩
    · rw [tryIntoU16, ofBytes_wpos, if_pos h, ofBytes_writeBytes]
      rfl
    · rw [List.length_append, length_serialize]
  next hset => exact ⟨offset, data, rfl, rfl⟩

theorem transmitChannel_isSome (selfInfo : ArcDevice) {offset : BitVec 16} {x : ArcChannel × Nat}
    {data : List Byte} (hid : x.2 + 1 < 2 ^ 16) (hlen : data.length + commonLead offset < 2 ^ 16) :
    (transmitChannel selfInfo offset x (ofBytes data)).isSome := by
  obtain ⟨ch, i⟩ := x
  obtain ⟨offset₁, data₁, h₁, hlen₁⟩ := writeCommonDescriptor_isSome selfInfo offset
    (Nat.lt_of_le_of_lt (Nat.le_add_right _ _) hlen)
  obtain ⟨nameOffset, h₂⟩ := write0termStr_isSome ch.factoryName
    (show data₁.length < 2 ^ 16 by rwa [hlen₁])
  simp only [transmitChannel, h₁, h₂, tryIntoU16, if_pos hid, Option.bind_eq_bind,
    Option.bind_some, Option.pure_def, Option.isSome_some]

theorem transmitChannel_costs (selfInfo : ArcDevice) :
    Costs (transmitChannel selfInfo) commonLead (fun x => nameSize x.1.factoryName)
      (fun x => x.2 + 1 < 2 ^ 16) where
  step := by
    rintro offset ⟨ch, i⟩ data offset' b' out hpos h
    obtain ⟨⟨offset₁, b₁⟩, h₁, h⟩ := Option.bind_eq_some_iff.mp h
    obtain ⟨channelId, hid, h⟩ := Option.bind_eq_some_iff.mp h
    obtain ⟨⟨b₂, nameOffset⟩, h₂, h⟩ := Option.bind_eq_some_iff.mp h
    cases h
    obtain ⟨data₁, rfl, hlen₁, hlead⟩ := writeCommonDescriptor_size hpos h₁
    obtain ⟨rfl, _⟩ := write0termStr_ofBytes h₂
    exact ⟨_, _, rfl, rfl, by rw [length_name, hlen₁], hlead⟩
  total := by
    intro offset x data hid hlen
    have hname : 0 < nameSize x.1.factoryName := Nat.succ_pos _
    exact transmitChannel_isSome selfInfo hid (by omega)

theorem friendlyName_isSome {wrote : Bool} {x : ArcChannel × Nat} {data : List Byte}
    (hid : x.2 + 1 < 2 ^ 16) (hlen : data.length + (if wrote then 0 else 4) < 2 ^ 16) :
    (friendlyName wrote x (ofBytes data)).isSome := by
  obtain ⟨ch, i⟩ := x
  cases wrote with
  | true =>
      obtain ⟨offset, h₂⟩ := write0termStr_isSome ch.friendlyName
        (show data.length < 2 ^ 16 from hlen)
      simp only [friendlyName, if_true, h₂, tryIntoU16, if_pos hid, Option.bind_eq_bind,
        Option.bind_some, Option.pure_def, Option.isSome_some]
  | false =>
      obtain ⟨offset, h₂⟩ := write0termStr_isSome ch.friendlyName
        (show (data ++ be32 0).length < 2 ^ 16 by
          rw [List.length_append, length_be32]
          exact hlen)
      simp only [friendlyName, Bool.false_eq_true, if_false, ofBytes_writeU32, h₂, tryIntoU16,
        if_pos hid, Option.bind_eq_bind, Option.bind_some, Option.pure_def, Option.isSome_some]

theorem friendlyName_costs :
    Costs friendlyName (fun wrote => if wrote then 0 else 4) (fun x => nameSize x.1.friendlyName)
      (fun x => x.2 + 1 < 2 ^ 16) where
  step := by
    rintro wrote ⟨ch, i⟩ data wrote' b' out _ h
    obtain ⟨channelId, hid, h⟩ := Option.bind_eq_some_iff.mp h
    obtain ⟨⟨b₂, offset⟩, h₂, h⟩ := Option.bind_eq_some_iff.mp h
    cases h
    cases wrote with
    | true =>
        obtain ⟨rfl, _⟩ := write0termStr_ofBytes h₂
        exact ⟨_, _, rfl, rfl, length_name _ _, rfl⟩
    | false =>
        rw [if_neg Bool.false_ne_true, ofBytes_writeU32] at h₂
        obtain ⟨rfl, _⟩ := write0termStr_ofBytes h₂
        refine ⟨_, _, rfl, rfl, ?_, rfl⟩
        rw [length_name, List.length_append]
        rfl
  total := by
    intro wrote x data hid hlen
    have hname : 0 < nameSize x.1.friendlyName := Nat.succ_pos _
    exact friendlyName_isSome hid (by omega)

theorem writeSubscription_size {data : List Byte} {status : Option SubscriptionInfo}
    {b : ByteBuffer} {nameOffset hostOffset : BitVec 16}
    (h : writeSubscription (ofBytes data) status = some (b, nameOffset, hostOffset)) :
    ∃ data', b = ofBytes data' ∧ data'.length = data.length + subscriptionSize status := by
  cases status with
  | none =>
      cases h
      exact ⟨data, rfl, rfl⟩
  | some ss =>
      obtain ⟨⟨b₁, off₁⟩, h₁, h⟩ := Option.bind_eq_some_iff.mp h
      obtain ⟨⟨b₂, off₂⟩, h₂, h⟩ := Option.bind_eq_some_iff.mp h
      cases h
      obtain ⟨rfl, _⟩ := write0termStr_ofBytes h₁
      obtain ⟨rfl, _⟩ := write0termStr_ofBytes h₂
      refine ⟨_, rfl, ?_⟩
      rw [length_name, length_name, Nat.add_assoc]
      rfl

theorem writeSubscription_isSome {data : List Byte} (status : Option SubscriptionInfo)
    (h : data.length + subscriptionSize status < 2 ^ 16) :
    ∃ data' nameOffset hostOffset,
      writeSubscription (ofBytes data) status = some (ofBytes data', nameOffset, hostOffset) ∧
      data'.length = data.length + subscriptionSize status := by
  cases status with
  | none => exact ⟨data, 0, 0, rfl, rfl⟩
  | some ss =>
      unfold subscriptionSize at h ⊢
      dsimp only at h ⊢
      obtain ⟨nameOffset, h₁⟩ := write0termStr_isSome ss.txChannelName
        (show data.length < 2 ^ 16 by omega)
      obtain ⟨hostOffset, h₂⟩ := write0termStr_isSome ss.txHostname
        (show (data ++ (utf8 ss.txChannelName ++ [0])).length < 2 ^ 16 by
          rw [length_name]
          have hpos : 0 < nameSize ss.txHostname := Nat.succ_pos _
          omega)
      refine ⟨data ++ (utf8 ss.txChannelName ++ [0]) ++ (utf8 ss.txHostname ++ [0]), nameOffset,
        hostOffset, ?_, ?_⟩
      · simp only [writeSubscription, h₁, h₂, Option.bind_eq_bind, Option.bind_some,
          Option.pure_def]
      · rw [length_name, length_name, Nat.add_assoc]

theorem receiveChannel_isSome (selfInfo : ArcDevice)
    {subscriptionsInfo : List (Option SubscriptionInfo)} {offset : BitVec 16}
    {x : ArcChannel × Nat} {data : List Byte} (hid : x.2 + 1 < 2 ^ 16)
    (hi : x.2 < subscriptionsInfo.length) (hlen : data.length + commonLead offset +
      subscriptionSize (subscriptionsInfo[x.2]?).join < 2 ^ 16) :
    (receiveChannel selfInfo subscriptionsInfo offset x (ofBytes data)).isSome := by
  obtain ⟨ch, i⟩ := x
  have hstatus : subscriptionsInfo[i]? = some subscriptionsInfo[i] := List.getElem?_eq_getElem hi
  dsimp only at hid hlen
  rw [hstatus, Option.join_some] at hlen
  obtain ⟨offset₁, data₁, h₁, hlen₁⟩ := writeCommonDescriptor_isSome selfInfo offset
    (show data.length < 2 ^ 16 by omega)
  obtain ⟨data₂, nameOffset, hostOffset, h₂, hlen₂⟩ := writeSubscription_isSome
    subscriptionsInfo[i] (show data₁.length + _ < 2 ^ 16 by rwa [hlen₁])
  obtain ⟨friendlyOffset, h₃⟩ := write0termStr_isSome ch.friendlyName
    (show data₂.length < 2 ^ 16 by omega)
  simp only [receiveChannel, h₁, hstatus, h₂, h₃, tryIntoU16, if_pos hid, Option.bind_eq_bind,
    Option.bind_some, Option.pure_def, Option.isSome_some]

theorem receiveChannel_costs (selfInfo : ArcDevice)
    (subscriptionsInfo : List (Option SubscriptionInfo)) :
    Costs (receiveChannel selfInfo subscriptionsInfo) commonLead
      (receiveSize (some subscriptionsInfo))
      (fun x => x.2 + 1 < 2 ^ 16 ∧ x.2 < subscriptionsInfo.length) where
  step := by
    rintro offset ⟨ch, i⟩ data offset' b' out hpos h
    obtain ⟨⟨offset₁, b₁⟩, h₁, h⟩ := Option.bind_eq_some_iff.mp h
    obtain ⟨status, hstatus, h⟩ := Option.bind_eq_some_iff.mp h
    obtain ⟨⟨b₂, nameOffset, hostOffset⟩, h₂, h⟩ := Option.bind_eq_some_iff.mp h
    obtain ⟨channelId, hid, h⟩ := Option.bind_eq_some_iff.mp h
    obtain ⟨⟨b₃, friendlyOffset⟩, h₃, h⟩ := Option.bind_eq_some_iff.mp h
    cases h
    obtain ⟨data₁, rfl, hlen₁, hlead⟩ := writeCommonDescriptor_size hpos h₁
    obtain ⟨data₂, rfl, hlen₂⟩ := writeSubscription_size h₂
    obtain ⟨rfl, _⟩ := write0termStr_ofBytes h₃
    refine ⟨_, _, rfl, rfl, ?_, hlead⟩
    rw [length_name, hlen₂, hlen₁, receiveSize, Option.getD_some, hstatus, Option.join_some,
      ← Nat.add_assoc]
  total := by
    rintro offset x data ⟨hid, hi⟩ hlen
    have hname : 0 < nameSize x.1.friendlyName := Nat.succ_pos _
    have hsize : receiveSize (some subscriptionsInfo) x =
        subscriptionSize (subscriptionsInfo[x.2]?).join + nameSize x.1.friendlyName := rfl
    exact receiveChannel_isSome selfInfo hid hi (by omega)

/-! ## A page of the server -/

theorem makePacket_isSome {content : List Byte} (h : content.length + HEADER_LENGTH ≤ MTU)
    (startCode seqnum opcode1 opcode2 : BitVec 16) :
    ∃ packet, (makePacket MTU startCode seqnum opcode1 opcode2 content).toOption = some packet := by
  have hmtu : MTU < 2 ^ 16 := by decide
  unfold makePacket
  dsimp only
  rw [if_neg (by omega), if_neg (by omega)]
  exact ⟨_, rfl⟩

section

variable {σ In Out : Type} [BinarySerde Out] {transform : Transform σ In Out} {lead : σ → Nat}
  {cost : In → Nat} {ok : In → Prop} {p : Paging} {spaceItems : Byte}

/-- The loop fills a page as `Paging.fill` does with the sizes; it does not panic
as long as the page's size is a `u16`. -/
theorem serializeLoop_fill (hcosts : Costs transform lead cost ok)
    (hspace : p.space = spaceItems.toNat) (hlimit : p.limit = PACKET_SIZE_SOFT_LIMIT)
    (hroom : p.limit ≤ p.room) {source : List In} {s : σ} {data : List Byte} {counted : List Out}
    (hdata : 2 + HEADER_LENGTH + spaceItems.toNat * SERIALIZED_SIZE Out ≤ data.length)
    (hbase : data.length + lead s ≤ p.room) {more : Bool} {size count : Nat}
    (hfill : p.fill (source.map cost) (data.length + lead s) counted.length =
      (more, size, count)) :
    (∀ page, serializeLoop spaceItems.toNat transform source s (ofBytes data)
        (2 + HEADER_LENGTH + counted.length * SERIALIZED_SIZE Out) counted = some page →
      page.haveMore = more ∧ page.counted.length = count ∧
        (page.bytes.data.length ≤ p.room ↔ size ≤ p.room) ∧
        data.length ≤ page.bytes.data.length) ∧
    ((∀ x ∈ source, ok x) → size ≤ 2 ^ 16 →
      (serializeLoop spaceItems.toNat transform source s (ofBytes data)
        (2 + HEADER_LENGTH + counted.length * SERIALIZED_SIZE Out) counted).isSome) := by
  induction source generalizing s data counted with
  | nil =>
      cases hfill
      refine ⟨?_, fun _ _ => rfl⟩
      rintro page ⟨⟩
      exact ⟨rfl, rfl, iff_of_true (Nat.le_of_add_right_le hbase) hbase, Nat.le_refl _⟩
  | cons x source ih =>
      rw [List.map_cons, Paging.fill, hspace] at hfill
      rw [serializeLoop]
      by_cases hfull : counted.length ≥ spaceItems.toNat
      · rw [if_pos hfull] at hfill ⊢
        cases hfill
        refine ⟨?_, fun _ _ => rfl⟩
        rintro page ⟨⟩
        exact ⟨rfl, rfl, iff_of_true (Nat.le_of_add_right_le hbase) hbase, Nat.le_refl _⟩
      · rw [if_neg hfull] at hfill ⊢
        have hpage : data.length + lead s + cost x ≤ size := by
          split at hfill
          · cases hfill
            exact Nat.le_refl _
          · exact Paging.le_fill hfill
        cases hcall : transform s x (ofBytes data) with
        | none =>
            refine ⟨fun page hpage => (by cases hpage), fun hok hsize => ?_⟩
            have htotal := hcosts.total (hok x List.mem_cons_self) (hpage.trans hsize)
            rw [hcall] at htotal
            cases htotal
        | some result =>
            obtain ⟨s', b', out⟩ := result
            obtain ⟨data', item, rfl, rfl, hlen, hlead⟩ := hcosts.step (by omega) hcall
            have hitem : 2 + HEADER_LENGTH + counted.length * SERIALIZED_SIZE Out +
                (binarySerialize item).length ≤ data'.length :=
              (Filling.room (Nat.not_le.mp hfull) item).trans (by omega)
            obtain ⟨data'', hput, hlen'⟩ := ofBytes_writeInside hitem
            dsimp only
            rw [ofBytes_wpos, hput]
            by_cases hcross : data'.length ≥ PACKET_SIZE_SOFT_LIMIT
            · rw [if_pos hcross]
              rw [← hlen, hlimit, if_pos hcross] at hfill
              cases hfill
              refine ⟨?_, fun _ _ => rfl⟩
              rintro page ⟨⟩
              rw [ofBytes_data, hlen']
              exact ⟨rfl, rfl, Iff.rfl, by omega⟩
            · rw [if_neg hcross]
              rw [← hlen, hlimit, if_neg hcross] at hfill
              have hstep := @ih s' data'' (counted ++ [item]) (by omega)
                (by rw [hlead, hlen']; omega)
                (by rw [hlead, hlen', List.length_append]; exact hfill)
              rw [List.length_append, List.length_singleton, Nat.succ_mul, ← Nat.add_assoc] at hstep
              rw [hlen'] at hstep
              refine ⟨fun page hrun => ?_, fun hok => hstep.2 fun y hy => hok y (List.mem_cons_of_mem _ hy)⟩
              obtain ⟨hmore, hcount, hsize, hgrown⟩ := hstep.1 page hrun
              exact ⟨hmore, hcount, hsize, by omega⟩

theorem length_reservedSpace (Out : Type) [BinarySerde Out] (spaceItems : Byte) :
    (List.replicate HEADER_LENGTH 0 ++ [spaceItems, 0] ++
      List.replicate (spaceItems.toNat * SERIALIZED_SIZE Out) (0 : Byte)).length =
        2 + HEADER_LENGTH + spaceItems.toNat * SERIALIZED_SIZE Out := by
  rw [List.length_append, length_listingHead, List.length_replicate]

theorem serializeItems_fill (hcosts : Costs transform lead cost ok)
    (hspace : p.space = spaceItems.toNat) (hlimit : p.limit = PACKET_SIZE_SOFT_LIMIT)
    (hroom : p.limit ≤ p.room) {source : List In} {s : σ}
    (hsource : spaceItems = 0 → source = [])
    (hbase : p.base = 2 + HEADER_LENGTH + spaceItems.toNat * SERIALIZED_SIZE Out + lead s)
    (hfits : p.base ≤ p.room) {more : Bool} {size count : Nat}
    (hfill : p.fill (source.map cost) p.base 0 = (more, size, count)) :
    (∀ page : ItemsPage Out, serializeItems spaceItems source transform s = some page →
      page.haveMore = more ∧ page.counted.length = count ∧
        (page.bytes.data.length ≤ p.room ↔ size ≤ p.room)) ∧
    ((∀ x ∈ source, ok x) → size ≤ 2 ^ 16 →
      (serializeItems spaceItems source transform s).isSome) := by
  unfold serializeItems
  by_cases hzero : spaceItems = 0
  · rw [if_pos hzero]
    rw [hsource hzero] at hfill
    cases hfill
    refine ⟨?_, fun _ _ => rfl⟩
    rintro page ⟨⟩
    refine ⟨rfl, rfl, iff_of_true ?_ hfits⟩
    rw [listingHead_eq, ofBytes_data, length_listingHead]
    omega
  · have hlen := length_reservedSpace Out spaceItems
    obtain ⟨hpage, htotal⟩ := @serializeLoop_fill σ In Out _ transform lead cost ok p spaceItems
      hcosts hspace hlimit hroom source s _ [] (Nat.le_of_eq hlen.symm) (by rw [hlen]; omega)
      more size count (by rw [hlen, ← hbase]; exact hfill)
    rw [← reservedSpace_eq, List.length_nil, Nat.zero_mul, Nat.add_zero] at hpage htotal
    rw [if_neg hzero]
    constructor
    · intro page hrun
      obtain ⟨page', hloop, hrun⟩ := Option.bind_eq_some_iff.mp hrun
      cases hrun
      obtain ⟨hmore, hcount, hsize, hgrown⟩ := hpage page' hloop
      have hsame : ∀ x : Byte, ((page'.bytes.setWpos (1 + HEADER_LENGTH)).writeU8 x).data.length =
          page'.bytes.data.length := by
        intro x
        have hpos : (page'.bytes.setWpos (1 + HEADER_LENGTH)).wpos = 1 + HEADER_LENGTH :=
          setWpos_wpos (by omega)
        refine length_writeBytes ?_
        rw [hpos, List.length_singleton, setWpos_data]
        omega
      exact ⟨hmore, hcount, by rw [hsame, hsize]⟩
    · intro hok hsize
      obtain ⟨page', hloop⟩ := Option.isSome_iff_exists.mp (htotal hok hsize)
      simp only [hloop, Option.bind_eq_bind, Option.bind_some, Option.pure_def, Option.isSome_some]

end

/-- What is known of a listing of channels. -/
structure Listing {σ Out : Type} [BinarySerde Out] (channels : List ArcChannel)
    (transform : Transform σ (ArcChannel × Nat) Out) (s : σ) (lead : σ → Nat)
    (cost : ArcChannel × Nat → Nat) (ok : ArcChannel × Nat → Prop) (channelId : Out → BitVec 16) :
    Prop where
  costs : Costs transform lead cost ok
  works : channels.length < 2 ^ 16 → ∀ x ∈ channels.zipIdx, ok x
  ids : ∀ start, ∃ Inv : σ → List Byte → Prop, (∀ data, Inv s data) ∧
    Appends start transform (fun _ => true) Inv fun x item _ => (channelId item).toNat = x.2 + 1
  small : 2 + HEADER_LENGTH + 32 * SERIALIZED_SIZE Out + lead s < PACKET_SIZE_SOFT_LIMIT

namespace Listing

variable {σ Out : Type} [BinarySerde Out] {channels : List ArcChannel}
  {transform : Transform σ (ArcChannel × Nat) Out} {s : σ} {lead : σ → Nat}
  {cost : ArcChannel × Nat → Nat} {ok : ArcChannel × Nat → Prop} {channelId : Out → BitVec 16}

theorem toNat_channelsSpace (channels : List ArcChannel) :
    (channelsSpace channels).toNat = min channels.length 32 := by
  rw [channelsSpace, BitVec.toNat_ofNat]
  omega

theorem base_lt (h : Listing channels transform s lead cost ok channelId) :
    (channelPages channels (SERIALIZED_SIZE Out) (lead s)).base <
      (channelPages channels (SERIALIZED_SIZE Out) (lead s)).limit := by
  have hsmall := h.small
  have hspace : min channels.length 32 * SERIALIZED_SIZE Out ≤ 32 * SERIALIZED_SIZE Out :=
    Nat.mul_le_mul_right _ (Nat.min_le_right _ _)
  show 2 + HEADER_LENGTH + min channels.length 32 * SERIALIZED_SIZE Out + lead s <
    PACKET_SIZE_SOFT_LIMIT
  omega

omit [BinarySerde Out] in
/-- The channels from `i` on, so many of them, have the ids from `i + 1` on. -/
theorem ids_take {items : List Out} {i : Nat}
    (h : List.Forall₂ (fun (x : ArcChannel × Nat) item => (channelId item).toNat = x.2 + 1)
      ((channels.zipIdx.drop i).take items.length) items) :
    items.map (fun item => (channelId item).toNat) = List.range' (i + 1) items.length := by
  have hlen := h.length_eq
  have hmap : ((channels.zipIdx.drop i).take items.length).map (fun x => x.2 + 1) =
      items.map fun item => (channelId item).toNat := by
    rw [← List.forall₂_eq_eq_eq, List.forall₂_map_left_iff, List.forall₂_map_right_iff]
    exact h.imp fun _ _ hid => hid.symm
  have hsnd : ∀ xs : List (ArcChannel × Nat),
      xs.map (fun x => x.2 + 1) = (xs.map Prod.snd).map (· + 1) := fun xs => by
    rw [List.map_map]
    rfl
  rw [List.length_take, List.length_drop, List.length_zipIdx] at hlen
  rw [← hmap, hsnd, List.map_take, List.map_drop, List.zipIdx_map_snd, List.drop_range',
    List.take_range'_of_length_ge (by omega), ← List.range'_succ_left, Nat.mul_one, Nat.zero_add]

variable (header : Fin HEADER_LENGTH → Byte)

/-- The page that begins with channel `i`: what it has is what `Paging.fill` says of
the sizes, and it comes if there is room for it. -/
theorem askPage_spec (h : Listing channels transform s lead cost ok channelId) {i : Nat}
    {more : Bool} {size count : Nat}
    (hfill : (channelPages channels (SERIALIZED_SIZE Out) (lead s)).fill
      ((channels.zipIdx.map cost).drop i)
      (channelPages channels (SERIALIZED_SIZE Out) (lead s)).base 0 = (more, size, count)) :
    (∀ page, askPage Out header (fun content => paginateMakeResponse content
        (channelsSpace channels) channels.zipIdx transform s) (i + 1) = some page →
      size ≤ MTU ∧ (page.code = 0x8112 ↔ more = true) ∧ page.count = count ∧
        page.items.map (fun item => (channelId item).toNat) = List.range' (i + 1) count ∧
        page.packet.length ≤ MTU) ∧
    (channels.length < 2 ^ 16 → i < 2 ^ 16 - 1 → size ≤ MTU →
      (askPage Out header (fun content => paginateMakeResponse content (channelsSpace channels)
        channels.zipIdx transform s) (i + 1)).isSome) := by
  have hn := toNat_channelsSpace channels
  have hsource : channelsSpace channels = 0 → channels.zipIdx.drop i = [] := by
    intro hzero
    rw [hzero] at hn
    have hlen : channels.length = 0 := by
      have : (0 : Byte).toNat = 0 := rfl
      omega
    rw [List.length_eq_zero_iff.mp hlen, List.zipIdx_nil, List.drop_nil]
  have hbase := h.base_lt
  have hroom : (channelPages channels (SERIALIZED_SIZE Out) (lead s)).limit ≤
      (channelPages channels (SERIALIZED_SIZE Out) (lead s)).room := by
    show PACKET_SIZE_SOFT_LIMIT ≤ MTU
    decide
  rw [← List.map_drop] at hfill
  obtain ⟨hpage, htotal⟩ := @serializeItems_fill σ (ArcChannel × Nat) Out _ transform lead cost ok
    (channelPages channels (SERIALIZED_SIZE Out) (lead s)) (channelsSpace channels) h.costs hn.symm
    rfl hroom (channels.zipIdx.drop i) s hsource (by rw [hn]; rfl) (by omega) more size count hfill
  obtain ⟨Inv, hinv, happends⟩ := h.ids
    (2 + HEADER_LENGTH + (channelsSpace channels).toNat * SERIALIZED_SIZE Out)
  -- what the server makes of the request
  have hlisting : ∀ start : BitVec 16, start.toNat = i + 1 →
      paginateMakeResponse ((List.ofFn header ++ ([0, 0] ++ be16 start)).drop HEADER_LENGTH)
        (channelsSpace channels) channels.zipIdx transform s = (do
          let page ← serializeItems (channelsSpace channels) (channels.zipIdx.drop i) transform s
          let code := if page.haveMore then 0x8112 else 1
          return (code, page.content)) := by
    intro start hstart
    have hne : start ≠ 0 := by
      rintro rfl
      cases hstart
    rw [List.drop_left' List.length_ofFn, paginateMakeResponse, extractStartIndex_be16 hne, hstart]
    rfl
  have hhead : ∀ page : ItemsPage Out,
      serializeItems (channelsSpace channels) (channels.zipIdx.drop i) transform s = some page →
      (page.content.getD 1 0).toNat = page.counted.length ∧
        page.content.length + HEADER_LENGTH = page.bytes.data.length := by
    intro page hrun
    obtain ⟨hlt, rest, hrest⟩ := serializeItems_head happends.writesBehind
      (Appends.atEnd_reservedSpace (hinv _)) hrun
    have hlen := congrArg List.length hrest
    refine ⟨?_, ?_⟩
    · rw [← hrest]
      exact (BitVec.toNat_ofNat _ _).trans (Nat.mod_eq_of_lt hlt)
    · simp only [ItemsPage.content, List.length_drop, List.cons_append, List.length_cons] at hlen ⊢
      omega
  constructor
  · intro page hask
    obtain ⟨start, hstart, hask⟩ := Option.bind_eq_some_iff.mp hask
    obtain ⟨packet, hpacket, hask⟩ := Option.bind_eq_some_iff.mp hask
    obtain ⟨items, hitems, hask⟩ := Option.bind_eq_some_iff.mp hask
    cases hask
    obtain ⟨⟨code, response⟩, hserve, hmake⟩ := Option.bind_eq_some_iff.mp hpacket
    replace hserve := (hlisting start (tryIntoU16_eq_some hstart)).symm.trans hserve
    obtain ⟨itemsPage, hrun, hserve⟩ := Option.bind_eq_some_iff.mp hserve
    cases hserve
    obtain ⟨hmtu, _, hlen, _, hcode, hdrop⟩ := makePacket_toOption hmake
    obtain ⟨hmore, hcount, hsize⟩ := hpage itemsPage hrun
    obtain ⟨hbyte, hcontent⟩ := hhead itemsPage hrun
    obtain ⟨hdec, hreads⟩ := happends.serializeItems_reads (hinv _) hrun
    rw [hdrop, hdec] at hitems
    cases hitems
    rw [List.filter_eq_self.mpr fun _ _ => rfl] at hreads
    refine ⟨hsize.mp (by rw [← hcontent]; exact hmtu), ?_, ?_, ?_, ?_⟩
    · rw [ClientPage.code, hcode, hmore]
      cases more <;> decide
    · rw [ClientPage.count, hdrop, hbyte, hcount]
    · rw [ids_take hreads, hcount]
    · have hdropped := congrArg List.length hdrop
      rw [List.length_drop] at hdropped
      show packet.length ≤ MTU
      omega
  · intro hchannels hi hsize
    have hok : ∀ x ∈ channels.zipIdx.drop i, ok x :=
      fun x hx => h.works hchannels x (List.mem_of_mem_drop hx)
    obtain ⟨itemsPage, hrun⟩ := Option.isSome_iff_exists.mp
      (htotal hok (hsize.trans (by decide)))
    obtain ⟨hmore, hcount, hfits⟩ := hpage itemsPage hrun
    obtain ⟨hbyte, hcontent⟩ := hhead itemsPage hrun
    obtain ⟨hdec, hreads⟩ := happends.serializeItems_reads (hinv _) hrun
    have hstart : tryIntoU16 (i + 1) = some (BitVec.ofNat 16 (i + 1)) := if_pos (by omega)
    have hnat := tryIntoU16_eq_some hstart
    have hmtu : itemsPage.content.length + HEADER_LENGTH ≤ MTU := by
      rw [hcontent]
      exact hfits.mpr hsize
    rw [askPage, hstart]
    simp only [Option.bind_eq_bind, Option.bind_some, answerListing, hlisting _ hnat, hrun,
      Option.pure_def]
    obtain ⟨packet, hpacket⟩ := makePacket_isSome hmtu _ _ _ _
    rw [hpacket, Option.bind_some, (makePacket_toOption hpacket).2.2.2.2.2, hdec]
    rfl

/-! ## All pages -/

/-- The client that comes to an end does so where the sizes' walk does. -/
theorem walk_of_collectPages (h : Listing channels transform s lead cost ok channelId) {fuel i : Nat}
    {pages : List (ClientPage Out)}
    (hcollect : collectPages Out header (fun content => paginateMakeResponse content
      (channelsSpace channels) channels.zipIdx transform s) fuel (i + 1) = some pages) :
    ∃ counts, (channelPages channels (SERIALIZED_SIZE Out) (lead s)).walk fuel
      ((channels.zipIdx.map cost).drop i) = some counts := by
  induction fuel generalizing i pages with
  | zero => cases hcollect
  | succ fuel ih =>
      obtain ⟨page, hask, hcollect⟩ := Option.bind_eq_some_iff.mp hcollect
      rw [Paging.walk]
      cases hfill : (channelPages channels (SERIALIZED_SIZE Out) (lead s)).fill
        ((channels.zipIdx.map cost).drop i)
        (channelPages channels (SERIALIZED_SIZE Out) (lead s)).base 0 with
      | mk more rest =>
        obtain ⟨size, count⟩ := rest
        obtain ⟨hsize, hcode, hcount, _, _⟩ := (h.askPage_spec header hfill).1 page hask
        have hfits : ¬ size > (channelPages channels (SERIALIZED_SIZE Out) (lead s)).room :=
          Nat.not_lt.mpr hsize
        dsimp only
        rw [if_neg hfits]
        by_cases hmore : more = true
        · rw [if_pos (hcode.mpr hmore)] at hcollect
          obtain ⟨rest, hrest, _⟩ := Option.bind_eq_some_iff.mp hcollect
          rw [hcount, Nat.add_right_comm] at hrest
          obtain ⟨counts, hwalk⟩ := ih hrest
          rw [if_pos hmore, List.drop_drop, hwalk]
          exact ⟨_, rfl⟩
        · rw [if_neg hmore]
          exact ⟨_, rfl⟩

/-- Where the sizes' walk comes to an end the client does, with all channels. -/
theorem collectPages_of_walk (h : Listing channels transform s lead cost ok channelId)
    (hchannels : channels.length < 2 ^ 16) {fuel i : Nat} (hi : i < channels.length ∨ i = 0)
    {counts : List Nat} (hwalk : (channelPages channels (SERIALIZED_SIZE Out) (lead s)).walk fuel
      ((channels.zipIdx.map cost).drop i) = some counts) :
    ∃ pages, collectPages Out header (fun content => paginateMakeResponse content
        (channelsSpace channels) channels.zipIdx transform s) fuel (i + 1) = some pages ∧
      (pages.flatMap (·.items)).map (fun item => (channelId item).toNat) =
        List.range' (i + 1) (channels.length - i) ∧
      ∀ page ∈ pages, (page.code = 0x8112 → 0 < page.count) ∧ page.packet.length ≤ MTU := by
  induction fuel generalizing i counts with
  | zero => cases hwalk
  | succ fuel ih =>
      have hsome := hwalk
      rw [Paging.walk] at hwalk
      cases hfill : (channelPages channels (SERIALIZED_SIZE Out) (lead s)).fill
        ((channels.zipIdx.map cost).drop i)
        (channelPages channels (SERIALIZED_SIZE Out) (lead s)).base 0 with
      | mk more rest =>
        obtain ⟨size, count⟩ := rest
        rw [hfill] at hwalk
        dsimp only at hwalk
        split at hwalk
        · cases hwalk
        next hroom =>
        obtain ⟨hpage, htotal⟩ := h.askPage_spec header hfill
        obtain ⟨page, hask⟩ := Option.isSome_iff_exists.mp
          (htotal hchannels (by omega) (Nat.not_lt.mp hroom))
        obtain ⟨_, hcode, hcount, hids, hpacket⟩ := hpage page hask
        have hleft := Paging.count_fill h.base_lt hfill
        rw [List.length_drop, List.length_map, List.length_zipIdx] at hleft
        have hprogress : more = true → 0 < count := by
          rintro rfl
          refine Nat.pos_of_ne_zero ?_
          rintro rfl
          rw [Paging.walk_stuck hfill] at hsome
          cases hsome
        cases hmore : more with
        | true =>
            rw [hmore, if_pos rfl, List.drop_drop] at hwalk
            rw [hmore, if_pos rfl] at hleft
            obtain ⟨counts', hrest, _⟩ := Option.map_eq_some_iff.mp hwalk
            obtain ⟨pages, hcollect, hidsRest, hpages⟩ := ih (Or.inl (by omega)) hrest
            refine ⟨page :: pages, ?_, ?_, ?_⟩
            · rw [collectPages, hask]
              simp only [Option.bind_eq_bind, Option.bind_some, if_pos (hcode.mpr hmore), hcount,
                Nat.add_right_comm i 1 count, hcollect]
              rfl
            · rw [List.flatMap_cons, List.map_append, hids, hidsRest]
              have happend := @List.range'_append (i + 1) count (channels.length - (i + count)) 1
              rw [Nat.one_mul, Nat.add_right_comm] at happend
              rw [happend]
              congr 1
              omega
            · intro page' hpage'
              rcases List.mem_cons.mp hpage' with rfl | hpage'
              · exact ⟨fun _ => hcount ▸ hprogress hmore, hpacket⟩
              · exact hpages page' hpage'
        | false =>
            rw [hmore, if_neg Bool.false_ne_true] at hleft
            have hlast : ¬ page.code = 0x8112 := by
              rw [hcode, hmore]
              exact Bool.false_ne_true
            refine ⟨[page], ?_, ?_, ?_⟩
            · rw [collectPages, hask]
              simp only [Option.bind_eq_bind, Option.bind_some, if_neg hlast]
              rfl
            · rw [List.flatMap_cons, List.flatMap_nil, List.append_nil, hids, hleft]
            · intro page' hpage'
              obtain rfl := List.mem_singleton.mp hpage'
              exact ⟨fun h => absurd h hlast, hpacket⟩

/-- The client gets every channel exactly if there are not too many for their ids,
and the sizes can be cut into pages. -/
theorem listsAll_iff (h : Listing channels transform s lead cost ok channelId) :
    ListsAll channelId header (fun content => paginateMakeResponse content
        (channelsSpace channels) channels.zipIdx transform s) channels.length ↔
      channels.length < 2 ^ 16 ∧
        (channelPages channels (SERIALIZED_SIZE Out) (lead s)).Cuts (channels.zipIdx.map cost) := by
  have hwalk := Paging.walk_iff_cuts h.base_lt
    (show (channelPages channels (SERIALIZED_SIZE Out) (lead s)).limit ≤
      (channelPages channels (SERIALIZED_SIZE Out) (lead s)).room from
        (by decide : PACKET_SIZE_SOFT_LIMIT ≤ MTU)) (channels.zipIdx.map cost)
  rw [← hwalk]
  constructor
  · rintro ⟨fuel, pages, hcollect, hids, _⟩
    refine ⟨?_, fuel, h.walk_of_collectPages header (i := 0) hcollect⟩
    -- the last id is a `u16`
    cases hn : channels.length with
    | zero => decide
    | succ n =>
        have hlast : n + 1 ∈ List.range' 1 channels.length := by
          rw [List.mem_range'_1, hn]
          omega
        rw [← hids] at hlast
        obtain ⟨item, _, hid⟩ := List.mem_map.mp hlast
        rw [← hid]
        exact (channelId item).isLt
  · rintro ⟨hchannels, fuel, counts, hwalks⟩
    obtain ⟨pages, hcollect, hids, hpages⟩ :=
      h.collectPages_of_walk header hchannels (i := 0) (Or.inr rfl) hwalks
    exact ⟨fuel, pages, hcollect, hids, hpages⟩

end Listing

/-! ## The three listings -/

theorem commonPlaced_zero (start : Nat) (selfInfo : ArcDevice) (data : List Byte) :
    CommonPlaced start selfInfo 0 data := fun hset => absurd rfl hset

theorem receiveChannel_listing (selfInfo : ArcDevice) {subs : List (Option SubscriptionInfo)}
    (hsized : subs.length = selfInfo.rxChannels.length) :
    Listing selfInfo.rxChannels (receiveChannel selfInfo subs) 0 commonLead (receiveSize (some subs))
      (fun x => x.2 + 1 < 2 ^ 16 ∧ x.2 < subs.length) ReceiveChannelDescriptor.channelId where
  costs := receiveChannel_costs selfInfo subs
  works := by
    intro hchannels x hx
    have hlt := List.snd_lt_of_mem_zipIdx hx
    omega
  ids := fun start => ⟨CommonPlaced start selfInfo, commonPlaced_zero start selfInfo,
    (receiveChannel_appends start selfInfo subs).weaken fun hx => hx.channelId⟩
  small := by decide

/-- Channels whose names take few bytes are always listed. -/
theorem Listing.cuts_of_small {σ Out : Type} [BinarySerde Out] {channels : List ArcChannel}
    {transform : Transform σ (ArcChannel × Nat) Out} {s : σ} {lead : σ → Nat}
    {cost : ArcChannel × Nat → Nat} {ok : ArcChannel × Nat → Prop} {channelId : Out → BitVec 16}
    (h : Listing channels transform s lead cost ok channelId)
    (hcost : ∀ x ∈ channels.zipIdx, 2 + HEADER_LENGTH + 32 * SERIALIZED_SIZE Out + lead s + cost x <
      PACKET_SIZE_SOFT_LIMIT ∧ PACKET_SIZE_SOFT_LIMIT + cost x ≤ MTU + 1) :
    (channelPages channels (SERIALIZED_SIZE Out) (lead s)).Cuts (channels.zipIdx.map cost) := by
  refine .of_small ?_ h.base_lt ?_
  · intro hne
    have hlen := List.length_pos_iff.mpr hne
    rw [List.length_map, List.length_zipIdx] at hlen
    show 0 < min channels.length 32
    omega
  · intro c hc
    obtain ⟨x, hx, rfl⟩ := List.mem_map.mp hc
    obtain ⟨hone, hfits⟩ := hcost x hx
    have hspace : min channels.length 32 * SERIALIZED_SIZE Out ≤ 32 * SERIALIZED_SIZE Out :=
      Nat.mul_le_mul_right _ (Nat.min_le_right _ _)
    refine ⟨?_, hfits⟩
    show 2 + HEADER_LENGTH + min channels.length 32 * SERIALIZED_SIZE Out + lead s + cost x <
      PACKET_SIZE_SOFT_LIMIT
    omega

/-- With names of 31 bytes, which the device keeps to for its own, a client gets
the whole listing of the receiver. -/
theorem short_names_listed (selfInfo : ArcDevice) {subs : List (Option SubscriptionInfo)}
    (hsized : subs.length = selfInfo.rxChannels.length)
    (hchannels : selfInfo.rxChannels.length < 2 ^ 16)
    (hfriendly : ∀ ch ∈ selfInfo.rxChannels, (utf8 ch.friendlyName).length ≤ 31)
    (hsubs : ∀ ss, some ss ∈ subs →
      (utf8 ss.txChannelName).length ≤ 31 ∧ (utf8 ss.txHostname).length ≤ 31)
    (header : Fin HEADER_LENGTH → Byte) :
    ListsAll ReceiveChannelDescriptor.channelId header (getReceiveChannels selfInfo (some subs))
      selfInfo.rxChannels.length := by
  have hlisting := receiveChannel_listing selfInfo hsized
  refine (hlisting.listsAll_iff header).mpr ⟨hchannels, hlisting.cuts_of_small ?_⟩
  intro x hx
  have hname := hfriendly x.1 (List.fst_mem_of_mem_zipIdx hx)
  have hsub : subscriptionSize (subs[x.2]?).join ≤ 64 := by
    cases hstatus : (subs[x.2]?).join with
    | none => exact Nat.zero_le _
    | some ss =>
        obtain ⟨h₁, h₂⟩ := hsubs ss (List.mem_of_getElem? (Option.join_eq_some_iff.mp hstatus))
        show (utf8 ss.txChannelName).length + 1 + ((utf8 ss.txHostname).length + 1) ≤ 64
        omega
  have hcost : receiveSize (some subs) x ≤ 96 := by
    show subscriptionSize (subs[x.2]?).join + ((utf8 x.1.friendlyName).length + 1) ≤ 96
    omega
  show 2 + 10 + 32 * 20 + 16 + receiveSize (some subs) x < 800 ∧
    800 + receiveSize (some subs) x ≤ 1500 + 1
  omega

end Inferno
