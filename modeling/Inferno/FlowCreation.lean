import Inferno.MdnsResolve
import Inferno.ResolveSlots
import Inferno.SubscriberWorld

/-!
# Flows out of advertisements

What `resolve_subscriptions` computes from the numbers of an advertisement to
create a flow, with everything on the way that panics where overflow is
checked: the latency in samples, vectors with a place for each channel,
`chunks(0)`, the division by the size of a frame, the assertion on the bits per
sample, and the latency that `add_socket` makes a `u32`. A panic is `none`.

`creation_legal_iff` says which advertisements get through, and with a packet
size within what they allow.
-/

namespace Inferno

open Partial

/-! ## What is checked -/

/-- A product of `u64`s. -/
def mulU64 (a b : Nat) : Option Nat := if a * b < 2 ^ 64 then some (a * b) else none

/-- The most bytes one vector has. -/
def ISIZE_MAX : Nat := 2 ^ 63 - 1

/-- Vectors of so many elements of these sizes. -/
def allocate (elementSizes : List Nat) (n : Nat) : Option Unit :=
  if ∀ size ∈ elementSizes, n * size ≤ ISIZE_MAX then some () else none

/-- The sizes of the types that the compiler lays out: a slot for a ring
buffer, a `BoolVec`, and a slot for a channel of the receiver. Eight of each fit
in memory. -/
structure ElementSizes where
  rbOutput : Nat
  boolVec : Nat
  channel : Nat
  small : rbOutput < 2 ^ 60 ∧ boolVec < 2 ^ 60 ∧ channel < 2 ^ 60

namespace ElementSizes

/-- What `Flow::new` has for each channel: a count, a transmitter channel and a
ring buffer. -/
def ofFlow (sizes : ElementSizes) : List Nat := [8, 4, sizes.rbOutput]

/-- What `add_socket` has for each channel: a vector of sinks, the local
channels and the state of the receiver. -/
def ofSocket (sizes : ElementSizes) : List Nat := [24, sizes.boolVec, sizes.channel]

end ElementSizes

/-- The latency of a new flow in samples. -/
def checkedLatencySamples (cfg : SubscriberConfig) (minRxLatencyNs : Nat) : Option Nat :=
  (mulU64 (max minRxLatencyNs cfg.minLatencyNs) cfg.sampleRate).map (· / 1000000000)

/-- `Flow::new` with the arguments it is called with. -/
def RxFlow.create (sizes : ElementSizes) (cfg : SubscriberConfig) (localId : Nat)
    (source : FlowSource) (totalChannels : Nat) (txChannels : List (BitVec 16))
    (minRxLatencyNs now : Nat) : Option RxFlow := do
  let latencySamples ← checkedLatencySamples cfg minRxLatencyNs
  allocate sizes.ofFlow totalChannels
  some (.new localId source totalChannels txChannels latencySamples now)

/-- `add_socket` with its checks. -/
def FlowsReceiver.checkedAddSocket (rx : FlowsReceiver) (sizes : ElementSizes) (localIndex : Nat)
    (sendKeepalives : Bool) (bytesPerSample channelsCount latencySamples : Nat) :
    Option FlowsReceiver :=
  if localIndex ≥ rx.flowsInfo.length then some rx
  else do
    allocate sizes.ofSocket channelsCount
    if latencySamples < 2 ^ 32 then
      some (rx.addSocket localIndex sendKeepalives bytesPerSample channelsCount latencySamples)
    else none

/-! ## Creating flows -/

/-- What the creation of one flow meets outside: a free index, the clock, the
receiver when it comes to it, the port of the socket if there is one, and the
answer to the request if it is granted. -/
structure CreationEnv where
  flowIndex : Nat
  now : Nat
  receiver : FlowsReceiver
  port : Option (BitVec 16)
  handle : Option FlowHandle

/-- A flow, the packet size it was requested with if it was, and the receiver. -/
structure Creation where
  flow : RxFlow
  fpp : Option Nat
  receiver : FlowsReceiver

/-- The future that requests a flow. -/
def requestFuture (sizes : ElementSizes) (fppOverride : Option Nat) (env : CreationEnv)
    (first : AdvertisedChannel) (flow : RxFlow) : Option Creation :=
  match env.port with
  | none => some ⟨flow, none, env.receiver⟩
  | some _ => do
      let fpp ← requestFpp fppOverride first flow.txChannels.length
      match env.handle with
      | none => some ⟨flow, some fpp, env.receiver⟩
      | some _ =>
          -- the assertion of the code
          if first.bitsPerSample % 8 ≠ 0 then none
          else do
            let receiver ← env.receiver.checkedAddSocket sizes env.flowIndex true
              (first.bitsPerSample / 8) flow.txChannels.length flow.latencySamples
            some ⟨flow, some fpp, receiver⟩

/-- A flow for one chunk of a server's channels. -/
def createUnicast (sizes : ElementSizes) (cfg : SubscriberConfig) (env : CreationEnv)
    (first : AdvertisedChannel) (numChannelsInFlow : Nat) (chunk : List (Nat × AdvertisedChannel)) :
    Option Creation := do
  let flow ← RxFlow.create sizes cfg (env.flowIndex + 1) (.unicast first.addr first.dbcp1 none)
    numChannelsInFlow (chunk.map (·.2.txChannelId)) first.minRxLatencyNs env.now
  requestFuture sizes cfg.fppOverride env first flow

def numChannelsInFlow (first : AdvertisedChannel) (rxChannels : Nat) : Nat :=
  min (min first.txChannelsPerFlow rxChannels) 8

/-- The flows for the channels of a server, each with what it meets. -/
def createForServer (sizes : ElementSizes) (cfg : SubscriberConfig) (rxChannels : Nat)
    (envs : Nat → CreationEnv) : List (Nat × AdvertisedChannel) → Option (List Creation)
  | [] => some []
  | (lci, first) :: rest => do
      let parts ← chunks (numChannelsInFlow first rxChannels) ((lci, first) :: rest)
      parts.zipIdx.mapM fun part =>
        createUnicast sizes cfg (envs part.2) first (numChannelsInFlow first rxChannels) part.1

/-- The flow of a bundle; there is none without the socket. -/
def createMulticast (sizes : ElementSizes) (cfg : SubscriberConfig) (env : CreationEnv)
    (bundleFullName : String) (advbundle : AdvertisedBundle) : Option (Option Creation) :=
  match env.port with
  | none => some none
  | some _ => do
      let flow ← RxFlow.create sizes cfg (env.flowIndex + 1) (.multicast bundleFullName)
        advbundle.txChannelsPerFlow [] advbundle.minRxLatencyNs env.now
      let receiver ← env.receiver.checkedAddSocket sizes env.flowIndex false
        (advbundle.bitsPerSample / 8) advbundle.txChannelsPerFlow flow.latencySamples
      some (some ⟨flow, none, receiver⟩)

/-! ## The checks -/

theorem allocate_eq_some {elementSizes : List Nat} {n : Nat} {u : Unit} :
    allocate elementSizes n = some u ↔ ∀ size ∈ elementSizes, n * size ≤ ISIZE_MAX := by
  simp [allocate]

theorem checkedLatencySamples_eq_some {cfg : SubscriberConfig} {minRxLatencyNs latency : Nat} :
    checkedLatencySamples cfg minRxLatencyNs = some latency ↔
      max minRxLatencyNs cfg.minLatencyNs * cfg.sampleRate < 2 ^ 64 ∧
        latency = max minRxLatencyNs cfg.minLatencyNs * cfg.sampleRate / 1000000000 := by
  simp only [checkedLatencySamples, mulU64, Option.map_eq_some_iff, Option.ite_none_right_eq_some,
    Option.some.injEq]
  constructor
  · rintro ⟨product, ⟨hlt, rfl⟩, rfl⟩
    exact ⟨hlt, rfl⟩
  · rintro ⟨hlt, rfl⟩
    exact ⟨_, ⟨hlt, rfl⟩, rfl⟩

/-- Where nothing overflows the product is what the code computes without the
check. -/
theorem latencySamplesOf_of_checked {cfg : SubscriberConfig} {minRxLatencyNs latency : Nat}
    (h : checkedLatencySamples cfg minRxLatencyNs = some latency) :
    latencySamplesOf cfg minRxLatencyNs = latency := by
  obtain ⟨hlt, rfl⟩ := checkedLatencySamples_eq_some.mp h
  rw [latencySamplesOf, Nat.mod_eq_of_lt hlt]

theorem create_eq_some {sizes : ElementSizes} {cfg : SubscriberConfig} {localId : Nat}
    {source : FlowSource} {totalChannels : Nat} {txChannels : List (BitVec 16)}
    {minRxLatencyNs now : Nat} {flow : RxFlow} :
    RxFlow.create sizes cfg localId source totalChannels txChannels minRxLatencyNs now = some flow ↔
      ∃ latency, checkedLatencySamples cfg minRxLatencyNs = some latency ∧
        (∀ size ∈ sizes.ofFlow, totalChannels * size ≤ ISIZE_MAX) ∧
        flow = .new localId source totalChannels txChannels latency now := by
  rw [RxFlow.create]
  constructor
  · intro h
    obtain ⟨latency, hlatency, h⟩ := Option.bind_eq_some_iff.mp h
    obtain ⟨_, hfits, h⟩ := Option.bind_eq_some_iff.mp h
    exact ⟨latency, hlatency, allocate_eq_some.mp hfits, (Option.some.inj h).symm⟩
  · rintro ⟨latency, hlatency, hfits, rfl⟩
    have hroom : allocate sizes.ofFlow totalChannels = some () := allocate_eq_some.mpr hfits
    rw [hlatency, Option.bind_eq_bind, Option.bind_some, hroom]
    rfl

/-- A socket is added to a place that is there. -/
theorem checkedAddSocket_isSome {rx : FlowsReceiver} {sizes : ElementSizes} {localIndex : Nat}
    {sendKeepalives : Bool} {bytesPerSample channelsCount latencySamples : Nat}
    (hindex : localIndex < rx.flowsInfo.length) :
    (rx.checkedAddSocket sizes localIndex sendKeepalives bytesPerSample channelsCount
        latencySamples).isSome ↔
      (∀ size ∈ sizes.ofSocket, channelsCount * size ≤ ISIZE_MAX) ∧ latencySamples < 2 ^ 32 := by
  rw [FlowsReceiver.checkedAddSocket, if_neg (Nat.not_le.mpr hindex)]
  constructor
  · intro h
    obtain ⟨rx', h⟩ := Option.isSome_iff_exists.mp h
    obtain ⟨_, hfits, h⟩ := Option.bind_eq_some_iff.mp h
    exact ⟨allocate_eq_some.mp hfits, (Option.ite_none_right_eq_some.mp h).1⟩
  · rintro ⟨hfits, hlatency⟩
    have hroom : allocate sizes.ofSocket channelsCount = some () := allocate_eq_some.mpr hfits
    rw [hroom, Option.bind_eq_bind, Option.bind_some, if_pos hlatency]
    rfl

theorem checkedAddSocket_of_fits {sizes : ElementSizes} {channelsCount latencySamples : Nat}
    (hfits : ∀ size ∈ sizes.ofSocket, channelsCount * size ≤ ISIZE_MAX)
    (hlatency : latencySamples < 2 ^ 32) (rx : FlowsReceiver) (localIndex : Nat)
    (sendKeepalives : Bool) (bytesPerSample : Nat) :
    (rx.checkedAddSocket sizes localIndex sendKeepalives bytesPerSample channelsCount
      latencySamples).isSome := by
  rcases Nat.lt_or_ge localIndex rx.flowsInfo.length with hlt | hge
  · exact (checkedAddSocket_isSome hlt).mpr ⟨hfits, hlatency⟩
  · simp [FlowsReceiver.checkedAddSocket, hge]

theorem checkedAddSocket_eq {rx rx' : FlowsReceiver} {sizes : ElementSizes} {localIndex : Nat}
    {sendKeepalives : Bool} {bytesPerSample channelsCount latencySamples : Nat}
    (h : rx.checkedAddSocket sizes localIndex sendKeepalives bytesPerSample channelsCount
      latencySamples = some rx') :
    rx' = rx.addSocket localIndex sendKeepalives bytesPerSample channelsCount latencySamples := by
  unfold FlowsReceiver.checkedAddSocket at h
  split at h
  · next hge =>
      obtain rfl := Option.some.inj h
      rw [FlowsReceiver.addSocket, if_pos hge]
  · obtain ⟨_, _, h⟩ := Option.bind_eq_some_iff.mp h
    split at h
    · exact (Option.some.inj h).symm
    · cases h

/-- Eight channels find their places. -/
theorem ElementSizes.fits_eight (sizes : ElementSizes) {n : Nat} (hn : n ≤ 8) :
    (∀ size ∈ sizes.ofFlow, n * size ≤ ISIZE_MAX) ∧ ∀ size ∈ sizes.ofSocket, n * size ≤ ISIZE_MAX := by
  obtain ⟨hrb, hbool, hchannel⟩ := sizes.small
  have hfits : ∀ size, size < 2 ^ 60 → n * size ≤ ISIZE_MAX := by
    intro size hsize
    have hle : n * size ≤ 8 * size := Nat.mul_le_mul_right size hn
    simp only [ISIZE_MAX]
    omega
  simp only [ofFlow, ofSocket, List.forall_mem_cons, List.not_mem_nil, false_imp_iff,
    implies_true, and_true]
  exact ⟨⟨hfits 8 (by decide), hfits 4 (by decide), hfits _ hrb⟩, hfits 24 (by decide), hfits _ hbool,
    hfits _ hchannel⟩

/-! ## The packet size -/

/-- The bytes of one frame of so many channels. -/
def frameBytes (first : AdvertisedChannel) (txChannels : Nat) : Nat :=
  txChannels * (first.bitsPerSample / 8)

/-- A packet size within what is advertised; its packets fit if those of some
size within that do. -/
structure LegalFpp (first : AdvertisedChannel) (txChannels fpp : Nat) : Prop where
  range : first.fppMin ≤ fpp ∧ fpp ≤ first.fppMax
  fits : (∃ x, first.fppMin ≤ x ∧ x ≤ first.fppMax ∧
      x * frameBytes first txChannels ≤ MAX_PAYLOAD_BYTES) →
    fpp * frameBytes first txChannels ≤ MAX_PAYLOAD_BYTES

/-- What the choice of the packet size needs of what is advertised: the largest
size there is room for is none that is too small, and a size that is set is
none that there is no room for while there is for a smaller one. -/
def OverrideFits (fppOverride : Option Nat) (first : AdvertisedChannel) (txChannels : Nat) : Prop :=
  let minFits := first.fppMin * frameBytes first txChannels ≤ MAX_PAYLOAD_BYTES
  match fppOverride with
  | none => minFits
  | some n =>
      if n = 0 then True
      else if n = 2 ^ 32 - 1 then minFits
      else minFits →
        min (n % 2 ^ 16) first.fppMax * frameBytes first txChannels ≤ MAX_PAYLOAD_BYTES

theorem frameBytes_eq {first : AdvertisedChannel} (h : first.bitsPerSample % 8 = 0)
    (txChannels : Nat) : txChannels * first.bitsPerSample / 8 = frameBytes first txChannels :=
  Nat.mul_div_assoc _ (Nat.dvd_of_mod_eq_zero h)

/-- Which of the four modes ask for something legal. -/
theorem requestFpp_legal_iff {fppOverride : Option Nat} {first : AdvertisedChannel}
    {txChannels fpp : Nat} (h : requestFpp fppOverride first txChannels = some fpp)
    (hbits : first.bitsPerSample % 8 = 0) :
    LegalFpp first txChannels fpp ↔
      first.fppMin ≤ first.fppMax ∧ OverrideFits fppOverride first txChannels := by
  unfold requestFpp at h
  dsimp only at h
  rw [frameBytes_eq hbits] at h
  split at h
  · cases h
  next hframe =>
  have hpos := Nat.pos_of_ne_zero hframe
  have hfits : ∀ x, x * frameBytes first txChannels ≤ MAX_PAYLOAD_BYTES ↔
      x ≤ MAX_PAYLOAD_BYTES / frameBytes first txChannels :=
    fun x => (Nat.le_div_iff_mul_le hpos).symm
  have hlimit : MAX_PAYLOAD_BYTES / frameBytes first txChannels ≤ 1400 := Nat.div_le_self _ _
  have hlegal : LegalFpp first txChannels fpp ↔ (first.fppMin ≤ fpp ∧ fpp ≤ first.fppMax) ∧
      ((∃ x, first.fppMin ≤ x ∧ x ≤ first.fppMax ∧
        x ≤ MAX_PAYLOAD_BYTES / frameBytes first txChannels) →
          fpp ≤ MAX_PAYLOAD_BYTES / frameBytes first txChannels) := by
    simp only [← hfits]
    exact ⟨fun h => ⟨h.range, h.fits⟩, fun h => ⟨h.1, h.2⟩⟩
  have hsome : (∃ x, first.fppMin ≤ x ∧ x ≤ first.fppMax ∧
      x ≤ MAX_PAYLOAD_BYTES / frameBytes first txChannels) ↔ first.fppMin ≤ first.fppMax ∧
        first.fppMin ≤ MAX_PAYLOAD_BYTES / frameBytes first txChannels :=
    ⟨fun ⟨x, hmin, hmax, hx⟩ => ⟨Nat.le_trans hmin hmax, Nat.le_trans hmin hx⟩,
      fun ⟨hrange, hmin⟩ => ⟨first.fppMin, Nat.le_refl _, hrange, hmin⟩⟩
  obtain rfl := Option.some.inj h
  rw [hlegal, hsome]
  simp only [OverrideFits, hfits]
  generalize MAX_PAYLOAD_BYTES / frameBytes first txChannels = limit at *
  cases fppOverride with
  | none =>
      dsimp only
      omega
  | some n =>
      dsimp only
      by_cases hzero : n = 0
      · simp only [hzero, if_true, and_true]
        omega
      · by_cases hmax : n = 2 ^ 32 - 1
        · simp only [hmax, if_true, if_neg (show ¬2 ^ 32 - 1 = 0 by decide)]
          omega
        · simp only [if_neg hzero, if_neg hmax]
          omega

/-! ## What gets through -/

/-- What an advertisement of a channel has to be like. -/
structure ChannelSane (cfg : SubscriberConfig) (rxChannels : Nat) (first : AdvertisedChannel) :
    Prop where
  channels : 0 < first.txChannelsPerFlow ∧ 0 < rxChannels
  samples : 0 < first.bitsPerSample ∧ first.bitsPerSample % 8 = 0
  latency : max first.minRxLatencyNs cfg.minLatencyNs * cfg.sampleRate < 2 ^ 32 * 1000000000
  range : first.fppMin ≤ first.fppMax
  packets : OverrideFits cfg.fppOverride first (numChannelsInFlow first rxChannels)

/-- What an advertisement of a bundle has to be like. -/
structure BundleSane (sizes : ElementSizes) (cfg : SubscriberConfig) (advbundle : AdvertisedBundle) :
    Prop where
  latency : max advbundle.minRxLatencyNs cfg.minLatencyNs * cfg.sampleRate < 2 ^ 32 * 1000000000
  channels : ∀ size ∈ sizes.ofFlow ++ sizes.ofSocket,
    advbundle.txChannelsPerFlow * size ≤ ISIZE_MAX

section

variable {sizes : ElementSizes} {cfg : SubscriberConfig} {env : CreationEnv}
  {first : AdvertisedChannel} {rxChannels n : Nat} {chunk : List (Nat × AdvertisedChannel)}

theorem checkedLatencySamples_lt {minRxLatencyNs latency : Nat}
    (h : checkedLatencySamples cfg minRxLatencyNs = some latency) :
    latency < 2 ^ 32 ↔
      max minRxLatencyNs cfg.minLatencyNs * cfg.sampleRate < 2 ^ 32 * 1000000000 := by
  obtain ⟨_, rfl⟩ := checkedLatencySamples_eq_some.mp h
  exact Nat.div_lt_iff_lt_mul (by decide)

theorem exists_checkedLatencySamples {minRxLatencyNs : Nat}
    (h : max minRxLatencyNs cfg.minLatencyNs * cfg.sampleRate < 2 ^ 32 * 1000000000) :
    ∃ latency, checkedLatencySamples cfg minRxLatencyNs = some latency ∧ latency < 2 ^ 32 := by
  have hlatency : checkedLatencySamples cfg minRxLatencyNs =
      some (max minRxLatencyNs cfg.minLatencyNs * cfg.sampleRate / 1000000000) :=
    checkedLatencySamples_eq_some.mpr ⟨by omega, rfl⟩
  exact ⟨_, hlatency, (checkedLatencySamples_lt hlatency).mpr h⟩

theorem numChannelsInFlow_le (first : AdvertisedChannel) (rxChannels : Nat) :
    numChannelsInFlow first rxChannels ≤ 8 := Nat.min_le_right _ _

theorem numChannelsInFlow_pos :
    0 < numChannelsInFlow first rxChannels ↔ 0 < first.txChannelsPerFlow ∧ 0 < rxChannels := by
  simp only [numChannelsInFlow]
  omega

/-- The future of a flow that is as it should be comes to its end. -/
theorem requestFuture_of_fits {flow : RxFlow} (hlength : flow.txChannels.length = n)
    (hframe : n * first.bitsPerSample / 8 ≠ 0) (hbits : first.bitsPerSample % 8 = 0)
    (hfits : ∀ size ∈ sizes.ofSocket, n * size ≤ ISIZE_MAX)
    (hlatency : flow.latencySamples < 2 ^ 32) (fppOverride : Option Nat) (env : CreationEnv) :
    ∃ c, requestFuture sizes fppOverride env first flow = some c ∧ c.flow = flow ∧
      ∀ fpp ∈ c.fpp, requestFpp fppOverride first n = some fpp := by
  have hsome : (requestFpp fppOverride first n).isSome := by
    simp [requestFpp, hframe]
  obtain ⟨fpp, hfpp⟩ := Option.isSome_iff_exists.mp hsome
  obtain ⟨rx, hrx⟩ := Option.isSome_iff_exists.mp (checkedAddSocket_of_fits hfits hlatency
    env.receiver env.flowIndex true (first.bitsPerSample / 8))
  unfold requestFuture
  rw [hlength, hfpp]
  cases env.port with
  | none => exact ⟨_, rfl, rfl, fun fpp' hfpp' => by cases hfpp'⟩
  | some port =>
      cases env.handle with
      | none => exact ⟨_, rfl, rfl, fun fpp' hfpp' => by rw [Option.mem_some.mp hfpp']⟩
      | some handle =>
          refine ⟨⟨flow, some fpp, rx⟩, ?_, rfl, fun fpp' hfpp' => by rw [Option.mem_some.mp hfpp']⟩
          simp [hbits, hrx]

/-- A sane advertisement leads to a flow, whatever the creation meets. -/
theorem createUnicast_of_sane (h : ChannelSane cfg rxChannels first) (sizes : ElementSizes)
    (env : CreationEnv) (chunk : List (Nat × AdvertisedChannel)) :
    ∃ c, createUnicast sizes cfg env first (numChannelsInFlow first rxChannels) chunk = some c ∧
      c.flow.txChannels.length = numChannelsInFlow first rxChannels ∧
      ∀ fpp ∈ c.fpp,
        requestFpp cfg.fppOverride first (numChannelsInFlow first rxChannels) = some fpp := by
  obtain ⟨hflow, hsocket⟩ := sizes.fits_eight (numChannelsInFlow_le first rxChannels)
  obtain ⟨latency, hlatency, hlt⟩ := exists_checkedLatencySamples h.latency
  obtain ⟨hbits, hwhole⟩ := h.samples
  have hframe : numChannelsInFlow first rxChannels * first.bitsPerSample / 8 ≠ 0 := by
    rw [frameBytes_eq hwhole]
    exact Nat.mul_ne_zero (Nat.ne_of_gt (numChannelsInFlow_pos.mpr h.channels)) (by omega)
  let flow := RxFlow.new (env.flowIndex + 1) (.unicast first.addr first.dbcp1 none)
    (numChannelsInFlow first rxChannels) (chunk.map (·.2.txChannelId)) latency env.now
  have hlength : flow.txChannels.length = numChannelsInFlow first rxChannels :=
    Plan.new_txChannels_length _ _ _ _ _ _
  obtain ⟨c, hc, hsame, hfpp⟩ := requestFuture_of_fits hlength hframe hwhole hsocket
    (show flow.latencySamples < 2 ^ 32 from hlt) cfg.fppOverride env
  refine ⟨c, ?_, by rw [hsame, hlength], hfpp⟩
  exact Option.bind_eq_some_iff.mpr ⟨flow, create_eq_some.mpr ⟨latency, hlatency, hflow, rfl⟩, hc⟩

/-- What a flow that was granted says of the advertisement. -/
theorem createUnicast_granted {port : BitVec 16} {handle : FlowHandle} {c : Creation}
    (hport : env.port = some port) (hhandle : env.handle = some handle)
    (hindex : env.flowIndex < env.receiver.flowsInfo.length)
    (h : createUnicast sizes cfg env first n chunk = some c) :
    first.bitsPerSample % 8 = 0 ∧
      max first.minRxLatencyNs cfg.minLatencyNs * cfg.sampleRate < 2 ^ 32 * 1000000000 ∧
      c.flow.txChannels.length = n ∧
      ∃ fpp, c.fpp = some fpp ∧ requestFpp cfg.fppOverride first n = some fpp := by
  obtain ⟨flow, hcreate, h⟩ := Option.bind_eq_some_iff.mp h
  obtain ⟨latency, hlatency, _, rfl⟩ := create_eq_some.mp hcreate
  unfold requestFuture at h
  rw [hport, hhandle, Plan.new_txChannels_length] at h
  obtain ⟨fpp, hfpp, h⟩ := Option.bind_eq_some_iff.mp h
  dsimp only at h
  split at h
  · cases h
  next hbits =>
  obtain ⟨rx, hrx, h⟩ := Option.bind_eq_some_iff.mp h
  obtain rfl := Option.some.inj h
  obtain ⟨_, hlt⟩ := (checkedAddSocket_isSome hindex).mp (Option.isSome_iff_exists.mpr ⟨rx, hrx⟩)
  exact ⟨Decidable.not_not.mp hbits, (checkedLatencySamples_lt hlatency).mp hlt,
    Plan.new_txChannels_length _ _ _ _ _ _, fpp, rfl, hfpp⟩

/-- A frame has bytes where the packet size can be computed. -/
theorem requestFpp_some {fppOverride : Option Nat} {fpp : Nat}
    (h : requestFpp fppOverride first n = some fpp) : 0 < n ∧ 0 < first.bitsPerSample := by
  unfold requestFpp at h
  dsimp only at h
  split at h
  · cases h
  next hframe =>
  refine ⟨Nat.pos_of_ne_zero ?_, Nat.pos_of_ne_zero ?_⟩
  · rintro rfl
    simp at hframe
  · intro hzero
    simp [hzero] at hframe

theorem chunks_cons {β : Type} {n : Nat} (hn : n ≠ 0) (x : β) (xs : List β) :
    ∃ parts, chunks n (x :: xs) = some ((x :: xs).take n :: parts) := by
  rw [chunks, if_neg hn, List.length_cons]
  exact ⟨_, rfl⟩

end

/-- A socket and a granted request, for the first flow there is. -/
def grantedEnv : CreationEnv := ⟨0, 0, .start 0 none, some 0, some []⟩

/-- The flows of a server are created, with legal packet sizes, exactly if its
first advertisement is sane. -/
theorem createForServer_legal_iff (sizes : ElementSizes) (cfg : SubscriberConfig)
    (rxChannels lci : Nat) (first : AdvertisedChannel) (rest : List (Nat × AdvertisedChannel)) :
    (∀ envs, ∃ created,
        createForServer sizes cfg rxChannels envs ((lci, first) :: rest) = some created ∧
        ∀ c ∈ created, ∀ fpp ∈ c.fpp, LegalFpp first c.flow.txChannels.length fpp) ↔
      ChannelSane cfg rxChannels first := by
  constructor
  · intro h
    obtain ⟨created, hrun, hlegal⟩ := h fun _ => grantedEnv
    obtain ⟨parts, hparts, hrun⟩ := Option.bind_eq_some_iff.mp hrun
    have hn : numChannelsInFlow first rxChannels ≠ 0 := by
      intro hzero
      rw [hzero, chunks, if_pos rfl] at hparts
      cases hparts
    obtain ⟨others, hcons⟩ := chunks_cons hn (lci, first) rest
    obtain rfl := Option.some.inj (hparts.symm.trans hcons)
    obtain ⟨c, hc, hone⟩ := exists_of_mapM hrun _ List.mem_cons_self
    obtain ⟨hbits, hlatency, hlength, fpp, hfpp, hrequest⟩ := createUnicast_granted rfl rfl
      (show 0 < 32 by decide) hone
    have hfirst := hlegal c hc fpp hfpp
    rw [hlength, requestFpp_legal_iff hrequest hbits] at hfirst
    exact ⟨numChannelsInFlow_pos.mp (Nat.pos_of_ne_zero hn), ⟨(requestFpp_some hrequest).2, hbits⟩,
      hlatency, hfirst.1, hfirst.2⟩
  · intro h envs
    have hn : numChannelsInFlow first rxChannels ≠ 0 :=
      Nat.ne_of_gt (numChannelsInFlow_pos.mpr h.channels)
    obtain ⟨parts, hparts⟩ := chunks_cons hn (lci, first) rest
    have hall := fun (part : List (Nat × AdvertisedChannel) × Nat) =>
      createUnicast_of_sane h sizes (envs part.2) part.1
    obtain ⟨created, hrun⟩ := Option.isSome_iff_exists.mp (mapM_isSome
      (l := (((lci, first) :: rest).take (numChannelsInFlow first rxChannels) :: parts).zipIdx)
      fun part _ => Option.isSome_iff_exists.mpr ((hall part).imp fun _ hc => hc.1))
    refine ⟨created, Option.bind_eq_some_iff.mpr ⟨_, hparts, hrun⟩, fun c hc fpp hfpp => ?_⟩
    obtain ⟨part, _, hpart⟩ := mem_of_mapM hrun c hc
    obtain ⟨c', hc', hlength, hrequest⟩ := hall part
    obtain rfl := Option.some.inj (hpart.symm.trans hc')
    rw [hlength]
    exact (requestFpp_legal_iff (hrequest fpp hfpp) h.samples.2).mpr ⟨h.range, h.packets⟩

/-- The flow of a bundle is created exactly if its advertisement is sane. -/
theorem createMulticast_iff (sizes : ElementSizes) (cfg : SubscriberConfig) (bundleFullName : String)
    (advbundle : AdvertisedBundle) :
    (∀ env, (createMulticast sizes cfg env bundleFullName advbundle).isSome) ↔
      BundleSane sizes cfg advbundle := by
  constructor
  · intro h
    obtain ⟨o, hrun⟩ := Option.isSome_iff_exists.mp (h grantedEnv)
    obtain ⟨flow, hcreate, hrun⟩ := Option.bind_eq_some_iff.mp hrun
    obtain ⟨rx, hrx, _⟩ := Option.bind_eq_some_iff.mp hrun
    obtain ⟨latency, hlatency, hflow, rfl⟩ := create_eq_some.mp hcreate
    obtain ⟨hsocket, hlt⟩ := (checkedAddSocket_isSome (show 0 < 32 by decide)).mp
      (Option.isSome_iff_exists.mpr ⟨rx, hrx⟩)
    exact ⟨(checkedLatencySamples_lt hlatency).mp hlt, List.forall_mem_append.mpr ⟨hflow, hsocket⟩⟩
  · intro h env
    obtain ⟨hflow, hsocket⟩ := List.forall_mem_append.mp h.channels
    obtain ⟨latency, hlatency, hlt⟩ := exists_checkedLatencySamples h.latency
    unfold createMulticast
    cases env.port with
    | none => rfl
    | some port =>
        obtain ⟨rx, hrx⟩ := Option.isSome_iff_exists.mp (checkedAddSocket_of_fits hsocket
          hlt env.receiver env.flowIndex false (advbundle.bitsPerSample / 8))
        have hcreate := create_eq_some.mpr ⟨latency, hlatency, hflow,
          (rfl : RxFlow.new (env.flowIndex + 1) (.multicast bundleFullName)
            advbundle.txChannelsPerFlow [] latency env.now = _)⟩
        exact Option.isSome_iff_exists.mpr ⟨_, Option.bind_eq_some_iff.mpr ⟨_, hcreate,
          Option.bind_eq_some_iff.mpr ⟨rx, hrx, rfl⟩⟩⟩

/-! ## In a resolution -/

/-- Where nothing panics, the plan has the flow that is created. -/
theorem Plan.newFlow_of_create {sizes : ElementSizes} {cfg : SubscriberConfig} {env : ResolveEnv}
    {aliases : Aliases} {p : Plan} {serverAddr : SocketAddr} {first : AdvertisedChannel} {n : Nat}
    {chunk : List (Nat × AdvertisedChannel)} {flow : RxFlow}
    (h : RxFlow.create sizes cfg (freeFlowIndex p.flows + 1)
      (.unicast first.addr first.dbcp1 none) n (chunk.map (·.2.txChannelId)) first.minRxLatencyNs
      (env.elapsed (freeFlowIndex p.flows)) = some flow) :
    p.newFlow cfg env aliases serverAddr first n chunk =
      (chunkUpdates aliases (freeFlowIndex p.flows) 0 chunk).map fun updates =>
        (p.putFlow flow).pushFuture serverAddr (.requestFlow (freeFlowIndex p.flows) first
          flow.txChannels (toString (freeFlowIndex p.flows + 1) ++ "_" ++ toString cfg.processId)
          flow.latencySamples updates) := by
  obtain ⟨latency, hlatency, _, rfl⟩ := create_eq_some.mp h
  rw [newFlow, latencySamplesOf_of_checked hlatency]
  cases chunkUpdates aliases (freeFlowIndex p.flows) 0 chunk <;> rfl

theorem Plan.newMulticast_of_create {sizes : ElementSizes} {cfg : SubscriberConfig}
    {env : ResolveEnv} {aliases : Aliases} {p : Plan} {bundleFullName : String}
    {advbundle : AdvertisedBundle} {channels : ChannelMap} {flow : RxFlow}
    (hsocket : env.socketOk bundleFullName = true)
    (hchannels : p.channelsPerBundle.get? bundleFullName = some channels)
    (h : RxFlow.create sizes cfg (freeFlowIndex p.flows + 1) (.multicast bundleFullName)
      advbundle.txChannelsPerFlow [] advbundle.minRxLatencyNs
      (env.elapsed (freeFlowIndex p.flows)) = some flow) :
    p.newMulticast cfg env aliases (bundleFullName, advbundle) =
      (bundleUpdates aliases (freeFlowIndex p.flows) channels.entries).map fun updates =>
        (p.putFlow flow).pushFuture advbundle.mediaAddr
          (.addMulticast (freeFlowIndex p.flows) advbundle flow.latencySamples updates) := by
  obtain ⟨latency, hlatency, _, rfl⟩ := create_eq_some.mp h
  rw [newMulticast]
  dsimp only
  rw [hsocket, hchannels, latencySamplesOf_of_checked hlatency, if_neg (by simp),
    Option.bind_eq_bind, Option.bind_some]
  cases bundleUpdates aliases (freeFlowIndex p.flows) channels.entries <;> rfl

/-- Where nothing panics, the executor goes on after a granted request, and the
receiver has the socket. -/
theorem RxWorld.runJob_of_requestFuture {sizes : ElementSizes} {cfg : RxConfig} {w w' : RxWorld}
    {flowIndex now : Nat} {port : BitVec 16} {handle : FlowHandle} {first : AdvertisedChannel}
    {flow : RxFlow} {flowName : String} {updates : List ChannelSourceUpdate} {rest rest' : List Job}
    {sent : Option (List ChannelSourceUpdate)} {c : Creation}
    (h : requestFuture sizes cfg.fppOverride ⟨flowIndex, now, w.receiver, some port, some handle⟩
      first flow = some c)
    (hrun : w.runJob cfg (.requestFlow flowIndex first flow.txChannels flowName
      flow.latencySamples updates) rest (.ok handle) = some (w', rest', sent)) :
    rest' = rest ∧ sent = some updates ∧ w'.receiver = c.receiver := by
  obtain ⟨fpp, hfpp, h⟩ := Option.bind_eq_some_iff.mp h
  dsimp only at h
  split at h
  · cases h
  next hbits =>
  obtain ⟨rx, hrx, h⟩ := Option.bind_eq_some_iff.mp h
  obtain rfl := Option.some.inj h
  rw [runJob] at hrun
  dsimp only at hrun
  rw [hfpp, if_neg hbits] at hrun
  obtain ⟨flow', _, hrun⟩ := Option.bind_eq_some_iff.mp hrun
  cases hrun
  exact ⟨rfl, rfl, (checkedAddSocket_eq hrx).symm⟩

/-! ## All advertisements -/

/-- The channels of a server give flows without a panic, and requests with legal
packet sizes, exactly if the first advertisement is sane; a bundle gives its
flow exactly if its advertisement is. -/
theorem creation_legal_iff (sizes : ElementSizes) (cfg : SubscriberConfig) :
    (∀ rxChannels lci first rest,
      (∀ envs, ∃ created,
        createForServer sizes cfg rxChannels envs ((lci, first) :: rest) = some created ∧
        ∀ c ∈ created, ∀ fpp ∈ c.fpp, LegalFpp first c.flow.txChannels.length fpp) ↔
      ChannelSane cfg rxChannels first) ∧
    ∀ bundleFullName advbundle,
      (∀ env, (createMulticast sizes cfg env bundleFullName advbundle).isSome) ↔
      BundleSane sizes cfg advbundle :=
  ⟨createForServer_legal_iff sizes cfg, createMulticast_iff sizes cfg⟩

/-- A channel that says its flows have no channels. -/
def emptyFlowTxt : List String :=
  ["id=1", "nchan=0", "enc=24", "fpp=16,2", "latency_ns=1000000", "dbcp1=0x1102"]

def smallSizes : ElementSizes := ⟨64, 32, 64, by decide⟩

/-- `nchan=0` is parsed, and its channels are divided into chunks of none. -/
theorem no_channels_chunked_by_zero :
    ¬ ∀ (txt : List String) (first : AdvertisedChannel),
      (txtEntries (txt.map utf8)).bind (queryChan ⟨0x0a000001, 4455⟩ "h") = some first →
      ∀ envs, ∃ created, createForServer smallSizes ⟨.owned, 48000, 1000000, 0, none⟩ 2 envs
          [(0, first)] = some created ∧
        ∀ c ∈ created, ∀ fpp ∈ c.fpp, LegalFpp first c.flow.txChannels.length fpp := by
  intro h
  have hparsed : ((txtEntries (emptyFlowTxt.map utf8)).bind
      (queryChan ⟨0x0a000001, 4455⟩ "h")).map (·.txChannelsPerFlow) = some 0 := by
    rw [txtEntries_utf8]
    decide
  obtain ⟨first, hfirst, hzero⟩ := Option.map_eq_some_iff.mp hparsed
  obtain ⟨created, hrun, _⟩ := h emptyFlowTxt first hfirst fun _ => grantedEnv
  obtain ⟨parts, hparts, _⟩ := Option.bind_eq_some_iff.mp hrun
  have hnone : numChannelsInFlow first 2 = 0 := by simp [numChannelsInFlow, hzero]
  rw [hnone, chunks, if_pos rfl] at hparts
  cases hparts

end Inferno
