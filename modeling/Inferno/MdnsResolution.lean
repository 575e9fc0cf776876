import Inferno.MdnsResolve
import Inferno.MulticastReservation

/-!
# Resolving names on the network

`query` reads the response its first question is answered with, and asks again only for
an address that is not in it. Responses may be late, repeated and out of order, and
come from any of the devices.

A name is resolved to what a device announced under it, case aside, at some time
before: its channel or bundle with its own address and flow control port, from one
response (`resolved_was_announced`). A device whose port is 0 is not resolved.
-/

namespace Inferno

/-! ## The queries -/

namespace MdnsClient

/-- The target of the service and its properties. -/
abbrev QueryFound := Option (DnsName × BitVec 16) × TxtEntries

/-- One turn of the loop of `query` over the answers. -/
def readAnswer (fqdn : DnsName) (found : QueryFound) (record : DnsRecord DnsName) :
    Option QueryFound :=
  if record.name = fqdn then
    match record.data with
    | some (.srv port target) => some (some (target, port), found.2)
    | some (.txt txtData) => (txtData.foldlM insertTxt found.2).map fun properties =>
        (found.1, properties)
    | _ => some found
  else some found

/-- The first address under a name. -/
def addressUnder (name : DnsName) (records : List (DnsRecord DnsName)) : Option (BitVec 32) :=
  records.findSome? fun record =>
    if record.name = name then
      match record.data with
      | some (.a ip) => some ip
      | _ => none
    else none

/-- `query`, from the responses to its questions; `none` is an error. -/
def query (fqdn : DnsName) (response : DnsMessage DnsName)
    (aResponse : DnsName → Option (DnsMessage DnsName)) : Option (SocketAddr × TxtEntries) := do
  let (target, properties) ← response.answers.foldlM (readAnswer fqdn) (none, SortedMap.empty)
  let (name, port) ← target
  match addressUnder name response.additionals with
  | some ip => return (⟨ip, port⟩, properties)
  | none => do
      let ip ← addressUnder name (← aResponse name).answers
      return (⟨ip, port⟩, properties)

/-- The name `query_chan` asks for. -/
def chanFqdn (txHostname txChannelName : String) : Option DnsName :=
  DnsName.fromLabels [utf8 (txChannelName ++ "@" ++ txHostname), utf8 "_netaudio-chan",
    utf8 "_udp", localLabel]

/-- The name `query_bund` asks for. -/
def bundFqdn (fullName : String) : Option DnsName :=
  DnsName.fromLabels [utf8 fullName, utf8 "_netaudio-bund", utf8 "_udp", localLabel]

/-- `query_chan`, from the responses. -/
def resolveChan (txHostname : String) (fqdn : DnsName) (response : DnsMessage DnsName)
    (aResponse : DnsName → Option (DnsMessage DnsName)) : Option AdvertisedChannel := do
  let (addr, properties) ← query fqdn response aResponse
  queryChan addr txHostname properties

/-- `query_bund`, from the responses. -/
def resolveBund (fqdn : DnsName) (response : DnsMessage DnsName)
    (aResponse : DnsName → Option (DnsMessage DnsName)) : Option BundleAdvert := do
  let (_, properties) ← query fqdn response aResponse
  queryBund properties

end MdnsClient

/-! ## One response -/

/-- What `query` makes of the response to an announced service. -/
theorem SelfInfo.query_response {info : SelfInfo} {a : Announcement} {s : Service}
    (h : info.service a = some s) {response : DnsMessage DnsName}
    (hresponse : s.dnsResponse = some response)
    (aResponse : DnsName → Option (DnsMessage DnsName)) :
    MdnsClient.query s.serviceId response aResponse =
      if s.port = 0 then none
      else (txtEntries s.txt).map fun properties => (⟨info.ipAddress, s.port⟩, properties) := by
  obtain ⟨_, _, _, hips, _⟩ := SelfInfo.service_fields h
  have hfew : s.ipAddresses.length < 2 ^ 16 := by
    rw [hips]
    simp
  rw [Service.dnsResponse, if_pos hfew] at hresponse
  obtain rfl := Option.some.inj hresponse
  by_cases hport : s.port = 0
  · rw [if_pos hport, if_pos hport, hips]
    simp [MdnsClient.query, MdnsClient.readAnswer, IpAddr.record]
  rw [if_neg hport, if_neg hport, hips]
  have hanswers : [⟨s.serviceType, some (.ptr s.serviceId)⟩,
      ⟨s.serviceId, some (.srv s.port s.serviceHostname)⟩, ⟨s.serviceId, some (.txt s.txt)⟩].foldlM
        (MdnsClient.readAnswer s.serviceId) (none, SortedMap.empty) =
      (txtEntries s.txt).map fun properties =>
        (some (s.serviceHostname, s.port), properties) := by
    have hptr : ∀ found, MdnsClient.readAnswer s.serviceId found
        ⟨s.serviceType, some (.ptr s.serviceId)⟩ = some found := by
      intro found
      simp [MdnsClient.readAnswer]
    rw [List.foldlM_cons, hptr]
    simp [MdnsClient.readAnswer, txtEntries]
  have hadditional : MdnsClient.addressUnder s.serviceHostname
      ([.v4 info.ipAddress].map (IpAddr.record s.serviceHostname)) = some info.ipAddress := by
    simp [MdnsClient.addressUnder, IpAddr.record]
  rw [MdnsClient.query]
  dsimp only
  rw [hanswers]
  cases txtEntries s.txt with
  | none => rfl
  | some properties =>
      simp only [Option.map_some, Option.bind_eq_bind, Option.bind_some, hadditional]
      rfl

theorem serviceType_labels {st : String} {t : DnsName} (h : serviceType st = some t) :
    t.labels = [(utf8 st).map asciiLower, utf8 "_udp", localLabel] := by
  have hrest : [utf8 "_udp", localLabel].map (List.map asciiLower) =
      [utf8 "_udp", localLabel] := by decide
  rw [DnsName.fromLabels_labels h, List.map_cons, hrest]

/-- An announced service has its name and type in its id. -/
theorem SelfInfo.service_id {info : SelfInfo} {a : Announcement} {s : Service}
    (h : info.service a = some s) : s.serviceId.labels =
      [(utf8 (info.describe a).2.1).map asciiLower, (utf8 (info.describe a).1).map asciiLower,
        utf8 "_udp", localLabel] := by
  obtain ⟨htype, hname, _⟩ := SelfInfo.service_fields h
  rw [s.id_labels, serviceType_labels htype, DnsName.fromLabels_labels hname]
  rfl

/-- A response is taken for an answer about a name of four labels if it is about the
service of this name. -/
theorem SelfInfo.id_of_accepts {info : SelfInfo} {a : Announcement} {s : Service}
    (h : info.service a = some s) {response : DnsMessage DnsName}
    (hresponse : s.dnsResponse = some response) {c : MdnsClient} {fqdn : DnsName}
    {originIp : BitVec 32} (hfqdn : fqdn.labels.length = 4)
    (haccept : c.accepts fqdn originIp response = true) : s.serviceId = fqdn := by
  rw [MdnsClient.accepts, Bool.and_eq_true, List.any_eq_true] at haccept
  obtain ⟨_, answer, hanswer, hname⟩ := haccept
  rw [decide_eq_true_iff] at hname
  rcases Service.answer_name hresponse hanswer with heq | heq
  · obtain ⟨htype, _⟩ := SelfInfo.service_fields h
    rw [← hname, heq, serviceType_labels htype] at hfqdn
    cases hfqdn
  · exact heq.symm.trans hname

namespace ReservationWorld

variable {D : Type} {host : D → SelfInfo} {w : ReservationWorld D}

/-- A response of a device that is taken for an answer about a name of four labels is
about a service it announced. -/
theorem Accounted.resolved (h : w.Accounted host) {p : MdnsPacket D} (hp : p ∈ w.sent)
    (hours : p.origin ≠ .foreign) {c : MdnsClient} {fqdn : DnsName}
    (hfqdn : fqdn.labels.length = 4) (haccept : c.accepts fqdn p.ip p.message = true) :
    ∃ e a s, (e, a) ∈ w.announced ∧ (host e).service a = some s ∧ s.serviceId = fqdn ∧
      s.dnsResponse = some p.message := by
  have hquery : p.message.isResponse ≠ false := by
    intro hfalse
    rw [MdnsClient.accepts, hfalse, Bool.false_and, Bool.false_and] at haccept
    cases haccept
  have htrue := h.sent p hp
  unfold Truthful at htrue
  split at htrue
  · exact absurd htrue hquery
  · exact absurd htrue hquery
  · next e _ =>
      obtain ⟨_, s, ⟨addr, rfl, _⟩ | ⟨a, hmem, hs⟩, hresponse⟩ := htrue
      · -- the name of a reservation has six labels
        rw [reservation_dnsResponse] at hresponse
        rw [← Option.some.inj hresponse, MdnsClient.accepts, Bool.and_eq_true] at haccept
        have hname := haccept.2
        rw [reservationResponse, List.any_cons, List.any_nil, Bool.or_false,
          decide_eq_true_iff] at hname
        rw [← hname] at hfqdn
        cases hfqdn
      · exact ⟨e, a, s, hmem, hs, SelfInfo.id_of_accepts hs hresponse hfqdn haccept, hresponse⟩
  · next ho => exact absurd ho hours

end ReservationWorld

/-! ## Every run -/

theorem DnsName.length_fromLabels {labels : List (List Byte)} {name : DnsName}
    (h : DnsName.fromLabels labels = some name) : name.labels.length = labels.length := by
  rw [DnsName.fromLabels_labels h, List.length_map]

/-- Only channels are announced under the type of channels. -/
theorem SelfInfo.channel_of_id {info : SelfInfo} {a : Announcement} {s : Service}
    (hs : info.service a = some s) {txHostname txChannelName : String} {fqdn : DnsName}
    (hfqdn : MdnsClient.chanFqdn txHostname txChannelName = some fqdn) (hid : s.serviceId = fqdn) :
    ∃ chName index bundle isDefault, a = .channel chName index bundle isDefault ∧
      eqIgnoreAsciiCase (utf8 (chName ++ "@" ++ info.friendlyHostname))
        (utf8 (txChannelName ++ "@" ++ txHostname)) = true := by
  have hlabels := SelfInfo.service_id hs
  rw [hid, DnsName.fromLabels_labels hfqdn, List.map_cons, List.map_cons] at hlabels
  obtain ⟨hname, hrest⟩ := List.cons.inj hlabels
  have htype := (List.cons.inj hrest).1
  cases a with
  | channel chName index bundle isDefault =>
      exact ⟨chName, index, bundle, isDefault, rfl, decide_eq_true hname.symm⟩
  | arc =>
      dsimp only [SelfInfo.describe] at htype
      exact absurd htype (by decide)
  | cmc =>
      dsimp only [SelfInfo.describe] at htype
      exact absurd htype (by decide)
  | bundle =>
      dsimp only [SelfInfo.describe] at htype
      exact absurd htype (by decide)

/-- Only bundles are announced under the type of bundles. -/
theorem SelfInfo.bundle_of_id {info : SelfInfo} {a : Announcement} {s : Service}
    (hs : info.service a = some s) {fullName : String} {fqdn : DnsName}
    (hfqdn : MdnsClient.bundFqdn fullName = some fqdn) (hid : s.serviceId = fqdn) :
    ∃ bundleId channelsPerFlow fpp dst, a = .bundle bundleId channelsPerFlow fpp dst ∧
      eqIgnoreAsciiCase (utf8 (display bundleId ++ "@" ++ info.friendlyHostname))
        (utf8 fullName) = true := by
  have hlabels := SelfInfo.service_id hs
  rw [hid, DnsName.fromLabels_labels hfqdn, List.map_cons, List.map_cons] at hlabels
  obtain ⟨hname, hrest⟩ := List.cons.inj hlabels
  have htype := (List.cons.inj hrest).1
  cases a with
  | bundle bundleId channelsPerFlow fpp dst =>
      exact ⟨bundleId, channelsPerFlow, fpp, dst, rfl, decide_eq_true hname.symm⟩
  | arc =>
      dsimp only [SelfInfo.describe] at htype
      exact absurd htype (by decide)
  | cmc =>
      dsimp only [SelfInfo.describe] at htype
      exact absurd htype (by decide)
  | channel =>
      dsimp only [SelfInfo.describe] at htype
      exact absurd htype (by decide)

/-- The channel a device announces, as another asks for it. -/
def SelfInfo.announcedChannel (info : SelfInfo) (txHostname : String) (index : Nat)
    (bundle : Option PointerToMulticast) : AdvertisedChannel where
  addr := ⟨info.ipAddress, info.flowsControlPort⟩
  txChannelsPerFlow := info.advertised.nchan
  txChannelId := BitVec.ofNat 16 (index + 1)
  bitsPerSample := info.bitsPerSample.toNat
  dbcp1 := 0x1102
  fppMin := FPP_MIN
  fppMax := FPP_MAX_ADVERTISED
  minRxLatencyNs := info.txLatencyNs.toNat
  multicast := bundle.map fun p => ⟨txHostname, p.bundleId, p.channelInBundle⟩

/-- The bundle a device announces. -/
def SelfInfo.announcedBundle (info : SelfInfo) (bundleId channelsPerFlow fpp : Nat)
    (dst : SocketAddr) : BundleAdvert where
  txChannelsPerFlow := channelsPerFlow
  txBundleId := BitVec.ofNat 16 bundleId
  bitsPerSample := info.bitsPerSample.toNat
  fpp := BitVec.ofNat 16 fpp
  minRxLatencyNs := info.txLatencyNs.toNat
  mediaAddr := dst

theorem SelfInfo.resolveChan_eq {info : SelfInfo} {chName : String} {index : Nat}
    {bundle : Option PointerToMulticast} {isDefault : Bool} {s : Service}
    (hs : info.service (.channel chName index bundle isDefault) = some s)
    {response : DnsMessage DnsName} (hresponse : s.dnsResponse = some response)
    (hindex : index < 65535) (hfits : ∀ p ∈ bundle, AdvertisedInfo.FitsUsize p)
    (txHostname : String) (aResponse : DnsName → Option (DnsMessage DnsName)) :
    MdnsClient.resolveChan txHostname s.serviceId response aResponse =
      if info.flowsControlPort = 0 then none
      else some (info.announcedChannel txHostname index bundle) := by
  obtain ⟨_, _, hport, _, htxt, _⟩ := SelfInfo.service_fields hs
  dsimp only [SelfInfo.describe] at hport htxt
  rw [MdnsClient.resolveChan, SelfInfo.query_response hs hresponse, hport, htxt]
  split
  · rfl
  · have hresolve := @AdvertisedInfo.resolve_channel info.advertised index bundle hindex hfits
      isDefault _ (.refl _) ⟨info.ipAddress, info.flowsControlPort⟩ txHostname
    rw [Option.bind_eq_bind, Option.bind_map]
    exact hresolve

theorem SelfInfo.resolveBund_eq {info : SelfInfo} {bundleId channelsPerFlow fpp : Nat}
    {dst : SocketAddr} {s : Service}
    (hs : info.service (.bundle bundleId channelsPerFlow fpp dst) = some s)
    {response : DnsMessage DnsName} (hresponse : s.dnsResponse = some response)
    (hid : bundleId < 2 ^ 64) (hchannels : channelsPerFlow < 2 ^ 64) (hfpp : fpp < 2 ^ 64)
    (aResponse : DnsName → Option (DnsMessage DnsName)) :
    MdnsClient.resolveBund s.serviceId response aResponse =
      if info.flowsControlPort = 0 then none
      else some (info.announcedBundle bundleId channelsPerFlow fpp dst) := by
  obtain ⟨_, _, hport, _, htxt, _⟩ := SelfInfo.service_fields hs
  dsimp only [SelfInfo.describe] at hport htxt
  have hword : ∀ n < 2 ^ 64, (BitVec.ofNat 64 n).toNat = n := fun n hn => by
    rw [BitVec.toNat_ofNat, Nat.mod_eq_of_lt hn]
  rw [MdnsClient.resolveBund, SelfInfo.query_response hs hresponse, hport, htxt]
  split
  · rfl
  · have hresolve := @AdvertisedInfo.resolve_bundle info.advertised (BitVec.ofNat 64 bundleId)
      (BitVec.ofNat 64 channelsPerFlow) (BitVec.ofNat 64 fpp) dst _ (.refl _)
    rw [hword _ hid, hword _ hchannels, hword _ hfpp] at hresolve
    rw [Option.bind_eq_bind, Option.bind_map]
    exact hresolve

/-- What fits the numbers of a resolution. -/
def Announcement.Fits : Announcement → Prop
  | .channel _ index pointer _ => index < 65535 ∧ ∀ p ∈ pointer, AdvertisedInfo.FitsUsize p
  | .bundle bundleId channelsPerFlow fpp _ =>
      bundleId < 2 ^ 64 ∧ channelsPerFlow < 2 ^ 64 ∧ fpp < 2 ^ 64
  | _ => True

/-- Whatever response of a device comes to a client that has asked for a channel or a
bundle: if it is taken for an answer, some device had announced one by this name, and what
it announced is what is resolved. -/
theorem resolved_was_announced {D : Type} [DecidableEq D] (host : D → SelfInfo)
    (flags : D → Flag → Bool) (events : List (ReservationEvent D))
    (hfits : ∀ x ∈ ((ReservationWorld.start flags).run host events).announced, x.2.Fits)
    {d : D} {p : MdnsPacket D} (hp : p ∈ ((ReservationWorld.start flags).run host events).sent)
    (hours : p.origin ≠ .foreign) {fqdn : DnsName}
    (haccept : (MdnsClient.new (host d)).accepts fqdn p.ip p.message = true)
    (aResponse : DnsName → Option (DnsMessage DnsName)) :
    (∀ txHostname txChannelName, MdnsClient.chanFqdn txHostname txChannelName = some fqdn →
      ∃ e chName index bundle isDefault, (e, .channel chName index bundle isDefault) ∈
          ((ReservationWorld.start flags).run host events).announced ∧
        eqIgnoreAsciiCase (utf8 (chName ++ "@" ++ (host e).friendlyHostname))
          (utf8 (txChannelName ++ "@" ++ txHostname)) = true ∧
        MdnsClient.resolveChan txHostname fqdn p.message aResponse =
          if (host e).flowsControlPort = 0 then none
          else some ((host e).announcedChannel txHostname index bundle)) ∧
    ∀ fullName, MdnsClient.bundFqdn fullName = some fqdn →
      ∃ e bundleId channelsPerFlow fpp dst, (e, .bundle bundleId channelsPerFlow fpp dst) ∈
          ((ReservationWorld.start flags).run host events).announced ∧
        eqIgnoreAsciiCase (utf8 (display bundleId ++ "@" ++ (host e).friendlyHostname))
          (utf8 fullName) = true ∧
        MdnsClient.resolveBund fqdn p.message aResponse =
          if (host e).flowsControlPort = 0 then none
          else some ((host e).announcedBundle bundleId channelsPerFlow fpp dst) := by
  have haccounted := @ReservationWorld.accounted_run D host _ flags events
  refine ⟨fun txHostname txChannelName hfqdn => ?_, fun fullName hfqdn => ?_⟩
  · obtain ⟨e, a, s, hmem, hs, rfl, hresponse⟩ :=
      haccounted.resolved hp hours (DnsName.length_fromLabels hfqdn) haccept
    obtain ⟨chName, index, bundle, isDefault, rfl, hname⟩ := SelfInfo.channel_of_id hs hfqdn rfl
    obtain ⟨hindex, hpointer⟩ := hfits _ hmem
    exact ⟨e, chName, index, bundle, isDefault, hmem, hname,
      SelfInfo.resolveChan_eq hs hresponse hindex hpointer txHostname aResponse⟩
  · obtain ⟨e, a, s, hmem, hs, rfl, hresponse⟩ :=
      haccounted.resolved hp hours (DnsName.length_fromLabels hfqdn) haccept
    obtain ⟨bundleId, channelsPerFlow, fpp, dst, rfl, hname⟩ := SelfInfo.bundle_of_id hs hfqdn rfl
    obtain ⟨hid, hchannels, hfpp⟩ := hfits _ hmem
    exact ⟨e, bundleId, channelsPerFlow, fpp, dst, hmem, hname,
      SelfInfo.resolveBund_eq hs hresponse hid hchannels hfpp aResponse⟩

/-! ## A channel that is resolved -/

namespace ReservationWorld

/-- "tx 1@Inferno" among the channels. -/
def tx1Name : DnsName :=
  DnsName.ofLabels [utf8 "tx 1@Inferno", utf8 "_netaudio-chan", utf8 "_udp", localLabel]

/-- A device announces its channel, and answers when the other asks for it. -/
def tx1Run : ReservationWorld Bool :=
  (start fun _ _ => false).run twoProcesses
    [.announce true (.channel "TX 1" 0 none false), .query false [.srv, .txt] tx1Name,
      .handle true 0]

theorem tx1Run_response : 1 < tx1Run.sent.length := by decide

end ReservationWorld

open ReservationWorld in
theorem resolved_was_announced_tx1 :
    ∃ e chName index bundle isDefault,
      (e, .channel chName index bundle isDefault) ∈ tx1Run.announced ∧
        eqIgnoreAsciiCase (utf8 (chName ++ "@" ++ (twoProcesses e).friendlyHostname))
          (utf8 ("tx 1" ++ "@" ++ "Inferno")) = true ∧
        MdnsClient.resolveChan "Inferno" tx1Name (tx1Run.sent.get ⟨1, tx1Run_response⟩).message
            (fun _ => none) =
          if (twoProcesses e).flowsControlPort = 0 then none
          else some ((twoProcesses e).announcedChannel "Inferno" index bundle) := by
  have hannounced : tx1Run.announced = [(true, .channel "TX 1" 0 none false)] := rfl
  refine (@resolved_was_announced Bool _ twoProcesses (fun _ _ => false) _ (fun x hx => ?_) false
    (tx1Run.sent.get ⟨1, tx1Run_response⟩) (List.get_mem _ _) (by decide) tx1Name
    (by decide) fun _ => none).1 "Inferno" "tx 1" (by decide)
  change x ∈ tx1Run.announced at hx
  rw [hannounced] at hx
  rw [List.mem_singleton.mp hx]
  exact ⟨by decide, fun p hp => by cases hp⟩

end Inferno
