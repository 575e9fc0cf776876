import Inferno.MdnsDiscovery
import Inferno.SelfInfo

/-!
# Services on the network

The services of searchfire's broadcaster and the message each is answered with, the
services `DeviceMDNSResponder` announces, and the responses that `MdnsClient` takes
for an answer to its query.

A reservation of a multicast address is a service at port 0 under the address's name.
A client takes it for an answer about this address only, and not if it is its own
(`accepts_reservation`); other services are never taken for one
(`SelfInfo.service_not_accepted`).

Messages are those of the DNS library on both sides; a name is its labels in lower
case, as names are compared.
-/

namespace Inferno

open TextFields

/-! ## Names -/

/-- `to_ascii_lowercase` of a byte. -/
def asciiLower (b : Byte) : Byte := if 0x41 ≤ b ∧ b ≤ 0x5a then b + 0x20 else b

theorem asciiLower_asciiLower : ∀ b, asciiLower (asciiLower b) = asciiLower b := by decide

/-- `eq_ignore_ascii_case`. -/
def eqIgnoreAsciiCase (x y : List Byte) : Bool := x.map asciiLower = y.map asciiLower

/-- A `Name`, in lower case. -/
structure DnsName where
  labels : List (List Byte)
  lower : labels.map (List.map asciiLower) = labels
deriving DecidableEq

namespace DnsName

def ofLabels (labels : List (List Byte)) : DnsName where
  labels := labels.map (List.map asciiLower)
  lower := by simp [Function.comp_def, asciiLower_asciiLower]

/-- `from_labels`: a label has 1 to 63 bytes. -/
def fromLabels (labels : List (List Byte)) : Option DnsName :=
  if ∀ label ∈ labels, 0 < label.length ∧ label.length ≤ 63 then some (ofLabels labels) else none

/-- `append_domain`: a name has at most 255 bytes, with the lengths of its labels and the root. -/
def appendDomain (name domain : DnsName) : Option DnsName :=
  if ((name.labels ++ domain.labels).map fun label => label.length + 1).sum + 1 ≤ 255 then
    some ⟨name.labels ++ domain.labels, by rw [List.map_append, name.lower, domain.lower]⟩
  else none

theorem fromLabels_labels {labels : List (List Byte)} {name : DnsName}
    (h : fromLabels labels = some name) : name.labels = labels.map (List.map asciiLower) := by
  unfold fromLabels at h
  split at h
  · rw [← Option.some.inj h, ofLabels]
  · cases h

theorem appendDomain_labels {name domain whole : DnsName}
    (h : name.appendDomain domain = some whole) : whole.labels = name.labels ++ domain.labels := by
  unfold appendDomain at h
  split at h
  · rw [← Option.some.inj h]
  · cases h

theorem labels_injective {m n : DnsName} (h : m.labels = n.labels) : m = n := by
  cases m
  cases n
  cases h
  rfl

end DnsName

/-! ## Services -/

inductive IpAddr where
  | v4 (ip : BitVec 32)
  | v6 (ip : BitVec 128)
deriving DecidableEq

/-- The order of `IpAddr`: IPv4 first. -/
def IpAddr.key : IpAddr → Nat
  | .v4 ip => ip.toNat
  | .v6 ip => 2 ^ 32 + ip.toNat

def IpAddr.record (name : DnsName) : IpAddr → DnsRecord DnsName
  | .v4 ip => ⟨name, some (.a ip)⟩
  | .v6 ip => ⟨name, some (.aaaa ip)⟩

def localLabel : List Byte := utf8 "local"

theorem lower_localLabel : [localLabel].map (List.map asciiLower) = [localLabel] := by decide

/-- `Service`. Its id is its name in its type, and the host is its name in `local`. -/
structure Service where
  serviceType : DnsName
  serviceName : DnsName
  serviceHostname : DnsName
  serviceId : DnsName
  ipAddresses : List IpAddr
  port : BitVec 16
  txt : List (List Byte)
  additionalTxt : Option (DnsName × List Byte)
  id_labels : serviceId.labels = serviceName.labels ++ serviceType.labels
  hostname_labels : serviceHostname.labels = serviceName.labels ++ [localLabel]
deriving DecidableEq

def TXT_MAX_LEN : Nat := 255

namespace Service

/-- `dns_response`; `none` is an error. -/
def dnsResponse (s : Service) : Option (DnsMessage DnsName) :=
  if s.ipAddresses.length < 2 ^ 16 then
    some <|
      if s.port = 0 then {
        isResponse := true
        truncated := false
        queries := []
        answers := s.ipAddresses.map (IpAddr.record s.serviceId)
        additionals := (s.additionalTxt.map fun (name, data) => ⟨name, some (.txt [data])⟩).toList }
      else {
        isResponse := true
        truncated := false
        queries := []
        answers := [
          ⟨s.serviceType, some (.ptr s.serviceId)⟩,
          ⟨s.serviceId, some (.srv s.port s.serviceHostname)⟩,
          ⟨s.serviceId, some (.txt s.txt)⟩]
        additionals := s.ipAddresses.map (IpAddr.record s.serviceHostname) }
  else none

/-- What a service that can be subtyped also matches is left out: none of ours can be. -/
def Matches (s : Service) (query : DnsQuery DnsName) : Bool :=
  s.serviceType = query.name || s.serviceId = query.name

end Service

/-- `ServiceBuilder`. -/
structure ServiceBuilder where
  service : Service

namespace ServiceBuilder

def new (serviceType serviceName : DnsName) (port : BitVec 16) : Option ServiceBuilder :=
  match hlocal : DnsName.fromLabels [localLabel] with
  | none => none
  | some localName =>
      match hid : serviceName.appendDomain serviceType,
        hhost : serviceName.appendDomain localName with
      | some serviceId, some serviceHostname =>
          some ⟨{
            serviceType, serviceName, serviceHostname, serviceId
            ipAddresses := []
            port
            txt := []
            additionalTxt := none
            id_labels := DnsName.appendDomain_labels hid
            hostname_labels := by
              rw [DnsName.appendDomain_labels hhost, DnsName.fromLabels_labels hlocal,
                lower_localLabel] }⟩
      | _, _ => none

def addIpAddress (b : ServiceBuilder) (ip : IpAddr) : ServiceBuilder :=
  ⟨{ b.service with
    ipAddresses :=
      if ip ∈ b.service.ipAddresses then b.service.ipAddresses
      else b.service.ipAddresses.orderedInsert (fun x y => x.key ≤ y.key) ip }⟩

/-- `add_txt_truncated`, which does not truncate. -/
def addTxtTruncated (b : ServiceBuilder) (record : String) : ServiceBuilder :=
  ⟨{ b.service with txt := b.service.txt ++ [utf8 record] }⟩

def addAdditionalTxt (b : ServiceBuilder) (name : DnsName) (data : List Byte) : ServiceBuilder :=
  ⟨{ b.service with additionalTxt := some (name, data) }⟩

/-- `build`; `none` is an error. -/
def build (b : ServiceBuilder) : Option Service :=
  if b.service.ipAddresses = [] then none
  else if ∀ record ∈ b.service.txt, record.length ≤ TXT_MAX_LEN then some b.service
  else none

end ServiceBuilder

/-! ## The broadcaster -/

namespace Broadcaster

/-- `add_service`. -/
def addService (services : List Service) (service : Service) : List Service :=
  match service.dnsResponse with
  | some _ => service :: services.filter (· ≠ service)
  | none => services

/-- `remove_named_service`. -/
def removeNamedService (services : List Service) (serviceType serviceName : DnsName) :
    List Service :=
  services.filter fun s => s.serviceName ≠ serviceName || s.serviceType ≠ serviceType

/-- What `recv_loop` answers to a message. Answers to one that asks for unicast go to the
sender alone. -/
def answers (services : List Service) (message : DnsMessage DnsName) :
    List (Bool × DnsMessage DnsName) :=
  if message.truncated then []
  else message.queries.flatMap fun query =>
    (services.filter (·.Matches query)).filterMap fun service =>
      service.dnsResponse.map fun response => (query.mdnsUnicastResponse, response)

/-- `send_all_services`. -/
def announcements (services : List Service) : List (DnsMessage DnsName) :=
  services.filterMap Service.dnsResponse

end Broadcaster

/-! ## What a device announces -/

/-- `self_origin_from_self_info`. -/
def selfOriginFromSelfInfo (info : SelfInfo) : List Byte :=
  utf8 (hexEncode info.factoryDeviceId.bytes ++ "," ++ display info.processId.toNat)

/-- `service_type`. -/
def serviceType (st : String) : Option DnsName :=
  DnsName.fromLabels [utf8 st, utf8 "_udp", localLabel]

/-- The last labels of a reservation. -/
def inAddrLabels : List (List Byte) := [utf8 "in-addr", localLabel]

def inAddrType : Option DnsName := DnsName.fromLabels inAddrLabels

def responseOrigin : Option DnsName :=
  DnsName.fromLabels [utf8 "_inferno-response-origin", localLabel]

/-- The octets of an address as labels, the last one first. -/
def octetLabels (addr : BitVec 32) : List (List Byte) :=
  [utf8 (display (addr.extractLsb' 0 8).toNat), utf8 (display (addr.extractLsb' 8 8).toNat),
    utf8 (display (addr.extractLsb' 16 8).toNat), utf8 (display (addr.extractLsb' 24 8).toNat)]

def multicastIpToName (addr : BitVec 32) : Option DnsName := DnsName.fromLabels (octetLabels addr)

/-- The services of `DeviceMDNSResponder`, reservations apart. -/
inductive Announcement where
  | arc
  | cmc
  | channel (chName : String) (index : Nat) (bundle : Option PointerToMulticast) (isDefault : Bool)
  | bundle (bundleId channelsPerFlow fpp : Nat) (dst : SocketAddr)

namespace SelfInfo

/-- What is advertised of channels and bundles. -/
def advertised (info : SelfInfo) : AdvertisedInfo where
  bitsPerSample := info.bitsPerSample
  pcmType := info.pcmType
  txLatencyNs := info.txLatencyNs
  sampleRate := info.sampleRate
  txChannelsLen := info.txChannels.length

/-- `0x{:08x}` -/
def displayHex08 (n : Nat) : String :=
  "0x" ++ String.ofList (List.replicate (8 - (displayHex n).length) '0') ++ displayHex n

/-- The type, the name, the port and the strings of a service. -/
def describe (info : SelfInfo) : Announcement → String × String × BitVec 16 × List String
  | .arc => ("_netaudio-arc", info.friendlyHostname, info.arcPort, [
      "arcp_vers=2.2.0", "arcp_min=0.2.4", "router_vers=4.0.2",
      kv "router_info" info.boardName, kv "mf" info.manufacturer, kv "model" info.modelNumber])
  | .cmc => ("_netaudio-cmc", info.friendlyHostname, info.cmcPort, [
      kv "id" (hexEncode info.factoryDeviceId.bytes), kv "process" (display info.processId.toNat),
      "cmcp_vers=1.0.0", "cmcp_min=1.0.0", "server_vers=4.0.2",
      "channels=" ++ displayHex08 (0x60000000 + info.txChannels.length % 256),
      kv "mf" info.manufacturer, kv "model" info.modelNumber, "", ""])
  | .channel chName index bundle isDefault =>
      ("_netaudio-chan", chName ++ "@" ++ info.friendlyHostname, info.flowsControlPort,
        info.advertised.chanTxt index bundle isDefault)
  | .bundle bundleId channelsPerFlow fpp dst =>
      ("_netaudio-bund", display bundleId ++ "@" ++ info.friendlyHostname, info.flowsControlPort,
        info.advertised.bundTxt bundleId channelsPerFlow fpp dst)

/-- The service that is announced; `none` is a panic. -/
def service (info : SelfInfo) (a : Announcement) : Option Service := do
  let (st, name, port, txt) := info.describe a
  let b ← ServiceBuilder.new (← serviceType st) (← DnsName.fromLabels [utf8 name]) port
  (txt.foldl ServiceBuilder.addTxtTruncated (b.addIpAddress (.v4 info.ipAddress))).build

/-- The service of `reserve_multicast_ip`. -/
def reservation (info : SelfInfo) (addr : BitVec 32) : Option Service := do
  let b ← ServiceBuilder.new (← inAddrType) (← multicastIpToName addr) 0
  ((b.addIpAddress (.v4 info.ipAddress)).addAdditionalTxt (← responseOrigin)
    (selfOriginFromSelfInfo info)).build

end SelfInfo

/-! ## The client -/

structure MdnsClient where
  listenIp : BitVec 32
  selfOrigin : List Byte

inductive DnsRecordType where
  | a
  | srv
  | txt

/-- `query_packet`, which asks for no unicast. -/
def queryPacket (types : List DnsRecordType) (fqdn : DnsName) : DnsMessage DnsName where
  isResponse := false
  truncated := false
  queries := types.map fun _ => ⟨fqdn, false⟩
  answers := []
  additionals := []

namespace MdnsClient

def new (info : SelfInfo) : MdnsClient where
  listenIp := info.ipAddress
  selfOrigin := selfOriginFromSelfInfo info

def isLoopback (ip : BitVec 32) : Bool := ip.extractLsb' 24 8 = 127

/-- The origin in an additional record. -/
def originOf (fqdn : DnsName) (record : DnsRecord DnsName) : Option (List Byte) :=
  if record.name = fqdn then
    match record.data with
    | some (.txt txtData) => txtData.head?
    | _ => none
  else none

/-- The filter of `do_single_query`: a response from here counts unless it is our own. -/
def considers (c : MdnsClient) (originIp : BitVec 32) (response : DnsMessage DnsName) : Bool :=
  if isLoopback originIp || originIp == c.listenIp then
    match responseOrigin with
    | some fqdn =>
        match response.additionals.findSome? (originOf fqdn) with
        | some data => !eqIgnoreAsciiCase data c.selfOrigin
        | none => true
    | none => true
  else true

/-- `single_query` returns this message if it receives it in time. -/
def accepts (c : MdnsClient) (fqdn : DnsName) (originIp : BitVec 32)
    (message : DnsMessage DnsName) : Bool :=
  message.isResponse && c.considers originIp message &&
    message.answers.any fun answer => answer.name = fqdn

/-- The name `is_multicast_ip_already_used` asks for. -/
def addrFqdn (addr : BitVec 32) : Option DnsName :=
  DnsName.fromLabels (octetLabels addr ++ inAddrLabels)

end MdnsClient

/-! ## Text -/

theorem utf8_injective {s t : String} (h : utf8 s = utf8 t) : s = t := by
  have hs := fromUtf8_utf8 s
  rw [h, fromUtf8_utf8] at hs
  exact (Option.some.inj hs).symm

theorem display_injective {m n : Nat} (h : display m = display n) : m = n := by
  have hm : fromStrRadix 10 (max m n + 1) (display m) = some m :=
    fromStrRadix_repr (Nat.lt_succ_of_le (Nat.le_max_left _ _))
  have hn : fromStrRadix 10 (max m n + 1) (display n) = some n :=
    fromStrRadix_repr (Nat.lt_succ_of_le (Nat.le_max_right _ _))
  rw [h, hn] at hm
  exact (Option.some.inj hm).symm

theorem utf8_ascii {s : String} (h : ∀ c ∈ s.toList, c.toNat < 0x80) :
    utf8 s = s.toList.map fun c => BitVec.ofNat 8 c.toNat := by
  have hchar : ∀ c : Char, c.toNat < 0x80 → String.utf8EncodeChar c = [UInt8.ofNat c.toNat] := by
    intro c hc
    unfold String.utf8EncodeChar
    exact if_pos (Nat.le_of_lt_succ hc)
  rw [utf8, ← String.utf8Encode_toList, List.utf8Encode, List.data_toByteArray, List.toList_toArray]
  generalize s.toList = cs at h
  induction cs with
  | nil => rfl
  | cons c cs ih =>
      rw [List.flatMap_cons, hchar c (h c List.mem_cons_self), List.map_append, List.map_cons,
        ih fun c' hc' => h c' (List.mem_cons_of_mem _ hc')]
      rfl

/-- Text of ASCII without capitals. -/
def IsLower (s : String) : Prop :=
  ∀ c ∈ s.toList, c.toNat < 0x41 ∨ 0x5a < c.toNat ∧ c.toNat < 0x80

theorem IsLower.map_asciiLower {s : String} (h : IsLower s) :
    (utf8 s).map asciiLower = utf8 s := by
  have hascii : ∀ c ∈ s.toList, c.toNat < 0x80 := fun c hc => by
    rcases h c hc with hlt | ⟨_, hlt⟩
    · omega
    · exact hlt
  rw [utf8_ascii hascii, List.map_map]
  refine List.map_congr_left fun c hc => ?_
  rw [Function.comp_apply, asciiLower, if_neg]
  intro hcap
  have hlt := hascii c hc
  have hmod : c.toNat % 256 = c.toNat := Nat.mod_eq_of_lt (by omega)
  have h1 : 0x41 ≤ c.toNat := by simpa [BitVec.le_def, hmod] using hcap.1
  have h2 : c.toNat ≤ 0x5a := by simpa [BitVec.le_def, hmod] using hcap.2
  rcases h c hc with h3 | ⟨h3, _⟩ <;> omega

theorem IsLower.append {s t : String} (hs : IsLower s) (ht : IsLower t) : IsLower (s ++ t) := by
  intro c hc
  rw [String.toList_append] at hc
  exact (List.mem_append.mp hc).elim (hs c) (ht c)

theorem isLower_display (n : Nat) : IsLower (display n) := by
  intro c hc
  have hdigit : c.isDigit := isDigit_toDigits (by simpa [display, Nat.repr] using hc)
  have hle : c.toNat ≤ 0x39 := by
    simp [Char.isDigit] at hdigit
    exact hdigit.2
  omega

theorem isLower_hexEncode (bytes : List Byte) : IsLower (hexEncode bytes) := by
  have hdigit : ∀ n < 16, (Nat.digitChar n).toNat < 0x41 ∨
      0x5a < (Nat.digitChar n).toNat ∧ (Nat.digitChar n).toNat < 0x80 := by decide
  intro c hc
  rw [hexEncode, String.toList_ofList] at hc
  obtain ⟨b, _, hb⟩ := List.mem_flatMap.mp hc
  have hlt := b.isLt
  simp only [List.mem_cons, List.not_mem_nil, or_false] at hb
  rcases hb with rfl | rfl
  · exact hdigit _ (by omega)
  · exact hdigit _ (by omega)

theorem hexEncode_toList (b : Byte) (bytes : List Byte) : (hexEncode (b :: bytes)).toList =
    Nat.digitChar (b.toNat / 16) :: Nat.digitChar (b.toNat % 16) :: (hexEncode bytes).toList := by
  rw [hexEncode, hexEncode, String.toList_ofList, String.toList_ofList, List.flatMap_cons]
  rfl

theorem hexEncode_length (bytes : List Byte) :
    (hexEncode bytes).toList.length = 2 * bytes.length := by
  induction bytes with
  | nil => rfl
  | cons b bytes ih =>
      rw [hexEncode_toList, List.length_cons, List.length_cons, ih, List.length_cons]
      omega

theorem hexEncode_injective {bytes bytes' : List Byte} (h : hexEncode bytes = hexEncode bytes') :
    bytes = bytes' := by
  have hdigit : ∀ m < 16, ∀ n < 16, Nat.digitChar m = Nat.digitChar n → m = n := by decide
  induction bytes generalizing bytes' with
  | nil =>
      cases bytes' with
      | nil => rfl
      | cons b bytes' =>
          have hlist := congrArg String.toList h
          rw [hexEncode_toList] at hlist
          cases hlist
  | cons b bytes ih =>
      have hlist := congrArg String.toList h
      cases bytes' with
      | nil =>
          rw [hexEncode_toList] at hlist
          cases hlist
      | cons b' bytes' =>
          rw [hexEncode_toList, hexEncode_toList] at hlist
          obtain ⟨hhigh, hrest⟩ := List.cons.inj hlist
          obtain ⟨hlow, hrest⟩ := List.cons.inj hrest
          have hlt := b.isLt
          have hlt' := b'.isLt
          have h1 := hdigit _ (by omega) _ (by omega) hhigh
          have h2 := hdigit _ (by omega) _ (by omega) hlow
          have hbyte : b = b' := BitVec.eq_of_toNat_eq (by omega)
          rw [ih (String.toList_inj.mp hrest), hbyte]

/-- Only devices of one id and process have the same origin, in any case. -/
theorem selfOrigin_eq_iff {info info' : SelfInfo} :
    eqIgnoreAsciiCase (selfOriginFromSelfInfo info) (selfOriginFromSelfInfo info') = true ↔
      info.factoryDeviceId.bytes = info'.factoryDeviceId.bytes ∧
        info.processId = info'.processId := by
  have hlower : ∀ info : SelfInfo,
      (selfOriginFromSelfInfo info).map asciiLower = selfOriginFromSelfInfo info := by
    intro info
    have hcomma : IsLower "," := by
      intro c hc
      obtain rfl : c = ',' := by simpa using hc
      exact Or.inl (by decide)
    exact (((isLower_hexEncode _).append hcomma).append (isLower_display _)).map_asciiLower
  rw [eqIgnoreAsciiCase, decide_eq_true_iff, hlower, hlower]
  constructor
  · intro h
    have htext := congrArg String.toList (utf8_injective h)
    simp only [String.append_assoc, String.toList_append] at htext
    obtain ⟨hid, hrest⟩ := List.append_inj htext <| by
      rw [hexEncode_length, hexEncode_length, info.factoryDeviceId.length_eq,
        info'.factoryDeviceId.length_eq]
    have hprocess := display_injective (String.toList_inj.mp (List.append_cancel_left hrest))
    exact ⟨hexEncode_injective (String.toList_inj.mp hid), BitVec.eq_of_toNat_eq hprocess⟩
  · rintro ⟨hid, hprocess⟩
    rw [selfOriginFromSelfInfo, hid, hprocess, selfOriginFromSelfInfo]

/-! ## The names of addresses -/

theorem octetLabels_injective {a b : BitVec 32} (h : octetLabels a = octetLabels b) : a = b := by
  have hoctet : ∀ i, utf8 (display (a.extractLsb' i 8).toNat) =
      utf8 (display (b.extractLsb' i 8).toNat) →
      a.extractLsb' i 8 = b.extractLsb' i 8 := fun i hi =>
    BitVec.eq_of_toNat_eq (display_injective (utf8_injective hi))
  simp only [octetLabels, List.cons.injEq, and_true] at h
  obtain ⟨h0, h1, h2, h3⟩ := h
  rw [← fromBeBytes_toBeBytes a, hoctet 24 h3, hoctet 16 h2, hoctet 8 h1, hoctet 0 h0,
    fromBeBytes_toBeBytes]

theorem display_octet_length (b : Byte) :
    0 < (utf8 (display b.toNat)).length ∧ (utf8 (display b.toNat)).length ≤ 3 := by
  revert b
  decide

theorem lower_octetLabels (addr : BitVec 32) :
    (octetLabels addr).map (List.map asciiLower) = octetLabels addr := by
  simp only [octetLabels, List.map_cons, List.map_nil, (isLower_display _).map_asciiLower]

theorem lower_inAddrLabels : inAddrLabels.map (List.map asciiLower) = inAddrLabels := by decide

/-- A name of labels in lower case. -/
theorem DnsName.fromLabels_lower {labels : List (List Byte)}
    (hlower : labels.map (List.map asciiLower) = labels)
    (hlength : ∀ label ∈ labels, 0 < label.length ∧ label.length ≤ 63) :
    DnsName.fromLabels labels = some ⟨labels, hlower⟩ := by
  rw [fromLabels, if_pos hlength]
  exact congrArg some (labels_injective hlower)

theorem octetLabels_length {addr : BitVec 32} {label : List Byte} (h : label ∈ octetLabels addr) :
    0 < label.length ∧ label.length ≤ 3 := by
  simp only [octetLabels, List.mem_cons, List.not_mem_nil, or_false] at h
  rcases h with rfl | rfl | rfl | rfl <;> exact display_octet_length _

/-- The name of an address, reversed and without its type. -/
def ipName (addr : BitVec 32) : DnsName := ⟨octetLabels addr, lower_octetLabels addr⟩

def inAddrName : DnsName := ⟨inAddrLabels, lower_inAddrLabels⟩

def addrName (addr : BitVec 32) : DnsName :=
  ⟨octetLabels addr ++ inAddrLabels, by rw [List.map_append, lower_octetLabels, lower_inAddrLabels]⟩

def originName : DnsName := ⟨[utf8 "_inferno-response-origin", localLabel], by decide⟩

theorem multicastIpToName_eq (addr : BitVec 32) : multicastIpToName addr = some (ipName addr) :=
  DnsName.fromLabels_lower _ fun _ hlabel => by
    have hlen := octetLabels_length hlabel
    omega

theorem inAddrType_eq : inAddrType = some inAddrName := by decide

theorem responseOrigin_eq : responseOrigin = some originName := by decide

theorem addrFqdn_eq (addr : BitVec 32) : MdnsClient.addrFqdn addr = some (addrName addr) := by
  refine DnsName.fromLabels_lower _ fun label hlabel => ?_
  rcases List.mem_append.mp hlabel with hoctet | hrest
  · have hlen := octetLabels_length hoctet
    omega
  · have hin : ∀ label ∈ inAddrLabels, 0 < label.length ∧ label.length ≤ 63 := by decide
    exact hin label hrest

theorem addrName_injective {a b : BitVec 32} (h : addrName a = addrName b) : a = b :=
  octetLabels_injective (List.append_cancel_right (congrArg DnsName.labels h))

theorem ipName_injective {a b : BitVec 32} (h : ipName a = ipName b) : a = b :=
  octetLabels_injective (congrArg DnsName.labels h)

/-! ## Reservations -/

/-- The service that reserves an address. -/
def reservationOf (info : SelfInfo) (addr : BitVec 32) : Service where
  serviceType := inAddrName
  serviceName := ipName addr
  serviceHostname := ⟨octetLabels addr ++ [localLabel], by
    rw [List.map_append, lower_octetLabels, lower_localLabel]⟩
  serviceId := addrName addr
  ipAddresses := [.v4 info.ipAddress]
  port := 0
  txt := []
  additionalTxt := some (originName, selfOriginFromSelfInfo info)
  id_labels := rfl
  hostname_labels := rfl

/-- A service is told by what it was built from. -/
theorem Service.eq_of_fields {s s' : Service} (htype : s.serviceType = s'.serviceType)
    (hname : s.serviceName = s'.serviceName) (hips : s.ipAddresses = s'.ipAddresses)
    (hport : s.port = s'.port) (htxt : s.txt = s'.txt)
    (hadditional : s.additionalTxt = s'.additionalTxt) : s = s' := by
  have hid : s.serviceId = s'.serviceId := DnsName.labels_injective <| by
    rw [s.id_labels, s'.id_labels, htype, hname]
  have hhost : s.serviceHostname = s'.serviceHostname := DnsName.labels_injective <| by
    rw [s.hostname_labels, s'.hostname_labels, hname]
  cases s
  cases s'
  simp_all only

theorem ServiceBuilder.new_fields {serviceType serviceName : DnsName} {port : BitVec 16}
    {b : ServiceBuilder} (h : ServiceBuilder.new serviceType serviceName port = some b) :
    b.service.serviceType = serviceType ∧ b.service.serviceName = serviceName ∧
      b.service.port = port ∧ b.service.ipAddresses = [] ∧ b.service.txt = [] ∧
      b.service.additionalTxt = none := by
  unfold ServiceBuilder.new at h
  split at h
  · cases h
  · split at h
    · obtain rfl := Option.some.inj h
      exact ⟨rfl, rfl, rfl, rfl, rfl, rfl⟩
    · cases h

theorem localName_eq : DnsName.fromLabels [localLabel] = some ⟨[localLabel], lower_localLabel⟩ := by
  decide

theorem DnsName.appendDomain_isSome {name domain : DnsName}
    (h : ((name.labels ++ domain.labels).map fun label => label.length + 1).sum + 1 ≤ 255) :
    ∃ whole, name.appendDomain domain = some whole := by
  rw [appendDomain, if_pos h]
  exact ⟨_, rfl⟩

theorem ServiceBuilder.new_isSome {serviceType serviceName id host : DnsName} (port : BitVec 16)
    (hid : serviceName.appendDomain serviceType = some id)
    (hhost : serviceName.appendDomain ⟨[localLabel], lower_localLabel⟩ = some host) :
    ∃ b, ServiceBuilder.new serviceType serviceName port = some b := by
  unfold ServiceBuilder.new
  split
  · next hnone =>
      rw [localName_eq] at hnone
      cases hnone
  next localName hlocal =>
  rw [localName_eq] at hlocal
  obtain rfl := Option.some.inj hlocal
  split
  · exact ⟨_, rfl⟩
  · next hnot => exact absurd hhost (hnot _ _ hid)

/-- Reserving an address never panics. -/
theorem reservation_eq (info : SelfInfo) (addr : BitVec 32) :
    info.reservation addr = some (reservationOf info addr) := by
  have hsum : ((octetLabels addr).map fun label => label.length + 1).sum ≤ 16 := by
    have h0 := (display_octet_length (addr.extractLsb' 0 8)).2
    have h1 := (display_octet_length (addr.extractLsb' 8 8)).2
    have h2 := (display_octet_length (addr.extractLsb' 16 8)).2
    have h3 := (display_octet_length (addr.extractLsb' 24 8)).2
    simp only [octetLabels, List.map_cons, List.map_nil, List.sum_cons, List.sum_nil]
    omega
  obtain ⟨id, hid⟩ := @DnsName.appendDomain_isSome (ipName addr) inAddrName <| by
    have hrest : (inAddrLabels.map fun label => label.length + 1).sum = 14 := by decide
    rw [List.map_append, List.sum_append]
    exact (Nat.add_le_add_right (Nat.add_le_add hsum hrest.le) 1).trans (by decide)
  obtain ⟨host, hhost⟩ := @DnsName.appendDomain_isSome (ipName addr)
      ⟨[localLabel], lower_localLabel⟩ <| by
    have hrest : ([localLabel].map fun label => label.length + 1).sum = 6 := by decide
    rw [List.map_append, List.sum_append]
    exact (Nat.add_le_add_right (Nat.add_le_add hsum hrest.le) 1).trans (by decide)
  obtain ⟨b, hb⟩ := ServiceBuilder.new_isSome 0 hid hhost
  obtain ⟨htype, hname, hport, hips, htxt, _⟩ := ServiceBuilder.new_fields hb
  have hbuild : ∀ b : ServiceBuilder, b.service.ipAddresses ≠ [] → b.service.txt = [] →
      b.build = some b.service := by
    intro b hne hnone
    rw [ServiceBuilder.build, if_neg hne, if_pos]
    rw [hnone]
    exact fun _ h => absurd h List.not_mem_nil
  have hadd : (b.addIpAddress (.v4 info.ipAddress)).service.ipAddresses = [.v4 info.ipAddress] := by
    rw [ServiceBuilder.addIpAddress, hips]
    rfl
  rw [SelfInfo.reservation, inAddrType_eq, multicastIpToName_eq, responseOrigin_eq]
  simp only [Option.bind_eq_bind, Option.bind_some, hb]
  refine (hbuild ((b.addIpAddress _).addAdditionalTxt _ _) ?_ htxt).trans ?_
  · exact hadd ▸ List.cons_ne_nil _ _
  · exact congrArg some (Service.eq_of_fields htype hname hadd hport htxt rfl)

/-- What a reservation is answered with. -/
def reservationResponse (info : SelfInfo) (addr : BitVec 32) : DnsMessage DnsName where
  isResponse := true
  truncated := false
  queries := []
  answers := [⟨addrName addr, some (.a info.ipAddress)⟩]
  additionals := [⟨originName, some (.txt [selfOriginFromSelfInfo info])⟩]

theorem reservation_dnsResponse (info : SelfInfo) (addr : BitVec 32) :
    (reservationOf info addr).dnsResponse = some (reservationResponse info addr) := rfl

/-- A client considers a reservation unless it comes from its own address and device. -/
theorem considers_reservation (me other : SelfInfo) (originIp addr : BitVec 32) :
    (MdnsClient.new me).considers originIp (reservationResponse other addr) = true ↔
      ¬((MdnsClient.isLoopback originIp = true ∨ originIp = me.ipAddress) ∧
        other.factoryDeviceId.bytes = me.factoryDeviceId.bytes ∧
        other.processId = me.processId) := by
  have horigin : (reservationResponse other addr).additionals.findSome?
      (MdnsClient.originOf originName) = some (selfOriginFromSelfInfo other) := by
    rw [reservationResponse, List.findSome?_cons, MdnsClient.originOf, if_pos rfl]
    rfl
  rw [MdnsClient.considers, responseOrigin_eq]
  dsimp only
  rw [horigin]
  dsimp only
  rw [← selfOrigin_eq_iff]
  split
  · next hlocal =>
      rw [Bool.or_eq_true, beq_iff_eq] at hlocal
      rw [Bool.not_eq_true', ← Bool.not_eq_true]
      exact ⟨fun hne hboth => hne hboth.2, fun hne heq => hne ⟨hlocal, heq⟩⟩
  · next hlocal =>
      rw [Bool.or_eq_true, beq_iff_eq] at hlocal
      exact ⟨fun _ hboth => hlocal hboth.1, fun _ => rfl⟩

/-- It takes one for an answer about an address if it reserves this address and is
considered. -/
theorem accepts_reservation (me other : SelfInfo) (originIp addr addr' : BitVec 32) :
    (MdnsClient.new me).accepts (addrName addr) originIp (reservationResponse other addr') = true ↔
      addr' = addr ∧ ¬((MdnsClient.isLoopback originIp = true ∨ originIp = me.ipAddress) ∧
        other.factoryDeviceId.bytes = me.factoryDeviceId.bytes ∧
        other.processId = me.processId) := by
  have hname : ((reservationResponse other addr').answers.any fun answer =>
      answer.name = addrName addr) = true ↔ addr' = addr := by
    rw [reservationResponse, List.any_cons, List.any_nil, Bool.or_false, decide_eq_true_iff]
    exact ⟨addrName_injective, fun heq => heq ▸ rfl⟩
  rw [MdnsClient.accepts, Bool.and_eq_true, Bool.and_eq_true, hname, considers_reservation]
  exact ⟨fun ⟨⟨_, h⟩, heq⟩ => ⟨heq, h⟩, fun ⟨heq, h⟩ => ⟨⟨rfl, h⟩, heq⟩⟩

/-! ## Answers -/

theorem Broadcaster.mem_answers {services : List Service} {message : DnsMessage DnsName}
    {answer : Bool × DnsMessage DnsName} : answer ∈ answers services message ↔
      message.truncated = false ∧ ∃ query ∈ message.queries, ∃ s ∈ services,
        s.Matches query = true ∧ s.dnsResponse = some answer.2 ∧
          answer.1 = query.mdnsUnicastResponse := by
  unfold answers
  split
  · next htrunc => simp [htrunc]
  · next htrunc =>
      simp only [List.mem_flatMap, List.mem_filterMap, List.mem_filter, Option.map_eq_some_iff,
        Bool.not_eq_true _ ▸ htrunc, true_and]
      constructor
      · rintro ⟨query, hquery, s, ⟨hs, hmatch⟩, response, hresponse, rfl⟩
        exact ⟨query, hquery, s, hs, hmatch, hresponse, rfl⟩
      · rintro ⟨query, hquery, s, hs, hmatch, hresponse, hunicast⟩
        exact ⟨query, hquery, s, ⟨hs, hmatch⟩, _, hresponse, by rw [← hunicast]⟩

/-- A query for an address is answered with its reservation. -/
theorem Broadcaster.reservation_answered {services : List Service} {info : SelfInfo}
    {addr : BitVec 32} (h : reservationOf info addr ∈ services) :
    (false, reservationResponse info addr) ∈
      answers services (queryPacket [.a] (addrName addr)) := by
  refine mem_answers.mpr ⟨rfl, _, List.mem_singleton.mpr rfl, _, h, ?_,
    reservation_dnsResponse info addr, rfl⟩
  rw [Service.Matches, Bool.or_eq_true, decide_eq_true_iff, decide_eq_true_iff]
  exact Or.inr rfl

/-- Answers are named by the type or the id of the service. -/
theorem Service.answer_name {s : Service} {response : DnsMessage DnsName}
    (h : s.dnsResponse = some response) {answer : DnsRecord DnsName}
    (hanswer : answer ∈ response.answers) :
    answer.name = s.serviceType ∨ answer.name = s.serviceId := by
  unfold dnsResponse at h
  split at h
  swap
  · cases h
  obtain rfl := Option.some.inj h
  split at hanswer
  · obtain ⟨ip, _, rfl⟩ := List.mem_map.mp hanswer
    cases ip <;> exact Or.inr rfl
  · simp only [List.mem_cons, List.not_mem_nil, or_false] at hanswer
    rcases hanswer with rfl | rfl | rfl
    · exact Or.inl rfl
    · exact Or.inr rfl
    · exact Or.inr rfl

/-- What an announced service is made of. -/
theorem SelfInfo.service_fields {info : SelfInfo} {a : Announcement} {s : Service}
    (h : info.service a = some s) :
    Inferno.serviceType (info.describe a).1 = some s.serviceType ∧
      DnsName.fromLabels [utf8 (info.describe a).2.1] = some s.serviceName ∧
      s.port = (info.describe a).2.2.1 ∧ s.ipAddresses = [.v4 info.ipAddress] ∧
      s.txt = (info.describe a).2.2.2.map utf8 ∧ s.additionalTxt = none := by
  have htxts : ∀ (txt : List String) (b : ServiceBuilder),
      txt.foldl ServiceBuilder.addTxtTruncated b =
        ⟨{ b.service with txt := b.service.txt ++ txt.map utf8 }⟩ := by
    intro txt
    induction txt with
    | nil => intro b; simp
    | cons record txt ih => intro b; rw [List.foldl_cons, ih]; simp [ServiceBuilder.addTxtTruncated]
  simp only [SelfInfo.service, Option.bind_eq_bind, Option.bind_eq_some_iff] at h
  obtain ⟨t, ht, n, hn, b, hb, hs⟩ := h
  obtain ⟨htype, hname, hport, hips, htxt, hadditional⟩ := ServiceBuilder.new_fields hb
  rw [htxts, ServiceBuilder.build] at hs
  split at hs
  · cases hs
  split at hs
  swap
  · cases hs
  obtain rfl := Option.some.inj hs
  refine ⟨?_, ?_, hport, ?_, ?_, hadditional⟩
  · exact ht.trans (congrArg some htype.symm)
  · exact hn.trans (congrArg some hname.symm)
  · rw [ServiceBuilder.addIpAddress, hips]
    rfl
  · exact congrArg (· ++ _) htxt

/-- No announced service answers for an address. -/
theorem SelfInfo.service_not_accepted {info : SelfInfo} {a : Announcement} {s : Service}
    (h : info.service a = some s) {response : DnsMessage DnsName}
    (hresponse : s.dnsResponse = some response) (c : MdnsClient) (addr originIp : BitVec 32) :
    c.accepts (addrName addr) originIp response = false := by
  have htail : ∀ labels : List (List Byte),
      labels ++ [utf8 "_udp", localLabel] ≠ octetLabels addr ++ inAddrLabels := by
    intro labels heq
    have hlast := (List.append_inj' heq rfl).2
    exact absurd hlast (by decide)
  have htype : s.serviceType.labels =
      [(utf8 (info.describe a).1).map asciiLower] ++ [utf8 "_udp", localLabel] := by
    have hrest : [utf8 "_udp", localLabel].map (List.map asciiLower) =
        [utf8 "_udp", localLabel] := by decide
    rw [DnsName.fromLabels_labels (SelfInfo.service_fields h).1, List.map_cons, hrest]
    rfl
  rw [Bool.eq_false_iff]
  intro haccept
  rw [MdnsClient.accepts, Bool.and_eq_true, List.any_eq_true] at haccept
  obtain ⟨_, answer, hanswer, hname⟩ := haccept
  rw [decide_eq_true_iff] at hname
  rcases Service.answer_name hresponse hanswer with heq | heq
  · have hlabels := congrArg DnsName.labels (heq.symm.trans hname)
    rw [htype] at hlabels
    exact htail _ hlabels
  · have hlabels := congrArg DnsName.labels (heq.symm.trans hname)
    rw [s.id_labels, htype, ← List.append_assoc] at hlabels
    exact htail _ hlabels

end Inferno
