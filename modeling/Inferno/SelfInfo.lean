import Inferno.MdnsResolve
import Inferno.WasapiConfig

/-!
# What a device says of itself

`create_self_info`. Names are cut at a number of bytes, which panics within a
character, and three ports are counted from the one in `ALT_PORT`: all goes well
exactly if every name that is too long has a character end at its limit, and the
last port is a port (`createSelfInfo_safe_iff`). The names are never too long.

The interfaces, the address of the host and the variable for the model number
are those of the system.
-/

namespace Inferno

open ByteBuffer TextFields Utf8Slices

/-! ## The system -/

structure NetworkInterface where
  name : String
  /-- `ipv4`: addresses and netmasks. -/
  ipv4 : List (BitVec 32 × BitVec 32)
  transmitSpeed : Option (BitVec 64)
  receiveSpeed : Option (BitVec 64)
  /-- The addresses of `gateway`. -/
  gateway : Option (List (BitVec 32))
  macAddr : Option (BitVec 48)

structure SystemInfo where
  interfaces : List NetworkInterface
  /-- `local_ip`, if it is of IPv4. -/
  localIp : Option (BitVec 32)
  /-- `DANTE_MODEL_NUMBER`. -/
  modelNumberVar : Option String

/-! ## Hexadecimal text -/

/-- `hex::encode`. -/
def hexEncode (bytes : List Byte) : String :=
  String.ofList (bytes.flatMap fun b => [Nat.digitChar (b.toNat / 16), Nat.digitChar (b.toNat % 16)])

/-- The loop of `hex::decode_to_slice`: what is written, and whether all was. -/
def decodePairs : List Byte → List Byte × Bool
  | high :: low :: rest =>
      match digitValue 16 (Char.ofNat high.toNat), digitValue 16 (Char.ofNat low.toNat) with
      | some h, some l =>
          let (out, ok) := decodePairs rest
          (BitVec.ofNat 8 (16 * h + l) :: out, ok)
      | _, _ => ([], false)
  | _ => ([], true)

/-- Eight bytes. -/
structure DeviceId where
  bytes : List Byte
  length_eq : bytes.length = 8

/-- `hex::decode_to_slice` into eight zeros: what is there afterwards, and
whether it is the text's. -/
def decodeDeviceId (idstr : String) : DeviceId × Bool :=
  let data := utf8 idstr
  let (out, ok) :=
    if data.length % 2 ≠ 0 ∨ data.length / 2 ≠ 8 then ([], false) else decodePairs data
  (⟨(out ++ List.replicate 8 0).take 8, by simp⟩, ok)

/-- `devid[2..6]` is the address, and `devid[6..8]` the process. -/
def DeviceId.withAddress (id : DeviceId) (myIpv4 : BitVec 32) (processId : BitVec 16) : DeviceId :=
  ⟨id.bytes.take 2 ++ be32 myIpv4 ++ be16 processId, by simp [id.length_eq]⟩

def DeviceId.zero : DeviceId := ⟨List.replicate 8 0, List.length_replicate⟩

/-! ## The device -/

/-- `DeviceInfo`, as it is created. -/
structure SelfInfo where
  ipAddress : BitVec 32
  netmask : BitVec 32
  gateway : BitVec 32
  macAddress : BitVec 48
  linkSpeed : BitVec 16
  boardName : String
  manufacturer : String
  modelName : String
  modelNumber : String
  factoryDeviceId : DeviceId
  processId : BitVec 16
  vendorString : String
  friendlyHostname : String
  factoryHostname : String
  rxChannels : List ArcChannel
  txChannels : List ArcChannel
  bitsPerSample : BitVec 8
  pcmType : BitVec 8
  latencyNs : BitVec 64
  txLatencyNs : BitVec 32
  sampleRate : BitVec 32
  arcPort : BitVec 16
  cmcPort : BitVec 16
  flowsControlPort : BitVec 16
  infoRequestPort : BitVec 16

namespace SelfInfo

def DEFAULT_PROCESS_ID : Nat := 0
def DEFAULT_RX_LATENCY_NS : Nat := 10000000
def DEFAULT_TX_LATENCY_NS : Nat := 10000000
def DEFAULT_SAMPLE_RATE : Nat := 48000
def HOSTNAME_MAX_LEN : Nat := 31
def MAX_SHORT_APPNAME_LEN : Nat := 14
def MAX_APPNAME_FOR_HOSTNAME : Nat := 22

end SelfInfo

open SelfInfo (DEFAULT_PROCESS_ID DEFAULT_RX_LATENCY_NS DEFAULT_TX_LATENCY_NS DEFAULT_SAMPLE_RATE
  HOSTNAME_MAX_LEN MAX_SHORT_APPNAME_LEN MAX_APPNAME_FOR_HOSTNAME)

/-- `trim_start_matches("0x")`. -/
def trimStart0x : List Char → List Char
  | '0' :: 'x' :: rest => trimStart0x rest
  | s => s

/-- `model_number`. -/
def modelNumber (var : Option String) : String :=
  match var.bind fun s => fromStrRadix 16 (2 ^ 32) (String.ofList (trimStart0x s.toList)) with
  | some num =>
      let digits := Nat.toDigits 16 num
      "_" ++ String.ofList (List.replicate (14 - digits.length) '0' ++ digits) ++ "b"
  | none => "_000000000000000b"

/-- `BTreeMap<String, String>`. -/
abbrev SettingsMap := String → Option String

/-- A number of the settings, or its default. -/
def settingsNumber (settings : SettingsMap) (key : String) (bound d : Nat) : Nat :=
  ((settings key).bind (fromStrRadix 10 bound)).getD d

/-- `my_ipv4`. -/
def myIpv4 (sys : SystemInfo) (myIp : Option (BitVec 32)) (settings : SettingsMap) : BitVec 32 :=
  let bindIp := (settings "BIND_IP").bind fun ipstr =>
    (parseIpv4 ipstr).or <|
      (sys.interfaces.find? (·.name = ipstr)).bind fun iface => iface.ipv4.head?.map Prod.fst
  -- 127.0.0.1
  ((myIp.or bindIp).or sys.localIp).getD 0x7f000001

/-- What the interface with an address says of the network. -/
structure LinkInfo where
  netmask : BitVec 32
  gateway : BitVec 32
  macAddress : BitVec 48
  speed : Nat

/-- The loop over the interfaces. -/
def linkInfo (myIpv4 : BitVec 32) : List NetworkInterface → LinkInfo
  | [] => ⟨0, 0, 0, 0⟩
  | iface :: interfaces =>
      match iface.ipv4.find? (·.1 = myIpv4) with
      | some (_, netmask) =>
          { netmask := netmask
            gateway := ((iface.gateway.getD []).find? fun gw =>
              gw &&& netmask = myIpv4 &&& netmask).getD 0
            macAddress := iface.macAddr.getD 0
            speed := max (iface.transmitSpeed.getD 0).toNat (iface.receiveSpeed.getD 0).toNat /
              1000000 }
      | none => linkInfo myIpv4 interfaces

/-- The device's id. -/
def createDeviceId (settings : SettingsMap) (myIpv4 : BitVec 32) (processId : BitVec 16) :
    DeviceId :=
  match settings "DEVICE_ID" with
  | some idstr =>
      let (devid, ok) := decodeDeviceId idstr
      if ok then devid else devid.withAddress myIpv4 processId
  | none => DeviceId.zero.withAddress myIpv4 processId

/-- `altport + n`. -/
def portAfter (checked : Bool) (altport n : Nat) : Option (BitVec 16) :=
  if checked ∧ 2 ^ 16 ≤ altport + n then none else some (BitVec.ofNat 16 (altport + n))

/-- `ALT_PORT`, if it is accepted. -/
def altPort (settings : SettingsMap) : Option Nat := (settings "ALT_PORT").bind parseU16

/-- What `ALT_PORT` does to the ports. -/
def SelfInfo.withAltPort (checked : Bool) (result : SelfInfo) : Option Nat → Option SelfInfo
  | none => some result
  | some altport => do
      return { result with
        arcPort := BitVec.ofNat 16 altport
        cmcPort := ← portAfter checked altport 1
        flowsControlPort := ← portAfter checked altport 2
        infoRequestPort := ← portAfter checked altport 3 }

/-- `friendly_hostname`. -/
def createFriendlyHostname (appName : String) (settings : SettingsMap) (myIpv4 : BitVec 32) :
    Option String :=
  match settings "NAME" with
  | some s => limited HOSTNAME_MAX_LEN s
  | none => (limited MAX_APPNAME_FOR_HOSTNAME appName).map fun appPart =>
      appPart ++ " " ++ hexEncode (be32 myIpv4)

/-- `create_self_info`; `none` is a panic. -/
def createSelfInfo (checked : Bool) (sys : SystemInfo) (appName shortAppName : String)
    (myIp : Option (BitVec 32)) (settings : SettingsMap) : Option SelfInfo := do
  let myIpv4 := myIpv4 sys myIp settings
  let processId := BitVec.ofNat 16 (settingsNumber settings "PROCESS_ID" (2 ^ 16) DEFAULT_PROCESS_ID)
  let devid := createDeviceId settings myIpv4 processId
  let friendlyHostname ← createFriendlyHostname appName settings myIpv4
  let shortAppName ← limited MAX_SHORT_APPNAME_LEN shortAppName
  let link := linkInfo myIpv4 sys.interfaces
  let result : SelfInfo := {
    ipAddress := myIpv4
    netmask := link.netmask
    gateway := link.gateway
    macAddress := link.macAddress
    linkSpeed := BitVec.ofNat 16 (min link.speed 10000)
    boardName := "Inferno-AoIP"
    manufacturer := "Inferno-AoIP"
    modelName := appName
    modelNumber := modelNumber sys.modelNumberVar
    factoryDeviceId := devid
    processId
    vendorString := "Audinate Dante-compatible"
    friendlyHostname
    factoryHostname := shortAppName ++ "-" ++ hexEncode devid.bytes
    rxChannels := []
    txChannels := []
    bitsPerSample := 24
    pcmType := 0xe
    latencyNs := BitVec.ofNat 64
      (settingsNumber settings "RX_LATENCY_NS" (2 ^ 64) DEFAULT_RX_LATENCY_NS)
    txLatencyNs := BitVec.ofNat 32
      (settingsNumber settings "TX_LATENCY_NS" (2 ^ 32) DEFAULT_TX_LATENCY_NS)
    sampleRate := BitVec.ofNat 32
      (settingsNumber settings "SAMPLE_RATE" (2 ^ 32) DEFAULT_SAMPLE_RATE)
    arcPort := 4440
    cmcPort := 8800
    flowsControlPort := 4455
    infoRequestPort := 8700 }
  result.withAltPort checked (altPort settings)

/-! ## What goes well -/

theorem hexEncode_size (bytes : List Byte) : (hexEncode bytes).utf8ByteSize = 2 * bytes.length := by
  have hdigit : ∀ n < 16, (Nat.digitChar n).utf8Size = 1 := by decide
  rw [hexEncode, String.utf8ByteSize_ofList, utf8Len_ascii]
  · induction bytes with
    | nil => rfl
    | cons b bytes ih =>
        rw [List.flatMap_cons, List.length_append, ih]
        simp only [List.length_cons, List.length_nil]
        omega
  · intro c hc
    rcases List.mem_flatMap.mp hc with ⟨b, _, hb⟩
    have hlt := b.isLt
    simp only [List.mem_cons, List.not_mem_nil, or_false] at hb
    rcases hb with rfl | rfl
    · exact hdigit _ (by omega)
    · exact hdigit _ (by omega)

theorem createFriendlyHostname_isSome_iff {appName : String} {settings : SettingsMap}
    {myIpv4 : BitVec 32} : (createFriendlyHostname appName settings myIpv4).isSome ↔
      (∀ s, settings "NAME" = some s → s.utf8ByteSize ≤ HOSTNAME_MAX_LEN ∨
        CharBoundary HOSTNAME_MAX_LEN s) ∧
      (settings "NAME" = none → appName.utf8ByteSize ≤ MAX_APPNAME_FOR_HOSTNAME ∨
        CharBoundary MAX_APPNAME_FOR_HOSTNAME appName) := by
  unfold createFriendlyHostname
  cases settings "NAME" with
  | some s => simp [limited_isSome_iff]
  | none => simp [limited_isSome_iff]

theorem createFriendlyHostname_size {appName hostname : String} {settings : SettingsMap}
    {myIpv4 : BitVec 32} (h : createFriendlyHostname appName settings myIpv4 = some hostname) :
    hostname.utf8ByteSize ≤ 31 := by
  unfold createFriendlyHostname at h
  split at h
  · exact limited_size h
  · rcases Option.map_eq_some_iff.mp h with ⟨appPart, happ, rfl⟩
    have hsize := limited_size happ
    have hspace : " ".utf8ByteSize = 1 := by decide
    have hlen : (be32 myIpv4).length = 4 := rfl
    unfold MAX_APPNAME_FOR_HOSTNAME at hsize
    rw [String.utf8ByteSize_append, String.utf8ByteSize_append, hexEncode_size, hspace, hlen]
    omega

/-- What is wanted of the four ports: they are counted from the alternate one. -/
def SelfInfo.PortsFrom (d : SelfInfo) (altport : Nat) : Prop :=
  d.arcPort.toNat = altport ∧ d.cmcPort.toNat = altport + 1 ∧
    d.flowsControlPort.toNat = altport + 2 ∧ d.infoRequestPort.toNat = altport + 3

/-- `validate_hostnames`. -/
def SelfInfo.ValidHostnames (d : SelfInfo) : Prop :=
  d.friendlyHostname.utf8ByteSize ≤ 31 ∧ d.factoryHostname.utf8ByteSize ≤ 31

theorem portAfter_iff {checked : Bool} {altport n : Nat} :
    (∃ p, portAfter checked altport n = some p ∧ p.toNat = altport + n) ↔
      altport + n < 2 ^ 16 := by
  unfold portAfter
  constructor
  · rintro ⟨p, -, hp⟩
    have hlt := p.isLt
    omega
  · intro h
    refine ⟨_, if_neg (by omega), ?_⟩
    rw [BitVec.toNat_ofNat, Nat.mod_eq_of_lt h]

theorem altPort_lt {settings : SettingsMap} {altport : Nat} (h : altPort settings = some altport) :
    altport < 2 ^ 16 := by
  rcases Option.bind_eq_some_iff.mp h with ⟨s, _, hs⟩
  unfold parseU16 fromStrRadix at hs
  split at hs
  · cases hs
  · simpa using (Option.filter_eq_some_iff.mp hs).2

/-- The ports are as wanted exactly if the last one is a port. -/
theorem SelfInfo.withAltPort_iff {checked : Bool} {result : SelfInfo} {settings : SettingsMap} :
    (∃ d, result.withAltPort checked (altPort settings) = some d ∧
      d.friendlyHostname = result.friendlyHostname ∧ d.factoryHostname = result.factoryHostname ∧
      ∀ altport, altPort settings = some altport → d.PortsFrom altport) ↔
      ∀ altport, altPort settings = some altport → altport + 3 < 2 ^ 16 := by
  cases haltport : altPort settings with
  | none => exact iff_of_true ⟨result, rfl, rfl, rfl, fun _ h => by cases h⟩ fun _ h => by cases h
  | some altport =>
      simp only [Option.some.injEq, forall_eq']
      constructor
      · rintro ⟨d, -, -, -, hports⟩
        have hlt := d.infoRequestPort.isLt
        have hlast := hports.2.2.2
        omega
      · intro h
        rcases (@portAfter_iff checked altport 1).mpr (by omega) with ⟨p₁, h₁, hp₁⟩
        rcases (@portAfter_iff checked altport 2).mpr (by omega) with ⟨p₂, h₂, hp₂⟩
        rcases (@portAfter_iff checked altport 3).mpr h with ⟨p₃, h₃, hp₃⟩
        have hrun : result.withAltPort checked (some altport) = some { result with
            arcPort := BitVec.ofNat 16 altport
            cmcPort := p₁
            flowsControlPort := p₂
            infoRequestPort := p₃ } := by
          rw [withAltPort, h₁, h₂, h₃]
          rfl
        refine ⟨_, hrun, rfl, rfl, ?_, hp₁, hp₂, hp₃⟩
        rw [BitVec.toNat_ofNat, Nat.mod_eq_of_lt (altPort_lt haltport)]

/-- A device is created: its names may be announced, and its ports are next to
each other. -/
def Created (checked : Bool) (sys : SystemInfo) (appName shortAppName : String)
    (myIp : Option (BitVec 32)) (settings : SettingsMap) : Prop :=
  ∃ d, createSelfInfo checked sys appName shortAppName myIp settings = some d ∧
    d.ValidHostnames ∧ ∀ altport, altPort settings = some altport → d.PortsFrom altport

/-- A name is short enough, or has a character end where it is cut. -/
def Cuttable (n : Nat) (s : String) : Prop := s.utf8ByteSize ≤ n ∨ CharBoundary n s

/-- A device is created exactly if the names that are used can be cut, and the
last port is a port. -/
theorem createSelfInfo_safe_iff (checked : Bool) (sys : SystemInfo) (appName shortAppName : String)
    (myIp : Option (BitVec 32)) (settings : SettingsMap) :
    Created checked sys appName shortAppName myIp settings ↔
      (∀ s, settings "NAME" = some s → Cuttable HOSTNAME_MAX_LEN s) ∧
      (settings "NAME" = none → Cuttable MAX_APPNAME_FOR_HOSTNAME appName) ∧
      Cuttable MAX_SHORT_APPNAME_LEN shortAppName ∧
      ∀ altport, altPort settings = some altport → altport + 3 < 2 ^ 16 := by
  have hfactory : ∀ {short : String} (devid : DeviceId), limited MAX_SHORT_APPNAME_LEN shortAppName =
      some short → (short ++ "-" ++ hexEncode devid.bytes).utf8ByteSize ≤ 31 := by
    intro short devid hshort
    have hsize := limited_size hshort
    have hhyphen : "-".utf8ByteSize = 1 := by decide
    unfold MAX_SHORT_APPNAME_LEN at hsize
    rw [String.utf8ByteSize_append, String.utf8ByteSize_append, hexEncode_size, hhyphen,
      devid.length_eq]
    omega
  unfold Cuttable
  rw [← and_assoc, ← @createFriendlyHostname_isSome_iff _ _ (myIpv4 sys myIp settings),
    ← limited_isSome_iff]
  constructor
  · rintro ⟨d, hrun, -, hports⟩
    rcases Option.bind_eq_some_iff.mp hrun with ⟨hostname, hhostname, hrun⟩
    rcases Option.bind_eq_some_iff.mp hrun with ⟨short, hshort, hrun⟩
    refine ⟨Option.isSome_of_eq_some hhostname, Option.isSome_of_eq_some hshort, ?_⟩
    intro altport haltport
    have hlt := d.infoRequestPort.isLt
    have hlast := (hports altport haltport).2.2.2
    omega
  · rintro ⟨hname, happ, hlast⟩
    rcases Option.isSome_iff_exists.mp hname with ⟨hostname, hhostname⟩
    rcases Option.isSome_iff_exists.mp happ with ⟨short, hshort⟩
    rcases SelfInfo.withAltPort_iff.mpr hlast with ⟨d, hrun, hfriendly, hfact, hports⟩
    refine ⟨d, ?_, ⟨?_, ?_⟩, hports⟩
    · exact Option.bind_eq_some_iff.mpr ⟨hostname, hhostname,
        Option.bind_eq_some_iff.mpr ⟨short, hshort, hrun⟩⟩
    · exact hfriendly ▸ createFriendlyHostname_size hhostname
    · exact hfact ▸ hfactory _ hshort

/-- A name from the configuration can be cut, if it was normalised well. -/
theorem Config.WellNormalized.cuttable {isAlphanumeric : Char → Bool} {checked : Bool}
    {c c' : Config} (h : c.WellNormalized isAlphanumeric checked)
    (hrun : c.normalize isAlphanumeric checked = some c') :
    Cuttable HOSTNAME_MAX_LEN c'.deviceName := by
  rcases h with ⟨c'', hrun', hvalid, -, -⟩
  rw [hrun] at hrun'
  cases hrun'
  exact .inl hvalid.deviceName_size

/-- A system with nothing to tell. -/
def noSystem : SystemInfo := ⟨[], none, none⟩

/-- A name of sixteen letters of two bytes. -/
def twoByteName : SettingsMap := fun key => if key = "NAME" then some "éééééééééééééééé" else none

/-- The 31st byte of the name is within a letter. -/
theorem name_cut_within_letter : ¬∀ (checked : Bool) (sys : SystemInfo)
    (appName shortAppName : String) (myIp : Option (BitVec 32)) (settings : SettingsMap),
    Created checked sys appName shortAppName myIp settings := by
  intro h
  rcases h false noSystem "Inferno" "Inferno" none twoByteName with ⟨d, hrun, -, -⟩
  have hnone : createFriendlyHostname "Inferno" twoByteName (myIpv4 noSystem none twoByteName) = none := by
    decide
  rw [createSelfInfo, hnone] at hrun
  cases hrun

end Inferno
