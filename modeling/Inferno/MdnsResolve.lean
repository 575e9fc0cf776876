import Inferno.Bytes
import Inferno.Lib.TextFields
import Inferno.MdnsChannels

/-!
# What is advertised and what is resolved

The TXT strings `DeviceMDNSResponder` gives a channel and a bundle, and what
`MdnsClient` makes of them: each string is split at its first `=`, and the
fields are looked up in a map by key, or found by the prefix of the key.

Strings are the bytes of UTF-8 on the way. `parse::<u16>` and the casts of a
`usize` are told apart: the first refuses what is too large, the others cut it
off.
-/

namespace Inferno

open TextFields

/-! ## Advertising -/

def FPP_MIN : Nat := 2

/-- The fields of `DeviceInfo` that are advertised. -/
structure AdvertisedInfo where
  bitsPerSample : BitVec 8
  pcmType : BitVec 8
  txLatencyNs : BitVec 32
  sampleRate : BitVec 32
  txChannelsLen : Nat

def kv (key value : String) : String := key ++ "=" ++ value

/-- `{}` of a number. -/
def display (n : Nat) : String := n.repr

/-- `{:x}` of a number. -/
def displayHex (n : Nat) : String := String.ofList (Nat.toDigits 16 n)

/-- `{}` of an `Ipv4Addr`: its octets. -/
def displayIpv4 (ip : BitVec 32) : String :=
  display (ip.extractLsb' 24 8).toNat ++ "." ++ display (ip.extractLsb' 16 8).toNat ++ "." ++
    display (ip.extractLsb' 8 8).toNat ++ "." ++ display (ip.extractLsb' 0 8).toNat

namespace AdvertisedInfo

/-- How many channels a flow may have. -/
def nchan (info : AdvertisedInfo) : Nat := min ArcServer.MAX_CHANNELS_IN_FLOW (info.txChannelsLen % 2 ^ 16)

/-- The strings of one of the two services of `add_tx_channel`. The position in
the bundle is incremented as a `usize`. -/
def chanTxt (info : AdvertisedInfo) (index : Nat) (pointer : Option PointerToMulticast)
    (isDefault : Bool) : List String :=
  ["txtvers=2", "dbcp1=0x1102", "dbcp=0x1004",
    kv "id" (display (index + 1)),
    kv "rate" (display info.sampleRate.toNat),
    "pcm=" ++ display (info.bitsPerSample.toNat / 8) ++ " " ++ displayHex info.pcmType.toNat,
    kv "enc" (display info.bitsPerSample.toNat),
    kv "en" (display info.bitsPerSample.toNat),
    kv "latency_ns" (display info.txLatencyNs.toNat),
    "fpp=" ++ display FPP_MAX_ADVERTISED ++ "," ++ display FPP_MIN,
    kv "nchan" (display info.nchan)] ++
  (if isDefault then ["default"] else []) ++
  (pointer.map fun p =>
    "b." ++ display p.bundleId ++ "=" ++ display ((p.channelInBundle + 1) % 2 ^ 64)).toList

/-- The strings of `add_multicast_bundle`. -/
def bundTxt (info : AdvertisedInfo) (bundleId channelsPerFlow fpp : Nat) (dst : SocketAddr) :
    List String :=
  ["txtvers=1",
    kv "id" (display bundleId),
    kv "nchan" (display channelsPerFlow),
    kv "latency_ns" (display info.txLatencyNs.toNat),
    kv "fpp" (display fpp),
    kv "rate" (display info.sampleRate.toNat),
    kv "enc" (display info.bitsPerSample.toNat),
    kv "a.0" (displayIpv4 dst.ip),
    kv "p.0" (display dst.port.toNat)]

end AdvertisedInfo

/-! ## Resolving -/

abbrev TxtEntries := SortedMap String String

/-- One turn of the loop of `query` over the data of a TXT record. -/
def insertTxt (properties : TxtEntries) (txtbytes : List Byte) : Option TxtEntries :=
  (fromUtf8 txtbytes).map fun s =>
    match splitOnce '=' s with
    | some (key, value) => properties.insert key value
    | none => properties

def txtEntries (txtData : List (List Byte)) : Option TxtEntries :=
  txtData.foldlM insertTxt SortedMap.empty

/-- `str::parse::<usize>`. -/
def parseUsize (s : String) : Option Nat := fromStrRadix 10 (2 ^ 64) s

/-- `str::parse::<u16>`. -/
def parseU16 (s : String) : Option Nat := fromStrRadix 10 (2 ^ 16) s

/-- `s[n..]`, of text whose first `n` characters are one byte each. -/
def textFrom (n : Nat) (s : String) : String := String.ofList (s.toList.drop n)

def startsWith (start s : String) : Bool := start.toList.isPrefixOf s.toList

def parseIntFromDict (dict : TxtEntries) (key : String) : Option Nat := do
  let s ← dict.get? key
  if startsWith "0x" s then fromStrRadix 16 (2 ^ 64) (textFrom 2 s) else parseUsize s

/-- The pointer to a bundle: the first entry whose key says so. -/
def pointerOf (txHostname : String) (dict : TxtEntries) : Option PointerToMulticast := do
  let (key, value) ← dict.entries.find? fun e => startsWith "b." e.1
  let bundleId ← parseUsize (textFrom 2 key)
  let position ← (parseUsize value).filter (0 < ·)
  return ⟨txHostname, bundleId, position - 1⟩

/-- `query_chan`, from the address and the entries `query` returns. -/
def queryChan (addr : SocketAddr) (txHostname : String) (dict : TxtEntries) :
    Option AdvertisedChannel := do
  let (fpp1, fpp2) ← (dict.get? "fpp").bind (splitOnce ',')
  return {
    addr
    txChannelsPerFlow := ← parseIntFromDict dict "nchan"
    txChannelId := BitVec.ofNat 16 (← parseIntFromDict dict "id")
    bitsPerSample := (← (parseIntFromDict dict "enc").or (parseIntFromDict dict "en")) % 2 ^ 32
    dbcp1 := BitVec.ofNat 16 (← parseIntFromDict dict "dbcp1")
    fppMin := ← parseU16 fpp2
    fppMax := ← parseU16 fpp1
    minRxLatencyNs := ← parseIntFromDict dict "latency_ns"
    multicast := pointerOf txHostname dict }

/-- An octet of a dotted address: at most three digits, and no zero in front. -/
def parseOctet (s : String) : Option Nat :=
  if s.toList.length ≤ 3 ∧ s.toList.all Char.isDigit ∧
      (s.toList.head? = some '0' → s.toList.length = 1) then
    fromStrRadix 10 (2 ^ 8) s
  else none

/-- `str::parse::<Ipv4Addr>`. -/
def parseIpv4 (s : String) : Option (BitVec 32) := do
  let (a, s) ← splitOnce '.' s
  let (b, s) ← splitOnce '.' s
  let (c, d) ← splitOnce '.' s
  return BitVec.ofNat 8 (← parseOctet a) ++ BitVec.ofNat 8 (← parseOctet b) ++
    BitVec.ofNat 8 (← parseOctet c) ++ BitVec.ofNat 8 (← parseOctet d)

/-- `AdvertisedBundle` with the fields a resolution does not read. -/
structure BundleAdvert extends AdvertisedBundle where
  txBundleId : BitVec 16
  fpp : BitVec 16
deriving DecidableEq

/-- `query_bund`, from the entries `query` returns. -/
def queryBund (dict : TxtEntries) : Option BundleAdvert := do
  let ip ← (dict.get? "a.0").bind parseIpv4
  let port ← (dict.get? "p.0").bind parseU16
  return {
    txChannelsPerFlow := ← parseIntFromDict dict "nchan"
    txBundleId := BitVec.ofNat 16 (← parseIntFromDict dict "id")
    bitsPerSample := (← (parseIntFromDict dict "enc").or (parseIntFromDict dict "en")) % 2 ^ 32
    fpp := BitVec.ofNat 16 (← parseIntFromDict dict "fpp")
    minRxLatencyNs := ← parseIntFromDict dict "latency_ns"
    mediaAddr := ⟨ip, BitVec.ofNat 16 port⟩ }

/-! ## The entries of a record -/

/-- The strings that have a key. -/
def txtPairs (txt : List String) : List (String × String) := txt.filterMap (splitOnce '=')

theorem txtEntries_utf8 (txt : List String) :
    txtEntries (txt.map utf8) = some (SortedMap.empty.insertAll (txtPairs txt)) := by
  have hloop : ∀ m : TxtEntries,
      (txt.map utf8).foldlM insertTxt m = some (m.insertAll (txtPairs txt)) := by
    induction txt with
    | nil => exact fun m => rfl
    | cons s txt ih =>
        intro m
        rw [List.map_cons, List.foldlM_cons, insertTxt, fromUtf8_utf8, Option.map_some]
        cases hsplit : splitOnce '=' s with
        | none =>
            rw [show txtPairs (s :: txt) = txtPairs txt by simp [txtPairs, hsplit]]
            exact ih m
        | some e =>
            rw [show txtPairs (s :: txt) = e :: txtPairs txt by simp [txtPairs, hsplit]]
            exact ih (m.insert e.1 e.2)
  exact hloop SortedMap.empty

/-- A record whose keys differ is found in the map as it is, in whatever order
its strings come. -/
theorem txtEntries_exact {txt txt' : List String} (hperm : txt.Perm txt')
    (hkeys : ((txtPairs txt').map Prod.fst).Nodup) :
    ∃ dict, txtEntries (txt.map utf8) = some dict ∧ ∀ e, e ∈ dict.entries ↔ e ∈ txtPairs txt' := by
  have hpairs : (txtPairs txt).Perm (txtPairs txt') := hperm.filterMap _
  have hkeys' := (hpairs.map Prod.fst).nodup_iff.mpr hkeys
  refine ⟨_, txtEntries_utf8 txt, fun e => ?_⟩
  rw [← hpairs.mem_iff]
  constructor
  · intro h
    rcases SortedMap.mem_insertAll h with h | h
    · cases h
    · exact h
  · exact fun h => SortedMap.mem_of_get? (SortedMap.get?_insertAll_of_mem hkeys' h)

/-- What the resolver relies on: the entries of the map are those of the record. -/
def HasEntries (dict : TxtEntries) (pairs : List (String × String)) : Prop :=
  ∀ e, e ∈ dict.entries ↔ e ∈ pairs

theorem HasEntries.get? {dict : TxtEntries} {pairs : List (String × String)} (h : HasEntries dict pairs)
    {key value : String} (hmem : (key, value) ∈ pairs) : dict.get? key = some value :=
  SortedMap.get?_of_mem ((h _).mpr hmem)

/-! ## Fields -/

theorem splitOnce_kv {key : String} (h : '=' ∉ key.toList) (value : String) :
    splitOnce '=' (kv key value) = some (key, value) :=
  splitOnce_append h value

theorem startsWith_hex_display (n : Nat) : startsWith "0x" (display n) = false := by
  have hx : 'x' ∉ n.repr.toList := not_mem_repr (by decide) n
  rw [startsWith, display, Bool.eq_false_iff, ne_eq, List.isPrefixOf_iff_prefix]
  intro hpre
  exact hx (hpre.subset (by decide))

theorem HasEntries.parseInt {dict : TxtEntries} {pairs : List (String × String)} (h : HasEntries dict pairs)
    {key : String} {n : Nat} (hmem : (key, display n) ∈ pairs) (hn : n < 2 ^ 64) :
    parseIntFromDict dict key = some n := by
  simp only [parseIntFromDict, h.get? hmem, Option.bind_eq_bind, Option.bind_some,
    startsWith_hex_display]
  exact fromStrRadix_repr hn

theorem parseU16_display {n : Nat} (h : n < 2 ^ 16) : parseU16 (display n) = some n :=
  fromStrRadix_repr h

theorem parseUsize_display {n : Nat} (h : n < 2 ^ 64) : parseUsize (display n) = some n :=
  fromStrRadix_repr h

theorem parseOctet_display {n : Nat} (h : n < 2 ^ 8) : parseOctet (display n) = some n := by
  have hshape : ∀ n < 2 ^ 8, (Nat.toDigits 10 n).length ≤ 3 ∧ (Nat.toDigits 10 n).all Char.isDigit ∧
      ((Nat.toDigits 10 n).head? = some '0' → (Nat.toDigits 10 n).length = 1) := by
    decide +kernel
  have hn := hshape n h
  rw [parseOctet, display, Nat.toList_repr, if_pos hn]
  exact fromStrRadix_repr h

/-- The first octet, and the text behind its dot. -/
theorem displayIpv4_eq (ip : BitVec 32) :
    displayIpv4 ip = display (ip.extractLsb' 24 8).toNat ++ '.'.toString ++
      (display (ip.extractLsb' 16 8).toNat ++ '.'.toString ++
        (display (ip.extractLsb' 8 8).toNat ++ '.'.toString ++
          display (ip.extractLsb' 0 8).toNat)) := by
  simp only [displayIpv4, String.append_assoc]
  rfl

theorem parseIpv4_display (ip : BitVec 32) : parseIpv4 (displayIpv4 ip) = some ip := by
  have hdot : ∀ n, '.' ∉ (display n).toList := not_mem_repr (by decide)
  have hoctet : ∀ x : BitVec 8, parseOctet (display x.toNat) = some x.toNat :=
    fun x => parseOctet_display x.isLt
  rw [displayIpv4_eq, parseIpv4, splitOnce_append (hdot _)]
  simp only [Option.bind_eq_bind, Option.bind_some, splitOnce_append (hdot _), hoctet,
    BitVec.ofNat_toNat, BitVec.setWidth_eq, Option.pure_def]
  exact congrArg some (fromBeBytes_toBeBytes ip)

/-! ## A channel -/

namespace AdvertisedInfo

variable (info : AdvertisedInfo) (index : Nat) (pointer : Option PointerToMulticast)

/-- The entries every channel has. -/
def chanPairs : List (String × String) :=
  [("txtvers", "2"), ("dbcp1", "0x1102"), ("dbcp", "0x1004"),
    ("id", display (index + 1)),
    ("rate", display info.sampleRate.toNat),
    ("pcm", display (info.bitsPerSample.toNat / 8) ++ " " ++ displayHex info.pcmType.toNat),
    ("enc", display info.bitsPerSample.toNat),
    ("en", display info.bitsPerSample.toNat),
    ("latency_ns", display info.txLatencyNs.toNat),
    ("fpp", display FPP_MAX_ADVERTISED ++ "," ++ display FPP_MIN),
    ("nchan", display info.nchan)]

/-- The entry of the pointer. -/
def pointerPairs : List (String × String) :=
  (pointer.map fun p =>
    ("b." ++ display p.bundleId, display ((p.channelInBundle + 1) % 2 ^ 64))).toList

theorem txtPairs_chanTxt (isDefault : Bool) :
    txtPairs (info.chanTxt index pointer isDefault) =
      info.chanPairs index ++ pointerPairs pointer := by
  have hdefault : txtPairs (if isDefault then ["default"] else []) = [] := by
    cases isDefault <;> decide
  have hpcm : splitOnce '=' ("pcm=" ++ display (info.bitsPerSample.toNat / 8) ++ " " ++
      displayHex info.pcmType.toNat) = some ("pcm", display (info.bitsPerSample.toNat / 8) ++ " " ++
        displayHex info.pcmType.toNat) := by
    have hsplit := @splitOnce_kv "pcm" (by decide) (display (info.bitsPerSample.toNat / 8) ++ " " ++
      displayHex info.pcmType.toNat)
    rwa [kv, ← String.append_assoc, ← String.append_assoc] at hsplit
  have hpointer : txtPairs (pointer.map fun p => "b." ++ display p.bundleId ++ "=" ++
      display ((p.channelInBundle + 1) % 2 ^ 64)).toList = pointerPairs pointer := by
    cases pointer with
    | none => rfl
    | some p =>
        have hkey : '=' ∉ ("b." ++ display p.bundleId).toList := by
          rw [String.toList_append, List.mem_append, not_or]
          exact ⟨by decide, not_mem_repr (by decide) _⟩
        have hsplit := splitOnce_kv hkey (display ((p.channelInBundle + 1) % 2 ^ 64))
        rw [kv] at hsplit
        simp only [Option.map_some, Option.toList_some, txtPairs, List.filterMap_cons,
          List.filterMap_nil, hsplit, pointerPairs]
  have hconst : splitOnce '=' "txtvers=2" = some ("txtvers", "2") ∧
      splitOnce '=' "dbcp1=0x1102" = some ("dbcp1", "0x1102") ∧
      splitOnce '=' "dbcp=0x1004" = some ("dbcp", "0x1004") := by decide
  have hfpp : splitOnce '=' ("fpp=" ++ display FPP_MAX_ADVERTISED ++ "," ++ display FPP_MIN) =
      some ("fpp", display FPP_MAX_ADVERTISED ++ "," ++ display FPP_MIN) := by decide
  rw [chanTxt, txtPairs, List.filterMap_append, List.filterMap_append]
  rw [txtPairs] at hdefault hpointer
  rw [hdefault, hpointer, List.append_nil]
  congr 1
  simp only [List.filterMap_cons, List.filterMap_nil, hconst, hpcm, hfpp, splitOnce_kv, chanPairs,
    show '=' ∉ "id".toList by decide, show '=' ∉ "rate".toList by decide,
    show '=' ∉ "enc".toList by decide, show '=' ∉ "en".toList by decide,
    show '=' ∉ "latency_ns".toList by decide, show '=' ∉ "nchan".toList by decide,
    not_false_eq_true]

theorem startsWith_pointer (n : Nat) : startsWith "b." ("b." ++ display n) = true := by
  rw [startsWith, String.toList_append, List.isPrefixOf_iff_prefix]
  exact List.prefix_append _ _

variable {info index pointer}

theorem not_startsWith_chanPairs {e : String × String} (h : e ∈ info.chanPairs index) :
    startsWith "b." e.1 = false := by
  have hkeys : ∀ k ∈ (info.chanPairs index).map Prod.fst, startsWith "b." k = false := by
    rw [show (info.chanPairs index).map Prod.fst = ["txtvers", "dbcp1", "dbcp", "id", "rate", "pcm",
      "enc", "en", "latency_ns", "fpp", "nchan"] from rfl]
    decide
  exact hkeys _ (List.mem_map_of_mem h)

theorem chanKeys_nodup : ((info.chanPairs index ++ pointerPairs pointer).map Prod.fst).Nodup := by
  have hbase : ((info.chanPairs index).map Prod.fst).Nodup := by
    rw [show (info.chanPairs index).map Prod.fst = ["txtvers", "dbcp1", "dbcp", "id", "rate", "pcm",
      "enc", "en", "latency_ns", "fpp", "nchan"] from rfl]
    decide
  rw [List.map_append]
  refine hbase.append ?_ ?_
  · cases pointer <;> simp [pointerPairs]
  · intro k hk hpointer
    obtain ⟨e, he, rfl⟩ := List.mem_map.mp hk
    cases pointer with
    | none => cases hpointer
    | some p =>
        have hkey : e.1 = "b." ++ display p.bundleId := by simpa [pointerPairs] using hpointer
        have hno := not_startsWith_chanPairs he
        rw [hkey, startsWith_pointer] at hno
        cases hno

/-- The one entry the loop over the map can stop at. -/
theorem pointer_entry {dict : TxtEntries} (h : HasEntries dict (info.chanPairs index ++
    pointerPairs pointer)) :
    (dict.entries.find? fun e => startsWith "b." e.1) = (pointerPairs pointer).head? := by
  have hfrom : ∀ e ∈ dict.entries, startsWith "b." e.1 = true → e ∈ pointerPairs pointer := by
    intro e he hstart
    rcases List.mem_append.mp ((h e).mp he) with hbase | hpointer
    · rw [not_startsWith_chanPairs hbase] at hstart
      cases hstart
    · exact hpointer
  cases pointer with
  | none => exact List.find?_eq_none.mpr fun e he hstart => by cases hfrom e he hstart
  | some p =>
      have hmem := (h _).mpr (List.mem_append_right _ (List.mem_singleton.mpr rfl))
      cases hfind : dict.entries.find? fun e => startsWith "b." e.1 with
      | none =>
          have hno := List.find?_eq_none.mp hfind _ hmem
          rw [startsWith_pointer] at hno
          exact absurd rfl hno
      | some e =>
          have hstart := @List.find?_some _ (fun e : String × String => startsWith "b." e.1) _ _ hfind
          have he := hfrom e (List.mem_of_find?_eq_some hfind) hstart
          rw [List.mem_singleton.mp he]
          rfl

/-- The fields of a pointer fit a `usize`, the position incremented. -/
def FitsUsize (p : PointerToMulticast) : Prop :=
  p.bundleId < 2 ^ 64 ∧ p.channelInBundle + 1 < 2 ^ 64

theorem pointerOf_eq {dict : TxtEntries} (h : HasEntries dict (info.chanPairs index ++
    pointerPairs pointer)) (hfits : ∀ p ∈ pointer, FitsUsize p) (host : String) :
    pointerOf host dict = pointer.map fun p => ⟨host, p.bundleId, p.channelInBundle⟩ := by
  rw [pointerOf, pointer_entry h]
  cases pointer with
  | none => rfl
  | some p =>
      obtain ⟨hid, hpos⟩ := hfits p rfl
      have hkey : textFrom 2 ("b." ++ display p.bundleId) = display p.bundleId := by
        have hprefix : "b.".toList = ['b', '.'] := by decide
        rw [textFrom, String.toList_append, hprefix]
        exact String.ofList_toList
      simp only [pointerPairs, Option.map_some, Option.toList_some, List.head?_cons,
        Option.bind_eq_bind, Option.bind_some, hkey, parseUsize_display hid, Nat.mod_eq_of_lt hpos,
        parseUsize_display hpos, Option.filter_some, Nat.succ_pos, decide_true, if_true,
        Nat.add_sub_cancel, Option.pure_def]

theorem nchan_lt : info.nchan < 2 ^ 64 := by
  have hle : info.nchan ≤ 8 := Nat.min_le_left _ _
  omega

/-- What the strings of a channel are resolved to. -/
theorem resolve_channel (hindex : index < 65535) (hfits : ∀ p ∈ pointer, FitsUsize p)
    (isDefault : Bool) {txt : List String}
    (hperm : txt.Perm (info.chanTxt index pointer isDefault)) (addr : SocketAddr) (host : String) :
    (txtEntries (txt.map utf8)).bind (queryChan addr host) = some {
      addr
      txChannelsPerFlow := info.nchan
      txChannelId := BitVec.ofNat 16 (index + 1)
      bitsPerSample := info.bitsPerSample.toNat
      dbcp1 := 0x1102
      fppMin := FPP_MIN
      fppMax := FPP_MAX_ADVERTISED
      minRxLatencyNs := info.txLatencyNs.toNat
      multicast := pointer.map fun p => ⟨host, p.bundleId, p.channelInBundle⟩ } := by
  have hbits := info.bitsPerSample.isLt
  have hlatency := info.txLatencyNs.isLt
  obtain ⟨dict, hdict, hholds⟩ := txtEntries_exact hperm <| by
    rw [txtPairs_chanTxt]
    exact chanKeys_nodup
  rw [txtPairs_chanTxt] at hholds
  have hchan : ∀ e ∈ info.chanPairs index, e ∈ info.chanPairs index ++ pointerPairs pointer :=
    fun e he => List.mem_append_left _ he
  have hnchan := HasEntries.parseInt hholds (hchan ("nchan", display info.nchan) (by simp [chanPairs]))
    nchan_lt
  have hid := HasEntries.parseInt hholds (hchan ("id", display (index + 1)) (by simp [chanPairs]))
    (by omega)
  have henc := HasEntries.parseInt hholds
    (hchan ("enc", display info.bitsPerSample.toNat) (by simp [chanPairs])) (by omega)
  have hns := HasEntries.parseInt hholds
    (hchan ("latency_ns", display info.txLatencyNs.toNat) (by simp [chanPairs])) (by omega)
  have hdbcp : parseIntFromDict dict "dbcp1" = some 0x1102 := by
    have hhex : (if startsWith "0x" "0x1102" then fromStrRadix 16 (2 ^ 64) (textFrom 2 "0x1102")
        else parseUsize "0x1102") = some 0x1102 := by decide
    rw [parseIntFromDict, HasEntries.get? hholds (hchan ("dbcp1", "0x1102") (by simp [chanPairs]))]
    exact hhex
  have hfpp : (dict.get? "fpp").bind (splitOnce ',') =
      some (display FPP_MAX_ADVERTISED, display FPP_MIN) := by
    have hsplit : splitOnce ',' (display FPP_MAX_ADVERTISED ++ "," ++ display FPP_MIN) =
        some (display FPP_MAX_ADVERTISED, display FPP_MIN) :=
      splitOnce_append (not_mem_repr (by decide) _) _
    rw [HasEntries.get? hholds (hchan ("fpp", display FPP_MAX_ADVERTISED ++ "," ++ display FPP_MIN)
      (by simp [chanPairs]))]
    exact hsplit
  have hmin : parseU16 (display FPP_MIN) = some FPP_MIN := parseU16_display (by decide)
  have hmax : parseU16 (display FPP_MAX_ADVERTISED) = some FPP_MAX_ADVERTISED :=
    parseU16_display (by decide)
  rw [hdict, Option.bind_some]
  simp only [queryChan, hfpp, hnchan, hid, henc, hdbcp, hns, hmin, hmax, pointerOf_eq hholds hfits,
    Option.bind_eq_bind, Option.bind_some, Option.some_or, Option.pure_def]
  rw [Nat.mod_eq_of_lt (by omega)]
  rfl

/-! ## A bundle -/

theorem txtPairs_bundTxt (bundleId channelsPerFlow fpp : Nat) (dst : SocketAddr) :
    txtPairs (info.bundTxt bundleId channelsPerFlow fpp dst) = [("txtvers", "1"),
      ("id", display bundleId), ("nchan", display channelsPerFlow),
      ("latency_ns", display info.txLatencyNs.toNat), ("fpp", display fpp),
      ("rate", display info.sampleRate.toNat), ("enc", display info.bitsPerSample.toNat),
      ("a.0", displayIpv4 dst.ip), ("p.0", display dst.port.toNat)] := by
  have hconst : splitOnce '=' "txtvers=1" = some ("txtvers", "1") := by decide
  simp only [txtPairs, bundTxt, List.filterMap_cons, List.filterMap_nil, hconst, splitOnce_kv,
    show '=' ∉ "id".toList by decide, show '=' ∉ "rate".toList by decide,
    show '=' ∉ "enc".toList by decide, show '=' ∉ "fpp".toList by decide,
    show '=' ∉ "latency_ns".toList by decide, show '=' ∉ "nchan".toList by decide,
    show '=' ∉ "a.0".toList by decide, show '=' ∉ "p.0".toList by decide, not_false_eq_true]

/-- What the strings of a bundle are resolved to: the id and the frames per
packet are cut off to 16 bits. -/
theorem resolve_bundle {bundleId channelsPerFlow fpp : Usize} (dst : SocketAddr)
    {txt : List String}
    (hperm : txt.Perm (info.bundTxt bundleId.toNat channelsPerFlow.toNat fpp.toNat dst)) :
    (txtEntries (txt.map utf8)).bind queryBund = some {
      txChannelsPerFlow := channelsPerFlow.toNat
      txBundleId := BitVec.ofNat 16 bundleId.toNat
      bitsPerSample := info.bitsPerSample.toNat
      fpp := BitVec.ofNat 16 fpp.toNat
      minRxLatencyNs := info.txLatencyNs.toNat
      mediaAddr := dst } := by
  have hbits := info.bitsPerSample.isLt
  have hlatency := info.txLatencyNs.isLt
  obtain ⟨dict, hdict, hholds⟩ := txtEntries_exact hperm <| by
    rw [txtPairs_bundTxt]
    simp only [List.map_cons, List.map_nil]
    decide
  rw [txtPairs_bundTxt] at hholds
  have hip := HasEntries.get? hholds (show ("a.0", displayIpv4 dst.ip) ∈ _ by simp)
  have hport := HasEntries.get? hholds (show ("p.0", display dst.port.toNat) ∈ _ by simp)
  have hnchan := HasEntries.parseInt hholds (show ("nchan", display channelsPerFlow.toNat) ∈ _ by simp)
    channelsPerFlow.isLt
  have hid := HasEntries.parseInt hholds (show ("id", display bundleId.toNat) ∈ _ by simp) bundleId.isLt
  have henc := HasEntries.parseInt hholds (show ("enc", display info.bitsPerSample.toNat) ∈ _ by simp)
    (by omega)
  have hfpp := HasEntries.parseInt hholds (show ("fpp", display fpp.toNat) ∈ _ by simp) fpp.isLt
  have hns := HasEntries.parseInt hholds
    (show ("latency_ns", display info.txLatencyNs.toNat) ∈ _ by simp) (by omega)
  rw [hdict, Option.bind_some]
  simp only [queryBund, hip, hport, hnchan, hid, henc, hfpp, hns, parseIpv4_display,
    parseU16_display dst.port.isLt, Option.bind_eq_bind, Option.bind_some, Option.some_or,
    Option.pure_def, BitVec.ofNat_toNat, BitVec.setWidth_eq]
  rw [Nat.mod_eq_of_lt (by omega)]

/-! ## Together -/

/-- What is advertised is what is resolved, in whatever order the strings come:
of a channel below 65535 whose position in its bundle can be incremented, and
of a bundle whose id and frames per packet fit 16 bits. -/
theorem advertised_resolved (info : AdvertisedInfo) {index : Nat} (hindex : index < 65535)
    {pointer : Option PointerToMulticast} (hfits : ∀ p ∈ pointer, FitsUsize p) (isDefault : Bool)
    {bundleId channelsPerFlow fpp : Usize} (hid : bundleId.toNat < 65536)
    (hfpp : fpp.toNat < 65536) (dst addr : SocketAddr) (host : String) {chan bund : List String}
    (hchan : chan.Perm (info.chanTxt index pointer isDefault))
    (hbund : bund.Perm (info.bundTxt bundleId.toNat channelsPerFlow.toNat fpp.toNat dst)) :
    (∃ ch, (txtEntries (chan.map utf8)).bind (queryChan addr host) = some ch ∧
      ch.txChannelId.toNat = index + 1 ∧ ch.txChannelsPerFlow = info.nchan ∧
      ch.bitsPerSample = info.bitsPerSample.toNat ∧ ch.dbcp1 = 0x1102 ∧
      ch.minRxLatencyNs = info.txLatencyNs.toNat ∧ ch.fppMin = FPP_MIN ∧
      ch.fppMax = FPP_MAX_ADVERTISED ∧
      ch.multicast = pointer.map fun p => ⟨host, p.bundleId, p.channelInBundle⟩) ∧
    ∃ b, (txtEntries (bund.map utf8)).bind queryBund = some b ∧
      b.txBundleId.toNat = bundleId.toNat ∧ b.txChannelsPerFlow = channelsPerFlow.toNat ∧
      b.fpp.toNat = fpp.toNat ∧ b.bitsPerSample = info.bitsPerSample.toNat ∧
      b.minRxLatencyNs = info.txLatencyNs.toNat ∧ b.mediaAddr = dst := by
  have hword : ∀ n < 65536, (BitVec.ofNat 16 n).toNat = n := fun n hn => by
    rw [BitVec.toNat_ofNat, Nat.mod_eq_of_lt (by omega)]
  refine ⟨⟨_, resolve_channel hindex hfits isDefault hchan addr host, hword _ (by omega), rfl, rfl,
    rfl, rfl, rfl, rfl, rfl⟩, ⟨_, resolve_bundle dst hbund, hword _ hid, rfl, hword _ hfpp, rfl, rfl,
    rfl⟩⟩

/-- A device of 24 bits with two channels. -/
def twoChannelInfo : AdvertisedInfo := ⟨24, 0xe, 1000000, 48000, 2⟩

theorem advertised_resolved_twoChannels :
    (∃ ch, (txtEntries ((twoChannelInfo.chanTxt 1 (some ⟨"", 3, 0⟩) true).map utf8)).bind
        (queryChan ⟨0xc0a80102, 14337⟩ "device") = some ch ∧
      ch.txChannelId.toNat = 2 ∧ ch.txChannelsPerFlow = twoChannelInfo.nchan ∧
      ch.bitsPerSample = twoChannelInfo.bitsPerSample.toNat ∧ ch.dbcp1 = 0x1102 ∧
      ch.minRxLatencyNs = twoChannelInfo.txLatencyNs.toNat ∧ ch.fppMin = FPP_MIN ∧
      ch.fppMax = FPP_MAX_ADVERTISED ∧ ch.multicast = some ⟨"device", 3, 0⟩) ∧
    ∃ b, (txtEntries ((twoChannelInfo.bundTxt 3 2 32 ⟨0xefff0102, 4321⟩).map utf8)).bind
        queryBund = some b ∧
      b.txBundleId.toNat = 3 ∧ b.txChannelsPerFlow = 2 ∧ b.fpp.toNat = 32 ∧
      b.bitsPerSample = twoChannelInfo.bitsPerSample.toNat ∧
      b.minRxLatencyNs = twoChannelInfo.txLatencyNs.toNat ∧ b.mediaAddr = ⟨0xefff0102, 4321⟩ :=
  @advertised_resolved twoChannelInfo 1 (by decide) (some ⟨"", 3, 0⟩)
    (by rintro p ⟨⟩; exact ⟨by decide, by decide⟩) true 3 2 32 (by decide) (by decide)
    ⟨0xefff0102, 4321⟩ ⟨0xc0a80102, 14337⟩ "device" _ _ (.refl _) (.refl _)

/-- 65536 frames per packet come back as none, and the last position there is
in a bundle does not come back. -/
theorem too_large_cut_off :
    ((txtEntries ((twoChannelInfo.bundTxt 3 2 65536 ⟨0xefff0102, 4321⟩).map utf8)).bind
      queryBund).map (·.fpp) = some 0 ∧
    ((txtEntries ((twoChannelInfo.chanTxt 1 (some ⟨"", 3, 2 ^ 64 - 1⟩) true).map utf8)).bind
      (queryChan ⟨0xc0a80102, 14337⟩ "device")).map (·.multicast) = some none := by
  rw [txtEntries_utf8, txtEntries_utf8]
  decide +kernel

end AdvertisedInfo

end Inferno
