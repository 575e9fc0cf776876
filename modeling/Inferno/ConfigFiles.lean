import Inferno.WasapiConfig
import Inferno.Lib.TextFields

/-!
# The configuration file

The file is written by three programs: the wizard and the settings window write
tables of their own, the service what it has loaded. A table that is not a
`Config` is replaced by the defaults. Over every history of the file, what the
window saves is read by the service exactly if the service wrote the file after
the wizard, and the numbers are `u32`; what the wizard writes never is
(`gui_save_honoured_iff`).

The file is its table: writing TOML and reading it back changes nothing.
-/

namespace Inferno

open TextFields

/-! ## Tables -/

/-- What of `toml::Value` is in the file. -/
inductive TomlValue where
  | string (s : String)
  | integer (n : Int)
  | boolean (b : Bool)
  | array (values : List TomlValue)

/-- `toml::map::Map`. -/
abbrev TomlTable := String → Option TomlValue

namespace TomlTable

def insert (t : TomlTable) (key : String) (value : TomlValue) : TomlTable :=
  fun k => if k = key then some value else t k

@[simp] theorem insert_apply (t : TomlTable) (key k : String) (value : TomlValue) :
    t.insert key value k = if k = key then some value else t k := rfl

/-- `table.insert`, if there is something to insert. -/
def insertSome (t : TomlTable) (key : String) : Option TomlValue → TomlTable
  | some value => t.insert key value
  | none => t

@[simp] theorem insertSome_apply (t : TomlTable) (key k : String) (value : Option TomlValue) :
    t.insertSome key value k = if k = key then value <|> t k else t k := by
  cases value <;> simp [insertSome]

theorem insert_isSome {t : TomlTable} {k : String} (h : (t k).isSome) (key : String)
    (value : TomlValue) : (t.insert key value k).isSome := by
  rw [insert_apply]
  split
  · rfl
  · exact h

theorem insertSome_isSome {t : TomlTable} {k : String} (h : (t k).isSome) (key : String)
    (value : Option TomlValue) : (t.insertSome key value k).isSome := by
  cases value with
  | none => exact h
  | some value => exact insert_isSome h key value

end TomlTable

/-! ## Reading a configuration -/

namespace TomlValue

def readString : TomlValue → Option String
  | .string s => some s
  | _ => none

/-- `Value::as_integer`. -/
def readInteger : TomlValue → Option Int
  | .integer n => some n
  | _ => none

def readU32 : TomlValue → Option (BitVec 32)
  | .integer n => if 0 ≤ n ∧ n < 2 ^ 32 then some (BitVec.ofInt 32 n) else none
  | _ => none

def readBool : TomlValue → Option Bool
  | .boolean b => some b
  | _ => none

def readStrings : TomlValue → Option (List String)
  | .array values => values.mapM readString
  | _ => none

end TomlValue

open TomlValue

namespace Config

/-- A field that has to be there. -/
def required {α : Type} (read : TomlValue → Option α) (t : TomlTable) (key : String) : Option α :=
  t key >>= read

/-- A field with `#[serde(default)]`. -/
def defaulted {α : Type} (read : TomlValue → Option α) (t : TomlTable) (key : String) (d : α) :
    Option α :=
  match t key with
  | some value => read value
  | none => some d

/-- `toml::from_str`, as `Config` derives it. -/
def fromTable (t : TomlTable) : Option Config := do
  let deviceName ← required readString t "device_name"
  let sampleRate ← required readU32 t "sample_rate"
  let channels ← required readU32 t "channels"
  let latencyMs ← required readU32 t "latency_ms"
  let logLevel ← required readString t "log_level"
  let wasapiExclusive ← required readBool t "wasapi_exclusive"
  let channelNames ← required readStrings t "channel_names"
  let deviceLocked ← required readBool t "device_locked"
  let networkInterface ← required readString t "network_interface"
  let fpp ← defaulted readString t "fpp" "auto"
  let rxBufferSamples ← defaulted readU32 t "rx_buffer_samples" RX_BUFFER_SAMPLES_DEFAULT
  let latencyRefSamples ← defaulted readU32 t "latency_ref_samples" LATENCY_REF_SAMPLES_DEFAULT
  let useDriver ← defaulted readBool t "use_driver" false
  return {
    deviceName := deviceName
    sampleRate := sampleRate
    channels := channels
    latencyMs := latencyMs
    logLevel := logLevel
    wasapiExclusive := wasapiExclusive
    channelNames := channelNames
    deviceLocked := deviceLocked
    networkInterface := networkInterface
    fpp := fpp
    rxBufferSamples := rxBufferSamples
    latencyRefSamples := latencyRefSamples
    useDriver := useDriver }

/-- `toml::to_string_pretty`, as `Config` derives it. -/
def toTable (c : Config) : TomlTable :=
  let t : TomlTable := fun _ => none
  let t := t.insert "device_name" (.string c.deviceName)
  let t := t.insert "sample_rate" (.integer c.sampleRate.toNat)
  let t := t.insert "channels" (.integer c.channels.toNat)
  let t := t.insert "latency_ms" (.integer c.latencyMs.toNat)
  let t := t.insert "log_level" (.string c.logLevel)
  let t := t.insert "wasapi_exclusive" (.boolean c.wasapiExclusive)
  let t := t.insert "channel_names" (.array (c.channelNames.map .string))
  let t := t.insert "device_locked" (.boolean c.deviceLocked)
  let t := t.insert "network_interface" (.string c.networkInterface)
  let t := t.insert "fpp" (.string c.fpp)
  let t := t.insert "rx_buffer_samples" (.integer c.rxBufferSamples.toNat)
  let t := t.insert "latency_ref_samples" (.integer c.latencyRefSamples.toNat)
  t.insert "use_driver" (.boolean c.useDriver)

/-- `Config::load`: what is in the file afterwards. -/
def load (isAlphanumeric : Char → Bool) (checked : Bool) (file : Option TomlTable) :
    Option TomlTable :=
  let config := match file with
    | some t => (fromTable t).getD default
    | none => default
  match config.normalize isAlphanumeric checked with
  | some config => some config.toTable
  | none => file

end Config

/-! ## The programs that write -/

/-- `str::parse::<i64>`. -/
def parseI64 (s : String) : Option Int :=
  match s.toList with
  | '-' :: digits =>
      if digits = [] then none
      else ((digitsValue 10 0 digits).filter (· ≤ 2 ^ 63)).map fun n => -(n : Int)
  | _ => (fromStrRadix 10 (2 ^ 63) s).map Int.ofNat

/-- The minimal configuration of `write_config`. -/
def writeConfig (nic : String) : TomlTable :=
  let config : TomlTable := fun _ => none
  let config := config.insert "device_name" (.string "Inferno")
  let config := config.insert "network_interface" (.string nic)
  let config := config.insert "sample_rate" (.integer 48000)
  let config := config.insert "channels" (.integer 2)
  let config := config.insert "latency_ms" (.integer 10)
  config.insert "fpp" (.string "auto")

/-- What is in the window: the texts, and the entries selected. -/
structure SettingsInput where
  txtDeviceName : String
  comboSampleRate : Option String
  txtChannels : String
  txtLatency : String
  comboNetworkInterface : Option String
  comboFpp : Option String
  txtCustomFpp : String

/-- `split(" (").next()`. -/
def beforeAddress : List Char → List Char
  | ' ' :: '(' :: _ => []
  | c :: rest => c :: beforeAddress rest
  | [] => []

namespace SettingsInput

def sampleRate (w : SettingsInput) : Option Int := w.comboSampleRate >>= parseI64
def channels (w : SettingsInput) : Option Int := parseI64 w.txtChannels
def latencyMs (w : SettingsInput) : Option Int := parseI64 w.txtLatency

/-- Extract name from "name (ip)" format. -/
def networkInterface (w : SettingsInput) : Option String :=
  w.comboNetworkInterface.map fun nicStr => String.ofList (beforeAddress nicStr.toList)

def fpp (w : SettingsInput) : Option String :=
  w.comboFpp.map fun fppDisplay =>
    if fppDisplay = "Auto (negotiate)" then "auto"
    else if fppDisplay = "Min Latency (1 packet)" then "min"
    else if fppDisplay = "Max Efficiency (64 packets)" then "max"
    else if fppDisplay = "Custom..." then w.txtCustomFpp
    else "auto"

/-- `save_config_from_window`. -/
def saveConfigFromWindow (w : SettingsInput) (file : Option TomlTable) : TomlTable :=
  let table := file.getD fun _ => none
  let table := table.insert "device_name" (.string w.txtDeviceName)
  let table := table.insertSome "sample_rate" (w.sampleRate.map .integer)
  let table := table.insertSome "channels" (w.channels.map .integer)
  let table := table.insertSome "latency_ms" (w.latencyMs.map .integer)
  let table := table.insertSome "network_interface" (w.networkInterface.map .string)
  table.insertSome "fpp" (w.fpp.map .string)

end SettingsInput

/-- What the GUI stores. -/
inductive GuiSave where
  | wizard (nic : String)
  | window (w : SettingsInput)

def GuiSave.save (file : Option TomlTable) : GuiSave → TomlTable
  | .wizard nic => writeConfig nic
  | .window w => w.saveConfigFromWindow file

/-- Something is written to the file. -/
inductive ConfigWrite where
  | gui (e : GuiSave)
  | service (checked : Bool)

def ConfigWrite.write (isAlphanumeric : Char → Bool) (file : Option TomlTable) :
    ConfigWrite → Option TomlTable
  | .gui e => some (e.save file)
  | .service checked => Config.load isAlphanumeric checked file

/-- The file after all that was written, from none. -/
def fileAfter (isAlphanumeric : Char → Bool) (history : List ConfigWrite) : Option TomlTable :=
  history.foldl (ConfigWrite.write isAlphanumeric) none

/-! ## What a table has to hold -/

namespace Config

/-- What is read for each field. -/
structure Reads (t : TomlTable) (c : Config) : Prop where
  deviceName : required readString t "device_name" = some c.deviceName
  sampleRate : required readU32 t "sample_rate" = some c.sampleRate
  channels : required readU32 t "channels" = some c.channels
  latencyMs : required readU32 t "latency_ms" = some c.latencyMs
  logLevel : required readString t "log_level" = some c.logLevel
  wasapiExclusive : required readBool t "wasapi_exclusive" = some c.wasapiExclusive
  channelNames : required readStrings t "channel_names" = some c.channelNames
  deviceLocked : required readBool t "device_locked" = some c.deviceLocked
  networkInterface : required readString t "network_interface" = some c.networkInterface
  fpp : defaulted readString t "fpp" "auto" = some c.fpp
  rxBufferSamples : defaulted readU32 t "rx_buffer_samples" RX_BUFFER_SAMPLES_DEFAULT =
    some c.rxBufferSamples
  latencyRefSamples : defaulted readU32 t "latency_ref_samples" LATENCY_REF_SAMPLES_DEFAULT =
    some c.latencyRefSamples
  useDriver : defaulted readBool t "use_driver" false = some c.useDriver

theorem fromTable_eq_some_iff {t : TomlTable} {c : Config} :
    fromTable t = some c ↔ Reads t c := by
  constructor
  · intro h
    rcases Option.bind_eq_some_iff.mp h with ⟨_, h₁, h⟩
    rcases Option.bind_eq_some_iff.mp h with ⟨_, h₂, h⟩
    rcases Option.bind_eq_some_iff.mp h with ⟨_, h₃, h⟩
    rcases Option.bind_eq_some_iff.mp h with ⟨_, h₄, h⟩
    rcases Option.bind_eq_some_iff.mp h with ⟨_, h₅, h⟩
    rcases Option.bind_eq_some_iff.mp h with ⟨_, h₆, h⟩
    rcases Option.bind_eq_some_iff.mp h with ⟨_, h₇, h⟩
    rcases Option.bind_eq_some_iff.mp h with ⟨_, h₈, h⟩
    rcases Option.bind_eq_some_iff.mp h with ⟨_, h₉, h⟩
    rcases Option.bind_eq_some_iff.mp h with ⟨_, h₁₀, h⟩
    rcases Option.bind_eq_some_iff.mp h with ⟨_, h₁₁, h⟩
    rcases Option.bind_eq_some_iff.mp h with ⟨_, h₁₂, h⟩
    rcases Option.bind_eq_some_iff.mp h with ⟨_, h₁₃, h⟩
    cases h
    exact ⟨h₁, h₂, h₃, h₄, h₅, h₆, h₇, h₈, h₉, h₁₀, h₁₁, h₁₂, h₁₃⟩
  · rintro ⟨h₁, h₂, h₃, h₄, h₅, h₆, h₇, h₈, h₉, h₁₀, h₁₁, h₁₂, h₁₃⟩
    rw [fromTable, h₁, h₂, h₃, h₄, h₅, h₆, h₇, h₈, h₉, h₁₀, h₁₁, h₁₂, h₁₃]
    rfl

/-- What the programs agree on about the value of a key. -/
inductive Kind where
  | string
  | integer
  | u32
  | boolean
  | strings

def Kind.check : Kind → TomlValue → Bool
  | .string, v => (readString v).isSome
  | .integer, v => (readInteger v).isSome
  | .u32, v => (readU32 v).isSome
  | .boolean, v => (readBool v).isSome
  | .strings, v => (readStrings v).isSome

/-- The keys without a default. -/
def requiredKeys : List (String × Kind) :=
  [("device_name", .string), ("sample_rate", .integer), ("channels", .integer),
    ("latency_ms", .integer), ("log_level", .string), ("wasapi_exclusive", .boolean),
    ("channel_names", .strings), ("device_locked", .boolean), ("network_interface", .string)]

def defaultedKeys : List (String × Kind) :=
  [("fpp", .string), ("rx_buffer_samples", .u32), ("latency_ref_samples", .u32),
    ("use_driver", .boolean)]

/-- The keys that only the service writes, and that have no default. -/
def serviceKeys : List String := ["log_level", "wasapi_exclusive", "channel_names", "device_locked"]

/-- The numbers that the window writes without a look at their size. -/
def numberKeys : List String := ["sample_rate", "channels", "latency_ms"]

/-- What is there is of the kind that it should be. -/
def Typed (t : TomlTable) : Prop :=
  ∀ key kind, (key, kind) ∈ requiredKeys ++ defaultedKeys → ∀ v, t key = some v →
    kind.check v = true

variable {t : TomlTable}

theorem Typed.insert (h : Typed t) {key : String} {value : TomlValue}
    (hvalue : ∀ kind, (key, kind) ∈ requiredKeys ++ defaultedKeys → kind.check value = true) :
    Typed (t.insert key value) := by
  intro k kind hmem v hv
  rw [TomlTable.insert_apply] at hv
  split at hv
  next heq =>
    subst heq
    cases hv
    exact hvalue kind hmem
  next => exact h k kind hmem v hv

theorem Typed.insertSome (h : Typed t) {key : String} {value : Option TomlValue}
    (hvalue : ∀ v, value = some v → ∀ kind, (key, kind) ∈ requiredKeys ++ defaultedKeys →
      kind.check v = true) : Typed (t.insertSome key value) := by
  cases value with
  | none => exact h
  | some v => exact h.insert (hvalue v rfl)

theorem typed_empty : Typed fun _ => none := by
  intro key kind _ v hv
  cases hv

/-- A table of the right kinds is a configuration exactly if nothing is missing
and the numbers fit. -/
theorem Typed.fromTable_isSome_iff (h : Typed t) :
    (fromTable t).isSome ↔ (∀ p ∈ requiredKeys, (t p.1).isSome) ∧
      ∀ key ∈ numberKeys, ∀ n, t key = some (.integer n) → 0 ≤ n ∧ n < 2 ^ 32 := by
  constructor
  · intro hsome
    rcases Option.isSome_iff_exists.mp hsome with ⟨c, hc⟩
    have hreads := fromTable_eq_some_iff.mp hc
    have hpresent : ∀ {α : Type} {read : TomlValue → Option α} {key : String} {x : α},
        required read t key = some x → (t key).isSome := by
      intro α read key x hx
      rcases Option.bind_eq_some_iff.mp hx with ⟨v, hv, _⟩
      simp [hv]
    have hfits : ∀ {key : String} {x : BitVec 32}, required readU32 t key = some x →
        ∀ n, t key = some (.integer n) → 0 ≤ n ∧ n < 2 ^ 32 := by
      intro key x hx n hn
      rw [required, hn] at hx
      by_contra hbig
      have hnone : readU32 (.integer n) = none := if_neg hbig
      exact absurd (hnone.symm.trans hx) (Option.some_ne_none x).symm
    refine ⟨?_, ?_⟩
    · simp only [requiredKeys, List.forall_mem_cons, List.not_mem_nil, false_imp_iff,
        implies_true, and_true]
      exact ⟨hpresent hreads.deviceName, hpresent hreads.sampleRate, hpresent hreads.channels,
        hpresent hreads.latencyMs, hpresent hreads.logLevel, hpresent hreads.wasapiExclusive,
        hpresent hreads.channelNames, hpresent hreads.deviceLocked,
        hpresent hreads.networkInterface⟩
    · simp only [numberKeys, List.forall_mem_cons, List.not_mem_nil, false_imp_iff,
        implies_true, and_true]
      exact ⟨hfits hreads.sampleRate, hfits hreads.channels, hfits hreads.latencyMs⟩
  · rintro ⟨hpresent, hfits⟩
    have hread : ∀ {α : Type} {read : TomlValue → Option α} {key : String} {kind : Kind},
        (key, kind) ∈ requiredKeys → (∀ v, kind.check v = true → (read v).isSome) →
        ∃ x, required read t key = some x := by
      intro α read key kind hmem hcheck
      rcases Option.isSome_iff_exists.mp (hpresent _ hmem) with ⟨v, hv⟩
      have hsome := hcheck v (h key kind (List.mem_append_left _ hmem) v hv)
      rw [required, hv]
      exact Option.isSome_iff_exists.mp hsome
    have hnumber : ∀ {key : String}, (key, Kind.integer) ∈ requiredKeys → key ∈ numberKeys →
        ∃ x, required readU32 t key = some x := by
      intro key hmem hkey
      rcases Option.isSome_iff_exists.mp (hpresent _ hmem) with ⟨v, hv⟩
      have hinteger := h key .integer (List.mem_append_left _ hmem) v hv
      cases v with
      | integer n =>
          have hrange := hfits key hkey n hv
          rw [required, hv]
          exact ⟨_, if_pos hrange⟩
      | string s => cases hinteger
      | boolean b => cases hinteger
      | array vs => cases hinteger
    have hdefault : ∀ {α : Type} {read : TomlValue → Option α} {key : String} {kind : Kind} {d : α},
        (key, kind) ∈ defaultedKeys → (∀ v, kind.check v = true → (read v).isSome) →
        ∃ x, defaulted read t key d = some x := by
      intro α read key kind d hmem hcheck
      unfold defaulted
      cases hv : t key with
      | none => exact ⟨d, rfl⟩
      | some v =>
          have hsome := hcheck v (h key kind (List.mem_append_right _ hmem) v hv)
          exact Option.isSome_iff_exists.mp hsome
    rcases @hread _ readString "device_name" .string (by simp [requiredKeys]) fun _ => id with ⟨_, h₁⟩
    rcases @hnumber "sample_rate" (by simp [requiredKeys]) (by simp [numberKeys]) with ⟨_, h₂⟩
    rcases @hnumber "channels" (by simp [requiredKeys]) (by simp [numberKeys]) with ⟨_, h₃⟩
    rcases @hnumber "latency_ms" (by simp [requiredKeys]) (by simp [numberKeys]) with ⟨_, h₄⟩
    rcases @hread _ readString "log_level" .string (by simp [requiredKeys]) fun _ => id with ⟨_, h₅⟩
    rcases @hread _ readBool "wasapi_exclusive" .boolean (by simp [requiredKeys]) fun _ => id
      with ⟨_, h₆⟩
    rcases @hread _ readStrings "channel_names" .strings (by simp [requiredKeys]) fun _ => id
      with ⟨_, h₇⟩
    rcases @hread _ readBool "device_locked" .boolean (by simp [requiredKeys]) fun _ => id
      with ⟨_, h₈⟩
    rcases @hread _ readString "network_interface" .string (by simp [requiredKeys]) fun _ => id
      with ⟨_, h₉⟩
    rcases @hdefault _ readString "fpp" .string "auto" (by simp [defaultedKeys]) fun _ => id
      with ⟨_, h₁₀⟩
    rcases @hdefault _ readU32 "rx_buffer_samples" .u32 RX_BUFFER_SAMPLES_DEFAULT
      (by simp [defaultedKeys]) fun _ => id with ⟨_, h₁₁⟩
    rcases @hdefault _ readU32 "latency_ref_samples" .u32 LATENCY_REF_SAMPLES_DEFAULT
      (by simp [defaultedKeys]) fun _ => id with ⟨_, h₁₂⟩
    rcases @hdefault _ readBool "use_driver" .boolean false (by simp [defaultedKeys]) fun _ => id
      with ⟨_, h₁₃⟩
    rw [fromTable, h₁, h₂, h₃, h₄, h₅, h₆, h₇, h₈, h₉, h₁₀, h₁₁, h₁₂, h₁₃]
    rfl

/-! ## Histories of the file -/

/-- What is written is of the right kind, and a key of the service comes with
all the others. -/
structure Written (t : TomlTable) : Prop where
  typed : Typed t
  deviceName : (t "device_name").isSome
  complete : (t "log_level").isSome → ∀ p ∈ requiredKeys, (t p.1).isSome

theorem toTable_written (c : Config) : Written c.toTable := by
  have hu32 : ∀ n : BitVec 32, (readU32 (.integer n.toNat)).isSome := by
    intro n
    have hlt := n.isLt
    have hrange : (0 : Int) ≤ n.toNat ∧ (n.toNat : Int) < 2 ^ 32 := by omega
    simp only [readU32, if_pos hrange, Option.isSome_some]
  have hstrings : (readStrings (.array (c.channelNames.map .string))).isSome := by
    have hmap : (c.channelNames.map TomlValue.string).mapM readString = some c.channelNames := by
      induction c.channelNames with
      | nil => rfl
      | cons name names ih => simp [List.mapM_cons, ih, readString]
    simp [readStrings, hmap]
  refine ⟨?_, by simp [toTable], fun _ p hp => ?_⟩
  · iterate 13
      refine Typed.insert ?_ (by
        simp [requiredKeys, defaultedKeys, Kind.check, readString, readInteger, readBool, hu32,
          hstrings])
    exact typed_empty
  · simp only [requiredKeys, List.mem_cons, List.not_mem_nil, or_false] at hp
    rcases hp with rfl | rfl | rfl | rfl | rfl | rfl | rfl | rfl | rfl <;> simp [toTable]

theorem writeConfig_written (nic : String) : Written (writeConfig nic) := by
  refine ⟨?_, by simp [writeConfig], fun h => ?_⟩
  · iterate 6
      refine Typed.insert ?_ (by
        simp [requiredKeys, defaultedKeys, Kind.check, readString, readInteger])
    exact typed_empty
  · simp [writeConfig] at h

end Config

namespace SettingsInput

open Config

/-- The window touches no other key. -/
theorem saveConfigFromWindow_other (w : SettingsInput) (file : Option TomlTable) {key : String}
    (h : key ∉ ["device_name", "sample_rate", "channels", "latency_ms", "network_interface",
      "fpp"]) : w.saveConfigFromWindow file key = (file.getD fun _ => none) key := by
  simp only [List.mem_cons, List.not_mem_nil, or_false, not_or] at h
  simp [saveConfigFromWindow, h]

/-- Nothing is taken out of the table. -/
theorem saveConfigFromWindow_isSome (w : SettingsInput) (t : TomlTable) {key : String}
    (h : (t key).isSome) : (w.saveConfigFromWindow (some t) key).isSome := by
  have hname := TomlTable.insert_isSome h "device_name" (.string w.txtDeviceName)
  have hrate := TomlTable.insertSome_isSome hname "sample_rate" (w.sampleRate.map .integer)
  have hchannels := TomlTable.insertSome_isSome hrate "channels" (w.channels.map .integer)
  have hlatency := TomlTable.insertSome_isSome hchannels "latency_ms" (w.latencyMs.map .integer)
  have hnetwork := TomlTable.insertSome_isSome hlatency "network_interface"
    (w.networkInterface.map .string)
  exact TomlTable.insertSome_isSome hnetwork "fpp" (w.fpp.map .string)

theorem saveConfigFromWindow_typed (w : SettingsInput) {file : Option TomlTable}
    (h : ∀ t, file = some t → Typed t) : Typed (w.saveConfigFromWindow file) := by
  have hfile : Typed (file.getD fun _ => none) := by
    cases file with
    | none => exact typed_empty
    | some t => exact h t rfl
  have hstring : ∀ {value : Option String} {v : TomlValue}, value.map .string = some v →
      Kind.check .string v = true := by
    intro value v hv
    rcases Option.map_eq_some_iff.mp hv with ⟨s, _, rfl⟩
    rfl
  have hinteger : ∀ {value : Option Int} {v : TomlValue}, value.map .integer = some v →
      Kind.check .integer v = true := by
    intro value v hv
    rcases Option.map_eq_some_iff.mp hv with ⟨n, _, rfl⟩
    rfl
  have hname : Typed ((file.getD fun _ => none).insert "device_name" (.string w.txtDeviceName)) :=
    hfile.insert (by simp [requiredKeys, defaultedKeys, Kind.check, readString])
  refine ((((hname.insertSome ?_).insertSome ?_).insertSome ?_).insertSome ?_).insertSome ?_
  · intro v hv
    simpa [requiredKeys, defaultedKeys] using hinteger hv
  · intro v hv
    simpa [requiredKeys, defaultedKeys] using hinteger hv
  · intro v hv
    simpa [requiredKeys, defaultedKeys] using hinteger hv
  · intro v hv
    simpa [requiredKeys, defaultedKeys] using hstring hv
  · intro v hv
    simpa [requiredKeys, defaultedKeys] using hstring hv

theorem saveConfigFromWindow_written (w : SettingsInput) {file : Option TomlTable}
    (h : ∀ t, file = some t → Written t) : Written (w.saveConfigFromWindow file) := by
  refine ⟨w.saveConfigFromWindow_typed fun t ht => (h t ht).typed, ?_, fun hlog => ?_⟩
  · simp [saveConfigFromWindow]
  · rw [w.saveConfigFromWindow_other file (by simp)] at hlog
    cases file with
    | none => cases hlog
    | some t =>
        intro p hp
        exact w.saveConfigFromWindow_isSome t ((h t rfl).complete hlog p hp)

end SettingsInput

open Config SettingsInput

variable {isAlphanumeric : Char → Bool}

/-- Whatever is written next, what is in the file is well formed. -/
theorem ConfigWrite.write_written {file : Option TomlTable} (e : ConfigWrite)
    (h : ∀ t, file = some t → Written t) :
    ∀ t, e.write isAlphanumeric file = some t → Written t := by
  intro t ht
  cases e with
  | gui e =>
      cases ht
      cases e with
      | wizard nic => exact writeConfig_written nic
      | window w => exact w.saveConfigFromWindow_written h
  | service checked =>
      change Config.load isAlphanumeric checked file = some t at ht
      unfold Config.load at ht
      dsimp only at ht
      split at ht
      · cases ht
        exact toTable_written _
      · exact h t ht

theorem fileAfter_written (history : List ConfigWrite) :
    ∀ t, fileAfter isAlphanumeric history = some t → Written t := by
  induction history using List.reverseRecOn with
  | nil =>
      intro t ht
      cases ht
  | append_singleton history e ih =>
      intro t ht
      rw [fileAfter, List.foldl_append] at ht
      exact e.write_written ih t ht

/-! ## What the service reads -/

/-- The numbers that the window writes, with their keys. -/
def SettingsInput.numbers (w : SettingsInput) : List (String × Option Int) :=
  [("sample_rate", w.sampleRate), ("channels", w.channels), ("latency_ms", w.latencyMs)]

/-- A configuration has the values that were stored. -/
def GuiSave.Kept (c : Config) : GuiSave → Prop
  | .wizard nic => c.sampleRate = 48000 ∧ c.channels = 2 ∧ c.latencyMs = 10 ∧
      c.networkInterface = nic ∧ c.fpp = "auto"
  | .window w => (∀ n, w.sampleRate = some n → (c.sampleRate.toNat : Int) = n) ∧
      (∀ n, w.channels = some n → (c.channels.toNat : Int) = n) ∧
      (∀ n, w.latencyMs = some n → (c.latencyMs.toNat : Int) = n) ∧
      (∀ nic, w.networkInterface = some nic → c.networkInterface = nic) ∧
      ∀ fpp, w.fpp = some fpp → c.fpp = fpp

/-- The service reads what was stored. -/
def GuiSave.Honoured (file : Option TomlTable) (e : GuiSave) : Prop :=
  ∃ c, Config.fromTable (e.save file) = some c ∧ e.Kept c

/-- The window finds the keys of the service, and writes numbers that fit or
leaves such. -/
def GuiSave.Acceptable (file : Option TomlTable) : GuiSave → Prop
  | .wizard _ => False
  | .window w => ∃ t, file = some t ∧ (∀ key ∈ serviceKeys, (t key).isSome) ∧
      ∀ p ∈ w.numbers, ∀ n, (p.2 <|> (t p.1 >>= readInteger)) = some n → 0 ≤ n ∧ n < 2 ^ 32

theorem SettingsInput.saveConfigFromWindow_number (w : SettingsInput) (file : Option TomlTable)
    {p : String × Option Int} (hp : p ∈ w.numbers) :
    w.saveConfigFromWindow file p.1 =
      (p.2.map TomlValue.integer <|> (file.getD fun _ => none) p.1) := by
  simp only [numbers, List.mem_cons, List.not_mem_nil, or_false] at hp
  rcases hp with rfl | rfl | rfl <;> simp [saveConfigFromWindow]

theorem number_stored_iff {new : Option Int} {old : Option TomlValue} {n : Int} :
    (new <|> (old >>= readInteger)) = some n ↔
      (new.map TomlValue.integer <|> old) = some (.integer n) := by
  cases new with
  | some m => simp
  | none =>
      rcases old with _ | ⟨_⟩ | ⟨_⟩ | ⟨_⟩ | ⟨_⟩ <;> simp [readInteger]

/-- A number that is read is the one in the table. -/
theorem toNat_of_required {t : TomlTable} {key : String} {x : BitVec 32} {n : Int}
    (h : required readU32 t key = some x) (hn : t key = some (.integer n)) : (x.toNat : Int) = n := by
  rw [required, hn] at h
  change readU32 (.integer n) = some x at h
  simp only [readU32] at h
  by_cases hrange : 0 ≤ n ∧ n < 2 ^ 32
  · rw [if_pos hrange] at h
    cases h
    rw [BitVec.toNat_ofInt]
    omega
  · rw [if_neg hrange] at h
    cases h

theorem string_of_required {t : TomlTable} {key s s' : String}
    (h : required readString t key = some s) (hs : t key = some (.string s')) : s = s' := by
  rw [required, hs] at h
  cases h
  rfl

/-- What the window has stored is what is read, if anything is. -/
theorem SettingsInput.kept_of_reads (w : SettingsInput) {file : Option TomlTable} {c : Config}
    (h : Config.Reads (w.saveConfigFromWindow file) c) : (GuiSave.window w).Kept c := by
  have hnumber : ∀ p ∈ w.numbers, ∀ n, p.2 = some n →
      w.saveConfigFromWindow file p.1 = some (.integer n) := by
    intro p hp n hn
    rw [w.saveConfigFromWindow_number file hp, hn]
    rfl
  refine ⟨fun n hn => ?_, fun n hn => ?_, fun n hn => ?_, fun nic hnic => ?_, fun fpp hfpp => ?_⟩
  · exact toNat_of_required h.sampleRate
      (hnumber ("sample_rate", w.sampleRate) (by simp [numbers]) n hn)
  · exact toNat_of_required h.channels (hnumber ("channels", w.channels) (by simp [numbers]) n hn)
  · exact toNat_of_required h.latencyMs
      (hnumber ("latency_ms", w.latencyMs) (by simp [numbers]) n hn)
  · exact string_of_required h.networkInterface (by simp [saveConfigFromWindow, hnic])
  · have hread := h.fpp
    have hstored : w.saveConfigFromWindow file "fpp" = some (.string fpp) := by
      simp [saveConfigFromWindow, hfpp]
    rw [defaulted, hstored] at hread
    cases hread
    rfl

/-- In every history of the file, the service reads what the GUI has stored
exactly if this was the settings window, the file was of the service before, and
the numbers that are there now are `u32`. -/
theorem gui_save_honoured_iff (isAlphanumeric : Char → Bool) (history : List ConfigWrite)
    (e : GuiSave) : e.Honoured (fileAfter isAlphanumeric history) ↔
      e.Acceptable (fileAfter isAlphanumeric history) := by
  have hwritten := @fileAfter_written isAlphanumeric history
  generalize fileAfter isAlphanumeric history = file at hwritten
  cases e with
  | wizard nic =>
      refine iff_of_false ?_ id
      rintro ⟨c, hc, -⟩
      have hsome := (writeConfig_written nic).typed.fromTable_isSome_iff.mp
        (Option.isSome_of_eq_some hc)
      have hlog := hsome.1 ("log_level", .string) (by simp [requiredKeys])
      simp [writeConfig] at hlog
  | window w =>
      have hsave := w.saveConfigFromWindow_written hwritten
      constructor
      · rintro ⟨c, hc, -⟩
        rcases hsave.typed.fromTable_isSome_iff.mp (Option.isSome_of_eq_some hc) with
          ⟨hpresent, hfits⟩
        have hother : ∀ key ∈ serviceKeys, ((file.getD fun _ => none) key).isSome := by
          intro key hkey
          have hrequired : ∃ kind, (key, kind) ∈ requiredKeys := by
            simp only [serviceKeys, List.mem_cons, List.not_mem_nil, or_false] at hkey
            rcases hkey with rfl | rfl | rfl | rfl <;> simp [requiredKeys]
          rcases hrequired with ⟨kind, hkind⟩
          rw [← w.saveConfigFromWindow_other file]
          · exact hpresent _ hkind
          · simp only [serviceKeys, List.mem_cons, List.not_mem_nil, or_false] at hkey
            rcases hkey with rfl | rfl | rfl | rfl <;> simp
        cases file with
        | none => cases hother "log_level" (by simp [serviceKeys])
        | some t =>
            refine ⟨t, rfl, hother, fun p hp n hn => ?_⟩
            have hkey : p.1 ∈ numberKeys := by
              simp only [SettingsInput.numbers, List.mem_cons, List.not_mem_nil, or_false] at hp
              rcases hp with rfl | rfl | rfl <;> simp [numberKeys]
            refine hfits p.1 hkey n ?_
            rw [w.saveConfigFromWindow_number _ hp]
            exact number_stored_iff.mp hn
      · rintro ⟨t, rfl, hkeys, hnumbers⟩
        have hall := (hwritten t rfl).complete (hkeys "log_level" (by simp [serviceKeys]))
        have hsome := hsave.typed.fromTable_isSome_iff.mpr
          ⟨fun p hp => w.saveConfigFromWindow_isSome t (hall p hp), fun key hkey n hn => ?_⟩
        · rcases Option.isSome_iff_exists.mp hsome with ⟨c, hc⟩
          exact ⟨c, hc, w.kept_of_reads (fromTable_eq_some_iff.mp hc)⟩
        · have hfind : ∃ p ∈ w.numbers, p.1 = key := by
            simp only [numberKeys, List.mem_cons, List.not_mem_nil, or_false] at hkey
            rcases hkey with rfl | rfl | rfl <;> simp [SettingsInput.numbers]
          rcases hfind with ⟨p, hp, rfl⟩
          rw [w.saveConfigFromWindow_number _ hp] at hn
          exact hnumbers p hp n (number_stored_iff.mpr hn)

/-- There is no file, and the wizard's choice is not read. -/
theorem wizard_not_honoured : ¬∀ (isAlphanumeric : Char → Bool) (history : List ConfigWrite)
    (e : GuiSave), e.Honoured (fileAfter isAlphanumeric history) := by
  intro h
  rcases h Char.isAlphanum [] (.wizard "Ethernet") with ⟨c, hc, -⟩
  have hnone : Config.fromTable (writeConfig "Ethernet") = none := rfl
  exact absurd (hnone.symm.trans hc) (Option.some_ne_none c).symm

end Inferno
