import Inferno.ReceiveSafety
import Inferno.Lib.Utf8Slices

/-!
# The configuration of the service

`Config`, and what `Config::load` makes of the values it has read. A length in
bytes decides whether a name is cut, and the cut is made in characters: what
comes out is valid, and stays as it is, exactly if the characters that are kept
are no more bytes than a name may have, and `rx_buffer_samples` has a next power
of two (`normalize_valid_iff`).

`isAlphanumeric` is `char::is_alphanumeric`.
-/

namespace Inferno

open Utf8Slices

/-- `inferno_wasapi`'s `Config`. -/
structure Config where
  deviceName : String
  sampleRate : BitVec 32
  channels : BitVec 32
  latencyMs : BitVec 32
  logLevel : String
  wasapiExclusive : Bool
  channelNames : List String
  deviceLocked : Bool
  networkInterface : String
  fpp : String
  rxBufferSamples : BitVec 32
  latencyRefSamples : BitVec 32
  useDriver : Bool
deriving DecidableEq

namespace Config

def DEVICE_NAME_MAX_LEN : Nat := 31
def MAX_CHANNELS : Nat := 64
def RX_BUFFER_SAMPLES_DEFAULT : BitVec 32 := 524288
def LATENCY_REF_SAMPLES_DEFAULT : BitVec 32 := 4800
def SUPPORTED_RATES : List (BitVec 32) := [44100, 48000, 96000]

/-- `Config::default`. -/
def default : Config where
  deviceName := "InfernoAoIP"
  sampleRate := 48000
  channels := 2
  latencyMs := 10
  logLevel := "info"
  wasapiExclusive := false
  channelNames := []
  deviceLocked := false
  networkInterface := ""
  fpp := "auto"
  rxBufferSamples := 524288
  latencyRefSamples := 4800
  useDriver := false

/-! ## Normalisation -/

/-- "Validate sample rate". -/
def validateSampleRate (c : Config) : Config :=
  if c.sampleRate = 44100 ∨ c.sampleRate = 48000 ∨ c.sampleRate = 96000 then c
  else { c with sampleRate := 48000 }

/-- "Validate channel count". -/
def validateChannels (c : Config) : Config :=
  if c.channels = 0 ∨ 64 < c.channels.toNat then { c with channels := 2 } else c

/-- "Validate and clamp rx_buffer_samples to next power of 2"; with overflow
checks there may be none to clamp to. -/
def nextRxBufferSamples (checked : Bool) (rxBufferSamples : BitVec 32) : Option (BitVec 32) :=
  if rxBufferSamples = 0 then some 524288
  else if rxBufferSamples.toNat.isPowerOfTwo then some rxBufferSamples
  else
    let nextPow2 := nextPowerOfTwo rxBufferSamples.toNat
    if checked ∧ 2 ^ 32 ≤ nextPow2 then none else some (BitVec.ofNat 32 nextPow2)

/-- "Enforce Dante 31-char device name limit". -/
def truncateDeviceName (deviceName : String) : String :=
  if deviceName.utf8ByteSize > 31 then String.ofList (deviceName.toList.take 31) else deviceName

section

variable (isAlphanumeric : Char → Bool)

def validChar (c : Char) : Bool := isAlphanumeric c || c = '-' || c = ' '

/-- "Also validate no special chars". -/
def sanitizeDeviceName (deviceName : String) : String :=
  let valid := String.ofList
    (deviceName.toList.map fun c => if validChar isAlphanumeric c then c else '-')
  if valid ≠ deviceName then valid else deviceName

/-- What `Config::load` does with the values it has read; `none` is a panic. -/
def normalize (checked : Bool) (c : Config) : Option Config := do
  let c := c.validateSampleRate
  let c := c.validateChannels
  let rxBufferSamples ← nextRxBufferSamples checked c.rxBufferSamples
  let c := { c with rxBufferSamples := rxBufferSamples }
  let c := { c with deviceName := truncateDeviceName c.deviceName }
  return { c with deviceName := sanitizeDeviceName isAlphanumeric c.deviceName }

/-- What the service relies on. -/
structure Valid (c : Config) : Prop where
  sampleRate : c.sampleRate ∈ SUPPORTED_RATES
  channels : 1 ≤ c.channels.toNat ∧ c.channels.toNat ≤ MAX_CHANNELS
  rxBufferSamples : c.rxBufferSamples.toNat.isPowerOfTwo
  deviceName_size : c.deviceName.utf8ByteSize ≤ DEVICE_NAME_MAX_LEN
  deviceName_chars : ∀ ch ∈ c.deviceName.toList, validChar isAlphanumeric ch = true

/-- The bytes that a character takes after it was sanitized. -/
def sanitizedSize (ch : Char) : Nat := if validChar isAlphanumeric ch then ch.utf8Size else 1

end

/-! ### The rate, the channels and the rings -/

theorem validateSampleRate_supported (c : Config) :
    c.validateSampleRate.sampleRate ∈ SUPPORTED_RATES := by
  unfold validateSampleRate SUPPORTED_RATES
  split
  next h => simpa using h
  next => simp

theorem validateSampleRate_of_supported {c : Config} (h : c.sampleRate ∈ SUPPORTED_RATES) :
    c.validateSampleRate = c := by
  rw [validateSampleRate, if_pos (by simpa [SUPPORTED_RATES] using h)]

theorem validateChannels_range (c : Config) :
    1 ≤ c.validateChannels.channels.toNat ∧
      c.validateChannels.channels.toNat ≤ MAX_CHANNELS := by
  unfold validateChannels MAX_CHANNELS
  split
  · simp
  next h =>
    rcases not_or.mp h with ⟨hzero, hle⟩
    have hne : c.channels.toNat ≠ 0 := fun h0 => hzero (BitVec.eq_of_toNat_eq h0)
    omega

theorem validateChannels_of_range {c : Config}
    (h : 1 ≤ c.channels.toNat ∧ c.channels.toNat ≤ MAX_CHANNELS) : c.validateChannels = c := by
  unfold MAX_CHANNELS at h
  refine if_neg ?_
  rintro (hzero | hlt)
  · rw [hzero] at h
    simp at h
  · omega

variable {checked : Bool}

theorem nextRxBufferSamples_of_pow {n : BitVec 32} (h : n.toNat.isPowerOfTwo) :
    nextRxBufferSamples checked n = some n := by
  have hne : n ≠ 0 := by
    rintro rfl
    rcases h with ⟨k, hk⟩
    exact absurd hk (Nat.two_pow_pos k).ne
  rw [nextRxBufferSamples, if_neg hne, if_pos h]

/-- Up to `2^31` there is a power of two to clamp to. -/
theorem nextRxBufferSamples_small {n : BitVec 32} (h : n.toNat ≤ 2 ^ 31) :
    ∃ n', nextRxBufferSamples checked n = some n' ∧ n'.toNat.isPowerOfTwo := by
  unfold nextRxBufferSamples
  split
  · exact ⟨_, rfl, 19, rfl⟩
  · split
    next hpow => exact ⟨n, rfl, hpow⟩
    next =>
      have hle := nextPowerOfTwo_le h
      refine ⟨_, if_neg (by omega), ?_⟩
      rw [BitVec.toNat_ofNat, Nat.mod_eq_of_lt (by omega)]
      exact isPowerOfTwo_nextPowerOfTwo _

/-- Above there is none. -/
theorem nextRxBufferSamples_big {n n' : BitVec 32} (h : 2 ^ 31 < n.toNat)
    (hrun : nextRxBufferSamples checked n = some n') : n' = 0 := by
  have hlt := n.isLt
  have hbetween : ∀ k, 2 ^ 31 < 2 ^ k → 32 ≤ k :=
    fun k hk => (Nat.pow_lt_pow_iff_right (by decide)).mp hk
  have hnext : nextPowerOfTwo n.toNat = 2 ^ 32 := by
    refine Nat.le_antisymm (nextPowerOfTwo_le hlt.le) ?_
    rcases isPowerOfTwo_nextPowerOfTwo n.toNat with ⟨k, hk⟩
    have hge := le_nextPowerOfTwo n.toNat
    rw [hk] at hge ⊢
    exact Nat.pow_le_pow_right (by decide) (hbetween k (by omega))
  unfold nextRxBufferSamples at hrun
  split at hrun
  next hzero =>
    rw [hzero] at h
    simp at h
  · split at hrun
    next hpow =>
      rcases hpow with ⟨k, hk⟩
      have hge := hbetween k (by omega)
      have hfull := Nat.pow_le_pow_right (n := 2) (by decide) hge
      omega
    next =>
      dsimp only at hrun
      split at hrun
      · cases hrun
      · rw [hnext] at hrun
        cases hrun
        rfl

/-- Without overflow checks it is what the rings are made with. -/
theorem nextRxBufferSamples_unchecked (n : BitVec 32) :
    nextRxBufferSamples false n = some (clampRxBufferSamples n) := by
  unfold nextRxBufferSamples clampRxBufferSamples
  split
  · rfl
  · split
    · rfl
    · simp

/-! ### The name -/

/-- A name that is short enough in bytes is so in characters. -/
theorem truncateDeviceName_eq (deviceName : String) :
    truncateDeviceName deviceName = String.ofList (deviceName.toList.take 31) := by
  unfold truncateDeviceName
  split
  · rfl
  next hshort =>
    have hlen := length_le_utf8Len deviceName.toList
    rw [utf8Len_toList] at hlen
    rw [List.take_of_length_le (by omega), String.ofList_toList]

section

variable {isAlphanumeric : Char → Bool}

theorem validChar_hyphen : validChar isAlphanumeric '-' = true := by simp [validChar]

theorem sanitizeDeviceName_eq (deviceName : String) :
    sanitizeDeviceName isAlphanumeric deviceName = String.ofList
      (deviceName.toList.map fun c => if validChar isAlphanumeric c then c else '-') := by
  unfold sanitizeDeviceName
  dsimp only
  split
  · rfl
  next h => exact (not_not.mp h).symm

theorem sanitizeDeviceName_toList (deviceName : String) :
    (sanitizeDeviceName isAlphanumeric deviceName).toList =
      deviceName.toList.map fun c => if validChar isAlphanumeric c then c else '-' := by
  rw [sanitizeDeviceName_eq, String.toList_ofList]

theorem sanitizeDeviceName_chars (deviceName : String) :
    ∀ ch ∈ (sanitizeDeviceName isAlphanumeric deviceName).toList,
      validChar isAlphanumeric ch = true := by
  intro ch hch
  rw [sanitizeDeviceName_toList] at hch
  rcases List.mem_map.mp hch with ⟨c, _, rfl⟩
  split
  next hvalid => exact hvalid
  next => exact validChar_hyphen

theorem sanitizeDeviceName_of_valid {deviceName : String}
    (h : ∀ ch ∈ deviceName.toList, validChar isAlphanumeric ch = true) :
    sanitizeDeviceName isAlphanumeric deviceName = deviceName := by
  rw [sanitizeDeviceName_eq, List.map_congr_left fun c hc => if_pos (h c hc), List.map_id',
    String.ofList_toList]

theorem utf8Len_sanitized (cs : List Char) :
    String.utf8Len (cs.map fun c => if validChar isAlphanumeric c then c else '-') =
      (cs.map (sanitizedSize isAlphanumeric)).sum := by
  induction cs with
  | nil => rfl
  | cons c cs ih =>
      have hhyphen : Char.utf8Size '-' = 1 := rfl
      rw [List.map_cons, List.map_cons, String.utf8Len_cons, List.sum_cons, ih, Nat.add_comm,
        sanitizedSize]
      split
      · rfl
      · rw [hhyphen]

/-- The name that a configuration ends up with. -/
def normalName (isAlphanumeric : Char → Bool) (deviceName : String) : String :=
  sanitizeDeviceName isAlphanumeric (truncateDeviceName deviceName)

theorem normalName_size (deviceName : String) :
    (normalName isAlphanumeric deviceName).utf8ByteSize =
      ((deviceName.toList.take 31).map (sanitizedSize isAlphanumeric)).sum := by
  rw [normalName, sanitizeDeviceName_eq, String.utf8ByteSize_ofList, utf8Len_sanitized,
    truncateDeviceName_eq, String.toList_ofList]

theorem normalName_of_valid {deviceName : String}
    (hsize : deviceName.utf8ByteSize ≤ DEVICE_NAME_MAX_LEN)
    (h : ∀ ch ∈ deviceName.toList, validChar isAlphanumeric ch = true) :
    normalName isAlphanumeric deviceName = deviceName := by
  unfold DEVICE_NAME_MAX_LEN at hsize
  rw [normalName, truncateDeviceName, if_neg (by omega), sanitizeDeviceName_of_valid h]

/-! ### The whole -/

theorem validate_rest (c : Config) :
    c.validateSampleRate.validateChannels.rxBufferSamples = c.rxBufferSamples ∧
      c.validateSampleRate.validateChannels.deviceName = c.deviceName := by
  have hrate : c.validateSampleRate.rxBufferSamples = c.rxBufferSamples ∧
      c.validateSampleRate.deviceName = c.deviceName := by
    unfold validateSampleRate
    split <;> exact ⟨rfl, rfl⟩
  have hchannels : ∀ d : Config, d.validateChannels.rxBufferSamples = d.rxBufferSamples ∧
      d.validateChannels.deviceName = d.deviceName := by
    intro d
    unfold validateChannels
    split <;> exact ⟨rfl, rfl⟩
  exact ⟨(hchannels _).1.trans hrate.1, (hchannels _).2.trans hrate.2⟩

/-- What comes out, if the rings have a size. -/
theorem normalize_eq (c : Config) :
    c.normalize isAlphanumeric checked = (nextRxBufferSamples checked c.rxBufferSamples).map
      fun rxBufferSamples => { c.validateSampleRate.validateChannels with
        rxBufferSamples := rxBufferSamples
        deviceName := normalName isAlphanumeric c.deviceName } := by
  rw [normalize, (validate_rest c).1]
  cases nextRxBufferSamples checked c.rxBufferSamples with
  | none => rfl
  | some n => simp [normalName, (validate_rest c).2]

theorem normalize_of_valid {c : Config} (h : c.Valid isAlphanumeric) :
    c.normalize isAlphanumeric checked = some c := by
  rw [normalize_eq, nextRxBufferSamples_of_pow h.rxBufferSamples,
    validateSampleRate_of_supported h.sampleRate, validateChannels_of_range h.channels,
    normalName_of_valid h.deviceName_size h.deviceName_chars]
  rfl

/-- Normalisation comes to an end with a valid configuration, which it leaves as
it is, and so it does with every configuration that is valid. -/
def WellNormalized (isAlphanumeric : Char → Bool) (checked : Bool) (c : Config) : Prop :=
  ∃ c', c.normalize isAlphanumeric checked = some c' ∧ c'.Valid isAlphanumeric ∧
    (c.Valid isAlphanumeric → c' = c) ∧ c'.normalize isAlphanumeric checked = some c'

/-- A configuration is normalised well exactly if its rings have a next power of
two, and the first 31 characters of its name, sanitized, are no more bytes than
a name may have. -/
theorem normalize_valid_iff (isAlphanumeric : Char → Bool) (checked : Bool) (c : Config) :
    c.WellNormalized isAlphanumeric checked ↔
      c.rxBufferSamples.toNat ≤ 2 ^ 31 ∧
        ((c.deviceName.toList.take 31).map (sanitizedSize isAlphanumeric)).sum ≤
          DEVICE_NAME_MAX_LEN := by
  constructor
  · rintro ⟨c', hrun, hvalid, -, -⟩
    rw [normalize_eq] at hrun
    rcases Option.map_eq_some_iff.mp hrun with ⟨n, hn, rfl⟩
    refine ⟨?_, ?_⟩
    · by_contra hbig
      have hzero := nextRxBufferSamples_big (Nat.not_le.mp hbig) hn
      subst hzero
      rcases hvalid.rxBufferSamples with ⟨k, hk⟩
      exact absurd hk (Nat.two_pow_pos k).ne
    · have hsize := hvalid.deviceName_size
      dsimp only at hsize
      rwa [normalName_size] at hsize
  · rintro ⟨hrx, hname⟩
    rcases @nextRxBufferSamples_small checked _ hrx with ⟨n, hn, hpow⟩
    have hrun := @normalize_eq checked isAlphanumeric c
    rw [hn, Option.map_some] at hrun
    have hvalid : Valid isAlphanumeric { c.validateSampleRate.validateChannels with
        rxBufferSamples := n
        deviceName := normalName isAlphanumeric c.deviceName } := by
      refine ⟨?_, ?_, hpow, ?_, ?_⟩ <;> dsimp only
      · have hsame : c.validateSampleRate.validateChannels.sampleRate =
            c.validateSampleRate.sampleRate := by
          unfold validateChannels
          split <;> rfl
        exact hsame ▸ validateSampleRate_supported c
      · exact validateChannels_range _
      · exact (normalName_size _).trans_le hname
      · exact sanitizeDeviceName_chars _
    refine ⟨_, hrun, hvalid, fun h => ?_, normalize_of_valid hvalid⟩
    rw [normalize_of_valid h] at hrun
    exact (Option.some.inj hrun).symm

/-- Sixteen letters of two bytes are more than a name may have, and are not cut. -/
theorem two_byte_letters_not_cut : ¬∀ (isAlphanumeric : Char → Bool) (checked : Bool) (c : Config),
    c.WellNormalized isAlphanumeric checked := by
  intro h
  rcases h (fun c => c.isAlphanum || c = 'é') true { default with deviceName := "éééééééééééééééé" }
    with ⟨c', hrun, hvalid, -, -⟩
  rw [normalize_eq] at hrun
  cases hrun
  have hsize := hvalid.deviceName_size
  rw [normalName_size] at hsize
  revert hsize
  decide

end

end Config

end Inferno
