import Mathlib.Tactic.Common
import Mathlib.Data.BitVec
import Inferno.Wire

/-!
# Two converters of captured audio

`inferno2pipe` and the capture thread of `inferno_wasapi` read the same
interleaved buffer of a device. The first writes 16-bit samples to a pipe, the
second takes the buffer apart into channels of samples that fill 32 bits. Both
find a sample the same way and assemble its bytes the same way
(`readSample`); what they do with the word is their own.

The buffers here are of integer samples.
-/

namespace Inferno

/-- What a program knows of the format of the device. -/
structure CaptureFormat where
  blockalign : Nat
  devChannels : Nat
  bytesPerSample : Nat

namespace CaptureFormat

variable (fmt : CaptureFormat)

/-- The bytes of a sample, if the device has the channel and the buffer the bytes. -/
def slice (data : List Byte) (frame ch : Nat) : Option (List Byte) :=
  if ch < fmt.devChannels then
    let offset := frame * fmt.blockalign + ch * fmt.bytesPerSample
    if offset + fmt.bytesPerSample ≤ data.length then
      some ((data.drop offset).take fmt.bytesPerSample)
    else none
  else none

/-- `i32::from_le_bytes` of the first four bytes, or of zeros where there are
fewer. -/
def fromLeBytes (slice : List Byte) : Sample :=
  slice.getD 3 0 ++ slice.getD 2 0 ++ slice.getD 1 0 ++ slice.getD 0 0

/-- `32usize.saturating_sub(bytes_per_sample * 8)`. -/
def shift : Nat := 32 - fmt.bytesPerSample * 8

/-- A sample by way of `convert`, silence where there is none. -/
def readSample (convert : Sample → Sample) (data : List Byte) (frame ch : Nat) : Sample :=
  match fmt.slice data frame ch with
  | some slice => convert (fromLeBytes slice)
  | none => 0

/-! ## `inferno2pipe` -/

/-- "PCM int: read bytes, left-shift to fill i32". -/
def pipeWord (word : Sample) : Sample := (word.sshiftRight fmt.shift).sshiftRight 16

/-- `clamp(i16::MIN, i16::MAX) as i16`. -/
def clampI16 (x : Sample) : BitVec 16 :=
  BitVec.ofInt 16 (max (-2 ^ 15) (min x.toInt (2 ^ 15 - 1)))

/-- `i16::to_le_bytes`. -/
def le16 (x : BitVec 16) : List Byte := [x.extractLsb' 0 8, x.extractLsb' 8 8]

/-- The bytes that go to the pipe for one buffer. -/
def outBuffer (data : List Byte) (framesRead channels : Nat) : List Byte :=
  (List.range framesRead).flatMap fun frame =>
    (List.range channels).flatMap fun ch =>
      le16 (clampI16 (fmt.readSample fmt.pipeWord data frame ch))

/-! ## The capture thread of `inferno_wasapi` -/

/-- "PCM: read up to 4 bytes, left-shift to fill i32". -/
def captureWord (word : Sample) : Sample := word <<< fmt.shift

/-- `channel_data[ch].push(sample)`. -/
def pushSample (data : List Byte) (frame : Nat) (channelData : List (List Sample)) (ch : Nat) :
    List (List Sample) :=
  channelData.modify ch (· ++ [fmt.readSample fmt.captureWord data frame ch])

/-- The channels that are pushed to the transmitter for one buffer. -/
def channelData (data : List Byte) (framesRead channels : Nat) : List (List Sample) :=
  (List.range framesRead).foldl (fun cd frame =>
    (List.range channels).foldl (fmt.pushSample data frame) cd) (List.replicate channels [])

/-! ## Where a sample ends up -/

/-- The 16-bit sample at byte `i`. -/
def i16At (bytes : List Byte) (i : Nat) : Option (BitVec 16) :=
  match bytes[i]?, bytes[i + 1]? with
  | some low, some high => some (high ++ low)
  | _, _ => none

/-- What the pipe gets for a frame and a channel. -/
def pipeSample (data : List Byte) (framesRead channels f c : Nat) : Option (BitVec 16) :=
  i16At (fmt.outBuffer data framesRead channels) ((f * channels + c) * 2)

/-- What the transmitter gets. -/
def captureSample (data : List Byte) (framesRead channels f c : Nat) : Option Sample :=
  (fmt.channelData data framesRead channels)[c]?.bind (·[f]?)

/-- The upper half of a sample, by an arithmetic shift. -/
def upperHalf (x : Sample) : BitVec 16 := (x.sshiftRight 16).setWidth 16

/-! ## The layout of the two outputs -/

variable {fmt} {data : List Byte} {framesRead channels f c : Nat}

theorem i16At_le16 {x : BitVec 16} {bytes : List Byte} {i : Nat}
    (h : ∀ k < 2, bytes[i + k]? = (le16 x)[k]?) : i16At bytes i = some x := by
  have h0 := h 0 (by omega)
  have h1 := h 1 (by omega)
  rw [Nat.add_zero] at h0
  simp only [le16, List.getElem?_cons_zero, List.getElem?_cons_succ] at h0 h1
  have hx : x.extractLsb' 8 8 ++ x.extractLsb' 0 8 = x := by
    apply BitVec.eq_of_getLsbD_eq
    intro j hj
    simp only [BitVec.getLsbD_append, BitVec.getLsbD_extractLsb']
    grind
  rw [i16At, h0, h1]
  exact congrArg some hx

theorem pipeSample_eq (hf : f < framesRead) (hc : c < channels) :
    fmt.pipeSample data framesRead channels f c =
      some (clampI16 (fmt.readSample fmt.pipeWord data f c)) := by
  have hsample : ∀ frame, ∀ ch ∈ List.range channels,
      (le16 (clampI16 (fmt.readSample fmt.pipeWord data frame ch))).length = 2 :=
    fun _ _ _ => rfl
  have hframe : ∀ frame ∈ List.range framesRead, ((List.range channels).flatMap fun ch =>
      le16 (clampI16 (fmt.readSample fmt.pipeWord data frame ch))).length = channels * 2 := by
    intro frame _
    rw [Interleave.length_flatMap (hsample frame), List.length_range]
  refine i16At_le16 fun k hk => ?_
  rw [show (f * channels + c) * 2 + k = f * (channels * 2) + (c * 2 + k) by ring, outBuffer,
    Interleave.getElem?_flatMap hframe (by simpa using hf) (by omega),
    Interleave.getElem?_flatMap (hsample _) (by simpa using hc) hk]
  simp

/-- Every channel gets its sample of a frame. -/
theorem pushFrame (frame : Nat) (cd : List (List Sample)) (n : Nat) :
    ((List.range n).foldl (fmt.pushSample data frame) cd)[c]? = cd[c]?.map fun samples =>
      if c < n then samples ++ [fmt.readSample fmt.captureWord data frame c] else samples := by
  induction n with
  | zero => simp
  | succ n ih =>
      rw [List.range_succ, List.foldl_concat, pushSample, List.getElem?_modify, ih]
      cases cd[c]? with
      | none => simp
      | some samples =>
          rcases Nat.lt_trichotomy c n with hlt | rfl | hgt
          · simp [hlt, Nat.lt_succ_of_lt hlt, Nat.ne_of_gt hlt]
          · simp
          · simp [Nat.not_lt_of_gt hgt, show ¬c < n + 1 by omega, Nat.ne_of_lt hgt]

theorem channelData_eq (hc : c < channels) :
    (fmt.channelData data framesRead channels)[c]? =
      some ((List.range framesRead).map fun f => fmt.readSample fmt.captureWord data f c) := by
  unfold channelData
  induction framesRead with
  | zero => simp [hc]
  | succ n ih =>
      rw [List.range_succ, List.foldl_concat, pushFrame, ih]
      simp [hc]

theorem captureSample_eq (hf : f < framesRead) (hc : c < channels) :
    fmt.captureSample data framesRead channels f c =
      some (fmt.readSample fmt.captureWord data f c) := by
  rw [captureSample, channelData_eq hc]
  simp [hf]

/-! ## The two words -/

theorem slice_length {slice : List Byte} (h : fmt.slice data f c = some slice) :
    slice.length = fmt.bytesPerSample := by
  unfold CaptureFormat.slice at h
  split at h
  · dsimp only at h
    split at h
    · next hfits =>
        obtain rfl := Option.some.inj h
        rw [List.length_take, List.length_drop]
        omega
    · cases h
  · cases h

/-- The two most significant bytes of a sample. -/
def highBytes (slice : List Byte) : BitVec 16 :=
  slice.getD (slice.length - 1) 0 ++ slice.getD (slice.length - 2) 0

theorem upperHalf_getLsbD (x : Sample) {i : Nat} (hi : i < 16) :
    (upperHalf x).getLsbD i = x.getLsbD (16 + i) := by
  rw [upperHalf, BitVec.getLsbD_setWidth, BitVec.getLsbD_sshiftRight]
  simp only [show i < 16 from hi, show ¬32 ≤ i by omega, show 16 + i < 32 by omega, decide_true,
    decide_false, Bool.not_false, Bool.true_and, if_true]

theorem captureWord_upper {slice : List Byte} (hlen : slice.length = fmt.bytesPerSample)
    (hb : fmt.bytesPerSample ∈ [2, 3, 4]) :
    upperHalf (fmt.captureWord (fromLeBytes slice)) = highBytes slice := by
  have hbits : ∀ i < 16, (upperHalf (fmt.captureWord (fromLeBytes slice))).getLsbD i =
      (highBytes slice).getLsbD i := by
    intro i hi
    rw [upperHalf_getLsbD _ hi, captureWord, BitVec.getLsbD_shiftLeft, shift, fromLeBytes,
      highBytes, hlen]
    simp only [List.mem_cons, List.not_mem_nil, or_false] at hb
    rcases hb with hb | hb | hb <;> rw [hb] <;> simp only [BitVec.getLsbD_append] <;> grind
  exact BitVec.eq_of_getLsbD_eq hbits

/-- The upper half of a sample needs no clamping. -/
theorem clampI16_upper (x : Sample) : clampI16 (x.sshiftRight 16) = upperHalf x := by
  have hlo := BitVec.le_toInt x
  have hhi := @BitVec.toInt_lt 32 x
  have hint : (x.sshiftRight 16).toInt = x.toInt / 2 ^ 16 := by
    rw [BitVec.toInt_sshiftRight, Int.shiftRight_eq_div_pow]
    rfl
  rw [clampI16, min_eq_left (by omega), max_eq_right (by omega)]
  exact BitVec.signExtend_eq_setWidth_of_le _ (by decide)

/-- Two or three bytes are shifted out of the word altogether. -/
theorem pipeWord_zero {slice : List Byte} (hlen : slice.length = fmt.bytesPerSample)
    (hb : fmt.bytesPerSample = 2 ∨ fmt.bytesPerSample = 3) :
    fmt.pipeWord (fromLeBytes slice) = 0#32 := by
  have hbits : ∀ i < 32, (fmt.pipeWord (fromLeBytes slice)).getLsbD i = (0#32).getLsbD i := by
    intro i hi
    have h3 : slice.getD 3 0 = 0#8 := List.getD_eq_default _ _ (by omega)
    rw [pipeWord, shift, BitVec.getLsbD_sshiftRight, BitVec.getLsbD_sshiftRight,
      BitVec.msb_sshiftRight, BitVec.msb_eq_getLsbD_last, fromLeBytes, h3, BitVec.getLsbD_zero]
    rcases hb with hb | hb
    · have h2 : slice.getD 2 0 = 0#8 := List.getD_eq_default _ _ (by omega)
      rw [hb, h2]
      simp only [BitVec.getLsbD_append]
      grind
    · rw [hb]
      simp only [BitVec.getLsbD_append]
      grind
  exact BitVec.eq_of_getLsbD_eq hbits

theorem pipeWord_clamped {slice : List Byte} (hlen : slice.length = fmt.bytesPerSample)
    (hb : fmt.bytesPerSample ∈ [2, 3, 4]) :
    clampI16 (fmt.pipeWord (fromLeBytes slice)) =
      if fmt.bytesPerSample = 4 then highBytes slice else 0 := by
  split
  · next h4 =>
      have hshift : fmt.shift = 0 := by rw [shift, h4]
      rw [← captureWord_upper hlen hb, pipeWord, captureWord, hshift, BitVec.shiftLeft_zero,
        BitVec.sshiftRight_zero, clampI16_upper]
  · next h4 =>
      simp only [List.mem_cons, List.not_mem_nil, or_false] at hb
      rw [pipeWord_zero hlen (by omega)]
      decide

/-! ## Where the two agree -/

/-- The 16-bit sample of the pipe is the upper half of the captured one. -/
def Agree (fmt : CaptureFormat) (data : List Byte) (framesRead channels f c : Nat) : Prop :=
  fmt.pipeSample data framesRead channels f c =
    (fmt.captureSample data framesRead channels f c).map upperHalf

instance (fmt : CaptureFormat) (data : List Byte) (framesRead channels f c : Nat) :
    Decidable (Agree fmt data framesRead channels f c) :=
  inferInstanceAs (Decidable (_ = _))

/-- Four bytes to a sample, or a sample without high bytes: a silent or a very
quiet positive one, or none at all. -/
def Quiet (fmt : CaptureFormat) (data : List Byte) (f c : Nat) : Prop :=
  fmt.bytesPerSample = 4 ∨ ∀ slice ∈ fmt.slice data f c, highBytes slice = 0

theorem convert_agree_iff (hb : fmt.bytesPerSample ∈ [2, 3, 4]) :
    clampI16 (fmt.readSample fmt.pipeWord data f c) =
      upperHalf (fmt.readSample fmt.captureWord data f c) ↔ Quiet fmt data f c := by
  unfold readSample Quiet
  cases hslice : fmt.slice data f c with
  | none =>
      simp only [Option.not_mem_none, IsEmpty.forall_iff, implies_true, or_true, iff_true]
      decide
  | some slice =>
      have hlen := slice_length hslice
      simp only [pipeWord_clamped hlen hb, captureWord_upper hlen hb, Option.mem_some_iff,
        forall_eq']
      split
      · next h4 => simp [h4]
      · next h4 => simp [h4, eq_comm]

/-- The two converters agree on a frame and a channel of a buffer exactly where
the sample has four bytes, is quiet, or is missing. -/
theorem converters_agree_iff (fmt : CaptureFormat) (hb : fmt.bytesPerSample ∈ [2, 3, 4])
    (data : List Byte) (framesRead channels : Nat) :
    ∀ f < framesRead, ∀ c < channels,
      (Agree fmt data framesRead channels f c ↔ Quiet fmt data f c) := by
  intro f hf c hc
  rw [Agree, pipeSample_eq hf hc, captureSample_eq hf hc, Option.map_some, Option.some_inj]
  exact convert_agree_iff hb

/-- Stereo of sixteen bits. -/
def stereo16 : CaptureFormat := ⟨4, 2, 2⟩

theorem converters_agree_iff_stereo16 :
    Agree stereo16 [0, 0x40, 0, 0] 1 2 0 0 ↔ Quiet stereo16 [0, 0x40, 0, 0] 0 0 :=
  converters_agree_iff stereo16 (by decide) [0, 0x40, 0, 0] 1 2 0 (by decide) 0 (by decide)

/-- A loud sample of sixteen bits is silence on the pipe. -/
theorem loud_sample_lost : ¬Agree stereo16 [0, 0x40, 0, 0] 1 2 0 0 := by
  decide

end CaptureFormat

end Inferno
