import Inferno.Lib.ByteBuffer

/-!
# The shared-memory bridge

The driver's `InfernoShmWrite` and the user side's `ShmReader` on the bytes of
the section: a header of 16 bytes, then `INFERNO_SHM_BUFFER_FRAMES` frames of
16-bit samples. Both machines are little-endian. What the reader returns for
the frames up to the end of the ring is eight samples too early; it is what
was written exactly if the section says the same there (`audio_intact_iff`).
-/

namespace Inferno

/-! ## The section -/

/-- A view of the section, from its first byte on. -/
abbrev ShmSection := Nat → BitVec 8

namespace ShmSection

def i16At (m : ShmSection) (a : Nat) : BitVec 16 := m (a + 1) ++ m a

def u32At (m : ShmSection) (a : Nat) : BitVec 32 := m (a + 3) ++ m (a + 2) ++ (m (a + 1) ++ m a)

def store16 (m : ShmSection) (a : Nat) (x : BitVec 16) : ShmSection := fun b =>
  if b = a then x.extractLsb' 0 8 else if b = a + 1 then x.extractLsb' 8 8 else m b

def store32 (m : ShmSection) (a : Nat) (x : BitVec 32) : ShmSection :=
  (m.store16 a (x.extractLsb' 0 16)).store16 (a + 2) (x.extractLsb' 16 16)

variable {m : ShmSection} {a b : Nat}

@[simp] theorem i16At_store16 (m : ShmSection) (a : Nat) (x : BitVec 16) :
    (m.store16 a x).i16At a = x := by
  unfold i16At store16
  rw [if_neg (by omega), if_pos rfl, if_pos rfl]
  apply BitVec.eq_of_getLsbD_eq
  intro i hi
  simp only [BitVec.getLsbD_append, BitVec.getLsbD_extractLsb']
  by_cases h : i < 8
  · simp [h]
  · have : i - 8 < 8 := by omega
    simp [h, this, show 8 + (i - 8) = i by omega]

theorem i16At_store16_ne (x : BitVec 16) (h : b + 2 ≤ a ∨ a + 2 ≤ b) :
    (m.store16 a x).i16At b = m.i16At b := by
  unfold i16At store16
  rw [if_neg (by omega), if_neg (by omega), if_neg (by omega), if_neg (by omega)]

theorem u32At_store16_ne (x : BitVec 16) (h : b + 4 ≤ a ∨ a + 2 ≤ b) :
    (m.store16 a x).u32At b = m.u32At b := by
  unfold u32At store16
  rw [if_neg (by omega), if_neg (by omega), if_neg (by omega), if_neg (by omega),
    if_neg (by omega), if_neg (by omega), if_neg (by omega), if_neg (by omega)]

theorem u32At_eq (m : ShmSection) (a : Nat) : m.u32At a = m.i16At (a + 2) ++ m.i16At a := rfl

@[simp] theorem u32At_store32 (m : ShmSection) (a : Nat) (x : BitVec 32) :
    (m.store32 a x).u32At a = x := by
  rw [u32At_eq, store32, i16At_store16, i16At_store16_ne _ (by omega), i16At_store16]
  apply BitVec.eq_of_getLsbD_eq
  intro i hi
  simp only [BitVec.getLsbD_append, BitVec.getLsbD_extractLsb']
  by_cases h : i < 16
  · simp [h]
  · have : i - 16 < 16 := by omega
    simp [h, this, show 16 + (i - 16) = i by omega]

theorem i16At_store32_ne (x : BitVec 32) (h : b + 2 ≤ a ∨ a + 4 ≤ b) :
    (m.store32 a x).i16At b = m.i16At b := by
  rw [store32, i16At_store16_ne _ (by omega), i16At_store16_ne _ (by omega)]

theorem u32At_store32_ne (x : BitVec 32) (h : b + 4 ≤ a ∨ a + 4 ≤ b) :
    (m.store32 a x).u32At b = m.u32At b := by
  rw [store32, u32At_store16_ne _ (by omega), u32At_store16_ne _ (by omega)]

end ShmSection

def INFERNO_SHM_BUFFER_FRAMES : Nat := 4096

def INFERNO_SHM_HEADER_SIZE : Nat := 16

/-- `INFERNO_SHM_HEADER` and `ShmHeader`. -/
structure ShmHeader where
  writeIndex : BitVec 32
  channelCount : BitVec 32
  sampleRate : BitVec 32
  bufferFrames : BitVec 32

def ShmSection.header (m : ShmSection) : ShmHeader := ⟨m.u32At 0, m.u32At 4, m.u32At 8, m.u32At 12⟩

theorem ShmSection.header_writeIndex (m : ShmSection) : m.header.writeIndex = m.u32At 0 := rfl

theorem ShmSection.header_channelCount (m : ShmSection) : m.header.channelCount = m.u32At 4 := rfl

theorem ShmSection.header_bufferFrames (m : ShmSection) : m.header.bufferFrames = m.u32At 12 := rfl

/-! ## The driver -/

/-- `InfernoShmInit` on the fresh section. -/
def InfernoShmInit (channelCount sampleRate : BitVec 32) : ShmSection :=
  let m : ShmSection := fun _ => 0
  (((m.store32 0 0).store32 4 channelCount).store32 8 sampleRate).store32 12
    (BitVec.ofNat 32 INFERNO_SHM_BUFFER_FRAMES)

/-- Where a sample of a frame's slot is. -/
def ringAt (channelCount frameSlot c : Nat) : Nat :=
  INFERNO_SHM_HEADER_SIZE + 2 * (frameSlot * channelCount + c)

/-- One frame. -/
def writeFrame (samples : Nat → BitVec 16) (channelCount : Nat) (m : ShmSection) (frameSlot f : Nat) :
    ShmSection :=
  (List.range channelCount).foldl (fun m c =>
    m.store16 (ringAt channelCount frameSlot c) (samples (f * channelCount + c))) m

def InfernoShmWrite (m : ShmSection) (samples : Nat → BitVec 16) (frameCount channelCount : Nat) :
    ShmSection :=
  let writeIdx := m.header.writeIndex
  let m := (List.range frameCount).foldl (fun m f =>
    writeFrame samples channelCount m
      ((writeIdx + BitVec.ofNat 32 f).toNat % INFERNO_SHM_BUFFER_FRAMES) f) m
  m.store32 0 (m.header.writeIndex + BitVec.ofNat 32 frameCount)

/-! ## The reader -/

def SHM_MAX_CHANNELS : Nat := 64

def SHM_MAX_SAMPLE_RATE : Nat := 192000

structure ShmReader where
  lastWriteIndex : BitVec 32
  lastActiveTime : Nat

namespace ShmReader

/-- `open`, of a section that is there. -/
def tryOpen (m : ShmSection) (nowMs : Nat) : Option ShmReader :=
  let header := m.header
  if header.channelCount = 0 ∨ header.channelCount.toNat > SHM_MAX_CHANNELS then none
  else if header.sampleRate = 0 ∨ header.sampleRate.toNat > SHM_MAX_SAMPLE_RATE then none
  else if header.bufferFrames = 0 then none
  else some ⟨header.writeIndex, nowMs⟩

/-- `copy_nonoverlapping` of samples that begin so many samples behind the
base of the section. -/
def copySamples (m : ShmSection) (src count : Nat) : List (BitVec 16) :=
  (List.range count).map fun k => m.i16At (2 * (src + k))

/-- How many frames there are from one place in the ring to another. -/
def framesToRead (bufferFrames startFrame endFrame : Nat) : Nat :=
  if endFrame > startFrame then endFrame - startFrame
  else if endFrame < startFrame then bufferFrames - startFrame + endFrame
  else 0

def readSamples (r : ShmReader) (m : ShmSection) (nowMs : Nat) :
    ShmReader × Option (List (BitVec 16)) :=
  let header := m.header
  let currentWriteIndex := header.writeIndex
  if currentWriteIndex = r.lastWriteIndex then (r, none)
  else
    let r := { r with lastActiveTime := nowMs }
    let bufferFrames := header.bufferFrames.toNat
    let channels := header.channelCount.toNat
    let startFrame := r.lastWriteIndex.toNat % bufferFrames
    let endFrame := currentWriteIndex.toNat % bufferFrames
    if framesToRead bufferFrames startFrame endFrame = 0 then (r, none)
    else
      let samples :=
        if endFrame > startFrame then
          copySamples m (startFrame * channels)
            (framesToRead bufferFrames startFrame endFrame * channels)
        else
          -- the second part is from the beginning of the ring, behind the header
          copySamples m (startFrame * channels) ((bufferFrames - startFrame) * channels) ++
            copySamples m (16 / 2) (endFrame * channels)
      ({ r with lastWriteIndex := currentWriteIndex }, some samples)

end ShmReader

/-! ## Both sides -/

inductive ShmEvent where
  | write (frameCount : Nat) (samples : Nat → BitVec 16)
  | read (nowMs : Nat)

/-- Each side between two calls. -/
structure ShmBridge where
  mem : ShmSection
  reader : ShmReader

namespace ShmBridge

/-- The driver writes as many channels as it has announced. -/
def write (s : ShmBridge) (frameCount : Nat) (samples : Nat → BitVec 16) : ShmBridge :=
  { s with mem := InfernoShmWrite s.mem samples frameCount s.mem.header.channelCount.toNat }

/-- All that the reads return. -/
def run : ShmBridge → List ShmEvent → List (BitVec 16)
  | _, [] => []
  | s, .write frameCount samples :: es => (s.write frameCount samples).run es
  | s, .read nowMs :: es =>
      let (reader, samples) := s.reader.readSamples s.mem nowMs
      samples.getD [] ++ run { s with reader := reader } es

end ShmBridge

/-! ## What is to be had -/

/-- The samples of a write. -/
def writtenBy (channelCount frameCount : Nat) (samples : Nat → BitVec 16) : List (BitVec 16) :=
  (List.range (frameCount * channelCount)).map samples

/-- All frames that are written. -/
def allWritten (channelCount : Nat) : List ShmEvent → List (BitVec 16)
  | [] => []
  | .write frameCount samples :: es =>
      writtenBy channelCount frameCount samples ++ allWritten channelCount es
  | .read _ :: es => allWritten channelCount es

/-- Fewer frames than the ring has are written between two reads, with so many
since the last one. -/
def Paced : Nat → List ShmEvent → Prop
  | _, [] => True
  | unread, .write frameCount _ :: es =>
      unread + frameCount < INFERNO_SHM_BUFFER_FRAMES ∧ Paced (unread + frameCount) es
  | _, .read _ :: es => Paced 0 es

/-! ## The driver's writes -/

section Writes

variable {m : ShmSection} {samples : Nat → BitVec 16} {ch slot slot' c c' : Nat}

theorem ringAt_inj (hc : c < ch) (hc' : c' < ch) (h : ringAt ch slot c = ringAt ch slot' c') :
    slot = slot' ∧ c = c' := by
  unfold ringAt at h
  have hsum : c + slot * ch = c' + slot' * ch := by omega
  have hslot : slot = slot' := by
    have hdiv := congrArg (· / ch) hsum
    rwa [Nat.add_mul_div_right _ _ (by omega), Nat.add_mul_div_right _ _ (by omega),
      Nat.div_eq_of_lt hc, Nat.div_eq_of_lt hc', Nat.zero_add, Nat.zero_add] at hdiv
  subst hslot
  exact ⟨rfl, by omega⟩

theorem ringAt_apart (hc : c < ch) (hc' : c' < ch) (h : ¬ (slot = slot' ∧ c = c')) :
    ringAt ch slot c + 2 ≤ ringAt ch slot' c' ∨ ringAt ch slot' c' + 2 ≤ ringAt ch slot c := by
  have hne : ringAt ch slot c ≠ ringAt ch slot' c' := fun heq => h (ringAt_inj hc hc' heq)
  unfold ringAt at hne ⊢
  omega

/-- A frame is written to its slot and nowhere else. -/
theorem i16At_writeFrame (f : Nat) (hc : c < ch) :
    (writeFrame samples ch m slot f).i16At (ringAt ch slot' c) =
      if slot' = slot then samples (f * ch + c) else m.i16At (ringAt ch slot' c) := by
  have hloop : ∀ k ≤ ch, ((List.range k).foldl (fun m c =>
      m.store16 (ringAt ch slot c) (samples (f * ch + c))) m).i16At (ringAt ch slot' c) =
      if slot' = slot ∧ c < k then samples (f * ch + c) else m.i16At (ringAt ch slot' c) := by
    intro k hk
    induction k with
    | zero => rw [if_neg (by omega)]; rfl
    | succ k ih =>
        rw [List.range_succ, List.foldl_append, List.foldl_cons, List.foldl_nil]
        by_cases hhere : slot' = slot ∧ c = k
        · obtain ⟨rfl, rfl⟩ := hhere
          rw [ShmSection.i16At_store16, if_pos ⟨rfl, Nat.lt_succ_self _⟩]
        · rw [ShmSection.i16At_store16_ne _ (ringAt_apart hc hk hhere), ih (by omega)]
          exact if_congr (and_congr_right fun heq => by
            have : c ≠ k := fun h => hhere ⟨heq, h⟩
            omega) rfl rfl
  rw [writeFrame, hloop ch le_rfl]
  exact if_congr (and_iff_left hc) rfl rfl

theorem u32At_writeFrame (f : Nat) {a : Nat} (ha : a + 4 ≤ INFERNO_SHM_HEADER_SIZE) :
    (writeFrame samples ch m slot f).u32At a = m.u32At a := by
  have hloop : ∀ (cs : List Nat) (m : ShmSection), (cs.foldl (fun m c =>
      m.store16 (ringAt ch slot c) (samples (f * ch + c))) m).u32At a = m.u32At a := by
    intro cs
    induction cs with
    | nil => exact fun _ => rfl
    | cons c cs ih =>
        intro m
        rw [List.foldl_cons, ih, ShmSection.u32At_store16_ne]
        unfold ringAt
        omega
  exact hloop _ m

/-- The slot of a frame behind a write index. -/
theorem slot_eq (w : BitVec 32) (f : Nat) :
    (w + BitVec.ofNat 32 f).toNat % INFERNO_SHM_BUFFER_FRAMES =
      (w.toNat + f) % INFERNO_SHM_BUFFER_FRAMES := by
  rw [BitVec.toNat_add, BitVec.toNat_ofNat, INFERNO_SHM_BUFFER_FRAMES]
  omega

/-- The frames of a write, before the index is moved. -/
def writeFrames (m : ShmSection) (samples : Nat → BitVec 16) (w : BitVec 32) (ch k : Nat) :
    ShmSection :=
  (List.range k).foldl (fun m f =>
    writeFrame samples ch m ((w + BitVec.ofNat 32 f).toNat % INFERNO_SHM_BUFFER_FRAMES) f) m

theorem writeFrames_succ (w : BitVec 32) (k : Nat) : writeFrames m samples w ch (k + 1) =
    writeFrame samples ch (writeFrames m samples w ch k)
      ((w.toNat + k) % INFERNO_SHM_BUFFER_FRAMES) k := by
  rw [writeFrames, List.range_succ, List.foldl_append, List.foldl_cons, List.foldl_nil, slot_eq]
  rfl

theorem u32At_writeFrames (w : BitVec 32) (k : Nat) {a : Nat}
    (ha : a + 4 ≤ INFERNO_SHM_HEADER_SIZE) :
    (writeFrames m samples w ch k).u32At a = m.u32At a := by
  induction k with
  | zero => rfl
  | succ k ih => rw [writeFrames_succ, u32At_writeFrame k ha, ih]

/-- The frames are found in their slots. -/
theorem i16At_writeFrames (w : BitVec 32) {k f : Nat} (hk : k ≤ INFERNO_SHM_BUFFER_FRAMES)
    (hf : f < k) (hc : c < ch) :
    (writeFrames m samples w ch k).i16At
        (ringAt ch ((w.toNat + f) % INFERNO_SHM_BUFFER_FRAMES) c) = samples (f * ch + c) := by
  induction k with
  | zero => omega
  | succ k ih =>
      rw [writeFrames_succ, i16At_writeFrame k hc]
      split
      next heq =>
        have : f = k := by
          unfold INFERNO_SHM_BUFFER_FRAMES at hk heq
          omega
        rw [this]
      next hne =>
        have : f ≠ k := fun h => hne (by rw [h])
        exact ih (by omega) (by omega)

/-- Other slots keep what they have. -/
theorem i16At_writeFrames_ne (w : BitVec 32) {k : Nat} (hc : c < ch)
    (h : ∀ f < k, slot ≠ (w.toNat + f) % INFERNO_SHM_BUFFER_FRAMES) :
    (writeFrames m samples w ch k).i16At (ringAt ch slot c) = m.i16At (ringAt ch slot c) := by
  induction k with
  | zero => rfl
  | succ k ih =>
      rw [writeFrames_succ, i16At_writeFrame k hc, if_neg (h k (Nat.lt_succ_self k)),
        ih fun f hf => h f (by omega)]

theorem InfernoShmWrite_eq (m : ShmSection) (samples : Nat → BitVec 16) (frameCount ch : Nat) :
    InfernoShmWrite m samples frameCount ch =
      (writeFrames m samples (m.u32At 0) ch frameCount).store32 0
        (m.u32At 0 + BitVec.ofNat 32 frameCount) := by
  have hindex := @u32At_writeFrames m samples ch (m.u32At 0) frameCount 0 (by decide)
  show (writeFrames m samples (m.u32At 0) ch frameCount).store32 0
    ((writeFrames m samples (m.u32At 0) ch frameCount).u32At 0 + _) = _
  rw [hindex]

theorem u32At_shmWrite (m : ShmSection) (samples : Nat → BitVec 16) (frameCount ch : Nat) {a : Nat}
    (hlow : 4 ≤ a) (ha : a + 4 ≤ INFERNO_SHM_HEADER_SIZE) :
    (InfernoShmWrite m samples frameCount ch).u32At a = m.u32At a := by
  rw [InfernoShmWrite_eq, ShmSection.u32At_store32_ne _ (by omega), u32At_writeFrames _ _ ha]

theorem i16At_shmWrite (m : ShmSection) (samples : Nat → BitVec 16) (frameCount ch slot c : Nat) :
    (InfernoShmWrite m samples frameCount ch).i16At (ringAt ch slot c) =
      (writeFrames m samples (m.u32At 0) ch frameCount).i16At (ringAt ch slot c) := by
  rw [InfernoShmWrite_eq, ShmSection.i16At_store32_ne]
  unfold ringAt INFERNO_SHM_HEADER_SIZE
  omega

end Writes

/-! ## What is unread -/

/-- The ring has the unread samples, frame by frame. -/
structure ShmBridge.Holds (s : ShmBridge) (ch n : Nat) (unread : List (BitVec 16)) : Prop where
  frames : s.mem.header.bufferFrames.toNat = INFERNO_SHM_BUFFER_FRAMES
  channels : s.mem.header.channelCount.toNat = ch
  few : n < INFERNO_SHM_BUFFER_FRAMES
  index : s.mem.header.writeIndex = s.reader.lastWriteIndex + BitVec.ofNat 32 n
  length : unread.length = n * ch
  samples : ∀ f < n, ∀ c < ch, unread[f * ch + c]? = some (s.mem.i16At
    (ringAt ch ((s.reader.lastWriteIndex.toNat + f) % INFERNO_SHM_BUFFER_FRAMES) c))

namespace ShmBridge

variable {s : ShmBridge} {ch n : Nat} {unread : List (BitVec 16)}

theorem Holds.write (h : s.Holds ch n unread) {frameCount : Nat}
    (hfew : n + frameCount < INFERNO_SHM_BUFFER_FRAMES) (samples : Nat → BitVec 16) :
    (s.write frameCount samples).Holds ch (n + frameCount)
      (unread ++ writtenBy ch frameCount samples) := by
  have hindex : s.mem.u32At 0 = s.reader.lastWriteIndex + BitVec.ofNat 32 n := h.index
  have hw : (s.mem.u32At 0).toNat = (s.reader.lastWriteIndex.toNat + n) % 2 ^ 32 := by
    rw [hindex, BitVec.toNat_add, BitVec.toNat_ofNat, Nat.add_mod_mod]
  have hmem : (s.write frameCount samples).mem =
      InfernoShmWrite s.mem samples frameCount ch := by
    rw [← h.channels]
    rfl
  have hlen := h.length
  refine ⟨?_, ?_, hfew, ?_, ?_, fun f hf c hc => ?_⟩
  · rw [hmem, ShmSection.header_bufferFrames, u32At_shmWrite _ _ _ _ (by decide) (by decide)]
    exact h.frames
  · rw [hmem, ShmSection.header_channelCount, u32At_shmWrite _ _ _ _ (by decide) (by decide)]
    exact h.channels
  · rw [hmem, ShmSection.header_writeIndex, InfernoShmWrite_eq, ShmSection.u32At_store32, hindex, BitVec.add_assoc,
      ← BitVec.ofNat_add]
    rfl
  · rw [List.length_append, writtenBy, List.length_map, List.length_range, hlen, Nat.add_mul]
  · have hreader : (s.write frameCount samples).reader = s.reader := rfl
    rw [hreader, hmem, i16At_shmWrite]
    by_cases hold : f < n
    · have hbound : f * ch + c < n * ch := by
        have := Nat.mul_le_mul_right ch (show f + 1 ≤ n from hold)
        rw [Nat.succ_mul] at this
        omega
      rw [List.getElem?_append_left (by omega), h.samples f hold c hc,
        i16At_writeFrames_ne _ hc fun g hg => ?_]
      rw [hw]
      unfold INFERNO_SHM_BUFFER_FRAMES at hfew ⊢
      omega
    · obtain ⟨g, rfl⟩ : ∃ g, f = n + g := ⟨f - n, by omega⟩
      have hslot : (s.reader.lastWriteIndex.toNat + (n + g)) % INFERNO_SHM_BUFFER_FRAMES =
          ((s.mem.u32At 0).toNat + g) % INFERNO_SHM_BUFFER_FRAMES := by
        rw [hw]
        unfold INFERNO_SHM_BUFFER_FRAMES
        omega
      have hg : g < frameCount := by omega
      have hbound : g * ch + c < frameCount * ch := by
        have := Nat.mul_le_mul_right ch (show g + 1 ≤ frameCount from hg)
        rw [Nat.succ_mul] at this
        omega
      rw [hslot, i16At_writeFrames _ (by omega) hg hc, Nat.add_mul, Nat.add_assoc,
        List.getElem?_append_right (by omega), hlen, Nat.add_sub_cancel_left, writtenBy,
        List.getElem?_map, List.getElem?_range hbound]
      rfl

/-- Where the unread frames begin. -/
def startFrame (s : ShmBridge) : Nat :=
  s.reader.lastWriteIndex.toNat % INFERNO_SHM_BUFFER_FRAMES

/-- The frames there are up to the end of the ring, of so many. -/
def upToEnd (s : ShmBridge) (n : Nat) : Nat := min n (INFERNO_SHM_BUFFER_FRAMES - s.startFrame)

open ShmReader

theorem copySamples_getElem? (m : ShmSection) (src k : Nat) {i : Nat} (h : i < k) :
    (copySamples m src k)[i]? = some (m.i16At (2 * (src + i))) := by
  rw [copySamples, List.getElem?_map, List.getElem?_range h]
  rfl

theorem length_copySamples (m : ShmSection) (src k : Nat) : (copySamples m src k).length = k := by
  rw [copySamples, List.length_map, List.length_range]

/-- An unread sample, by its place. -/
theorem Holds.sample (h : s.Holds ch n unread) {i : Nat} (hi : i < n * ch) :
    unread[i]? = some (s.mem.i16At
      (ringAt ch ((s.reader.lastWriteIndex.toNat + i / ch) % INFERNO_SHM_BUFFER_FRAMES)
        (i % ch))) := by
  have hch : 0 < ch := Nat.pos_of_ne_zero fun hzero => by
    rw [hzero, Nat.mul_zero] at hi
    omega
  have hf : i / ch < n := Nat.div_lt_of_lt_mul (by rwa [Nat.mul_comm])
  rw [← h.samples (i / ch) hf (i % ch) (Nat.mod_lt i hch), Nat.div_add_mod']

/-- The unread samples lie up to the end of the ring, and then at its beginning. -/
theorem Holds.unread_eq (h : s.Holds ch n unread) :
    unread = copySamples s.mem (8 + s.startFrame * ch) (s.upToEnd n * ch) ++
      copySamples s.mem 8 ((n - s.upToEnd n) * ch) := by
  have hfirst : s.upToEnd n ≤ n := Nat.min_le_left ..
  have hsum : s.upToEnd n * ch + (n - s.upToEnd n) * ch = n * ch := by
    rw [← Nat.add_mul, Nat.add_sub_cancel' hfirst]
  have hstart : s.startFrame < INFERNO_SHM_BUFFER_FRAMES := Nat.mod_lt _ (by decide)
  have hfew := h.few
  refine List.ext_getElem? fun i => ?_
  by_cases hi : i < n * ch
  · have hch : 0 < ch := Nat.pos_of_ne_zero fun hzero => by
      rw [hzero, Nat.mul_zero] at hi
      omega
    have hdiv := Nat.div_add_mod' i ch
    rw [h.sample hi]
    by_cases hhere : i < s.upToEnd n * ch
    · have hf : i / ch < s.upToEnd n := Nat.div_lt_of_lt_mul (by rwa [Nat.mul_comm])
      have hslot : (s.reader.lastWriteIndex.toNat + i / ch) % INFERNO_SHM_BUFFER_FRAMES =
          s.startFrame + i / ch := by
        rw [← Nat.mod_add_mod, Nat.mod_eq_of_lt]
        · rfl
        · have := Nat.min_le_right n (INFERNO_SHM_BUFFER_FRAMES - s.startFrame)
          unfold upToEnd at hf
          unfold startFrame at *
          omega
      rw [List.getElem?_append_left (by rw [length_copySamples]; exact hhere),
        copySamples_getElem? _ _ _ hhere, hslot, ringAt, Nat.add_mul, Nat.add_assoc _ _ (i % ch),
        hdiv]
      refine congrArg (fun a => some (s.mem.i16At a)) ?_
      unfold INFERNO_SHM_HEADER_SIZE
      omega
    · have hf : s.upToEnd n ≤ i / ch := (Nat.le_div_iff_mul_le hch).mpr (Nat.le_of_not_lt hhere)
      have hfn : i / ch < n := Nat.div_lt_of_lt_mul (by rwa [Nat.mul_comm])
      have hslot : (s.reader.lastWriteIndex.toNat + i / ch) % INFERNO_SHM_BUFFER_FRAMES =
          i / ch - s.upToEnd n := by
        have hend : s.upToEnd n = INFERNO_SHM_BUFFER_FRAMES - s.startFrame := by
          unfold upToEnd at *
          omega
        rw [← Nat.mod_add_mod, hend]
        unfold startFrame INFERNO_SHM_BUFFER_FRAMES at *
        omega
      have hsub : (i / ch - s.upToEnd n) * ch + s.upToEnd n * ch = i / ch * ch := by
        rw [← Nat.add_mul, Nat.sub_add_cancel hf]
      rw [List.getElem?_append_right (by rw [length_copySamples]; exact Nat.le_of_not_lt hhere),
        length_copySamples, copySamples_getElem? _ _ _ (by omega), hslot, ringAt]
      refine congrArg (fun a => some (s.mem.i16At a)) ?_
      unfold INFERNO_SHM_HEADER_SIZE
      omega
  · rw [List.getElem?_eq_none (by rw [h.length]; omega), List.getElem?_eq_none]
    rw [List.length_append, length_copySamples, length_copySamples]
    omega

/-- What a read returns. -/
theorem Holds.readSamples (h : s.Holds ch n unread) (hn : 0 < n) (nowMs : Nat) :
    s.reader.readSamples s.mem nowMs = (⟨s.mem.header.writeIndex, nowMs⟩,
      some (copySamples s.mem (s.startFrame * ch) (s.upToEnd n * ch) ++
        copySamples s.mem 8 ((n - s.upToEnd n) * ch))) := by
  have hfew := h.few
  have hstart : s.startFrame < INFERNO_SHM_BUFFER_FRAMES := Nat.mod_lt _ (by decide)
  have hend : s.mem.header.writeIndex.toNat % INFERNO_SHM_BUFFER_FRAMES =
      (s.startFrame + n) % INFERNO_SHM_BUFFER_FRAMES := by
    rw [h.index, slot_eq, startFrame, Nat.mod_add_mod]
  have hlast : s.reader.lastWriteIndex.toNat % INFERNO_SHM_BUFFER_FRAMES = s.startFrame := rfl
  have hne : s.mem.header.writeIndex ≠ s.reader.lastWriteIndex := by
    intro heq
    rw [heq, hlast] at hend
    unfold INFERNO_SHM_BUFFER_FRAMES at hend hfew hstart
    omega
  have hcount : framesToRead INFERNO_SHM_BUFFER_FRAMES s.startFrame
      ((s.startFrame + n) % INFERNO_SHM_BUFFER_FRAMES) = n := by
    unfold framesToRead
    unfold INFERNO_SHM_BUFFER_FRAMES at hfew hstart ⊢
    split
    · omega
    · split <;> omega
  unfold ShmReader.readSamples
  dsimp only
  rw [if_neg hne, h.frames, h.channels, hend, hlast, hcount, if_neg (Nat.ne_of_gt hn)]
  split
  next hstraight =>
    have hfirst : s.upToEnd n = n := by
      unfold upToEnd
      unfold INFERNO_SHM_BUFFER_FRAMES at hstraight hfew hstart ⊢
      omega
    have hnothing : copySamples s.mem 8 0 = [] := rfl
    rw [hfirst, Nat.sub_self, Nat.zero_mul, hnothing, List.append_nil]
  next hwrap =>
    have hfirst : s.upToEnd n = INFERNO_SHM_BUFFER_FRAMES - s.startFrame := by
      unfold upToEnd
      unfold INFERNO_SHM_BUFFER_FRAMES at hwrap hfew hstart ⊢
      omega
    have hrest : n - s.upToEnd n = (s.startFrame + n) % INFERNO_SHM_BUFFER_FRAMES := by
      rw [hfirst]
      unfold INFERNO_SHM_BUFFER_FRAMES at hwrap hfew hstart ⊢
      omega
    rw [hrest, hfirst]

theorem Holds.readSamples_none (h : s.Holds ch 0 unread) (nowMs : Nat) :
    s.reader.readSamples s.mem nowMs = (s.reader, none) := by
  have hindex := h.index
  rw [BitVec.add_zero] at hindex
  unfold ShmReader.readSamples
  dsimp only
  rw [if_pos hindex]

/-- After a read nothing is unread. -/
theorem Holds.read (h : s.Holds ch n unread) (nowMs : Nat) :
    Holds { s with reader := (s.reader.readSamples s.mem nowMs).1 } ch 0 [] := by
  have hindex : (s.reader.readSamples s.mem nowMs).1.lastWriteIndex = s.mem.header.writeIndex := by
    cases n with
    | zero =>
        have hindex := h.index
        rw [BitVec.add_zero] at hindex
        rw [h.readSamples_none, hindex]
    | succ n => rw [h.readSamples (Nat.succ_pos n)]
  refine ⟨h.frames, h.channels, by decide, ?_, by rw [Nat.zero_mul]; rfl, fun f hf => by omega⟩
  rw [BitVec.add_zero]
  exact hindex.symm

/-! ## Runs -/

/-- The samples up to the end of the ring, which the reader takes from the base
of the section, are those that stand eight places behind, where the ring has
them. -/
def ReadsTrue (s : ShmBridge) : Prop :=
  let channels := s.mem.header.channelCount.toNat
  let unread := (s.mem.header.writeIndex - s.reader.lastWriteIndex).toNat
  ∀ i < s.upToEnd unread * channels,
    s.mem.i16At (2 * (s.startFrame * channels + i)) =
      s.mem.i16At (2 * (8 + s.startFrame * channels + i))

/-- Every read of a run finds it so. -/
def EachReadTrue : ShmBridge → List ShmEvent → Prop
  | _, [] => True
  | s, .write frameCount samples :: es => (s.write frameCount samples).EachReadTrue es
  | s, .read nowMs :: es =>
      s.ReadsTrue ∧ EachReadTrue { s with reader := (s.reader.readSamples s.mem nowMs).1 } es

theorem copySamples_eq_iff (m : ShmSection) (src src' k : Nat) :
    copySamples m src k = copySamples m src' k ↔
      ∀ i < k, m.i16At (2 * (src + i)) = m.i16At (2 * (src' + i)) := by
  unfold copySamples
  rw [List.map_inj_left]
  exact forall_congr' fun i => by rw [List.mem_range]

/-- A read returns what is unread exactly if the section reads the same there. -/
theorem Holds.read_eq_iff (h : s.Holds ch n unread) (nowMs : Nat) :
    (s.reader.readSamples s.mem nowMs).2.getD [] = unread ↔ s.ReadsTrue := by
  have hunread : (s.mem.header.writeIndex - s.reader.lastWriteIndex).toNat = n := by
    have hfew := h.few
    rw [h.index, BitVec.add_comm, BitVec.add_sub_cancel, BitVec.toNat_ofNat]
    unfold INFERNO_SHM_BUFFER_FRAMES at hfew
    omega
  have htrue : s.ReadsTrue ↔ copySamples s.mem (s.startFrame * ch) (s.upToEnd n * ch) =
      copySamples s.mem (8 + s.startFrame * ch) (s.upToEnd n * ch) := by
    rw [copySamples_eq_iff]
    unfold ReadsTrue
    rw [hunread, h.channels]
  rw [htrue]
  cases n with
  | zero =>
      rw [h.readSamples_none]
      refine iff_of_true ?_ ?_
      · exact (List.length_eq_zero_iff.mp (by rw [h.length, Nat.zero_mul])).symm
      · rw [upToEnd, Nat.zero_min, Nat.zero_mul]
        rfl
  | succ n =>
      rw [h.readSamples (Nat.succ_pos n), Option.getD_some, h.unread_eq]
      exact List.append_left_inj _

theorem length_read (h : s.Holds ch n unread) (nowMs : Nat) :
    ((s.reader.readSamples s.mem nowMs).2.getD []).length = unread.length := by
  cases n with
  | zero =>
      rw [h.readSamples_none, h.length, Nat.zero_mul]
      rfl
  | succ n =>
      rw [h.readSamples (Nat.succ_pos n), Option.getD_some, h.unread_eq]
      simp only [List.length_append, length_copySamples]

theorem run_eq_iff (nowMs : Nat) {events : List ShmEvent} (h : s.Holds ch n unread)
    (hpaced : Paced n events) :
    s.run (events ++ [.read nowMs]) = unread ++ allWritten ch events ↔
      s.EachReadTrue (events ++ [.read nowMs]) := by
  induction events generalizing s n unread with
  | nil =>
      show _ ++ [] = unread ++ [] ↔ s.ReadsTrue ∧ True
      rw [List.append_nil, List.append_nil, and_true]
      exact h.read_eq_iff nowMs
  | cons e events ih =>
      cases e with
      | write frameCount samples =>
          obtain ⟨hfew, hpaced⟩ := hpaced
          have hrest := ih (h.write hfew samples) hpaced
          rw [List.append_assoc] at hrest
          exact hrest
      | read nowMs' =>
          have hrest := ih (h.read nowMs') hpaced
          rw [List.nil_append] at hrest
          have hread : s.run (.read nowMs' :: events ++ [.read nowMs]) =
              (s.reader.readSamples s.mem nowMs').2.getD [] ++
                run { s with reader := (s.reader.readSamples s.mem nowMs').1 }
                  (events ++ [.read nowMs]) := rfl
          have htrue : s.EachReadTrue (.read nowMs' :: events ++ [.read nowMs]) ↔ s.ReadsTrue ∧
              EachReadTrue { s with reader := (s.reader.readSamples s.mem nowMs').1 }
                (events ++ [.read nowMs]) := Iff.rfl
          have hwritten : allWritten ch (.read nowMs' :: events) = allWritten ch events := rfl
          rw [hread, htrue, hwritten, ← h.read_eq_iff nowMs', ← hrest]
          constructor
          · exact fun heq => List.append_inj heq (length_read h nowMs')
          · rintro ⟨hread, hrun⟩
            rw [hread, hrun]

/-- The section of a driver that has made these writes. -/
def driven (channelCount sampleRate : BitVec 32) (earlier : List (Nat × (Nat → BitVec 16))) :
    ShmSection :=
  earlier.foldl (fun m w => InfernoShmWrite m w.2 w.1 channelCount.toNat)
    (InfernoShmInit channelCount sampleRate)

theorem u32At_driven (channelCount sampleRate : BitVec 32)
    (earlier : List (Nat × (Nat → BitVec 16))) {a : Nat} (hlow : 4 ≤ a)
    (ha : a + 4 ≤ INFERNO_SHM_HEADER_SIZE) :
    (driven channelCount sampleRate earlier).u32At a =
      (InfernoShmInit channelCount sampleRate).u32At a := by
  have hfold : ∀ m : ShmSection, (earlier.foldl (fun m w =>
      InfernoShmWrite m w.2 w.1 channelCount.toNat) m).u32At a = m.u32At a := by
    induction earlier with
    | nil => exact fun _ => rfl
    | cons w earlier ih =>
        intro m
        rw [List.foldl_cons, ih, u32At_shmWrite _ _ _ _ hlow ha]
  exact hfold _

theorem open_holds {channelCount sampleRate : BitVec 32}
    {earlier : List (Nat × (Nat → BitVec 16))} {nowMs : Nat} {reader : ShmReader}
    (hopen : tryOpen (driven channelCount sampleRate earlier) nowMs = some reader) :
    Holds ⟨driven channelCount sampleRate earlier, reader⟩ channelCount.toNat 0 [] := by
  have hindex : reader.lastWriteIndex =
      (driven channelCount sampleRate earlier).header.writeIndex := by
    unfold tryOpen at hopen
    dsimp only at hopen
    split at hopen
    · cases hopen
    · split at hopen
      · cases hopen
      · split at hopen
        · cases hopen
        · cases hopen
          rfl
  refine ⟨?_, ?_, by decide, ?_, by rw [Nat.zero_mul]; rfl, fun f hf => by omega⟩
  · show ((driven channelCount sampleRate earlier).u32At 12).toNat = _
    rw [u32At_driven _ _ _ (by decide) (by decide), InfernoShmInit, ShmSection.u32At_store32]
    rfl
  · show ((driven channelCount sampleRate earlier).u32At 4).toNat = _
    rw [u32At_driven _ _ _ (by decide) (by decide), InfernoShmInit,
      ShmSection.u32At_store32_ne _ (by decide), ShmSection.u32At_store32_ne _ (by decide),
      ShmSection.u32At_store32]
  · rw [BitVec.add_zero]
    exact hindex.symm

/-- What a reader returns in all is what has been written since it was opened,
exactly if every read finds the ring's samples eight places before them, too. -/
theorem audio_intact_iff {channelCount sampleRate : BitVec 32}
    {earlier : List (Nat × (Nat → BitVec 16))} {nowMs : Nat} {reader : ShmReader}
    (hopen : tryOpen (driven channelCount sampleRate earlier) nowMs = some reader)
    {events : List ShmEvent} (hpaced : Paced 0 events) (nowMs' : Nat) :
    run ⟨driven channelCount sampleRate earlier, reader⟩ (events ++ [.read nowMs']) =
        allWritten channelCount.toNat events ↔
      EachReadTrue ⟨driven channelCount sampleRate earlier, reader⟩
        (events ++ [.read nowMs']) := by
  have hrun := run_eq_iff nowMs' (open_holds hopen) hpaced
  rwa [List.nil_append] at hrun

/-- One frame of a mono driver, whose sample is the write index. -/
theorem audio_intact_index :
    run ⟨driven 1 48000 [], ⟨0, 0⟩⟩ [.write 1 fun _ => 1, .read 0] =
        allWritten 1 [.write 1 fun _ => 1] ↔
      EachReadTrue ⟨driven 1 48000 [], ⟨0, 0⟩⟩ [.write 1 fun _ => 1, .read 0] :=
  @audio_intact_iff 1 48000 [] 0 ⟨0, 0⟩ rfl [.write 1 fun _ => 1] ⟨by decide, trivial⟩ 0

/-- The first frame of a stereo driver comes out as the beginning of the header. -/
theorem first_frame_is_header :
    tryOpen (driven 2 48000 []) 0 = some ⟨0, 0⟩ ∧ Paced 0 [.write 1 fun _ => 5] ∧
      run ⟨driven 2 48000 [], ⟨0, 0⟩⟩ ([.write 1 fun _ => 5] ++ [.read 0]) ≠
        allWritten 2 [.write 1 fun _ => 5] :=
  ⟨rfl, ⟨by decide, trivial⟩, by decide⟩

end ShmBridge

end Inferno
