import Mathlib.Data.List.ReduceOption
import Inferno.Lib.Runs
import Inferno.Wire

/-!
# Rendering to a Windows device

The callback of the receiver pushes interleaved samples, one frame after the
other, to a queue; the render thread fills the buffers of the device from it,
as many samples as a buffer has. The queue knows nothing of frames: they are
as long as the Dante channels where they are pushed, and as long as the device
channels where they are popped.

`FrameQueue` is what the two are for: a queue of frames, each of which goes to
one frame of the device.
-/

namespace Inferno

/-- What is known when the threads start; the samples of the device are integers. -/
structure RenderConfig where
  channels : Nat
  devChannels : Nat
  bytesPerSample : Nat
  maxQueue : Nat
  channels_pos : 0 < channels
  devChannels_pos : 0 < devChannels
  bytesPerSample_pos : 0 < bytesPerSample
  bytesPerSample_le : bytesPerSample ≤ 4

/-- What happens: a call of the callback, or the device asks for frames. -/
inductive RenderEvent where
  | receive (numSamples : Nat) (channelData : List (List Sample))
  | render (frames : Nat)

/-- The queue, and the buffers written to the device. -/
structure RenderWorld where
  audioQueue : List Sample
  written : List (List Byte)

namespace RenderConfig

variable (cfg : RenderConfig)

/-- The samples of a frame, channel by channel. -/
def frameOf (channelData : List (List Sample)) (frame : Nat) : List Sample :=
  (List.range cfg.channels).map fun ch => (channelData[ch]?.bind (·[frame]?)).getD 0

/-- The callback of `receive_with_callback`; a full queue drops what comes. -/
def receiveCallback (q : List Sample) (numSamples : Nat) (channelData : List (List Sample)) :
    List Sample :=
  if cfg.maxQueue ≤ q.length then q
  else q ++ (List.range numSamples).flatMap (cfg.frameOf channelData)

/-- `i32::to_le_bytes`. -/
def toLeBytes (x : Sample) : List Byte := (toBeBytes x).reverse

/-- "Most-significant bytes first → right-align to device bits". -/
def sampleBytes (raw : Sample) : List Byte :=
  (toLeBytes (raw.sshiftRight (32 - cfg.bytesPerSample * 8))).take cfg.bytesPerSample

/-- The loop that fills a buffer: the bytes, and the rest of the queue. -/
def fillBuffer : Nat → List Sample → List Byte × List Sample
  | 0, q => ([], q)
  | needed + 1, q =>
      let rest := fillBuffer needed q.tail
      (cfg.sampleBytes (q.headD 0) ++ rest.1, rest.2)

def step (w : RenderWorld) : RenderEvent → RenderWorld
  | .receive numSamples channelData =>
      { w with audioQueue := cfg.receiveCallback w.audioQueue numSamples channelData }
  | .render frames =>
      if 0 < frames then
        let (bytes, rest) := cfg.fillBuffer (frames * cfg.devChannels) w.audioQueue
        { audioQueue := rest, written := w.written ++ [bytes] }
      else w

def start : RenderWorld := ⟨[], []⟩

def run (events : List RenderEvent) : RenderWorld := events.foldl cfg.step start

end RenderConfig

/-! ## The queue of frames -/

/-- The frames queued so far, how many of them were played, and for each buffer
what its device frames play; `none` is silence. -/
structure FrameQueue where
  queued : List (List Sample)
  played : Nat
  written : List (List (Option (List Sample)))

namespace FrameQueue

variable (cfg : RenderConfig)

def step (s : FrameQueue) : RenderEvent → FrameQueue
  | .receive numSamples channelData =>
      if cfg.maxQueue ≤ (s.queued.length - s.played) * cfg.channels then s
      else { s with queued := s.queued ++ (List.range numSamples).map (cfg.frameOf channelData) }
  | .render frames =>
      if 0 < frames then
        { s with
          played := min (s.played + frames) s.queued.length
          written := s.written ++ [(List.range frames).map fun i => s.queued[s.played + i]?] }
      else s

def start : FrameQueue := ⟨[], 0, []⟩

def run (events : List RenderEvent) : FrameQueue := events.foldl (step cfg) start

/-- A frame as the device has it: channel by channel, and silence where the
frame has no sample. -/
def deviceFrame (frame : Option (List Sample)) : List Byte :=
  (List.range cfg.devChannels).flatMap fun ch =>
    cfg.sampleBytes ((frame.bind (·[ch]?)).getD 0)

/-- A frame is played after those queued before it, and only once. -/
def InOrder (s : FrameQueue) : Prop :=
  s.played ≤ s.queued.length ∧ s.written.flatten.reduceOption = s.queued.take s.played

variable {cfg}

theorem reduceOption_window (frames : List (List Sample)) (n : Nat) :
    ((List.range n).map fun i => frames[i]?).reduceOption = frames.take n := by
  induction n with
  | zero => rfl
  | succ n ih =>
      rw [List.range_succ, List.map_append, List.reduceOption_append, ih, List.take_add_one]
      cases hn : frames[n]? <;> simp [hn, List.reduceOption]

theorem InOrder.step {s : FrameQueue} (h : s.InOrder) (e : RenderEvent) :
    (step cfg s e).InOrder := by
  obtain ⟨hle, horder⟩ := h
  cases e with
  | receive numSamples channelData =>
      dsimp only [FrameQueue.step]
      split
      · exact ⟨hle, horder⟩
      · refine ⟨?_, ?_⟩
        · simp only [List.length_append]
          omega
        · rw [horder, List.take_append_of_le_length hle]
  | render frames =>
      dsimp only [FrameQueue.step]
      split
      · refine ⟨Nat.min_le_right _ _, ?_⟩
        have hwindow := reduceOption_window (s.queued.drop s.played) frames
        simp only [List.getElem?_drop] at hwindow
        rw [List.flatten_append, List.flatten_singleton, List.reduceOption_append, horder, hwindow,
          ← List.take_add, ← List.take_eq_take_min]
      · exact ⟨hle, horder⟩

theorem run_inOrder (events : List RenderEvent) : (run cfg events).InOrder := by
  have hrun : ∀ {s : FrameQueue}, s.InOrder → (events.foldl (FrameQueue.step cfg) s).InOrder := by
    induction events with
    | nil => exact fun h => h
    | cons e events ih => exact fun h => ih (h.step e)
  exact hrun ⟨le_rfl, rfl⟩

end FrameQueue

/-! ## The thread plays frames -/

namespace RenderConfig

variable {cfg : RenderConfig}

theorem fillBuffer_append (n k : Nat) (q : List Sample) :
    cfg.fillBuffer (n + k) q =
      ((cfg.fillBuffer n q).1 ++ (cfg.fillBuffer k (cfg.fillBuffer n q).2).1,
        (cfg.fillBuffer k (cfg.fillBuffer n q).2).2) := by
  induction n generalizing q with
  | zero => simp [fillBuffer]
  | succ n ih =>
      rw [Nat.succ_add, fillBuffer, fillBuffer, ih]
      simp only [List.append_assoc]

theorem fillBuffer_rest (n : Nat) (q : List Sample) : (cfg.fillBuffer n q).2 = q.drop n := by
  induction n generalizing q with
  | zero => rfl
  | succ n ih => rw [fillBuffer, ih, List.drop_tail]

theorem fillBuffer_bytes (n : Nat) (q : List Sample) :
    (cfg.fillBuffer n q).1 = (List.range n).flatMap fun i => cfg.sampleBytes (q[i]?.getD 0) := by
  induction n generalizing q with
  | zero => rfl
  | succ n ih =>
      rw [fillBuffer, ih, List.range_succ_eq_map, List.flatMap_cons, List.flatMap_map]
      cases q <;> simp [List.headD]

/-- One frame of the device: the samples of a frame that is no longer than the
device's, as long as no other frame is behind it in the same device frame. -/
theorem fillBuffer_frame {frame rest : List Sample} (hle : frame.length ≤ cfg.devChannels)
    (h : frame.length = cfg.devChannels ∨ rest = []) :
    cfg.fillBuffer cfg.devChannels (frame ++ rest) =
      (FrameQueue.deviceFrame cfg (some frame), rest) := by
  apply Prod.ext
  · rw [fillBuffer_bytes, FrameQueue.deviceFrame]
    refine List.flatMap_congr fun ch hch => ?_
    rw [List.mem_range] at hch
    rcases h with h | rfl
    · rw [List.getElem?_append_left (by omega)]
      rfl
    · rw [List.append_nil]
      rfl
  · rw [fillBuffer_rest]
    rcases h with h | rfl
    · rw [← h, List.drop_left]
    · rw [List.append_nil, List.drop_eq_nil_of_le hle]

theorem fillBuffer_empty :
    cfg.fillBuffer cfg.devChannels [] = (FrameQueue.deviceFrame cfg none, []) := by
  apply Prod.ext
  · simp [fillBuffer_bytes, FrameQueue.deviceFrame]
  · simp [fillBuffer_rest]

/-- A whole buffer: as many frames as there are, and then silence. -/
theorem fillBuffer_frames {pending : List (List Sample)}
    (hwhole : ∀ frame ∈ pending, frame.length = cfg.channels)
    (hfits : cfg.channels = cfg.devChannels ∨ pending = [] ∨
      (cfg.channels < cfg.devChannels ∧ pending.length ≤ 1)) (frames : Nat) :
    cfg.fillBuffer (frames * cfg.devChannels) pending.flatten =
      (((List.range frames).map fun i => pending[i]?).flatMap (FrameQueue.deviceFrame cfg),
        (pending.drop frames).flatten) := by
  induction frames generalizing pending with
  | zero => simp [fillBuffer]
  | succ frames ih =>
      rw [Nat.succ_mul, Nat.add_comm, fillBuffer_append, List.range_succ_eq_map, List.map_cons,
        List.flatMap_cons, List.map_map]
      cases pending with
      | nil =>
          rw [List.flatten_nil, fillBuffer_empty]
          have hrest := @ih [] (by simp) (.inr (.inl rfl))
          simp only [List.flatten_nil, List.drop_nil] at hrest
          simp [hrest, Function.comp_def]
      | cons frame pending =>
          have hlen := hwhole frame List.mem_cons_self
          have hone : frame.length ≤ cfg.devChannels ∧
              (frame.length = cfg.devChannels ∨ pending.flatten = []) := by
            rcases hfits with heq | hnil | ⟨hlt, hle⟩
            · exact ⟨by omega, .inl (by omega)⟩
            · cases hnil
            · obtain rfl : pending = [] := List.eq_nil_of_length_eq_zero (by simpa using hle)
              exact ⟨by omega, .inr rfl⟩
          have hrest := ih (fun f hf => hwhole f (List.mem_cons_of_mem _ hf)) <| by
            rcases hfits with heq | hnil | ⟨hlt, hle⟩
            · exact .inl heq
            · cases hnil
            · exact .inr (.inl (List.eq_nil_of_length_eq_zero (by simpa using hle)))
          rw [List.flatten_cons, fillBuffer_frame hone.1 hone.2, hrest]
          rfl

/-- The condition on an event: as many channels as the device has, or nothing
queued, or fewer channels and one frame queued at most. -/
def KeepsFrames (cfg : RenderConfig) (w : RenderWorld) : RenderEvent → Prop
  | .receive .. => True
  | .render frames => frames = 0 ∨ cfg.channels = cfg.devChannels ∨ w.audioQueue = [] ∨
      (cfg.channels < cfg.devChannels ∧ w.audioQueue.length ≤ cfg.channels)

instance (cfg : RenderConfig) (w : RenderWorld) : (e : RenderEvent) →
    Decidable (cfg.KeepsFrames w e)
  | .receive .. => isTrue trivial
  | .render _ => inferInstanceAs (Decidable (_ ∨ _ ∨ _ ∨ _))

/-- The queue holds the frames still to be played, and the device was written
what the frames played say. -/
structure Follows (cfg : RenderConfig) (w : RenderWorld) (s : FrameQueue) : Prop where
  whole : ∀ frame ∈ s.queued, frame.length = cfg.channels
  queue : w.audioQueue = (s.queued.drop s.played).flatten
  played : s.played ≤ s.queued.length
  written : w.written = s.written.map fun buffer => buffer.flatMap (FrameQueue.deviceFrame cfg)

variable {w : RenderWorld} {s : FrameQueue}

theorem Follows.queue_length (h : cfg.Follows w s) :
    w.audioQueue.length = (s.queued.length - s.played) * cfg.channels := by
  have hflat := Interleave.length_flatMap (g := id) (l := s.queued.drop s.played)
    fun frame hframe => h.whole frame (List.mem_of_mem_drop hframe)
  rw [h.queue, ← List.flatMap_id, hflat, List.length_drop]

theorem Follows.step (h : cfg.Follows w s) {e : RenderEvent} (hok : cfg.KeepsFrames w e) :
    cfg.Follows (cfg.step w e) (FrameQueue.step cfg s e) := by
  cases e with
  | receive numSamples channelData =>
      dsimp only [RenderConfig.step, receiveCallback, FrameQueue.step]
      rw [h.queue_length]
      split
      · exact { h with }
      · refine { h with whole := fun frame hframe => ?_, queue := ?_, played := ?_ }
        · rcases List.mem_append.mp hframe with hold | hnew
          · exact h.whole frame hold
          · obtain ⟨i, _, rfl⟩ := List.mem_map.mp hnew
            simp [frameOf]
        · rw [List.drop_append_of_le_length h.played, List.flatten_append, h.queue,
            List.flatMap_def]
        · exact h.played.trans (by simp)
  | render frames =>
      dsimp only [RenderConfig.step, FrameQueue.step]
      split
      · next hpos =>
          have hpending : cfg.channels = cfg.devChannels ∨ s.queued.drop s.played = [] ∨
              (cfg.channels < cfg.devChannels ∧ (s.queued.drop s.played).length ≤ 1) := by
            have hlen := h.queue_length
            have hC := cfg.channels_pos
            rw [List.length_drop, List.drop_eq_nil_iff]
            rcases hok with hzero | heq | hnil | ⟨hlt, hle⟩
            · omega
            · exact .inl heq
            · rw [hnil, List.length_nil, eq_comm, Nat.mul_eq_zero] at hlen
              omega
            · refine .inr (.inr ⟨hlt, ?_⟩)
              rw [hlen] at hle
              exact Nat.le_of_mul_le_mul_right (by omega) hC
          have hfill := fillBuffer_frames
            (fun frame hframe => h.whole frame (List.mem_of_mem_drop hframe)) hpending frames
          rw [← h.queue] at hfill
          rw [hfill]
          refine ⟨h.whole, ?_, Nat.min_le_right _ _, ?_⟩
          · rw [List.drop_drop]
            rcases Nat.le_total (s.played + frames) s.queued.length with hle | hle
            · rw [Nat.min_eq_left hle]
            · rw [Nat.min_eq_right hle, List.drop_eq_nil_of_le hle, List.drop_length]
          · simp [h.written, List.getElem?_drop]
      · exact h

/-- In every run in which a render finds the queue as the condition says, the
device gets frame by frame what was queued: the bytes written are those of the
frames played, and the frames are played in order, each once. -/
theorem render_keeps_frames (cfg : RenderConfig) (events : List RenderEvent)
    (hok : Runs.Each cfg.step cfg.KeepsFrames RenderConfig.start events) :
    (cfg.run events).written = (FrameQueue.run cfg events).written.map
        (fun buffer => buffer.flatMap (FrameQueue.deviceFrame cfg)) ∧
      (FrameQueue.run cfg events).InOrder := by
  have hstart : cfg.Follows RenderConfig.start FrameQueue.start :=
    ⟨by simp [FrameQueue.start], rfl, le_rfl, rfl⟩
  have hfollows : cfg.Follows (cfg.run events) (FrameQueue.run cfg events) :=
    Runs.Each.simulates (R := cfg.Follows) (fun _ _ e h hk => h.step (e := e) hk) hstart hok
  exact ⟨hfollows.written, FrameQueue.run_inOrder events⟩

/-- Two channels to a device of two, 16 bits; the queue runs empty on the way. -/
def stereoConfig : RenderConfig := ⟨2, 2, 2, 96000, by decide, by decide, by decide, by decide⟩

theorem render_keeps_frames_stereo :
    let events := [.receive 2 [[0x10000, 0x20000], [0x30000, 0x40000]], .render 3,
      .receive 1 [[0x50000], [0x60000]], .render 1]
    (stereoConfig.run events).written = (FrameQueue.run stereoConfig events).written.map
        (fun buffer => buffer.flatMap (FrameQueue.deviceFrame stereoConfig)) ∧
      (FrameQueue.run stereoConfig events).InOrder :=
  render_keeps_frames stereoConfig _ (by decide)

/-- One channel to a device of two. -/
def monoConfig : RenderConfig := ⟨1, 2, 2, 48000, by decide, by decide, by decide, by decide⟩

/-- Two frames of one channel come out as the left and the right of one. -/
theorem mono_played_as_stereo :
    (monoConfig.run [.receive 2 [[0x10000, 0x20000]], .render 2]).written ≠
      (FrameQueue.run monoConfig [.receive 2 [[0x10000, 0x20000]], .render 2]).written.map
        (fun buffer => buffer.flatMap (FrameQueue.deviceFrame monoConfig)) := by
  decide

end RenderConfig

end Inferno
