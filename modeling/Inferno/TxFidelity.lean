import Inferno.FlowsTransmit

/-!
# From the pusher to the wire

`TxPusher` writes batches into one ring for each channel, and `transmit` reads
the rings into packets. Between two batches a ring holds the stream pushed so
far (`Holds`), so that what a packet of 32-bit samples carries can be told from
the streams: each slot its channel's samples of the packet's time or silence
(`push_to_wire`).
-/

namespace Inferno

open Interleave

/-! ## Lanes of a packet buffer -/

/-- The first `m` samples of slot `s` are those of `x`. -/
def Lane (buf : Nat → Byte) (n s m : Nat) (x : Nat → Sample) : Prop :=
  ∀ j < m, ∀ k (hk : k < 4), buf (9 + cellPos n 4 s j + k) = (SampleWidth.s32.cell (x j))[k]

theorem clearLow_s32 (x : Sample) : SampleWidth.s32.clearLow x = x := by
  show x >>> 0 <<< 0 = x
  rw [BitVec.ushiftRight_zero, BitVec.shiftLeft_zero]

theorem Lane.congr {buf buf' : Nat → Byte} {n s m : Nat} {x : Nat → Sample}
    (h : Lane buf n s m x)
    (heq : ∀ j < m, ∀ k < 4, buf' (9 + cellPos n 4 s j + k) = buf (9 + cellPos n 4 s j + k)) :
    Lane buf' n s m x :=
  fun j hj k hk => (heq j hj k hk).trans (h j hj k hk)

/-- Writing another slot keeps a lane. -/
theorem Lane.writeLane {buf : Nat → Byte} {n s i m : Nat} {x : Nat → Sample} {row : List Sample}
    (h : Lane buf n s m x) (hi : i < n) (hs : s < n) (hne : i ≠ s) :
    Lane (Inferno.writeLane .s32 n i row buf) n s m x :=
  h.congr fun _ _ _ hk => writeLane_other (w := .s32) hi hs hne hk

/-- What may be read for index `j`: the timeline or silence, and the timeline
if the whole read lies in the window. -/
def Readable (src : TxSource) (tl : Timeline Sample) (t₀ : Clock) (fpp j : Nat) (y : Sample) :
    Prop :=
  (y = tl.value (tl.place t₀ + j) ∨ y = 0) ∧
    (wrapsub src.mem.writingPos t₀ ≤ src.shared.itemsSize ∧
      fpp ≤ wrapsub src.mem.readablePos t₀ → y = tl.value (tl.place t₀ + j))

/-- A source whose reads come to an end and keep the length of the buffer; a
`good` sample comes out at each index. -/
def Answers (src : TxSource) (good : Clock → Nat → Nat → Sample → Prop) : Prop :=
  ∀ (t₀ : Clock) (fpp : Nat) (tmp : List Sample), fpp ≤ tmp.length →
    ∃ tmp', readChannel src t₀ fpp tmp = some tmp' ∧ tmp'.length = tmp.length ∧
      ∀ j (hj : j < tmp'.length), j < fpp → good t₀ fpp j tmp'[j]

theorem zeroOutside_length (a b : Nat) (xs : List Sample) :
    (zeroOutside a b xs).length = xs.length := List.length_mapIdx

theorem zeroOutside_getElem {a b j : Nat} {xs : List Sample}
    (hj : j < (zeroOutside a b xs).length) :
    (zeroOutside a b xs)[j] = if j < a ∨ b ≤ j then 0
      else xs.get ⟨j, by rw [zeroOutside_length] at hj; exact hj⟩ :=
  List.getElem_mapIdx

/-- `read_at` and the silence around what it found. -/
theorem readChannel_spec {src : TxSource} {t₀ : Clock} {fpp : Nat} {tmp out : List Sample}
    {r : ReadResult} {m : RingMem Sample} (hfpp : fpp ≤ tmp.length)
    (hexec : (RBOutput.readAt src.shared t₀ (tmp.take fpp)).exec ringMem src.mem =
      some ((out, r), m))
    (hlen : out.length = fpp) (hstart : r.usefulStartIndex ≤ fpp) (hend : r.usefulEndIndex ≤ fpp) :
    ∃ tmp', readChannel src t₀ fpp tmp = some tmp' ∧ tmp'.length = tmp.length ∧
      ∀ j (hj : j < tmp'.length), j < fpp →
        (r.Useful j → out[j]? = some tmp'[j]) ∧ (¬r.Useful j → tmp'[j] = 0) := by
  have hall : (out ++ tmp.drop fpp).length = tmp.length := by
    rw [List.length_append, List.length_drop, hlen]
    omega
  have hget : ∀ j (hj : j < (out ++ tmp.drop fpp).length), j < fpp →
      out[j]? = some (out ++ tmp.drop fpp)[j] := by
    intro j hj hlt
    rw [List.getElem_append_left (by omega), List.getElem?_eq_getElem (by omega)]
  rw [readChannel, if_pos hfpp, hexec]
  simp only [Option.bind_eq_bind, Option.bind_some]
  split
  · rw [if_pos ⟨by omega, by omega⟩]
    refine ⟨_, rfl, by rw [zeroOutside_length, hall], fun j hj hlt => ⟨fun hu => ?_, fun hu => ?_⟩⟩
    · rw [zeroOutside_getElem, if_neg (by unfold ReadResult.Useful at hu; omega)]
      exact hget j _ hlt
    · rw [zeroOutside_getElem, if_pos (by unfold ReadResult.Useful at hu; omega)]
  · next hfull =>
      refine ⟨_, rfl, hall, fun j hj hlt => ⟨fun _ => hget j hj hlt, fun hu => absurd ?_ hu⟩⟩
      unfold ReadResult.Useful
      omega

/-- A ring with nothing between its two positions answers with its timeline. -/
theorem answers_of_readsTimeline {src : TxSource} {tl : Timeline Sample}
    (h : ReadsTimeline src.shared src.mem tl)
    (hpos : src.mem.readablePos = src.mem.writingPos) :
    Answers src (Readable src tl) := by
  intro t₀ fpp tmp hfpp
  obtain ⟨out, r, hexec, hlen, huseful, hval⟩ := h t₀ (tmp.take fpp)
  obtain ⟨out', r', hexec', _, hstart, hend⟩ :=
    RBOutput.readAt_succeeds src.shared src.mem t₀ (tmp.take fpp)
  obtain ⟨⟨rfl, rfl⟩, _⟩ : (out = out' ∧ r = r') ∧ True := by
    rw [hexec] at hexec'
    simpa using hexec'
  rw [List.length_take, Nat.min_eq_left hfpp] at hlen huseful hstart hend
  obtain ⟨tmp', hread, hlen', hitem⟩ := readChannel_spec hfpp hexec hlen hstart hend
  refine ⟨tmp', hread, hlen', fun j hj hlt => ?_⟩
  by_cases hu : r.Useful j
  · have hy : tmp'[j] = tl.value (tl.place t₀ + j) := by
      have hget := hval j hu
      rw [(hitem j hj hlt).1 hu] at hget
      exact Option.some.inj hget
    exact ⟨.inl hy, fun _ => hy⟩
  · refine ⟨.inr ((hitem j hj hlt).2 hu), fun hwin => absurd ((huseful j).mpr ?_) hu⟩
    rw [hpos] at hwin ⊢
    omega

/-! ## All channels of a packet -/

section

variable {cfg : TxConfig} {good : Nat → Clock → Nat → Nat → Sample → Prop} {flow : Flow}
  {t₀ : Clock}

/-- The slot reads no ring. -/
def NoRing (cfg : TxConfig) (ch : Option Nat) : Prop :=
  ∀ c ∈ ch, cfg.channelsSources.length ≤ c

/-- What a slot of a packet may carry: good samples of its channel's ring, or
silence if it has none. -/
def SlotOk (cfg : TxConfig) (good : Nat → Clock → Nat → Nat → Sample → Prop) (t₀ : Clock)
    (fpp : Nat) (ch : Option Nat) (x : Nat → Sample) : Prop :=
  (NoRing cfg ch → ∀ j < fpp, x j = 0) ∧
    ∀ c ∈ ch, c < cfg.channelsSources.length → ∀ j < fpp, good c t₀ fpp j (x j)

/-- The lanes of the slots without a ring are silent. -/
def Quiet (cfg : TxConfig) (flow : Flow) (chs : List (Option Nat)) (i : Nat) (pbuff : Nat → Byte) :
    Prop :=
  ∀ l (hl : l < chs.length), NoRing cfg chs[l] →
    Lane pbuff flow.channelIndices.length (i + l) flow.fpp fun _ => 0

theorem Quiet.tail {ch : Option Nat} {chs : List (Option Nat)} {i : Nat} {pbuff pbuff' : Nat → Byte}
    (h : Quiet cfg flow (ch :: chs) i pbuff)
    (hkeep : ∀ s x, i < s → s < i + (ch :: chs).length →
      Lane pbuff flow.channelIndices.length s flow.fpp x →
      Lane pbuff' flow.channelIndices.length s flow.fpp x) :
    Quiet cfg flow chs (i + 1) pbuff' := by
  intro l hl hno
  rw [show i + 1 + l = i + (l + 1) by omega]
  exact hkeep _ _ (by omega) (by rw [List.length_cons]; omega) (h (l + 1) (Nat.succ_lt_succ hl) hno)

/-- What writing the channels `chs`, from slot `i` on, does to a packet. -/
structure Filled (cfg : TxConfig) (good : Nat → Clock → Nat → Nat → Sample → Prop) (flow : Flow)
    (t₀ : Clock) (chs : List (Option Nat)) (i : Nat) (b b' : TxBuffers) : Prop where
  before : ∀ s x, s < i → Lane b.pbuff flow.channelIndices.length s flow.fpp x →
    Lane b'.pbuff flow.channelIndices.length s flow.fpp x
  slots : ∀ l (hl : l < chs.length), ∃ x,
    Lane b'.pbuff flow.channelIndices.length (i + l) flow.fpp x ∧ SlotOk cfg good t₀ flow.fpp chs[l] x

/-- The first slot is settled, the others follow. -/
theorem Filled.cons {ch : Option Nat} {chs : List (Option Nat)} {i : Nat} {b b₁ b' : TxBuffers}
    {x : Nat → Sample} (h : Filled cfg good flow t₀ chs (i + 1) b₁ b')
    (hkeep : ∀ s x, s < i → Lane b.pbuff flow.channelIndices.length s flow.fpp x →
      Lane b₁.pbuff flow.channelIndices.length s flow.fpp x)
    (hlane : Lane b₁.pbuff flow.channelIndices.length i flow.fpp x)
    (hok : SlotOk cfg good t₀ flow.fpp ch x) : Filled cfg good flow t₀ (ch :: chs) i b b' := by
  refine ⟨fun s y hs hy => h.before s y (by omega) (hkeep s y hs hy), ?_⟩
  intro l hl
  cases l with
  | zero => exact ⟨x, h.before i x (Nat.lt_succ_self i) hlane, hok⟩
  | succ l =>
      rw [show i + (l + 1) = i + 1 + l by omega]
      exact h.slots l (Nat.lt_of_succ_lt_succ hl)

theorem writeHeader_other {sampleRate : BitVec 32} {packetTs : Clock} {pbuff pbuff' : Nat → Byte}
    (h : writeHeader sampleRate packetTs pbuff = some pbuff') {p : Nat} (hp : 9 ≤ p) :
    pbuff' p = pbuff p := by
  unfold writeHeader at h
  split at h
  · cases h
  · cases h
    rw [putBytes_other (.inr (show 5 + 4 ≤ p from hp)),
      putBytes_other (.inr (show 1 + 4 ≤ p by omega)),
      putBytes_other (.inr (show 0 + 1 ≤ p by omega))]

/-- The buffer is ready for the flow's next packet. -/
def Ready (cfg : TxConfig) (flow : Flow) (b : TxBuffers) : Prop :=
  flow.bytesPerSample = 4 → 9 + flow.channelIndices.length * 4 * flow.fpp ≤ MTU ∧
    Quiet cfg flow flow.channelIndices 0 b.pbuff

theorem sendPacket_eq {env : Outside} {st st' : TxRun} {flow' : Flow}
    (h : sendPacket env flow st = some (flow', st')) :
    (∃ nextTs, flow' = { flow with nextTs := nextTs }) ∧ st'.buffers = st.buffers ∧
      st'.sent = st.sent ++ [⟨flow, st.buffers.pbuff, 9 + flow.stride * flow.fpp⟩] := by
  simp only [sendPacket] at h
  split at h
  · split at h <;> cases h <;> exact ⟨⟨_, rfl⟩, rfl, rfl⟩
  · cases h

theorem awakeTooLong_eq (env : Outside) (now : Clock) (st : TxRun) :
    (awakeTooLong cfg env now st).2.buffers = st.buffers ∧
      (awakeTooLong cfg env now st).2.sent = st.sent := by
  simp only [awakeTooLong]
  split
  · split <;> exact ⟨rfl, rfl⟩
  · exact ⟨rfl, rfl⟩

theorem bootstrapNextTs_eq {now : Clock} {flow' : Flow} (h : flow.bootstrapNextTs now = some flow') :
    ∃ nextTs, flow' = { flow with nextTs := nextTs } := by
  simp only [Flow.bootstrapNextTs] at h
  split at h
  · cases h
  · exact ⟨_, (Option.some.inj h).symm⟩

theorem resync_eq {now : Clock} {flow' : Flow} (h : resync cfg now flow = some flow') :
    ∃ nextTs, flow' = { flow with nextTs := nextTs } := by
  rw [resync] at h
  obtain ⟨flow₁, h₁, h⟩ := Option.bind_eq_some_iff.mp h
  obtain ⟨ts₁, rfl⟩ : ∃ nextTs, flow₁ = { flow with nextTs := nextTs } := by
    split at h₁
    · exact bootstrapNextTs_eq h₁
    · exact ⟨_, (Option.some.inj h₁).symm⟩
  split at h
  · obtain ⟨ts, rfl⟩ := bootstrapNextTs_eq h
    exact ⟨ts, rfl⟩
  · exact ⟨_, (Option.some.inj h).symm⟩

theorem processKeepalive_sent (env : Outside) (now : Clock) (st : TxRun) :
    (processKeepalive cfg env now flow st).2.sent = st.sent := by
  simp only [processKeepalive]
  split
  · rfl
  · split
    · rfl
    · split <;> rfl

end

/-! ## The pusher -/

/-- The ring `transmit_with_push` makes for every channel. -/
def txRing : RingShared := ownedShared 131072 (by decide)

theorem txRing_itemsSize : txRing.itemsSize = 131072 := by decide

/-- `TxPusher`: its inputs with the rings they write. -/
structure TxPusher where
  rings : List (RingState Sample)
  timestamp : Clock

/-- A slice for each ring, as long as there are both. -/
def pushRings (timestamp : Clock) :
    List (RingState Sample) → List (List Sample) → Option (List (RingState Sample))
  | [], _ => some []
  | rings, [] => some rings
  | ring :: rings, samples :: channelData => do
      let ring ← (RingCall.write timestamp samples).run txRing ring
      let rings ← pushRings timestamp rings channelData
      some (ring :: rings)

namespace TxPusher

def new (channels : Nat) (startTimestamp : Clock) : TxPusher where
  rings := List.replicate channels (newOwned startTimestamp 0)
  timestamp := startTimestamp

def pushChannels (p : TxPusher) (channelData : List (List Sample)) : Option TxPusher :=
  let n := (channelData.head?.map List.length).getD 0
  if n = 0 then some p
  else do
    let rings ← pushRings p.timestamp p.rings channelData
    some ⟨rings, p.timestamp + BitVec.ofNat 64 n⟩

end TxPusher

/-- What was pushed for time `t`, by a stream that began at `start`; silence
outside of it. -/
def pushedAt (start : Int) (stream : List Sample) (t : Int) : Sample :=
  if start ≤ t then stream.getD (t - start).toNat 0 else 0

theorem pushedAt_append (start : Int) (stream xs : List Sample) (t : Int) :
    pushedAt start (stream ++ xs) t =
      if start + stream.length ≤ t ∧ t < start + stream.length + xs.length then
        xs.getD (t - (start + stream.length)).toNat 0
      else pushedAt start stream t := by
  unfold pushedAt
  by_cases h1 : start ≤ t
  · rw [if_pos h1, if_pos h1]
    by_cases h2 : start + stream.length ≤ t
    · rw [List.getD_append_right _ _ _ _ (by omega)]
      by_cases h3 : t < start + stream.length + xs.length
      · rw [if_pos ⟨h2, h3⟩]
        congr 1
        omega
      · rw [if_neg (fun h => h3 h.2), List.getD_eq_default _ _ (by omega),
          List.getD_eq_default _ _ (by omega)]
    · rw [if_neg (fun h => h2 h.1), List.getD_append _ _ _ _ (by omega)]
  · rw [if_neg h1, if_neg h1, if_neg (by omega)]

/-- Between two batches: the ring holds the stream, both positions at its end. -/
structure Holds (start : Int) (stream : List Sample) (ring : RingState Sample)
    (tl : Timeline Sample) : Prop where
  steady : RBInput.Steady txRing ring.1 (start + stream.length) ⟨ring.2, tl⟩
  wait : ring.1.holeFixWait = 0
  base : tl.base = start + stream.length
  value : ∀ t, tl.value t = pushedAt start stream t

theorem holds_new (start : Clock) : Holds start.toInt [] (newOwned start 0) (.fresh start) where
  steady := by
    rw [List.length_nil, Int.natCast_zero, Int.add_zero]
    exact steady_newOwned (by decide)
  wait := rfl
  base := (Int.add_zero _).symm
  value := fun t => by
    show (0 : Sample) = pushedAt start.toInt [] t
    simp [pushedAt]

/-- The next batch of a channel goes behind what its ring holds. -/
theorem Holds.push {start : Int} {stream : List Sample} {ring : RingState Sample}
    {tl : Timeline Sample} (h : Holds start stream ring tl) {samples : List Sample}
    (hlen : samples.length < 131072) :
    ∃ ring' tl', (RingCall.write (BitVec.ofInt 64 (start + stream.length)) samples).run txRing ring =
      some ring' ∧ Holds start (stream ++ samples) ring' tl' := by
  obtain ⟨W, hW⟩ : ∃ W : Int, W = start + stream.length := ⟨_, rfl⟩
  obtain ⟨hst, hwait, hbase, hvalue⟩ := h
  rw [← hW] at hst hbase ⊢
  have hN := txRing_itemsSize
  have hw : ring.2.writingPos = BitVec.ofInt 64 W := by rw [hst.tracks.writing, hbase]
  have hr : ring.2.readablePos = BitVec.ofInt 64 W := hst.tracks.reading
  have hend : wrapsub (BitVec.ofInt 64 W + BitVec.ofNat 64 samples.length) (BitVec.ofInt 64 W) =
      samples.length := by
    rw [Serial.ofInt_add_ofNat, wrapsub_ofInt ⟨by omega, by omega⟩]
    omega
  have hin : (RingCall.write (BitVec.ofInt 64 W) samples).InWindow txRing (ring.1, ring.2) := by
    show _ ∧ _ ∧ _ ∧ _
    rw [hw, hr, wrapsub_self, hend, hN]
    exact ⟨hlen, by omega, by omega, by omega⟩
  have hfits := hin.fits hst (by rw [hwait]; exact Nat.zero_le _)
  obtain ⟨inp, s, hexec, ⟨R, hR, hst', hwait', htl⟩, _⟩ :=
    Prog.Wp.exec (fun _ => rfl) (RingCall.prog_runs hst hfits)
  have hplace : tl.place (BitVec.ofInt 64 W) = W := by
    rw [Timeline.place, hbase]
    exact Serial.place_ofInt (by decide) ⟨by omega, by omega⟩
  have hbase' : s.tl.base = W + samples.length := by
    rw [htl]
    show max tl.base (tl.place (BitVec.ofInt 64 W) + samples.length) = _
    rw [hplace, hbase]
    omega
  have hR' : R = W + samples.length := by
    have hlag := hst'.wait
    have hle := hst'.tracks.le_base
    rw [hwait', hwait, hbase'] at hlag
    rw [hbase'] at hle
    simp at hlag
    omega
  refine ⟨(inp, s.mem), s.tl, ?_, ?_, hwait'.trans hwait, ?_, fun t => ?_⟩
  · rw [RingCall.run, show ring.2 = (⟨ring.2, tl⟩ : Traced Sample).mem from rfl, exec_mem, hexec]
    rfl
  · rw [List.length_append, Nat.cast_add, ← Int.add_assoc, ← hW, ← hR']
    exact hst'
  · rw [hbase', List.length_append, Nat.cast_add, ← Int.add_assoc, ← hW]
  · rw [pushedAt_append, ← hW, ← hvalue, htl]
    show ((tl.write (BitVec.ofInt 64 W) samples).sample t).getD default = _
    show ((tl.putAll (tl.place (BitVec.ofInt 64 W)) samples).sample t).getD default = _
    rw [hplace]
    split
    · next hin =>
        rw [Timeline.putAll_sample_of_mem hin.1 hin.2, List.getD_eq_getElem?_getD]
        rfl
    · next hout =>
        rw [Timeline.putAll_sample_of_not_mem hout]
        rfl

/-- A batch for `channels` channels: a slice for each, all of one length below
the ring's. -/
def FullBatch (channels : Nat) (channelData : List (List Sample)) : Prop :=
  channels ≤ channelData.length ∧
    ∃ n < 131072, ∀ samples ∈ channelData, samples.length = n

theorem pushRings_holds {start : Int} {total n : Nat} (hn : n < 131072)
    {rings : List (RingState Sample)} {channelData : List (List Sample)}
    {streams : Nat → List Sample} (hcount : rings.length ≤ channelData.length)
    (hlen : ∀ samples ∈ channelData, samples.length = n)
    (htotal : ∀ ch < rings.length, (streams ch).length = total)
    (hholds : ∀ ch (hch : ch < rings.length), ∃ tl, Holds start (streams ch) rings[ch] tl) :
    ∃ rings', pushRings (BitVec.ofInt 64 (start + total)) rings channelData = some rings' ∧
      rings'.length = rings.length ∧ ∀ ch (hch : ch < rings'.length),
        ∃ tl, Holds start (streams ch ++ channelData.getD ch []) rings'[ch] tl := by
  induction rings generalizing channelData streams with
  | nil => exact ⟨[], rfl, rfl, fun ch hch => absurd hch (Nat.not_lt_zero ch)⟩
  | cons ring rings ih =>
      cases channelData with
      | nil => cases hcount
      | cons samples channelData =>
          obtain ⟨tl, h0⟩ : ∃ tl, Holds start (streams 0) ring tl :=
            hholds 0 (Nat.zero_lt_succ _)
          have htotal0 := htotal 0 (Nat.zero_lt_succ _)
          have hsamples := hlen samples List.mem_cons_self
          obtain ⟨ring', tl', hrun, h0'⟩ := h0.push (show samples.length < 131072 by omega)
          obtain ⟨rings', hrest, hcount', hholds'⟩ :=
            @ih channelData (fun ch => streams (ch + 1)) (Nat.le_of_succ_le_succ hcount)
            (fun s hs => hlen s (List.mem_cons_of_mem _ hs))
            (fun ch hch => htotal (ch + 1) (Nat.succ_lt_succ hch))
            (fun ch hch => hholds (ch + 1) (Nat.succ_lt_succ hch))
          refine ⟨ring' :: rings', ?_, congrArg (· + 1) hcount', fun ch hch => ?_⟩
          · rw [htotal0] at hrun
            rw [pushRings, hrun, hrest]
            rfl
          · cases ch with
            | zero => exact ⟨tl', h0'⟩
            | succ ch => exact hholds' ch (Nat.lt_of_succ_lt_succ hch)

/-- The pusher after `total` frames: every ring holds its stream. -/
structure TxPusher.After (start : Int) (channels total : Nat) (streams : Nat → List Sample)
    (p : TxPusher) : Prop where
  count : p.rings.length = channels
  timestamp : p.timestamp = BitVec.ofInt 64 (start + total)
  total : ∀ ch < channels, (streams ch).length = total
  holds : ∀ ch (hch : ch < p.rings.length), ∃ tl, Holds start (streams ch) p.rings[ch] tl

theorem TxPusher.after_new (channels : Nat) (start : Clock) :
    (TxPusher.new channels start).After start.toInt channels 0 fun _ => [] where
  count := List.length_replicate
  timestamp := by
    rw [Int.natCast_zero, Int.add_zero, BitVec.ofInt_toInt]
    rfl
  total := fun _ _ => rfl
  holds := fun ch hch => ⟨_, by
    have hring : (TxPusher.new channels start).rings[ch] = newOwned start 0 :=
      List.getElem_replicate _
    rw [hring]
    exact holds_new start⟩

/-- A full batch is pushed without a panic, a slice to each stream. -/
theorem TxPusher.After.push {start : Int} {channels total : Nat} {streams : Nat → List Sample}
    {p : TxPusher} (h : p.After start channels total streams) {channelData : List (List Sample)}
    (hbatch : FullBatch channels channelData) :
    ∃ p' total', p.pushChannels channelData = some p' ∧
      p'.After start channels total' fun ch => streams ch ++ channelData.getD ch [] := by
  obtain ⟨hcount, n, hn, hlen⟩ := hbatch
  have hdata : ∀ ch < channels, (channelData.getD ch []).length = n := by
    intro ch hch
    rw [List.getD_eq_getElem _ _ (by omega)]
    exact hlen _ (List.getElem_mem _)
  have hhead : channelData ≠ [] → (channelData.head?.map List.length).getD 0 = n := by
    intro hne
    rw [List.head?_eq_some_head hne]
    exact hlen _ (List.head_mem hne)
  rw [TxPusher.pushChannels]
  by_cases h0 : (channelData.head?.map List.length).getD 0 = 0
  · -- nothing to push: all the slices are empty
    have hempty : ∀ ch, channelData.getD ch [] = [] := by
      intro ch
      rw [List.getD_eq_getElem?_getD]
      cases hget : channelData[ch]? with
      | none => rfl
      | some samples =>
          have hmem := List.mem_of_getElem? hget
          have hzero := hhead (List.ne_nil_of_mem hmem)
          exact List.eq_nil_of_length_eq_zero ((hlen _ hmem).trans (hzero.symm.trans h0))
    refine ⟨p, total, if_pos h0, ?_⟩
    simpa only [hempty, List.append_nil] using h
  · have hne : channelData ≠ [] := by
      rintro rfl
      exact h0 rfl
    obtain ⟨rings', hrun, hcount', hholds⟩ := pushRings_holds hn
      (by rw [h.count]; exact hcount) hlen (by rw [h.count]; exact h.total) h.holds
    rw [h.count] at hcount'
    refine ⟨⟨rings', BitVec.ofInt 64 (start + (total + n : Nat))⟩, total + n, ?_,
      ⟨hcount', rfl, fun ch hch => ?_, hholds⟩⟩
    · rw [if_neg h0, h.timestamp, hrun, hhead hne]
      show some _ = some _
      rw [Serial.ofInt_add_ofNat, Nat.cast_add, Int.add_assoc]
    · rw [List.length_append, h.total ch hch, hdata ch hch]

/-! ## The whole transmitter -/

/-- The pusher, the table of flows and what the thread keeps. -/
structure TxSystem where
  pusher : TxPusher
  flows : List (Option Flow)
  flags : Flag → Bool
  ditherRng : DitherRng

inductive TxAction where
  | push (channelData : List (List Sample))
  | transmit (env : Outside) (now : Clock) (processEvents : Bool) (fuel : Nat)
  | command (c : TxCommand) (now : Option Clock)

/-- The configuration over the pusher's rings. -/
def TxConfig.over (cfg : TxConfig) (p : TxPusher) : TxConfig :=
  { cfg with channelsSources := p.rings.map fun ring => ⟨txRing, ring.2⟩ }

namespace TxSystem

/-- `transmit_with_push`, before any flow. -/
def start (channels : Nat) (startTimestamp : Clock) (flags : Flag → Bool) (ditherRng : DitherRng) :
    TxSystem where
  pusher := .new channels startTimestamp
  flows := List.replicate MAX_FLOWS none
  flags := flags
  ditherRng := ditherRng

/-- One action, with the packets it sends; `none` is a panic. -/
def step (cfg : TxConfig) (s : TxSystem) : TxAction → Option (TxSystem × List TxPacket)
  | .push channelData => do
      let pusher ← s.pusher.pushChannels channelData
      some ({ s with pusher := pusher }, [])
  | .transmit env now processEvents fuel => do
      let (flows, st, _) ← Inferno.transmit (cfg.over s.pusher) env now processEvents fuel s.flows
        s.flags s.ditherRng
      some ({ s with flows := flows, flags := st.flags, ditherRng := st.buffers.ditherRng },
        st.sent)
  | .command c now => do
      let (flows, flags) ← handleCommand cfg.sampleRate now s.flows s.flags c
      some ({ s with flows := flows, flags := flags }, [])

/-- Actions in a row. -/
def run (cfg : TxConfig) : List TxAction → TxSystem → Option TxSystem
  | [], s => some s
  | a :: as, s => (s.step cfg a).bind fun r => run cfg as r.1

end TxSystem

/-- What an action adds to the stream of a channel. -/
def TxAction.pushed (ch : Nat) : TxAction → List Sample
  | .push channelData => channelData.getD ch []
  | _ => []

def TxAction.Full (channels : Nat) : TxAction → Prop
  | .push channelData => FullBatch channels channelData
  | _ => True

theorem TxSystem.step_after {cfg : TxConfig} {start : Int} {channels total : Nat}
    {streams : Nat → List Sample} {s s' : TxSystem} {a : TxAction} {sent : List TxPacket}
    (h : s.pusher.After start channels total streams) (ha : a.Full channels)
    (hstep : s.step cfg a = some (s', sent)) :
    ∃ total', s'.pusher.After start channels total' fun ch => streams ch ++ a.pushed ch := by
  cases a with
  | push channelData =>
      obtain ⟨p', total', hpush, hafter⟩ := h.push ha
      simp only [step, hpush, Option.bind_eq_bind, Option.bind_some] at hstep
      cases hstep
      exact ⟨total', hafter⟩
  | transmit env now pe fuel =>
      obtain ⟨⟨flows, st, fin⟩, _, hstep⟩ := Option.bind_eq_some_iff.mp hstep
      cases hstep
      simp only [TxAction.pushed, List.append_nil]
      exact ⟨total, h⟩
  | command c now =>
      obtain ⟨⟨flows, flags⟩, _, hstep⟩ := Option.bind_eq_some_iff.mp hstep
      cases hstep
      simp only [TxAction.pushed, List.append_nil]
      exact ⟨total, h⟩

/-- What is good for a channel in terms of its stream: the sample pushed for
that time or silence, and the former if the whole packet is in the window. -/
def FromStream (start : Int) (total : Nat) (streams : Nat → List Sample) (p : TxPusher)
    (ch : Nat) (t₀ : Clock) (fpp j : Nat) (y : Sample) : Prop :=
  ∀ ring ∈ p.rings[ch]?,
    (y = pushedAt start (streams ch) (Serial.place (start + total) t₀ + j) ∨ y = 0) ∧
    (wrapsub ring.2.writingPos t₀ ≤ 131072 ∧ fpp ≤ wrapsub ring.2.readablePos t₀ →
      y = pushedAt start (streams ch) (Serial.place (start + total) t₀ + j))

theorem TxPusher.After.answers {start : Int} {channels total : Nat} {streams : Nat → List Sample}
    {p : TxPusher} (h : p.After start channels total streams) (cfg : TxConfig) (ch : Nat)
    (src : TxSource) (hsrc : (cfg.over p).channelsSources[ch]? = some src) :
    Answers src (FromStream start total streams p ch) := by
  obtain ⟨hch, hget⟩ := List.getElem?_eq_some_iff.mp hsrc
  simp only [TxConfig.over, List.length_map, List.getElem_map] at hch hget
  subst hget
  obtain ⟨tl, hholds⟩ := h.holds ch hch
  have htotal : tl.base = start + total := by
    rw [hholds.base, h.total ch (h.count ▸ hch)]
  have hpos : p.rings[ch].2.readablePos = p.rings[ch].2.writingPos := by
    rw [hholds.steady.tracks.reading, hholds.steady.tracks.writing, hholds.base]
  intro t₀ fpp tmp hfpp
  have hans : Answers ⟨txRing, p.rings[ch].2⟩ (Readable ⟨txRing, p.rings[ch].2⟩ tl) :=
    answers_of_readsTimeline (hholds.steady.readsTimeline rfl) hpos
  obtain ⟨tmp', hread, hlen, hgood⟩ := hans t₀ fpp tmp hfpp
  refine ⟨tmp', hread, hlen, fun j hj hlt ring hring => ?_⟩
  obtain rfl : p.rings[ch] = ring := by
    rw [List.getElem?_eq_getElem hch] at hring
    exact Option.some.inj hring
  have hreadable := hgood j hj hlt
  simp only [Readable, hholds.value, Timeline.place, htotal, txRing_itemsSize] at hreadable
  exact hreadable

/-- A packet inside `[writing_pos - N, readable_pos)` ends before the stream. -/
theorem TxPusher.After.inside {start : Int} {channels total : Nat} {streams : Nat → List Sample}
    {p : TxPusher} (h : p.After start channels total streams) {ch : Nat}
    (hch : ch < p.rings.length) {t₀ : Clock} {fpp : Nat}
    (hin : fpp ≤ wrapsub p.rings[ch].2.readablePos t₀) :
    Serial.place (start + total) t₀ + fpp ≤ start + (streams ch).length := by
  obtain ⟨tl, hholds⟩ := h.holds ch hch
  have htotal := h.total ch (h.count ▸ hch)
  have hr : p.rings[ch].2.readablePos = BitVec.ofInt 64 (start + total) := by
    rw [hholds.steady.tracks.reading, htotal]
  have hfits := fitsIsize_wrapsub p.rings[ch].2.readablePos t₀
  rw [fitsIsize_iff] at hfits
  obtain ⟨d, hd⟩ : ∃ d, d = wrapsub p.rings[ch].2.readablePos t₀ := ⟨_, rfl⟩
  rw [← hd] at hin hfits
  have ht₀ : t₀ = BitVec.ofInt 64 (start + total - d) := by
    rw [← Serial.ofInt_sub, ← hr, hd, ofInt_wrapsub]
    exact (sub_sub_cancel _ _).symm
  rw [ht₀, Serial.place_ofInt (by decide) ⟨by omega, by omega⟩, htotal]
  omega

end Inferno
