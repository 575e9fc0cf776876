import Inferno.Dither
import Inferno.TxIsolation

/-!
# What a packet of any width carries

A packet of 16 or 24 bits holds samples that were dithered and cut, one of 32 bits
the samples themselves (`SampleWidth.Near`). Each slot of every packet that `transmit`
sends decodes to what was read from its channel's ring, or to silence where it has no
ring (`TxPacket.Carries`), in terms of the streams that were pushed.
-/

namespace Inferno

open Interleave

/-! ## Cells -/

namespace SampleWidth

/-- What a sample may be decoded to: itself if nothing of it is cut, else less than one
and a half steps from it. -/
def Near (w : SampleWidth) (x z : Sample) : Prop :=
  if w.bytes < 4 then 2 * |z.toInt - x.toInt| < 3 * 2 ^ w.lowBits else z = x

theorem near_zero (w : SampleWidth) : w.Near 0 0 := by
  cases w <;> simp [Near, bytes]

theorem toSample_congr (w : SampleWidth) {b b' : Nat → Byte} (h : ∀ k < w.bytes, b k = b' k) :
    w.toSample b = w.toSample b' := by
  cases w with
  | s16 => rw [toSample, toSample, h 0 (by decide), h 1 (by decide)]
  | s24 => rw [toSample, toSample, h 0 (by decide), h 1 (by decide), h 2 (by decide)]
  | s32 =>
      rw [toSample, toSample, h 0 (by decide), h 1 (by decide), h 2 (by decide), h 3 (by decide)]

theorem toSample_zero (w : SampleWidth) : w.toSample (fun _ => 0) = 0 := by
  cases w <;> decide

end SampleWidth

/-- Sample `j` of slot `i` of a packet of `n` slots, as a receiver reads it. -/
def cellSample (w : SampleWidth) (buf : Nat → Byte) (n i j : Nat) : Sample :=
  w.toSample fun k => buf (9 + cellPos n w.bytes i j + k)

theorem cellSample_congr {w : SampleWidth} {buf buf' : Nat → Byte} {n i j : Nat}
    (h : ∀ k < w.bytes, buf (9 + cellPos n w.bytes i j + k) =
      buf' (9 + cellPos n w.bytes i j + k)) : cellSample w buf n i j = cellSample w buf' n i j :=
  w.toSample_congr h

section

variable {cfg : TxConfig} {flow : Flow} {w : SampleWidth}

/-- Where the cell is, in terms of the flow. -/
theorem laneByte_cell (hw : SampleWidth.ofBytes? flow.bytesPerSample = some w) {i p : Nat}
    (h : flow.LaneByte i p) : ∃ j k, k < w.bytes ∧
      p = 9 + cellPos flow.channelIndices.length w.bytes i j + k := by
  obtain ⟨w', hw', j, _, hlo, hhi⟩ := h
  obtain rfl := Option.some.inj (hw.symm.trans hw')
  have hbytes := SampleWidth.bytes_of_ofBytes? hw
  unfold Flow.stride at hlo hhi
  rw [← hbytes] at hlo hhi
  refine ⟨j, p - (9 + cellPos flow.channelIndices.length w.bytes i j), ?_, ?_⟩ <;>
    unfold cellPos <;> omega

/-- A byte that is written is in a slot with a ring. -/
theorem written_slot (hw : SampleWidth.ofBytes? flow.bytesPerSample = some w)
    {chs : List (Option Nat)} {i s j k : Nat} (hk : k < w.bytes)
    (hs : s < flow.channelIndices.length) (hchs : i + chs.length ≤ flow.channelIndices.length)
    (h : flow.Written cfg chs i (9 + cellPos flow.channelIndices.length w.bytes s j + k)) :
    ∃ l, ∃ hl : l < chs.length, s = i + l ∧ ¬NoRing cfg chs[l] := by
  induction chs generalizing i with
  | nil => exact h.elim
  | cons ch chs ih =>
      rw [List.length_cons] at hchs
      rcases h with ⟨hring, hlane⟩ | h
      · obtain ⟨j', k', hk', heq⟩ := laneByte_cell hw hlane
        obtain ⟨rfl, _, _⟩ := @cell_inj flow.channelIndices.length w.bytes s i j j' k k' hs
          (by omega) hk hk' (by omega)
        exact ⟨0, Nat.zero_lt_succ _, rfl, hring⟩
      · obtain ⟨l, hl, rfl, hring⟩ := ih (by omega) h
        exact ⟨l + 1, Nat.succ_lt_succ hl, by omega, hring⟩

/-- The cells of a slot decode to the samples it was given. -/
theorem writeChannel_near (hw : SampleWidth.ofBytes? flow.bytesPerSample = some w)
    (hfits : flow.packetLen ≤ MTU) {i j : Nat} (hi : i < flow.channelIndices.length)
    (b : TxBuffers) (hlen : (b.tmpSamples.take flow.fpp).length = flow.fpp) (hj : j < flow.fpp) :
    w.Near ((b.tmpSamples.take flow.fpp).getD j 0)
      (cellSample w (writeChannel flow i b).pbuff flow.channelIndices.length i j) := by
  have hbytes := SampleWidth.bytes_of_ofBytes? hw
  have hj' : j < (b.tmpSamples.take flow.fpp).length := by omega
  have hfit : ∀ j < (b.tmpSamples.take flow.fpp).length,
      9 + i * flow.bytesPerSample + j * flow.stride + w.bytes ≤ MTU := fun j hj =>
    lane_fits hfits hi hw (hlen ▸ hj)
  have hstride : w.bytes ≤ flow.stride := by
    rw [Flow.stride, ← hbytes]
    exact Nat.le_mul_of_pos_left _ (Nat.zero_lt_of_lt hi)
  have hcell : ∀ k, 9 + cellPos flow.channelIndices.length w.bytes i j + k =
      9 + i * flow.bytesPerSample + j * flow.stride + k := by
    intro k
    rw [cellPos, Flow.stride, hbytes]
    omega
  rw [List.getD_eq_getElem _ _ hj']
  unfold cellSample writeChannel
  simp only [hw, hcell]
  by_cases h32 : w = .s32
  · subst h32
    rw [if_pos rfl, SampleWidth.toSample_cell .s32 _ _ fun k hk =>
      writeSamples_at hstride hj' hfit hk, clearLow_s32]
    rfl
  · have hcut : w.bytes < 4 := by
      cases w with
      | s16 | s24 => decide
      | s32 => exact absurd rfl h32
    rw [if_neg h32, SampleWidth.toSample_cell w _ _ fun k hk =>
      writeSamples_dithered_at hcut hstride hj' hfit hk, SampleWidth.Near, if_pos hcut]
    exact decoded_error hcut _ (b.ditherRng.dither_bounds hcut _)

variable {good : Nat → Clock → Nat → Nat → Sample → Prop} {t₀ : Clock}

/-- Each slot with a ring decodes to good samples. -/
theorem writeChannels_near (hw : SampleWidth.ofBytes? flow.bytesPerSample = some w)
    (hfits : flow.packetLen ≤ MTU)
    (hans : ∀ c src, cfg.channelsSources[c]? = some src → Answers src (good c))
    {chs : List (Option Nat)} {i : Nat} {b b' : TxBuffers}
    (hi : i + chs.length ≤ flow.channelIndices.length)
    (h : writeChannels cfg flow t₀ chs i b = some b') :
    ∀ l (hl : l < chs.length), ¬NoRing cfg chs[l] → ∀ j < flow.fpp, ∃ c x, chs[l] = some c ∧
      good c t₀ flow.fpp j x ∧
      w.Near x (cellSample w b'.pbuff flow.channelIndices.length (i + l) j) := by
  induction chs generalizing i b with
  | nil => exact fun l hl => absurd hl (Nat.not_lt_zero l)
  | cons ch chs ih =>
      rw [List.length_cons] at hi
      intro l hl hring j hj
      rcases writeChannels_cons h with ⟨hno, h⟩ | ⟨c, src, tmp, rfl, hsrc, hread, h⟩
      · cases l with
        | zero => exact absurd hno hring
        | succ l =>
            rw [show i + (l + 1) = i + 1 + l by omega]
            exact ih (by omega) h l (Nat.lt_of_succ_lt_succ hl) hring j hj
      · cases l with
        | zero =>
            have hroom := readChannel_room hread
            obtain ⟨tmp', hread', hlen', hgood⟩ := hans c src hsrc t₀ flow.fpp _ hroom
            obtain rfl := Option.some.inj (hread'.symm.trans hread)
            have htake := length_readChannel hread
            -- the slots behind leave the cell alone
            have hkeep : cellSample w b'.pbuff flow.channelIndices.length i j =
                cellSample w (writeChannel flow i { b with tmpSamples := tmp' }).pbuff
                  flow.channelIndices.length i j :=
              cellSample_congr fun k hk => writeChannels_other h fun hwritten => by
                obtain ⟨l, _, heq, _⟩ := written_slot hw hk (by omega) (by omega) hwritten
                omega
            have hnear := writeChannel_near hw hfits
              (show i < flow.channelIndices.length by omega) { b with tmpSamples := tmp' } htake hj
            have hjlt : j < tmp'.length := by omega
            dsimp only at hnear
            rw [List.getD_eq_getElem _ _ (by omega), List.getElem_take] at hnear
            exact ⟨c, tmp'[j], rfl, hgood j hjlt hj, by rw [Nat.add_zero, hkeep]; exact hnear⟩
        | succ l =>
            rw [show i + (l + 1) = i + 1 + l by omega]
            exact ih (by omega) h l (Nat.lt_of_succ_lt_succ hl) hring j hj

/-! ## Packets -/

/-- The nine bytes of the header stay as they are. -/
theorem writeChannels_header {chs : List (Option Nat)} {i : Nat} {b b' : TxBuffers}
    (h : writeChannels cfg flow t₀ chs i b = some b') {p : Nat} (hp : p < 9) :
    b'.pbuff p = b.pbuff p := by
  refine writeChannels_other h fun hwritten => ?_
  clear h
  induction chs generalizing i with
  | nil => exact hwritten
  | cons ch chs ih =>
      rcases hwritten with ⟨_, _, _, _, _, hlo, _⟩ | hwritten
      · omega
      · exact ih hwritten

/-- A packet that was built decodes to good samples, or to silence in slots without a
ring, and its header says its time. -/
theorem Built.samples (hans : ∀ c src, cfg.channelsSources[c]? = some src → Answers src (good c))
    {p : TxPacket} (h : Built cfg p) :
    ((p.flow.nextTs + cfg.clockOffsetSamples).toNat / cfg.sampleRate.toNat < 2 ^ 32 →
      headerTimestamp cfg.sampleRate p.buf = p.flow.nextTs + cfg.clockOffsetSamples) ∧
    ∀ w, SampleWidth.ofBytes? p.flow.bytesPerSample = some w →
      ∀ i (hi : i < p.flow.channelIndices.length), ∀ j < p.flow.fpp, ∃ x,
        w.Near x (cellSample w p.buf p.flow.channelIndices.length i j) ∧
        (x = 0 ∨ ∃ c, p.flow.channelIndices[i] = some c ∧ c < cfg.channelsSources.length ∧
          good c (p.flow.nextTs + cfg.timestampShift) p.flow.fpp j x) := by
  obtain ⟨_, hfits, b, b', hclean, hbuild, hbuf⟩ := h
  unfold buildPacket at hbuild
  obtain ⟨hdr, hhdr, hchannels⟩ := Option.bind_eq_some_iff.mp hbuild
  rw [hbuf]
  refine ⟨fun hsec => ?_, fun w hw i hi j hj => ?_⟩
  · rw [headerTimestamp_congr fun p hp => writeChannels_header hchannels hp]
    exact headerTimestamp_writeHeader hhdr hsec
  · by_cases hring : NoRing cfg p.flow.channelIndices[i]
    · refine ⟨0, ?_, Or.inl rfl⟩
      have hzero : cellSample w b'.pbuff p.flow.channelIndices.length i j =
          cellSample w (fun _ => 0) p.flow.channelIndices.length i j := by
        refine cellSample_congr fun k hk => ?_
        have hwritten : ¬p.flow.Written cfg p.flow.channelIndices 0
            (9 + cellPos p.flow.channelIndices.length w.bytes i j + k) := by
          intro hwritten
          obtain ⟨l, hl, heq, hno⟩ := written_slot hw hk hi (by omega) hwritten
          rw [Nat.zero_add] at heq
          subst heq
          exact hno hring
        have hcell : cellPos p.flow.channelIndices.length w.bytes i j + w.bytes ≤
            p.flow.channelIndices.length * w.bytes * p.flow.fpp :=
          (cell_fits_iff hi w.bytes_pos).mpr hj
        have hbytes := SampleWidth.bytes_of_ofBytes? hw
        rw [writeChannels_other hchannels hwritten]
        dsimp only
        rw [writeHeader_other hhdr (by omega)]
        refine hclean _ (by omega) ?_ hwritten
        rw [Flow.packetLen, Flow.stride, ← hbytes]
        omega
      rw [hzero, cellSample, w.toSample_zero]
      exact w.near_zero
    · have hall : 0 + p.flow.channelIndices.length ≤ p.flow.channelIndices.length := by omega
      obtain ⟨c, x, hc, hgood, hnear⟩ := writeChannels_near hw hfits hans hall hchannels i hi
        hring j hj
      rw [Nat.zero_add] at hnear
      refine ⟨x, hnear, Or.inr ⟨c, hc, ?_, hgood⟩⟩
      rw [hc, noRing_iff] at hring
      exact Nat.not_le.mp fun hle => hring (List.getElem?_eq_none hle)

theorem transmitFlow_built {env : Outside} {now : Clock} {pe : Bool} {fuel : Nat}
    {st st' : TxRun} {flow' : Flow} {fin : LoopEnd}
    (h : transmitFlow cfg env now pe fuel flow st = some (flow', st', fin))
    (hsent : ∀ p ∈ st.sent, Built cfg p) : ∀ p ∈ st'.sent, Built cfg p := by
  rw [transmitFlow] at h
  split at h
  · cases h
    exact hsent
  · obtain ⟨flow₁, _, h⟩ := Option.bind_eq_some_iff.mp h
    obtain ⟨b, hclear, h⟩ := Option.bind_eq_some_iff.mp h
    obtain ⟨⟨flow₂, st₂, fin₂⟩, hloop, h⟩ := Option.bind_eq_some_iff.mp h
    obtain ⟨hfits, hclean⟩ := clearPayload_clean hclear
    have hclean' : flow₁.Clean cfg { st with buffers := b }.buffers.pbuff := hclean
    obtain ⟨ps, hps, hbuilt⟩ := sendLoop_built hfits hclean' hloop
    have hall : ∀ p ∈ st₂.sent, Built cfg p := by
      intro p hp
      rw [hps] at hp
      exact (List.mem_append.mp hp).elim (hsent p) (hbuilt p)
    dsimp only at h
    split at h
    · cases h
      rw [processKeepalive_sent]
      exact hall
    · cases h
      exact hall

/-- Every packet that `transmit` sends was built in a clean buffer. -/
theorem transmit_built {env : Outside} {now : Clock} {pe : Bool} {fuel : Nat}
    {flows flows' : List (Option Flow)} {flags : Flag → Bool} {rng : DitherRng} {st : TxRun}
    {fin : LoopEnd} (h : transmit cfg env now pe fuel flows flags rng = some (flows', st, fin)) :
    ∀ p ∈ st.sent, Built cfg p :=
  transmitFlows_rel
    (R := fun st st' => (∀ p ∈ st.sent, Built cfg p) → ∀ p ∈ st'.sent, Built cfg p)
    (fun _ hsent => hsent) (fun h₁ h₂ hsent => h₂ (h₁ hsent))
    (fun _ _ _ _ _ _ hturn => transmitFlow_built hturn) h fun _ hp => absurd hp List.not_mem_nil

end

/-! ## In terms of what was pushed -/

/-- What a packet carries of the streams that began at `start`: each slot decodes to
what was pushed to its channel for its time, or to silence. -/
structure TxPacket.Carries (cfg : TxConfig) (start : Int) (streams : Nat → List Sample)
    (p : TxPacket) : Prop where
  len : p.len = p.flow.packetLen
  header : (p.flow.nextTs + cfg.clockOffsetSamples).toNat / cfg.sampleRate.toNat < 2 ^ 32 →
    headerTimestamp cfg.sampleRate p.buf = p.flow.nextTs + cfg.clockOffsetSamples
  samples : ∀ w, SampleWidth.ofBytes? p.flow.bytesPerSample = some w →
    ∀ i (hi : i < p.flow.channelIndices.length), ∀ j < p.flow.fpp, ∃ x,
      w.Near x (cellSample w p.buf p.flow.channelIndices.length i j) ∧
      (x = 0 ∨ ∃ c T, p.flow.channelIndices[i] = some c ∧
        BitVec.ofInt 64 T = p.flow.nextTs + cfg.timestampShift + BitVec.ofNat 64 j ∧
        x = pushedAt start (streams c) T)

/-- What was pushed stays pushed. -/
theorem pushedAt_or_zero (start : Int) (stream more : List Sample) (t : Int) :
    pushedAt start stream t = 0 ∨ pushedAt start stream t = pushedAt start (stream ++ more) t := by
  rw [pushedAt_append]
  split
  · next hin =>
      left
      rw [pushedAt, if_pos (by omega), List.getD_eq_default _ _ (by omega)]
  · exact Or.inr rfl

theorem TxPacket.Carries.mono {cfg : TxConfig} {start : Int} {streams more : Nat → List Sample}
    {p : TxPacket} (h : p.Carries cfg start streams) :
    p.Carries cfg start fun ch => streams ch ++ more ch where
  len := h.len
  header := h.header
  samples w hw i hi j hj := by
    obtain ⟨x, hnear, hx⟩ := h.samples w hw i hi j hj
    refine ⟨x, hnear, hx.elim Or.inl ?_⟩
    rintro ⟨c, T, hc, hT, rfl⟩
    exact (pushedAt_or_zero start (streams c) (more c) T).imp id fun heq => ⟨c, T, hc, hT, heq⟩

/-- Every packet of a step carries what was pushed before. -/
theorem TxSystem.step_carries {cfg : TxConfig} {start : Int} {channels total : Nat}
    {streams : Nat → List Sample} {s s' : TxSystem} {a : TxAction} {sent : List TxPacket}
    (h : s.pusher.After start channels total streams) (hstep : s.step cfg a = some (s', sent)) :
    ∀ p ∈ sent, p.Carries cfg start streams := by
  intro p hp
  cases a with
  | push channelData =>
      obtain ⟨pusher, _, hstep⟩ := Option.bind_eq_some_iff.mp hstep
      cases hstep
      cases hp
  | command c now =>
      obtain ⟨⟨flows, flags⟩, _, hstep⟩ := Option.bind_eq_some_iff.mp hstep
      cases hstep
      cases hp
  | transmit env now pe fuel =>
      obtain ⟨⟨flows, st, fin⟩, htransmit, hstep⟩ := Option.bind_eq_some_iff.mp hstep
      cases hstep
      have hbuilt := transmit_built htransmit p hp
      obtain ⟨hheader, hsamples⟩ := hbuilt.samples (h.answers cfg)
      refine ⟨hbuilt.1, hheader, fun w hw i hi j hj => ?_⟩
      obtain ⟨x, hnear, hx⟩ := hsamples w hw i hi j hj
      refine ⟨x, hnear, hx.elim Or.inl ?_⟩
      rintro ⟨c, hc, hlt, hgood⟩
      have hring : s.pusher.rings[c]? = some (s.pusher.rings.get ⟨c, by
          simpa [TxConfig.over] using hlt⟩) := List.getElem?_eq_getElem _
      rcases (hgood _ hring).1 with hpushed | hzero
      · refine Or.inr ⟨c, _, hc, ?_, hpushed⟩
        rw [← Serial.ofInt_add_ofNat, Serial.ofInt_place]
        rfl
      · exact Or.inl hzero

end Inferno
