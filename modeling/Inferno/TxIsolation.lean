import Inferno.RingExec
import Inferno.TxSchedule
import Inferno.TxWorld

/-!
# One flow's packets and the others

The packet buffer and the sample buffer of `transmit` are shared by all flows,
and keepalives are received into the first. Here two calls are compared that
agree on one flow and its rings, whatever else they have: other flows in other
slots, with other rings, other answers of the network. What the flow sends is
the same (`flows_isolated`).

The bytes of a packet are those of the header, those of its lanes, which are
written anew each time, and those of lanes without a ring, which are zero since
the buffer was cleared for the flow (`Flow.Clean`).
-/

namespace Inferno

open Interleave

/-! ## Draws -/

/-- Two generators that are about to produce the same words. -/
def SameDraws (r₁ r₂ : DitherRng) : Prop :=
  ∀ k, r₁.words (r₁.used + k) = r₂.words (r₂.used + k)

theorem SameDraws.gen {r₁ r₂ : DitherRng} (h : SameDraws r₁ r₂) (bits : Nat) :
    (r₁.gen bits).1 = (r₂.gen bits).1 ∧ SameDraws (r₁.gen bits).2 (r₂.gen bits).2 := by
  refine ⟨?_, fun k => ?_⟩
  · exact congrArg (fun word => BitVec.toNat word % 2 ^ bits) (h 0)
  · have hnext := h (k + 1)
    rw [Nat.add_comm k 1, ← Nat.add_assoc, ← Nat.add_assoc] at hnext
    exact hnext

theorem outSample_same {w : SampleWidth} (x : Sample) {r₁ r₂ : Option DitherRng}
    (h : Option.Rel SameDraws r₁ r₂) :
    (outSample w x r₁).1 = (outSample w x r₂).1 ∧
      Option.Rel SameDraws (outSample w x r₁).2 (outSample w x r₂).2 := by
  cases h with
  | none => exact ⟨rfl, .none⟩
  | @some r₁ r₂ h =>
      simp only [outSample]
      split
      · obtain ⟨heq₁, h₁⟩ := h.gen w.ditherBits
        obtain ⟨heq₂, h₂⟩ := h₁.gen w.ditherBits
        exact ⟨by rw [heq₁, heq₂], .some h₂⟩
      · exact ⟨rfl, .some h⟩

/-! ## Bytes -/

theorem putBytes_same {dst₁ dst₂ : Nat → Byte} {pos p : Nat} {bytes : List Byte}
    (h : dst₁ p = dst₂ p ∨ pos ≤ p ∧ p < pos + bytes.length) :
    putBytes dst₁ pos bytes p = putBytes dst₂ pos bytes p := by
  by_cases hin : pos ≤ p ∧ p < pos + bytes.length
  · obtain ⟨k, rfl⟩ := Nat.exists_eq_add_of_le hin.1
    rw [putBytes_at (by omega), putBytes_at (by omega)]
  · have heq : dst₁ p = dst₂ p := h.resolve_right hin
    rw [putBytes_other (by omega), putBytes_other (by omega), heq]

/-- The byte belongs to one of `m` samples that begin at `pos`. -/
def InLane (w : SampleWidth) (stride m pos p : Nat) : Prop :=
  ∃ j < m, pos + j * stride ≤ p ∧ p < pos + j * stride + w.bytes

/-- Samples come out the same wherever they are written, and change no other
byte. -/
theorem writeSamples_same {w : SampleWidth} {dstLen stride : Nat} {xs : List Sample} {pos : Nat}
    {dst₁ dst₂ : Nat → Byte} {r₁ r₂ : Option DitherRng} (hdraws : Option.Rel SameDraws r₁ r₂)
    (hfit : ∀ j < xs.length, pos + j * stride + w.bytes ≤ dstLen) :
    Option.Rel SameDraws (writeSamples w dstLen stride xs pos dst₁ r₁).2
        (writeSamples w dstLen stride xs pos dst₂ r₂).2 ∧
      ∀ p, dst₁ p = dst₂ p ∨ InLane w stride xs.length pos p →
        (writeSamples w dstLen stride xs pos dst₁ r₁).1 p =
          (writeSamples w dstLen stride xs pos dst₂ r₂).1 p := by
  induction xs generalizing pos dst₁ dst₂ r₁ r₂ with
  | nil =>
      refine ⟨hdraws, fun p hp => hp.resolve_right ?_⟩
      rintro ⟨j, hj, _⟩
      exact Nat.not_lt_zero j hj
  | cons x xs ih =>
      have h0 := hfit 0 (Nat.zero_lt_succ _)
      rw [Nat.zero_mul, Nat.add_zero] at h0
      obtain ⟨hout, hdraws'⟩ := @outSample_same w x r₁ r₂ hdraws
      simp only [writeSamples, if_pos h0]
      rw [hout]
      obtain ⟨hdraws'', hrest⟩ := @ih (pos + stride) (putBytes dst₁ pos (w.cell (outSample w x r₂).1))
        (putBytes dst₂ pos (w.cell (outSample w x r₂).1)) _ _ hdraws' fun j hj => by
          have hj1 := hfit (j + 1) (Nat.succ_lt_succ hj)
          rw [Nat.succ_mul] at hj1
          omega
      refine ⟨hdraws'', fun p hp => hrest p ?_⟩
      rcases hp with heq | ⟨j, hj, hlo, hhi⟩
      · exact Or.inl (putBytes_same (Or.inl heq))
      · cases j with
        | zero =>
            rw [Nat.zero_mul, Nat.add_zero] at hlo hhi
            exact Or.inl (putBytes_same (Or.inr ⟨hlo, by rw [SampleWidth.cell_length]; exact hhi⟩))
        | succ j =>
            rw [Nat.succ_mul] at hlo hhi
            exact Or.inr ⟨j, Nat.lt_of_succ_lt_succ hj, by omega, by omega⟩

/-! ## Samples -/

/-- A read of an owned ring assigns what it reports, and reports the same
whatever it reads into. -/
theorem readAt_own {sh : RingShared} (hown : sh.unconditionalRead = false) (m : RingMem Sample)
    (start : Usize) {out₁ out₂ : List Sample} (hlen : out₁.length = out₂.length) :
    ∃ o₁ o₂ r, (RBOutput.readAt sh start out₁).exec ringMem m = some ((o₁, r), m) ∧
      (RBOutput.readAt sh start out₂).exec ringMem m = some ((o₂, r), m) ∧
      ∀ j, r.Useful j → o₁[j]? = o₂[j]? := by
  rw [RBOutput.readAt_exec, RBOutput.readAt_exec, hown, ← hlen]
  simp only [Bool.false_eq_true, if_false]
  cases hcopy : RBOutput.copyLen sh (wrapsub m.readablePos start) out₁.length with
  | none => exact ⟨_, _, _, rfl, rfl, fun j hj => absurd hj.2 (Nat.not_lt_zero j)⟩
  | some n =>
      obtain ⟨hn, hlap⟩ := RBOutput.copyLen_bounds hcopy
      cases hvalid : m.valid with
      | false =>
          exact ⟨_, _, _, RBOutput.copyOut_invalid sh hvalid start out₁ n,
            RBOutput.copyOut_invalid sh hvalid start out₂ n,
            fun j hj => absurd hj.2 (Nat.not_lt_zero j)⟩
      | true =>
          refine ⟨_, _, _, RBOutput.copyOut_exec sh hvalid start hn,
            RBOutput.copyOut_exec sh hvalid start (hlen ▸ hn), fun j hj => ?_⟩
          rw [hown] at hj
          simp only [Bool.false_eq_true, if_false] at hj
          obtain ⟨hjn, _⟩ := RBOutput.usefulOf_useful.mp hj
          have hwalk : (forInRing sh.itemsSize start (start + BitVec.ofNat 64 n)).length = n := by
            rw [sh.forInRing_short hlap, sh.length_walk]
          rw [RBOutput.copied_getElem? sh m (by omega), RBOutput.copied_getElem? sh m (by omega),
            if_pos (by omega), if_pos (by omega)]

theorem readChannel_room {src : TxSource} {startTs : Usize} {fpp : Nat} {tmp tmp' : List Sample}
    (h : readChannel src startTs fpp tmp = some tmp') : fpp ≤ tmp.length := by
  unfold readChannel at h
  split at h
  · assumption
  · cases h

/-- The samples of a channel, whatever the sample buffer held. -/
theorem readChannel_own {src : TxSource} (hown : src.shared.unconditionalRead = false)
    {startTs : Usize} {fpp : Nat} {tmp₁ tmp₂ tmp₁' tmp₂' : List Sample}
    (h₁ : readChannel src startTs fpp tmp₁ = some tmp₁')
    (h₂ : readChannel src startTs fpp tmp₂ = some tmp₂') : tmp₁'.take fpp = tmp₂'.take fpp := by
  have hlen : ∀ {tmp : List Sample}, fpp ≤ tmp.length → (tmp.take fpp).length = fpp := by
    intro tmp hle
    rw [List.length_take, Nat.min_eq_left hle]
  have hr₁ := readChannel_room h₁
  have hr₂ := readChannel_room h₂
  obtain ⟨o₁, o₂, r, hexec₁, hexec₂, hsame⟩ := readAt_own hown src.mem startTs
    ((hlen hr₁).trans (hlen hr₂).symm)
  obtain ⟨_, _, hexec, hlen₁, hstart, hend⟩ :=
    RBOutput.readAt_succeeds src.shared src.mem startTs (tmp₁.take fpp)
  obtain ⟨⟨rfl, rfl⟩, _⟩ : (_ ∧ _) ∧ True := by simpa using hexec₁.symm.trans hexec
  obtain ⟨_, _, hexec', hlen₂, _, _⟩ :=
    RBOutput.readAt_succeeds src.shared src.mem startTs (tmp₂.take fpp)
  obtain ⟨⟨rfl, _⟩, _⟩ : (_ ∧ _) ∧ True := by simpa using hexec₂.symm.trans hexec'
  rw [hlen hr₁] at hlen₁ hstart hend
  rw [hlen hr₂] at hlen₂
  obtain ⟨_, hread₁, hkeep₁, hitem₁⟩ := readChannel_spec hr₁ hexec₁ hlen₁ hstart hend
  obtain ⟨_, hread₂, hkeep₂, hitem₂⟩ := readChannel_spec hr₂ hexec₂ hlen₂ hstart hend
  obtain rfl := Option.some.inj (hread₁.symm.trans h₁)
  obtain rfl := Option.some.inj (hread₂.symm.trans h₂)
  refine List.ext_getElem (by rw [hlen (by omega), hlen (by omega)]) fun j hj hj' => ?_
  rw [hlen (by omega)] at hj
  rw [List.getElem_take, List.getElem_take]
  obtain ⟨huse₁, hzero₁⟩ := hitem₁ j (by omega) hj
  obtain ⟨huse₂, hzero₂⟩ := hitem₂ j (by omega) hj
  by_cases hu : r.Useful j
  · have heq := hsame j hu
    rw [huse₁ hu, huse₂ hu] at heq
    exact Option.some.inj heq
  · rw [hzero₁ hu, hzero₂ hu]

/-! ## Packets -/

namespace Flow

/-- The width is one that is dithered. -/
def Dithered (flow : Flow) : Prop := flow.bytesPerSample = 2 ∨ flow.bytesPerSample = 3

/-- The byte is one of slot `i`. -/
def LaneByte (flow : Flow) (i p : Nat) : Prop :=
  ∃ w, SampleWidth.ofBytes? flow.bytesPerSample = some w ∧
    InLane w flow.stride flow.fpp (9 + i * flow.bytesPerSample) p

/-- The byte is one of a slot with a ring, of the slots `chs` from `i` on. -/
def Written (cfg : TxConfig) (flow : Flow) : List (Option Nat) → Nat → Nat → Prop
  | [], _, _ => False
  | ch :: chs, i, p => (¬NoRing cfg ch ∧ flow.LaneByte i p) ∨ Written cfg flow chs (i + 1) p

/-- The payload is zero where nothing is written. -/
def Clean (cfg : TxConfig) (flow : Flow) (pbuff : Nat → Byte) : Prop :=
  ∀ p, 9 ≤ p → p < flow.packetLen → ¬flow.Written cfg flow.channelIndices 0 p → pbuff p = 0

/-- The two generators draw the same, where they are used. -/
def Draws (flow : Flow) (r₁ r₂ : DitherRng) : Prop := flow.Dithered → SameDraws r₁ r₂

end Flow

section

variable {cfg cfg₁ cfg₂ : TxConfig} {flow : Flow}

theorem lane_fits (hfits : flow.packetLen ≤ MTU) {i : Nat} (hi : i < flow.channelIndices.length)
    {w : SampleWidth} (hw : SampleWidth.ofBytes? flow.bytesPerSample = some w) {j : Nat}
    (hj : j < flow.fpp) : 9 + i * flow.bytesPerSample + j * flow.stride + w.bytes ≤ MTU := by
  have hbytes := SampleWidth.bytes_of_ofBytes? hw
  have hcell := (cell_fits_iff (n := flow.channelIndices.length) (m := flow.fpp) hi w.bytes_pos).mpr
    hj
  unfold cellPos at hcell
  unfold Flow.packetLen Flow.stride at hfits
  rw [Flow.stride]
  rw [hbytes] at hcell ⊢
  omega

/-- A slot is written the same into any two buffers. -/
theorem writeChannel_same (hfits : flow.packetLen ≤ MTU) {i : Nat}
    (hi : i < flow.channelIndices.length) {b₁ b₂ : TxBuffers}
    (htmp : b₁.tmpSamples.take flow.fpp = b₂.tmpSamples.take flow.fpp)
    (hlen : (b₂.tmpSamples.take flow.fpp).length = flow.fpp)
    (hdraws : flow.Draws b₁.ditherRng b₂.ditherRng) :
    flow.Draws (writeChannel flow i b₁).ditherRng (writeChannel flow i b₂).ditherRng ∧
      ∀ p, b₁.pbuff p = b₂.pbuff p ∨ flow.LaneByte i p →
        (writeChannel flow i b₁).pbuff p = (writeChannel flow i b₂).pbuff p := by
  unfold writeChannel
  cases hw : SampleWidth.ofBytes? flow.bytesPerSample with
  | none =>
      refine ⟨hdraws, fun p hp => hp.resolve_right ?_⟩
      rintro ⟨w, hw', _⟩
      cases hw.symm.trans hw'
  | some w =>
      have hrel : Option.Rel SameDraws (if w = .s32 then none else some b₁.ditherRng)
          (if w = .s32 then none else some b₂.ditherRng) := by
        split
        · exact .none
        · next h32 =>
            refine .some (hdraws ?_)
            have hbytes := SampleWidth.bytes_of_ofBytes? hw
            cases w with
            | s16 => exact Or.inl hbytes.symm
            | s24 => exact Or.inr hbytes.symm
            | s32 => exact absurd rfl h32
      dsimp only
      rw [htmp]
      obtain ⟨hafter, hsame⟩ := @writeSamples_same w MTU flow.stride
        (b₂.tmpSamples.take flow.fpp) (9 + i * flow.bytesPerSample) b₁.pbuff b₂.pbuff _ _ hrel
        fun j hj => lane_fits hfits hi hw (hlen ▸ hj)
      refine ⟨fun hdith => ?_, fun p hp => hsame p (hp.imp id ?_)⟩
      · revert hafter
        generalize (writeSamples w MTU flow.stride (b₂.tmpSamples.take flow.fpp)
          (9 + i * flow.bytesPerSample) b₁.pbuff _).2 = o₁
        generalize (writeSamples w MTU flow.stride (b₂.tmpSamples.take flow.fpp)
          (9 + i * flow.bytesPerSample) b₂.pbuff _).2 = o₂
        rintro (h | _)
        · exact h
        · exact hdraws hdith
      · rintro ⟨w', hw', hin⟩
        obtain rfl := Option.some.inj (hw.symm.trans hw')
        rw [hlen]
        exact hin

/-- A slot changes its own bytes. -/
theorem writeChannel_other {i p : Nat} {b : TxBuffers} (hp : ¬flow.LaneByte i p)
    (hlen : (b.tmpSamples.take flow.fpp).length = flow.fpp) :
    (writeChannel flow i b).pbuff p = b.pbuff p := by
  unfold writeChannel
  split
  · rfl
  · next w hw =>
      refine writeSamples_other fun j hj => ?_
      by_contra hin
      exact hp ⟨w, hw, j, hlen ▸ hj, by omega, by omega⟩

/-- The two configurations have the same rings for `chs`, all of them owned. -/
def SameRings (cfg₁ cfg₂ : TxConfig) (chs : List (Option Nat)) : Prop :=
  ∀ c, some c ∈ chs → cfg₁.channelsSources[c]? = cfg₂.channelsSources[c]? ∧
    ∀ src ∈ cfg₁.channelsSources[c]?, src.shared.unconditionalRead = false

theorem noRing_iff {c : Nat} : NoRing cfg (some c) ↔ cfg.channelsSources[c]? = none := by
  rw [List.getElem?_eq_none_iff]
  exact ⟨fun h => h c rfl, fun h c' hc => Option.some.inj hc ▸ h⟩

theorem SameRings.noRing {ch : Option Nat} {chs : List (Option Nat)}
    (h : SameRings cfg₁ cfg₂ (ch :: chs)) : NoRing cfg₁ ch ↔ NoRing cfg₂ ch := by
  cases ch with
  | none => exact ⟨fun _ c hc => (by cases hc), fun _ c hc => (by cases hc)⟩
  | some c => rw [noRing_iff, noRing_iff, (h c List.mem_cons_self).1]

theorem SameRings.tail {ch : Option Nat} {chs : List (Option Nat)}
    (h : SameRings cfg₁ cfg₂ (ch :: chs)) : SameRings cfg₁ cfg₂ chs :=
  fun c hc => h c (List.mem_cons_of_mem _ hc)

theorem SameRings.symm {chs : List (Option Nat)} (h : SameRings cfg₁ cfg₂ chs) :
    SameRings cfg₂ cfg₁ chs := by
  intro c hc
  obtain ⟨hring, hown⟩ := h c hc
  exact ⟨hring.symm, hring ▸ hown⟩

theorem SameRings.written {chs : List (Option Nat)} (h : SameRings cfg₁ cfg₂ chs) (i p : Nat) :
    flow.Written cfg₁ chs i p ↔ flow.Written cfg₂ chs i p := by
  induction chs generalizing i with
  | nil => exact Iff.rfl
  | cons ch chs ih => rw [Flow.Written, Flow.Written, h.noRing, ih h.tail]

/-- The first slot is without a ring, or it is read and written. -/
theorem writeChannels_cons {t : Usize} {ch : Option Nat} {chs : List (Option Nat)} {i : Nat}
    {b b' : TxBuffers} (h : writeChannels cfg flow t (ch :: chs) i b = some b') :
    (NoRing cfg ch ∧ writeChannels cfg flow t chs (i + 1) b = some b') ∨
      ∃ c src tmp, ch = some c ∧ cfg.channelsSources[c]? = some src ∧
        readChannel src t flow.fpp b.tmpSamples = some tmp ∧
        writeChannels cfg flow t chs (i + 1)
          (writeChannel flow i { b with tmpSamples := tmp }) = some b' := by
  cases ch with
  | none => exact Or.inl ⟨fun c hc => (by cases hc), h⟩
  | some c =>
      rw [writeChannels] at h
      split at h
      · next hnone => exact Or.inl ⟨noRing_iff.mpr hnone, h⟩
      · next src hsrc =>
          obtain ⟨tmp, hread, h⟩ := Option.bind_eq_some_iff.mp h
          exact Or.inr ⟨c, src, tmp, rfl, hsrc, hread, h⟩

theorem length_readChannel {src : TxSource} {t : Usize} {fpp : Nat} {tmp tmp' : List Sample}
    (h : readChannel src t fpp tmp = some tmp') : (tmp'.take fpp).length = fpp := by
  have hroom := readChannel_room h
  obtain ⟨tmp'', hread, hlen⟩ := readChannel_some src t hroom
  obtain rfl := Option.some.inj (hread.symm.trans h)
  rw [List.length_take, Nat.min_eq_left (by omega)]

/-- What is no byte of a slot with a ring is left as it was. -/
theorem writeChannels_other {t : Usize} {chs : List (Option Nat)} {i p : Nat} {b b' : TxBuffers}
    (h : writeChannels cfg flow t chs i b = some b') (hp : ¬flow.Written cfg chs i p) :
    b'.pbuff p = b.pbuff p := by
  induction chs generalizing i b with
  | nil =>
      cases h
      rfl
  | cons ch chs ih =>
      rw [Flow.Written, not_or] at hp
      rcases writeChannels_cons h with ⟨_, h⟩ | ⟨c, src, tmp, rfl, hsrc, hread, h⟩
      · exact ih h hp.2
      · have hring : ¬NoRing cfg (some c) := by
          rw [noRing_iff, hsrc]
          exact Option.some_ne_none src
        rw [ih h hp.2]
        exact writeChannel_other (fun hlane => hp.1 ⟨hring, hlane⟩) (length_readChannel hread)

/-- The slots with a ring are written the same into any two buffers. -/
theorem writeChannels_same (hfits : flow.packetLen ≤ MTU) {t : Usize} {chs : List (Option Nat)}
    {i : Nat} (hi : i + chs.length ≤ flow.channelIndices.length)
    (hrings : SameRings cfg₁ cfg₂ chs) {b₁ b₂ b₁' b₂' : TxBuffers}
    (hdraws : flow.Draws b₁.ditherRng b₂.ditherRng)
    (h₁ : writeChannels cfg₁ flow t chs i b₁ = some b₁')
    (h₂ : writeChannels cfg₂ flow t chs i b₂ = some b₂') :
    flow.Draws b₁'.ditherRng b₂'.ditherRng ∧
      ∀ p, b₁.pbuff p = b₂.pbuff p ∨ flow.Written cfg₁ chs i p → b₁'.pbuff p = b₂'.pbuff p := by
  induction chs generalizing i b₁ b₂ with
  | nil =>
      cases h₁
      cases h₂
      exact ⟨hdraws, fun p hp => hp.resolve_right id⟩
  | cons ch chs ih =>
      rw [List.length_cons] at hi
      have hnext : i + 1 + chs.length ≤ flow.channelIndices.length := by omega
      rcases writeChannels_cons h₁ with ⟨hno₁, h₁⟩ | ⟨c, src, tmp₁, rfl, hsrc, hread₁, h₁⟩
      · rcases writeChannels_cons h₂ with ⟨_, h₂⟩ | ⟨c, src, tmp₂, rfl, hsrc, _⟩
        · obtain ⟨hafter, hsame⟩ := ih hnext hrings.tail hdraws h₁ h₂
          exact ⟨hafter, fun p hp => hsame p (hp.imp id fun hw => hw.resolve_left fun h => h.1 hno₁)⟩
        · have hno₂ := hrings.noRing.mp hno₁
          rw [noRing_iff, hsrc] at hno₂
          cases hno₂
      · obtain ⟨hring, hown⟩ := hrings c List.mem_cons_self
        have hown := hown src hsrc
        rw [hsrc] at hring
        rcases writeChannels_cons h₂ with ⟨hno₂, _⟩ | ⟨_, src₂, tmp₂, hc, hsrc₂, hread₂, h₂⟩
        · rw [noRing_iff, ← hring] at hno₂
          cases hno₂
        · cases hc
          rw [hsrc₂] at hring
          cases hring
          obtain ⟨hdraws', hlane⟩ := @writeChannel_same flow hfits i (by omega)
            { b₁ with tmpSamples := tmp₁ } { b₂ with tmpSamples := tmp₂ }
            (readChannel_own hown hread₁ hread₂) (length_readChannel hread₂) hdraws
          obtain ⟨hafter, hsame⟩ := ih hnext hrings.tail hdraws' h₁ h₂
          refine ⟨hafter, fun p hp => hsame p ?_⟩
          rcases hp with heq | ⟨_, hin⟩ | hlater
          · exact Or.inl (hlane p (Or.inl heq))
          · exact Or.inl (hlane p (Or.inr hin))
          · exact Or.inr hlater

/-- The header does not depend on what the buffer held. -/
theorem writeHeader_same {sampleRate : BitVec 32} {ts : Clock}
    {pbuff₁ pbuff₂ pbuff₁' pbuff₂' : Nat → Byte}
    (h₁ : writeHeader sampleRate ts pbuff₁ = some pbuff₁')
    (h₂ : writeHeader sampleRate ts pbuff₂ = some pbuff₂') {p : Nat} (hp : p < 9) :
    pbuff₁' p = pbuff₂' p := by
  unfold writeHeader at h₁ h₂
  split at h₁
  · cases h₁
  · next hrate =>
      rw [if_neg hrate] at h₂
      cases h₁
      cases h₂
      by_cases h5 : 5 ≤ p
      · exact putBytes_same (Or.inr ⟨h5, hp⟩)
      · refine putBytes_same (Or.inl ?_)
        by_cases h1 : 1 ≤ p
        · exact putBytes_same (Or.inr ⟨h1, by show p < 1 + 4; omega⟩)
        · exact putBytes_same (Or.inl (putBytes_same (Or.inr ⟨Nat.zero_le p, by
            show p < 0 + 1
            omega⟩)))

/-- Two clean buffers give the same packet. -/
theorem buildPacket_same (hfits : flow.packetLen ≤ MTU)
    (hconfig : cfg₂ = { cfg₁ with channelsSources := cfg₂.channelsSources })
    (hrings : SameRings cfg₁ cfg₂ flow.channelIndices) {b₁ b₂ b₁' b₂' : TxBuffers}
    (hdraws : flow.Draws b₁.ditherRng b₂.ditherRng) (hclean₁ : flow.Clean cfg₁ b₁.pbuff)
    (hclean₂ : flow.Clean cfg₂ b₂.pbuff) (h₁ : buildPacket cfg₁ flow b₁ = some b₁')
    (h₂ : buildPacket cfg₂ flow b₂ = some b₂') :
    flow.Draws b₁'.ditherRng b₂'.ditherRng ∧
      ∀ p < flow.packetLen, b₁'.pbuff p = b₂'.pbuff p := by
  have hrate : cfg₂.sampleRate = cfg₁.sampleRate := by rw [hconfig]
  have hoffset : cfg₂.clockOffsetSamples = cfg₁.clockOffsetSamples := by rw [hconfig]
  have hshift : cfg₂.timestampShift = cfg₁.timestampShift := by rw [hconfig]
  unfold buildPacket at h₁ h₂
  rw [hrate, hoffset, hshift] at h₂
  obtain ⟨pbuff₁, hhdr₁, h₁⟩ := Option.bind_eq_some_iff.mp h₁
  obtain ⟨pbuff₂, hhdr₂, h₂⟩ := Option.bind_eq_some_iff.mp h₂
  dsimp only at h₁ h₂
  obtain ⟨hafter, hsame⟩ := @writeChannels_same cfg₁ cfg₂ flow hfits _ _ 0 (by rw [Nat.zero_add])
    hrings { b₁ with pbuff := pbuff₁ } { b₂ with pbuff := pbuff₂ } _ _ hdraws h₁ h₂
  refine ⟨hafter, fun p hp => ?_⟩
  by_cases hwritten : flow.Written cfg₁ flow.channelIndices 0 p
  · exact hsame p (Or.inr hwritten)
  · refine hsame p (Or.inl ?_)
    by_cases h9 : p < 9
    · exact writeHeader_same hhdr₁ hhdr₂ h9
    · dsimp only
      rw [writeHeader_other hhdr₁ (by omega), writeHeader_other hhdr₂ (by omega),
        hclean₁ p (by omega) hp hwritten,
        hclean₂ p (by omega) hp fun h => hwritten ((hrings.written 0 p).mpr h)]

theorem buildPacket_clean {b b' : TxBuffers} (hclean : flow.Clean cfg b.pbuff)
    (h : buildPacket cfg flow b = some b') : flow.Clean cfg b'.pbuff := by
  intro p h9 hp hwritten
  unfold buildPacket at h
  obtain ⟨pbuff, hhdr, h⟩ := Option.bind_eq_some_iff.mp h
  rw [writeChannels_other h hwritten]
  dsimp only
  rw [writeHeader_other hhdr h9]
  exact hclean p h9 hp hwritten

theorem clearPayload_clean {b b' : TxBuffers} (h : clearPayload flow b = some b') :
    flow.packetLen ≤ MTU ∧ flow.Clean cfg b'.pbuff := by
  simp only [clearPayload] at h
  split at h
  · next hfits =>
      refine ⟨hfits, fun p h9 hp _ => ?_⟩
      rw [← Option.some.inj h]
      exact if_pos ⟨h9, hp⟩
  · cases h

/-! ## The loop -/

/-- The packet was built in a clean buffer. -/
def Built (cfg : TxConfig) (p : TxPacket) : Prop :=
  p.len = p.flow.packetLen ∧ p.flow.packetLen ≤ MTU ∧ ∃ b b', p.flow.Clean cfg b.pbuff ∧
    buildPacket cfg p.flow b = some b' ∧ p.buf = b'.pbuff

/-- The same flow's packet of the same time, byte by byte. -/
structure SamePacket (p q : TxPacket) : Prop where
  flow : p.flow = q.flow
  len : p.len = q.len
  bytes : ∀ i < p.len, p.buf i = q.buf i

theorem Built.same (hconfig : cfg₂ = { cfg₁ with channelsSources := cfg₂.channelsSources })
    {p q : TxPacket} (hrings : SameRings cfg₁ cfg₂ p.flow.channelIndices)
    (hwidth : ¬p.flow.Dithered) (hflow : p.flow = q.flow) (hp : Built cfg₁ p)
    (hq : Built cfg₂ q) : SamePacket p q := by
  obtain ⟨hlen₁, hfits, b₁, b₁', hclean₁, hbuild₁, hbuf₁⟩ := hp
  obtain ⟨hlen₂, _, b₂, b₂', hclean₂, hbuild₂, hbuf₂⟩ := hq
  rw [← hflow] at hlen₂ hclean₂ hbuild₂
  obtain ⟨_, hbytes⟩ := buildPacket_same hfits hconfig hrings (fun hdith => absurd hdith hwidth)
    hclean₁ hclean₂ hbuild₁ hbuild₂
  refine ⟨hflow, hlen₁.trans hlen₂.symm, fun i hi => ?_⟩
  rw [hbuf₁, hbuf₂]
  exact hbytes i (hlen₁ ▸ hi)

variable {env env₁ env₂ : Outside} {now : Clock} {fuel : Nat} {flow' : Flow} {st st' : TxRun}
  {fin : LoopEnd}

theorem Flow.written_ahead (k : Nat) (chs : List (Option Nat)) (i p : Nat) :
    (flow.ahead k).Written cfg chs i p ↔ flow.Written cfg chs i p := by
  induction chs generalizing i with
  | nil => exact Iff.rfl
  | cons ch chs ih => exact or_congr Iff.rfl (ih (i + 1))

theorem Flow.Clean.ahead {pbuff : Nat → Byte} (h : flow.Clean cfg pbuff) (k : Nat) :
    (flow.ahead k).Clean cfg pbuff := fun p h9 hp hwritten =>
  h p h9 hp fun hw => hwritten ((Flow.written_ahead k _ _ _).mpr hw)

theorem sendLoop_built (hfits : flow.packetLen ≤ MTU) (hclean : flow.Clean cfg st.buffers.pbuff)
    (h : sendLoop cfg env now fuel flow st = some (flow', st', fin)) :
    ∃ ps, st'.sent = st.sent ++ ps ∧ ∀ p ∈ ps, Built cfg p := by
  induction fuel generalizing flow st with
  | zero =>
      cases h
      exact ⟨[], (List.append_nil _).symm, fun p hp => absurd hp List.not_mem_nil⟩
  | succ fuel ih =>
      rw [sendLoop] at h
      split at h
      · obtain ⟨b, hbuild, h⟩ := Option.bind_eq_some_iff.mp h
        obtain ⟨⟨flow₁, st₁⟩, hsend, h⟩ := Option.bind_eq_some_iff.mp h
        obtain ⟨rfl, hst₁⟩ := sendPacket_cases hsend
        have hclean₁ := buildPacket_clean hclean hbuild
        obtain ⟨hbuf, hlog⟩ := @awakeTooLong_eq cfg env now st₁
        have hsent : (awakeTooLong cfg env now st₁).2.sent =
            st.sent ++ [⟨flow, b.pbuff, flow.packetLen⟩] := by rw [hlog, hst₁]
        have hbuilt : Built cfg ⟨flow, b.pbuff, flow.packetLen⟩ :=
          ⟨rfl, hfits, st.buffers, b, hclean, hbuild, rfl⟩
        dsimp only at h
        split at h
        · cases h
          exact ⟨_, hsent, fun p hp => List.mem_singleton.mp hp ▸ hbuilt⟩
        · have hclean₂ : flow.Clean cfg (awakeTooLong cfg env now st₁).2.buffers.pbuff := by
            rw [hbuf, hst₁]
            exact hclean₁
          obtain ⟨ps, hps, hall⟩ := @ih (flow.ahead _) _ hfits (hclean₂.ahead _) h
          refine ⟨_ :: ps, by rw [hps, hsent, List.append_assoc]; rfl, fun p hp => ?_⟩
          rcases List.mem_cons.mp hp with rfl | hp
          · exact hbuilt
          · exact hall p hp
      · cases h
        exact ⟨[], (List.append_nil _).symm, fun p hp => absurd hp List.not_mem_nil⟩

theorem awakeTooLong_sends (env : Outside) (now : Clock) (st : TxRun) :
    (awakeTooLong cfg env now st).2.sends = st.sends := by
  simp only [awakeTooLong]
  split
  · split <;> rfl
  · rfl

/-- Two loops side by side, as long as the sends of both do the same. -/
theorem sendLoop_alike (hfits : flow.packetLen ≤ MTU)
    (hconfig : cfg₂ = { cfg₁ with channelsSources := cfg₂.channelsSources })
    (hrings : SameRings cfg₁ cfg₂ flow.channelIndices) {fuel₁ fuel₂ : Nat} {flow₁ flow₂ : Flow}
    {st₁ st₂ st₁' st₂' : TxRun}
    (hdraws : flow.Draws st₁.buffers.ditherRng st₂.buffers.ditherRng)
    (hclean₁ : flow.Clean cfg₁ st₁.buffers.pbuff) (hclean₂ : flow.Clean cfg₂ st₂.buffers.pbuff)
    (hsends : ∀ k, env₁.send (st₁.sends + k) = some flow.packetLen ↔
      env₂.send (st₂.sends + k) = some flow.packetLen)
    (h₁ : sendLoop cfg₁ env₁ now fuel₁ flow st₁ = some (flow₁, st₁', .done))
    (h₂ : sendLoop cfg₂ env₂ now fuel₂ flow st₂ = some (flow₂, st₂', .done)) :
    ∃ ps₁ ps₂, st₁'.sent = st₁.sent ++ ps₁ ∧ st₂'.sent = st₂.sent ++ ps₂ ∧
      List.Forall₂ SamePacket ps₁ ps₂ := by
  induction fuel₁ generalizing fuel₂ flow st₁ st₂ with
  | zero => cases h₁
  | succ fuel₁ ih =>
      cases fuel₂ with
      | zero => cases h₂
      | succ fuel₂ =>
          rw [sendLoop] at h₁ h₂
          split at h₁
          · next hdue =>
              rw [if_pos hdue] at h₂
              obtain ⟨b₁, hbuild₁, h₁⟩ := Option.bind_eq_some_iff.mp h₁
              obtain ⟨b₂, hbuild₂, h₂⟩ := Option.bind_eq_some_iff.mp h₂
              obtain ⟨⟨flow₃, st₃⟩, hsend₁, h₁⟩ := Option.bind_eq_some_iff.mp h₁
              obtain ⟨⟨flow₄, st₄⟩, hsend₂, h₂⟩ := Option.bind_eq_some_iff.mp h₂
              obtain ⟨rfl, hst₃⟩ := sendPacket_cases hsend₁
              obtain ⟨rfl, hst₄⟩ := sendPacket_cases hsend₂
              obtain ⟨hdraws', hbytes⟩ := buildPacket_same hfits hconfig hrings hdraws hclean₁
                hclean₂ hbuild₁ hbuild₂
              have hsame : SamePacket ⟨flow, b₁.pbuff, flow.packetLen⟩
                  ⟨flow, b₂.pbuff, flow.packetLen⟩ := ⟨rfl, rfl, hbytes⟩
              obtain ⟨hbuf₁, hlog₁⟩ := @awakeTooLong_eq cfg₁ env₁ now st₃
              obtain ⟨hbuf₂, hlog₂⟩ := @awakeTooLong_eq cfg₂ env₂ now st₄
              have hcount₁ := @awakeTooLong_sends cfg₁ env₁ now st₃
              have hcount₂ := @awakeTooLong_sends cfg₂ env₂ now st₄
              dsimp only at h₁ h₂
              split at h₁
              · cases h₁
              · split at h₂
                · cases h₂
                · have hmove : (if env₁.send st₁.sends = some flow.packetLen then 1 else 0) =
                      if env₂.send st₂.sends = some flow.packetLen then 1 else 0 :=
                    if_congr (hsends 0) rfl rfl
                  rw [← hmove] at h₂
                  obtain ⟨ps₁, ps₂, hps₁, hps₂, hall⟩ := @ih (flow.ahead _) hfits hrings _
                    (awakeTooLong cfg₁ env₁ now st₃).2 (awakeTooLong cfg₂ env₂ now st₄).2
                    (by rw [hbuf₁, hbuf₂, hst₃, hst₄]; exact hdraws')
                    (by
                      rw [hbuf₁, hst₃]
                      exact (buildPacket_clean hclean₁ hbuild₁).ahead _)
                    (by
                      rw [hbuf₂, hst₄]
                      exact (buildPacket_clean hclean₂ hbuild₂).ahead _)
                    (fun k => by
                      rw [hcount₁, hcount₂, hst₃, hst₄]
                      have hnext := hsends (1 + k)
                      rw [← Nat.add_assoc, ← Nat.add_assoc] at hnext
                      exact hnext)
                    h₁ h₂
                  refine ⟨_ :: ps₁, _ :: ps₂, ?_, ?_, .cons hsame hall⟩
                  · rw [hps₁, hlog₁, hst₃, List.append_assoc]
                    rfl
                  · rw [hps₂, hlog₂, hst₄, List.append_assoc]
                    rfl
          · next hdue =>
              rw [if_neg hdue] at h₂
              cases h₁
              cases h₂
              exact ⟨[], [], (List.append_nil _).symm, (List.append_nil _).symm, .nil⟩

theorem LoopSpec.line {ps : List TxPacket}
    (h : LoopSpec cfg env now fuel flow st flow' st' fin ps) :
    ∀ p ∈ ps, ∃ k, p.flow = flow.ahead k := by
  intro p hp
  obtain ⟨k, hk, rfl⟩ := List.mem_iff_getElem.mp hp
  exact ⟨_, (h.packet k hk).1⟩

theorem clearPayload_ditherRng {b b' : TxBuffers} (h : clearPayload flow b = some b') :
    b'.ditherRng = b.ditherRng := by
  simp only [clearPayload] at h
  split at h
  · rw [← Option.some.inj h]
  · cases h

theorem TurnSpec.built {pe : Bool} {flow₁ flow₂ : Flow} {st₁ st₂ : TxRun} {ps : List TxPacket}
    (h : TurnSpec cfg env now pe fuel flow st flow' st' fin flow₁ flow₂ st₁ st₂ ps)
    (hfits : flow₁.packetLen ≤ MTU) (hclean : flow₁.Clean cfg st₁.buffers.pbuff) :
    ∀ p ∈ ps, Built cfg p := by
  obtain ⟨qs, hqs, hall⟩ := sendLoop_built hfits hclean h.looped
  obtain rfl := List.append_cancel_left (hqs.symm.trans h.loop.sent)
  exact hall

/-- Two loops that come to their end have sent packets of the same times. -/
theorem LoopSpec.reaches {fuel₁ fuel₂ : Nat} {flow₁ flow₂ : Flow} {st₁ st₂ st₁' st₂' : TxRun}
    {ps₁ ps₂ : List TxPacket}
    (h₁ : LoopSpec cfg₁ env₁ now fuel₁ flow st₁ flow₁ st₁' .done ps₁)
    (h₂ : LoopSpec cfg₂ env₂ now fuel₂ flow st₂ flow₂ st₂' .done ps₂) :
    ∀ p ∈ ps₁, ∃ q ∈ ps₂, p.flow = q.flow := by
  intro p hp
  obtain ⟨k, hk, rfl⟩ := List.mem_iff_getElem.mp hp
  by_cases hlt : flow.delivered env₁ st₁.sent.length k <
      flow.delivered env₂ st₂.sent.length ps₂.length
  · obtain ⟨l, hl, heq⟩ := Flow.exists_delivered flow hlt
    refine ⟨ps₂[l], List.getElem_mem hl, ?_⟩
    rw [(h₁.packet k hk).1, (h₂.packet l hl).1, heq]
  · -- the second loop would have stopped at a packet that the first found due
    obtain ⟨l, hl, heq⟩ : ∃ l < ps₁.length, flow.delivered env₁ st₁.sent.length l =
        flow.delivered env₂ st₂.sent.length ps₂.length := by
      rcases Nat.lt_or_eq_of_le (Nat.not_lt.mp hlt) with hlt | heq
      · obtain ⟨l, hl, heq⟩ := Flow.exists_delivered flow hlt
        exact ⟨l, Nat.lt_trans hl hk, heq⟩
      · exact ⟨k, hk, heq.symm⟩
    have hdue := h₁.due l hl
    have hend := (h₂.done rfl).1
    rw [h₂.after, ← heq] at hend
    omega

/-- Each packet of one turn is one of the other, if nothing is dithered. -/
theorem LoopSpec.matched {fuel₁ fuel₂ : Nat} {flow₁ flow₂ : Flow} {st₁ st₂ st₁' st₂' : TxRun}
    {ps₁ ps₂ : List TxPacket}
    (h₁ : LoopSpec cfg₁ env₁ now fuel₁ flow st₁ flow₁ st₁' .done ps₁)
    (h₂ : LoopSpec cfg₂ env₂ now fuel₂ flow st₂ flow₂ st₂' .done ps₂)
    (hconfig : cfg₂ = { cfg₁ with channelsSources := cfg₂.channelsSources })
    (hrings : SameRings cfg₁ cfg₂ flow.channelIndices) (hwidth : ¬flow.Dithered)
    (hbuilt₁ : ∀ p ∈ ps₁, Built cfg₁ p) (hbuilt₂ : ∀ q ∈ ps₂, Built cfg₂ q) :
    ∀ p ∈ ps₁, ∃ q ∈ ps₂, SamePacket p q := by
  intro p hp
  obtain ⟨q, hq, hflow⟩ := h₁.reaches h₂ p hp
  obtain ⟨k, hk⟩ := h₁.line p hp
  exact ⟨q, hq, Built.same hconfig (by rw [hk]; exact hrings) (by rw [hk]; exact hwidth) hflow
    (hbuilt₁ p hp) (hbuilt₂ q hq)⟩

end

/-! ## Calls -/

section

variable {cfg : TxConfig} {env : Outside} {now : Clock} {pe : Bool} {fuel : Nat}
  {flows flows' : List (Option Flow)} {st st' : TxRun} {fin : LoopEnd}

/-- Flows mark themselves expired and nobody else. -/
theorem transmitFlows_flag {f : Flag} (hother : ∀ flow, some flow ∈ flows → flow.expired ≠ f)
    (h : transmitFlows cfg env now pe fuel flows st = some (flows', st', fin)) :
    st'.flags f = st.flags f := by
  refine transmitFlows_rel (R := fun st st' => st'.flags f = st.flags f) (fun _ => rfl)
    (fun h₁ h₂ => h₂.trans h₁) (fun flow hflow st flow' st' fin hturn => ?_) h
  obtain ⟨_, hflags, _⟩ := transmitFlow_keeps hturn
  rcases hflags with hflags | hflags
  · rw [hflags]
  · rw [hflags, Function.update_of_ne]
    exact fun heq => hother flow hflow heq.symm

/-- The flow in the slot has its flag for itself. -/
def OwnFlag (s : TxThread) (slot : Nat) (flow : Flow) : Prop :=
  ∀ i other, s.flows[i]? = some (some other) → other.expired = flow.expired → i = slot

theorem Round.flag {c : TransmitCall} {s : TxThread} {slot : Nat} {flow flow' : Flow}
    (h : Round cfg c s slot flow st flow' st' fin) (hown : OwnFlag s slot flow) :
    st.flags flow.expired = s.flags flow.expired := by
  obtain ⟨flows', hbefore⟩ := h.before
  refine transmitFlows_flag (fun other hother heq => ?_) hbefore
  obtain ⟨i, hi, hget⟩ := List.mem_iff_getElem.mp hother
  rw [List.length_take] at hi
  rw [List.getElem_take] at hget
  have hslot := hown i other (by rw [List.getElem?_eq_getElem (by omega), hget]) heq
  omega

/-- Two calls that agree on one flow, wherever it stands in their tables, and
on its rings. -/
structure Alike (cfg : TxConfig) (c₁ c₂ : TransmitCall) (s₁ s₂ : TxThread) (slot₁ slot₂ : Nat)
    (flow : Flow) : Prop where
  holds₁ : s₁.flows[slot₁]? = some (some flow)
  holds₂ : s₂.flows[slot₂]? = some (some flow)
  flag : s₁.flags flow.expired = s₂.flags flow.expired
  own₁ : OwnFlag s₁ slot₁ flow
  own₂ : OwnFlag s₂ slot₂ flow
  now : c₁.now = c₂.now
  rings : SameRings (c₁.config cfg) (c₂.config cfg) flow.channelIndices

/-- What the flow sends in one call it sends in the other: the same packets if
nothing is dithered, and in any case if what it draws and how its sends end is
the same. -/
theorem flows_isolated {cfg : TxConfig} {c₁ c₂ : TransmitCall} {s₁ s₂ s₁' s₂' : TxThread}
    {slot₁ slot₂ : Nat} {flow : Flow} {end₁ end₂ : TxRun}
    (h : Alike cfg c₁ c₂ s₁ s₂ slot₁ slot₂ flow)
    (hrun₁ : c₁.run cfg s₁ = some (s₁', end₁, .done))
    (hrun₂ : c₂.run cfg s₂ = some (s₂', end₂, .done)) :
    ∃ r₁ r₂ : FlowRound,
      Round cfg c₁ s₁ slot₁ flow r₁.start r₁.after r₁.stop .done ∧
      Round cfg c₂ s₂ slot₂ flow r₂.start r₂.after r₂.stop .done ∧
      (¬flow.Dithered → (∀ p ∈ r₁.packets, ∃ q ∈ r₂.packets, SamePacket p q) ∧
        ∀ q ∈ r₂.packets, ∃ p ∈ r₁.packets, SamePacket q p) ∧
      (flow.Draws r₁.start.buffers.ditherRng r₂.start.buffers.ditherRng →
        (∀ k, c₁.env.send (r₁.start.sent.length + k) = some flow.packetLen ↔
          c₂.env.send (r₂.start.sent.length + k) = some flow.packetLen) →
        List.Forall₂ SamePacket r₁.packets r₂.packets) := by
  obtain ⟨st₁, flow₁, st₁', hround₁⟩ := exists_round hrun₁ h.holds₁
  obtain ⟨st₂, flow₂, st₂', hround₂⟩ := exists_round hrun₂ h.holds₂
  refine ⟨⟨c₁, flow, st₁, flow₁, st₁', .done⟩, ⟨c₂, flow, st₂, flow₂, st₂', .done⟩, hround₁,
    hround₂, ?_⟩
  have hturn₁ := hround₁.turn
  have hturn₂ := hround₂.turn
  have hflag₁ := hround₁.flag h.own₁
  have hflag₂ := hround₂.flag h.own₂
  rw [← h.flag, ← hflag₁] at hflag₂
  cases hlive : st₁.flags flow.expired with
  | true =>
      -- an expired flow sends nothing
      rw [transmitFlow, if_pos hlive] at hturn₁
      rw [transmitFlow, if_pos (hflag₂.trans hlive)] at hturn₂
      cases hturn₁
      cases hturn₂
      simp only [FlowRound.packets, List.drop_length]
      exact ⟨fun _ => ⟨fun p hp => absurd hp List.not_mem_nil, fun p hp =>
        absurd hp List.not_mem_nil⟩, fun _ _ => .nil⟩
  | false =>
      obtain ⟨flow₃, flow₅, st₃, st₅, ps₁, hspec₁⟩ :=
        transmitFlow_spec hround₁.counted hlive hturn₁
      obtain ⟨flow₄, flow₆, st₄, st₆, ps₂, hspec₂⟩ :=
        transmitFlow_spec hround₂.counted (hflag₂.trans hlive) hturn₂
      rw [← h.now] at hspec₂
      obtain rfl : flow₃ = flow₄ := Option.some.inj (hspec₁.synced.symm.trans hspec₂.synced)
      obtain ⟨ts, hline⟩ := resync_eq hspec₁.synced
      obtain ⟨b₁, hclear₁, rfl⟩ := hspec₁.cleared
      obtain ⟨b₂, hclear₂, rfl⟩ := hspec₂.cleared
      obtain ⟨hfits, hclean₁⟩ := @clearPayload_clean (c₁.config cfg) _ _ _ hclear₁
      obtain ⟨_, hclean₂⟩ := @clearPayload_clean (c₂.config cfg) _ _ _ hclear₂
      have hconfig : c₂.config cfg = { c₁.config cfg with
          channelsSources := (c₂.config cfg).channelsSources } := rfl
      have hrings : SameRings (c₁.config cfg) (c₂.config cfg) flow₃.channelIndices := by
        rw [hline]
        exact h.rings
      have hpackets₁ : st₁'.sent.drop st₁.sent.length = ps₁ := by
        rw [hspec₁.state.1, List.drop_left]
      have hpackets₂ : st₂'.sent.drop st₂.sent.length = ps₂ := by
        rw [hspec₂.state.1, List.drop_left]
      simp only [FlowRound.packets, hpackets₁, hpackets₂]
      refine ⟨fun hwidth => ?_, fun hdraws hsends => ?_⟩
      · have hbuilt₁ := hspec₁.built hfits hclean₁
        have hbuilt₂ := hspec₂.built hfits hclean₂
        have hwidth₃ : ¬flow₃.Dithered := by
          rw [hline]
          exact hwidth
        exact ⟨hspec₁.loop.matched hspec₂.loop hconfig hrings hwidth₃ hbuilt₁ hbuilt₂,
          hspec₂.loop.matched hspec₁.loop rfl hrings.symm hwidth₃ hbuilt₂ hbuilt₁⟩
      · have hdraws₃ : flow₃.Draws b₁.ditherRng b₂.ditherRng := by
          rw [clearPayload_ditherRng hclear₁, clearPayload_ditherRng hclear₂, hline]
          exact hdraws
        have hsends₃ : ∀ k, c₁.env.send (st₁.sends + k) = some flow₃.packetLen ↔
            c₂.env.send (st₂.sends + k) = some flow₃.packetLen := by
          rw [hround₁.counted.sends, hround₂.counted.sends, hline]
          exact hsends
        obtain ⟨qs₁, qs₂, hqs₁, hqs₂, hall⟩ := sendLoop_alike hfits hconfig hrings hdraws₃ hclean₁
          hclean₂ (by exact hsends₃) hspec₁.looped hspec₂.looped
        obtain rfl := List.append_cancel_left (hqs₁.symm.trans hspec₁.loop.sent)
        obtain rfl := List.append_cancel_left (hqs₂.symm.trans hspec₂.loop.sent)
        exact hall

end

/-- A flow of one channel, alone in one table and behind another in the other. -/
def lateFlow : Flow := ⟨⟨0, 4321⟩, [some 0], 2, 2, 4, none, 0⟩

def earlyFlow : Flow := ⟨⟨0, 4322⟩, [some 1, none], 2, 2, 4, none, 1⟩

def aloneThread : TxThread := ⟨[some lateFlow], fun _ => false, ⟨fun _ => 0, 0⟩⟩

def behindThread : TxThread := ⟨[some earlyFlow, some lateFlow], fun _ => false, ⟨fun _ => 0, 0⟩⟩

theorem evenRing_fits : 4 ≤ 2 ^ 61 := by decide

/-- A ring of four samples, all of them `x`. -/
def evenRing (x : Sample) : TxSource :=
  ⟨ownedShared 4 evenRing_fits, ⟨4, 4, 0, fun _ => x, true, 0⟩⟩

def aloneCall : TransmitCall :=
  ⟨[evenRing 7], ⟨fun _ => some 17, fun _ => none, fun _ => none⟩, 2, false, 4⟩

def behindCall : TransmitCall := ⟨[evenRing 7, evenRing 9],
  ⟨fun n => some (if n = 0 then 25 else 17), fun _ => none, fun _ => none⟩, 2, true, 4⟩

theorem flows_isolated_behind : ∃ r₁ r₂ : FlowRound,
    Round ringlessConfig aloneCall aloneThread 0 lateFlow r₁.start r₁.after r₁.stop .done ∧
      Round ringlessConfig behindCall behindThread 1 lateFlow r₂.start r₂.after r₂.stop .done ∧
      ∀ p ∈ r₁.packets, ∃ q ∈ r₂.packets, SamePacket p q := by
  have hrun₁ : (aloneCall.run ringlessConfig aloneThread).map (fun r => r.2.2) = some .done := by
    decide +kernel
  have hrun₂ : (behindCall.run ringlessConfig behindThread).map (fun r => r.2.2) = some .done := by
    decide +kernel
  obtain ⟨⟨s₁', end₁, _⟩, hrun₁, rfl⟩ := Option.map_eq_some_iff.mp hrun₁
  obtain ⟨⟨s₂', end₂, _⟩, hrun₂, rfl⟩ := Option.map_eq_some_iff.mp hrun₂
  have hown₁ : OwnFlag aloneThread 0 lateFlow := by
    intro i other hi _
    have hlt : i < 1 := (List.getElem?_eq_some_iff.mp hi).1
    omega
  have hown₂ : OwnFlag behindThread 1 lateFlow := by
    intro i other hi hflag
    match i, hi with
    | 0, hi =>
        cases hi
        cases hflag
    | 1, _ => rfl
  have hrings : SameRings (aloneCall.config ringlessConfig) (behindCall.config ringlessConfig)
      lateFlow.channelIndices := by
    intro c hc
    obtain rfl : c = 0 := Option.some.inj (List.mem_singleton.mp hc)
    exact ⟨rfl, fun src hsrc => Option.some.inj hsrc ▸ rfl⟩
  have halike : Alike ringlessConfig aloneCall behindCall aloneThread behindThread 0 1 lateFlow :=
    ⟨rfl, rfl, rfl, hown₁, hown₂, rfl, hrings⟩
  obtain ⟨r₁, r₂, hround₁, hround₂, hsame, _⟩ := flows_isolated halike hrun₁ hrun₂
  exact ⟨r₁, r₂, hround₁, hround₂, (hsame fun h => by rcases h with h | h <;> cases h).1⟩

end Inferno
