import Inferno.Wire
import Inferno.RingShift

/-!
# Can a media packet stop the receiver?

`receive` with everything in it that can panic: the divisions, the iterators
the sinks pull from, the writes to the rings, and, in a build with overflow
checks, the sums of the statistics and of the scan. The iterators always hold
what they announce (`pull_items`); the length they announce is what
`write_from_at` compares with the size of a ring configured elsewhere
(`receive_isSome_iff`).
-/

namespace Inferno

variable {S : Type}

/-! ## Checked sums -/

/-- Whether a rest that panics or not whatever it is given comes to its end. -/
theorem isSome_bind_iff {A B : Type} {x : Option A} {f : A → Option B} {Q : Prop}
    (h : ∀ a, (f a).isSome ↔ Q) : (x.bind f).isSome ↔ x.isSome ∧ Q := by
  cases x with
  | none => simp
  | some a => simpa using h a

/-- `a + b` of `u64`, in a build with or without overflow checks. -/
def addIn (checked : Bool) (a b : Usize) : Option Usize :=
  if checked ∧ 2 ^ 64 ≤ a.toNat + b.toNat then none else some (a + b)

def mulIn (checked : Bool) (a b : Usize) : Option Usize :=
  if checked ∧ 2 ^ 64 ≤ a.toNat * b.toNat then none else some (a * b)

theorem addIn_isSome (checked : Bool) (a b : Usize) :
    (addIn checked a b).isSome ↔ (checked = true → a.toNat + b.toNat < 2 ^ 64) := by
  unfold addIn
  by_cases h : checked = true ∧ 2 ^ 64 ≤ a.toNat + b.toNat
  · rw [if_pos h]
    simp only [Option.isSome_none, Bool.false_eq_true, false_iff]
    exact fun hlt => absurd (hlt h.1) (Nat.not_lt.mpr h.2)
  · rw [if_neg h]
    simp only [Option.isSome_some, true_iff]
    exact fun hc => Nat.lt_of_not_le fun hle => h ⟨hc, hle⟩

theorem mulIn_isSome (checked : Bool) (a b : Usize) :
    (mulIn checked a b).isSome ↔ (checked = true → a.toNat * b.toNat < 2 ^ 64) := by
  unfold mulIn
  by_cases h : checked = true ∧ 2 ^ 64 ≤ a.toNat * b.toNat
  · rw [if_pos h]
    simp only [Option.isSome_none, Bool.false_eq_true, false_iff]
    exact fun hlt => absurd (hlt h.1) (Nat.not_lt.mpr h.2)
  · rw [if_neg h]
    simp only [Option.isSome_some, true_iff]
    exact fun hc => Nat.lt_of_not_le fun hle => h ⟨hc, hle⟩

/-! ## Statistics -/

namespace FlowStats

/-- `expected_interval`. -/
def interval (stats : FlowStats) (timestamp : Clock) (sampleRate : BitVec 32) : Usize :=
  (timestamp - stats.lastTimestamp) / sampleRate.setWidth 64

/-- "1ms frame in samples at given sample rate". -/
def frameSize (sampleRate : BitVec 32) : Usize := (sampleRate / 1000).setWidth 64

/-- `(gap / frame_size as u64).saturating_sub(1)`. -/
def missedBy (gap frameSize : Usize) : Usize :=
  if gap / frameSize = 0 then 0 else gap / frameSize - 1

/-- "Detect missed packets". -/
def missedIn (checked : Bool) (stats : FlowStats) (gap : Usize) (sampleRate : BitVec 32) :
    Option Usize :=
  if gap > frameSize sampleRate * 3 / 2 then
    if frameSize sampleRate = 0 then none
    else addIn checked stats.missedPackets (missedBy gap (frameSize sampleRate))
  else some stats.missedPackets

/-- What the gap since the last packet adds; the product is the jitter's. -/
def countIn (checked : Bool) (stats : FlowStats) (timestamp : Clock) (sampleRate : BitVec 32) :
    Option FlowStats :=
  if 0 < stats.lastTimestamp then
    if sampleRate = 0 then none
    else do
      let expected ← addIn checked stats.packetsExpected (stats.interval timestamp sampleRate)
      let missed ← stats.missedIn checked (timestamp - stats.lastTimestamp) sampleRate
      let _ ← mulIn checked (stats.interval timestamp sampleRate) 1000000
      some { stats with packetsExpected := expected, missedPackets := missed }
  else some { stats with packetsExpected := 1 }

/-- "Update packet stats"; `none` is a panic. -/
def updateIn (checked : Bool) (stats : FlowStats) (timestamp : Clock) (sampleRate : BitVec 32)
    (logDue : Bool) : Option FlowStats := do
  let received ← addIn checked stats.packetsReceived 1
  let stats ← stats.countIn checked timestamp sampleRate
  let stats := { stats with packetsReceived := received, lastTimestamp := timestamp }
  some (if logDue then FlowStats.new else stats)

/-- The sums fit their words, and there is a frame to count gaps in. -/
def Fits (checked : Bool) (stats : FlowStats) (timestamp : Clock) (sampleRate : BitVec 32) :
    Prop :=
  (checked = true → stats.packetsReceived.toNat + 1 < 2 ^ 64) ∧
  (0 < stats.lastTimestamp → sampleRate ≠ 0 ∧
    (checked = true →
      stats.packetsExpected.toNat + (stats.interval timestamp sampleRate).toNat < 2 ^ 64 ∧
      (stats.interval timestamp sampleRate).toNat * 1000000 < 2 ^ 64) ∧
    (timestamp - stats.lastTimestamp > frameSize sampleRate * 3 / 2 →
      frameSize sampleRate ≠ 0 ∧ (checked = true → stats.missedPackets.toNat +
        (missedBy (timestamp - stats.lastTimestamp) (frameSize sampleRate)).toNat < 2 ^ 64)))

theorem missedIn_isSome_iff (checked : Bool) (stats : FlowStats) (gap : Usize)
    (sampleRate : BitVec 32) :
    (stats.missedIn checked gap sampleRate).isSome ↔
      (gap > frameSize sampleRate * 3 / 2 → frameSize sampleRate ≠ 0 ∧
        (checked = true → stats.missedPackets.toNat +
          (missedBy gap (frameSize sampleRate)).toNat < 2 ^ 64)) := by
  unfold missedIn
  by_cases hgap : gap > frameSize sampleRate * 3 / 2
  · rw [if_pos hgap]
    by_cases hframe : frameSize sampleRate = 0
    · rw [if_pos hframe]
      exact ⟨fun h => (nomatch h), fun h => absurd hframe (h hgap).1⟩
    · rw [if_neg hframe, addIn_isSome]
      exact ⟨fun h _ => ⟨hframe, h⟩, fun h => (h hgap).2⟩
  · rw [if_neg hgap]
    exact ⟨fun _ h => absurd h hgap, fun _ => rfl⟩

theorem countIn_isSome_iff (checked : Bool) (stats : FlowStats) (timestamp : Clock)
    (sampleRate : BitVec 32) :
    (stats.countIn checked timestamp sampleRate).isSome ↔
      (0 < stats.lastTimestamp → sampleRate ≠ 0 ∧
        (checked = true →
          stats.packetsExpected.toNat + (stats.interval timestamp sampleRate).toNat < 2 ^ 64 ∧
          (stats.interval timestamp sampleRate).toNat * 1000000 < 2 ^ 64) ∧
        (timestamp - stats.lastTimestamp > frameSize sampleRate * 3 / 2 →
          frameSize sampleRate ≠ 0 ∧ (checked = true → stats.missedPackets.toNat +
            (missedBy (timestamp - stats.lastTimestamp) (frameSize sampleRate)).toNat
              < 2 ^ 64))) := by
  unfold countIn
  by_cases hlast : 0 < stats.lastTimestamp
  · rw [if_pos hlast]
    by_cases hrate : sampleRate = 0
    · rw [if_pos hrate]
      exact ⟨fun h => (nomatch h), fun h => absurd hrate (h hlast).1⟩
    · rw [if_neg hrate]
      simp only [Option.bind_eq_bind]
      rw [isSome_bind_iff fun expected => isSome_bind_iff fun missed =>
        isSome_bind_iff (Q := True) fun _ => by simp, addIn_isSome, mulIn_isSome,
        missedIn_isSome_iff]
      constructor
      · rintro ⟨hexpected, hmissed, hjitter, -⟩ _
        exact ⟨hrate, fun hc => ⟨hexpected hc, hjitter hc⟩, hmissed⟩
      · intro h
        obtain ⟨-, hsums, hmissed⟩ := h hlast
        exact ⟨fun hc => (hsums hc).1, hmissed, fun hc => (hsums hc).2, trivial⟩
  · rw [if_neg hlast]
    exact ⟨fun _ h => absurd h hlast, fun _ => rfl⟩

theorem updateIn_isSome_iff (checked : Bool) (stats : FlowStats) (timestamp : Clock)
    (sampleRate : BitVec 32) (logDue : Bool) :
    (stats.updateIn checked timestamp sampleRate logDue).isSome ↔
      stats.Fits checked timestamp sampleRate := by
  unfold updateIn Fits
  simp only [Option.bind_eq_bind]
  rw [isSome_bind_iff fun received => isSome_bind_iff (Q := True) fun stats' => by simp,
    addIn_isSome, countIn_isSome_iff, and_true]
  rfl

/-- Without overflow checks these are the statistics as the wire has them. -/
theorem updateIn_false (stats : FlowStats) (timestamp : Clock) (sampleRate : BitVec 32)
    (logDue : Bool) :
    stats.updateIn false timestamp sampleRate logDue =
      stats.update timestamp sampleRate logDue := by
  have hadd : ∀ a b, addIn false a b = some (a + b) := fun a b => if_neg fun h => by cases h.1
  have hmul : ∀ a b, mulIn false a b = some (a * b) := fun a b => if_neg fun h => by cases h.1
  unfold updateIn update countIn missedIn
  simp only [hadd, hmul, Option.bind_eq_bind, Option.bind_some]
  by_cases hlast : 0 < stats.lastTimestamp
  · rw [if_pos hlast, if_pos hlast]
    by_cases hrate : sampleRate = 0
    · rw [if_pos hrate, if_pos hrate]
      rfl
    · rw [if_neg hrate, if_neg hrate]
      by_cases hgap : timestamp - stats.lastTimestamp > frameSize sampleRate * 3 / 2
      · have hgap' : timestamp - stats.lastTimestamp >
            (sampleRate / 1000).setWidth 64 * 3 / 2 := hgap
        rw [if_pos hgap, if_pos hgap']
        by_cases hframe : frameSize sampleRate = 0
        · rw [if_pos hframe, if_pos (show (sampleRate / 1000).setWidth 64 = 0 from hframe)]
          rfl
        · rw [if_neg hframe, if_neg (show ¬(sampleRate / 1000).setWidth 64 = 0 from hframe)]
          rfl
      · have hgap' : ¬timestamp - stats.lastTimestamp >
            (sampleRate / 1000).setWidth 64 * 3 / 2 := hgap
        rw [if_neg hgap, if_neg hgap']
        rfl
  · rw [if_neg hlast, if_neg hlast]
    rfl

end FlowStats

/-! ## Pulling samples -/

namespace SamplesReader

/-- `n` times `input.next().unwrap()`. `none` is a panic: the iterator has
ended, or, with overflow checks, its count of remaining samples goes below
zero. -/
def pull (checked : Bool) (w : SampleWidth) : Nat → SamplesReader → Option (List Sample)
  | 0, _ => some []
  | n + 1, r =>
      match r.next w with
      | (none, _) => none
      | (some x, r') =>
          if checked ∧ r.remainingSamples = 0 then none else (pull checked w n r').map (x :: ·)

/-- A reader that announces no more than its bytes hold yields it all. -/
theorem pull_collect (checked : Bool) {w : SampleWidth} {r : SamplesReader} {n : Nat}
    (hn : n < 2 ^ 64) (hrem : r.remainingSamples = BitVec.ofNat 64 n)
    (hroom : r.readPos + w.bytes + n * r.stride ≤ r.len + r.stride) :
    r.pull checked w n = some (r.collect w n).1 ∧ (r.collect w n).1.length = n := by
  induction n generalizing r with
  | zero => exact ⟨rfl, rfl⟩
  | succ n ih =>
      rw [Nat.succ_mul] at hroom
      have hfit : ¬r.readPos + w.bytes > r.len := by omega
      have hne : ¬(checked = true ∧ r.remainingSamples = 0) := fun h => by
        have hzero := congrArg BitVec.toNat (hrem.symm.trans h.2)
        rw [BitVec.toNat_ofNat, Nat.mod_eq_of_lt hn] at hzero
        exact absurd hzero (Nat.succ_ne_zero n)
      obtain ⟨hpull, hlen⟩ := @ih
        { r with readPos := r.readPos + r.stride, remainingSamples := r.remainingSamples - 1 }
        (by omega) (by
          show r.remainingSamples - 1 = _
          rw [hrem, BitVec.ofNat_add]
          exact add_sub_cancel_right _ _)
        (show r.readPos + r.stride + w.bytes + n * r.stride ≤ r.len + r.stride by omega)
      have hnext : r.next w = (some (w.toSample fun k => r.bytes (r.readPos + k)),
          { r with
            readPos := r.readPos + r.stride
            remainingSamples := r.remainingSamples - 1 }) := by
        rw [next, getNextBytes, if_neg hfit]
        rfl
      rw [pull, collect, hnext]
      dsimp only
      rw [if_neg hne, hpull]
      exact ⟨rfl, by rw [List.length_cons, hlen]⟩

end SamplesReader

/-! ## Delivering to the rings -/

/-- `sink.write_from_at(ts, reader)`. -/
def SinkWrite.runIn (checked : Bool) (sh : RingShared) (c : SinkWrite S) (s : RingState Sample) :
    Option (RingState Sample) :=
  (c.reader.pull checked c.width c.reader.remainingSamples.toNat).bind fun xs =>
    (RingCall.write c.startTimestamp xs).runIn checked sh s

/-- The calls in a row; every sink has a ring. -/
def deliver [DecidableEq S] (checked : Bool) (sh : S → RingShared) :
    List (SinkWrite S) → (S → RingState Sample) → Option (S → RingState Sample)
  | [], rings => some rings
  | c :: cs, rings => (c.runIn checked (sh c.sink) (rings c.sink)).bind fun s =>
      deliver checked sh cs (Function.update rings c.sink s)

/-- The call yields what it announces. -/
def SinkWrite.Exact (checked : Bool) (c : SinkWrite S) : Prop :=
  c.reader.pull checked c.width c.reader.remainingSamples.toNat = some c.items ∧
    c.items.length = c.reader.remainingSamples.toNat

/-- No scan of the calls runs over `usize::MAX`, each in the state its ring is
in by then. -/
def CountsFit [DecidableEq S] (sh : S → RingShared) :
    List (SinkWrite S) → (S → RingState Sample) → Prop
  | [], _ => True
  | c :: cs, rings =>
      ¬(RingCall.write c.startTimestamp c.items).FillsToMax (sh c.sink) (rings c.sink) ∧
      CountsFit sh cs (Function.update rings c.sink
        ((RingCall.write c.startTimestamp c.items).after (sh c.sink) (rings c.sink)))

theorem deliver_isSome_iff [DecidableEq S] (checked : Bool) (sh : S → RingShared)
    {cs : List (SinkWrite S)} (hexact : ∀ c ∈ cs, c.Exact checked)
    (rings : S → RingState Sample) :
    (deliver checked sh cs rings).isSome ↔
      (∀ c ∈ cs, c.reader.remainingSamples.toNat < (sh c.sink).itemsSize) ∧
        (checked = true → CountsFit sh cs rings) := by
  induction cs generalizing rings with
  | nil => simp [deliver, CountsFit]
  | cons c cs ih =>
      obtain ⟨hpull, hlen⟩ := hexact c List.mem_cons_self
      have hrest := fun rings => ih (fun c hc => hexact c (List.mem_cons_of_mem _ hc)) rings
      rw [deliver, SinkWrite.runIn, hpull, Option.bind_some, RingCall.runIn_eq,
        List.forall_mem_cons, CountsFit, ← RingCall.carries_iff, ← hlen]
      by_cases hok : (RingCall.write c.startTimestamp c.items).Short (sh c.sink) ∧
          ¬(checked = true ∧ (RingCall.write c.startTimestamp c.items).Carries (sh c.sink)
            (rings c.sink))
      · rw [if_pos hok, Option.bind_some, hrest]
        constructor
        · rintro ⟨hshort, hcounts⟩
          exact ⟨⟨hok.1, hshort⟩, fun hc => ⟨fun hcarry => hok.2 ⟨hc, hcarry⟩, hcounts hc⟩⟩
        · rintro ⟨⟨-, hshort⟩, hcounts⟩
          exact ⟨hshort, fun hc => (hcounts hc).2⟩
      · rw [if_neg hok]
        refine ⟨fun h => (nomatch h), ?_⟩
        rintro ⟨⟨hshort, -⟩, hcounts⟩
        exact absurd ⟨hshort, fun h => (hcounts h.1).1 h.2⟩ hok

theorem CountsFit.congr [DecidableEq S] (sh : S → RingShared) {cs : List (SinkWrite S)}
    {rings rings' : S → RingState Sample} (h : ∀ c ∈ cs, rings c.sink = rings' c.sink) :
    CountsFit sh cs rings ↔ CountsFit sh cs rings' := by
  induction cs generalizing rings rings' with
  | nil => exact Iff.rfl
  | cons c cs ih =>
      rw [CountsFit, CountsFit, h c List.mem_cons_self]
      refine and_congr_right fun _ => ih fun c' hc' => ?_
      by_cases heq : c'.sink = c.sink
      · rw [heq, Function.update_self, Function.update_self]
      · rw [Function.update_of_ne heq, Function.update_of_ne heq]
        exact h c' (List.mem_cons_of_mem _ hc')

/-- Sinks of their own are written in the state they were in. -/
theorem countsFit_of_nodup [DecidableEq S] (sh : S → RingShared) {cs : List (SinkWrite S)}
    (hnd : (cs.map (·.sink)).Nodup) (rings : S → RingState Sample) :
    CountsFit sh cs rings ↔ ∀ c ∈ cs,
      ¬(RingCall.write c.startTimestamp c.items).FillsToMax (sh c.sink) (rings c.sink) := by
  induction cs with
  | nil => simp [CountsFit]
  | cons c cs ih =>
      obtain ⟨hnotin, hnd⟩ := List.nodup_cons.mp hnd
      rw [CountsFit, List.forall_mem_cons, ← ih hnd]
      refine and_congr_right fun _ => CountsFit.congr sh fun c' hc' => ?_
      refine Function.update_of_ne (fun heq => hnotin ?_) _ _
      show c.sink ∈ _
      rw [← heq]
      exact List.mem_map.mpr ⟨c', hc', rfl⟩

/-! ## A datagram -/

/-- One round of `receive`, the writes to the rings included; `none` is a
panic. A datagram of less than nine bytes ends it. -/
def receiveDatagramIn [DecidableEq S] (checked : Bool) (sh : S → RingShared)
    (sampleRate : BitVec 32) (write : Bool) (d : Datagram)
    (st : SocketData S × (S → RingState Sample)) :
    Option (SocketData S × (S → RingState Sample)) :=
  if d.recvSize < 9 then some st
  else do
    -- with overflow checks the sums are the same, or there are none
    let _ ← st.1.stats.updateIn checked (headerTimestamp sampleRate d.buf) sampleRate d.logDue
    let (sd, calls) ← receiveDatagram st.1 sampleRate write d
    let rings ← deliver checked sh calls st.2
    some (sd, rings)

/-- The `write_from_at` calls of a datagram. -/
def SocketData.writes (sd : SocketData S) (w : SampleWidth) (sampleRate : BitVec 32)
    (d : Datagram) : List (SinkWrite S) :=
  sd.channels.zipIdx.flatMap (channelWrites w (headerTimestamp sampleRate d.buf)
    (fun k => d.buf (9 + k)) (d.recvSize - 9) (sd.channels.length * w.bytes))

/-- `samples_count`. -/
def SocketData.samplesCount (sd : SocketData S) (d : Datagram) : Nat :=
  (d.recvSize - 9) / (sd.channels.length * sd.bytesPerSample)

section Datagram

variable {sd : SocketData S} {w : SampleWidth} {sampleRate : BitVec 32} {d : Datagram}

theorem sinkWrites_writes (hn : 0 < sd.channels.length) (hw : sd.bytesPerSample = w.bytes) :
    sinkWrites sd.bytesPerSample sd.channels (headerTimestamp sampleRate d.buf) d.buf d.recvSize =
      some (sd.writes w sampleRate d) := by
  have hpos := w.bytes_pos
  have hstride : sd.channels.length * w.bytes ≠ 0 := Nat.ne_of_gt (Nat.mul_pos hn hpos)
  rw [sinkWrites, hw, if_neg (by omega), SampleWidth.ofBytes?_bytes]
  rfl

/-- The reader of a call: the lane of its channel, and the samples announced. -/
theorem mem_writes {c : SinkWrite S} (hc : c ∈ sd.writes w sampleRate d) :
    c.width = w ∧ c.reader.len = d.recvSize - 9 ∧
      c.reader.stride = sd.channels.length * w.bytes ∧
      c.reader.remainingSamples = BitVec.ofNat 64
        ((d.recvSize - 9) / (sd.channels.length * w.bytes)) ∧
      ∃ i < sd.channels.length, c.reader.readPos = i * w.bytes := by
  obtain ⟨⟨ch, i⟩, hmem, hc⟩ := List.mem_flatMap.mp hc
  have hi := (List.mem_zipIdx' hmem).1
  cases ch with
  | none => cases hc
  | some ch =>
      obtain ⟨sink, _, rfl⟩ := List.mem_map.mp hc
      exact ⟨rfl, rfl, rfl, rfl, i, hi, rfl⟩

/-- The sinks of the calls are those of the channels. -/
theorem forall_writes {P : S → Prop} :
    (∀ c ∈ sd.writes w sampleRate d, P c.sink) ↔
      ∀ ch, some ch ∈ sd.channels → ∀ sink ∈ ch.sinks, P sink := by
  constructor
  · intro h ch hch sink hsink
    obtain ⟨i, hi, heq⟩ := List.mem_iff_getElem.mp hch
    refine h { sink, startTimestamp := _, width := w, reader := _ }
      (List.mem_flatMap.mpr ⟨(some ch, i), ?_, List.mem_map.mpr ⟨sink, hsink, rfl⟩⟩)
    rw [List.mem_zipIdx_iff_getElem?, List.getElem?_eq_getElem hi, heq]
  · intro h c hc
    obtain ⟨⟨ch, i⟩, hmem, hc⟩ := List.mem_flatMap.mp hc
    cases ch with
    | none => cases hc
    | some ch =>
        obtain ⟨sink, hsink, rfl⟩ := List.mem_map.mp hc
        refine h ch ?_ sink hsink
        rw [List.mem_zipIdx_iff_getElem?] at hmem
        exact List.mem_of_getElem? hmem

/-- What a datagram of at most `MTU` bytes announces to a sink, it yields. -/
theorem writes_exact (checked : Bool) (hmtu : d.recvSize ≤ MTU) {c : SinkWrite S}
    (hc : c ∈ sd.writes w sampleRate d) :
    c.Exact checked ∧ c.reader.remainingSamples.toNat =
      (d.recvSize - 9) / (sd.channels.length * w.bytes) := by
  obtain ⟨hwidth, hlen, hstride, hrem, i, hi, hpos⟩ := mem_writes hc
  have hcount : (d.recvSize - 9) / (sd.channels.length * w.bytes) < 2 ^ 64 := by
    have hle := Nat.div_le_self (d.recvSize - 9) (sd.channels.length * w.bytes)
    rw [MTU] at hmtu
    omega
  have htoNat : c.reader.remainingSamples.toNat =
      (d.recvSize - 9) / (sd.channels.length * w.bytes) := by
    rw [hrem, BitVec.toNat_ofNat, Nat.mod_eq_of_lt hcount]
  have hlane : i * w.bytes + w.bytes ≤ sd.channels.length * w.bytes := by
    rw [← Nat.succ_mul]
    exact Nat.mul_le_mul_right _ hi
  have hfull := Nat.div_mul_le_self (d.recvSize - 9) (sd.channels.length * w.bytes)
  refine ⟨?_, htoNat⟩
  unfold SinkWrite.Exact SinkWrite.items
  rw [htoNat]
  exact SamplesReader.pull_collect checked hcount hrem (by rw [hpos, hlen, hstride, hwidth]; omega)

/-- The state a round leaves, without the calls it makes. -/
theorem receiveDatagram_writes (hn : 0 < sd.channels.length) (hw : sd.bytesPerSample = w.bytes)
    (write : Bool) (hstats : (sd.stats.update (headerTimestamp sampleRate d.buf) sampleRate
      d.logDue).isSome) :
    ∃ sd', receiveDatagram sd sampleRate write d =
        some (sd', if write then sd.writes w sampleRate d else []) ∧
      sd'.channels = sd.channels ∧ sd'.bytesPerSample = sd.bytesPerSample := by
  obtain ⟨stats, hstats⟩ := Option.isSome_iff_exists.mp hstats
  have hcalls := @sinkWrites_writes S sd w sampleRate d hn hw
  unfold receiveDatagram
  simp only [Option.bind_eq_bind]
  rw [hstats, Option.bind_some]
  cases write with
  | false => exact ⟨_, rfl, rfl, rfl⟩
  | true =>
      rw [if_pos rfl, hcalls, Option.bind_some]
      exact ⟨_, rfl, rfl, rfl⟩

end Datagram

theorem FlowStats.Fits.update_isSome {checked : Bool} {stats : FlowStats} {timestamp : Clock}
    {sampleRate : BitVec 32} (h : stats.Fits checked timestamp sampleRate) (logDue : Bool) :
    (stats.update timestamp sampleRate logDue).isSome := by
  rw [← updateIn_false, updateIn_isSome_iff]
  refine ⟨fun hc => (nomatch hc), fun hlast => ?_⟩
  obtain ⟨hrate, -, hmissed⟩ := h.2 hlast
  exact ⟨hrate, fun hc => (nomatch hc), fun hgap => ⟨(hmissed hgap).1, fun hc => (nomatch hc)⟩⟩

/-- `receive` survives a datagram exactly if it is too small to be looked at,
or the statistics stand its timestamp, every ring is longer than the samples
the datagram holds for each channel and, with overflow checks, no scan counts
past `usize::MAX`. -/
theorem receive_isSome_iff [DecidableEq S] (checked : Bool) (sh : S → RingShared)
    (sampleRate : BitVec 32) (write : Bool) (d : Datagram) (sd : SocketData S) (w : SampleWidth)
    (rings : S → RingState Sample) (hn : 0 < sd.channels.length)
    (hw : sd.bytesPerSample = w.bytes) (hmtu : d.recvSize ≤ MTU) :
    (receiveDatagramIn checked sh sampleRate write d (sd, rings)).isSome ↔
      d.recvSize < 9 ∨
      (sd.stats.Fits checked (headerTimestamp sampleRate d.buf) sampleRate ∧
        (write = true →
          (∀ ch, some ch ∈ sd.channels → ∀ sink ∈ ch.sinks,
            sd.samplesCount d < (sh sink).itemsSize) ∧
          (checked = true → CountsFit sh (sd.writes w sampleRate d) rings))) := by
  unfold receiveDatagramIn
  by_cases hsize : d.recvSize < 9
  · rw [if_pos hsize]
    exact ⟨fun _ => .inl hsize, fun _ => rfl⟩
  rw [if_neg hsize, or_iff_right hsize, ← FlowStats.updateIn_isSome_iff checked sd.stats
    (headerTimestamp sampleRate d.buf) sampleRate d.logDue]
  simp only [Option.bind_eq_bind]
  cases hup : sd.stats.updateIn checked (headerTimestamp sampleRate d.buf) sampleRate d.logDue with
  | none => simp
  | some stats =>
      have hfits : sd.stats.Fits checked (headerTimestamp sampleRate d.buf) sampleRate := by
        rw [← FlowStats.updateIn_isSome_iff checked _ _ _ d.logDue, hup]
        rfl
      obtain ⟨sd', hrecv, -, -⟩ := receiveDatagram_writes hn hw write
        (hfits.update_isSome d.logDue)
      rw [Option.bind_some, hrecv, Option.bind_some]
      simp only [Option.isSome_some, true_and]
      cases write with
      | false => simp [deliver]
      | true =>
          have hexact := fun c hc => @writes_exact S sd w sampleRate d checked hmtu c hc
          have hshort : (∀ c ∈ sd.writes w sampleRate d,
              c.reader.remainingSamples.toNat < (sh c.sink).itemsSize) ↔
              ∀ ch, some ch ∈ sd.channels → ∀ sink ∈ ch.sinks,
                sd.samplesCount d < (sh sink).itemsSize := by
            rw [SocketData.samplesCount, hw]
            refine Iff.trans ?_ (@forall_writes S sd w sampleRate d
              fun sink => _ < (sh sink).itemsSize)
            exact forall₂_congr fun c hc => by rw [(hexact c hc).2]
          rw [if_pos rfl, isSome_bind_iff (Q := True) fun _ => by simp,
            deliver_isSome_iff checked sh (fun c hc => (hexact c hc).1), hshort, and_true]
          exact ⟨fun h _ => h, fun h => h rfl⟩

/-- A flow of one 16-bit channel with one sink. -/
def monoSocket : SocketData Unit where
  lastSource := none
  lastPacketTime := 0
  bytesPerSample := 2
  channels := [some { sinks := [()], timestampShift := 0, latencySamples := 0 }]
  actualLatencySamples := 0
  stats := .new

/-- Four samples. -/
def shortDatagram : Datagram where
  buf := fun p => BitVec.ofNat 8 p
  recvSize := 17
  src := ⟨0, 0⟩
  now := none
  elapsed := 0
  logDue := false

theorem receive_isSome_iff_short :
    (receiveDatagramIn true (fun _ => ownedShared 8 (by decide)) 48000 true shortDatagram
      (monoSocket, fun _ => newOwned 0 3)).isSome ↔
      shortDatagram.recvSize < 9 ∨
      (monoSocket.stats.Fits true (headerTimestamp 48000 shortDatagram.buf) 48000 ∧
        (true = true →
          (∀ ch, some ch ∈ monoSocket.channels → ∀ sink ∈ ch.sinks,
            monoSocket.samplesCount shortDatagram <
              ((fun _ => ownedShared 8 (by decide)) sink : RingShared).itemsSize) ∧
          (true = true → CountsFit (fun _ => ownedShared 8 (by decide))
            (monoSocket.writes .s16 48000 shortDatagram) fun _ => newOwned 0 3))) :=
  receive_isSome_iff true _ 48000 true shortDatagram monoSocket .s16 _ (by decide) rfl (by decide)

/-! ## Long rings -/

theorem FlowStats.fits_of_rate (stats : FlowStats) (timestamp : Clock) {sampleRate : BitVec 32}
    (hrate : 1000 ≤ sampleRate.toNat) : stats.Fits false timestamp sampleRate := by
  obtain ⟨stats', hup⟩ := FlowStats.update_isSome stats timestamp false (.inl hrate)
  rw [← updateIn_isSome_iff false stats timestamp sampleRate false, updateIn_false, hup]
  rfl

/-- A datagram holds at most 745 samples a channel. -/
theorem samplesCount_le {sd : SocketData S} {w : SampleWidth} {d : Datagram}
    (hn : 0 < sd.channels.length) (hw : sd.bytesPerSample = w.bytes) (hmtu : d.recvSize ≤ MTU) :
    sd.samplesCount d ≤ 745 := by
  have htwo : 2 ≤ w.bytes := by cases w <;> decide
  have hstride : 1 * 2 ≤ sd.channels.length * w.bytes := Nat.mul_le_mul hn htwo
  rw [MTU] at hmtu
  calc sd.samplesCount d = (d.recvSize - 9) / (sd.channels.length * w.bytes) := by
        rw [SocketData.samplesCount, hw]
    _ ≤ (d.recvSize - 9) / (1 * 2) := Nat.div_le_div_left hstride (by decide)
    _ ≤ 1491 / 2 := Nat.div_le_div_right (by omega)

/-- `receive`: the datagrams that wait, up to the first that is too small. -/
def receiveIn [DecidableEq S] (checked : Bool) (sh : S → RingShared) (sampleRate : BitVec 32)
    (write : Bool) : List Datagram → SocketData S × (S → RingState Sample) →
    Option (SocketData S × (S → RingState Sample))
  | [], st => some st
  | d :: ds, st =>
      if d.recvSize < 9 then some st
      else (receiveDatagramIn checked sh sampleRate write d st).bind
        (receiveIn checked sh sampleRate write ds)

/-- A round leaves the format and the channels alone. -/
theorem receiveDatagramIn_format [DecidableEq S] {checked : Bool} {sh : S → RingShared}
    {sampleRate : BitVec 32} {write : Bool} {d : Datagram} {sd sd' : SocketData S}
    {w : SampleWidth} {rings rings' : S → RingState Sample} (hn : 0 < sd.channels.length)
    (hw : sd.bytesPerSample = w.bytes)
    (h : receiveDatagramIn checked sh sampleRate write d (sd, rings) = some (sd', rings')) :
    sd'.channels = sd.channels ∧ sd'.bytesPerSample = sd.bytesPerSample := by
  unfold receiveDatagramIn at h
  by_cases hsize : d.recvSize < 9
  · rw [if_pos hsize] at h
    cases h
    exact ⟨rfl, rfl⟩
  · rw [if_neg hsize] at h
    obtain ⟨stats, hup, h⟩ := Option.bind_eq_some_iff.mp h
    obtain ⟨⟨sd₁, calls⟩, hrecv, h⟩ := Option.bind_eq_some_iff.mp h
    obtain ⟨rings₁, -, h⟩ := Option.bind_eq_some_iff.mp h
    cases h
    have hfits := (FlowStats.updateIn_isSome_iff checked _ _ _ d.logDue).mp
      (Option.isSome_iff_exists.mpr ⟨stats, hup⟩)
    obtain ⟨sd₂, hsome, hch, hbytes⟩ := receiveDatagram_writes hn hw write
      (hfits.update_isSome d.logDue)
    cases hrecv.symm.trans hsome
    exact ⟨hch, hbytes⟩

/-- From 1000 Hz and rings of 1024 samples on, no run of datagrams stops a
build without overflow checks. -/
theorem receiveIn_isSome [DecidableEq S] (sh : S → RingShared) {sampleRate : BitVec 32}
    (hrate : 1000 ≤ sampleRate.toNat) (write : Bool) {w : SampleWidth} {ds : List Datagram}
    (hmtu : ∀ d ∈ ds, d.recvSize ≤ MTU) {sd : SocketData S} (rings : S → RingState Sample)
    (hn : 0 < sd.channels.length) (hw : sd.bytesPerSample = w.bytes)
    (hlong : ∀ ch, some ch ∈ sd.channels → ∀ sink ∈ ch.sinks, 1024 ≤ (sh sink).itemsSize) :
    (receiveIn false sh sampleRate write ds (sd, rings)).isSome := by
  induction ds generalizing sd rings with
  | nil => rfl
  | cons d ds ih =>
      have hd := hmtu d List.mem_cons_self
      rw [receiveIn]
      by_cases hsize : d.recvSize < 9
      · rw [if_pos hsize]
        rfl
      · have hround : (receiveDatagramIn false sh sampleRate write d (sd, rings)).isSome := by
          have hcount := samplesCount_le hn hw hd
          rw [receive_isSome_iff false sh sampleRate write d sd w rings hn hw hd]
          refine .inr ⟨sd.stats.fits_of_rate _ hrate, fun _ => ⟨?_, fun hc => (nomatch hc)⟩⟩
          exact fun ch hch sink hsink =>
            Nat.lt_of_le_of_lt hcount (Nat.lt_of_lt_of_le (by decide) (hlong ch hch sink hsink))
        obtain ⟨⟨sd', rings'⟩, hround⟩ := Option.isSome_iff_exists.mp hround
        obtain ⟨hch, hbytes⟩ := receiveDatagramIn_format hn hw hround
        rw [if_neg hsize, hround, Option.bind_some]
        exact ih (fun d hd => hmtu d (List.mem_cons_of_mem _ hd)) rings' (hch ▸ hn)
          (hbytes.trans hw) (hch ▸ hlong)

/-! ## Configured rings -/

/-- "Validate and clamp rx_buffer_samples to next power of 2"; above `2^31`
there is none, and without overflow checks it comes out as zero. -/
def clampRxBufferSamples (rxBufferSamples : BitVec 32) : BitVec 32 :=
  if rxBufferSamples = 0 then 524288
  else if rxBufferSamples.toNat.isPowerOfTwo then rxBufferSamples
  else BitVec.ofNat 32 (nextPowerOfTwo rxBufferSamples.toNat)

theorem clampRxBufferSamples_le (rxBufferSamples : BitVec 32) :
    (clampRxBufferSamples rxBufferSamples).toNat ≤ 2 ^ 61 := by
  have hlt := (clampRxBufferSamples rxBufferSamples).isLt
  omega

/-- The ring `OwnedBuffering` makes for a channel. -/
def rxShared (rxBufferSamples : BitVec 32) : RingShared :=
  ownedShared (clampRxBufferSamples rxBufferSamples).toNat
    (clampRxBufferSamples_le rxBufferSamples)

theorem le_nextPowerOfTwo (n : Nat) : n ≤ nextPowerOfTwo n := by
  unfold nextPowerOfTwo
  split
  · assumption
  · have hlog := @Nat.lt_log2_self (n - 1)
    omega

theorem nextPowerOfTwo_of_isPowerOfTwo {n : Nat} (h : n.isPowerOfTwo) : nextPowerOfTwo n = n := by
  obtain ⟨k, rfl⟩ := h
  exact Nat.le_antisymm (nextPowerOfTwo_le (Nat.le_refl _)) (le_nextPowerOfTwo _)

/-- The settings that make rings no datagram overruns. -/
theorem rxShared_long_iff (rxBufferSamples : BitVec 32) :
    1024 ≤ (rxShared rxBufferSamples).itemsSize ↔
      rxBufferSamples = 0 ∨ 512 < rxBufferSamples.toNat ∧ rxBufferSamples.toNat ≤ 2 ^ 31 := by
  show 1024 ≤ nextPowerOfTwo (clampRxBufferSamples rxBufferSamples).toNat ↔ _
  have hlt := rxBufferSamples.isLt
  -- a power of two above 512 is at least 1024
  have hjump : ∀ n : Nat, n.isPowerOfTwo → (1024 ≤ n ↔ 512 < n) := by
    rintro _ ⟨k, rfl⟩
    rw [show 1024 = 2 ^ 10 from rfl, show 512 = 2 ^ 9 from rfl,
      Nat.pow_le_pow_iff_right (by decide), Nat.pow_lt_pow_iff_right (by decide)]
    exact Nat.succ_le_iff
  unfold clampRxBufferSamples
  by_cases hzero : rxBufferSamples = 0
  · rw [if_pos hzero]
    exact ⟨fun _ => .inl hzero, fun _ => by decide⟩
  rw [if_neg hzero, or_iff_right hzero]
  by_cases hpow : rxBufferSamples.toNat.isPowerOfTwo
  · rw [if_pos hpow, nextPowerOfTwo_of_isPowerOfTwo hpow, hjump _ hpow]
    obtain ⟨k, hk⟩ := hpow
    rw [hk] at hlt ⊢
    have hexp : k < 32 := (Nat.pow_lt_pow_iff_right (by decide)).mp hlt
    have hle : 2 ^ k ≤ 2 ^ 31 := Nat.pow_le_pow_right (by decide) (Nat.le_of_lt_succ hexp)
    exact ⟨fun h => ⟨h, hle⟩, fun h => h.1⟩
  · rw [if_neg hpow, BitVec.toNat_ofNat]
    have hge := le_nextPowerOfTwo rxBufferSamples.toNat
    by_cases hbig : rxBufferSamples.toNat ≤ 2 ^ 31
    · have hfit := nextPowerOfTwo_le hbig
      rw [Nat.mod_eq_of_lt (by omega),
        nextPowerOfTwo_of_isPowerOfTwo (isPowerOfTwo_nextPowerOfTwo _),
        hjump _ (isPowerOfTwo_nextPowerOfTwo _), and_iff_left hbig]
      refine ⟨fun h => ?_, fun h => Nat.lt_of_lt_of_le h hge⟩
      by_contra hsmall
      exact absurd (@nextPowerOfTwo_le _ 9 (Nat.not_lt.mp hsmall)) (Nat.not_le.mpr h)
    · have hfull : nextPowerOfTwo rxBufferSamples.toNat = 2 ^ 32 := by
        refine Nat.le_antisymm (nextPowerOfTwo_le (Nat.le_of_lt hlt)) ?_
        obtain ⟨k, hk⟩ := isPowerOfTwo_nextPowerOfTwo rxBufferSamples.toNat
        rw [hk] at hge ⊢
        refine Nat.pow_le_pow_right (by decide) ?_
        exact (Nat.pow_lt_pow_iff_right (by decide)).mp (show 2 ^ 31 < 2 ^ k by omega)
      rw [hfull, Nat.mod_self]
      exact ⟨fun h => absurd h (by decide), fun h => absurd h.2 hbig⟩

/-- A ring for four samples is configured, and four samples are received. -/
theorem small_ring_panics :
    ¬∀ (rxBufferSamples sampleRate : BitVec 32) (write : Bool) (d : Datagram)
      (sd : SocketData Unit) (w : SampleWidth) (startTime holeFixWait : Usize),
      0 < rxBufferSamples → 1000 ≤ sampleRate → 0 < sd.channels.length →
      sd.bytesPerSample = w.bytes → d.recvSize ≤ MTU →
      (receiveDatagramIn false (fun _ => rxShared rxBufferSamples) sampleRate write d
        (sd, fun _ => newOwned startTime holeFixWait)).isSome := by
  intro h
  have hsome := h 4 48000 true shortDatagram monoSocket .s16 0 4800 (by decide) (by decide)
    (by decide) rfl (by decide)
  exact absurd hsome (by decide)

end Inferno
