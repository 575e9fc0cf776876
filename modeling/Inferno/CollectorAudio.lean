import Inferno.SamplesCollector

/-!
# What the callback of the samples collector gets

The buffers of the channels are used again from tick to tick, and `read_at`
writes only to a part of the slice it gets. `audioAt` is what stands at an index
after the tick: the value the ring's timeline has for that time, if the ring
could be read there, else zero. It does not depend on what the buffer was.

`collector_faithful` is for every run, with all the rings there are written to
between the ticks.
-/

namespace Inferno

open Function

/-! ## Clearing -/

namespace CollectorChannel

theorem length_clearStart {buffer : List Sample} {n : Nat} (h : n ≤ buffer.length) :
    (clearStart buffer n).length = buffer.length := by
  rw [clearStart, List.length_append, List.length_replicate, List.length_drop]
  omega

theorem length_clearEnd {buffer : List Sample} {n : Nat} (h : n ≤ buffer.length) :
    (clearEnd buffer n).length = buffer.length := by
  rw [clearEnd, List.length_append, List.length_replicate, List.length_take]
  omega

theorem clearStart_getElem? {buffer : List Sample} {n i : Nat} :
    (clearStart buffer n)[i]? = if i < n then some 0 else buffer[i]? := by
  rw [clearStart]
  split
  · next hlt =>
      rw [List.getElem?_append_left (by rw [List.length_replicate]; exact hlt),
        List.getElem?_replicate_of_lt hlt]
  · next hge =>
      have hle : n ≤ i := Nat.le_of_not_lt hge
      rw [List.getElem?_append_right (by rw [List.length_replicate]; exact hle),
        List.length_replicate, List.getElem?_drop, Nat.add_sub_cancel' hle]

theorem clearEnd_getElem? {buffer : List Sample} {n i : Nat} (h : n ≤ buffer.length)
    (hi : i < buffer.length) :
    (clearEnd buffer n)[i]? = if i < n then buffer[i]? else some 0 := by
  have htake : (buffer.take n).length = n := by
    rw [List.length_take]
    exact Nat.min_eq_left h
  rw [clearEnd]
  split
  · next hlt =>
      rw [List.getElem?_append_left (by rw [htake]; exact hlt), List.getElem?_take_of_lt hlt]
  · next hge =>
      have hle : n ≤ i := Nat.le_of_not_lt hge
      rw [List.getElem?_append_right (by rw [htake]; exact hle), htake,
        List.getElem?_replicate_of_lt (by omega)]

theorem length_finishRead (ch : CollectorChannel) (holesCount : Usize) {out : List Sample}
    {r : ReadResult} (hstart : r.usefulStartIndex ≤ out.length)
    (hend : r.usefulEndIndex ≤ out.length) :
    (ch.finishRead holesCount out r).2.1.length = out.length := by
  have hlen := length_clearStart hstart
  rw [finishRead, length_clearEnd (by rw [hlen]; exact hend), hlen]

/-- Outside the useful range everything is cleared. -/
theorem finishRead_getElem? (ch : CollectorChannel) (holesCount : Usize) {out : List Sample}
    {r : ReadResult} (hstart : r.usefulStartIndex ≤ out.length)
    (hend : r.usefulEndIndex ≤ out.length) {i : Nat} (hi : i < out.length) :
    (r.Useful i → (ch.finishRead holesCount out r).2.1[i]? = out[i]?) ∧
      (¬r.Useful i → (ch.finishRead holesCount out r).2.1[i]? = some 0) := by
  have hlen := length_clearStart hstart
  have hget : (ch.finishRead holesCount out r).2.1[i]? =
      if i < r.usefulEndIndex then (if i < r.usefulStartIndex then some 0 else out[i]?)
      else some 0 := by
    rw [finishRead, clearEnd_getElem? (by rw [hlen]; exact hend) (by rw [hlen]; exact hi),
      clearStart_getElem?]
  refine ⟨fun ⟨h1, h2⟩ => ?_, fun hnot => ?_⟩
  · rw [hget, if_pos h2, if_neg (Nat.not_lt.mpr h1)]
  · rw [hget]
    split
    · next h2 => rw [if_pos (Nat.lt_of_not_le fun h1 => hnot ⟨h1, h2⟩)]
    · rfl

end CollectorChannel

/-! ## One channel at a tick -/

/-- A ring that has a timeline. -/
structure TimedRing where
  shared : RingShared
  mem : RingMem Sample
  timeline : Timeline Sample

/-- `start + i` can be read: the ring has got as far as `readable_until`, which
is at most a lap past `start`, and the time is in the window of the ring. -/
structure TimedRing.Covers (ring : TimedRing) (readableUntil start : Clock) (i : Nat) : Prop where
  reached : 0 ≤ wrappedDiff ring.mem.readablePos readableUntil
  lap : wrapsub ring.mem.readablePos start ≤ ring.shared.itemsSize
  kept : wrapsub ring.mem.writingPos start - ring.shared.itemsSize ≤ i
  readable : i < wrapsub ring.mem.readablePos start

instance (ring : TimedRing) (readableUntil start : Clock) (i : Nat) :
    Decidable (ring.Covers readableUntil start i) :=
  decidable_of_iff (0 ≤ wrappedDiff ring.mem.readablePos readableUntil ∧
      wrapsub ring.mem.readablePos start ≤ ring.shared.itemsSize ∧
      wrapsub ring.mem.writingPos start - ring.shared.itemsSize ≤ i ∧
      i < wrapsub ring.mem.readablePos start)
    ⟨fun ⟨h1, h2, h3, h4⟩ => ⟨h1, h2, h3, h4⟩, fun ⟨h1, h2, h3, h4⟩ => ⟨h1, h2, h3, h4⟩⟩

/-- What the ring's timeline has for `start + i`. -/
def TimedRing.valueAt (ring : TimedRing) (start : Clock) (i : Nat) : Sample :=
  ring.timeline.value (ring.timeline.place start + i)

/-- What a tick puts at an index, for a channel that reads this ring. -/
def TimedRing.audioAt (ring : TimedRing) (readableUntil start : Clock) (i : Nat) : Sample :=
  if ring.Covers readableUntil start i then ring.valueAt start i else 0

/-- What a tick puts at an index of a channel's buffer. -/
def audioAt (rings : Nat → TimedRing) (readableUntil start : Clock)
    (channel : Option CollectorChannel) (i : Nat) : Sample :=
  match channel with
  | some ch => (rings ch.source).audioAt readableUntil start i
  | none => 0

/-- The rings as the collector finds them. -/
def foundRings (rings : Nat → TimedRing) (k : Nat) : CollectorRing :=
  ((rings k).shared, (rings k).mem)

/-- All the rings read as their timelines. -/
def RingsFaithful (rings : Nat → TimedRing) : Prop :=
  ∀ k, ReadsTimeline (rings k).shared (rings k).mem (rings k).timeline

section

variable {rings : Nat → TimedRing}

theorem cleared_serves {buffer : List Sample} {n : Nat} (h : n ≤ buffer.length) :
    (CollectorChannel.clearStart buffer n).length = buffer.length ∧
      ∀ i < n, (CollectorChannel.clearStart buffer n)[i]? = some 0 := by
  refine ⟨CollectorChannel.length_clearStart h, fun i hi => ?_⟩
  rw [CollectorChannel.clearStart_getElem?, if_pos hi]

/-- The slice of a channel at a tick, whatever was in its buffer. -/
theorem serveChannel_spec (hrings : RingsFaithful rings) (ru : Clock) (iv : Interval)
    (channel : Option CollectorChannel) {buffer : List Sample} (hlen : iv.count ≤ buffer.length) :
    ∃ y, serveChannel (foundRings rings) ru iv (channel, buffer) = some y ∧
      y.2.length = buffer.length ∧
      ∀ i < iv.count, y.2[i]? = some (audioAt rings ru iv.start channel i) := by
  cases channel with
  | none => exact ⟨_, rfl, cleared_serves hlen⟩
  | some ch =>
      rw [serveChannel]
      split
      · next hbehind =>
          obtain ⟨hlen', hzero⟩ := cleared_serves hlen
          refine ⟨_, rfl, hlen', fun i hi => ?_⟩
          rw [audioAt, TimedRing.audioAt, if_neg fun hc => Int.not_le.mpr hbehind hc.reached]
          exact hzero i hi
      · next hreached =>
          have htake : (buffer.take iv.count).length = iv.count := by
            rw [List.length_take]
            exact Nat.min_eq_left hlen
          obtain ⟨out, r, hexec, hout, huseful, hvalue⟩ :=
            hrings ch.source iv.start (buffer.take iv.count)
          obtain ⟨out', r', hexec', _, hstart, hend⟩ :=
            RBOutput.readAt_succeeds (rings ch.source).shared (rings ch.source).mem iv.start
              (buffer.take iv.count)
          rw [hexec] at hexec'
          obtain ⟨⟨rfl, rfl⟩, _⟩ : (out = out' ∧ r = r') ∧ True := by simpa using hexec'
          rw [htake] at hout hstart hend huseful
          rw [← hout] at hstart hend
          have hslice := ch.length_finishRead (rings ch.source).mem.holesCount hstart hend
          refine ⟨(some (ch.finishRead (rings ch.source).mem.holesCount out r).1,
            (ch.finishRead (rings ch.source).mem.holesCount out r).2.1 ++ buffer.drop iv.count),
            ?_, ?_, fun i hi => ?_⟩
          · rw [foundRings, readSamples_exec hexec]
            rfl
          · rw [List.length_append, hslice, hout, List.length_drop]
            omega
          · obtain ⟨hin, hoff⟩ := ch.finishRead_getElem? (rings ch.source).mem.holesCount hstart
              hend (hout ▸ hi)
            have hcovers : (rings ch.source).Covers ru iv.start i ↔ r.Useful i := by
              rw [huseful]
              constructor
              · rintro ⟨_, hlap, hkept, hread⟩
                exact ⟨hi, by omega, hlap, hkept, hread⟩
              · rintro ⟨_, _, hlap, hkept, hread⟩
                exact ⟨Int.not_lt.mp hreached, hlap, hkept, hread⟩
            rw [List.getElem?_append_left (by rw [hslice, hout]; exact hi), audioAt,
              TimedRing.audioAt]
            by_cases hi' : r.Useful i
            · rw [if_pos (hcovers.mpr hi'), hin hi', hvalue i hi']
              rfl
            · rw [if_neg fun hc => hi' (hcovers.mp hc), hoff hi']

/-! ## A tick -/

/-- A buffer for each channel, of the size they are created with. -/
structure Collector.Sized (c : Collector) : Prop where
  channels : c.channels.length = c.buffers.length
  buffers : ∀ buffer ∈ c.buffers, buffer.length = BUFFER_SIZE

/-- Every channel has its audio in the buffers handed over. -/
def Delivers (rings : Nat → TimedRing) (ru : Clock) (channels : List (Option CollectorChannel))
    (d : Delivery) : Prop :=
  List.Forall₂ (fun channel buffer => ∀ i < d.interval.count,
    buffer[i]? = some (audioAt rings ru d.interval.start channel i)) channels d.buffers

theorem nextInterval_count_le (ru start : Clock) : (nextInterval ru start).count ≤ BUFFER_SIZE := by
  unfold nextInterval
  split
  · exact Nat.min_le_right _ _
  · exact Nat.min_le_right _ _

/-- The loop over the channels. -/
theorem Collector.Sized.serve {c : Collector} (hsized : c.Sized) (hrings : RingsFaithful rings)
    (ru : Clock) {iv : Interval} (hcount : iv.count ≤ BUFFER_SIZE) :
    ∃ served, (c.channels.zip c.buffers).mapM (serveChannel (foundRings rings) ru iv) =
        some served ∧
      (∀ y ∈ served, y.2.length = BUFFER_SIZE) ∧
      Delivers rings ru c.channels ⟨iv, served.map (·.2)⟩ := by
  have hserve : ∀ x ∈ c.channels.zip c.buffers, ∃ y,
      serveChannel (foundRings rings) ru iv x = some y ∧ y.2.length = BUFFER_SIZE ∧
        ∀ i < iv.count, y.2[i]? = some (audioAt rings ru iv.start x.1 i) := by
    rintro ⟨channel, buffer⟩ hx
    have hbuffer := hsized.buffers buffer (List.of_mem_zip hx).2
    obtain ⟨y, hy, hlen, haudio⟩ := serveChannel_spec hrings ru iv channel (hbuffer ▸ hcount)
    exact ⟨y, hy, hlen.trans hbuffer, haudio⟩
  obtain ⟨served, hserved, hall⟩ := mapM_succeeds hserve
  refine ⟨served, hserved, fun y hy => ?_, ?_⟩
  · obtain ⟨i, hi, rfl⟩ := List.mem_iff_getElem.mp hy
    exact (hall.get (hall.length_eq ▸ hi) hi).1
  · rw [Delivers, List.forall₂_map_right_iff]
    have hfst := List.map_fst_zip (Nat.le_of_eq hsized.channels)
    rw [← hfst, List.forall₂_map_left_iff]
    exact hall.imp fun _ _ hxy => hxy.2

/-- A tick with a clock, when the channels have been served. -/
theorem Collector.tick_eq {found : Nat → CollectorRing} {c : Collector}
    {minEnd maxEnd start : Clock} {served : List (Option CollectorChannel × List Sample)}
    (hends : getMinMaxEndTimestamps (endTimestamps found c.channels) = some (minEnd, maxEnd))
    (hclock : c.clock = some start)
    (hserved : (c.channels.zip c.buffers).mapM (serveChannel found (readableUntil minEnd maxEnd)
      (nextInterval (readableUntil minEnd maxEnd) start)) = some served) :
    c.tick found = some (⟨served.map (·.1), served.map (·.2),
        some (nextInterval (readableUntil minEnd maxEnd) start).fin⟩,
      some ⟨nextInterval (readableUntil minEnd maxEnd) start, served.map (·.2)⟩) := by
  simp only [Collector.tick, hends, hclock, hserved, Option.bind_eq_bind, Option.bind_some]

/-- A tick does not panic, and delivers the audio. -/
theorem Collector.Sized.tick {c : Collector} (hsized : c.Sized) (hrings : RingsFaithful rings) :
    ∃ c' out, c.tick (foundRings rings) = some (c', out) ∧ c'.Sized ∧
      ∀ d, out = some d → ∃ minEnd maxEnd start,
        getMinMaxEndTimestamps (endTimestamps (foundRings rings) c.channels) =
          some (minEnd, maxEnd) ∧
        c.clock = some start ∧ d.interval = nextInterval (readableUntil minEnd maxEnd) start ∧
        Delivers rings (readableUntil minEnd maxEnd) c.channels d := by
  cases hends : getMinMaxEndTimestamps (endTimestamps (foundRings rings) c.channels) with
  | none =>
      refine ⟨c, none, ?_, hsized, fun d hd => by cases hd⟩
      rw [Collector.tick, hends]
  | some ends =>
      obtain ⟨minEnd, maxEnd⟩ := ends
      cases hclock : c.clock with
      | none =>
          refine ⟨{ c with clock := some (readableUntil minEnd maxEnd) }, none, ?_,
            ⟨hsized.channels, hsized.buffers⟩, fun d hd => by cases hd⟩
          simp only [Collector.tick, hends, hclock]
      | some start =>
          have hcount := nextInterval_count_le (readableUntil minEnd maxEnd) start
          obtain ⟨served, hserved, hlen, hdelivers⟩ := hsized.serve hrings
            (readableUntil minEnd maxEnd) hcount
          refine ⟨_, _, Collector.tick_eq hends hclock hserved, ⟨?_, ?_⟩, fun d hd => ?_⟩
          · rw [List.length_map, List.length_map]
          · intro buffer hmem
            obtain ⟨y, hy, rfl⟩ := List.mem_map.mp hmem
            exact hlen y hy
          · cases hd
            exact ⟨minEnd, maxEnd, start, rfl, rfl, rfl, hdelivers⟩

/-- What a callback gets is right: in each channel's buffer zeros and audio for
`start + i`; audio wherever it can be read; and nothing of what was in the
buffers before. -/
structure Faithful (rings : Nat → TimedRing) (c : Collector) (ru : Clock) (d : Delivery) :
    Prop where
  channels : d.buffers.length = c.channels.length
  audio : ∀ (k : Nat) (channel : Option CollectorChannel), c.channels[k]? = some channel →
    ∃ buffer, d.buffers[k]? = some buffer ∧ ∀ i < d.interval.count, buffer[i]? = some 0 ∨
      ∃ ch, channel = some ch ∧ buffer[i]? = some ((rings ch.source).valueAt d.interval.start i)
  covered : ∀ (k : Nat) (ch : CollectorChannel), c.channels[k]? = some (some ch) →
    ∃ buffer, d.buffers[k]? = some buffer ∧ ∀ i < d.interval.count,
      (rings ch.source).Covers ru d.interval.start i →
        buffer[i]? = some ((rings ch.source).valueAt d.interval.start i)
  fresh : ∀ buffers, Collector.Sized { c with buffers := buffers } →
    ∃ c' d', Collector.tick (foundRings rings) { c with buffers := buffers } = some (c', some d') ∧
      d'.interval = d.interval ∧
      d'.buffers.map (List.take d.interval.count) = d.buffers.map (List.take d.interval.count)

theorem Delivers.at {ru : Clock} {channels : List (Option CollectorChannel)} {d : Delivery}
    (h : Delivers rings ru channels d) {k : Nat} {channel : Option CollectorChannel}
    (hk : channels[k]? = some channel) : ∃ buffer, d.buffers[k]? = some buffer ∧
      ∀ i < d.interval.count, buffer[i]? = some (audioAt rings ru d.interval.start channel i) := by
  obtain ⟨hlt, rfl⟩ := List.getElem?_eq_some_iff.mp hk
  have hlt' : k < d.buffers.length := h.length_eq ▸ hlt
  exact ⟨d.buffers[k], List.getElem?_eq_getElem hlt', h.get hlt hlt'⟩

/-- The same audio for the same interval. -/
theorem Delivers.unique {ru : Clock} {channels : List (Option CollectorChannel)}
    {d d' : Delivery} (h : Delivers rings ru channels d) (h' : Delivers rings ru channels d')
    (hiv : d'.interval = d.interval) :
    d'.buffers.map (List.take d.interval.count) = d.buffers.map (List.take d.interval.count) := by
  refine List.ext_getElem? fun k => ?_
  rw [List.getElem?_map, List.getElem?_map]
  cases hk : channels[k]? with
  | none =>
      have hle := List.getElem?_eq_none_iff.mp hk
      rw [List.getElem?_eq_none (h'.length_eq ▸ hle), List.getElem?_eq_none (h.length_eq ▸ hle)]
  | some channel =>
      obtain ⟨buffer, hbuffer, haudio⟩ := h.at hk
      obtain ⟨buffer', hbuffer', haudio'⟩ := h'.at hk
      rw [hiv] at haudio'
      rw [hbuffer, hbuffer', Option.map_some, Option.map_some, Option.some.injEq]
      refine List.ext_getElem? fun i => ?_
      rw [List.getElem?_take, List.getElem?_take]
      split
      · next hi => rw [haudio i hi, haudio' i hi]
      · rfl

/-- Each tick is right as long as the rings are. -/
theorem Collector.Sized.faithful {c : Collector} (hsized : c.Sized) (hrings : RingsFaithful rings) :
    ∃ c' out, c.tick (foundRings rings) = some (c', out) ∧ c'.Sized ∧
      ∀ d, out = some d → ∃ minEnd maxEnd,
        getMinMaxEndTimestamps (endTimestamps (foundRings rings) c.channels) =
          some (minEnd, maxEnd) ∧ Faithful rings c (readableUntil minEnd maxEnd) d := by
  obtain ⟨c', out, htick, hsized', hdelivers⟩ := hsized.tick hrings
  refine ⟨c', out, htick, hsized', fun d hd => ?_⟩
  obtain ⟨minEnd, maxEnd, start, hends, hclock, hiv, hd'⟩ := hdelivers d hd
  refine ⟨minEnd, maxEnd, hends, hd'.length_eq.symm, fun k channel hk => ?_, fun k ch hk => ?_,
    fun buffers hsized₂ => ?_⟩
  · obtain ⟨buffer, hbuffer, haudio⟩ := hd'.at hk
    refine ⟨buffer, hbuffer, fun i hi => ?_⟩
    rw [haudio i hi]
    cases channel with
    | none => exact Or.inl rfl
    | some ch =>
        rw [audioAt, TimedRing.audioAt]
        split
        · exact Or.inr ⟨ch, rfl, rfl⟩
        · exact Or.inl rfl
  · obtain ⟨buffer, hbuffer, haudio⟩ := hd'.at hk
    refine ⟨buffer, hbuffer, fun i hi hcovers => ?_⟩
    rw [haudio i hi, audioAt, TimedRing.audioAt, if_pos hcovers]
  · obtain ⟨served, hserved, _, hd₂⟩ := hsized₂.serve hrings (readableUntil minEnd maxEnd)
      (nextInterval_count_le (readableUntil minEnd maxEnd) start)
    exact ⟨_, _, Collector.tick_eq hends hclock hserved, hiv.symm, hd'.unique hd₂ hiv.symm⟩

end

/-! ## Every run -/

/-- What an owned ring is created with. -/
structure OwnedRing where
  length : Nat
  length_le : length ≤ 2 ^ 61
  startTime : Usize
  holeFixWait : Usize
  wait_le : holeFixWait.toNat ≤ (ownedShared length length_le).itemsSize

def OwnedRing.shared (ring : OwnedRing) : RingShared := ownedShared ring.length ring.length_le

/-- The collector, and the rings with their writers and timelines. -/
structure AudioState where
  collector : Collector
  rings : Nat → RingState Sample
  timelines : Nat → Timeline Sample

namespace AudioState

def timedRings (cfg : Nat → OwnedRing) (s : AudioState) (k : Nat) : TimedRing :=
  ⟨(cfg k).shared, (s.rings k).2, s.timelines k⟩

def initial (cfg : Nat → OwnedRing) (channelsCount : Nat) : AudioState where
  collector := .new channelsCount
  rings k := newOwned (cfg k).startTime (cfg k).holeFixWait
  timelines k := .fresh (cfg k).startTime

end AudioState

/-- A tick, a command to the collector, or a call in the window of some ring. -/
inductive AudioStep (cfg : Nat → OwnedRing) (s : AudioState) : AudioState → Prop
  | tick {c : Collector} {out : Option Delivery} :
      s.collector.tick (foundRings (s.timedRings cfg)) = some (c, out) →
      AudioStep cfg s { s with collector := c }
  | command {cmd : CollectorCommand} {c : Collector} :
      s.collector.handleCommand cmd = some (c, true) → AudioStep cfg s { s with collector := c }
  | ring {k : Nat} {call : RingCall Sample} {ring : RingState Sample} :
      call.InWindow (cfg k).shared (s.rings k) →
      call.run (cfg k).shared (s.rings k) = some ring →
      AudioStep cfg s { s with
        rings := update s.rings k ring
        timelines := update s.timelines k (call.effect (s.timelines k)) }

namespace AudioState

variable {cfg : Nat → OwnedRing} {s s' : AudioState}

/-- The rings are steady, and each channel has its buffer. -/
structure Inv (cfg : Nat → OwnedRing) (s : AudioState) : Prop where
  sized : s.collector.Sized
  steady : ∀ k, ∃ R, RBInput.Steady (cfg k).shared (s.rings k).1 R ⟨(s.rings k).2, s.timelines k⟩
  wait : ∀ k, (s.rings k).1.holeFixWait = (cfg k).holeFixWait

theorem Inv.ringsFaithful (h : s.Inv cfg) : RingsFaithful (s.timedRings cfg) := by
  intro k
  obtain ⟨R, hsteady⟩ := h.steady k
  exact hsteady.readsTimeline rfl

theorem handleCommand_sized {c c' : Collector} {cmd : CollectorCommand} {b : Bool}
    (hsized : c.Sized) (h : c.handleCommand cmd = some (c', b)) : c'.Sized := by
  have hset : ∀ i channel, Collector.Sized { c with channels := c.channels.set i channel } := by
    intro i channel
    refine ⟨?_, hsized.buffers⟩
    dsimp only
    rw [List.length_set]
    exact hsized.channels
  cases cmd with
  | noOp =>
      cases h
      exact hsized
  | shutdown =>
      cases h
      exact hsized
  | connectChannel i source latency =>
      rw [Collector.handleCommand] at h
      split at h
      · cases h
        exact hset i _
      · cases h
  | disconnectChannel i =>
      rw [Collector.handleCommand] at h
      split at h
      · cases h
        exact hset i none
      · cases h

/-- A call in the window of a ring keeps it steady. -/
theorem Inv.ring (h : s.Inv cfg) {k : Nat} {call : RingCall Sample} {ring : RingState Sample}
    (hwindow : call.InWindow (cfg k).shared (s.rings k))
    (hrun : call.run (cfg k).shared (s.rings k) = some ring) :
    Inv cfg { s with
      rings := update s.rings k ring
      timelines := update s.timelines k (call.effect (s.timelines k)) } := by
  obtain ⟨R, hsteady⟩ := h.steady k
  have hfits := hwindow.fits hsteady (h.wait k ▸ (cfg k).wait_le)
  obtain ⟨inp, s₁, hexec, ⟨R₁, _, hsteady₁, hwait₁, htl₁⟩, _⟩ :=
    Prog.Wp.exec (fun _ => rfl) (RingCall.prog_runs hsteady hfits)
  have hring : call.run (cfg k).shared (s.rings k) = some (inp, s₁.mem) := by
    have hmem := exec_mem (call.prog (cfg k).shared (s.rings k).1)
      (⟨(s.rings k).2, s.timelines k⟩ : Traced Sample)
    rw [hexec] at hmem
    exact hmem
  rw [hrun] at hring
  cases hring
  refine ⟨h.sized, fun k' => ?_, fun k' => ?_⟩
  · by_cases hk : k' = k
    · subst hk
      refine ⟨R₁, ?_⟩
      dsimp only
      rw [update_self, update_self, ← htl₁]
      exact hsteady₁
    · dsimp only
      rw [update_of_ne hk, update_of_ne hk]
      exact h.steady k'
  · by_cases hk : k' = k
    · subst hk
      dsimp only
      rw [update_self, hwait₁]
      exact h.wait k'
    · dsimp only
      rw [update_of_ne hk]
      exact h.wait k'

theorem Inv.step (h : s.Inv cfg) (hstep : AudioStep cfg s s') : s'.Inv cfg := by
  cases hstep with
  | tick htick =>
      obtain ⟨c', out, htick', hsized, _⟩ := h.sized.tick h.ringsFaithful
      rw [htick] at htick'
      cases htick'
      exact ⟨hsized, h.steady, h.wait⟩
  | command hcmd => exact ⟨handleCommand_sized h.sized hcmd, h.steady, h.wait⟩
  | ring hwindow hrun => exact h.ring hwindow hrun

theorem initial_inv (cfg : Nat → OwnedRing) (channelsCount : Nat) :
    (initial cfg channelsCount).Inv cfg where
  sized := by
    refine ⟨?_, fun buffer hbuffer => ?_⟩
    · rw [initial, Collector.new, List.length_replicate, List.length_replicate]
    · rw [(List.mem_replicate.mp hbuffer).2, List.length_replicate]
  steady k := by
    have hN := (cfg k).shared.itemsSize_le
    exact ⟨_, steady_newOwned (Nat.le_trans (cfg k).wait_le (Nat.le_trans hN (by decide)))⟩
  wait _ := rfl

theorem reachable_inv {channelsCount : Nat}
    (h : Relation.ReflTransGen (AudioStep cfg) (initial cfg channelsCount) s) : s.Inv cfg := by
  induction h with
  | refl => exact initial_inv cfg channelsCount
  | tail _ hstep ih => exact ih.step hstep

end AudioState

/-- At every point of every run a tick does not panic, and what its callback
gets is right. -/
theorem collector_faithful {cfg : Nat → OwnedRing} {channelsCount : Nat} {s : AudioState}
    (h : Relation.ReflTransGen (AudioStep cfg) (.initial cfg channelsCount) s) :
    ∃ c out, s.collector.tick (foundRings (s.timedRings cfg)) = some (c, out) ∧
      ∀ d, out = some d → ∃ minEnd maxEnd,
        getMinMaxEndTimestamps (endTimestamps (foundRings (s.timedRings cfg))
          s.collector.channels) = some (minEnd, maxEnd) ∧
        Faithful (s.timedRings cfg) s.collector (readableUntil minEnd maxEnd) d := by
  have hinv := AudioState.reachable_inv h
  obtain ⟨c, out, htick, _, hfaithful⟩ := hinv.sized.faithful hinv.ringsFaithful
  exact ⟨c, out, htick, hfaithful⟩

theorem smallRing_wait : (2 : Usize).toNat ≤ (ownedShared 4 smallRing_fits).itemsSize := by decide

/-- Rings of four samples. -/
def smallRings (_ : Nat) : OwnedRing := ⟨4, smallRing_fits, 0, 2, smallRing_wait⟩

/-- A ring is connected, the clock starts, two samples are written: the callback
of the next tick gets them. -/
theorem collector_faithful_smallRings :
    ∃ s c d, Relation.ReflTransGen (AudioStep smallRings) (.initial smallRings 1) s ∧
      s.collector.tick (foundRings (s.timedRings smallRings)) = some (c, some d) ∧
      d.interval = ⟨0, 2⟩ ∧ Faithful (s.timedRings smallRings) s.collector 2 d := by
  obtain ⟨c, hconnect⟩ : ∃ c, (Collector.new 1).handleCommand (.connectChannel 0 0 0) =
      some (c, true) := ⟨_, rfl⟩
  have hchannels : c.channels = [some ⟨1, 0, 0, 0, false⟩] := by
    cases hconnect
    rfl
  have hlen : c.channels.length = c.buffers.length := by
    cases hconnect
    rfl
  have hbootstrap : c.tick (foundRings ((AudioState.initial smallRings 1).timedRings smallRings)) =
      some ({ c with clock := some 0 }, none) := by
    cases hconnect
    rfl
  obtain ⟨ring, hring⟩ := Option.isSome_iff_exists.mp (by decide :
    ((RingCall.write 0 [10, 11]).run (smallRings 0).shared
      ((AudioState.initial smallRings 1).rings 0)).isSome = true)
  have hpos : ((RingCall.write 0 [10, 11]).run (smallRings 0).shared
      ((AudioState.initial smallRings 1).rings 0)).map (·.2.readablePos) = some 2 := by
    decide
  rw [hring, Option.map_some, Option.some.injEq] at hpos
  have hwindow : (RingCall.write 0 [10, 11]).InWindow (smallRings 0).shared
      ((AudioState.initial smallRings 1).rings 0) := by
    decide
  have hstart : AudioStep smallRings (.initial smallRings 1) _ := .command hconnect
  have hreach := ((Relation.ReflTransGen.single hstart).tail (.tick hbootstrap)).tail
    (.ring (k := 0) hwindow hring)
  have hfaithful := collector_faithful hreach
  revert hreach hfaithful
  generalize hs : AudioState.mk _ _ _ = s
  intro hreach hfaithful
  have hends : getMinMaxEndTimestamps (endTimestamps (foundRings (s.timedRings smallRings))
      s.collector.channels) = some (2, 2) := by
    have hone : endTimestamps (foundRings (s.timedRings smallRings)) s.collector.channels =
        [2] := by
      rw [← hs, ← hpos, endTimestamps]
      dsimp only
      rw [hchannels]
      rfl
    rw [hone]
    decide
  have hclock : s.collector.clock = some 0 := by rw [← hs]
  have hlen' : s.collector.channels.length = s.collector.buffers.length := by
    rw [← hs]
    exact hlen
  obtain ⟨c', d, htick, hiv, _⟩ := tick_succeeds hlen' hends hclock
  obtain ⟨_, _, htick', hd⟩ := hfaithful
  rw [htick] at htick'
  cases htick'
  obtain ⟨minEnd, maxEnd, hends', hfaith⟩ := hd d rfl
  rw [hends] at hends'
  cases hends'
  exact ⟨s, c', d, hreach, htick, hiv.trans (by decide), hfaith⟩

end Inferno
