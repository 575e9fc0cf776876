import Inferno.Lib.MinBy
import Inferno.RingReads

/-!
# The periodic samples collector

`PeriodicSamplesCollector::run`: at each tick one interval of time is read
from the rings of all connected channels and handed to the callback. The
interval starts at the collector's clock and ends at `readable_until`, the
least readable position unless that lags; `nextInterval` is the arithmetic,
with the "insane clock diff" branch.

As long as `readable_until` is not behind the clock at any tick, the intervals
follow one another. A channel that connects behind the clock puts it there:
the difference is taken unsigned, and the collector then goes 192000 samples
back.
-/

namespace Inferno

open Extremum

/-! ## Channels -/

/-- `Channel`; `source` says which ring its `RBOutput` reads. -/
structure CollectorChannel where
  id : Nat
  source : Nat
  prevHolesCount : Usize
  latencySamples : Clock
  wasConnected : Bool

/-- A ring as the collector finds it. -/
abbrev CollectorRing := RingShared × RingMem Sample

namespace CollectorChannel

/-- "clear whatever junk data was contained at the beginning of buffer". -/
def clearStart (buffer : List Sample) (n : Nat) : List Sample :=
  List.replicate n 0 ++ buffer.drop n

def clearEnd (buffer : List Sample) (n : Nat) : List Sample :=
  buffer.take n ++ List.replicate (buffer.length - n) 0

/-- What `read_samples_from_ringbuffer` makes of the hole counter and the
result of `read_at`; the flag is its answer `good`. -/
def finishRead (ch : CollectorChannel) (holesCount : Usize) (out : List Sample)
    (r : ReadResult) : CollectorChannel × List Sample × Bool :=
  let good := holesCount == ch.prevHolesCount
  let lostStart := r.usefulStartIndex != 0 && ch.wasConnected
  let wasConnected := ch.wasConnected || decide (r.usefulStartIndex < r.usefulEndIndex)
  let lostEnd := r.usefulEndIndex != out.length && wasConnected
  ({ ch with prevHolesCount := holesCount, wasConnected := wasConnected },
    clearEnd (clearStart out r.usefulStartIndex) r.usefulEndIndex,
    good && !lostStart && !lostEnd)

def readSamplesFromRingbuffer (sh : RingShared) (ch : CollectorChannel) (startTimestamp : Clock)
    (buffer : List Sample) : RingProg Sample (CollectorChannel × List Sample × Bool) := do
  let holesCount ← RBOutput.holesCount
  let (out, r) ← RBOutput.readAt sh startTimestamp buffer
  pure (ch.finishRead holesCount out r)

end CollectorChannel

/-! ## The interval of a tick -/

def BUFFER_SIZE : Nat := 65536
def SANE_CLOCK_DIFF : Nat := 192000
def MAX_LAG_SAMPLES : Clock := 9600

/-- The comparison of `min_by` and `max_by`: `wrapped_diff(a, b).cmp(&0)`. -/
def cmpClock (a b : Clock) : Ordering := compare (wrappedDiff a b) 0

def getMinMaxEndTimestamps (clocks : List Clock) : Option (Clock × Clock) := do
  let minEnd ← minBy cmpClock clocks
  let maxEnd ← maxBy cmpClock clocks
  some (minEnd, maxEnd)

/-- "lag prevention logic". -/
def readableUntil (minEnd maxEnd : Clock) : Clock :=
  if maxEnd - minEnd > MAX_LAG_SAMPLES then maxEnd - MAX_LAG_SAMPLES else minEnd

structure Interval where
  start : Clock
  count : Nat
deriving DecidableEq

def Interval.fin (iv : Interval) : Clock := iv.start + BitVec.ofNat 64 iv.count

/-- The interval read when there is a clock already. -/
def nextInterval (readableUntil startTimestamp : Clock) : Interval :=
  if (readableUntil - startTimestamp).toNat > SANE_CLOCK_DIFF then
    ⟨readableUntil - BitVec.ofNat 64 SANE_CLOCK_DIFF, min SANE_CLOCK_DIFF BUFFER_SIZE⟩
  else
    ⟨startTimestamp, min (readableUntil - startTimestamp).toNat BUFFER_SIZE⟩

/-! ## The collector -/

structure Collector where
  channels : List (Option CollectorChannel)
  buffers : List (List Sample)
  clock : Option Clock

/-- What the callback is called with; it is not told the `start`. -/
structure Delivery where
  interval : Interval
  buffers : List (List Sample)

/-- The readable positions of the connected channels. -/
def endTimestamps (rings : Nat → CollectorRing) (channels : List (Option CollectorChannel)) :
    List Clock :=
  channels.filterMap fun opt => opt.map fun ch => (rings ch.source).2.readablePos

/-- The slice `buffer[0..count]` is filled, with zeros where the channel is
not connected or does not reach `readable_until`. -/
def serveChannel (rings : Nat → CollectorRing) (readableUntil : Clock) (iv : Interval) :
    Option CollectorChannel × List Sample → Option (Option CollectorChannel × List Sample)
  | (some ch, buffer) =>
      if wrappedDiff (rings ch.source).2.readablePos readableUntil < 0 then
        some (some ch, CollectorChannel.clearStart buffer iv.count)
      else do
        let ((ch', slice, _), _) ← (ch.readSamplesFromRingbuffer (rings ch.source).1 iv.start
          (buffer.take iv.count)).exec ringMem (rings ch.source).2
        some (some ch', slice ++ buffer.drop iv.count)
  | (none, buffer) => some (none, CollectorChannel.clearStart buffer iv.count)

/-- One `read_data_interval.tick()`; `none` is a panic. -/
def Collector.tick (rings : Nat → CollectorRing) (c : Collector) :
    Option (Collector × Option Delivery) :=
  match getMinMaxEndTimestamps (endTimestamps rings c.channels) with
  | none => some (c, none)
  | some (minEnd, maxEnd) =>
      match c.clock with
      | none => some ({ c with clock := some (readableUntil minEnd maxEnd) }, none)
      | some startTimestamp => do
          let iv := nextInterval (readableUntil minEnd maxEnd) startTimestamp
          let served ← (c.channels.zip c.buffers).mapM
            (serveChannel rings (readableUntil minEnd maxEnd) iv)
          some (⟨served.map (·.1), served.map (·.2), some iv.fin⟩,
            some ⟨iv, served.map (·.2)⟩)

inductive CollectorCommand where
  | noOp
  | shutdown
  | connectChannel (channelIndex source latencySamples : Nat)
  | disconnectChannel (channelIndex : Nat)

/-- `handle_command`; `none` is an index out of bounds, `false` ends the loop. -/
def Collector.handleCommand (c : Collector) : CollectorCommand → Option (Collector × Bool)
  | .connectChannel i source latency =>
      if i < c.channels.length then
        let ch : CollectorChannel := ⟨i + 1, source, 0, BitVec.ofNat 64 latency, false⟩
        some ({ c with channels := c.channels.set i (some ch) }, true)
      else none
  | .disconnectChannel i =>
      if i < c.channels.length then
        some ({ c with channels := c.channels.set i none }, true)
      else none
  | .shutdown => some (c, false)
  | .noOp => some (c, true)

/-- `new_with_callback`, with the locals of `run`. -/
def Collector.new (channelsCount : Nat) : Collector where
  channels := List.replicate channelsCount none
  buffers := List.replicate channelsCount (List.replicate BUFFER_SIZE 0)
  clock := none

/-! ## Runs -/

/-- The collector with the rings of its sources and what has been delivered,
latest first. -/
structure CollectorState where
  collector : Collector
  rings : Nat → CollectorRing
  delivered : List Delivery

inductive CollectorEvent where
  | tick
  | command (cmd : CollectorCommand)
  | advance

/-- The writers move readable positions forward between the ticks. -/
def Advanced (rings rings' : Nat → CollectorRing) : Prop :=
  ∀ i, (rings' i).1 = (rings i).1 ∧
    0 ≤ wrappedDiff (rings' i).2.readablePos (rings i).2.readablePos

inductive CollectorStep : CollectorState → CollectorEvent → CollectorState → Prop
  | tick {s : CollectorState} {c : Collector} {out : Option Delivery} :
      s.collector.tick s.rings = some (c, out) →
      CollectorStep s .tick { s with collector := c, delivered := out.toList ++ s.delivered }
  | command {s : CollectorState} {cmd : CollectorCommand} {c : Collector} :
      s.collector.handleCommand cmd = some (c, true) →
      CollectorStep s (.command cmd) { s with collector := c }
  | advance {s : CollectorState} {rings : Nat → CollectorRing} :
      Advanced s.rings rings → CollectorStep s .advance { s with rings := rings }

/-- Each interval begins at or after the end of the one before. -/
def Increasing (delivered : List Delivery) : Prop :=
  delivered.IsChain fun later earlier =>
    0 ≤ wrappedDiff later.interval.start earlier.interval.fin

/-! ## When the clock moves forward -/

/-- The readable positions are near the clock, and none is behind it unless
some are `MAX_LAG_SAMPLES` past it. -/
structure InStep (clock : Clock) (ends : List Clock) : Prop where
  near : ∀ p ∈ ends, -2 ^ 62 ≤ wrappedDiff p clock ∧ wrappedDiff p clock < 2 ^ 62
  forward : (∀ p ∈ ends, 0 ≤ wrappedDiff p clock) ∨
    ∃ p ∈ ends, (MAX_LAG_SAMPLES.toNat : Int) ≤ wrappedDiff p clock

theorem cmpClock_eq {clock : Clock} {ends : List Clock}
    (hnear : ∀ p ∈ ends, -2 ^ 62 ≤ wrappedDiff p clock ∧ wrappedDiff p clock < 2 ^ 62) :
    ∀ a ∈ ends, ∀ b ∈ ends, cmpClock a b = compare (wrappedDiff a clock) (wrappedDiff b clock) := by
  intro a ha b hb
  have h1 := hnear a ha
  have h2 := hnear b hb
  rw [cmpClock, wrappedDiff_eq_sub (c := clock) ⟨by omega, by omega⟩]
  rcases Int.lt_trichotomy (wrappedDiff a clock) (wrappedDiff b clock) with h | h | h
  · rw [Int.compare_eq_lt.mpr h, Int.compare_eq_lt.mpr (by omega)]
  · rw [Int.compare_eq_eq.mpr h, Int.compare_eq_eq.mpr (by omega)]
  · rw [Int.compare_eq_gt.mpr h, Int.compare_eq_gt.mpr (by omega)]

/-- Going back from a clock by `n` samples. -/
theorem wrappedDiff_sub_ofNat {a c : Clock} {n : Nat} (h : FitsIsize (wrappedDiff a c - n)) :
    wrappedDiff (a - BitVec.ofNat 64 n) c = wrappedDiff a c - n := by
  have hsub : a - BitVec.ofNat 64 n - c = a - c - BitVec.ofNat 64 n := sub_right_comm _ _ _
  rw [wrappedDiff, Serial.sdiff, hsub, ← Serial.ofInt_sdiff a c, ← BitVec.ofInt_natCast,
    Serial.ofInt_sub]
  exact BitVec.toInt_ofInt_eq_self (by decide) h.1 h.2

/-- The least and the greatest position, and where `readable_until` stands,
all seen from the clock. -/
theorem readableUntil_diff {clock minEnd maxEnd : Clock} {ends : List Clock}
    (hnear : ∀ p ∈ ends, -2 ^ 62 ≤ wrappedDiff p clock ∧ wrappedDiff p clock < 2 ^ 62)
    (h : getMinMaxEndTimestamps ends = some (minEnd, maxEnd)) :
    minEnd ∈ ends ∧ (∀ p ∈ ends, wrappedDiff minEnd clock ≤ wrappedDiff p clock) ∧
    maxEnd ∈ ends ∧ (∀ p ∈ ends, wrappedDiff p clock ≤ wrappedDiff maxEnd clock) ∧
    wrappedDiff (readableUntil minEnd maxEnd) clock =
      max (wrappedDiff minEnd clock) (wrappedDiff maxEnd clock - 9600) := by
  obtain ⟨m, hm, hrest⟩ := Option.bind_eq_some_iff.mp h
  obtain ⟨M, hM, heq⟩ := Option.bind_eq_some_iff.mp hrest
  obtain ⟨rfl, rfl⟩ := Prod.mk.inj (Option.some.inj heq)
  obtain ⟨hmin, hleast⟩ := minBy_spec (cmpClock_eq hnear) hm
  obtain ⟨hmax, hgreatest⟩ := maxBy_spec (cmpClock_eq hnear) hM
  refine ⟨hmin, hleast, hmax, hgreatest, ?_⟩
  have h1 := hnear m hmin
  have h2 := hnear M hmax
  have hle := hleast M hmax
  have hlag : ((M - m).toNat : Int) = wrappedDiff M clock - wrappedDiff m clock := by
    have hdiff : wrappedDiff M m = wrappedDiff M clock - wrappedDiff m clock :=
      wrappedDiff_eq_sub ⟨by omega, by omega⟩
    rw [Serial.toNat_sub, ← wrappedDiff, if_pos (by omega), hdiff]
  have hgt : M - m > MAX_LAG_SAMPLES ↔ 9600 < (M - m).toNat := Iff.rfl
  unfold readableUntil
  by_cases hlong : M - m > MAX_LAG_SAMPLES
  · rw [if_pos hlong, show MAX_LAG_SAMPLES = BitVec.ofNat 64 9600 from rfl,
      wrappedDiff_sub_ofNat ⟨by omega, by omega⟩, max_eq_right (by rw [hgt] at hlong; omega)]
    rfl
  · rw [if_neg hlong, max_eq_left (by rw [hgt] at hlong; omega)]

/-- `readable_until` is not behind the clock exactly if the positions are in
step with it. -/
theorem readableUntil_forward {clock minEnd maxEnd : Clock} {ends : List Clock}
    (hnear : ∀ p ∈ ends, -2 ^ 62 ≤ wrappedDiff p clock ∧ wrappedDiff p clock < 2 ^ 62)
    (h : getMinMaxEndTimestamps ends = some (minEnd, maxEnd)) :
    0 ≤ wrappedDiff (readableUntil minEnd maxEnd) clock ↔ InStep clock ends := by
  obtain ⟨hmin, hleast, hmax, hgreatest, hru⟩ := readableUntil_diff hnear h
  rw [hru]
  constructor
  · intro hle
    refine ⟨hnear, ?_⟩
    rcases le_max_iff.mp hle with hm | hM
    · exact .inl fun p hp => Int.le_trans hm (hleast p hp)
    · exact .inr ⟨maxEnd, hmax, show (9600 : Int) ≤ _ by omega⟩
  · rintro ⟨_, hall | ⟨p, hp, hahead⟩⟩
    · exact le_max_of_le_left (hall minEnd hmin)
    · have hM := hgreatest p hp
      have h9600 : (9600 : Int) ≤ wrappedDiff p clock := hahead
      exact le_max_of_le_right (by omega)

/-- The interval starts at the clock or later exactly if `readable_until` is
not behind it: backwards means 192000 samples further back. -/
theorem nextInterval_forward {ru clock : Clock} (hnear : -2 ^ 62 - 9600 ≤ wrappedDiff ru clock) :
    0 ≤ wrappedDiff (nextInterval ru clock).start clock ↔ 0 ≤ wrappedDiff ru clock := by
  have hunsigned := Serial.toNat_sub ru clock
  have hrange : FitsIsize (wrappedDiff ru clock) := fitsIsize_wrapsub ru clock
  obtain ⟨hlow, hhigh⟩ := hrange
  rw [← wrappedDiff] at hunsigned
  unfold nextInterval
  by_cases hforward : 0 ≤ wrappedDiff ru clock
  · rw [if_pos hforward] at hunsigned
    split
    · next hinsane =>
        rw [SANE_CLOCK_DIFF] at hinsane
        rw [wrappedDiff_sub_ofNat ⟨by rw [SANE_CLOCK_DIFF]; omega, by omega⟩, SANE_CLOCK_DIFF]
        omega
    · simp only [hforward, iff_true]
      exact Int.le_of_eq (Serial.sdiff_self clock).symm
  · rw [if_neg hforward] at hunsigned
    rw [if_pos (by rw [SANE_CLOCK_DIFF]; omega)]
    simp only [wrappedDiff_sub_ofNat (a := ru) (c := clock) (n := SANE_CLOCK_DIFF)
      ⟨by rw [SANE_CLOCK_DIFF]; omega, by rw [SANE_CLOCK_DIFF]; omega⟩]
    rw [SANE_CLOCK_DIFF]
    omega

/-- For positions near the clock: the next interval starts at the clock or
later exactly if they are in step with it. -/
theorem nextInterval_start_iff {clock minEnd maxEnd : Clock} {ends : List Clock}
    (hnear : ∀ p ∈ ends, -2 ^ 62 ≤ wrappedDiff p clock ∧ wrappedDiff p clock < 2 ^ 62)
    (h : getMinMaxEndTimestamps ends = some (minEnd, maxEnd)) :
    0 ≤ wrappedDiff (nextInterval (readableUntil minEnd maxEnd) clock).start clock ↔
      InStep clock ends := by
  obtain ⟨hmin, _, _, _, hru⟩ := readableUntil_diff hnear h
  have hlow := (hnear minEnd hmin).1
  exact (nextInterval_forward (by omega)).trans (readableUntil_forward hnear h)

/-! ## What a tick does -/

/-- Everything a tick can do to the clock and deliver. -/
theorem tick_cases {rings : Nat → CollectorRing} {c c' : Collector} {out : Option Delivery}
    (h : c.tick rings = some (c', out)) :
    (c' = c ∧ out = none) ∨
    (c.clock = none ∧ out = none) ∨
    ∃ minEnd maxEnd start buffers,
      getMinMaxEndTimestamps (endTimestamps rings c.channels) = some (minEnd, maxEnd) ∧
      c.clock = some start ∧
      c'.clock = some (nextInterval (readableUntil minEnd maxEnd) start).fin ∧
      out = some ⟨nextInterval (readableUntil minEnd maxEnd) start, buffers⟩ := by
  unfold Collector.tick at h
  split at h
  · obtain ⟨rfl, rfl⟩ := Prod.mk.inj (Option.some.inj h)
    exact .inl ⟨rfl, rfl⟩
  · next minEnd maxEnd hends =>
      split at h
      · next hclock =>
          obtain ⟨_, rfl⟩ := Prod.mk.inj (Option.some.inj h)
          exact .inr (.inl ⟨hclock, rfl⟩)
      · next start hclock =>
          obtain ⟨served, _, hserved⟩ := Option.bind_eq_some_iff.mp h
          obtain ⟨rfl, rfl⟩ := Prod.mk.inj (Option.some.inj hserved)
          exact .inr (.inr ⟨minEnd, maxEnd, start, _, hends, hclock, rfl, rfl⟩)

theorem handleCommand_clock {c c' : Collector} {cmd : CollectorCommand} {b : Bool}
    (h : c.handleCommand cmd = some (c', b)) : c'.clock = c.clock := by
  cases cmd with
  | noOp =>
      obtain ⟨rfl, _⟩ := Prod.mk.inj (Option.some.inj h)
      rfl
  | shutdown =>
      obtain ⟨rfl, _⟩ := Prod.mk.inj (Option.some.inj h)
      rfl
  | connectChannel i source latency =>
      simp only [Collector.handleCommand] at h
      split at h
      · obtain ⟨rfl, _⟩ := Prod.mk.inj (Option.some.inj h)
        rfl
      · cases h
  | disconnectChannel i =>
      simp only [Collector.handleCommand] at h
      split at h
      · obtain ⟨rfl, _⟩ := Prod.mk.inj (Option.some.inj h)
        rfl
      · cases h

/-! ## Ticks do not panic -/

theorem readSamples_exec {sh : RingShared} {m m' : RingMem Sample} {start : Clock}
    {buffer out : List Sample} {r : ReadResult}
    (hexec : (RBOutput.readAt sh start buffer).exec ringMem m = some ((out, r), m'))
    (ch : CollectorChannel) :
    (ch.readSamplesFromRingbuffer sh start buffer).exec ringMem m =
      some (ch.finishRead m.holesCount out r, m') := by
  refine (Prog.exec_bind ringMem (RBOutput.readAt sh start buffer) _ m).trans ?_
  rw [hexec]
  rfl

theorem serveChannel_succeeds (rings : Nat → CollectorRing) (ru : Clock) (iv : Interval)
    (x : Option CollectorChannel × List Sample) :
    ∃ y, serveChannel rings ru iv x = some y ∧
      y.1.map CollectorChannel.source = x.1.map CollectorChannel.source := by
  obtain ⟨ch, buffer⟩ := x
  cases ch with
  | none => exact ⟨_, rfl, rfl⟩
  | some ch =>
      simp only [serveChannel]
      split
      · exact ⟨_, rfl, rfl⟩
      · obtain ⟨out, r, hexec, _⟩ :=
          RBOutput.readAt_succeeds (rings ch.source).1 (rings ch.source).2 iv.start
            (buffer.take iv.count)
        rw [readSamples_exec hexec]
        exact ⟨_, rfl, rfl⟩

/-- A loop over a list that succeeds at every element, with what each result
has in common with its element. -/
theorem mapM_succeeds {β γ : Type} {f : β → Option γ} {P : β → γ → Prop} {l : List β}
    (h : ∀ x ∈ l, ∃ y, f x = some y ∧ P x y) : ∃ ys, l.mapM f = some ys ∧ List.Forall₂ P l ys := by
  induction l with
  | nil => exact ⟨[], rfl, .nil⟩
  | cons x l ih =>
      obtain ⟨y, hy, hP⟩ := h x List.mem_cons_self
      obtain ⟨ys, hys, hPs⟩ := ih fun z hz => h z (List.mem_cons_of_mem _ hz)
      refine ⟨y :: ys, ?_, .cons hP hPs⟩
      rw [List.mapM_cons, hy, hys]
      rfl

/-- The rings the channels read. -/
def sources (channels : List (Option CollectorChannel)) : List (Option Nat) :=
  channels.map (Option.map CollectorChannel.source)

theorem endTimestamps_eq (rings : Nat → CollectorRing)
    (channels : List (Option CollectorChannel)) : endTimestamps rings channels =
      (sources channels).filterMap (Option.map fun i => (rings i).2.readablePos) := by
  rw [endTimestamps, sources, List.filterMap_map]
  congr 1
  funext opt
  cases opt <;> rfl

/-- A tick of a collector with a clock delivers the next interval. -/
theorem tick_succeeds {rings : Nat → CollectorRing} {c : Collector} {minEnd maxEnd start : Clock}
    (hlen : c.channels.length = c.buffers.length)
    (hends : getMinMaxEndTimestamps (endTimestamps rings c.channels) = some (minEnd, maxEnd))
    (hclock : c.clock = some start) :
    ∃ c' out, c.tick rings = some (c', some out) ∧
      out.interval = nextInterval (readableUntil minEnd maxEnd) start ∧
      c'.clock = some out.interval.fin ∧ sources c'.channels = sources c.channels ∧
      c'.channels.length = c'.buffers.length := by
  obtain ⟨served, hserved, hall⟩ := mapM_succeeds (l := c.channels.zip c.buffers)
    fun x _ => serveChannel_succeeds rings (readableUntil minEnd maxEnd)
      (nextInterval (readableUntil minEnd maxEnd) start) x
  refine ⟨⟨served.map (·.1), served.map (·.2),
      some (nextInterval (readableUntil minEnd maxEnd) start).fin⟩,
    ⟨nextInterval (readableUntil minEnd maxEnd) start, served.map (·.2)⟩, ?_, rfl, rfl, ?_, ?_⟩
  · simp only [Collector.tick, hends, hclock, hserved, Option.bind_eq_bind, Option.bind_some]
  · have hfst := List.map_fst_zip (Nat.le_of_eq hlen)
    rw [← hfst]
    simp only [sources, List.map_map]
    rw [← List.forall₂_eq_eq_eq]
    simpa [List.forall₂_map_left_iff, List.forall₂_map_right_iff] using hall.flip
  · rw [List.length_map, List.length_map]

/-! ## No replay -/

/-- A step; a tick with the positions in step with the clock. -/
def SaneStep (s s' : CollectorState) : Prop :=
  ∃ e, CollectorStep s e s' ∧ (e = .tick → ∀ clock, s.collector.clock = some clock →
    InStep clock (endTimestamps s.rings s.collector.channels))

/-- The clock stands at the end of the last interval. -/
structure CollectorState.Inv (s : CollectorState) : Prop where
  increasing : Increasing s.delivered
  clock : ∀ d ∈ s.delivered.head?, s.collector.clock = some d.interval.fin

theorem inv_tick {s : CollectorState} {c : Collector} {out : Option Delivery} (hinv : s.Inv)
    (htick : s.collector.tick s.rings = some (c, out))
    (hsane : ∀ clock, s.collector.clock = some clock →
      InStep clock (endTimestamps s.rings s.collector.channels)) :
    CollectorState.Inv { s with collector := c, delivered := out.toList ++ s.delivered } := by
  obtain ⟨hinc, hclock⟩ := hinv
  rcases tick_cases htick with ⟨rfl, rfl⟩ | ⟨hnone, rfl⟩ | ⟨mn, mx, start, bufs, hends, hc, hc', rfl⟩
  · exact ⟨hinc, hclock⟩
  · refine ⟨hinc, fun d hd => ?_⟩
    rw [hclock d hd] at hnone
    cases hnone
  · have hstep := hsane start hc
    have hnext := (nextInterval_start_iff hstep.near hends).mpr hstep
    refine ⟨?_, fun d hd => ?_⟩
    · show Increasing (_ :: s.delivered)
      cases hdel : s.delivered with
      | nil => exact .singleton _
      | cons d ds =>
          rw [hdel] at hclock hinc
          obtain rfl : start = d.interval.fin := Option.some.inj (hc.symm.trans (hclock d rfl))
          exact .cons_cons hnext hinc
    · cases hd
      exact hc'

theorem inv_step {s s' : CollectorState} (hinv : s.Inv) (hstep : SaneStep s s') : s'.Inv := by
  obtain ⟨e, hstep, hsane⟩ := hstep
  cases hstep with
  | tick htick => exact inv_tick hinv htick (hsane rfl)
  | command hcmd =>
      exact ⟨hinv.increasing, fun d hd => (handleCommand_clock hcmd).trans (hinv.clock d hd)⟩
  | advance _ => exact ⟨hinv.increasing, hinv.clock⟩

/-- The collector before its first tick, with the rings there are. -/
def CollectorState.initial (channelsCount : Nat) (rings : Nat → CollectorRing) :
    CollectorState where
  collector := .new channelsCount
  rings := rings
  delivered := []

/-- In every run whose ticks find the positions in step with the clock, each
interval handed to the callback starts at the end of the one before or later. -/
theorem collector_increasing {channelsCount : Nat} {rings : Nat → CollectorRing}
    {s : CollectorState}
    (h : Relation.ReflTransGen SaneStep (.initial channelsCount rings) s) :
    Increasing s.delivered := by
  suffices hinv : s.Inv from hinv.increasing
  induction h with
  | refl => exact ⟨.nil, fun d hd => by cases hd⟩
  | tail _ hstep ih => exact inv_step ih hstep

/-! ## A channel that connects behind the clock -/

theorem smallRing_fits : 4 ≤ 2 ^ 61 := by decide

/-- Two rings, readable up to `p` and up to 1500. -/
def twoRings (p : Clock) : Nat → CollectorRing
  | 0 => (ownedShared 4 smallRing_fits, ownedMem p)
  | _ => (ownedShared 4 smallRing_fits, ownedMem 1500)

/-- Ring 0 is connected at 1000 and advances to 2000: one delivery. -/
theorem reach_delivery :
    ∃ s, Relation.ReflTransGen SaneStep (.initial 2 (twoRings 1000)) s ∧
      s.delivered.map Delivery.interval = [⟨1000, 1000⟩] ∧ s.rings = twoRings 2000 ∧
      s.collector.clock = some 2000 ∧ sources s.collector.channels = [some 0, none] ∧
      s.collector.channels.length = s.collector.buffers.length := by
  obtain ⟨c, hc⟩ : ∃ c, (Collector.new 2).handleCommand (.connectChannel 0 0 0) = some (c, true) :=
    ⟨_, rfl⟩
  have hbootstrap : c.tick (twoRings 1000) = some ({ c with clock := some 1000 }, none) := by
    cases hc
    rfl
  have hadvance : Advanced (twoRings 1000) (twoRings 2000) := by
    intro i
    cases i with
    | zero => exact ⟨rfl, by decide⟩
    | succ i => exact ⟨rfl, Int.le_of_eq (Serial.sdiff_self (1500 : Clock)).symm⟩
  have hstart : Relation.ReflTransGen SaneStep (.initial 2 (twoRings 1000))
      ⟨{ c with clock := some 1000 }, twoRings 2000, []⟩ := by
    refine .head ⟨_, .command hc, fun he => by cases he⟩ ?_
    refine .head ⟨_, .tick hbootstrap, fun _ clock hclock => ?_⟩
      (.single ⟨_, .advance hadvance, fun he => by cases he⟩)
    cases hc
    cases hclock
  have hends : endTimestamps (twoRings 2000) c.channels = [2000] := by
    cases hc
    rfl
  have hminmax : getMinMaxEndTimestamps (endTimestamps (twoRings 2000) c.channels) =
      some (2000, 2000) := by
    rw [hends]
    decide
  obtain ⟨c', out, htick, hint, hclock, hsources, hlen⟩ := tick_succeeds
    (c := { c with clock := some 1000 }) (by cases hc; rfl) hminmax rfl
  have hiv : out.interval = ⟨1000, 1000⟩ := hint.trans (by decide)
  refine ⟨_, hstart.tail ⟨.tick, .tick htick, fun _ clock hclock => ?_⟩, ?_, rfl, ?_, ?_, hlen⟩
  · obtain rfl : clock = 1000 := (Option.some.inj hclock).symm
    show InStep 1000 (endTimestamps (twoRings 2000) c.channels)
    rw [hends]
    have hahead : wrappedDiff 2000 1000 = 1000 := by decide
    refine ⟨fun p hp => ?_, .inl fun p hp => ?_⟩ <;> obtain rfl := List.mem_singleton.mp hp
    · rw [hahead]
      omega
    · rw [hahead]
      omega
  · show [out.interval] = _
    rw [hiv]
  · rw [hclock, hiv]
    decide
  · rw [hsources]
    cases hc
    decide

theorem collector_increasing_twoRings :
    ∃ s : CollectorState, s.delivered.map Delivery.interval = [⟨1000, 1000⟩] ∧
      Increasing s.delivered := by
  obtain ⟨s, hreach, hdelivered, _⟩ := reach_delivery
  exact ⟨s, hdelivered, collector_increasing hreach⟩

/-- Ring 1 is connected at 1500, when the clock is at 2000. -/
theorem replay_after_connect :
    ¬∀ s, Relation.ReflTransGen (fun s s' => ∃ e, CollectorStep s e s')
      (.initial 2 (twoRings 1000)) s → Increasing s.delivered := by
  intro h
  obtain ⟨⟨c, rings, delivered⟩, hreach, hdelivered, rfl, hclock, hsources, hlen⟩ := reach_delivery
  simp only at hdelivered hclock hsources hlen
  have hlength : c.channels.length = 2 := by
    have := congrArg List.length hsources
    simpa [sources] using this
  have hconnect : c.handleCommand (.connectChannel 1 1 0) =
      some ({ c with channels := c.channels.set 1 (some ⟨2, 1, 0, 0, false⟩) }, true) := by
    rw [Collector.handleCommand, if_pos (by omega)]
    rfl
  have hends : getMinMaxEndTimestamps (endTimestamps (twoRings 2000)
      (c.channels.set 1 (some ⟨2, 1, 0, 0, false⟩))) = some (1500, 2000) := by
    rw [endTimestamps_eq, sources, List.map_set, ← sources, hsources]
    decide
  obtain ⟨c', out, htick, hint, _⟩ := tick_succeeds
    (c := { c with channels := c.channels.set 1 (some ⟨2, 1, 0, 0, false⟩) })
    (by rw [List.length_set]; exact hlen) hends hclock
  have hrun : Relation.ReflTransGen (fun s s' => ∃ e, CollectorStep s e s')
      (.initial 2 (twoRings 1000)) ⟨c, twoRings 2000, delivered⟩ :=
    hreach.lift id fun _ _ ⟨e, hs, _⟩ => ⟨e, hs⟩
  have hall := h _ ((hrun.tail ⟨_, .command hconnect⟩).tail ⟨_, .tick htick⟩)
  cases delivered with
  | nil => cases hdelivered
  | cons d ds =>
      obtain ⟨hd, _⟩ := List.cons.inj hdelivered
      have hback := (List.isChain_cons_cons.mp hall).1
      rw [hint, hd] at hback
      revert hback
      decide

end Inferno
