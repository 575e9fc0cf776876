import Inferno.Lib.Serve
import Inferno.ReceiveSafety
import Mathlib.Data.Finset.Card
import Mathlib.Order.Interval.Finset.Nat

/-!
# What the statistics call lost

`FlowStats` over the packets of one stream, in any order, between two reports.
A gap is counted in frames of a millisecond, whatever the packets hold: the
count stays within what is missing as long as no packet comes late and no gap is
a frame longer than its packets are in frames (`loss_counted`).
-/

namespace Inferno

namespace FlowStats

/-! ## One packet -/

theorem addIn_of_lt {checked : Bool} {a b : Usize} (h : a.toNat + b.toNat < 2 ^ 64) :
    addIn checked a b = some (a + b) := if_neg fun hc => absurd h (Nat.not_lt.mpr hc.2)

theorem mulIn_of_lt {checked : Bool} {a b : Usize} (h : a.toNat * b.toNat < 2 ^ 64) :
    mulIn checked a b = some (a * b) := if_neg fun hc => absurd h (Nat.not_lt.mpr hc.2)

/-- The samples of a millisecond. -/
def frameSamples (sampleRate : BitVec 32) : Nat := sampleRate.toNat / 1000

theorem frameSize_toNat (sampleRate : BitVec 32) :
    (frameSize sampleRate).toNat = frameSamples sampleRate := by
  have hlt := sampleRate.isLt
  have hthousand : (1000 : BitVec 32).toNat = 1000 := rfl
  rw [frameSize, frameSamples, BitVec.toNat_setWidth, BitVec.toNat_udiv, hthousand]
  exact Nat.mod_eq_of_lt (by omega)

theorem missedBy_toNat (gap frameSize : Usize) :
    (missedBy gap frameSize).toNat = gap.toNat / frameSize.toNat - 1 := by
  unfold missedBy
  split
  next hzero =>
    have hnat : (gap / frameSize).toNat = 0 := by rw [hzero]; rfl
    rw [BitVec.toNat_udiv] at hnat
    simp [hnat]
  next hpos =>
    have hnat : (gap / frameSize).toNat ≠ 0 := fun h => hpos (BitVec.eq_of_toNat_eq h)
    have hone : (1 : Usize).toNat = 1 := rfl
    rw [BitVec.toNat_sub_of_le (by rw [BitVec.le_def, hone]; omega), BitVec.toNat_udiv, hone]

/-- The loss of a gap. -/
theorem missedIn_le {checked : Bool} {stats : FlowStats} {gap : Usize} {sampleRate : BitVec 32}
    (hrate : 1000 ≤ sampleRate.toNat)
    (hfits : stats.missedPackets.toNat + (gap.toNat / frameSamples sampleRate - 1) < 2 ^ 64) :
    ∃ missed, stats.missedIn checked gap sampleRate = some missed ∧
      missed.toNat ≤ stats.missedPackets.toNat + (gap.toNat / frameSamples sampleRate - 1) := by
  have hframe : frameSize sampleRate ≠ 0 := by
    intro hzero
    have hnat := frameSize_toNat sampleRate
    rw [hzero] at hnat
    have hpos : 0 < sampleRate.toNat / 1000 := Nat.div_pos hrate (by omega)
    exact absurd hnat hpos.ne
  have hmissed := missedBy_toNat gap (frameSize sampleRate)
  rw [frameSize_toNat] at hmissed
  unfold missedIn
  split
  · rw [addIn_of_lt (by omega)]
    refine ⟨_, rfl, ?_⟩
    rw [BitVec.toNat_add, Nat.mod_eq_of_lt (by omega), hmissed]
  · exact ⟨_, rfl, Nat.le_add_right _ _⟩

/-- A packet that is not earlier than the last. -/
theorem updateIn_forward {checked : Bool} {stats : FlowStats} {timestamp : Clock}
    {sampleRate : BitVec 32} (logDue : Bool) (hrate : 1000 ≤ sampleRate.toNat)
    (hreceived : stats.packetsReceived.toNat + 1 < 2 ^ 64)
    (hle : stats.lastTimestamp.toNat ≤ timestamp.toNat)
    (hlt : timestamp.toNat < 2 ^ 32 * sampleRate.toNat)
    (hexpected : stats.packetsExpected.toNat ≤ 1 + stats.lastTimestamp.toNat / sampleRate.toNat)
    (hmissed : stats.missedPackets.toNat +
      ((timestamp.toNat - stats.lastTimestamp.toNat) / frameSamples sampleRate - 1) < 2 ^ 64) :
    ∃ stats', stats.updateIn checked timestamp sampleRate logDue =
        some (if logDue then FlowStats.new else stats') ∧
      stats'.packetsReceived.toNat = stats.packetsReceived.toNat + 1 ∧
      stats'.lastTimestamp = timestamp ∧
      stats'.packetsExpected.toNat ≤ 1 + timestamp.toNat / sampleRate.toNat ∧
      stats'.missedPackets.toNat ≤ stats.missedPackets.toNat +
        ((timestamp.toNat - stats.lastTimestamp.toNat) / frameSamples sampleRate - 1) ∧
      (stats.lastTimestamp = 0 → stats'.missedPackets = stats.missedPackets) := by
  have hone : (1 : Usize).toNat = 1 := rfl
  have hreceived' : (stats.packetsReceived + 1).toNat = stats.packetsReceived.toNat + 1 := by
    rw [BitVec.toNat_add, hone, Nat.mod_eq_of_lt hreceived]
  unfold updateIn
  rw [addIn_of_lt (by rw [hone]; exact hreceived)]
  unfold countIn
  by_cases hfirst : 0 < stats.lastTimestamp
  swap
  · rw [if_neg hfirst]
    exact ⟨⟨stats.packetsReceived + 1, 1, timestamp, stats.missedPackets⟩, rfl, hreceived', rfl,
      Nat.le_add_right _ _, Nat.le_add_right _ _, fun _ => rfl⟩
  have hzero : sampleRate ≠ 0 := by
    rintro rfl
    exact absurd hrate (by decide)
  have hgap : (timestamp - stats.lastTimestamp).toNat =
      timestamp.toNat - stats.lastTimestamp.toNat :=
    BitVec.toNat_sub_of_le (BitVec.le_def.mpr hle)
  have hrate64 : (sampleRate.setWidth 64).toNat = sampleRate.toNat := by
    have := sampleRate.isLt
    rw [BitVec.toNat_setWidth]
    exact Nat.mod_eq_of_lt (by omega)
  have hinterval : (stats.interval timestamp sampleRate).toNat =
      (timestamp.toNat - stats.lastTimestamp.toNat) / sampleRate.toNat := by
    rw [interval, BitVec.toNat_udiv, hgap, hrate64]
  -- the seconds between the packets and those before the first are no more than the seconds now
  have hsum : stats.lastTimestamp.toNat / sampleRate.toNat +
      (timestamp.toNat - stats.lastTimestamp.toNat) / sampleRate.toNat ≤
        timestamp.toNat / sampleRate.toNat := by
    have hadd := @Nat.div_add_div_le_add_div stats.lastTimestamp.toNat
      (timestamp.toNat - stats.lastTimestamp.toNat) sampleRate.toNat
    rwa [Nat.add_sub_cancel' hle] at hadd
  have hseconds : timestamp.toNat / sampleRate.toNat < 2 ^ 32 :=
    Nat.div_lt_of_lt_mul (by rw [Nat.mul_comm]; exact hlt)
  rcases @missedIn_le checked stats (timestamp - stats.lastTimestamp) sampleRate hrate
    (by rw [hgap]; exact hmissed) with ⟨missed, hrun, hbound⟩
  have hmillion : (1000000 : Usize).toNat = 1000000 := rfl
  rw [if_pos hfirst, if_neg hzero, addIn_of_lt (by rw [hinterval]; omega), hrun,
    mulIn_of_lt (by rw [hinterval, hmillion]; omega)]
  refine ⟨⟨stats.packetsReceived + 1, stats.packetsExpected + stats.interval timestamp sampleRate,
    timestamp, missed⟩, rfl, hreceived', rfl, ?_, ?_, fun hlast => ?_⟩
  · rw [BitVec.toNat_add, hinterval, Nat.mod_eq_of_lt (by omega)]
    omega
  · rwa [hgap] at hbound
  · rw [hlast] at hfirst
    exact absurd hfirst (by decide)

end FlowStats

/-! ## The packets of a stream -/

/-- What a transmitter sends: packets of so many samples, one behind the other. -/
structure AudioStream where
  sampleRate : BitVec 32
  fpp : Nat
  start : Nat
  rate_ge : 1000 ≤ sampleRate.toNat
  fpp_pos : 1 ≤ fpp
  fpp_le : fpp ≤ 256

namespace AudioStream

/-- Where a packet begins, in samples. -/
def sample (stream : AudioStream) (k : Nat) : Nat := stream.start + k * stream.fpp

def timestamp (stream : AudioStream) (k : Nat) : Clock := BitVec.ofNat 64 (stream.sample k)

/-- The seconds of the packet are a `u32`, as they are sent. -/
def Sendable (stream : AudioStream) (k : Nat) : Prop :=
  stream.sample k < 2 ^ 32 * stream.sampleRate.toNat

instance (stream : AudioStream) (k : Nat) : Decidable (stream.Sendable k) :=
  inferInstanceAs (Decidable (_ < _))

theorem timestamp_toNat {stream : AudioStream} {k : Nat} (h : stream.Sendable k) :
    (stream.timestamp k).toNat = stream.sample k := by
  have hlt := stream.sampleRate.isLt
  unfold Sendable at h
  rw [timestamp, BitVec.toNat_ofNat]
  refine Nat.mod_eq_of_lt (h.trans_le ?_)
  calc 2 ^ 32 * stream.sampleRate.toNat ≤ 2 ^ 32 * 2 ^ 32 := Nat.mul_le_mul_left _ hlt.le
    _ = 2 ^ 64 := by rw [← pow_add]

end AudioStream

/-- The largest of the numbers. -/
def latest (received : List Nat) : Nat := received.foldr max 0

/-- The packets that are missing between those that came. -/
def missing (received : List Nat) : Finset Nat :=
  (Finset.range (latest received)).filter fun k => (∃ a ∈ received, a < k) ∧ k ∉ received

/-- Every packet came right behind the one before; the last is in front. -/
def InOrder (received : List Nat) : Prop := received.IsChain fun k b => k = b + 1

theorem latest_cons {received : List Nat} {b : Nat} (h : ∀ a ∈ received, a ≤ b) :
    latest (b :: received) = b := by
  have hle : ∀ l : List Nat, (∀ a ∈ l, a ≤ b) → latest l ≤ b := by
    intro l
    induction l with
    | nil => exact fun _ => Nat.zero_le _
    | cons a l ih =>
        intro hl
        rcases List.forall_mem_cons.mp hl with ⟨ha, hrest⟩
        exact max_le ha (ih hrest)
  exact max_eq_left (hle received h)

theorem mem_missing {received : List Nat} {k : Nat} :
    k ∈ missing received ↔ k < latest received ∧ (∃ a ∈ received, a < k) ∧ k ∉ received := by
  rw [missing, Finset.mem_filter, Finset.mem_range]

/-- A packet that is not earlier than the others leaves out those between. -/
theorem missing_card_cons {rest : List Nat} {b k : Nat} (h : ∀ a ∈ rest, a ≤ b) (hk : b ≤ k) :
    (missing (b :: rest)).card + (k - b - 1) ≤ (missing (k :: b :: rest)).card := by
  have hall : ∀ a ∈ b :: rest, a ≤ k := by
    intro a ha
    rcases List.mem_cons.mp ha with rfl | ha
    · exact hk
    · exact (h a ha).trans hk
  have hdisjoint : Disjoint (missing (b :: rest)) (Finset.Ioo b k) := by
    refine Finset.disjoint_left.mpr fun m hm hio => ?_
    have hlt := (mem_missing.mp hm).1
    rw [latest_cons h] at hlt
    have hgt := (Finset.mem_Ioo.mp hio).1
    omega
  have hsubset : missing (b :: rest) ∪ Finset.Ioo b k ⊆ missing (k :: b :: rest) := by
    intro m hm
    rw [mem_missing, latest_cons hall]
    rcases Finset.mem_union.mp hm with hm | hm
    · rcases mem_missing.mp hm with ⟨hlt, ⟨a, ha, hlow⟩, hnot⟩
      rw [latest_cons h] at hlt
      refine ⟨by omega, ⟨a, List.mem_cons_of_mem _ ha, hlow⟩, ?_⟩
      rintro (_ | ⟨_, hmem⟩)
      · omega
      · exact hnot hmem
    · rcases Finset.mem_Ioo.mp hm with ⟨hlow, hhigh⟩
      refine ⟨hhigh, ⟨b, by simp, hlow⟩, ?_⟩
      intro hmem
      rcases List.mem_cons.mp hmem with rfl | hmem
      · omega
      · rcases List.mem_cons.mp hmem with rfl | hmem
        · omega
        · exact absurd (h m hmem) (Nat.not_le.mpr hlow)
  calc (missing (b :: rest)).card + (k - b - 1)
      = (missing (b :: rest) ∪ Finset.Ioo b k).card := by
        rw [Finset.card_union_of_disjoint hdisjoint, Nat.card_Ioo]
    _ ≤ (missing (k :: b :: rest)).card := Finset.card_le_card hsubset

theorem inOrder_between {k : Nat} {rest : List Nat} (h : InOrder (k :: rest)) :
    ∀ a ∈ k :: rest, a ≤ k ∧ ∀ m, a ≤ m → m ≤ k → m ∈ k :: rest := by
  induction rest generalizing k with
  | nil =>
      intro a ha
      rw [List.mem_singleton.mp ha]
      refine ⟨le_rfl, fun m hlow hhigh => ?_⟩
      rw [Nat.le_antisymm hhigh hlow]
      exact List.mem_cons_self
  | cons b rest ih =>
      rcases List.isChain_cons_cons.mp h with ⟨rfl, hrest⟩
      intro a ha
      rcases List.mem_cons.mp ha with rfl | ha
      · refine ⟨le_rfl, fun m hlow hhigh => ?_⟩
        rw [Nat.le_antisymm hhigh hlow]
        exact List.mem_cons_self
      · rcases ih hrest a ha with ⟨hle, hbetween⟩
        refine ⟨by omega, fun m hlow hhigh => ?_⟩
        by_cases hm : m ≤ b
        · exact List.mem_cons_of_mem _ (hbetween m hlow hm)
        · rw [show m = b + 1 by omega]
          exact List.mem_cons_self

/-- Nothing is missing in order. -/
theorem missing_inOrder {received : List Nat} (h : InOrder received) : missing received = ∅ := by
  refine Finset.eq_empty_of_forall_notMem fun m hm => ?_
  rcases mem_missing.mp hm with ⟨hlt, ⟨a, ha, hlow⟩, hnot⟩
  cases received with
  | nil => cases ha
  | cons k rest =>
      have hbetween := inOrder_between h
      rw [latest_cons fun a' ha' => (hbetween a' (List.mem_cons_of_mem _ ha')).1] at hlt
      exact hnot ((hbetween a ha).2 m hlow.le hlt.le)

/-! ## Reports -/

/-- The statistics, and the packets that came since the last report, the last
one in front. -/
structure FlowReport where
  stats : FlowStats
  received : List Nat

namespace FlowReport

def new : FlowReport := ⟨FlowStats.new, []⟩

/-- A packet comes, and the report may be due. -/
def receive (checked : Bool) (stream : AudioStream) (r : FlowReport) (packet : Nat × Bool) :
    Option (FlowReport × Unit) := do
  let stats ← r.stats.updateIn checked (stream.timestamp packet.1) stream.sampleRate packet.2
  return (⟨stats, if packet.2 then [] else packet.1 :: r.received⟩, ())

/-- A packet that comes after the others, with a gap that is less than a frame
longer than its packets are in frames. -/
def Follows (stream : AudioStream) (r : FlowReport) (packet : Nat × Bool) : Prop :=
  stream.Sendable packet.1 ∧ r.received.length + 1 < 2 ^ 64 ∧
    ∀ b ∈ r.received.head?, b ≤ packet.1 ∧
      (packet.1 - b) * stream.fpp <
        (packet.1 - b + 1) * FlowStats.frameSamples stream.sampleRate

/-- No more is counted than is missing, and nothing if nothing is. -/
structure CountsLoss (r : FlowReport) : Prop where
  missed_le : r.stats.missedPackets.toNat ≤ (missing r.received).card
  inOrder : InOrder r.received → r.stats.missedPackets = 0

/-- What the statistics say of the packets since the last report. -/
structure Tells (stream : AudioStream) (r : FlowReport) : Prop where
  received : r.stats.packetsReceived.toNat = r.received.length
  none_came : r.received = [] → r.stats = FlowStats.new
  newest : ∀ b rest, r.received = b :: rest → (∀ a ∈ rest, a ≤ b) ∧ stream.Sendable b ∧
    r.stats.lastTimestamp = stream.timestamp b ∧
    r.stats.packetsExpected.toNat ≤ 1 + stream.sample b / stream.sampleRate.toNat
  missed : r.stats.missedPackets.toNat ≤ (missing r.received).card

variable {stream : AudioStream} {r : FlowReport}

theorem tells_new (stream : AudioStream) : Tells stream new :=
  ⟨rfl, fun _ => rfl, fun _ _ h => (by cases h), Nat.zero_le _⟩

theorem Tells.countsLoss (h : Tells stream r) : CountsLoss r := by
  refine ⟨h.missed, fun hinOrder => ?_⟩
  have hle := h.missed
  rw [missing_inOrder hinOrder, Finset.card_empty] at hle
  exact BitVec.eq_of_toNat_eq (Nat.le_zero.mp hle)

/-- There are fewer packets missing than there are samples. -/
theorem missing_card_lt {stream : AudioStream} {b : Nat} {rest : List Nat}
    (h : ∀ a ∈ rest, a ≤ b) (hb : stream.Sendable b) : (missing (b :: rest)).card < 2 ^ 64 := by
  have hcard : (missing (b :: rest)).card ≤ b := by
    have hle : (missing (b :: rest)).card ≤ (Finset.range (latest (b :: rest))).card :=
      Finset.card_le_card (Finset.filter_subset _ _)
    rwa [Finset.card_range, latest_cons h] at hle
  have hsample : b ≤ stream.sample b :=
    (Nat.le_mul_of_pos_right b stream.fpp_pos).trans (Nat.le_add_left _ _)
  have hlt := (stream.timestamp b).isLt
  rw [AudioStream.timestamp_toNat hb] at hlt
  omega

/-- What a gap adds is no more than it leaves out, exactly if it is less than a
frame longer than its packets are in frames. -/
theorem gap_missed_le_iff {stream : AudioStream} {b k : Nat} (hle : b ≤ k) :
    (stream.sample k - stream.sample b) / FlowStats.frameSamples stream.sampleRate - 1 ≤
        k - b - 1 ↔
      (k - b) * stream.fpp < (k - b + 1) * FlowStats.frameSamples stream.sampleRate := by
  have hframe : 0 < FlowStats.frameSamples stream.sampleRate :=
    Nat.div_pos stream.rate_ge (by omega)
  have hsamples : stream.sample k - stream.sample b = (k - b) * stream.fpp := by
    rw [AudioStream.sample, AudioStream.sample, Nat.add_sub_add_left, ← Nat.sub_mul]
  rw [hsamples, ← Nat.div_lt_iff_lt_mul hframe]
  rcases Nat.eq_or_lt_of_le hle with rfl | hlt
  · simp
  · omega

/-- A packet that follows the others is counted, and what is counted is right. -/
theorem Tells.receive {checked : Bool} (h : Tells stream r) {packet : Nat × Bool}
    (hfollows : Follows stream r packet) :
    ∃ r', r.receive checked stream packet = some (r', ()) ∧ Tells stream r' := by
  rcases packet with ⟨k, logDue⟩
  rcases hfollows with ⟨hsend, hcount, hbehind⟩
  dsimp only at hsend hbehind
  have hk := AudioStream.timestamp_toNat hsend
  have hall : ∀ a ∈ r.received, a ≤ k := by
    intro a ha
    cases hreceived : r.received with
    | nil =>
        rw [hreceived] at ha
        cases ha
    | cons b rest =>
        have hle := (hbehind b (by simp [hreceived])).1
        rw [hreceived] at ha
        rcases List.mem_cons.mp ha with rfl | ha
        · exact hle
        · exact ((h.newest b rest hreceived).1 a ha).trans hle
  have hcounts : ∃ stats', r.stats.updateIn checked (stream.timestamp k) stream.sampleRate logDue =
        some (if logDue then FlowStats.new else stats') ∧
      stats'.packetsReceived.toNat = r.received.length + 1 ∧
      stats'.lastTimestamp = stream.timestamp k ∧
      stats'.packetsExpected.toNat ≤ 1 + stream.sample k / stream.sampleRate.toNat ∧
      stats'.missedPackets.toNat ≤ (missing (k :: r.received)).card := by
    have hlt := (stream.timestamp k).isLt
    rw [← h.received] at hcount ⊢
    cases hreceived : r.received with
    | nil =>
        have hnew := h.none_came hreceived
        rw [hnew] at hcount ⊢
        rcases @FlowStats.updateIn_forward checked FlowStats.new (stream.timestamp k)
          stream.sampleRate logDue stream.rate_ge hcount (Nat.zero_le _) (by rwa [hk])
          (Nat.zero_le _) (by
            have hdiv := Nat.div_le_self (stream.timestamp k).toNat
              (FlowStats.frameSamples stream.sampleRate)
            have hzero : FlowStats.new.missedPackets.toNat = 0 ∧
              FlowStats.new.lastTimestamp.toNat = 0 := ⟨rfl, rfl⟩
            rw [hzero.1, hzero.2, Nat.sub_zero]
            omega) with ⟨stats', hrun, hgot, hlast, hexpected, -, hsame⟩
        rw [hk] at hexpected
        refine ⟨stats', hrun, hgot, hlast, hexpected, ?_⟩
        rw [hsame rfl]
        exact Nat.zero_le _
    | cons b rest =>
        rcases h.newest b rest hreceived with ⟨hrest, hb, hlastb, hexpectedb⟩
        rcases hbehind b (by simp [hreceived]) with ⟨hle, hgap⟩
        have hadded := (gap_missed_le_iff hle).mpr hgap
        have hgrows := missing_card_cons hrest hle
        have hmissed := h.missed
        rw [hreceived] at hmissed
        have hcard := missing_card_lt (hreceived ▸ hall) hsend
        have hlastb' : r.stats.lastTimestamp.toNat = stream.sample b := by
          rw [hlastb, AudioStream.timestamp_toNat hb]
        rcases @FlowStats.updateIn_forward checked r.stats (stream.timestamp k) stream.sampleRate
          logDue stream.rate_ge hcount
          (by
            rw [hlastb', hk]
            exact Nat.add_le_add_left (Nat.mul_le_mul_right _ hle) _)
          (by rwa [hk]) (by rw [hlastb']; exact hexpectedb)
          (by rw [hlastb', hk]; omega) with ⟨stats', hrun, hgot, hlast, hexpected, hbound, -⟩
        rw [hk] at hexpected
        rw [hlastb', hk] at hbound
        exact ⟨stats', hrun, hgot, hlast, hexpected, by omega⟩
  rcases hcounts with ⟨stats', hrun, hgot, hlast, hexpected, hmissed⟩
  refine ⟨_, by rw [FlowReport.receive, hrun]; rfl, ?_⟩
  cases logDue with
  | true => exact tells_new stream
  | false =>
      refine ⟨hgot, fun hnil => (by cases hnil), fun b rest heq => ?_, hmissed⟩
      cases heq
      exact ⟨hall, hsend, hlast, hexpected⟩

/-- In a run whose packets follow one another, every update goes well, and every
report counts what is missing and no more. -/
theorem loss_counted (checked : Bool) (stream : AudioStream) (packets : List (Nat × Bool))
    (h : Serve.EachOk (receive checked stream) (Follows stream) new packets) :
    Serve.EachOk (receive checked stream)
      (fun r packet => ∃ r', r.receive checked stream packet = some (r', ()) ∧ CountsLoss r')
      new packets := by
  refine Serve.eachOk_of_inv (fun r packet htells hfollows => ?_) (tells_new stream) h
  rcases @Tells.receive stream r checked htells packet hfollows with ⟨r', hr', htells'⟩
  refine ⟨⟨r', hr', htells'.countsLoss⟩, fun r'' u hr'' => ?_⟩
  cases hr'.symm.trans hr''
  exact htells'

/-- Packets of 48 samples at 48 kHz, of which the third is lost. -/
theorem loss_counted_one_lost :
    Serve.EachOk (receive true ⟨48000, 48, 0, by decide, by decide, by decide⟩)
      (fun r packet => ∃ r', r.receive true ⟨48000, 48, 0, by decide, by decide, by decide⟩ packet =
        some (r', ()) ∧ CountsLoss r') new [(1, false), (2, false), (4, true)] := by
  refine loss_counted true _ _ ⟨⟨by decide, by decide, fun b hb => by cases hb⟩, fun r₁ u h₁ => ?_⟩
  cases h₁
  refine ⟨⟨by decide, by decide, fun b hb => ?_⟩, fun r₂ u h₂ => ?_⟩
  · cases hb
    decide
  cases h₂
  refine ⟨⟨by decide, by decide, fun b hb => ?_⟩, fun r₃ u h₃ => trivial⟩
  cases hb
  decide

/-- Packets of 256 samples at 48 kHz come in order, and four are called missing. -/
theorem long_packets_called_missing : ¬∀ (checked : Bool) (stream : AudioStream)
    (packets : List (Nat × Bool)), Serve.EachOk (receive checked stream)
      (fun r packet => ∃ r', r.receive checked stream packet = some (r', ()) ∧ CountsLoss r')
      new packets := by
  intro h
  have hrun := h false ⟨48000, 256, 0, by decide, by decide, by decide⟩ [(1, false), (2, false)]
  rcases hrun with ⟨-, hrest⟩
  rcases hrest _ _ rfl with ⟨⟨r, hr, hcounts⟩, -⟩
  cases hr
  have hnone := hcounts.inOrder (List.isChain_cons_cons.mpr ⟨rfl, List.isChain_singleton _⟩)
  revert hnone
  decide

end FlowReport

end Inferno
