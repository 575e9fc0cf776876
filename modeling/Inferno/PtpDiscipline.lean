import Mathlib
import Inferno.Common
import Inferno.Lib.ByteBuffer

/-!
# The PTP discipline

A listener reads Sync messages from the master and measures how far the local
clock is ahead of it (`parse_ptp_sync`); a task smooths the measurements and
publishes them as the shift of a `ClockOverlay` (`run_ptp_discipline`); the
users of the overlay add the shift to the local time
(`underlying_to_overlay_ns`). The two tasks share a `watch` channel, which
keeps the last value only.

The arithmetic of the filter is exact here. The times the code asks the system
for are data of the events.
-/

namespace Inferno

open ByteBuffer

abbrev Nanos := BitVec 64

/-! ## Casts of the filter -/

/-- Towards zero, as `as i64` does. -/
def truncate (q : ℚ) : Int := if q < 0 then q.ceil else q.floor

/-- `f64::round`: ties go away from zero. -/
def roundAway (q : ℚ) : Int := if q < 0 then (q - 1 / 2).ceil else (q + 1 / 2).floor

/-- `as i64` of a whole number: what does not fit becomes the nearest that does. -/
def saturate (n : Int) : Nanos := BitVec.ofInt 64 (max (-2 ^ 63) (min n (2 ^ 63 - 1)))

/-! ## The overlay -/

structure ClockOverlay where
  clockId : Nanos
  lastSync : Nanos
  shift : Nanos
  freqScale : ℚ

def ClockOverlay.underlyingToOverlayNs (o : ClockOverlay) (timestamp : Nanos) : Nanos :=
  let elapsed := timestamp - o.lastSync
  let correction := saturate (roundAway (elapsed.toInt * o.freqScale))
  timestamp + o.shift + correction

/-! ## The listener -/

def PTP_MESSAGE_SIZE : Nat := 124
def OFFSET_VERSION_PTP : Nat := 0
def OFFSET_VERSION_NETWORK : Nat := 1
def OFFSET_MESSAGE_TYPE : Nat := 28
def OFFSET_ORIGIN_SECONDS : Nat := 40
def OFFSET_ORIGIN_NANOSECONDS : Nat := 44
def OFFSET_GRANDMASTER_ID : Nat := 62
def OFFSET_SEQUENCE_ID : Nat := 72

/-- `PtpOffset` without `recv_time`, which nobody reads. -/
structure PtpOffset where
  grandmasterId : List (BitVec 8)
  sequenceId : BitVec 16
  offsetNs : Nanos

/-- `parse_ptp_sync`. `localRecvNs` is the time of the system, `none` if it is
before the epoch. The product and the sum of the origin fit 64 bits. -/
def parsePtpSync (buffer : List (BitVec 8)) (localRecvNs : Option Nanos) : Option PtpOffset :=
  if buffer.length < PTP_MESSAGE_SIZE then none
  else if buffer.getD OFFSET_VERSION_PTP 0 ≠ 1 then none
  else if buffer.getD OFFSET_VERSION_NETWORK 0 ≠ 1 then none
  else if buffer.getD OFFSET_MESSAGE_TYPE 0 ≠ 0x01 then none
  else
    let originSeconds := (word32 buffer OFFSET_ORIGIN_SECONDS).setWidth 64
    let originNanoseconds := (word32 buffer OFFSET_ORIGIN_NANOSECONDS).setWidth 64
    let originTimestampNs := originSeconds * 1000000000 + originNanoseconds
    localRecvNs.map fun localRecvNs =>
      { grandmasterId := (buffer.drop OFFSET_GRANDMASTER_ID).take 6
        sequenceId := word16 buffer OFFSET_SEQUENCE_ID
        offsetNs := localRecvNs - originTimestampNs }

/-! ## The two tasks -/

/-- A `watch` channel with one receiver: the last value, whether the receiver
has seen it, and whether the sender is gone. -/
structure Watch (α : Type) where
  value : Option α
  changed : Bool
  closed : Bool

/-- The variables of `run_ptp_discipline`. -/
structure PtpFilter where
  emaOffsetNs : ℚ
  initialized : Bool

structure PtpWorld where
  offsets : Watch PtpOffset
  filter : PtpFilter
  overlay : Option ClockOverlay

inductive PtpEvent where
  | datagram (data : List (BitVec 8)) (localRecvNs : Option Nanos)
  | listenerGone
  | discipline (now : Option Nanos)

namespace PtpEvent

/-- One turn of `run_ptp_listener`: a datagram fills the buffer, or is too short. -/
def parse : PtpEvent → Option PtpOffset
  | datagram data localRecvNs =>
      if data.length < PTP_MESSAGE_SIZE then none
      else parsePtpSync (data.take PTP_MESSAGE_SIZE) localRecvNs
  | _ => none

/-- The offset the event measures. -/
def offset (e : PtpEvent) : Option Nanos := e.parse.map PtpOffset.offsetNs

end PtpEvent

def ALPHA : ℚ := 1 / 10

def PtpFilter.update (f : PtpFilter) (offsetNs : Nanos) : PtpFilter :=
  if !f.initialized then { emaOffsetNs := offsetNs.toInt, initialized := true }
  else { f with emaOffsetNs := ALPHA * offsetNs.toInt + (1 - ALPHA) * f.emaOffsetNs }

/-- What is published for the state of the filter. -/
def PtpFilter.publish (f : PtpFilter) (now : Option Nanos) : ClockOverlay where
  clockId := 0
  lastSync := now.getD 0
  shift := saturate (truncate f.emaOffsetNs)
  freqScale := 0

namespace PtpWorld

def start : PtpWorld where
  offsets := ⟨none, false, false⟩
  filter := ⟨0, false⟩
  overlay := none

/-- `changed()` also comes back, with the old value, when the sender is gone. -/
def step (w : PtpWorld) : PtpEvent → PtpWorld
  | .datagram data localRecvNs =>
      match (PtpEvent.datagram data localRecvNs).parse with
      | some o => { w with offsets := { w.offsets with value := some o, changed := true } }
      | none => w
  | .listenerGone => { w with offsets := { w.offsets with closed := true } }
  | .discipline now =>
      if w.offsets.changed || w.offsets.closed then
        let w := { w with offsets := { w.offsets with changed := false } }
        match w.offsets.value with
        | some ptp =>
            let filter := w.filter.update ptp.offsetNs
            { w with filter, overlay := some (filter.publish now) }
        | none => w
      else w

def run (w : PtpWorld) (events : List PtpEvent) : PtpWorld := events.foldl step w

end PtpWorld

/-! ## Casts stay between whole numbers -/

theorem truncate_bounds {q : ℚ} {a b : Int} (ha : (a : ℚ) ≤ q) (hb : q ≤ b) :
    a ≤ truncate q ∧ truncate q ≤ b := by
  unfold truncate
  split
  · constructor
    · exact_mod_cast ha.trans Rat.le_ceil
    · exact Rat.ceil_le_iff.mpr hb
  · constructor
    · exact Rat.le_floor_iff.mpr ha
    · exact_mod_cast (Rat.floor_le q).trans hb

theorem saturate_toInt {n : Int} (h : FitsIsize n) : (saturate n).toInt = n := by
  obtain ⟨hlo, hhi⟩ := h
  rw [saturate, min_eq_left (by omega), max_eq_right (by omega)]
  exact BitVec.toInt_ofInt_eq_self (by decide) hlo hhi

/-- With no correction of the frequency the overlay adds its shift. -/
theorem underlyingToOverlayNs_eq {o : ClockOverlay} (h : o.freqScale = 0) (t : Nanos) :
    o.underlyingToOverlayNs t = t + o.shift := by
  have hround : roundAway 0 = 0 := by decide +kernel
  simp only [ClockOverlay.underlyingToOverlayNs, h, mul_zero, hround]
  exact BitVec.add_zero _

/-! ## The filter stays among its inputs -/

/-- `x` is an offset of the interval. -/
def Between (a b x : Nanos) : Prop := a.toInt ≤ x.toInt ∧ x.toInt ≤ b.toInt

variable {a b : Nanos}

/-- The filter, once it has a value, has one of the interval. -/
def PtpFilter.Within (a b : Nanos) (f : PtpFilter) : Prop :=
  f.initialized = true → (a.toInt : ℚ) ≤ f.emaOffsetNs ∧ f.emaOffsetNs ≤ b.toInt

/-- A new value of the filter is an average of the old one and the input. -/
theorem PtpFilter.Within.update {f : PtpFilter} (h : f.Within a b) {x : Nanos}
    (hx : Between a b x) : (f.update x).Within a b := by
  intro _
  have hlo : (a.toInt : ℚ) ≤ x.toInt := by exact_mod_cast hx.1
  have hhi : (x.toInt : ℚ) ≤ b.toInt := by exact_mod_cast hx.2
  unfold PtpFilter.update
  split
  · exact ⟨hlo, hhi⟩
  · next hinit =>
      obtain ⟨h1, h2⟩ := h (by simpa using hinit)
      constructor <;> simp only [ALPHA] <;> linarith

theorem PtpFilter.update_initialized (f : PtpFilter) (x : Nanos) :
    (f.update x).initialized = true := by
  unfold PtpFilter.update
  split
  · rfl
  · next h => simpa using h

theorem PtpFilter.Within.publish {f : PtpFilter} (h : f.Within a b) (hinit : f.initialized = true)
    (now : Option Nanos) : Between a b (f.publish now).shift := by
  obtain ⟨hlo, hhi⟩ := h hinit
  have hbounds := truncate_bounds hlo hhi
  have ha := BitVec.le_toInt a
  have hb := @BitVec.toInt_lt 64 b
  have hfit : FitsIsize (truncate f.emaOffsetNs) := ⟨by omega, by omega⟩
  unfold PtpFilter.publish Between
  rw [saturate_toInt hfit]
  exact hbounds

/-! ## Runs -/

namespace PtpWorld

/-- Everything in the world comes from offsets of the interval. -/
structure Inv (a b : Nanos) (w : PtpWorld) : Prop where
  offset : ∀ o ∈ w.offsets.value, Between a b o.offsetNs
  filter : w.filter.Within a b
  overlay : ∀ o ∈ w.overlay, o.freqScale = 0 ∧ Between a b o.shift

theorem Inv.step {w : PtpWorld} (h : w.Inv a b) {e : PtpEvent}
    (he : ∀ x ∈ e.offset, Between a b x) : (w.step e).Inv a b := by
  cases e with
  | datagram data localRecvNs =>
      dsimp only [PtpWorld.step]
      split
      · next o ho =>
          refine { h with offset := fun o' ho' => ?_ }
          obtain rfl : o = o' := Option.some.inj ho'
          exact he _ (by simp [PtpEvent.offset, ho])
      · exact h
  | listenerGone => exact { h with }
  | discipline now =>
      dsimp only [PtpWorld.step]
      split
      · split
        · next ptp hptp =>
            have hf := h.filter.update (h.offset ptp hptp)
            refine ⟨h.offset, hf, fun o ho => ?_⟩
            obtain rfl := Option.some.inj ho
            exact ⟨rfl, hf.publish (w.filter.update_initialized _) now⟩
        · exact { h with }
      · exact h

theorem inv_start : start.Inv a b where
  offset := by simp [start]
  filter := by simp [start, PtpFilter.Within]
  overlay := by simp [start]

theorem inv_run {events : List PtpEvent} (he : ∀ e ∈ events, ∀ x ∈ e.offset, Between a b x) :
    (start.run events).Inv a b := by
  have hrun : ∀ {w : PtpWorld}, w.Inv a b → (w.run events).Inv a b := by
    induction events with
    | nil => exact fun h => h
    | cons e events ih =>
        intro w h
        exact ih (fun e' he' => he e' (List.mem_cons_of_mem _ he'))
          (h.step (he e List.mem_cons_self))
  exact hrun inv_start

/-! ## One message -/

/-- A Sync message sent at the epoch. -/
def syncDatagram : List (BitVec 8) :=
  [1, 1] ++ List.replicate 26 0 ++ [1] ++ List.replicate 95 0

/-- It is received at the local time `d`, and disciplined by. -/
def syncRun (d : Nanos) : List PtpEvent := [.datagram syncDatagram (some d), .discipline none]

theorem syncDatagram_offset (d : Nanos) :
    (PtpEvent.datagram syncDatagram (some d)).offset = some d := by
  have hlength : syncDatagram.length = PTP_MESSAGE_SIZE := rfl
  have hsize : ¬syncDatagram.length < PTP_MESSAGE_SIZE := by omega
  have htake : syncDatagram.take PTP_MESSAGE_SIZE = syncDatagram :=
    List.take_of_length_le hlength.le
  have hptp : ¬syncDatagram.getD OFFSET_VERSION_PTP 0 ≠ 1 := by decide
  have hnetwork : ¬syncDatagram.getD OFFSET_VERSION_NETWORK 0 ≠ 1 := by decide
  have htype : ¬syncDatagram.getD OFFSET_MESSAGE_TYPE 0 ≠ 0x01 := by decide
  have horigin : (word32 syncDatagram OFFSET_ORIGIN_SECONDS).setWidth 64 * 1000000000 +
      (word32 syncDatagram OFFSET_ORIGIN_NANOSECONDS).setWidth 64 = 0#64 := by decide +kernel
  simp only [PtpEvent.offset, PtpEvent.parse, parsePtpSync, hsize, htake, hptp, hnetwork, htype,
    horigin, if_false, Option.map_some]
  simp

/-- The first measurement is published as it is. -/
theorem run_first {e : PtpEvent} {d : Nanos} (he : e.offset = some d) (now : Option Nanos) :
    ∃ o, (start.run [e, .discipline now]).overlay = some o ∧ o.freqScale = 0 ∧ o.shift = d := by
  obtain ⟨ptp, hparse, hd⟩ := Option.map_eq_some_iff.mp he
  have hfloor : truncate ((d.toInt : Int) : ℚ) = d.toInt := by
    have := @truncate_bounds d.toInt d.toInt d.toInt le_rfl le_rfl
    omega
  cases e with
  | datagram data localRecvNs =>
      refine ⟨PtpFilter.publish ⟨d.toInt, true⟩ now, ?_, rfl, ?_⟩
      · simp [run, step, hparse, start, PtpFilter.update, hd]
      · apply BitVec.eq_of_toInt_eq
        rw [PtpFilter.publish, hfloor]
        exact saturate_toInt ⟨BitVec.le_toInt d, BitVec.toInt_lt⟩
  | _ => cases hparse

theorem syncRun_overlay (d : Nanos) :
    ∃ o, (start.run (syncRun d)).overlay = some o ∧ o.freqScale = 0 ∧ o.shift = d :=
  run_first (syncDatagram_offset d) none

theorem syncRun_offset {d x : Nanos} {e : PtpEvent} (he : e ∈ syncRun d) (hx : x ∈ e.offset) :
    x = d := by
  rcases List.mem_pair.mp he with rfl | rfl
  · rw [syncDatagram_offset] at hx
    exact (Option.some.inj hx).symm
  · cases hx

end PtpWorld

/-! ## The law -/

/-- The measurements of a run are as `P` says. -/
def Measures (P : Nanos → Prop) (events : List PtpEvent) : Prop :=
  ∀ e ∈ events, ∀ x ∈ e.offset, P x

/-- Whatever is published maps a local time to what `P` allows. -/
def Maps (P : Nanos → Nanos → Prop) (w : PtpWorld) : Prop :=
  ∀ o ∈ w.overlay, ∀ t, P t (o.underlyingToOverlayNs t)

/-- The mapped time is at most `b` and at least `a` behind the local time, up to
a nanosecond. -/
def Tracked (a b t mapped : Nanos) : Prop :=
  -b.toInt - 1 ≤ wrappedDiff mapped t ∧ wrappedDiff mapped t ≤ -a.toInt + 1

theorem Maps.of_overlay {P : Nanos → Nanos → Prop} {w : PtpWorld} (h : Maps P w)
    {o : ClockOverlay} (ho : w.overlay = some o) (hfreq : o.freqScale = 0) (t : Nanos) :
    P t (t + o.shift) := by
  rw [← underlyingToOverlayNs_eq hfreq]
  exact h o ho t

theorem measures_syncRun {P : Nanos → Prop} {d : Nanos} (h : P d) :
    Measures P (PtpWorld.syncRun d) := by
  intro e he x hx
  rw [PtpWorld.syncRun_offset he hx]
  exact h

/-- A message of its own for every offset, so that what holds of all runs holds
of the offset. -/
theorem of_syncRun {P : Nanos → Prop} {Q : Nanos → Nanos → Prop} {d : Nanos} (hd : P d)
    (h : ∀ events, Measures P events → Maps Q (PtpWorld.start.run events)) (t : Nanos) :
    Q t (t + d) := by
  obtain ⟨o, ho, hfreq, hshift⟩ := PtpWorld.syncRun_overlay d
  have hmaps := h _ (measures_syncRun hd)
  rw [← hshift]
  exact hmaps.of_overlay ho hfreq t

theorem between_self {d x : Nanos} : Between d d x ↔ x = d := by
  constructor
  · rintro ⟨h1, h2⟩
    exact BitVec.eq_of_toInt_eq (by omega)
  · rintro rfl
    exact ⟨le_rfl, le_rfl⟩

theorem tracks_constant_iff (d : Nanos) :
    (∀ events, Measures (· = d) events →
      Maps (fun t mapped => mapped = t - d) (PtpWorld.start.run events)) ↔
    d = 0 ∨ d = BitVec.intMin 64 := by
  have hdouble : (∀ t : Nanos, t + d = t - d) ↔ d = 0 ∨ d = BitVec.intMin 64 := by
    constructor
    · intro h
      have h0 := congrArg BitVec.toNat (h 0)
      have hmin : (BitVec.intMin 64).toNat = 2 ^ 63 := by decide
      have hzero : (0 : Nanos).toNat = 0 := rfl
      rw [BitVec.toNat_add, BitVec.toNat_sub, hzero] at h0
      rw [← BitVec.toNat_inj, ← BitVec.toNat_inj, hmin, hzero]
      omega
    · rintro (rfl | rfl) t
      · simp
      · rw [BitVec.sub_eq_add_neg]
        rfl
  rw [← hdouble]
  constructor
  · exact fun h t => of_syncRun (P := (· = d)) rfl h t
  · intro h events he o ho t
    obtain ⟨hfreq, hshift⟩ := (PtpWorld.inv_run fun e hmem x hx =>
      between_self.mpr (he e hmem x hx)).overlay o ho
    rw [underlyingToOverlayNs_eq hfreq, between_self.mp hshift]
    exact h t

theorem tracked_add {a b x t : Nanos} :
    Tracked a b t (t + x) ↔ -b.toInt - 1 ≤ x.toInt ∧ x.toInt ≤ -a.toInt + 1 := by
  have hdiff : wrappedDiff (t + x) t = x.toInt := by
    rw [wrappedDiff, Serial.sdiff, add_sub_cancel_left]
  rw [Tracked, hdiff]

theorem tracks_interval_iff (a b : Nanos) :
    (∀ events, Measures (Between a b) events →
      Maps (Tracked a b) (PtpWorld.start.run events)) ↔
    b.toInt < a.toInt ∨ (-1 ≤ a.toInt + b.toInt ∧ a.toInt + b.toInt ≤ 1) := by
  constructor
  · intro h
    by_cases hab : b.toInt < a.toInt
    · exact .inl hab
    · have hleft := tracked_add.mp (of_syncRun (P := Between a b) ⟨le_rfl, by omega⟩ h 0)
      have hright := tracked_add.mp (of_syncRun (P := Between a b) ⟨by omega, le_rfl⟩ h 0)
      omega
  · intro h events he o ho t
    obtain ⟨hfreq, hlo, hhi⟩ := (PtpWorld.inv_run he).overlay o ho
    rw [underlyingToOverlayNs_eq hfreq, tracked_add]
    omega

/-- With a constant offset `d` the local time is mapped to the master's when
`d` is zero, or its own opposite; with offsets in an interval it is mapped into
the interval of the master's times when the interval is symmetric, or empty. -/
theorem discipline_tracks_iff (d a b : Nanos) :
    ((∀ events, Measures (· = d) events →
        Maps (fun t mapped => mapped = t - d) (PtpWorld.start.run events)) ↔
      d = 0 ∨ d = BitVec.intMin 64) ∧
    ((∀ events, Measures (Between a b) events →
        Maps (Tracked a b) (PtpWorld.start.run events)) ↔
      b.toInt < a.toInt ∨ (-1 ≤ a.toInt + b.toInt ∧ a.toInt + b.toInt ≤ 1)) :=
  ⟨tracks_constant_iff d, tracks_interval_iff a b⟩

/-- The local clock is half a second ahead, and is put forward by as much
again: at `1000000000` it is told `1500000000`, and the master has `500000000`. -/
theorem ahead_doubled :
    ¬∀ events, Measures (· = 500000000#64) events →
      Maps (fun t mapped => mapped = t - 500000000#64) (PtpWorld.start.run events) := by
  intro h
  have hmap := of_syncRun (P := (· = 500000000#64)) rfl h 1000000000#64
  revert hmap
  decide

end Inferno
