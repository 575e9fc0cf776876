import Mathlib.Algebra.Order.Group.Unbundled.Int
import Inferno.Common

/-!
# From samples to nanoseconds

`MediaClock::system_clock_duration_from_until`, which tells the transmitter how
long to sleep. The difference of two clocks is multiplied by 10^9 in 64 bits
before it is divided by the rate: up to 9223372036 samples in either direction
that is exact (`duration_exact_iff`), beyond it overflows.
-/

namespace Inferno

/-! ## `i64` -/

/-- The `i64` a wrapping operation leaves. -/
def wrapI64 (x : Int) : Int := (BitVec.ofInt 64 x).toInt

theorem wrapI64_of_fits {x : Int} (h : FitsIsize x) : wrapI64 x = x :=
  BitVec.toInt_ofInt_eq_self (by decide) h.1 h.2

theorem fits_wrapI64 (x : Int) : FitsIsize (wrapI64 x) :=
  ⟨BitVec.le_toInt _, BitVec.toInt_lt⟩

/-- The result `x` of an operation of `i64`, in a build with or without
overflow checks. -/
def i64In (checked : Bool) (x : Int) : Option Int :=
  if checked ∧ (x < -2 ^ 63 ∨ 2 ^ 63 ≤ x) then none else some (wrapI64 x)

theorem i64In_of_fits (checked : Bool) {x : Int} (h : FitsIsize x) : i64In checked x = some x := by
  rw [fitsIsize_iff] at h
  rw [i64In, if_neg (by omega), wrapI64_of_fits h]

theorem i64In_unchecked (x : Int) : i64In false x = some (wrapI64 x) :=
  if_neg fun h => by cases h.1

theorem i64In_checked {x : Int} (h : ¬FitsIsize x) : i64In true x = none := by
  rw [fitsIsize_iff] at h
  exact if_pos ⟨rfl, by omega⟩

theorem i64In_eq_some {checked : Bool} {x y : Int} :
    i64In checked x = some y ↔ (FitsIsize x ∨ checked = false) ∧ wrapI64 x = y := by
  rw [i64In, fitsIsize_iff]
  cases checked with
  | false => simp
  | true =>
      simp only [true_and, Bool.true_eq_false, or_false]
      split
      · exact ⟨fun h => (by cases h), fun h => by omega⟩
      · rw [Option.some.injEq, iff_and_self]
        omega

/-- `a / b` of `i64` panics at zero and where the quotient does not fit. -/
def divI64 (a b : Int) : Option Int :=
  if b = 0 ∨ (a = -2 ^ 63 ∧ b = -1) then none else some (a.tdiv b)

theorem divI64_of_pos {a b : Int} (hb : 0 < b) : divI64 a b = some (a.tdiv b) :=
  if_neg (by omega)

/-! ## The clock -/

/-- The `freq_scale` of an overlay, by what is made of a duration with it:
`(duration_ns as f64 * freq_scale) as FineClockDiff`. -/
structure FreqScale where
  corr : Int → Int

/-- `MediaClock`; of its overlay, what a duration needs. -/
structure MediaClock where
  overlay : Option FreqScale

namespace MediaClock

/-- A clock that runs at the rate of the system clock: `freq_scale` is 0. -/
def unscaled : MediaClock := ⟨some ⟨fun _ => 0⟩⟩

/-- `system_clock_duration_from_until` in nanoseconds; the outer `none` is a
panic, the inner one a clock that is not there. -/
def systemClockDurationFromUntil (checked : Bool) (clock : MediaClock) (start fin : Clock)
    (timebaseHz : BitVec 64) : Option (Option Nat) := do
  let durationInTb := wrappedDiff fin start
  let product ← i64In checked (durationInTb * 1000000000)
  let durationNs ← divI64 product timebaseHz.toInt
  match clock.overlay with
  | none => some none
  | some overlay =>
      let duration ← i64In checked (durationNs - overlay.corr durationNs)
      if duration > 0 then some (some duration.toNat) else some (some 0)

end MediaClock

/-! ## What it computes -/

section

variable {checked : Bool} {start fin : Clock} {sampleRate : BitVec 32}

/-- The furthest two clocks may be apart. -/
theorem fits_product_iff (d : Int) : FitsIsize (d * 1000000000) ↔ |d| ≤ 9223372036 := by
  rw [fitsIsize_iff, Int.abs_eq_natAbs]
  omega

theorem toInt_timebase (sampleRate : BitVec 32) :
    (sampleRate.setWidth 64).toInt = sampleRate.toNat := by
  have hlt := sampleRate.isLt
  rw [BitVec.toInt_eq_toNat_cond, BitVec.toNat_setWidth]
  split <;> omega

theorem rate_pos (hrate : sampleRate ≠ 0) : 0 < sampleRate.toNat := by
  rw [Nat.pos_iff_ne_zero]
  exact fun h0 => hrate (BitVec.eq_of_toNat_eq h0)

theorem tdiv_nonpos {a : Int} (ha : a ≤ 0) (b : Nat) : a.tdiv b ≤ 0 := by
  rw [← Int.neg_neg a, Int.neg_tdiv, Int.neg_nonpos_iff]
  exact Int.tdiv_nonneg (by omega) (Int.natCast_nonneg b)

/-- Cut at zero, rounding towards zero is rounding down. -/
theorem tdiv_or_zero {a : Int} {b : Nat} (hb : 0 < b) :
    (if a.tdiv b > 0 then (a.tdiv b).toNat else 0) = (max 0 (a / b)).toNat := by
  rcases Int.le_total 0 a with ha | ha
  · have hnonneg : 0 ≤ a / b := Int.ediv_nonneg ha (Int.natCast_nonneg b)
    rw [Int.tdiv_eq_ediv_of_nonneg ha]
    split <;> omega
  · have hceil := tdiv_nonpos ha b
    have hfloor : a / b ≤ 0 := Int.ediv_nonpos_of_nonpos_of_neg ha (by omega)
    rw [if_neg (by omega), max_eq_left hfloor, Int.toNat_zero]

theorem fits_tdiv {a : Int} (h : FitsIsize a) (b : Nat) : FitsIsize (a.tdiv b) := by
  have hle : (a.tdiv b).natAbs ≤ a.natAbs := by
    rw [Int.natAbs_tdiv]
    exact Nat.div_le_self _ _
  rw [fitsIsize_iff] at h ⊢
  rcases Int.le_total 0 a with ha | ha
  · have hsign := Int.tdiv_nonneg ha (Int.natCast_nonneg b)
    omega
  · have hsign := tdiv_nonpos ha b
    omega

/-- Whatever the product came out as, the rest is exact. -/
theorem unscaled_duration {product : Int} (hrate : sampleRate ≠ 0)
    (hproduct : i64In checked (wrappedDiff fin start * 1000000000) = some product) :
    MediaClock.unscaled.systemClockDurationFromUntil checked start fin (sampleRate.setWidth 64) =
      some (some (max 0 (product / sampleRate.toNat)).toNat) := by
  have hpos := rate_pos hrate
  have hfits : FitsIsize product := by
    unfold i64In at hproduct
    split at hproduct
    · cases hproduct
    · obtain rfl := Option.some.inj hproduct
      exact fits_wrapI64 _
  rw [MediaClock.systemClockDurationFromUntil, hproduct, toInt_timebase]
  simp only [Option.bind_eq_bind, Option.bind_some, divI64_of_pos (Int.natCast_pos.mpr hpos),
    MediaClock.unscaled, Int.sub_zero, i64In_of_fits checked (fits_tdiv hfits sampleRate.toNat)]
  rw [← tdiv_or_zero hpos, ← apply_ite some, ← apply_ite some]

/-- The wait in nanoseconds, without regard to the width of the words. -/
def exactWait (d : Int) (sampleRate : BitVec 32) : Nat :=
  (max 0 (d * 1000000000 / sampleRate.toNat)).toNat

theorem exactWait_mono (hrate : sampleRate ≠ 0) {d d' : Int} (h : d ≤ d') :
    exactWait d sampleRate ≤ exactWait d' sampleRate := by
  have hdiv : d * 1000000000 / sampleRate.toNat ≤ d' * 1000000000 / sampleRate.toNat :=
    Int.ediv_le_ediv (Int.natCast_pos.mpr (rate_pos hrate)) (by omega)
  unfold exactWait
  omega

theorem unscaled_exact (checked : Bool) (hrate : sampleRate ≠ 0)
    (h : |wrappedDiff fin start| ≤ 9223372036) :
    MediaClock.unscaled.systemClockDurationFromUntil checked start fin (sampleRate.setWidth 64) =
      some (some (exactWait (wrappedDiff fin start) sampleRate)) :=
  unscaled_duration hrate (i64In_of_fits checked ((fits_product_iff _).mpr h))

/-- With overflow checks a greater distance is a panic. -/
theorem unscaled_panics_iff (hrate : sampleRate ≠ 0) :
    MediaClock.unscaled.systemClockDurationFromUntil true start fin (sampleRate.setWidth 64) =
      none ↔ ¬|wrappedDiff fin start| ≤ 9223372036 := by
  constructor
  · intro hpanic h
    rw [unscaled_exact true hrate h] at hpanic
    cases hpanic
  · intro h
    rw [MediaClock.systemClockDurationFromUntil,
      i64In_checked fun hfits => h ((fits_product_iff _).mp hfits)]
    rfl

/-- Without overflow checks a clock that is too far ahead is waited for too
short a time. -/
theorem unscaled_short (hrate : sampleRate ≠ 0) (h : 9223372036 < wrappedDiff fin start) :
    ∃ wait, MediaClock.unscaled.systemClockDurationFromUntil false start fin
        (sampleRate.setWidth 64) = some (some wait) ∧
      wait < exactWait (wrappedDiff fin start) sampleRate := by
  have hpos := rate_pos hrate
  have hlt := sampleRate.isLt
  obtain ⟨p, hp⟩ : ∃ p, p = wrappedDiff fin start * 1000000000 := ⟨_, rfl⟩
  refine ⟨_, unscaled_duration hrate (i64In_unchecked _), ?_⟩
  have hwrap : wrapI64 p + 2 ^ 64 ≤ p := by
    rw [wrapI64, BitVec.toInt_ofInt, Int.bmod_def]
    omega
  -- a whole turn of the counter is at least a nanosecond
  have hstep : wrapI64 p / sampleRate.toNat + 1 ≤ p / sampleRate.toNat := by
    rw [← Int.add_ediv_of_dvd_right (Int.dvd_refl _) |>.trans
      (congrArg _ (Int.ediv_self (by omega)))]
    exact Int.ediv_le_ediv (by omega) (by omega)
  have hlong : 1 ≤ p / sampleRate.toNat := by
    rw [← Int.ediv_self (show (sampleRate.toNat : Int) ≠ 0 by omega)]
    exact Int.ediv_le_ediv (by omega) (by omega)
  rw [exactWait, ← hp]
  omega

end

/-! ## The claim -/

/-- The wait is exact, and nothing overflows on the way, as long as the clocks
are at most 9223372036 samples apart; among such the wait grows with the time
that is waited for. -/
theorem duration_exact_iff (checked : Bool) (start fin : Clock) (sampleRate : BitVec 32)
    (hrate : sampleRate ≠ 0) :
    (FitsIsize (wrappedDiff fin start * 1000000000) ∧
      MediaClock.unscaled.systemClockDurationFromUntil checked start fin
        (sampleRate.setWidth 64) =
        some (some (max 0 (wrappedDiff fin start * 1000000000 / sampleRate.toNat)).toNat) ↔
      |wrappedDiff fin start| ≤ 9223372036) ∧
    ∀ later : Clock, |wrappedDiff fin start| ≤ 9223372036 →
      |wrappedDiff later start| ≤ 9223372036 →
      wrappedDiff fin start ≤ wrappedDiff later start →
      ∃ wait wait', MediaClock.unscaled.systemClockDurationFromUntil checked start fin
          (sampleRate.setWidth 64) = some (some wait) ∧
        MediaClock.unscaled.systemClockDurationFromUntil checked start later
          (sampleRate.setWidth 64) = some (some wait') ∧ wait ≤ wait' := by
  refine ⟨⟨fun h => (fits_product_iff _).mp h.1, fun h => ?_⟩, fun later h h' hle => ?_⟩
  · exact ⟨(fits_product_iff _).mpr h, unscaled_exact checked hrate h⟩
  · exact ⟨_, _, unscaled_exact checked hrate h, unscaled_exact checked hrate h',
      exactWait_mono hrate hle⟩

/-- A flow whose `next_ts` is still 0, 20000 days into the epoch at 48 kHz: a
panic with overflow checks, and without them a sleep of 37 hours where nothing
is to be waited for. -/
theorem duration_overflows :
    ¬(FitsIsize (wrappedDiff 0 84000000000000 * 1000000000) ∧
      MediaClock.unscaled.systemClockDurationFromUntil false 84000000000000 0
        ((48000 : BitVec 32).setWidth 64) =
        some (some (max 0 (wrappedDiff 0 84000000000000 * 1000000000 /
          (48000 : BitVec 32).toNat)).toNat)) ∧
      MediaClock.unscaled.systemClockDurationFromUntil true 84000000000000 0
        ((48000 : BitVec 32).setWidth 64) = none ∧
      MediaClock.unscaled.systemClockDurationFromUntil false 84000000000000 0
        ((48000 : BitVec 32).setWidth 64) = some (some 134843993193709) ∧
      exactWait (wrappedDiff 0 84000000000000) 48000 = 0 := by
  have hdiff : wrappedDiff 0 84000000000000 = -84000000000000 := by decide
  refine ⟨fun h => ?_, (unscaled_panics_iff (by decide)).mpr ?_, ?_, ?_⟩
  · rw [fits_product_iff, hdiff] at h
    exact absurd h.1 (by decide)
  · rw [hdiff]
    decide
  · rw [unscaled_duration (by decide) (i64In_unchecked _), hdiff]
    decide
  · rw [hdiff]
    decide

/-- A flow that is one packet ahead. -/
theorem duration_exact_iff_onePacket :
    MediaClock.unscaled.systemClockDurationFromUntil true 1000 1048
      ((48000 : BitVec 32).setWidth 64) = some (some 1000000) := by
  have h := (duration_exact_iff true 1000 1048 48000 (by decide)).1.mpr (by decide)
  rw [h.2]
  decide

end Inferno
