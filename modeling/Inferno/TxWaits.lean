import Inferno.Lib.MinBy
import Inferno.MediaClock
import Inferno.TxSchedule

/-!
# How long the transmitting thread waits

`FlowsTransmitterInternal::run` waits for the soonest `next_ts` before it calls
`transmit`. After the media clock has jumped back, that is as long as the clock
needs to get there again, and `transmit`, which would put the flows back in
step, is not called before (`jump_noticed_iff`).
-/

namespace Inferno

/-! ## The wait -/

/-- `SELECT_THRESHOLD` and `MIN_SLEEP` in nanoseconds. -/
def SELECT_THRESHOLD : Nat := 100000000

def MIN_SLEEP : Nat := 0

/-- `wrapped_diff(a, b).cmp(&0)`. -/
def compareClocks (a b : Clock) : Ordering := compare (wrappedDiff a b) 0

/-- `min_next_ts`, of the flows that are not expired. -/
def minNextTs (flows : List (Option Flow)) (flags : Flag → Bool) : Option Clock :=
  Extremum.minBy compareClocks
    (((flows.filterMap id).filter fun flow => !flags flow.expired).map fun flow => flow.nextTs)

/-- `sleep_until`; `nextOnTransfer` is there if there is a notifier. -/
def sleepUntil (minNextTs nextOnTransfer : Option Clock) : Option Clock :=
  Extremum.minBy compareClocks ([minNextTs, nextOnTransfer].filterMap id)

/-- `sleep_duration` in nanoseconds; `none` is a panic. -/
def sleepDuration (checked : Bool) (clock : MediaClock) (sampleRate : BitVec 32) (now : Clock)
    (sleepUntil : Option Clock) : Option Nat := do
  let duration ← match sleepUntil with
    | none => some none
    | some ts => clock.systemClockDurationFromUntil checked now ts (sampleRate.setWidth 64)
  some (max (duration.getD 20000000000) MIN_SLEEP)

/-- What the thread does before it looks at the clock again: it sleeps, or it
waits for a command as long. -/
inductive TxWait where
  | sleep (nanos : Nat)
  | select (nanos : Nat)
deriving DecidableEq

def TxWait.nanos : TxWait → Nat
  | .sleep nanos => nanos
  | .select nanos => nanos

/-- The wait of `run` before it calls `transmit`. -/
def nextWait (checked : Bool) (clock : MediaClock) (sampleRate : BitVec 32) (now : Clock)
    (flows : List (Option Flow)) (flags : Flag → Bool) (nextOnTransfer : Option Clock) :
    Option TxWait := do
  let nanos ← sleepDuration checked clock sampleRate now
    (sleepUntil (minNextTs flows flags) nextOnTransfer)
  some (if nanos < SELECT_THRESHOLD then .sleep nanos else .select nanos)

/-! ## What is waited for -/

section

variable {flows : List (Option Flow)} {flags : Flag → Bool}

/-- The thread waits for a live flow, if there is one. -/
theorem exists_minNextTs (h : ∃ flow, some flow ∈ flows ∧ flags flow.expired = false) :
    ∃ flow, some flow ∈ flows ∧ flags flow.expired = false ∧
      minNextTs flows flags = some flow.nextTs := by
  obtain ⟨flow, hflow, hlive⟩ := h
  have hmem : flow ∈ (flows.filterMap id).filter fun flow => !flags flow.expired :=
    List.mem_filter.mpr ⟨List.mem_filterMap.mpr ⟨_, hflow, rfl⟩, by rw [hlive]; rfl⟩
  have hsome : (minNextTs flows flags).isSome :=
    Extremum.minBy_isSome.mpr (List.ne_nil_of_mem (List.mem_map_of_mem hmem))
  obtain ⟨ts, hts⟩ := Option.isSome_iff_exists.mp hsome
  obtain ⟨flow', hflow', rfl⟩ := List.mem_map.mp (Extremum.mem_of_minBy hts)
  obtain ⟨hin, hlive'⟩ := List.mem_filter.mp hflow'
  obtain ⟨o, ho, rfl⟩ := List.mem_filterMap.mp hin
  exact ⟨flow', ho, by simpa using hlive', hts⟩

variable {checked : Bool} {clock : MediaClock} {sampleRate : BitVec 32} {now ts : Clock}

/-- Without a notifier the thread waits for the soonest `next_ts`. -/
theorem nextWait_alone (hmin : minNextTs flows flags = some ts) :
    (nextWait checked clock sampleRate now flows flags none).map TxWait.nanos =
      (clock.systemClockDurationFromUntil checked now ts (sampleRate.setWidth 64)).map
        fun d => d.getD 20000000000 := by
  have huntil : sleepUntil (some ts) none = some ts := rfl
  simp only [nextWait, sleepDuration, hmin, huntil, Option.bind_eq_bind]
  cases clock.systemClockDurationFromUntil checked now ts (sampleRate.setWidth 64) with
  | none => rfl
  | some d =>
      simp only [Option.bind_some, Option.map_some, MIN_SLEEP, Nat.max_zero]
      split <;> rfl

end

/-! ## Noticed in time -/

/-- The wait is at most `DISCONTINUITY_THRESHOLD_SAMPLES + fpp` samples long. -/
def InTime (checked : Bool) (sampleRate : BitVec 32) (now : Clock) (flows : List (Option Flow))
    (flags : Flag → Bool) (fpp : Nat) : Prop :=
  ∃ w, nextWait checked .unscaled sampleRate now flows flags none = some w ∧
    w.nanos * sampleRate.toNat ≤ (192000 + fpp) * 1000000000

/-- `d` samples are at most `DISCONTINUITY_THRESHOLD_SAMPLES + fpp`, in whole
nanoseconds and with the product that the build computes. -/
def Soon (checked : Bool) (sampleRate : BitVec 32) (d : Int) (fpp : Nat) : Prop :=
  (FitsIsize (d * 1000000000) ∨ checked = false) ∧
    wrapI64 (d * 1000000000) / sampleRate.toNat ≤
      (((192000 + fpp) * 1000000000 / sampleRate.toNat : Nat) : Int)

/-- Where nothing overflows, no rounding makes up for a sample. -/
theorem soon_iff {checked : Bool} {sampleRate : BitVec 32} {d : Int} {fpp : Nat}
    (hrate : sampleRate ≠ 0) (hslow : sampleRate.toNat ≤ 1000000000) (hd : |d| ≤ 9223372036) :
    Soon checked sampleRate d fpp ↔ d ≤ 192000 + fpp := by
  have hpos := rate_pos hrate
  have hfits := (fits_product_iff d).mpr hd
  rw [Soon, wrapI64_of_fits hfits, and_iff_right (Or.inl hfits)]
  push_cast
  constructor
  · intro hle
    by_contra hlt
    have hstep : (192000 + (fpp : Int)) * 1000000000 / sampleRate.toNat + 1 ≤
        d * 1000000000 / sampleRate.toNat := by
      rw [← Int.add_ediv_of_dvd_right (Int.dvd_refl _) |>.trans
        (congrArg _ (Int.ediv_self (by omega)))]
      exact Int.ediv_le_ediv (by omega) (by omega)
    omega
  · intro hle
    exact Int.ediv_le_ediv (by omega) (by omega)

/-- A jump of the clock is noticed in time exactly if the soonest packet is
still near: with `d` the samples from the clock to the soonest `next_ts`, if
`d` is at most 192000 and a packet. -/
theorem jump_noticed_iff (checked : Bool) {sampleRate : BitVec 32} (hrate : sampleRate ≠ 0)
    (now : Clock) {flows : List (Option Flow)} {flags : Flag → Bool}
    (hlive : ∃ flow, some flow ∈ flows ∧ flags flow.expired = false) :
    (∃ flow, some flow ∈ flows ∧ flags flow.expired = false ∧
      minNextTs flows flags = some flow.nextTs) ∧
    ∀ flow, some flow ∈ flows → minNextTs flows flags = some flow.nextTs →
      (InTime checked sampleRate now flows flags flow.fpp ↔
        Soon checked sampleRate (wrappedDiff flow.nextTs now) flow.fpp) ∧
      (|wrappedDiff flow.nextTs now| ≤ 9223372036 → sampleRate.toNat ≤ 1000000000 →
        (InTime checked sampleRate now flows flags flow.fpp ↔
          wrappedDiff flow.nextTs now ≤ 192000 + flow.fpp)) := by
  refine ⟨exists_minNextTs hlive, fun flow _ hmin => ?_⟩
  have hpos := rate_pos hrate
  have hiff : InTime checked sampleRate now flows flags flow.fpp ↔
      Soon checked sampleRate (wrappedDiff flow.nextTs now) flow.fpp := by
    have hwait := @nextWait_alone _ _ checked .unscaled sampleRate now _ hmin
    cases hproduct : i64In checked (wrappedDiff flow.nextTs now * 1000000000) with
    | none =>
        -- the product overflows, and that is a panic
        rw [MediaClock.systemClockDurationFromUntil, hproduct] at hwait
        refine iff_of_false ?_ ?_
        · rintro ⟨w, hw, _⟩
          rw [hw] at hwait
          cases hwait
        · rintro ⟨hfits, _⟩
          rw [i64In_eq_some.mpr ⟨hfits, rfl⟩] at hproduct
          cases hproduct
    | some product =>
        obtain ⟨hfits, rfl⟩ := i64In_eq_some.mp hproduct
        rw [unscaled_duration hrate hproduct, Option.map_some, Option.getD_some] at hwait
        obtain ⟨w, hw, hnanos⟩ := Option.map_eq_some_iff.mp hwait
        have hbound : InTime checked sampleRate now flows flags flow.fpp ↔
            w.nanos ≤ (192000 + flow.fpp) * 1000000000 / sampleRate.toNat := by
          rw [Nat.le_div_iff_mul_le hpos]
          refine ⟨?_, fun hle => ⟨w, hw, hle⟩⟩
          rintro ⟨w', hw', hle⟩
          rw [hw] at hw'
          cases hw'
          exact hle
        rw [hbound, hnanos, Soon, and_iff_right hfits]
        generalize (192000 + flow.fpp) * 1000000000 / sampleRate.toNat = bound
        omega
  exact ⟨hiff, fun hd hslow => hiff.trans (soon_iff hrate hslow hd)⟩

/-- The flow of before, an hour and a packet after the clock starts. -/
def hourFlow : Flow := { ringlessFlow with nextTs := 172800032 }

/-- The clock jumps back by that hour, and the thread waits for it to come
again. -/
theorem jump_not_noticed :
    nextWait true .unscaled 48000 16 [some hourFlow] (fun _ => false) none =
        some (.select 3600000333333) ∧
      ¬InTime true 48000 16 [some hourFlow] (fun _ => false) 16 := by
  have hwait : nextWait true .unscaled 48000 16 [some hourFlow] (fun _ => false) none =
      some (.select 3600000333333) := by decide
  refine ⟨hwait, ?_⟩
  rintro ⟨w, hw, hle⟩
  rw [hwait] at hw
  cases hw
  exact absurd hle (by decide)

/-- A second back. -/
theorem jump_noticed_iff_second :
    InTime true 48000 172752016 [some hourFlow] (fun _ => false) 16 := by
  obtain ⟨_, hall⟩ := @jump_noticed_iff true 48000 (by decide) 172752016 [some hourFlow]
    (fun _ => false) ⟨hourFlow, List.mem_singleton_self _, rfl⟩
  obtain ⟨_, hnear⟩ := hall hourFlow (List.mem_singleton_self _) rfl
  exact (hnear (by decide) (by decide)).mpr (by decide)

end Inferno
