import Inferno.TxRounds
import Mathlib.Data.List.Chain

/-!
# The times of packets

The packets of one flow, as long as its sends succeed: call after call they go
on where they stopped, a whole number of packets on the line of multiples of
`fpp`, and they are put back in step with the clock where the lag says so
(`schedule_exact`). The lag is looked at once in a call; what matters is where
`next_ts` stands after a call, which is ahead of the clock by a packet at most
(`Flow.InStep`).
-/

namespace Inferno

/-! ## Differences below 2^63 -/

theorem wrappedDiff_cases (a b : Clock) :
    (-2 ^ 63 ≤ (a.toNat : Int) - b.toNat ∧ (a.toNat : Int) - b.toNat < 2 ^ 63 ∧
      wrappedDiff a b = a.toNat - b.toNat) ∨
    (2 ^ 63 ≤ (a.toNat : Int) - b.toNat ∧ wrappedDiff a b = a.toNat - b.toNat - 2 ^ 64) ∨
    ((a.toNat : Int) - b.toNat < -2 ^ 63 ∧ wrappedDiff a b = a.toNat - b.toNat + 2 ^ 64) := by
  have ha := a.isLt
  have hb := b.isLt
  rw [wrappedDiff, Serial.sdiff, BitVec.toInt_eq_toNat_cond, BitVec.toNat_sub]
  split <;> omega

theorem wrappedDiff_near {a b : Clock} (h : (b.toNat : Int) - a.toNat ≤ 2 ^ 63)
    (h' : (a.toNat : Int) - b.toNat < 2 ^ 63) : wrappedDiff a b = a.toNat - b.toNat := by
  have := wrappedDiff_cases a b
  omega

/-! ## One flow -/

namespace Flow

/-- `next_ts` is a multiple of `fpp`, and no more than a packet ahead of any
clock there is. -/
structure InStep (flow : Flow) : Prop where
  aligned : flow.fpp ∣ flow.nextTs.toNat
  near : flow.nextTs.toNat < 2 ^ 63 + flow.fpp

/-- The lag says that the flow is to be put back in step. -/
def OutOfStep (cfg : TxConfig) (now : Clock) (flow : Flow) : Prop :=
  wrappedDiff now flow.nextTs > cfg.maxLagSamples.toInt ∨
    wrappedDiff now flow.nextTs < -DISCONTINUITY_THRESHOLD_SAMPLES

instance (cfg : TxConfig) (now : Clock) (flow : Flow) : Decidable (OutOfStep cfg now flow) :=
  inferInstanceAs (Decidable (_ ∨ _))

variable {cfg : TxConfig} {now : Clock} {flow flow' : Flow}

/-- The first multiple of `fpp` after the clock. -/
theorem bootstrapNextTs_spec (hfpp : 1 ≤ flow.fpp) (hwide : flow.fpp < 2 ^ 62)
    (hnow : now.toNat < 2 ^ 63) :
    ∃ ts : Clock, flow.bootstrapNextTs now = some { flow with nextTs := ts } ∧
      ts.toNat = (now.toNat / flow.fpp + 1) * flow.fpp ∧ now.toNat < ts.toNat ∧
      ts.toNat ≤ now.toNat + flow.fpp := by
  have hnat : (BitVec.ofNat 64 flow.fpp).toNat = flow.fpp := by
    rw [BitVec.toNat_ofNat]
    exact Nat.mod_eq_of_lt (by omega)
  have hne : ¬BitVec.ofNat 64 flow.fpp = 0 := by
    intro h0
    rw [h0] at hnat
    have : flow.fpp = 0 := hnat.symm
    omega
  have hmod := Nat.mod_lt now.toNat hfpp
  have hdiv := Nat.div_add_mod' now.toNat flow.fpp
  have hts : (now + (BitVec.ofNat 64 flow.fpp - now % BitVec.ofNat 64 flow.fpp)).toNat =
      now.toNat + (flow.fpp - now.toNat % flow.fpp) := by
    rw [BitVec.toNat_add, BitVec.toNat_sub, BitVec.toNat_umod, hnat]
    omega
  refine ⟨_, if_neg hne, ?_, ?_, ?_⟩
  · rw [hts, Nat.add_mul, Nat.one_mul]
    omega
  · rw [hts]
    omega
  · rw [hts]
    omega

theorem outOfStep_iff (hlag : cfg.maxLagSamples.toNat < 2 ^ 62) :
    OutOfStep cfg now flow ↔ wrappedDiff now flow.nextTs > cfg.maxLagSamples.toNat ∨
      wrappedDiff now flow.nextTs < -192000 := by
  rw [OutOfStep, BitVec.toInt_eq_toNat_cond, if_pos (by omega)]
  rfl

/-- The lag is looked at twice, but the flow is put back in step once. -/
theorem resync_once (hlag : cfg.maxLagSamples.toNat < 2 ^ 62) :
    resync cfg now flow =
      if OutOfStep cfg now flow then flow.bootstrapNextTs now else some flow := by
  have hiff := @outOfStep_iff cfg now flow hlag
  rw [resync, BitVec.toInt_eq_toNat_cond, if_pos (show 2 * cfg.maxLagSamples.toNat < 2 ^ 64 by omega)]
  by_cases hlate : wrappedDiff now flow.nextTs > cfg.maxLagSamples.toNat
  · rw [if_pos hlate, if_pos (hiff.mpr (Or.inl hlate))]
    cases flow.bootstrapNextTs now with
    | none => rfl
    | some flow₁ =>
        rw [Option.bind_some, if_neg]
        rw [DISCONTINUITY_THRESHOLD_SAMPLES]
        omega
  · rw [if_neg hlate, Option.bind_some]
    by_cases hearly : wrappedDiff now flow.nextTs < -DISCONTINUITY_THRESHOLD_SAMPLES
    · rw [if_pos hearly, if_pos (hiff.mpr (Or.inr hearly))]
    · rw [if_neg hearly, if_neg]
      rw [hiff]
      rw [DISCONTINUITY_THRESHOLD_SAMPLES] at hearly
      omega

/-- A flow in step is as far from the clock as their numbers are. -/
theorem InStep.lag (h : flow.InStep) (hwide : flow.fpp < 2 ^ 62)
    (hlag : cfg.maxLagSamples.toNat < 2 ^ 62) (hnow : now.toNat < 2 ^ 63)
    (hstep : ¬OutOfStep cfg now flow) :
    wrappedDiff now flow.nextTs = now.toNat - flow.nextTs.toNat ∧
      (now.toNat : Int) - flow.nextTs.toNat ≤ cfg.maxLagSamples.toNat := by
  have hnear := h.near
  rw [outOfStep_iff hlag, not_or] at hstep
  have := wrappedDiff_cases now flow.nextTs
  omega

/-- `k` packets on, if all before were due. -/
theorem ahead_toNat (hwide : flow.fpp < 2 ^ 62) (hnow : now.toNat < 2 ^ 63) (n : Nat)
    (hdue : ∀ k < n, 0 ≤ wrappedDiff now (flow.ahead k).nextTs)
    (hfirst : 0 < n → flow.nextTs.toNat ≤ now.toNat) :
    (∀ k < n, flow.nextTs.toNat + k * flow.fpp ≤ now.toNat) ∧
      (flow.ahead n).nextTs.toNat = flow.nextTs.toNat + n * flow.fpp := by
  induction n with
  | zero =>
      refine ⟨fun k hk => absurd hk (Nat.not_lt_zero k), ?_⟩
      rw [ahead_zero, Nat.zero_mul, Nat.add_zero]
  | succ n ih =>
      obtain ⟨hbefore, hat⟩ := ih (fun k hk => hdue k (Nat.lt_succ_of_lt hk))
        fun _ => hfirst (Nat.zero_lt_succ n)
      have hle : flow.nextTs.toNat + n * flow.fpp ≤ now.toNat := by
        cases n with
        | zero =>
            rw [Nat.zero_mul, Nat.add_zero]
            exact hfirst Nat.one_pos
        | succ m =>
            have hprev := hbefore m (Nat.lt_succ_self m)
            have hd := hdue (m + 1) (Nat.lt_succ_self _)
            rw [wrappedDiff_near (by rw [hat, Nat.succ_mul]; omega)
              (by rw [hat]; omega), hat] at hd
            omega
      refine ⟨fun k hk => ?_, ?_⟩
      · rcases Nat.lt_succ_iff_lt_or_eq.mp hk with hk | rfl
        · exact hbefore k hk
        · exact hle
      · rw [← flow.ahead_ahead n 1, ahead_one, BitVec.toNat_add, hat, ahead_fpp,
          BitVec.toNat_ofNat, Nat.add_mul, Nat.one_mul]
        omega

end Flow

/-! ## One turn -/

section

variable {cfg : TxConfig} {env : Outside} {now : Clock} {flow flow' : Flow} {st st' : TxRun}
  {fuel : Nat} {fin : LoopEnd}

/-- The loop from a flow that is in step, or ahead of the clock already. -/
theorem LoopSpec.schedule {ps : List TxPacket}
    (h : LoopSpec cfg env now fuel flow st flow' st' fin ps) (hstep : flow.InStep)
    (hwide : flow.fpp < 2 ^ 62) (hnow : now.toNat < 2 ^ 63)
    (hlag : wrappedDiff now flow.nextTs = now.toNat - flow.nextTs.toNat)
    (hsends : ∀ n, st.sent.length ≤ n → n < st.sent.length + ps.length →
      env.send n = some flow.packetLen) :
    (∀ k (hk : k < ps.length), ps[k].flow.nextTs.toNat = flow.nextTs.toNat + k * flow.fpp ∧
        flow.nextTs.toNat + k * flow.fpp ≤ now.toNat) ∧
      flow'.fpp = flow.fpp ∧
      flow'.nextTs.toNat = flow.nextTs.toNat + ps.length * flow.fpp ∧ flow'.InStep ∧
      (fin = .done → now.toNat < flow'.nextTs.toNat) := by
  have hall : ∀ k ≤ ps.length, flow.delivered env st.sent.length k = k := by
    intro k hk
    exact flow.delivered_all fun j hj => hsends _ (Nat.le_add_right _ _) (by omega)
  have hdue : ∀ k < ps.length, 0 ≤ wrappedDiff now (flow.ahead k).nextTs := by
    intro k hk
    have hd := h.due k hk
    rwa [hall k (Nat.le_of_lt hk)] at hd
  have hfirst : 0 < ps.length → flow.nextTs.toNat ≤ now.toNat := by
    intro hpos
    have hd := hdue 0 hpos
    rw [Flow.ahead_zero, hlag] at hd
    omega
  have hat : ∀ k ≤ ps.length, (∀ j < k, flow.nextTs.toNat + j * flow.fpp ≤ now.toNat) ∧
      (flow.ahead k).nextTs.toNat = flow.nextTs.toNat + k * flow.fpp := fun k hk =>
    Flow.ahead_toNat hwide hnow k (fun j hj => hdue j (by omega)) fun hpos => hfirst (by omega)
  have hafter : flow' = flow.ahead ps.length := by
    rw [h.after, hall _ (Nat.le_refl _)]
  obtain ⟨hbefore, hend⟩ := hat ps.length (Nat.le_refl _)
  -- the flow is at most one packet ahead of the clock, or where it was
  have hnear : (flow.ahead ps.length).nextTs.toNat ≤ now.toNat + flow.fpp ∨ ps.length = 0 := by
    rcases Nat.eq_zero_or_pos ps.length with h0 | hpos
    · exact Or.inr h0
    · have hlast := hbefore (ps.length - 1) (by omega)
      have hmul : ps.length * flow.fpp = (ps.length - 1) * flow.fpp + flow.fpp := by
        conv_lhs => rw [← Nat.sub_add_cancel hpos, Nat.succ_mul]
      rw [hend]
      omega
  refine ⟨fun k hk => ⟨?_, hbefore k hk⟩, ?_, ?_, ⟨?_, ?_⟩, fun hfin => ?_⟩
  · rw [(h.packet k hk).1, hall k (Nat.le_of_lt hk)]
    exact (hat k (Nat.le_of_lt hk)).2
  · rw [hafter]
    rfl
  · rw [hafter]
    exact hend
  · rw [hafter, hend, Flow.ahead_fpp]
    exact Nat.dvd_add hstep.aligned (Nat.dvd_mul_left _ _)
  · rw [hafter, Flow.ahead_fpp]
    rcases hnear with hnear | h0
    · omega
    · rw [h0, Flow.ahead_zero]
      exact hstep.near
  · have hahead := (h.done hfin).1
    rw [hafter] at hahead ⊢
    rcases hnear with hnear | h0
    · by_contra hle
      rw [wrappedDiff_near (by omega) (by omega)] at hahead
      omega
    · rw [h0, Flow.ahead_zero] at hahead ⊢
      omega

/-- Ahead of the clock there is nothing to send. -/
theorem TurnSpec.none_due {flow₁ flow₂ : Flow} {st₁ st₂ : TxRun} {ps : List TxPacket}
    {pe : Bool} (h : TurnSpec cfg env now pe fuel flow st flow' st' fin flow₁ flow₂ st₁ st₂ ps)
    (hahead : wrappedDiff now flow₁.nextTs < 0) : ps = [] ∧ flow₂ = flow₁ := by
  have hempty : ps = [] := by
    by_contra hne
    have hdue := h.loop.due 0 (List.length_pos_iff.mpr hne)
    rw [Flow.delivered, Flow.ahead_zero] at hdue
    omega
  have hafter := h.loop.after
  rw [hempty] at hafter
  exact ⟨hempty, hafter.trans flow₁.ahead_zero⟩

/-- A flow that is put back in step is ahead of the clock. -/
theorem Flow.resync_ahead {flow₁ : Flow} (hfpp : 1 ≤ flow.fpp) (hwide : flow.fpp < 2 ^ 62)
    (hlag : cfg.maxLagSamples.toNat < 2 ^ 62) (hnow : now.toNat < 2 ^ 63)
    (hout : Flow.OutOfStep cfg now flow) (h : resync cfg now flow = some flow₁) :
    flow₁ = { flow with nextTs := flow₁.nextTs } ∧ flow₁.InStep ∧
      (now.toNat < flow₁.nextTs.toNat ∧
        flow₁.nextTs.toNat = (now.toNat / flow.fpp + 1) * flow.fpp) ∧
      wrappedDiff now flow₁.nextTs < 0 := by
  rw [Flow.resync_once hlag, if_pos hout] at h
  obtain ⟨ts, hboot, hnext, hlt, hle⟩ := Flow.bootstrapNextTs_spec hfpp hwide hnow
  obtain rfl := Option.some.inj (hboot.symm.trans h)
  refine ⟨rfl, ⟨?_, ?_⟩, ⟨hlt, hnext⟩, ?_⟩
  · rw [hnext]
    exact Nat.dvd_mul_left _ _
  · show ts.toNat < 2 ^ 63 + flow.fpp
    omega
  · show wrappedDiff now ts < 0
    rw [wrappedDiff_near (by omega) (by omega)]
    omega

/-- A turn of a live flow whose sends go through. -/
structure TurnSchedule (cfg : TxConfig) (now : Clock) (flow flow' : Flow) (ps : List TxPacket) :
    Prop where
  fpp : flow'.fpp = flow.fpp
  inStep : flow'.InStep
  ahead : now.toNat < flow'.nextTs.toNat
  bound : ps.length ≤ cfg.maxLagSamples.toNat / flow.fpp + 1
  aligned : ∀ p ∈ ps, flow.fpp ∣ p.flow.nextTs.toNat
  put : Flow.OutOfStep cfg now flow →
    ps = [] ∧ flow'.nextTs.toNat = (now.toNat / flow.fpp + 1) * flow.fpp
  kept : ¬Flow.OutOfStep cfg now flow →
    (∀ k (hk : k < ps.length), ps[k].flow.nextTs.toNat = flow.nextTs.toNat + k * flow.fpp) ∧
      flow'.nextTs.toNat = flow.nextTs.toNat + ps.length * flow.fpp

/-- The same of a turn that may be cut short. -/
structure TurnProgress (cfg : TxConfig) (now : Clock) (fuel : Nat) (flow flow' : Flow)
    (fin : LoopEnd) (ps : List TxPacket) : Prop where
  fpp : flow'.fpp = flow.fpp
  inStep : flow'.InStep
  ahead : fin = .done → now.toNat < flow'.nextTs.toNat
  outOfFuel : fin = .outOfFuel → ps.length = fuel
  bound : ps.length ≤ cfg.maxLagSamples.toNat / flow.fpp + 1
  aligned : ∀ p ∈ ps, flow.fpp ∣ p.flow.nextTs.toNat
  put : Flow.OutOfStep cfg now flow →
    ps = [] ∧ flow'.nextTs.toNat = (now.toNat / flow.fpp + 1) * flow.fpp
  kept : ¬Flow.OutOfStep cfg now flow →
    (∀ k (hk : k < ps.length), ps[k].flow.nextTs.toNat = flow.nextTs.toNat + k * flow.fpp) ∧
      flow'.nextTs.toNat = flow.nextTs.toNat + ps.length * flow.fpp

theorem turn_progress {pe : Bool} (hc : st.Counted) (hlive : st.flags flow.expired = false)
    (h : transmitFlow cfg env now pe fuel flow st = some (flow', st', fin))
    (hstep : flow.InStep) (hfpp : 1 ≤ flow.fpp) (hwide : flow.fpp < 2 ^ 62)
    (hlag : cfg.maxLagSamples.toNat < 2 ^ 62) (hnow : now.toNat < 2 ^ 63)
    (hsends : ∀ n, st.sent.length ≤ n → n < st'.sent.length →
      env.send n = some flow.packetLen) :
    ∃ ps, st'.sent = st.sent ++ ps ∧ TurnProgress cfg now fuel flow flow' fin ps := by
  obtain ⟨flow₁, flow₂, st₁, st₂, ps, hspec⟩ := transmitFlow_spec hc hlive h
  obtain ⟨hsent, _, hts, hsame⟩ := hspec.state
  obtain ⟨b, _, hst₁⟩ := hspec.cleared
  have hlen₁ : st₁.sent.length = st.sent.length := by rw [hst₁]
  rw [hsent, List.length_append] at hsends
  have hloop := hspec.loop
  have hin : flow₂.InStep → flow'.InStep := fun hin =>
    ⟨by rw [hts, hsame]; exact hin.aligned, by rw [hts, hsame]; exact hin.near⟩
  have hfuel : fin = .outOfFuel → ps.length = fuel := fun hfin => (hloop.outOfFuel hfin).1
  refine ⟨ps, hsent, ?_⟩
  by_cases hout : Flow.OutOfStep cfg now flow
  · obtain ⟨hline, hstep₁, hahead, hdiff⟩ :=
      Flow.resync_ahead hfpp hwide hlag hnow hout hspec.synced
    obtain ⟨hempty, hafter⟩ := hspec.none_due hdiff
    rw [hafter] at hts hsame hin
    refine ⟨hsame.trans (by rw [hline]), hin hstep₁, fun _ => hts ▸ hahead.1, hfuel, ?_, ?_,
      fun _ => ⟨hempty, hts ▸ hahead.2⟩, fun hnot => absurd hout hnot⟩
    · rw [hempty]
      exact Nat.zero_le _
    · rw [hempty]
      exact fun p hp => absurd hp List.not_mem_nil
  · have hsync := hspec.synced
    rw [Flow.resync_once hlag, if_neg hout] at hsync
    obtain rfl := Option.some.inj hsync
    obtain ⟨hlag₁, hle⟩ := hstep.lag hwide hlag hnow hout
    obtain ⟨hat, hfpp₂, hafter, hstep₂, hend⟩ := hloop.schedule hstep hwide hnow hlag₁ (by
      rw [hlen₁]
      exact hsends)
    refine ⟨hsame.trans hfpp₂, hin hstep₂, fun hfin => hts ▸ hend hfin, hfuel, ?_, ?_,
      fun hin => absurd hin hout, fun _ => ⟨fun k hk => (hat k hk).1, hts ▸ hafter⟩⟩
    · rcases Nat.eq_zero_or_pos ps.length with h0 | hpos
      · rw [h0]
        exact Nat.zero_le _
      · have hlast := (hat (ps.length - 1) (by omega)).2
        have hdiv : ps.length - 1 ≤ cfg.maxLagSamples.toNat / flow.fpp :=
          (Nat.le_div_iff_mul_le hfpp).mpr (by omega)
        exact Nat.sub_le_iff_le_add.mp hdiv
    · intro p hp
      obtain ⟨k, hk, rfl⟩ := List.mem_iff_getElem.mp hp
      rw [(hat k hk).1]
      exact Nat.dvd_add hstep.aligned (Nat.dvd_mul_left _ _)

theorem turn_schedule {pe : Bool} (hc : st.Counted) (hlive : st.flags flow.expired = false)
    (h : transmitFlow cfg env now pe fuel flow st = some (flow', st', fin))
    (hstep : flow.InStep) (hfpp : 1 ≤ flow.fpp) (hwide : flow.fpp < 2 ^ 62)
    (hlag : cfg.maxLagSamples.toNat < 2 ^ 62) (hnow : now.toNat < 2 ^ 63)
    (hsends : ∀ n, st.sent.length ≤ n → n < st'.sent.length → env.send n = some flow.packetLen)
    (hyield : fin ≠ .yielded) (hfuel : cfg.maxLagSamples.toNat / flow.fpp + 1 < fuel) :
    ∃ ps, st'.sent = st.sent ++ ps ∧ fin = .done ∧ TurnSchedule cfg now flow flow' ps := by
  obtain ⟨ps, hsent, hturn⟩ := turn_progress hc hlive h hstep hfpp hwide hlag hnow hsends
  have hdone : fin = .done := by
    cases fin with
    | done => rfl
    | yielded => exact absurd rfl hyield
    | outOfFuel =>
        have hall := hturn.outOfFuel rfl
        have hbound := hturn.bound
        omega
  exact ⟨ps, hsent, hdone, hturn.fpp, hturn.inStep, hturn.ahead hdone, hturn.bound, hturn.aligned,
    hturn.put, hturn.kept⟩

end

/-! ## Call after call -/

/-- The turn of a flow in a call. -/
structure FlowRound where
  call : TransmitCall
  before : Flow
  start : TxRun
  after : Flow
  stop : TxRun
  fin : LoopEnd

/-- The turns of the flow in a slot in calls that follow each other. -/
def Rounds (cfg : TxConfig) (slot : Nat) : TxThread → List FlowRound → Prop
  | _, [] => True
  | s, r :: rs => Round cfg r.call s slot r.before r.start r.after r.stop r.fin ∧
      ∃ s' st fin, r.call.run cfg s = some (s', st, fin) ∧ Rounds cfg slot s' rs

namespace FlowRound

/-- The packets of the flow. -/
def packets (r : FlowRound) : List TxPacket := r.stop.sent.drop r.start.sent.length

/-- The flow is live, its sends succeed and the thread does not yield. -/
structure Undisturbed (cfg : TxConfig) (r : FlowRound) : Prop where
  live : r.start.flags r.before.expired = false
  sends : ∀ n, r.start.sent.length ≤ n → n < r.stop.sent.length →
    r.call.env.send n = some r.before.packetLen
  awake : r.fin ≠ .yielded
  fuel : cfg.maxLagSamples.toNat / r.before.fpp + 1 < r.call.fuel
  clock : r.call.now.toNat < 2 ^ 63

/-- What a call does for the flow. -/
structure Exact (cfg : TxConfig) (fpp : Nat) (r : FlowRound) : Prop where
  done : r.fin = .done
  aligned : ∀ p ∈ r.packets, fpp ∣ p.flow.nextTs.toNat
  bound : r.packets.length ≤ cfg.maxLagSamples.toNat / fpp + 1
  ahead : r.call.now.toNat < r.after.nextTs.toNat
  resynced : resync (r.call.config cfg) r.call.now r.before =
    if Flow.OutOfStep cfg r.call.now r.before then r.before.bootstrapNextTs r.call.now
    else some r.before
  put : Flow.OutOfStep cfg r.call.now r.before →
    r.packets = [] ∧ r.after.nextTs.toNat = (r.call.now.toNat / fpp + 1) * fpp

/-- The packets of a run with their times, and how often the flow was put back
in step before them. -/
def numbered (cfg : TxConfig) : Nat → List FlowRound → List (Nat × Int)
  | _, [] => []
  | resyncs, r :: rs =>
      let resyncs := if Flow.OutOfStep cfg r.call.now r.before then resyncs + 1 else resyncs
      (r.packets.map fun p => (resyncs, (p.flow.nextTs.toNat : Int))) ++ numbered cfg resyncs rs

/-- With no resync in between, the next packet comes `fpp` samples later. -/
def Follows (fpp : Nat) (p q : Nat × Int) : Prop := p.1 = q.1 → q.2 = p.2 + fpp

theorem le_numbered (cfg : TxConfig) (resyncs : Nat) (rs : List FlowRound) :
    ∀ q ∈ numbered cfg resyncs rs, resyncs ≤ q.1 := by
  induction rs generalizing resyncs with
  | nil => exact fun q hq => absurd hq List.not_mem_nil
  | cons r rs ih =>
      intro q hq
      rw [numbered] at hq
      rcases List.mem_append.mp hq with hq | hq
      · obtain ⟨p, _, rfl⟩ := List.mem_map.mp hq
        dsimp only
        split <;> omega
      · have hle := ih _ q hq
        split at hle <;> omega

/-- The packets of one call, and then what follows its last. -/
theorem follows_progression {fpp resyncs : Nat} {rest : List (Nat × Int)} {ps : List TxPacket}
    {ts : Int} (hps : ∀ k (hk : k < ps.length), (ps[k].flow.nextTs.toNat : Int) = ts + k * fpp)
    (hrest : List.IsChain (Follows fpp) ((resyncs, ts + ps.length * fpp - fpp) :: rest)) :
    List.IsChain (Follows fpp) ((resyncs, ts - fpp) ::
      ((ps.map fun p => (resyncs, (p.flow.nextTs.toNat : Int))) ++ rest)) := by
  induction ps generalizing ts with
  | nil => simpa using hrest
  | cons p ps ih =>
      have hfirst := hps 0 (Nat.zero_lt_succ _)
      rw [List.getElem_cons_zero] at hfirst
      rw [List.map_cons, List.cons_append, List.isChain_cons_cons]
      refine ⟨fun _ => ?_, ?_⟩
      · dsimp only
        rw [hfirst]
        push_cast
        ring
      · have hnext := @ih (ts + fpp) (fun k hk => ?_) ?_
        · rw [add_sub_cancel_right] at hnext
          rw [hfirst]
          simpa using hnext
        · have hk' := hps (k + 1) (Nat.succ_lt_succ hk)
          rw [List.getElem_cons_succ] at hk'
          rw [hk']
          push_cast
          ring
        · rw [List.length_cons] at hrest
          have heq : ts + fpp + (ps.length : Int) * fpp - fpp =
              ts + (ps.length + 1 : Nat) * fpp - fpp := by
            push_cast
            ring
          rw [heq]
          exact hrest

/-- From a flow in step on, every call is exact, and the packets follow each
other. -/
theorem rounds_exact {cfg : TxConfig} {slot : Nat} {s : TxThread} {flow : Flow}
    {rs : List FlowRound} (hrun : Rounds cfg slot s rs)
    (hslot : s.flows[slot]? = some (some flow)) (hstep : flow.InStep) (hfpp : 1 ≤ flow.fpp)
    (hwide : flow.fpp < 2 ^ 62) (hlag : cfg.maxLagSamples.toNat < 2 ^ 62)
    (hquiet : ∀ r ∈ rs, r.Undisturbed cfg) (resyncs : Nat) :
    (∀ r ∈ rs, r.Exact cfg flow.fpp) ∧
      List.IsChain (Follows flow.fpp)
        ((resyncs, (flow.nextTs.toNat : Int) - flow.fpp) :: numbered cfg resyncs rs) := by
  induction rs generalizing s flow resyncs with
  | nil => exact ⟨fun r hr => absurd hr List.not_mem_nil, List.isChain_singleton _⟩
  | cons r rs ih =>
      obtain ⟨hround, s', st, fin, hcall, hrest⟩ := hrun
      obtain ⟨hlive, hsends, hawake, hfuel, hclock⟩ := hquiet r List.mem_cons_self
      obtain rfl : r.before = flow := slot_unique hround.holds hslot
      obtain ⟨ps, hsent, hdone, hturn⟩ := turn_schedule hround.counted hlive hround.turn hstep
        hfpp hwide hlag hclock hsends hawake hfuel
      have hpackets : r.packets = ps := by
        rw [packets, hsent, List.drop_left]
      obtain ⟨hslot', _⟩ := hround.result hcall
      have hfpp' := hturn.fpp
      obtain ⟨hexact, hchain⟩ := ih hrest hslot' hturn.inStep (by rw [hfpp']; exact hfpp)
        (by rw [hfpp']; exact hwide) (fun r' hr' => hquiet r' (List.mem_cons_of_mem _ hr'))
        (if Flow.OutOfStep cfg r.call.now r.before then resyncs + 1 else resyncs)
      rw [hfpp'] at hexact hchain
      refine ⟨fun r' hr' => ?_, ?_⟩
      · rcases List.mem_cons.mp hr' with rfl | hr'
        · exact ⟨hdone, by rw [hpackets]; exact hturn.aligned,
            by rw [hpackets]; exact hturn.bound, hturn.ahead, Flow.resync_once hlag,
            by rw [hpackets]; exact hturn.put⟩
        · exact hexact r' hr'
      · rw [numbered, hpackets]
        split
        · next hout =>
            -- whatever comes next has been put back in step once more
            rw [if_pos hout] at hchain
            rw [(hturn.put hout).1, List.map_nil, List.nil_append]
            refine (List.isChain_cons.mp hchain).2.cons fun q hq heq => ?_
            have hle := le_numbered cfg (resyncs + 1) rs q (List.mem_of_mem_head? hq)
            dsimp only at heq
            omega
        · next hin =>
            rw [if_neg hin] at hchain
            obtain ⟨hat, hafter⟩ := hturn.kept hin
            refine follows_progression (fun k hk => ?_) ?_
            · rw [hat k hk]
              push_cast
              ring
            · rw [hafter] at hchain
              push_cast at hchain
              exact hchain

end FlowRound

/-! ## From the start -/

/-- A flow starts out in step, with the clock or without. -/
theorem newFlow_inStep {sampleRate : BitVec 32} {now : Option Clock} {socket : SocketAddr}
    {channelIndices : List (Option Nat)} {fpp bytesPerSample : Nat} {needsKeepalives : Bool}
    {expired : Flag} {flow : Flow} (hnow : ∀ t ∈ now, t.toNat < 2 ^ 63) (hfpp : 1 ≤ fpp)
    (hwide : fpp < 2 ^ 62)
    (h : newFlow sampleRate now socket channelIndices fpp bytesPerSample needsKeepalives expired =
      some flow) : flow.fpp = fpp ∧ flow.InStep := by
  cases now with
  | none =>
      cases h
      exact ⟨rfl, Nat.dvd_zero _, Nat.lt_of_lt_of_le (Nat.two_pow_pos 63) (Nat.le_add_right _ _)⟩
  | some now =>
      have hclock := hnow now rfl
      dsimp only [newFlow] at h
      obtain ⟨flow₁, hboot, h⟩ := Option.bind_eq_some_iff.mp h
      obtain ⟨ts, hspec, hts, _, hle⟩ := @Flow.bootstrapNextTs_spec now
        { socket, channelIndices, nextTs := 0, fpp, bytesPerSample,
          expires := if needsKeepalives then some 0 else none, expired } hfpp hwide hclock
      have heq := Option.some.inj (hspec.symm.trans hboot)
      subst heq
      have hin : fpp ∣ ts.toNat ∧ ts.toNat < 2 ^ 63 + fpp := by
        dsimp only at hts hle
        refine ⟨?_, by omega⟩
        rw [hts]
        exact Nat.dvd_mul_left _ _
      dsimp only at h
      split at h
      · cases h
        exact ⟨rfl, hin.1, hin.2⟩
      · cases h
        exact ⟨rfl, hin.1, hin.2⟩

/-- Whatever the clock does from call to call: no packet is skipped and none is
repeated. -/
theorem schedule_exact {cfg : TxConfig} {slot : Nat} {s : TxThread} {sampleRate : BitVec 32}
    {now : Option Clock} {socket : SocketAddr} {channelIndices : List (Option Nat)}
    {fpp bytesPerSample : Nat} {needsKeepalives : Bool} {expired : Flag} {flow : Flow}
    {rs : List FlowRound} (hnow : ∀ t ∈ now, t.toNat < 2 ^ 63) (hfpp : 1 ≤ fpp)
    (hwide : fpp < 2 ^ 62) (hlag : cfg.maxLagSamples.toNat < 2 ^ 62)
    (hnew : newFlow sampleRate now socket channelIndices fpp bytesPerSample needsKeepalives
      expired = some flow)
    (hslot : s.flows[slot]? = some (some flow)) (hrun : Rounds cfg slot s rs)
    (hquiet : ∀ r ∈ rs, r.Undisturbed cfg) :
    (∀ r ∈ rs, r.Exact cfg fpp) ∧
      List.IsChain (FlowRound.Follows fpp) (FlowRound.numbered cfg 0 rs) := by
  obtain ⟨hsame, hstep⟩ := newFlow_inStep hnow hfpp hwide hnew
  obtain ⟨hexact, hchain⟩ := FlowRound.rounds_exact hrun hslot hstep (by rw [hsame]; exact hfpp)
    (by rw [hsame]; exact hwide) hlag hquiet 0
  rw [hsame] at hexact hchain
  exact ⟨hexact, (List.isChain_cons.mp hchain).2⟩

/-- A flow of two channels without rings. -/
def ringlessFlow : Flow := ⟨⟨0, 4321⟩, [none, none], 16, 16, 3, some 192005, 0⟩

def ringlessConfig : TxConfig := ⟨48000, [], 0, 480, 0⟩

def ringlessThread : TxThread := ⟨[some ringlessFlow], fun _ => false, ⟨fun _ => 0, 0⟩⟩

/-- A call in which one packet is due. -/
def ringlessCall : TransmitCall :=
  ⟨[], ⟨fun _ => some 105, fun _ => none, fun _ => none⟩, 20, false, 40⟩

theorem schedule_exact_ringless : ∃ r : FlowRound, r.call = ringlessCall ∧
    r.before = ringlessFlow ∧ r.packets.length = 1 ∧ r.Exact ringlessConfig 16 := by
  have hrun : (ringlessCall.run ringlessConfig ringlessThread).isSome = true := by rfl
  obtain ⟨⟨s', st, fin⟩, hrun⟩ := Option.isSome_iff_exists.mp hrun
  have hturn : (transmitFlow (ringlessCall.config ringlessConfig) ringlessCall.env 20 false 40
      ringlessFlow (.begin (fun _ => false) ⟨fun _ => 0, 0⟩)).map
        (fun q => (q.2.1.sent.length, q.2.2)) = some (1, .done) := by rfl
  obtain ⟨⟨flow', st', fin'⟩, hturn, hends⟩ := Option.map_eq_some_iff.mp hturn
  obtain ⟨hlen, hdone⟩ := Prod.mk.inj hends
  dsimp only at hlen hdone
  subst hdone
  let r : FlowRound := ⟨ringlessCall, ringlessFlow, .begin (fun _ => false) ⟨fun _ => 0, 0⟩, flow',
    st', .done⟩
  have hround : Round ringlessConfig r.call ringlessThread 0 r.before r.start r.after r.stop r.fin :=
    ⟨rfl, ⟨[], rfl⟩, hturn⟩
  have hquiet : r.Undisturbed ringlessConfig :=
    ⟨rfl, fun _ _ _ => rfl, LoopEnd.noConfusion, by show 480 / 16 + 1 < 40; decide,
      by show 20 < 2 ^ 63; decide⟩
  obtain ⟨hexact, _⟩ := @schedule_exact ringlessConfig 0 ringlessThread 48000 (some 5) ⟨0, 4321⟩
    [none, none] 16 3 true 0 ringlessFlow [r] (by simp) (by decide) (by decide) (by decide) rfl rfl
    ⟨hround, s', st, fin, hrun, trivial⟩ fun q hq => List.mem_singleton.mp hq ▸ hquiet
  exact ⟨r, rfl, rfl, hlen, hexact r List.mem_cons_self⟩

end Inferno
