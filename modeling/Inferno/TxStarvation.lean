import Inferno.TxSchedule
import Inferno.TxWorld

/-!
# A destination that nothing reaches

`next_ts` moves on only after a send that succeeds, so a flow whose sends fail
stays due and its loop goes on until the clock, read at every sixteenth packet,
says that the thread has been awake too long. Then the whole call returns,
without the flows after it and without looking at its keepalives (`Held`). Call
after call its lag grows, until it is put back in step with the clock; then the
other flows have their turns and its keepalives are looked at
(`starved_no_longer`). With a clock that stands still the call does not return
at all, and keepalives that are only looked at in the calls that are held up
are never looked at (`dead_flow_starves`).
-/

namespace Inferno

/-! ## Flags -/

section

variable {cfg : TxConfig} {env : Outside} {now : Clock} {flow flow' : Flow} {st st' : TxRun}
  {fuel : Nat} {fin : LoopEnd} {pe : Bool}

/-- A turn sets flags and clears none. -/
theorem transmitFlow_live {x : Flag}
    (h : transmitFlow cfg env now pe fuel flow st = some (flow', st', fin))
    (hlive : st'.flags x = false) : st.flags x = false := by
  obtain ⟨_, hflags, _⟩ := transmitFlow_keeps h
  rcases hflags with hsame | hset
  · rw [← hsame]
    exact hlive
  · rw [hset] at hlive
    by_cases hx : x = flow.expired
    · rw [hx, Function.update_self] at hlive
      cases hlive
    · rwa [Function.update_of_ne hx] at hlive

theorem transmitFlows_live {flows flows' : List (Option Flow)} {x : Flag}
    (h : transmitFlows cfg env now pe fuel flows st = some (flows', st', fin))
    (hlive : st'.flags x = false) : st.flags x = false :=
  transmitFlows_rel (R := fun st st' => st'.flags x = false → st.flags x = false)
    (fun _ hlive => hlive) (fun h₁ h₂ hlive => h₁ (h₂ hlive))
    (fun _ _ _ _ _ _ hturn => transmitFlow_live hturn) h hlive

end

section

variable {cfg : TxConfig} {c : TransmitCall} {s s' : TxThread} {slot : Nat}
  {flow flow' : Flow} {st st' st₀ : TxRun} {fin fin' : LoopEnd} {x : Flag}

/-- A flag that is clear when the call is over was clear in each turn. -/
theorem Round.live (h : Round cfg c s slot flow st flow' st' fin)
    (hrun : c.run cfg s = some (s', st₀, fin')) (hlive : s'.flags x = false) :
    st'.flags x = false := by
  obtain ⟨before, hbefore⟩ := h.before
  rw [run_eq_turns h.holds, hbefore, Option.bind_some] at hrun
  dsimp only at hrun
  rw [if_pos rfl, h.turn, Option.bind_some] at hrun
  dsimp only at hrun
  split at hrun
  · obtain ⟨⟨after, st₂, fin₂⟩, hafter, hrun⟩ := Option.map_eq_some_iff.mp hrun
    cases hrun
    exact transmitFlows_live hafter hlive
  · cases hrun
    exact hlive

/-- A turn in which the thread yields has read a clock that says so. -/
theorem Round.tooLong (h : Round cfg c s slot flow st flow' st' .yielded) :
    0 < st'.sent.length ∧ TooLong cfg c.env c.now st'.sent.length ∧ st'.Counted := by
  cases hlive : st.flags flow.expired with
  | true =>
      have hturn := h.turn
      rw [transmitFlow, if_pos hlive] at hturn
      cases hturn
  | false =>
      obtain ⟨flow₁, flow₂, st₁, st₂, ps, hspec⟩ := transmitFlow_spec h.counted hlive h.turn
      obtain ⟨hsent, hcounted, _, _⟩ := hspec.state
      obtain ⟨b, _, hst₁⟩ := hspec.cleared
      obtain ⟨hsome, hlong⟩ := hspec.loop.yielded rfl
      rw [hst₁] at hlong
      have hpos := List.length_pos_iff.mpr hsome
      rw [hsent, List.length_append]
      exact ⟨by omega, hlong, hcounted⟩

theorem Round.live_before (h : Round cfg c s slot flow st flow' st' fin)
    (hlive : st.flags x = false) : s.flags x = false := by
  obtain ⟨before, hbefore⟩ := h.before
  exact transmitFlows_live hbefore hlive

end

/-! ## Turns of the others -/

section

variable {cfg : TxConfig} {env : Outside} {now : Clock} {flow flow' : Flow} {st st' : TxRun}
  {fuel : Nat} {fin : LoopEnd} {pe : Bool}

/-- The loop that goes round without a packet being sent. -/
theorem turn_spins (hc : st.Counted) (hlive : st.flags flow.expired = false)
    (h : transmitFlow cfg env now pe fuel flow st = some (flow', st', fin))
    (hlag : cfg.maxLagSamples.toNat < 2 ^ 62) (hin : ¬Flow.OutOfStep cfg now flow)
    (hdue : 0 ≤ wrappedDiff now flow.nextTs)
    (hfails : ∀ n, st.sent.length ≤ n → n < st'.sent.length →
      env.send n ≠ some flow.packetLen) :
    flow' = flow ∧ st'.flags = st.flags ∧ st'.recvs = st.recvs ∧ fin ≠ .done ∧
      (fin = .outOfFuel → ∀ k < fuel, ¬TooLong cfg env now (st.sent.length + k + 1)) := by
  obtain ⟨flow₁, flow₂, st₁, st₂, ps, hspec⟩ := transmitFlow_spec hc hlive h
  obtain ⟨hsent, _, _, _⟩ := hspec.state
  obtain ⟨b, _, hst₁⟩ := hspec.cleared
  have hlen₁ : st₁.sent.length = st.sent.length := by rw [hst₁]
  have hsync := hspec.synced
  rw [Flow.resync_once hlag, if_neg hin] at hsync
  obtain rfl := Option.some.inj hsync
  have hstays : flow₂ = flow := by
    rw [hspec.loop.after, flow.delivered_none, Flow.ahead_zero]
    intro k hk
    refine hfails _ (by omega) ?_
    rw [hsent, List.length_append]
    omega
  have hturns : fin ≠ .done := by
    intro hfin
    have hahead := (hspec.loop.done hfin).1
    rw [hstays] at hahead
    omega
  have hends := hspec.ends
  rw [if_neg fun hfin => hturns hfin.1] at hends
  obtain rfl : st' = st₂ := congrArg Prod.snd hends
  refine ⟨(congrArg Prod.fst hends).trans hstays, by rw [hspec.loop.flags, hst₁],
    by rw [hspec.loop.recvs, hst₁], hturns, fun hfin k hk => ?_⟩
  obtain ⟨hall, hquiet⟩ := hspec.loop.outOfFuel hfin
  rw [← hlen₁]
  exact hquiet k (by rw [hall]; exact hk)

/-- A live flow that has nothing to send is done, and has its keepalives looked
at if the call is to. -/
theorem turn_rests (hc : st.Counted) (hlive : st.flags flow.expired = false)
    (h : transmitFlow cfg env now pe fuel flow st = some (flow', st', fin))
    (hfpp : 1 ≤ flow.fpp) (hwide : flow.fpp < 2 ^ 62)
    (hlag : cfg.maxLagSamples.toNat < 2 ^ 62) (hnow : now.toNat < 2 ^ 63) (hstep : flow.InStep)
    (hrests : Flow.OutOfStep cfg now flow ∨ wrappedDiff now flow.nextTs < 0) (hfuel : 0 < fuel) :
    flow'.InStep ∧ fin = .done ∧ st'.sent = st.sent ∧
      (pe = false → resync cfg now flow = some flow') ∧ (pe = true → ∀ e ∈ flow.expires,
      st'.recvs = st.recvs + 1 ∧
        (env.recv st.recvs = none → wrappedDiff e now < 0 → st'.flags flow.expired = true)) := by
  obtain ⟨flow₁, flow₂, st₁, st₂, ps, hspec⟩ := transmitFlow_spec hc hlive h
  obtain ⟨hsent, _, hts, hsame⟩ := hspec.state
  obtain ⟨b, _, hst₁⟩ := hspec.cleared
  obtain ⟨hline, hstep₁, hahead⟩ : flow₁ = { flow with nextTs := flow₁.nextTs } ∧
      flow₁.InStep ∧ wrappedDiff now flow₁.nextTs < 0 := by
    by_cases hout : Flow.OutOfStep cfg now flow
    · obtain ⟨hline, hstep₁, _, hahead⟩ :=
        Flow.resync_ahead hfpp hwide hlag hnow hout hspec.synced
      exact ⟨hline, hstep₁, hahead⟩
    · have hsync := hspec.synced
      rw [Flow.resync_once hlag, if_neg hout] at hsync
      obtain rfl := Option.some.inj hsync
      exact ⟨rfl, hstep, hrests.resolve_left hout⟩
  obtain ⟨hempty, rfl⟩ := hspec.none_due hahead
  have hdone : fin = .done := by
    cases fin with
    | done => rfl
    | yielded => exact absurd hempty (hspec.loop.yielded rfl).1
    | outOfFuel =>
        have hall := (hspec.loop.outOfFuel rfl).1
        rw [hempty, List.length_nil] at hall
        omega
  refine ⟨⟨by rw [hts, hsame]; exact hstep₁.aligned, by rw [hts, hsame]; exact hstep₁.near⟩,
    hdone, by rw [hsent, hempty, List.append_nil], fun hnone => ?_, fun hevents e he => ?_⟩
  · have hends := hspec.ends
    rw [if_neg fun hfin => by rw [hnone] at hfin; cases hfin.2] at hends
    rw [show flow' = flow₂ from congrArg Prod.fst hends]
    exact hspec.synced
  have hst' := congrArg Prod.snd hspec.ends
  rw [if_pos ⟨hdone, hevents⟩] at hst'
  dsimp only at hst'
  have hrecvs : st₂.recvs = st.recvs := by rw [hspec.loop.recvs, hst₁]
  have hexpires : flow₂.expires = some e := by rw [hline]; exact he
  have hexpired : flow₂.expired = flow.expired := by rw [hline]
  rw [hst', processKeepalive, hexpires, ← hrecvs]
  dsimp only
  cases hrecv : env.recv st₂.recvs with
  | some bytes => exact ⟨rfl, fun hnone => by cases hnone⟩
  | none =>
      dsimp only
      split
      · refine ⟨rfl, fun _ _ => ?_⟩
        rw [hexpired]
        exact Function.update_self _ _ _
      · next hlapsed => exact ⟨rfl, fun _ hl => absurd hl hlapsed⟩

/-- A flow that is expired has no turn to speak of. -/
theorem turn_expired (hexpired : st.flags flow.expired = true)
    (h : transmitFlow cfg env now pe fuel flow st = some (flow', st', fin)) :
    flow' = flow ∧ st' = st ∧ fin = .done := by
  rw [transmitFlow, if_pos hexpired] at h
  cases h
  exact ⟨rfl, rfl, rfl⟩

end

/-- Flags are set where keepalives are looked at. -/
theorem transmitFlow_unasked (h : transmitFlow cfg env now false fuel flow st =
    some (flow', st', fin)) : st'.flags = st.flags := by
  rw [transmitFlow] at h
  split at h
  · cases h
    rfl
  · obtain ⟨flow₁, _, h⟩ := Option.bind_eq_some_iff.mp h
    obtain ⟨b, _, h⟩ := Option.bind_eq_some_iff.mp h
    obtain ⟨⟨flow₂, st₂, fin₂⟩, hloop, h⟩ := Option.bind_eq_some_iff.mp h
    dsimp only at h
    rw [if_neg fun hfin => by cases hfin.2] at h
    cases h
    exact (sendLoop_keeps hloop).2.1

theorem transmitFlows_unasked {flows flows' : List (Option Flow)}
    (h : transmitFlows cfg env now false fuel flows st = some (flows', st', fin)) :
    st'.flags = st.flags :=
  transmitFlows_rel (R := fun st st' => st'.flags = st.flags) (fun _ => rfl)
    (fun h₁ h₂ => h₂.trans h₁) (fun _ _ _ _ _ _ hturn => transmitFlow_unasked hturn) h

/-! ## Calls -/

/-- What the thread is given, and what its calls leave. -/
structure TxThread.Ready (s : TxThread) : Prop where
  fits : ∀ flow, some flow ∈ s.flows → flow.Fits
  inStep : ∀ flow, some flow ∈ s.flows → flow.InStep

/-- The flow in the slot is live and due, and not so late that it is put back in
step. -/
def Stuck (cfg : TxConfig) (d : Nat) (c : TransmitCall) (s : TxThread) : Prop :=
  ∃ flow, s.flows[d]? = some (some flow) ∧ s.flags flow.expired = false ∧
    0 ≤ wrappedDiff c.now flow.nextTs ∧ ¬Flow.OutOfStep cfg c.now flow

/-- A call in which the sends of the flow in slot `d` fail and those of the others
succeed. The clock is never behind `now`; it says that the thread has been awake
too long if the flow in slot `d` is stuck, and only then. -/
structure PacedCall (cfg : TxConfig) (d : Nat) (c : TransmitCall) (s : TxThread) : Prop where
  clock : c.now.toNat < 2 ^ 63
  readings : ∀ k, ∀ r ∈ c.env.now k, c.now.toNat ≤ r.toNat ∧ r.toNat < 2 ^ 63
  fuel : cfg.maxLagSamples.toNat + 1 < c.fuel
  sends : ∀ {slot flow st flow' st' fin}, Round cfg c s slot flow st flow' st' fin →
    ∀ n, st.sent.length ≤ n → n < st'.sent.length →
      (c.env.send n = some flow.packetLen ↔ slot ≠ d)
  late : Stuck cfg d c s →
    ∃ n₀, n₀ + 16 ≤ c.fuel ∧ ∀ n ≥ n₀, n % 16 = 0 → TooLong cfg c.env c.now n
  quiet : ¬Stuck cfg d c s → ∀ n, ¬TooLong cfg c.env c.now n

/-- What a call does that is not held up: every other flow gets ahead of the
clock, and the keepalives of the flow in slot `d` are looked at if the call is
to. -/
structure Served (cfg : TxConfig) (d : Nat) (c : TransmitCall) (s s' : TxThread) : Prop where
  others : ∀ slot flow, slot ≠ d → s'.flows[slot]? = some (some flow) →
    s'.flags flow.expired = false → c.now.toNat < flow.nextTs.toNat
  keepalives : ∀ flow, s.flows[d]? = some (some flow) →
    ∃ st flow' st', Round cfg c s d flow st flow' st' .done ∧
      (c.processEvents = true → st.flags flow.expired = false → ∀ e ∈ flow.expires,
        st'.recvs = st.recvs + 1 ∧
          (c.env.recv st.recvs = none → wrappedDiff e c.now < 0 →
            s'.flags flow.expired = true))

/-- What a call does that is held up: the flow in slot `d` stays what it is, and
its keepalives are not looked at. -/
structure Held (cfg : TxConfig) (d : Nat) (c : TransmitCall) (s s' : TxThread) : Prop where
  kept : s'.flows[d]? = s.flows[d]?
  unseen : ∀ {flow st flow' st' fin}, Round cfg c s d flow st flow' st' fin →
    st'.flags = st.flags ∧ st'.recvs = st.recvs

section

variable {cfg : TxConfig} {d : Nat} {c : TransmitCall} {s s' : TxThread} {slot : Nat}
  {flow flow' : Flow} {st st' st₀ : TxRun} {fin fin' : LoopEnd}

theorem TxThread.Ready.at (h : s.Ready) (hslot : s.flows[slot]? = some (some flow)) :
    flow.InStep ∧ 1 ≤ flow.fpp ∧ flow.fpp < 2 ^ 62 := by
  have hmem := List.mem_of_getElem? hslot
  have hpos : 1 ≤ flow.fpp := (h.fits flow hmem).fpp_pos
  have hle : flow.fpp ≤ 256 := (h.fits flow hmem).fpp_le
  exact ⟨h.inStep flow hmem, hpos, by omega⟩

theorem changeChannels_inStep {sampleRate : BitVec 32} {now : Option Clock} {expired : Bool}
    {channelIndices : List (Option Nat)} (hnow : ∀ t ∈ now, t.toNat < 2 ^ 63)
    (hstep : flow.InStep) (hfpp : 1 ≤ flow.fpp) (hwide : flow.fpp < 2 ^ 62)
    (h : changeChannels sampleRate now expired channelIndices flow = some flow') :
    flow'.InStep := by
  cases now with
  | none =>
      cases h
      exact ⟨hstep.aligned, hstep.near⟩
  | some now =>
      have hclock := hnow now rfl
      dsimp only [changeChannels] at h
      split at h
      · obtain ⟨ts, hspec, hts, _, hle⟩ := @Flow.bootstrapNextTs_spec now
          (Flow.keepAlive { flow with channelIndices := channelIndices } now sampleRate) hfpp hwide
          hclock
        obtain rfl := Option.some.inj (hspec.symm.trans h)
        refine ⟨?_, ?_⟩
        · show flow.fpp ∣ ts.toNat
          rw [hts]
          exact Nat.dvd_mul_left _ _
        · show ts.toNat < 2 ^ 63 + flow.fpp
          exact Nat.lt_of_le_of_lt hle (Nat.add_lt_add_right hclock _)
      · cases h
        exact ⟨hstep.aligned, hstep.near⟩

/-- A command that fits is taken, and leaves the flows in step. -/
theorem TxThread.Ready.command {sampleRate : BitVec 32} {now : Option Clock} {command : TxCommand}
    (hs : s.Ready) (hlen : s.flows.length = MAX_FLOWS) (hnow : ∀ t ∈ now, t.toNat < 2 ^ 63)
    (hfits : CommandFits (formats s.flows) command) :
    ∃ flows flags, handleCommand sampleRate now s.flows s.flags command = some (flows, flags) ∧
      TxThread.Ready ⟨flows, flags, s.ditherRng⟩ := by
  obtain ⟨flows, flags, hrun, htable, _⟩ :=
    @handleCommand_fits sampleRate now s.flows s.flags ⟨hlen, hs.fits⟩ command hfits
  refine ⟨flows, flags, hrun, htable.2, fun flow hmem => ?_⟩
  cases command with
  | noOp =>
      cases hrun
      exact hs.inStep flow hmem
  | shutdown =>
      cases hrun
      exact hs.inStep flow hmem
  | addFlow index socket channelIndices fpp bytesPerSample needsKeepalives expired =>
      have hpos : 1 ≤ fpp := hfits.2.2.fpp_pos
      have hle : fpp ≤ 256 := hfits.2.2.fpp_le
      obtain ⟨added, hnew, hrun⟩ := Option.bind_eq_some_iff.mp hrun
      split at hrun
      · cases hrun
        rcases List.mem_or_eq_of_mem_set hmem with hmem | heq
        · exact hs.inStep flow hmem
        · cases heq
          exact (newFlow_inStep hnow hpos (by omega) hnew).2
      · cases hrun
  | removeFlow index =>
      rw [handleCommand] at hrun
      split at hrun
      · cases hrun
        rcases List.mem_or_eq_of_mem_set hmem with hmem | heq
        · exact hs.inStep flow hmem
        · cases heq
      · cases hrun
  | setChannels index channelIndices =>
      rw [handleCommand] at hrun
      split at hrun
      · next old hold =>
          obtain ⟨changed, hchange, hrun⟩ := Option.bind_eq_some_iff.mp hrun
          cases hrun
          obtain ⟨hstep, hpos, hwide⟩ := hs.at hold
          rcases List.mem_or_eq_of_mem_set hmem with hmem | heq
          · exact hs.inStep flow hmem
          · cases heq
            exact changeChannels_inStep hnow hstep hpos hwide hchange
      · cases hrun

/-- The turn of a flow whose sends succeed. -/
theorem PacedCall.other (h : PacedCall cfg d c s) (hs : s.Ready)
    (hlag : cfg.maxLagSamples.toNat < 2 ^ 62) (hround : Round cfg c s slot flow st flow' st' fin)
    (hne : slot ≠ d) : flow'.InStep ∧ fin ≠ .outOfFuel ∧
      (fin = .done → st.flags flow.expired = false → c.now.toNat < flow'.nextTs.toNat) := by
  obtain ⟨hstep, hpos, hwide⟩ := hs.at hround.holds
  cases hlive : st.flags flow.expired with
  | true =>
      obtain ⟨rfl, _, rfl⟩ := turn_expired hlive hround.turn
      exact ⟨hstep, LoopEnd.noConfusion, fun _ hfalse => by cases hfalse⟩
  | false =>
      obtain ⟨ps, _, hturn⟩ := turn_progress hround.counted hlive hround.turn hstep hpos hwide
        (show (c.config cfg).maxLagSamples.toNat < 2 ^ 62 from hlag) h.clock
        fun n hge hlt => (h.sends hround n hge hlt).mpr hne
      refine ⟨hturn.inStep, fun hfin => ?_, fun hfin _ => hturn.ahead hfin⟩
      have hdiv := Nat.div_le_self cfg.maxLagSamples.toNat flow.fpp
      have hle : ps.length ≤ cfg.maxLagSamples.toNat + 1 :=
        hturn.bound.trans (Nat.succ_le_succ hdiv)
      have hmore := h.fuel
      rw [← hturn.outOfFuel hfin] at hmore
      omega

/-- The turn of the flow whose sends fail, when it is stuck. -/
theorem PacedCall.stuck (h : PacedCall cfg d c s) (hlag : cfg.maxLagSamples.toNat < 2 ^ 62)
    (hround : Round cfg c s d flow st flow' st' fin) (hstuck : Stuck cfg d c s) :
    flow' = flow ∧ st'.flags = st.flags ∧ st'.recvs = st.recvs ∧ fin ≠ .outOfFuel ∧
      (fin = .done → st'.flags flow.expired = true) := by
  obtain ⟨flow₁, hslot, _, hdue, hin⟩ := hstuck
  obtain rfl : flow = flow₁ := slot_unique hround.holds hslot
  cases hlive : st.flags flow.expired with
  | true =>
      obtain ⟨rfl, rfl, rfl⟩ := turn_expired hlive hround.turn
      exact ⟨rfl, rfl, rfl, LoopEnd.noConfusion, fun _ => hlive⟩
  | false =>
      obtain ⟨hstays, hflags, hrecvs, hgoes, hquiet⟩ := turn_spins hround.counted hlive
        hround.turn hlag hin hdue fun n hge hlt hsent => (h.sends hround n hge hlt).mp hsent rfl
      refine ⟨hstays, hflags, hrecvs, fun hfin => ?_, fun hfin => absurd hfin hgoes⟩
      -- a reading that is late comes before the loop has gone round `fuel` times
      obtain ⟨n₀, hfuel, hlate⟩ := h.late ⟨flow, hround.holds,
        hround.live_before hlive, hdue, hin⟩
      refine hquiet hfin ((max n₀ (st.sent.length + 1) + 15) / 16 * 16 - st.sent.length - 1)
        (by omega) ?_
      have hindex : st.sent.length +
          ((max n₀ (st.sent.length + 1) + 15) / 16 * 16 - st.sent.length - 1) + 1 =
            (max n₀ (st.sent.length + 1) + 15) / 16 * 16 := by omega
      rw [hindex]
      exact hlate _ (by omega) (Nat.mul_mod_left _ _)

/-- The turn of the flow whose sends fail, when it has nothing to send. -/
theorem PacedCall.rests (h : PacedCall cfg d c s) (hs : s.Ready)
    (hlag : cfg.maxLagSamples.toNat < 2 ^ 62) (hround : Round cfg c s d flow st flow' st' fin)
    (hfree : ¬Stuck cfg d c s) : flow'.InStep ∧ fin = .done ∧
      (c.processEvents = true → st.flags flow.expired = false → ∀ e ∈ flow.expires,
        st'.recvs = st.recvs + 1 ∧
          (c.env.recv st.recvs = none → wrappedDiff e c.now < 0 →
            st'.flags flow.expired = true)) := by
  obtain ⟨hstep, hpos, hwide⟩ := hs.at hround.holds
  cases hlive : st.flags flow.expired with
  | true =>
      obtain ⟨rfl, _, rfl⟩ := turn_expired hlive hround.turn
      exact ⟨hstep, rfl, fun _ hfalse => by cases hfalse⟩
  | false =>
      have hrests : Flow.OutOfStep cfg c.now flow ∨ wrappedDiff c.now flow.nextTs < 0 := by
        by_contra hnot
        rw [not_or, Int.not_lt] at hnot
        exact hfree ⟨flow, hround.holds, hround.live_before hlive, hnot.2, hnot.1⟩
      obtain ⟨hstep', hdone, _, _, hchecks⟩ := turn_rests hround.counted hlive hround.turn hpos
        hwide hlag h.clock hstep hrests (Nat.zero_lt_of_lt h.fuel)
      exact ⟨hstep', hdone, fun hevents _ => hchecks hevents⟩

theorem PacedCall.round_inStep (h : PacedCall cfg d c s) (hs : s.Ready)
    (hlag : cfg.maxLagSamples.toNat < 2 ^ 62)
    (hround : Round cfg c s slot flow st flow' st' fin) : flow'.InStep := by
  by_cases hd : slot = d
  · subst hd
    by_cases hstuck : Stuck cfg slot c s
    · rw [(h.stuck hlag hround hstuck).1]
      exact (hs.at hround.holds).1
    · exact (h.rests hs hlag hround hstuck).1
  · exact (h.other hs hlag hround hd).1

/-- A call comes back, with the flows in the slots they were in. -/
theorem TxThread.Ready.returns (hs : s.Ready) (hrate : cfg.sampleRate ≠ 0) (c : TransmitCall) :
    ∃ s' st fin, c.run cfg s = some (s', st, fin) ∧
      ∀ (slot : Nat) (flow' : Flow), s'.flows[slot]? = some (some flow') →
        ∃ flow : Flow, s.flows[slot]? = some (some flow) ∧ flow'.shape = flow.shape := by
  obtain ⟨flows', st, fin, hflows, hsame⟩ := @transmitFlows_some (c.config cfg) hrate s.flows
    hs.fits c.env c.now c.processEvents c.fuel (.begin s.flags s.ditherRng) List.length_replicate
  refine ⟨⟨flows', st.flags, st.buffers.ditherRng⟩, st, fin, ?_, fun slot flow' hslot' => ?_⟩
  · rw [TransmitCall.run, transmit, hflows]
    rfl
  · have hat := congrArg (fun l => l[slot]?) hsame
    dsimp only at hat hslot'
    rw [List.getElem?_map, List.getElem?_map, hslot'] at hat
    obtain ⟨o, ho, hshape⟩ := Option.map_eq_some_iff.mp hat.symm
    obtain ⟨flow, rfl, heq⟩ := Option.map_eq_some_iff.mp hshape
    exact ⟨flow, ho, heq.symm⟩

theorem TxThread.Ready.slot_from (hs : s.Ready) (hrate : cfg.sampleRate ≠ 0)
    (hrun : c.run cfg s = some (s', st, fin)) (hslot' : s'.flows[slot]? = some (some flow')) :
    ∃ flow : Flow, s.flows[slot]? = some (some flow) ∧ flow'.shape = flow.shape := by
  obtain ⟨s₁, st₁, fin₁, hrun₁, hfrom⟩ := hs.returns hrate c
  cases hrun.symm.trans hrun₁
  exact hfrom slot flow' hslot'

theorem PacedCall.ready (h : PacedCall cfg d c s) (hs : s.Ready) (hrate : cfg.sampleRate ≠ 0)
    (hlag : cfg.maxLagSamples.toNat < 2 ^ 62) (hrun : c.run cfg s = some (s', st, fin)) :
    s'.Ready := by
  constructor
  · intro flow' hmem
    obtain ⟨slot, hslot'⟩ := List.mem_iff_getElem?.mp hmem
    obtain ⟨flow, hslot, hshape⟩ := hs.slot_from hrate hrun hslot'
    exact (hs.fits flow (List.mem_of_getElem? hslot)).of_shape hshape
  · intro flow' hmem
    obtain ⟨slot, hslot'⟩ := List.mem_iff_getElem?.mp hmem
    obtain ⟨flow, hslot, _⟩ := hs.slot_from hrate hrun hslot'
    rcases slot_after hrun hslot with hkept | ⟨_, flow₁, _, _, hround, hafter⟩
    · obtain rfl : flow' = flow := slot_unique hslot' hkept
      exact (hs.at hslot).1
    · obtain rfl : flow' = flow₁ := slot_unique hslot' hafter
      exact h.round_inStep hs hlag hround

/-- Unless the flow whose sends fail is stuck, the call goes through the table. -/
theorem PacedCall.served (h : PacedCall cfg d c s) (hs : s.Ready) (hrate : cfg.sampleRate ≠ 0)
    (hlag : cfg.maxLagSamples.toNat < 2 ^ 62) (hfree : ¬Stuck cfg d c s)
    (hrun : c.run cfg s = some (s', st, fin)) : fin = .done ∧ Served cfg d c s s' := by
  have hdone : fin = .done := by
    by_contra hcut
    obtain ⟨slot, flow, st₁, flow', hround⟩ := exists_cut hrun hcut
    by_cases hd : slot = d
    · subst hd
      exact hcut (h.rests hs hlag hround hfree).2.1
    · cases fin with
      | done => exact hcut rfl
      | yielded =>
          exact h.quiet hfree _ hround.tooLong.2.1
      | outOfFuel => exact (h.other hs hlag hround hd).2.1 rfl
  subst hdone
  refine ⟨rfl, fun slot flow' hd hslot' hlive => ?_, fun flow hslot => ?_⟩
  · obtain ⟨flow, hslot, _⟩ := hs.slot_from hrate hrun hslot'
    obtain ⟨st₁, flow₁, st₂, hround⟩ := exists_round hrun hslot
    obtain rfl : flow' = flow₁ := slot_unique hslot' (hround.result hrun).1
    have hsame : flow'.expired = flow.expired := (transmitFlow_keeps hround.turn).1.expired
    rw [hsame] at hlive
    exact (h.other hs hlag hround hd).2.2 rfl
      (transmitFlow_live hround.turn (hround.live hrun hlive))
  · obtain ⟨st₁, flow', st₂, hround⟩ := exists_round hrun hslot
    refine ⟨st₁, flow', st₂, hround, fun hevents hlive e he => ?_⟩
    obtain ⟨hlooks, hmarks⟩ := (h.rests hs hlag hround hfree).2.2 hevents hlive e he
    refine ⟨hlooks, fun hnone hlapsed => ?_⟩
    by_contra hstill
    have hclear := hround.live hrun (Bool.eq_false_iff.mpr hstill)
    rw [hmarks hnone hlapsed] at hclear
    cases hclear

/-- If it is stuck, the call leaves it as it is, and has read a clock that is
well past `now`. -/
theorem PacedCall.held (h : PacedCall cfg d c s) (hs : s.Ready)
    (hlag : cfg.maxLagSamples.toNat < 2 ^ 62) (hstuck : Stuck cfg d c s)
    (hslot : s.flows[d]? = some (some flow)) (hrun : c.run cfg s = some (s', st, fin)) :
    Held cfg d c s s' ∧ (s'.flags flow.expired = true ∨
      ∃ k < st.nows, ∃ r ∈ c.env.now k,
        c.now.toNat + (cfg.sampleRate / 200).toNat < r.toNat) := by
  refine ⟨⟨?_, fun hround => ?_⟩, ?_⟩
  · rw [hslot]
    rcases slot_after hrun hslot with hkept | ⟨_, flow', _, _, hround, hafter⟩
    · exact hkept
    · rw [hafter, (h.stuck hlag hround hstuck).1]
  · obtain ⟨_, hflags, hrecvs, _⟩ := h.stuck hlag hround hstuck
    exact ⟨hflags, hrecvs⟩
  · cases fin with
    | done =>
        obtain ⟨st₁, flow', st₂, hround⟩ := exists_round hrun hslot
        refine Or.inl ?_
        by_contra hstill
        have hclear := hround.live hrun (Bool.eq_false_iff.mpr hstill)
        rw [(h.stuck hlag hround hstuck).2.2.2.2 rfl] at hclear
        cases hclear
    | yielded =>
        obtain ⟨slot, flow₁, st₁, flow', hround⟩ := exists_cut hrun LoopEnd.noConfusion
        obtain ⟨hpos, ⟨hsixteenth, r, hr, hlate⟩, hcounted⟩ := hround.tooLong
        have hnows := hcounted.nows
        obtain ⟨hge, hlt⟩ := h.readings _ r hr
        have hclock := h.clock
        rw [wrappedDiff_near (by omega) (by omega)] at hlate
        exact Or.inr ⟨_, by omega, r, hr, by omega⟩
    | outOfFuel =>
        obtain ⟨slot, flow₁, st₁, flow', hround⟩ := exists_cut hrun LoopEnd.noConfusion
        by_cases hd : slot = d
        · subst hd
          exact absurd rfl (h.stuck hlag hround hstuck).2.2.2.1
        · exact absurd rfl (h.other hs hlag hround hd).2.1

end

/-! ## Call after call -/

/-- A call with what was there before it and what it leaves. -/
structure CallStep where
  call : TransmitCall
  before : TxThread
  after : TxThread
  fin : LoopEnd

/-- Calls that follow each other. -/
def callSteps (cfg : TxConfig) : TxThread → List TransmitCall → Option (List CallStep)
  | _, [] => some []
  | s, c :: cs => do
      let (s', _, fin) ← c.run cfg s
      let steps ← callSteps cfg s' cs
      some (⟨c, s, s', fin⟩ :: steps)

/-- The clock does not go back from a call to the next. -/
def TransmitCall.Before (c : TransmitCall) (st : TxRun) (c' : TransmitCall) : Prop :=
  c.now.toNat ≤ c'.now.toNat ∧ ∀ k < st.nows, ∀ r ∈ c.env.now k, r.toNat ≤ c'.now.toNat

/-- Each call is paced, and the clock does not go back. -/
def PacedRun (cfg : TxConfig) (d : Nat) : TxThread → List TransmitCall → Prop
  | _, [] => True
  | s, c :: cs => PacedCall cfg d c s ∧ ∀ s' st fin, c.run cfg s = some (s', st, fin) →
      (∀ c' ∈ cs.head?, c.Before st c') ∧ PacedRun cfg d s' cs

/-- How many calls it takes at most until the flow in the slot is not stuck. -/
def patience (cfg : TxConfig) : Nat :=
  cfg.maxLagSamples.toNat / ((cfg.sampleRate / 200).toNat + 1) + 2

section

variable {cfg : TxConfig} {d : Nat} {s : TxThread} {flow : Flow}

/-- A flow that is stuck is in step. -/
theorem Stuck.lag {c : TransmitCall} (h : Stuck cfg d c s) (hs : s.Ready)
    (hlag : cfg.maxLagSamples.toNat < 2 ^ 62) (hclock : c.now.toNat < 2 ^ 63)
    (hslot : s.flows[d]? = some (some flow)) :
    flow.nextTs.toNat ≤ c.now.toNat ∧
      c.now.toNat ≤ flow.nextTs.toNat + cfg.maxLagSamples.toNat := by
  obtain ⟨flow₁, hslot₁, _, hdue, hin⟩ := h
  obtain rfl : flow = flow₁ := slot_unique hslot hslot₁
  obtain ⟨hstep, _, hwide⟩ := hs.at hslot
  obtain ⟨hdiff, hle⟩ := hstep.lag hwide hlag hclock hin
  omega

/-- The flow in slot `d` gets out of step sooner or later: each call in which it
is stuck adds to its lag. -/
theorem PacedRun.frees {n : Nat} {cs : List TransmitCall} (hrun : PacedRun cfg d s cs)
    (hs : s.Ready) (hrate : cfg.sampleRate ≠ 0) (hlag : cfg.maxLagSamples.toNat < 2 ^ 62)
    {steps : List CallStep} (hsteps : callSteps cfg s cs = some steps) {c : TransmitCall}
    (hhead : c ∈ cs.head?) (hslot : s.flows[d]? = some (some flow)) (hn : n < cs.length)
    (hlong : flow.nextTs.toNat + cfg.maxLagSamples.toNat <
      c.now.toNat + n * ((cfg.sampleRate / 200).toNat + 1)) :
    ∃ k ≤ n, ∃ step, steps[k]? = some step ∧ ¬Stuck cfg d step.call step.before := by
  induction n generalizing s steps c cs with
  | zero =>
      cases cs with
      | nil => cases hhead
      | cons c₀ cs =>
          obtain rfl : c₀ = c := Option.some.inj hhead
          obtain ⟨⟨s', st, fin⟩, _, hsteps⟩ := Option.bind_eq_some_iff.mp hsteps
          obtain ⟨steps', _, hsteps⟩ := Option.bind_eq_some_iff.mp hsteps
          obtain rfl := Option.some.inj hsteps
          refine ⟨0, Nat.le_refl _, _, rfl, fun hstuck : Stuck cfg d c₀ s => ?_⟩
          have hle := (hstuck.lag hs hlag hrun.1.clock hslot).2
          rw [Nat.zero_mul] at hlong
          omega
  | succ n ih =>
      rcases cs with _ | ⟨c₀, _ | ⟨c₁, cs⟩⟩
      · cases hhead
      · rw [List.length_singleton] at hn
        omega
      · obtain rfl : c₀ = c := Option.some.inj hhead
        obtain ⟨hpaced, hrest⟩ := hrun
        obtain ⟨⟨s', st, fin⟩, hcall, hsteps⟩ := Option.bind_eq_some_iff.mp hsteps
        obtain ⟨steps', hsteps', hsteps⟩ := Option.bind_eq_some_iff.mp hsteps
        obtain rfl := Option.some.inj hsteps
        by_cases hstuck : Stuck cfg d c₀ s
        · obtain ⟨hclock, hpaced'⟩ := hrest s' st fin hcall
          obtain ⟨hheld, hends⟩ := hpaced.held hs hlag hstuck hslot hcall
          have hslot' := hheld.kept.trans hslot
          rcases hends with hexpired | ⟨k, hk, r, hr, hlate⟩
          · -- marked on the way, so that it is not live in the next call
            obtain ⟨⟨s₂, st₂, fin₂⟩, _, hsteps'⟩ := Option.bind_eq_some_iff.mp hsteps'
            obtain ⟨steps₂, _, hsteps'⟩ := Option.bind_eq_some_iff.mp hsteps'
            obtain rfl := Option.some.inj hsteps'
            refine ⟨1, Nat.succ_le_succ (Nat.zero_le n), _, rfl, ?_⟩
            rintro ⟨flow₁, hslot₁, hlive, _, _⟩
            obtain rfl : flow = flow₁ := slot_unique hslot' hslot₁
            rw [hexpired] at hlive
            cases hlive
          · have hnext := (hclock c₁ rfl).2 k hk r hr
            rw [Nat.succ_mul] at hlong
            obtain ⟨k', hk', hfound⟩ := ih hpaced' (hpaced.ready hs hrate hlag hcall) hsteps' rfl
              hslot' (Nat.lt_of_succ_lt_succ hn) (by omega)
            exact ⟨k' + 1, Nat.succ_le_succ hk', hfound⟩
        · exact ⟨0, Nat.zero_le _, _, rfl, hstuck⟩

/-- The calls come back one after the other, and each in which the flow in slot
`d` is not stuck serves the others. -/
theorem PacedRun.serves {cs : List TransmitCall} (hrun : PacedRun cfg d s cs) (hs : s.Ready)
    (hrate : cfg.sampleRate ≠ 0) (hlag : cfg.maxLagSamples.toNat < 2 ^ 62) :
    ∃ steps, callSteps cfg s cs = some steps ∧ steps.length = cs.length ∧
      ∀ step ∈ steps,
        (¬Stuck cfg d step.call step.before →
          step.fin = .done ∧ Served cfg d step.call step.before step.after) ∧
        (Stuck cfg d step.call step.before → Held cfg d step.call step.before step.after) := by
  induction cs generalizing s with
  | nil => exact ⟨[], rfl, rfl, fun step hstep => absurd hstep List.not_mem_nil⟩
  | cons c cs ih =>
      obtain ⟨hpaced, hrest⟩ := hrun
      obtain ⟨s', st, fin, hcall, _⟩ := hs.returns hrate c
      obtain ⟨steps, hsteps, hlen, hserves⟩ :=
        ih (hrest s' st fin hcall).2 (hpaced.ready hs hrate hlag hcall)
      refine ⟨⟨c, s, s', fin⟩ :: steps, ?_, congrArg Nat.succ hlen, fun step hstep => ?_⟩
      · simp only [callSteps, hcall, hsteps, Option.bind_eq_bind, Option.bind_some]
      · rcases List.mem_cons.mp hstep with rfl | hstep
        · refine ⟨fun hfree => hpaced.served hs hrate hlag hfree hcall, fun hstuck => ?_⟩
          obtain ⟨flow, hslot, _⟩ := id hstuck
          exact (hpaced.held hs hlag hstuck hslot hcall).1
        · exact hserves step hstep

/-- Of any `patience` calls in a row there is one in which the flow in slot `d`
is not stuck. -/
theorem PacedRun.windows {cs : List TransmitCall} (hrun : PacedRun cfg d s cs) (hs : s.Ready)
    (hrate : cfg.sampleRate ≠ 0) (hlag : cfg.maxLagSamples.toNat < 2 ^ 62)
    {steps : List CallStep} (hsteps : callSteps cfg s cs = some steps) (i : Nat)
    (hi : i + patience cfg ≤ cs.length) :
    ∃ k, i ≤ k ∧ k < i + patience cfg ∧
      ∃ step, steps[k]? = some step ∧ ¬Stuck cfg d step.call step.before := by
  induction i generalizing s cs steps with
  | zero =>
      rw [Nat.zero_add, patience] at hi
      cases cs with
      | nil => cases hi
      | cons c cs =>
          by_cases hstuck : Stuck cfg d c s
          · obtain ⟨flow, hslot, _⟩ := id hstuck
            have hdue := (hstuck.lag hs hlag hrun.1.clock hslot).1
            have hlong := Nat.lt_mul_of_div_lt
              (Nat.lt_succ_self (cfg.maxLagSamples.toNat / ((cfg.sampleRate / 200).toNat + 1)))
              (Nat.succ_pos (cfg.sampleRate / 200).toNat)
            obtain ⟨k, hk, hfound⟩ := hrun.frees hs hrate hlag hsteps rfl hslot
              (Nat.lt_of_succ_le hi) (Nat.lt_of_lt_of_le (Nat.add_lt_add_left hlong _)
                (Nat.add_le_add_right hdue _))
            rw [Nat.zero_add, patience]
            exact ⟨k, Nat.zero_le k, Nat.lt_succ_of_le hk, hfound⟩
          · obtain ⟨⟨s', st, fin⟩, _, hsteps⟩ := Option.bind_eq_some_iff.mp hsteps
            obtain ⟨steps', _, hsteps⟩ := Option.bind_eq_some_iff.mp hsteps
            obtain rfl := Option.some.inj hsteps
            exact ⟨0, Nat.le_refl 0, Nat.succ_pos _, _, rfl, hstuck⟩
  | succ i ih =>
      cases cs with
      | nil => rw [List.length_nil] at hi; omega
      | cons c cs =>
          obtain ⟨hpaced, hrest⟩ := hrun
          obtain ⟨⟨s', st, fin⟩, hcall, hsteps⟩ := Option.bind_eq_some_iff.mp hsteps
          obtain ⟨steps', hsteps', hsteps⟩ := Option.bind_eq_some_iff.mp hsteps
          obtain rfl := Option.some.inj hsteps
          rw [List.length_cons] at hi
          obtain ⟨k, hge, hlt, hfound⟩ := ih (hrest s' st fin hcall).2
            (hpaced.ready hs hrate hlag hcall) hsteps' (by omega)
          exact ⟨k + 1, by omega, by omega, hfound⟩

/-- A destination that nothing reaches does not starve the others, as long as the
clock goes on while its flow is stuck. -/
theorem starved_no_longer {cs : List TransmitCall} (hs : s.Ready) (hrate : cfg.sampleRate ≠ 0)
    (hlag : cfg.maxLagSamples.toNat < 2 ^ 62) (hrun : PacedRun cfg d s cs) :
    ∃ steps, callSteps cfg s cs = some steps ∧ steps.length = cs.length ∧
      (∀ step ∈ steps,
        (¬Stuck cfg d step.call step.before →
          step.fin = .done ∧ Served cfg d step.call step.before step.after) ∧
        (Stuck cfg d step.call step.before → Held cfg d step.call step.before step.after)) ∧
      ∀ i, i + patience cfg ≤ steps.length → ∃ k, i ≤ k ∧ k < i + patience cfg ∧
        ∃ step, steps[k]? = some step ∧ ¬Stuck cfg d step.call step.before := by
  obtain ⟨steps, hsteps, hlen, hserves⟩ := hrun.serves hs hrate hlag
  refine ⟨steps, hsteps, hlen, hserves, fun i hi => ?_⟩
  exact hrun.windows hs hrate hlag hsteps i (hlen ▸ hi)

end

/-! ## Clocks that do not help -/

section

variable {cfg : TxConfig} {d : Nat} {c : TransmitCall} {s s' : TxThread} {slot : Nat}
  {flow flow' : Flow} {st st' st₀ : TxRun} {fin fin' : LoopEnd}

/-- A call whose first flow is stuck does nothing else. -/
theorem stuck_first (hs : s.Ready) (hrate : cfg.sampleRate ≠ 0)
    (hlag : cfg.maxLagSamples.toNat < 2 ^ 62) (hstuck : Stuck cfg 0 c s)
    (hslot : s.flows[0]? = some (some flow)) (hfails : ∀ n, c.env.send n ≠ some flow.packetLen) :
    ∃ s' st fin, c.run cfg s = some (s', st, fin) ∧ s'.flows = s.flows ∧ s'.flags = s.flags ∧
      fin ≠ .done ∧ (fin = .yielded → ∃ n, TooLong cfg c.env c.now n) := by
  obtain ⟨s', st, fin, hrun, _⟩ := hs.returns hrate c
  obtain ⟨flow₁, hslot₁, hlive, hdue, hin⟩ := hstuck
  obtain rfl : flow = flow₁ := slot_unique hslot hslot₁
  -- the turn of the first flow is the whole call
  have hsplit := @run_eq_turns cfg c s 0 flow hslot
  rw [hrun] at hsplit
  obtain ⟨⟨before, st₁, fin₁⟩, hbefore, hturns⟩ := Option.bind_eq_some_iff.mp hsplit.symm
  cases hbefore
  dsimp only at hturns
  rw [if_pos rfl] at hturns
  obtain ⟨⟨flow', st', fin'⟩, hturn, hrest⟩ := Option.bind_eq_some_iff.mp hturns
  have hround : Round cfg c s 0 flow _ flow' st' fin' := ⟨hslot, ⟨[], rfl⟩, hturn⟩
  obtain ⟨rfl, hflags, _, hgoes, _⟩ := turn_spins hround.counted hlive hturn hlag hin hdue
    fun n _ _ => hfails n
  dsimp only at hrest
  rw [if_neg hgoes] at hrest
  cases hrest
  refine ⟨_, st, fin, hrun, (take_slot hslot).symm, hflags, hgoes, fun hfin => ?_⟩
  subst hfin
  exact ⟨_, hround.tooLong.2.1⟩

/-- A clock that does not say so never ends the loop of a flow that is stuck. -/
theorem stuck_never_returns (hs : s.Ready) (hrate : cfg.sampleRate ≠ 0)
    (hlag : cfg.maxLagSamples.toNat < 2 ^ 62) (hstuck : Stuck cfg 0 c s)
    (hslot : s.flows[0]? = some (some flow)) (hfails : ∀ n, c.env.send n ≠ some flow.packetLen)
    (hquiet : ∀ n, ¬TooLong cfg c.env c.now n) :
    ∃ s' st, c.run cfg s = some (s', st, .outOfFuel) ∧ s'.flows = s.flows ∧
      s'.flags = s.flags := by
  obtain ⟨s', st, fin, hrun, hflows, hflags, hgoes, hyields⟩ :=
    stuck_first hs hrate hlag hstuck hslot hfails
  cases fin with
  | done => exact absurd rfl hgoes
  | yielded =>
      obtain ⟨n, hlong⟩ := hyields rfl
      exact absurd hlong (hquiet n)
  | outOfFuel => exact ⟨s', st, hrun, hflows, hflags⟩

end

/-- Two flows of two channels without rings; nothing that the first sends goes
through. -/
def deadFlow (nextTs : Clock) : Flow := ⟨⟨0, 4321⟩, [none, none], nextTs, 16, 3, some 5, 0⟩

def healthyFlow : Flow := ⟨⟨0, 4322⟩, [none, none], 1616, 16, 3, none, 1⟩

def starvedThread : TxThread :=
  ⟨[some (deadFlow 1616), some healthyFlow], fun _ => false, ⟨fun _ => 0, 0⟩⟩

/-- A call that finds all its readings of the clock the same. -/
def callAt (now reading : Nat) (written : Option Nat) (processEvents : Bool) (fuel : Nat) :
    TransmitCall :=
  ⟨[], ⟨fun _ => written, fun _ => none, fun _ => some (BitVec.ofNat 64 reading)⟩,
    BitVec.ofNat 64 now, processEvents, fuel⟩

/-- The first flow is 304 samples late, too little to be put back in step. -/
def heldCall (j : Nat) : TransmitCall :=
  callAt (1920 + 640 * j) (2240 + 640 * j) none true 500

/-- It is 624 samples late, but the call looks at no keepalives. -/
def freeCall (j : Nat) : TransmitCall :=
  callAt (2240 + 640 * j) (2240 + 640 * j) (some 105) false 500

/-- Calls with keepalives while the first flow is stuck, calls without when it is not. -/
def alternating : Nat → Nat → List TransmitCall
  | _, 0 => []
  | j, n + 1 => heldCall j :: freeCall j :: alternating (j + 1) n

/-- The thread before the `j`-th pair of calls. -/
structure Starving (j : Nat) (s : TxThread) : Prop where
  ready : s.Ready
  slot : s.flows[0]? = some (some (deadFlow (BitVec.ofNat 64 (1616 + 640 * j))))
  live : s.flags 0 = false
  packets : ∀ (slot : Nat) (flow : Flow), s.flows[slot]? = some (some flow) →
    flow.packetLen = 105

theorem starvedThread_starving : Starving 0 starvedThread := by
  refine ⟨⟨?_, ?_⟩, rfl, rfl, ?_⟩
  · intro flow hmem
    rcases List.mem_cons.mp hmem with h | h
    · cases h
      exact ⟨by decide, by decide, by decide⟩
    · cases List.mem_singleton.mp h
      exact ⟨by decide, by decide, by decide⟩
  · intro flow hmem
    rcases List.mem_cons.mp hmem with h | h
    · cases h
      exact ⟨by decide, by decide⟩
    · cases List.mem_singleton.mp h
      exact ⟨by decide, by decide⟩
  · intro slot flow hslot
    match slot with
    | 0 => cases hslot; rfl
    | 1 => cases hslot; rfl
    | n + 2 => cases hslot

section

variable {j : Nat} {s : TxThread}

/-- How late the first flow is in a call at `a + 640 * j`. -/
theorem Starving.lag (hj : j < 2 ^ 50) {a : Nat} (ha : a < 2 ^ 50) :
    wrappedDiff (BitVec.ofNat 64 (a + 640 * j)) (BitVec.ofNat 64 (1616 + 640 * j)) =
      (a : Int) - 1616 := by
  have hnat : ∀ b < 2 ^ 50, (BitVec.ofNat 64 (b + 640 * j)).toNat = b + 640 * j := by
    intro b hb
    rw [BitVec.toNat_ofNat]
    exact Nat.mod_eq_of_lt (by omega)
  rw [wrappedDiff_near (by rw [hnat a ha, hnat 1616 (by decide)]; omega)
    (by rw [hnat a ha, hnat 1616 (by decide)]; omega), hnat a ha, hnat 1616 (by decide)]
  omega

theorem Starving.held_stuck (h : Starving j s) (hj : j < 2 ^ 50) :
    Stuck ringlessConfig 0 (heldCall j) s := by
  have hlag : wrappedDiff (heldCall j).now
      (deadFlow (BitVec.ofNat 64 (1616 + 640 * j))).nextTs = (1920 : Nat) - 1616 :=
    Starving.lag hj (by decide)
  refine ⟨_, h.slot, h.live, by omega, fun hout => ?_⟩
  rw [Flow.outOfStep_iff (by decide), hlag] at hout
  revert hout
  decide

theorem Starving.free_late (hj : j < 2 ^ 50) :
    Flow.OutOfStep ringlessConfig (freeCall j).now
      (deadFlow (BitVec.ofNat 64 (1616 + 640 * j))) := by
  have hlag : wrappedDiff (freeCall j).now
      (deadFlow (BitVec.ofNat 64 (1616 + 640 * j))).nextTs = (2240 : Nat) - 1616 :=
    Starving.lag hj (by decide)
  rw [Flow.outOfStep_iff (by decide), hlag]
  decide

theorem Starving.free (h : Starving j s) (hj : j < 2 ^ 50) :
    ¬Stuck ringlessConfig 0 (freeCall j) s := by
  rintro ⟨flow, hslot, _, _, hin⟩
  cases h.slot.symm.trans hslot
  exact hin (Starving.free_late hj)

theorem callAt_clock {now reading : Nat} (hnow : now < 2 ^ 63) (hreading : reading < 2 ^ 63)
    (written : Option Nat) (pe : Bool) (fuel : Nat) :
    (callAt now reading written pe fuel).now.toNat = now ∧
      ∀ k, ∀ r ∈ (callAt now reading written pe fuel).env.now k, r.toNat = reading := by
  refine ⟨?_, fun k r hr => ?_⟩
  · rw [callAt, BitVec.toNat_ofNat]
    exact Nat.mod_eq_of_lt (by omega)
  · rw [← Option.some.inj hr, BitVec.toNat_ofNat]
    exact Nat.mod_eq_of_lt (by omega)

theorem heldCall_clock (hj : j < 2 ^ 50) : (heldCall j).now.toNat = 1920 + 640 * j ∧
    ∀ k, ∀ r ∈ (heldCall j).env.now k, r.toNat = 2240 + 640 * j :=
  callAt_clock (by omega) (by omega) _ _ _

theorem freeCall_clock (hj : j < 2 ^ 50) : (freeCall j).now.toNat = 2240 + 640 * j ∧
    ∀ k, ∀ r ∈ (freeCall j).env.now k, r.toNat = 2240 + 640 * j :=
  callAt_clock (by omega) (by omega) _ _ _

/-- The flow after the first does not have its turn. -/
theorem Starving.held_first (h : Starving j s) (hj : j < 2 ^ 50) {slot : Nat}
    {flow flow' : Flow} {st st' : TxRun} {fin : LoopEnd}
    (hround : Round ringlessConfig (heldCall j) s slot flow st flow' st' fin) : slot = 0 := by
  by_contra hne
  obtain ⟨flows', hbefore⟩ := hround.before
  -- the call on the table as far as the slot
  have htake : (s.flows.take slot)[0]? = s.flows[0]? :=
    List.getElem?_take_of_lt (Nat.pos_of_ne_zero hne)
  have hstarving : Starving j { s with flows := s.flows.take slot } := by
    refine ⟨⟨fun flow hmem => h.ready.fits flow (List.mem_of_mem_take hmem),
      fun flow hmem => h.ready.inStep flow (List.mem_of_mem_take hmem)⟩, htake.trans h.slot,
      h.live, fun i flow hi => ?_⟩
    obtain ⟨k, hk⟩ := List.mem_iff_getElem?.mp (List.mem_of_mem_take (List.mem_of_getElem? hi))
    exact h.packets k flow hk
  obtain ⟨s₁, st₁, fin₁, hrun, _, _, hgoes, _⟩ := stuck_first hstarving.ready (by decide)
    (by decide) (hstarving.held_stuck hj) hstarving.slot fun _ hsent => by cases hsent
  have hrun' : (heldCall j).run ringlessConfig { s with flows := s.flows.take slot } =
      some (⟨flows', st.flags, st.buffers.ditherRng⟩, st, .done) := by
    rw [TransmitCall.run, transmit, hbefore]
    rfl
  cases hrun.symm.trans hrun'
  exact hgoes rfl

theorem Starving.held_paced (h : Starving j s) (hj : j < 2 ^ 50) :
    PacedCall ringlessConfig 0 (heldCall j) s where
  clock := by
    rw [(heldCall_clock hj).1]
    omega
  readings := by
    intro k r hr
    rw [(heldCall_clock hj).1, (heldCall_clock hj).2 k r hr]
    omega
  fuel := Nat.le_of_ble_eq_true rfl
  sends := by
    intro slot flow st flow' st' fin hround n _ _
    exact ⟨fun hsent => (by cases hsent), fun hne => absurd (h.held_first hj hround) hne⟩
  late := by
    intro _
    refine ⟨0, Nat.le_of_ble_eq_true rfl, fun n _ hn => ⟨hn, _, rfl, ?_⟩⟩
    have hnow := (heldCall_clock hj).1
    have hreading := (heldCall_clock hj).2 0 _ rfl
    rw [wrappedDiff_near (by omega) (by omega), hnow, hreading,
      show (ringlessConfig.sampleRate / 200).toNat = 240 from rfl]
    omega
  quiet := fun hfree => absurd (h.held_stuck hj) hfree

theorem Starving.free_paced (h : Starving j s) (hj : j < 2 ^ 50) :
    PacedCall ringlessConfig 0 (freeCall j) s where
  clock := by
    rw [(freeCall_clock hj).1]
    omega
  readings := by
    intro k r hr
    rw [(freeCall_clock hj).1, (freeCall_clock hj).2 k r hr]
    omega
  fuel := Nat.le_of_ble_eq_true rfl
  sends := by
    intro slot flow st flow' st' fin hround n hge hlt
    rw [h.packets slot flow hround.holds]
    refine ⟨fun _ hslot => ?_, fun _ => rfl⟩
    -- the first flow is put back in step, and has nothing to send
    subst hslot
    have hsent : st'.sent = st.sent := by
      cases h.slot.symm.trans hround.holds
      cases hlive : st.flags 0 with
      | true => rw [(turn_expired hlive hround.turn).2.1]
      | false =>
          obtain ⟨hstep, hpos, hwide⟩ := h.ready.at h.slot
          exact (turn_rests hround.counted hlive hround.turn hpos hwide
            (show ringlessConfig.maxLagSamples.toNat < 2 ^ 62 by decide)
            (by rw [(freeCall_clock hj).1]; omega) hstep (Or.inl (Starving.free_late hj))
            (Nat.le_of_ble_eq_true rfl)).2.2.1
    rw [hsent] at hlt
    omega
  late := fun hstuck => absurd hstuck (h.free hj)
  quiet := by
    rintro _ n ⟨_, r, hr, hlate⟩
    have hnow := (freeCall_clock hj).1
    have hreading := (freeCall_clock hj).2 _ r hr
    rw [wrappedDiff_near (by omega) (by omega), hnow, hreading] at hlate
    omega

theorem Flow.packetLen_of_shape {flow flow' : Flow} (h : flow'.shape = flow.shape) :
    flow'.packetLen = flow.packetLen := by
  obtain ⟨hformat, hchannels⟩ := Prod.mk.inj h
  obtain ⟨hfpp, hbytes⟩ := FlowFormat.mk.inj hformat
  rw [Flow.packetLen, Flow.packetLen, Flow.stride, Flow.stride, hchannels, hfpp, hbytes]

/-- The call in which the first flow is stuck changes nothing. -/
theorem Starving.held (h : Starving j s) (hj : j < 2 ^ 50) :
    ∃ s' st fin, (heldCall j).run ringlessConfig s = some (s', st, fin) ∧ Starving j s' := by
  obtain ⟨s', st, fin, hrun, hflows, hflags, _⟩ := stuck_first h.ready (by decide) (by decide)
    (h.held_stuck hj) h.slot fun _ hsent => by cases hsent
  refine ⟨s', st, fin, hrun, (h.held_paced hj).ready h.ready (by decide) (by decide) hrun, ?_, ?_,
    ?_⟩
  · rw [hflows]
    exact h.slot
  · rw [hflags]
    exact h.live
  · rw [hflows]
    exact h.packets

/-- The call in which it is put back in step does not look at its keepalives. -/
theorem Starving.freed (h : Starving j s) (hj : j < 2 ^ 50) :
    ∃ s' st fin, (freeCall j).run ringlessConfig s = some (s', st, fin) ∧
      Starving (j + 1) s' := by
  have hpaced := h.free_paced hj
  obtain ⟨s', st, fin, hrun, hfrom⟩ :=
    h.ready.returns (show ringlessConfig.sampleRate ≠ 0 by decide) (freeCall j)
  obtain ⟨rfl, _⟩ := hpaced.served h.ready (by decide) (by decide) (h.free hj) hrun
  refine ⟨s', st, _, hrun, hpaced.ready h.ready (by decide) (by decide) hrun, ?_, ?_,
    fun slot flow' hslot' => ?_⟩
  · obtain ⟨st₁, flow', st₂, hround⟩ := exists_round hrun h.slot
    rw [(hround.result hrun).1]
    obtain ⟨before, hbefore⟩ := hround.before
    cases hbefore
    obtain ⟨hstep, hpos, hwide⟩ := h.ready.at h.slot
    have hlive : (TxRun.begin s.flags s.ditherRng).flags
        (deadFlow (BitVec.ofNat 64 (1616 + 640 * j))).expired = false := h.live
    obtain ⟨_, _, _, hsync, _⟩ := turn_rests hround.counted hlive hround.turn hpos hwide
      (show ringlessConfig.maxLagSamples.toNat < 2 ^ 62 by decide) hpaced.clock hstep
      (Or.inl (Starving.free_late hj)) (Nat.le_of_ble_eq_true rfl)
    have hboot : resync ringlessConfig (freeCall j).now _ = some flow' := hsync rfl
    rw [Flow.resync_once (show ringlessConfig.maxLagSamples.toNat < 2 ^ 62 by decide),
      if_pos (Starving.free_late hj)] at hboot
    obtain ⟨ts, hspec, hts, _, _⟩ := Flow.bootstrapNextTs_spec hpos hwide hpaced.clock
    obtain rfl := Option.some.inj (hspec.symm.trans hboot)
    have heq : ts = BitVec.ofNat 64 (1616 + 640 * (j + 1)) := by
      refine BitVec.eq_of_toNat_eq ?_
      rw [hts, (freeCall_clock hj).1, BitVec.toNat_ofNat]
      show ((2240 + 640 * j) / 16 + 1) * 16 = _
      omega
    rw [heq]
    rfl
  · obtain ⟨⟨flows', st', fin'⟩, hflows, hends⟩ := Option.bind_eq_some_iff.mp hrun
    cases hends
    have hflags := transmitFlows_unasked hflows
    show st.flags 0 = false
    rw [hflags]
    exact h.live
  · obtain ⟨flow, hslot, hshape⟩ := hfrom slot flow' hslot'
    rw [Flow.packetLen_of_shape hshape]
    exact h.packets slot flow hslot

theorem lapsed_five {now : Clock} (h : 5 < now.toNat ∧ now.toNat < 2 ^ 63) :
    wrappedDiff 5 now < 0 := by
  have hfive : (5 : Clock).toNat = 5 := rfl
  rw [wrappedDiff_near (by omega) (by omega)]
  omega

/-- However long it goes on, the flow is not marked. -/
theorem Starving.run (h : Starving j s) {n : Nat} (hn : j + n < 2 ^ 50) :
    PacedRun ringlessConfig 0 s (alternating j n) ∧
      ∃ steps, callSteps ringlessConfig s (alternating j n) = some steps ∧
        steps.length = 2 * n ∧ ∀ step ∈ steps, wrappedDiff 5 step.call.now < 0 ∧
          ∃ ts, step.after.flows[0]? = some (some (deadFlow ts)) ∧
            step.after.flags 0 = false := by
  induction n generalizing j s with
  | zero => exact ⟨trivial, [], rfl, rfl, fun step hstep => absurd hstep List.not_mem_nil⟩
  | succ n ih =>
      have hj : j < 2 ^ 50 := by omega
      obtain ⟨s₁, st₁, fin₁, hrun₁, h₁⟩ := h.held hj
      obtain ⟨s₂, st₂, fin₂, hrun₂, h₂⟩ := h₁.freed hj
      obtain ⟨hpaced, steps, hsteps, hlen, hclear⟩ := ih h₂ (by omega)
      refine ⟨⟨h.held_paced hj, fun s' st fin hrun => ?_⟩,
        ⟨heldCall j, s, s₁, fin₁⟩ :: ⟨freeCall j, s₁, s₂, fin₂⟩ :: steps, ?_, ?_, ?_⟩
      · cases hrun₁.symm.trans hrun
        refine ⟨fun c' hc' => ?_, h₁.free_paced hj, fun s' st fin hrun => ?_⟩
        · obtain rfl : freeCall j = c' := Option.some.inj hc'
          refine ⟨?_, fun k _ r hr => ?_⟩
          · rw [(heldCall_clock hj).1, (freeCall_clock hj).1]
            omega
          · rw [(heldCall_clock hj).2 k r hr, (freeCall_clock hj).1]
        · cases hrun₂.symm.trans hrun
          refine ⟨fun c' hc' => ?_, hpaced⟩
          cases n with
          | zero => cases hc'
          | succ n =>
              obtain rfl : heldCall (j + 1) = c' := Option.some.inj hc'
              have hnow := (heldCall_clock (show j + 1 < 2 ^ 50 by omega)).1
              refine ⟨?_, fun k _ r hr => ?_⟩
              · rw [(freeCall_clock hj).1, hnow]
                omega
              · rw [(freeCall_clock hj).2 k r hr, hnow]
                omega
      · simp only [alternating, callSteps, hrun₁, hrun₂, hsteps, Option.bind_eq_bind,
          Option.bind_some]
      · rw [List.length_cons, List.length_cons, hlen]
        omega
      · intro step hstep
        rcases List.mem_cons.mp hstep with rfl | hstep
        · refine ⟨lapsed_five ?_, _, h₁.slot, h₁.live⟩
          rw [(heldCall_clock hj).1]
          omega
        · rcases List.mem_cons.mp hstep with rfl | hstep
          · refine ⟨lapsed_five ?_, _, h₂.slot, h₂.live⟩
            rw [(freeCall_clock hj).1]
            omega
          · exact hclear step hstep

end

/-- With a clock that stands still the call does not come back, and the flow
after the first stays due. With one that goes on, the first flow is not marked
however long ago its keepalives have lapsed, if keepalives are looked at in the
wrong calls. -/
theorem dead_flow_starves :
    (∀ fuel, ∃ s' st, (callAt 1920 1920 none true fuel).run ringlessConfig starvedThread =
        some (s', st, .outOfFuel) ∧ s'.flows[1]? = some (some healthyFlow) ∧
          0 ≤ wrappedDiff 1920 healthyFlow.nextTs ∧ s'.flags 1 = false) ∧
      ∀ n < 2 ^ 50, PacedRun ringlessConfig 0 starvedThread (alternating 0 n) ∧
        ∃ steps, callSteps ringlessConfig starvedThread (alternating 0 n) = some steps ∧
          steps.length = 2 * n ∧ ∀ step ∈ steps, wrappedDiff 5 step.call.now < 0 ∧
            ∃ ts, step.after.flows[0]? = some (some (deadFlow ts)) ∧
              step.after.flags 0 = false := by
  refine ⟨fun fuel => ?_, fun n hn => starvedThread_starving.run (by omega)⟩
  have hstuck : Stuck ringlessConfig 0 (callAt 1920 1920 none true fuel) starvedThread := by
    refine ⟨deadFlow 1616, rfl, rfl, ?_, ?_⟩
    · show 0 ≤ wrappedDiff 1920 1616
      decide
    · show ¬Flow.OutOfStep ringlessConfig 1920 (deadFlow 1616)
      decide
  obtain ⟨s', st, hrun, hflows, hflags⟩ := stuck_never_returns starvedThread_starving.ready
    (by decide) (by decide) hstuck rfl (fun _ hsent => by cases hsent) (by
      rintro n ⟨_, r, hr, hlate⟩
      cases hr
      exact absurd hlate (show ¬wrappedDiff 1920 1920 > (240 : Nat) by decide))
  exact ⟨s', st, hrun, by rw [hflows]; rfl, by decide, by rw [hflags]; rfl⟩

/-- Four calls in a row, in which nothing that the first flow sends goes through. -/
theorem starved_no_longer_four : ∃ steps,
    callSteps ringlessConfig starvedThread (alternating 0 2) = some steps ∧ steps.length = 4 ∧
      ∃ k < 3, ∃ step, steps[k]? = some step ∧ step.fin = .done ∧
        Served ringlessConfig 0 step.call step.before step.after := by
  obtain ⟨steps, hsteps, hlen, hserves, hwindows⟩ := starved_no_longer
    starvedThread_starving.ready (by decide) (by decide)
    (starvedThread_starving.run (show 0 + 2 < 2 ^ 50 by decide)).1
  obtain ⟨k, _, hk, step, hstep, hfree⟩ := hwindows 0 (by
    rw [hlen]
    decide)
  obtain ⟨hdone, hserved⟩ := (hserves step (List.mem_of_getElem? hstep)).1 hfree
  exact ⟨steps, hsteps, hlen, k, hk, step, hstep, hdone, hserved⟩

end Inferno
