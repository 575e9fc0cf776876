import Inferno.TxTurns

/-!
# What a call does for one flow

A call of `transmit` gives the flows their turns one after the other, so that
what it does for the flow in a slot is that flow's turn, in the state the turns
before it have left (`Round`). Within a turn the packets go through a loop that
moves on after each send that succeeds; `LoopSpec` says once what the loop does:
which packet each of its rounds sends, when it looks at the clock, how it ends.
-/

namespace Inferno

/-! ## Flows that move on -/

namespace Flow

/-- The flow `k` packets further on. -/
def ahead (flow : Flow) (k : Nat) : Flow :=
  { flow with nextTs := flow.nextTs + BitVec.ofNat 64 (k * flow.fpp) }

/-- `to_send`. -/
def packetLen (flow : Flow) : Nat := 9 + flow.stride * flow.fpp

variable (flow : Flow)

@[simp] theorem ahead_zero : flow.ahead 0 = flow := by
  rw [ahead, Nat.zero_mul]
  exact congrArg (fun ts => { flow with nextTs := ts }) (BitVec.add_zero _)

@[simp] theorem ahead_ahead (j k : Nat) : (flow.ahead j).ahead k = flow.ahead (j + k) := by
  simp only [ahead, BitVec.add_assoc, ← BitVec.ofNat_add, ← Nat.add_mul]

@[simp] theorem ahead_fpp (k : Nat) : (flow.ahead k).fpp = flow.fpp := rfl

@[simp] theorem ahead_packetLen (k : Nat) : (flow.ahead k).packetLen = flow.packetLen := rfl

theorem ahead_one : flow.ahead 1 =
    { flow with nextTs := flow.nextTs + BitVec.ofNat 64 flow.fpp } := by
  rw [ahead, Nat.one_mul]

/-- How many of `n` sends go through, the first of them being the `s`-th of the
call. -/
def delivered (env : Outside) : Nat → Nat → Nat
  | _, 0 => 0
  | s, n + 1 =>
      (if env.send s = some flow.packetLen then 1 else 0) + delivered env (s + 1) n

theorem delivered_congr {flow flow' : Flow} (h : flow'.packetLen = flow.packetLen)
    (env : Outside) (s n : Nat) : flow'.delivered env s n = flow.delivered env s n := by
  induction n generalizing s with
  | zero => rfl
  | succ n ih => rw [delivered, delivered, h, ih]

theorem delivered_all {env : Outside} {s n : Nat}
    (h : ∀ k < n, env.send (s + k) = some flow.packetLen) : flow.delivered env s n = n := by
  induction n generalizing s with
  | zero => rfl
  | succ n ih =>
      have hfirst := h 0 (Nat.zero_lt_succ n)
      rw [Nat.add_zero] at hfirst
      rw [delivered, if_pos hfirst, ih fun k hk => ?_, Nat.add_comm]
      rw [Nat.add_assoc, Nat.add_comm 1 k]
      exact h (k + 1) (Nat.succ_lt_succ hk)

theorem delivered_none {env : Outside} {s n : Nat}
    (h : ∀ k < n, env.send (s + k) ≠ some flow.packetLen) : flow.delivered env s n = 0 := by
  induction n generalizing s with
  | zero => rfl
  | succ n ih =>
      have hfirst := h 0 (Nat.zero_lt_succ n)
      rw [Nat.add_zero] at hfirst
      rw [delivered, if_neg hfirst, ih fun k hk => ?_]
      rw [Nat.add_assoc, Nat.add_comm 1 k]
      exact h (k + 1) (Nat.succ_lt_succ hk)

theorem delivered_succ (env : Outside) (s n : Nat) : flow.delivered env s (n + 1) =
    flow.delivered env s n + if env.send (s + n) = some flow.packetLen then 1 else 0 := by
  induction n generalizing s with
  | zero => rw [delivered, delivered, delivered, Nat.zero_add, Nat.add_zero, Nat.add_zero]
  | succ n ih =>
      rw [delivered, ih, delivered, Nat.add_comm n 1, ← Nat.add_assoc s 1 n]
      exact (Nat.add_assoc _ _ _).symm

/-- The count goes up by one at a time. -/
theorem exists_delivered {env : Outside} {s n j : Nat} (h : j < flow.delivered env s n) :
    ∃ k < n, flow.delivered env s k = j := by
  induction n with
  | zero => exact absurd h (Nat.not_lt_zero j)
  | succ n ih =>
      by_cases hlt : j < flow.delivered env s n
      · obtain ⟨k, hk, heq⟩ := ih hlt
        exact ⟨k, Nat.lt_succ_of_lt hk, heq⟩
      · rw [delivered_succ] at h
        refine ⟨n, Nat.lt_succ_self n, ?_⟩
        split at h <;> omega

end Flow

/-! ## Counters -/

/-- A call counts its packets, and looks at the clock at every sixteenth. -/
structure TxRun.Counted (st : TxRun) : Prop where
  sends : st.sends = st.sent.length
  iterations : st.iterations = st.sent.length
  nows : st.nows = st.sent.length / 16

theorem begin_counted (flags : Flag → Bool) (ditherRng : DitherRng) :
    (TxRun.begin flags ditherRng).Counted := ⟨rfl, rfl, (Nat.zero_div 16).symm⟩

/-- The clock, read at the `n`-th packet of the call, says that the thread has
been awake too long. -/
def TooLong (cfg : TxConfig) (env : Outside) (now : Clock) (n : Nat) : Prop :=
  n % 16 = 0 ∧ ∃ realNow, env.now (n / 16 - 1) = some realNow ∧
    wrappedDiff realNow now > (cfg.sampleRate / 200).toNat

section

variable {cfg : TxConfig} {env : Outside} {now : Clock} {flow flow' : Flow} {st st' : TxRun}
  {fuel : Nat} {fin : LoopEnd}

/-- A packet that was handed to `send`, counted but not yet among the
iterations. -/
theorem awakeTooLong_spec (hn : st.nows = st.iterations / 16) :
    ((awakeTooLong cfg env now st).1 = true ↔ TooLong cfg env now (st.iterations + 1)) ∧
      ∃ nows, (awakeTooLong cfg env now st).2 =
          { st with iterations := st.iterations + 1, nows := nows } ∧
        nows = (st.iterations + 1) / 16 := by
  unfold awakeTooLong TooLong
  dsimp only
  split
  · next hlook =>
      have hindex : (st.iterations + 1) / 16 - 1 = st.nows := by omega
      rw [hindex]
      cases hnow : env.now st.nows with
      | none => exact ⟨by simp, _, rfl, by omega⟩
      | some realNow => exact ⟨by simp [hlook], _, rfl, by omega⟩
  · next hlook => exact ⟨by simp [hlook], _, rfl, by omega⟩

/-- What the loop does: `ps` are its packets. -/
structure LoopSpec (cfg : TxConfig) (env : Outside) (now : Clock) (fuel : Nat) (flow : Flow)
    (st : TxRun) (flow' : Flow) (st' : TxRun) (fin : LoopEnd) (ps : List TxPacket) : Prop where
  sent : st'.sent = st.sent ++ ps
  counted : st'.Counted
  flags : st'.flags = st.flags
  recvs : st'.recvs = st.recvs
  after : flow' = flow.ahead (flow.delivered env st.sent.length ps.length)
  packet : ∀ k (hk : k < ps.length),
    ps[k].flow = flow.ahead (flow.delivered env st.sent.length k) ∧ ps[k].len = flow.packetLen
  due : ∀ k < ps.length,
    0 ≤ wrappedDiff now (flow.ahead (flow.delivered env st.sent.length k)).nextTs
  awake : ∀ k, k + 1 < ps.length → ¬TooLong cfg env now (st.sent.length + k + 1)
  done : fin = .done → wrappedDiff now flow'.nextTs < 0 ∧
    ∀ k < ps.length, ¬TooLong cfg env now (st.sent.length + k + 1)
  yielded : fin = .yielded → ps ≠ [] ∧ TooLong cfg env now (st.sent.length + ps.length)
  outOfFuel : fin = .outOfFuel → ps.length = fuel ∧
    ∀ k < ps.length, ¬TooLong cfg env now (st.sent.length + k + 1)

theorem sendPacket_cases (h : sendPacket env flow st = some (flow', st')) :
    flow' = flow.ahead (if env.send st.sends = some flow.packetLen then 1 else 0) ∧
      st' = { st with
        sends := st.sends + 1
        sent := st.sent ++ [⟨flow, st.buffers.pbuff, flow.packetLen⟩] } := by
  simp only [sendPacket] at h
  split at h
  · split at h
    · next hsent =>
        cases h
        exact ⟨by rw [if_pos (show env.send st.sends = some flow.packetLen from hsent),
          Flow.ahead_one], rfl⟩
    · next hsent =>
        cases h
        exact ⟨by rw [if_neg (show env.send st.sends ≠ some flow.packetLen from hsent),
          Flow.ahead_zero], rfl⟩
  · cases h

/-- A round of the loop, and then the rest of it. -/
theorem LoopSpec.cons {flow₁ : Flow} {st₂ : TxRun} {p : TxPacket} {ps : List TxPacket}
    (h : LoopSpec cfg env now fuel flow₁ st₂ flow' st' fin ps)
    (hdue : 0 ≤ wrappedDiff now flow.nextTs)
    (hmoved : flow₁ = flow.ahead
      (if env.send st.sent.length = some flow.packetLen then 1 else 0))
    (hp : p.flow = flow ∧ p.len = flow.packetLen) (hsent : st₂.sent = st.sent ++ [p])
    (hflags : st₂.flags = st.flags) (hrecvs : st₂.recvs = st.recvs)
    (hawake : ¬TooLong cfg env now (st.sent.length + 1)) :
    LoopSpec cfg env now (fuel + 1) flow st flow' st' fin (p :: ps) := by
  have hlen : st₂.sent.length = st.sent.length + 1 := by
    rw [hsent, List.length_append, List.length_singleton]
  -- the rounds to come, counted from this one
  have hrest : ∀ n, flow₁.ahead (flow₁.delivered env st₂.sent.length n) =
      flow.ahead (flow.delivered env st.sent.length (n + 1)) := by
    intro n
    have hsame : flow₁.packetLen = flow.packetLen := by
      rw [hmoved]
      rfl
    rw [Flow.delivered_congr hsame, hmoved, Flow.ahead_ahead, hlen, Flow.delivered]
  have hlate : ∀ n, st₂.sent.length + n = st.sent.length + (n + 1) := by
    intro n
    rw [hlen, Nat.add_assoc, Nat.add_comm 1 n]
  refine ⟨?_, h.counted, h.flags.trans hflags, h.recvs.trans hrecvs, ?_, ?_, ?_, ?_, ?_, ?_, ?_⟩
  · rw [h.sent, hsent, List.append_assoc]
    rfl
  · rw [h.after, hrest]
    rfl
  · intro k hk
    cases k with
    | zero => exact ⟨hp.1.trans flow.ahead_zero.symm, hp.2⟩
    | succ k =>
        obtain ⟨hflow, hlen'⟩ := h.packet k (Nat.lt_of_succ_lt_succ hk)
        refine ⟨hflow.trans (hrest k), hlen'.trans ?_⟩
        rw [hmoved]
        rfl
  · intro k hk
    cases k with
    | zero =>
        rw [Flow.delivered, Flow.ahead_zero]
        exact hdue
    | succ k =>
        rw [← hrest]
        exact h.due k (Nat.lt_of_succ_lt_succ hk)
  · intro k hk
    cases k with
    | zero => exact hawake
    | succ k =>
        rw [← hlate]
        exact h.awake k (Nat.lt_of_succ_lt_succ hk)
  · intro hfin
    obtain ⟨hend, hquiet⟩ := h.done hfin
    refine ⟨hend, fun k hk => ?_⟩
    cases k with
    | zero => exact hawake
    | succ k =>
        rw [← hlate]
        exact hquiet k (Nat.lt_of_succ_lt_succ hk)
  · intro hfin
    rw [List.length_cons, ← hlate]
    exact ⟨List.cons_ne_nil _ _, (h.yielded hfin).2⟩
  · intro hfin
    obtain ⟨hfuel, hquiet⟩ := h.outOfFuel hfin
    refine ⟨by rw [List.length_cons, hfuel], fun k hk => ?_⟩
    cases k with
    | zero => exact hawake
    | succ k =>
        rw [← hlate]
        exact hquiet k (Nat.lt_of_succ_lt_succ hk)

/-- No round at all. -/
theorem LoopSpec.nil (hc : st.Counted) (hdone : fin = .done → wrappedDiff now flow.nextTs < 0)
    (hyield : fin ≠ .yielded) (hfuel : fin = .outOfFuel → fuel = 0) :
    LoopSpec cfg env now fuel flow st flow st fin [] where
  sent := (List.append_nil _).symm
  counted := hc
  flags := rfl
  recvs := rfl
  after := flow.ahead_zero.symm
  packet := fun k hk => absurd hk (Nat.not_lt_zero k)
  due := fun k hk => absurd hk (Nat.not_lt_zero k)
  awake := fun _ hk => absurd hk (Nat.not_lt_zero _)
  done := fun hfin => ⟨hdone hfin, fun k hk => absurd hk (Nat.not_lt_zero k)⟩
  yielded := fun hfin => absurd hfin hyield
  outOfFuel := fun hfin => ⟨(hfuel hfin).symm, fun k hk => absurd hk (Nat.not_lt_zero k)⟩

/-- The round after which the thread yields. -/
theorem LoopSpec.last {flow₁ : Flow} {st₂ : TxRun} {p : TxPacket} (hc : st₂.Counted)
    (hdue : 0 ≤ wrappedDiff now flow.nextTs)
    (hmoved : flow₁ = flow.ahead
      (if env.send st.sent.length = some flow.packetLen then 1 else 0))
    (hp : p.flow = flow ∧ p.len = flow.packetLen) (hsent : st₂.sent = st.sent ++ [p])
    (hflags : st₂.flags = st.flags) (hrecvs : st₂.recvs = st.recvs)
    (hlong : TooLong cfg env now (st.sent.length + 1)) :
    LoopSpec cfg env now (fuel + 1) flow st flow₁ st₂ .yielded [p] where
  sent := hsent
  counted := hc
  flags := hflags
  recvs := hrecvs
  after := hmoved
  packet := fun k hk => by
    obtain rfl : k = 0 := Nat.lt_one_iff.mp hk
    exact ⟨hp.1.trans flow.ahead_zero.symm, hp.2⟩
  due := fun k hk => by
    obtain rfl : k = 0 := Nat.lt_one_iff.mp hk
    rw [Flow.delivered, Flow.ahead_zero]
    exact hdue
  awake := fun k hk => absurd hk (Nat.not_lt.mpr (Nat.succ_le_succ (Nat.zero_le k)))
  done := fun hfin => by cases hfin
  yielded := fun _ => ⟨List.cons_ne_nil _ _, hlong⟩
  outOfFuel := fun hfin => by cases hfin

theorem sendLoop_spec (hc : st.Counted)
    (h : sendLoop cfg env now fuel flow st = some (flow', st', fin)) :
    ∃ ps, LoopSpec cfg env now fuel flow st flow' st' fin ps := by
  induction fuel generalizing flow st with
  | zero =>
      cases h
      exact ⟨[], .nil hc (fun hf => by cases hf) (fun hf => by cases hf) fun _ => rfl⟩
  | succ fuel ih =>
      rw [sendLoop] at h
      split at h
      · next hdue =>
          obtain ⟨b, _, h⟩ := Option.bind_eq_some_iff.mp h
          obtain ⟨⟨flow₁, st₁⟩, hsend, h⟩ := Option.bind_eq_some_iff.mp h
          obtain ⟨hmoved, hst₁⟩ := sendPacket_cases hsend
          dsimp only at hmoved hst₁
          rw [hc.sends] at hmoved
          have hsent₁ : st₁.sent = st.sent ++ [⟨flow, b.pbuff, flow.packetLen⟩] := by rw [hst₁]
          have hlen₁ : st₁.sent.length = st.sent.length + 1 := by
            rw [hsent₁, List.length_append, List.length_singleton]
          have hit₁ : st₁.iterations = st.sent.length := by rw [hst₁, ← hc.iterations]
          have hn₁ : st₁.nows = st₁.iterations / 16 := by rw [hit₁, ← hc.nows, hst₁]
          obtain ⟨hlook, nows, hst₂, hnows⟩ := @awakeTooLong_spec cfg env now st₁ hn₁
          rw [hit₁] at hlook hnows
          have hc₂ : (awakeTooLong cfg env now st₁).2.Counted := by
            rw [hst₂]
            refine ⟨?_, ?_, ?_⟩
            · rw [hlen₁, hst₁, ← hc.sends]
            · rw [hlen₁, hit₁]
            · rw [hlen₁, hnows]
          have hsent₂ : (awakeTooLong cfg env now st₁).2.sent = st₁.sent := by rw [hst₂]
          have hflags₂ : (awakeTooLong cfg env now st₁).2.flags = st.flags := by rw [hst₂, hst₁]
          have hrecvs₂ : (awakeTooLong cfg env now st₁).2.recvs = st.recvs := by rw [hst₂, hst₁]
          dsimp only at h
          split at h
          · next hyield =>
              cases h
              exact ⟨_, .last hc₂ hdue hmoved ⟨rfl, rfl⟩ (hsent₂.trans hsent₁) hflags₂ hrecvs₂
                (hlook.mp hyield)⟩
          · next hyield =>
              obtain ⟨ps, hrest⟩ := ih hc₂ h
              exact ⟨_, hrest.cons hdue hmoved ⟨rfl, rfl⟩ (hsent₂.trans hsent₁) hflags₂ hrecvs₂
                fun hlong => hyield (hlook.mpr hlong)⟩
      · next hdue =>
          cases h
          exact ⟨[], .nil hc (fun _ => by omega) (fun hf => by cases hf) fun hf => by cases hf⟩

/-! ## Turns -/

theorem processKeepalive_counted (hc : st.Counted) :
    (processKeepalive cfg env now flow st).2.Counted := by
  unfold processKeepalive
  split
  · exact hc
  · dsimp only
    split
    · exact ⟨hc.sends, hc.iterations, hc.nows⟩
    · split <;> exact ⟨hc.sends, hc.iterations, hc.nows⟩

/-- The turn of a live flow: it is put back in step with the clock, sends the
packets `ps`, and has its keepalives looked at if it is done. -/
structure TurnSpec (cfg : TxConfig) (env : Outside) (now : Clock) (processEvents : Bool)
    (fuel : Nat) (flow : Flow) (st : TxRun) (flow' : Flow) (st' : TxRun) (fin : LoopEnd)
    (flow₁ flow₂ : Flow) (st₁ st₂ : TxRun) (ps : List TxPacket) : Prop where
  synced : resync cfg now flow = some flow₁
  cleared : ∃ b, clearPayload flow₁ st.buffers = some b ∧ st₁ = { st with buffers := b }
  looped : sendLoop cfg env now fuel flow₁ st₁ = some (flow₂, st₂, fin)
  loop : LoopSpec cfg env now fuel flow₁ st₁ flow₂ st₂ fin ps
  ends : (flow', st') = if fin = .done ∧ processEvents = true
    then processKeepalive cfg env now flow₂ st₂ else (flow₂, st₂)

theorem transmitFlow_spec {pe : Bool} (hc : st.Counted) (hlive : st.flags flow.expired = false)
    (h : transmitFlow cfg env now pe fuel flow st = some (flow', st', fin)) :
    ∃ flow₁ flow₂ st₁ st₂ ps,
      TurnSpec cfg env now pe fuel flow st flow' st' fin flow₁ flow₂ st₁ st₂ ps := by
  rw [transmitFlow, if_neg (by rw [hlive]; exact Bool.false_ne_true)] at h
  obtain ⟨flow₁, hsync, h⟩ := Option.bind_eq_some_iff.mp h
  obtain ⟨b, hclear, h⟩ := Option.bind_eq_some_iff.mp h
  obtain ⟨⟨flow₂, st₂, fin₂⟩, hloop, h⟩ := Option.bind_eq_some_iff.mp h
  have hc₁ : ({ st with buffers := b } : TxRun).Counted := ⟨hc.sends, hc.iterations, hc.nows⟩
  obtain ⟨ps, hspec⟩ := sendLoop_spec hc₁ hloop
  dsimp only at h
  split at h
  · next hdone =>
      cases h
      exact ⟨flow₁, flow₂, _, st₂, ps, hsync, ⟨b, hclear, rfl⟩, hdone.1 ▸ hloop,
        hdone.1 ▸ hspec, by rw [if_pos ⟨rfl, hdone.2⟩]⟩
  · next hdone =>
      cases h
      exact ⟨flow₁, _, _, _, ps, hsync, ⟨b, hclear, rfl⟩, hloop, hspec, by rw [if_neg hdone]⟩

namespace TurnSpec

variable {pe : Bool} {flow₁ flow₂ : Flow} {st₁ st₂ : TxRun} {ps : List TxPacket}

theorem state (h : TurnSpec cfg env now pe fuel flow st flow' st' fin flow₁ flow₂ st₁ st₂ ps) :
    st'.sent = st.sent ++ ps ∧ st'.Counted ∧ flow'.nextTs = flow₂.nextTs ∧
      flow'.fpp = flow₂.fpp := by
  obtain ⟨b, _, hst₁⟩ := h.cleared
  have hsent₂ : st₂.sent = st.sent ++ ps := by rw [h.loop.sent, hst₁]
  have hends := h.ends
  split at hends
  · have hflow : flow' = (processKeepalive cfg env now flow₂ st₂).1 := congrArg Prod.fst hends
    have hst : st' = (processKeepalive cfg env now flow₂ st₂).2 := congrArg Prod.snd hends
    obtain ⟨expires, hline⟩ := @processKeepalive_line cfg env now flow₂ st₂
    rw [hst, hflow, processKeepalive_sent, hline]
    exact ⟨hsent₂, processKeepalive_counted h.loop.counted, rfl, rfl⟩
  · cases hends
    exact ⟨hsent₂, h.loop.counted, rfl, rfl⟩

end TurnSpec

theorem transmitFlow_counted {pe : Bool} (hc : st.Counted)
    (h : transmitFlow cfg env now pe fuel flow st = some (flow', st', fin)) : st'.Counted := by
  by_cases hlive : st.flags flow.expired = true
  · rw [transmitFlow, if_pos hlive] at h
    cases h
    exact hc
  · obtain ⟨_, _, _, _, _, hspec⟩ := transmitFlow_spec hc (Bool.eq_false_iff.mpr hlive) h
    exact hspec.state.2.1

/-! ## The table -/

variable {pe : Bool} {flows flows' : List (Option Flow)}

/-- The first part of the table, and the rest of it if the call gets there. -/
theorem transmitFlows_append (xs ys : List (Option Flow)) (st : TxRun) :
    transmitFlows cfg env now pe fuel (xs ++ ys) st =
      (transmitFlows cfg env now pe fuel xs st).bind fun (xs', st₁, fin) =>
        if fin = .done then
          (transmitFlows cfg env now pe fuel ys st₁).map fun (ys', st₂, fin) =>
            (xs' ++ ys', st₂, fin)
        else some (xs' ++ ys, st₁, fin) := by
  induction xs generalizing st with
  | nil =>
      simp only [List.nil_append, transmitFlows, Option.bind_some, if_true]
      exact Option.map_id'.symm
  | cons o xs ih =>
      cases o with
      | none =>
          simp only [List.cons_append, transmitFlows, ih, Option.bind_eq_bind]
          cases hxs : transmitFlows cfg env now pe fuel xs st with
          | none => rfl
          | some r =>
              obtain ⟨xs', st₁, fin⟩ := r
              simp only [Option.bind_some]
              split
              · cases transmitFlows cfg env now pe fuel ys st₁ <;> rfl
              · rfl
      | some flow =>
          simp only [List.cons_append, transmitFlows, Option.bind_eq_bind]
          cases hflow : transmitFlow cfg env now pe fuel flow st with
          | none => rfl
          | some r =>
              obtain ⟨flow', st₁, fin⟩ := r
              simp only [Option.bind_some]
              split
              · simp only [ih]
                cases hxs : transmitFlows cfg env now pe fuel xs st₁ with
                | none => rfl
                | some r =>
                    obtain ⟨xs', st₂, fin⟩ := r
                    simp only [Option.bind_some]
                    split
                    · cases transmitFlows cfg env now pe fuel ys st₂ <;> rfl
                    · rfl
              · next hfin =>
                  simp only [Option.bind_some, if_neg hfin]
                  rfl

theorem transmitFlows_length
    (h : transmitFlows cfg env now pe fuel flows st = some (flows', st', fin)) :
    flows'.length = flows.length := by
  induction flows generalizing flows' st fin with
  | nil =>
      cases h
      rfl
  | cons o flows ih =>
      cases o with
      | none =>
          obtain ⟨⟨flows₁, st₁, fin₁⟩, hrest, h⟩ := Option.bind_eq_some_iff.mp h
          cases h
          rw [List.length_cons, List.length_cons, ih hrest]
      | some flow =>
          obtain ⟨⟨flow₁, st₁, fin₁⟩, hflow, h⟩ := Option.bind_eq_some_iff.mp h
          dsimp only at h
          split at h
          · obtain ⟨⟨flows₁, st₂, fin₂⟩, hrest, h⟩ := Option.bind_eq_some_iff.mp h
            cases h
            rw [List.length_cons, List.length_cons, ih hrest]
          · cases h
            rfl

/-- What each turn does to the state, one after the other. -/
theorem transmitFlows_rel {R : TxRun → TxRun → Prop} (hrefl : ∀ st, R st st)
    (htrans : ∀ {st₁ st₂ st₃}, R st₁ st₂ → R st₂ st₃ → R st₁ st₃)
    (hturn : ∀ flow, some flow ∈ flows → ∀ {st flow' st' fin},
      transmitFlow cfg env now pe fuel flow st = some (flow', st', fin) → R st st')
    (h : transmitFlows cfg env now pe fuel flows st = some (flows', st', fin)) : R st st' := by
  induction flows generalizing flows' st fin with
  | nil =>
      cases h
      exact hrefl _
  | cons o flows ih =>
      have hlater := fun flow hflow => @hturn flow (List.mem_cons_of_mem o hflow)
      cases o with
      | none =>
          obtain ⟨⟨flows₁, st₁, fin₁⟩, hrest, h⟩ := Option.bind_eq_some_iff.mp h
          cases h
          exact ih hlater hrest
      | some flow =>
          obtain ⟨⟨flow₁, st₁, fin₁⟩, hflow, h⟩ := Option.bind_eq_some_iff.mp h
          have hfirst := hturn flow List.mem_cons_self hflow
          dsimp only at h
          split at h
          · obtain ⟨⟨flows₁, st₂, fin₂⟩, hrest, h⟩ := Option.bind_eq_some_iff.mp h
            cases h
            exact htrans hfirst (ih hlater hrest)
          · cases h
            exact hfirst

theorem transmitFlows_counted (hc : st.Counted)
    (h : transmitFlows cfg env now pe fuel flows st = some (flows', st', fin)) :
    st'.Counted :=
  transmitFlows_rel (R := fun st st' => st.Counted → st'.Counted) (fun _ hc => hc)
    (fun h₁ h₂ hc => h₂ (h₁ hc)) (fun _ _ _ _ _ _ hturn hc => transmitFlow_counted hc hturn) h hc

end

/-! ## Calls -/

/-- A call of `transmit`: the rings as they are then, what comes from outside. -/
structure TransmitCall where
  sources : List TxSource
  env : Outside
  now : Clock
  processEvents : Bool
  fuel : Nat

/-- What the thread keeps between two calls. -/
structure TxThread where
  flows : List (Option Flow)
  flags : Flag → Bool
  ditherRng : DitherRng

namespace TransmitCall

def config (cfg : TxConfig) (c : TransmitCall) : TxConfig :=
  { cfg with channelsSources := c.sources }

def run (cfg : TxConfig) (c : TransmitCall) (s : TxThread) :
    Option (TxThread × TxRun × LoopEnd) := do
  let (flows, st, fin) ← transmit (c.config cfg) c.env c.now c.processEvents c.fuel s.flows
    s.flags s.ditherRng
  some (⟨flows, st.flags, st.buffers.ditherRng⟩, st, fin)

end TransmitCall

/-- In the call, the flow in `slot` has its turn, from `st` to `st'`. -/
structure Round (cfg : TxConfig) (c : TransmitCall) (s : TxThread) (slot : Nat) (flow : Flow)
    (st : TxRun) (flow' : Flow) (st' : TxRun) (fin : LoopEnd) : Prop where
  holds : s.flows[slot]? = some (some flow)
  before : ∃ flows', transmitFlows (c.config cfg) c.env c.now c.processEvents c.fuel
    (s.flows.take slot) (.begin s.flags s.ditherRng) = some (flows', st, .done)
  turn : transmitFlow (c.config cfg) c.env c.now c.processEvents c.fuel flow st =
    some (flow', st', fin)

section

variable {cfg : TxConfig} {c : TransmitCall} {s s' : TxThread} {slot : Nat}
  {flow flow' : Flow} {st st' st₀ : TxRun} {fin fin' : LoopEnd}

theorem Round.counted (h : Round cfg c s slot flow st flow' st' fin) : st.Counted := by
  obtain ⟨flows', hbefore⟩ := h.before
  exact transmitFlows_counted (begin_counted _ _) hbefore

theorem take_slot {flows : List (Option Flow)} {o : Option Flow} (h : flows[slot]? = some o) :
    flows = flows.take slot ++ o :: flows.drop (slot + 1) := by
  obtain ⟨hlt, hget⟩ := List.getElem?_eq_some_iff.mp h
  rw [← hget, ← List.drop_eq_getElem_cons hlt, List.take_append_drop]

/-- A slot has one flow. -/
theorem slot_unique {flows : List (Option Flow)} (h : flows[slot]? = some (some flow))
    (h' : flows[slot]? = some (some flow')) : flow = flow' :=
  Option.some.inj (Option.some.inj (h.symm.trans h'))

/-- The call as the turns before a slot, the slot's own and those after it. -/
theorem run_eq_turns (hslot : s.flows[slot]? = some (some flow)) :
    c.run cfg s = (transmitFlows (c.config cfg) c.env c.now c.processEvents c.fuel
      (s.flows.take slot) (.begin s.flags s.ditherRng)).bind fun (before, st, fin) =>
        if fin = .done then
          (transmitFlow (c.config cfg) c.env c.now c.processEvents c.fuel flow st).bind
            fun (flow', st', fin) =>
              if fin = .done then
                (transmitFlows (c.config cfg) c.env c.now c.processEvents c.fuel
                  (s.flows.drop (slot + 1)) st').map fun (after, st, fin) =>
                    (⟨before ++ some flow' :: after, st.flags, st.buffers.ditherRng⟩, st, fin)
              else some (⟨before ++ some flow' :: s.flows.drop (slot + 1), st'.flags,
                st'.buffers.ditherRng⟩, st', fin)
        else some (⟨before ++ some flow :: s.flows.drop (slot + 1), st.flags,
          st.buffers.ditherRng⟩, st, fin) := by
  conv_lhs => rw [TransmitCall.run, transmit, take_slot hslot]
  rw [transmitFlows_append]
  simp only [Option.bind_eq_bind]
  cases transmitFlows (c.config cfg) c.env c.now c.processEvents c.fuel (s.flows.take slot)
      (.begin s.flags s.ditherRng) with
  | none => rfl
  | some r =>
      obtain ⟨before, st, fin⟩ := r
      simp only [Option.bind_some]
      split
      · rw [transmitFlows]
        simp only [Option.bind_eq_bind]
        cases transmitFlow (c.config cfg) c.env c.now c.processEvents c.fuel flow st with
        | none => rfl
        | some r =>
            obtain ⟨flow', st', fin⟩ := r
            simp only [Option.bind_some]
            split
            · cases transmitFlows (c.config cfg) c.env c.now c.processEvents c.fuel
                (s.flows.drop (slot + 1)) st' <;> rfl
            · rfl
      · rfl

/-- A slot that has its turn has it once, and keeps what comes of it. -/
theorem Round.result (h : Round cfg c s slot flow st flow' st' fin)
    (hrun : c.run cfg s = some (s', st₀, fin')) :
    s'.flows[slot]? = some (some flow') ∧ (fin ≠ .done → fin' = fin) := by
  obtain ⟨before, hbefore⟩ := h.before
  have hlt := (List.getElem?_eq_some_iff.mp h.holds).1
  have hlen := transmitFlows_length hbefore
  rw [List.length_take, Nat.min_eq_left (Nat.le_of_lt hlt)] at hlen
  have hget : ∀ rest, (before ++ some flow' :: rest)[slot]? = some (some flow') := by
    intro rest
    rw [← hlen, List.getElem?_append_right (Nat.le_refl _), Nat.sub_self]
    rfl
  rw [run_eq_turns h.holds, hbefore, Option.bind_some] at hrun
  dsimp only at hrun
  rw [if_pos rfl, h.turn, Option.bind_some] at hrun
  dsimp only at hrun
  split at hrun
  · next hdone =>
      obtain ⟨⟨after, st₂, fin₂⟩, _, hrun⟩ := Option.map_eq_some_iff.mp hrun
      cases hrun
      exact ⟨hget _, fun hfin => absurd hdone hfin⟩
  · cases hrun
    exact ⟨hget _, fun _ => rfl⟩

/-- The flow in a slot has its turn, or the call does not get there. -/
theorem slot_after (hrun : c.run cfg s = some (s', st₀, fin'))
    (hslot : s.flows[slot]? = some (some flow)) :
    s'.flows[slot]? = some (some flow) ∨
      ∃ st flow' st' fin, Round cfg c s slot flow st flow' st' fin ∧
        s'.flows[slot]? = some (some flow') := by
  have hlt := (List.getElem?_eq_some_iff.mp hslot).1
  have hsplit := @run_eq_turns cfg c s slot flow hslot
  rw [hrun] at hsplit
  obtain ⟨⟨before, st, fin⟩, hbefore, hrest⟩ := Option.bind_eq_some_iff.mp hsplit.symm
  dsimp only at hrest
  split at hrest
  · next hdone =>
      obtain ⟨⟨flow', st', fin₁⟩, hturn, _⟩ := Option.bind_eq_some_iff.mp hrest
      obtain rfl : fin = .done := hdone
      have hround : Round cfg c s slot flow st flow' st' fin₁ := ⟨hslot, ⟨before, hbefore⟩, hturn⟩
      exact Or.inr ⟨st, flow', st', fin₁, hround, (hround.result hrun).1⟩
  · cases hrest
    refine Or.inl ?_
    have hlen := transmitFlows_length hbefore
    rw [List.length_take, Nat.min_eq_left (Nat.le_of_lt hlt)] at hlen
    dsimp only
    rw [← hlen, List.getElem?_append_right (Nat.le_refl _), Nat.sub_self]
    rfl

theorem transmitFlows_cut {env : Outside} {now : Clock} {pe : Bool} {fuel : Nat}
    {flows flows' : List (Option Flow)}
    (h : transmitFlows cfg env now pe fuel flows st = some (flows', st', fin))
    (hcut : fin ≠ .done) :
    ∃ slot flow before st₁ flow', flows[slot]? = some (some flow) ∧
      transmitFlows cfg env now pe fuel (flows.take slot) st = some (before, st₁, .done) ∧
      transmitFlow cfg env now pe fuel flow st₁ = some (flow', st', fin) := by
  induction flows generalizing flows' st with
  | nil =>
      cases h
      exact absurd rfl hcut
  | cons o flows ih =>
      cases o with
      | none =>
          obtain ⟨⟨flows₁, st₁, fin₁⟩, hrest, h⟩ := Option.bind_eq_some_iff.mp h
          cases h
          obtain ⟨slot, flow, before, st₂, flow', hslot, hbefore, hturn⟩ := ih hrest
          refine ⟨slot + 1, flow, none :: before, st₂, flow', hslot, ?_, hturn⟩
          rw [List.take_succ_cons, transmitFlows, hbefore]
          rfl
      | some flow₀ =>
          obtain ⟨⟨flow₁, st₁, fin₁⟩, hflow, h⟩ := Option.bind_eq_some_iff.mp h
          dsimp only at h
          split at h
          · next hdone =>
              obtain rfl : fin₁ = .done := hdone
              obtain ⟨⟨flows₁, st₂, fin₂⟩, hrest, h⟩ := Option.bind_eq_some_iff.mp h
              cases h
              obtain ⟨slot, flow, before, st₃, flow', hslot, hbefore, hturn⟩ := ih hrest
              refine ⟨slot + 1, flow, some flow₁ :: before, st₃, flow', hslot, ?_, hturn⟩
              rw [List.take_succ_cons, transmitFlows]
              simp only [hflow, Option.bind_eq_bind, Option.bind_some, if_true, hbefore]
          · cases h
            exact ⟨0, flow₀, [], st, flow₁, rfl, rfl, hflow⟩

/-- A call that is cut short is cut short in the turn of one flow. -/
theorem exists_cut (hrun : c.run cfg s = some (s', st₀, fin')) (hcut : fin' ≠ .done) :
    ∃ slot flow st flow', Round cfg c s slot flow st flow' st₀ fin' := by
  obtain ⟨⟨flows, st, fin⟩, hflows, hrun⟩ := Option.bind_eq_some_iff.mp hrun
  cases hrun
  obtain ⟨slot, flow, before, st₁, flow', hslot, hbefore, hturn⟩ := transmitFlows_cut hflows hcut
  exact ⟨slot, flow, st₁, flow', hslot, ⟨before, hbefore⟩, hturn⟩

/-- A call that is not cut short gives each flow its turn. -/
theorem exists_round (hrun : c.run cfg s = some (s', st₀, .done))
    (hslot : s.flows[slot]? = some (some flow)) :
    ∃ st flow' st', Round cfg c s slot flow st flow' st' .done := by
  rw [run_eq_turns hslot] at hrun
  obtain ⟨⟨before, st, fin⟩, hbefore, hrun⟩ := Option.bind_eq_some_iff.mp hrun
  dsimp only at hrun
  split at hrun
  · next hdone =>
      obtain ⟨⟨flow', st', fin'⟩, hturn, hrun⟩ := Option.bind_eq_some_iff.mp hrun
      obtain rfl : fin = .done := hdone
      dsimp only at hrun
      split at hrun
      · next hdone' =>
          obtain rfl : fin' = .done := hdone'
          exact ⟨st, flow', st', hslot, ⟨before, hbefore⟩, hturn⟩
      · next hdone' =>
          cases hrun
          exact absurd rfl hdone'
  · next hdone =>
      cases hrun
      exact absurd rfl hdone

end

end Inferno
