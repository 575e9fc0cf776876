import Inferno.TxFidelity
import Inferno.TxFlags
import Inferno.TxMoves

/-!
# One flow after the other

`transmit` gives each flow of the table its turn (`transmitFlow`). Calls are
made on the control side while it does so, so that a turn is a step of its own
here (`TxTables.turn`), with any buffers, clock and answers of the network.

A turn sends the packets of its own flow only, changes neither its channels nor
its flag, and marks nobody else expired. It does nothing at all if the flow is
expired (`TxTurn.run_expired`).
-/

namespace Inferno

/-- What a turn finds besides the flow and the flags. -/
structure TxTurn where
  cfg : TxConfig
  env : Outside
  now : Clock
  processEvents : Bool
  fuel : Nat
  st : TxRun

namespace TxTurn

/-- The state of the call of `transmit` when the turn begins. -/
def begin (t : TxTurn) (flags : Flag → Bool) : TxRun := { t.st with flags := flags, sent := [] }

def run (t : TxTurn) (flags : Flag → Bool) (flow : Flow) : Option (Flow × TxRun × LoopEnd) :=
  transmitFlow t.cfg t.env t.now t.processEvents t.fuel flow (t.begin flags)

/-- The packets of a turn; `none` is a panic. -/
def packets (t : TxTurn) (flags : Flag → Bool) (flow : Flow) : Option (List TxPacket) :=
  (t.run flags flow).map fun (_, st, _) => st.sent

end TxTurn

/-! ## What a turn changes -/

/-- What a flow keeps in its turn. -/
structure Flow.SameLine (flow flow' : Flow) : Prop where
  channels : flow'.channelIndices = flow.channelIndices
  expired : flow'.expired = flow.expired

section

variable {cfg : TxConfig} {flow flow' : Flow} {st st' : TxRun}

theorem sendPacket_flags {env : Outside} (h : sendPacket env flow st = some (flow', st')) :
    st'.flags = st.flags := by
  simp only [sendPacket] at h
  split at h
  · split at h <;> cases h <;> rfl
  · cases h

theorem awakeTooLong_flags (env : Outside) (now : Clock) (st : TxRun) :
    (awakeTooLong cfg env now st).2.flags = st.flags := by
  simp only [awakeTooLong]
  split
  · split <;> rfl
  · rfl

/-- The loop sends packets of the flow, and of no other. -/
theorem sendLoop_keeps {env : Outside} {now : Clock} {fuel : Nat} {fin : LoopEnd}
    (h : sendLoop cfg env now fuel flow st = some (flow', st', fin)) :
    flow.SameLine flow' ∧ st'.flags = st.flags ∧
      ∀ p ∈ st'.sent, p ∈ st.sent ∨ flow.SameLine p.flow := by
  induction fuel generalizing flow st with
  | zero =>
      cases h
      exact ⟨⟨rfl, rfl⟩, rfl, fun _ hp => Or.inl hp⟩
  | succ fuel ih =>
      rw [sendLoop] at h
      split at h
      · obtain ⟨b, _, h⟩ := Option.bind_eq_some_iff.mp h
        obtain ⟨⟨flow₁, st₁⟩, hsend, h⟩ := Option.bind_eq_some_iff.mp h
        have hflags₁ := sendPacket_flags hsend
        obtain ⟨⟨ts, rfl⟩, _, hlog⟩ := sendPacket_eq hsend
        obtain ⟨_, hlog₂⟩ := @awakeTooLong_eq cfg env now st₁
        have hflags₂ := (@awakeTooLong_flags cfg env now st₁).trans hflags₁
        have hsent : ∀ p ∈ (awakeTooLong cfg env now st₁).2.sent,
            p ∈ st.sent ∨ flow.SameLine p.flow := by
          intro p hp
          rw [hlog₂, hlog] at hp
          rcases List.mem_append.mp hp with hp | hp
          · exact Or.inl hp
          · rw [List.mem_singleton.mp hp]
            exact Or.inr ⟨rfl, rfl⟩
        dsimp only at h
        split at h
        · cases h
          exact ⟨⟨rfl, rfl⟩, hflags₂, hsent⟩
        · obtain ⟨hline, hflags, hrest⟩ := ih h
          refine ⟨⟨hline.channels, hline.expired⟩, hflags.trans hflags₂, fun p hp => ?_⟩
          rcases hrest p hp with hp | hp
          · exact hsent p hp
          · exact Or.inr ⟨hp.channels, hp.expired⟩
      · cases h
        exact ⟨⟨rfl, rfl⟩, rfl, fun _ hp => Or.inl hp⟩

theorem processKeepalive_keeps (env : Outside) (now : Clock) (flow : Flow) (st : TxRun) :
    flow.SameLine (processKeepalive cfg env now flow st).1 ∧
      ((processKeepalive cfg env now flow st).2.flags = st.flags ∨
        (processKeepalive cfg env now flow st).2.flags =
          Function.update st.flags flow.expired true) := by
  simp only [processKeepalive]
  split
  · exact ⟨⟨rfl, rfl⟩, Or.inl rfl⟩
  · split
    · exact ⟨⟨rfl, rfl⟩, Or.inl rfl⟩
    · split
      · exact ⟨⟨rfl, rfl⟩, Or.inr rfl⟩
      · exact ⟨⟨rfl, rfl⟩, Or.inl rfl⟩

theorem transmitFlow_keeps {env : Outside} {now : Clock} {pe : Bool} {fuel : Nat} {fin : LoopEnd}
    (h : transmitFlow cfg env now pe fuel flow st = some (flow', st', fin)) :
    flow.SameLine flow' ∧
      (st'.flags = st.flags ∨ st'.flags = Function.update st.flags flow.expired true) ∧
      ∀ p ∈ st'.sent, p ∈ st.sent ∨ flow.SameLine p.flow := by
  rw [transmitFlow] at h
  split at h
  · cases h
    exact ⟨⟨rfl, rfl⟩, Or.inl rfl, fun _ hp => Or.inl hp⟩
  · obtain ⟨flow₁, hsync, h⟩ := Option.bind_eq_some_iff.mp h
    obtain ⟨ts, rfl⟩ := resync_eq hsync
    obtain ⟨b, _, h⟩ := Option.bind_eq_some_iff.mp h
    obtain ⟨⟨flow₂, st₂, fin₂⟩, hloop, h⟩ := Option.bind_eq_some_iff.mp h
    obtain ⟨⟨hch, hexp⟩, hflags, hsent⟩ := sendLoop_keeps hloop
    have hsent' : ∀ p ∈ st₂.sent, p ∈ st.sent ∨ flow.SameLine p.flow := fun p hp =>
      (hsent p hp).imp id fun hline => ⟨hline.channels, hline.expired⟩
    dsimp only at h
    split at h
    · cases h
      obtain ⟨hline, hmarked⟩ := @processKeepalive_keeps cfg env now flow₂ st₂
      rw [hflags, hexp] at hmarked
      rw [processKeepalive_sent]
      exact ⟨⟨hline.channels.trans hch, hline.expired.trans hexp⟩, hmarked, hsent'⟩
    · cases h
      exact ⟨⟨hch, hexp⟩, Or.inl hflags, hsent'⟩

/-- The loop moves the time of the next packet. -/
theorem sendLoop_line {env : Outside} {now : Clock} {fuel : Nat} {fin : LoopEnd}
    (h : sendLoop cfg env now fuel flow st = some (flow', st', fin)) :
    ∃ ts, flow' = { flow with nextTs := ts } := by
  induction fuel generalizing flow st with
  | zero =>
      cases h
      exact ⟨_, rfl⟩
  | succ fuel ih =>
      rw [sendLoop] at h
      split at h
      · obtain ⟨b, _, h⟩ := Option.bind_eq_some_iff.mp h
        obtain ⟨⟨flow₁, st₁⟩, hsend, h⟩ := Option.bind_eq_some_iff.mp h
        obtain ⟨⟨ts, rfl⟩, _⟩ := sendPacket_eq hsend
        dsimp only at h
        split at h
        · cases h
          exact ⟨_, rfl⟩
        · obtain ⟨ts', rfl⟩ := ih h
          exact ⟨ts', rfl⟩
      · cases h
        exact ⟨_, rfl⟩

theorem processKeepalive_line (env : Outside) (now : Clock) (flow : Flow) (st : TxRun) :
    ∃ expires, (processKeepalive cfg env now flow st).1 = { flow with expires := expires } := by
  simp only [processKeepalive]
  split
  · exact ⟨_, rfl⟩
  · split
    · exact ⟨_, rfl⟩
    · split <;> exact ⟨_, rfl⟩

/-- A turn moves the time of the next packet and the one of the expiry. -/
theorem transmitFlow_line {env : Outside} {now : Clock} {pe : Bool} {fuel : Nat} {fin : LoopEnd}
    (h : transmitFlow cfg env now pe fuel flow st = some (flow', st', fin)) :
    ∃ ts expires, flow' = { flow with nextTs := ts, expires := expires } := by
  rw [transmitFlow] at h
  split at h
  · cases h
    exact ⟨_, _, rfl⟩
  · obtain ⟨flow₁, hsync, h⟩ := Option.bind_eq_some_iff.mp h
    obtain ⟨ts₁, rfl⟩ := resync_eq hsync
    obtain ⟨b, _, h⟩ := Option.bind_eq_some_iff.mp h
    obtain ⟨⟨flow₂, st₂, fin₂⟩, hloop, h⟩ := Option.bind_eq_some_iff.mp h
    obtain ⟨ts, rfl⟩ := sendLoop_line hloop
    dsimp only at h
    split at h
    · cases h
      obtain ⟨expires, hline⟩ := @processKeepalive_line cfg env now
        { flow with nextTs := ts } st₂
      exact ⟨ts, expires, hline⟩
    · cases h
      exact ⟨ts, _, rfl⟩

/-- An expired flow has nothing done in its turn. -/
theorem TxTurn.run_expired (t : TxTurn) {flags : Flag → Bool} (h : flags flow.expired = true) :
    t.run flags flow = some (flow, t.begin flags, .done) := by
  rw [TxTurn.run, transmitFlow]
  exact if_pos h

end

/-! ## Turns and calls -/

/-- What happens next, turns included. -/
inductive TxTurnEvent where
  | tables (e : TxTablesEvent)
  | turn (slot : Nat) (t : TxTurn)

namespace TxTables

/-- The flow in a slot has its turn. -/
def turn (w : TxTables) (slot : Nat) (t : TxTurn) : TxTables :=
  match w.slots[slot]? with
  | some (some flow) =>
      match t.run w.tx.flags flow with
      | some (flow, st, _) =>
          { tx := { w.tx with flags := st.flags }, slots := w.slots.set slot (some flow) }
      | none => { w with tx := { w.tx with receiverGone := true } }
  | _ => w

def act (sampleRate : BitVec 32) (w : TxTables) : TxTurnEvent → TxTables
  | .tables e => w.step sampleRate e
  | .turn slot t => if w.tx.receiverGone then w else w.turn slot t

/-- What a turn leaves: the tables, the queue and the slots as they are but for
the time of the next packet, and at most one flag more is set. -/
structure TurnKeeps (slot : Nat) (w w' : TxTables) : Prop where
  flows : w'.tx.flows = w.tx.flows
  ipPortToId : w'.tx.ipPortToId = w.tx.ipPortToId
  flowsInfo : w'.tx.flowsInfo = w.tx.flowsInfo
  commands : w'.tx.commands = w.tx.commands
  nextFlag : w'.tx.nextFlag = w.tx.nextFlag
  receiver : w'.tx.receiverGone = false → w.tx.receiverGone = false
  slotFlag : slotFlag w'.slots = slotFlag w.slots
  slotChannels : slotChannels w'.slots = slotChannels w.slots
  flags : w'.tx.flags = w.tx.flags ∨ ∃ f, Inferno.slotFlag w.slots slot = some f ∧
    w'.tx.flags = Function.update w.tx.flags f true

theorem turn_keeps (w : TxTables) (slot : Nat) (t : TxTurn) : TurnKeeps slot w (w.turn slot t) := by
  unfold TxTables.turn
  cases hslot : w.slots[slot]? with
  | none => exact ⟨rfl, rfl, rfl, rfl, rfl, id, rfl, rfl, Or.inl rfl⟩
  | some o =>
      cases o with
      | none => exact ⟨rfl, rfl, rfl, rfl, rfl, id, rfl, rfl, Or.inl rfl⟩
      | some flow =>
          have hlt := (List.getElem?_eq_some_iff.mp hslot).1
          have hflag : Inferno.slotFlag w.slots slot = some flow.expired := by
            rw [Inferno.slotFlag, hslot]
            rfl
          have hchannels : Inferno.slotChannels w.slots slot = some flow.channelIndices := by
            rw [Inferno.slotChannels, hslot]
            rfl
          dsimp only
          cases hrun : t.run w.tx.flags flow with
          | none => exact ⟨rfl, rfl, rfl, rfl, rfl, fun hg => (by cases hg), rfl, rfl, Or.inl rfl⟩
          | some r =>
              obtain ⟨flow', st, fin⟩ := r
              obtain ⟨⟨hch, hexp⟩, hflags, _⟩ := transmitFlow_keeps hrun
              refine ⟨rfl, rfl, rfl, rfl, rfl, id, ?_, ?_, ?_⟩
              · dsimp only
                rw [slotFlag_set hlt, Option.map_some, hexp, ← hflag]
                exact Function.update_eq_self _ _
              · dsimp only
                rw [slotChannels_set hlt, Option.map_some, hch, ← hchannels]
                exact Function.update_eq_self _ _
              · exact hflags.imp id fun hset => ⟨_, hflag, hset⟩

open FlowsTransmitter in
theorem together_act {w : TxTables} (h : w.tx.Together w.slots) (sampleRate : BitVec 32)
    (e : TxTurnEvent) : (w.act sampleRate e).tx.Together (w.act sampleRate e).slots := by
  cases e with
  | tables e => exact together_step h sampleRate e
  | turn slot t =>
      rw [TxTables.act]
      split
      · exact h
      · obtain ⟨hf, ha, hi, hc, _, hg, _, hch, _⟩ := turn_keeps w slot t
        refine ⟨h.tables.congr hf ha hi, ?_, fun hopen => ?_, fun hopen => ?_⟩
        · rw [hf, hi]
          exact h.remote
        · rw [hc, hch]
          exact h.queue (hg hopen)
        · rw [hc, hch, h.drained (hg hopen)]
          funext id
          rw [infoChannels, infoChannels, hi]

end TxTables

/-! ## Whose flag is whose -/

/-- The index and the flag of a flow that is added. -/
def TxCommand.added : TxCommand → Option (Nat × Flag)
  | .addFlow index _ _ _ _ _ expired => some (index, expired)
  | _ => none

/-- Each flag in use was given to one index. -/
structure TxCore.OwnedBy (owner : Flag → Nat) (slots : List (Option Flow)) (k : TxCore) :
    Prop where
  slot : ∀ i f, slotFlag slots i = some f → f < k.nextFlag ∧ owner f = i
  queue : ∀ c ∈ k.commands, ∀ i f, c.added = some (i, f) → f < k.nextFlag ∧ owner f = i
  flow : ∀ i flow, k.flows i = some flow → flow.expired < k.nextFlag ∧ owner flow.expired = i

def TxCore.Owned (slots : List (Option Flow)) (k : TxCore) : Prop :=
  ∃ owner, k.OwnedBy owner slots

namespace TxCore

variable {slots : List (Option Flow)} {k : TxCore}

/-- The fields it is about. -/
theorem Owned.congr {slots' : List (Option Flow)} {k' : TxCore} (h : k.Owned slots)
    (hs : slotFlag slots' = slotFlag slots) (hf : k'.flows = k.flows)
    (hc : k'.commands = k.commands) (hn : k'.nextFlag = k.nextFlag) : k'.Owned slots' := by
  obtain ⟨owner, hslot, hqueue, hflow⟩ := h
  refine ⟨owner, ?_, ?_, ?_⟩
  · simpa only [hs, hn]
  · simpa only [hc, hn]
  · simpa only [hf, hn]

theorem Owned.apply (h : k.Owned slots) (m : TxMove) : (m.apply k).Owned slots := by
  obtain ⟨owner, hslot, hqueue, hflow⟩ := h
  cases m with
  | remove id =>
      refine ⟨owner, hslot, fun c hc i f hadded => ?_, fun i flow hi => ?_⟩
      · simp only [TxMove.apply] at hc
        split at hc
        · exact hqueue c hc i f hadded
        · rcases List.mem_append.mp hc with hc | hc
          · exact hqueue c hc i f hadded
          · rw [List.mem_singleton.mp hc] at hadded
            cases hadded
      · simp only [TxMove.apply] at hi
        by_cases hne : i = id
        · rw [hne, Function.update_self] at hi
          cases hi
        · rw [Function.update_of_ne hne] at hi
          exact hflow i flow hi
  | tell id chs =>
      refine ⟨owner, hslot, fun c hc i f hadded => ?_, hflow⟩
      rcases List.mem_append.mp hc with hc | hc
      · exact hqueue c hc i f hadded
      · rw [List.mem_singleton.mp hc] at hadded
        cases hadded
  | insert id cookie dst chs fpp bytesPerSample isMulticast =>
      have hold : ∀ i f, f < k.nextFlag ∧ owner f = i →
          f < k.nextFlag + 1 ∧ Function.update owner k.nextFlag id f = i := by
        rintro i f ⟨hlt, rfl⟩
        exact ⟨Nat.lt_succ_of_lt hlt, Function.update_of_ne (Nat.ne_of_lt hlt) _ _⟩
      have hnew : k.nextFlag < k.nextFlag + 1 ∧
          Function.update owner k.nextFlag id k.nextFlag = id :=
        ⟨Nat.lt_succ_self _, Function.update_self _ _ _⟩
      refine ⟨Function.update owner k.nextFlag id, fun i f hf => hold i f (hslot i f hf),
        fun c hc i f hadded => ?_, fun i flow hi => ?_⟩
      · rcases List.mem_append.mp hc with hc | hc
        · exact hold i f (hqueue c hc i f hadded)
        · rw [List.mem_singleton.mp hc] at hadded
          cases hadded
          exact hnew
      · simp only [TxMove.apply] at hi
        by_cases hne : i = id
        · rw [hne, Function.update_self] at hi
          cases hi
          rw [hne]
          exact hnew
        · rw [Function.update_of_ne hne] at hi
          exact hold i _ (hflow i flow hi)
  | activate id =>
      simp only [TxMove.apply]
      split <;> exact ⟨owner, hslot, hqueue, hflow⟩

theorem Owned.moves (h : k.Owned slots) (ms : List TxMove) : (k.moves ms).Owned slots := by
  induction ms generalizing k with
  | nil => exact h
  | cons m ms ih => exact ih (h.apply m)

end TxCore

namespace TxTables

theorem owned_drain {w : TxTables} (h : w.tx.core.Owned w.slots) (sampleRate : BitVec 32)
    (now : Option Clock) :
    (w.drain sampleRate now).tx.core.Owned (w.drain sampleRate now).slots := by
  obtain ⟨owner, hslot, hqueue, hflow⟩ := h
  unfold TxTables.drain
  cases hcs : w.tx.commands with
  | nil => exact ⟨owner, hslot, hqueue, hflow⟩
  | cons c cs =>
      have hqueue' : ∀ c' ∈ c :: cs, ∀ i f, c'.added = some (i, f) →
          f < w.tx.nextFlag ∧ owner f = i := hcs ▸ hqueue
      cases hrun : handleCommand sampleRate now w.slots w.tx.flags c with
      | none =>
          simp only [hrun]
          exact ⟨owner, hslot, hqueue, hflow⟩
      | some r =>
          obtain ⟨slots', flags'⟩ := r
          obtain ⟨hslots, _⟩ := handleCommand_flags hrun
          simp only [hrun]
          refine ⟨owner, fun i f hf => ?_, fun c' hc' => hqueue' c' (List.mem_cons_of_mem c hc'),
            hflow⟩
          rw [hslots] at hf
          cases c with
          | addFlow index socket chs fpp bytesPerSample needsKeepalives flag =>
              rw [flagsAfter] at hf
              by_cases hne : i = index
              · rw [hne, Function.update_self] at hf
                cases hf
                exact hqueue' _ List.mem_cons_self i f (by rw [hne]; rfl)
              · rw [Function.update_of_ne hne] at hf
                exact hslot i f hf
          | removeFlow index =>
              rw [flagsAfter] at hf
              by_cases hne : i = index
              · rw [hne, Function.update_self] at hf
                cases hf
              · rw [Function.update_of_ne hne] at hf
                exact hslot i f hf
          | _ => exact hslot i f hf

open FlowsTransmitter in
theorem owned_act {w : TxTables} (ht : w.tx.Together w.slots) (h : w.tx.core.Owned w.slots)
    (sampleRate : BitVec 32) (e : TxTurnEvent) :
    (w.act sampleRate e).tx.core.Owned (w.act sampleRate e).slots := by
  cases e with
  | tables e =>
      cases e with
      | call c =>
          obtain ⟨ms, _, _, hmoves⟩ := call_moves ht c
          show (c.leaves w.tx).core.Owned w.slots
          rw [hmoves]
          exact h.moves ms
      | drain now =>
          simp only [TxTables.act, TxTables.step]
          split
          · exact h
          · exact owned_drain h sampleRate now
      | expire slot =>
          simp only [TxTables.act, TxTables.step, TxTables.expire]
          split
          · exact h
          · split
            · exact h.congr rfl rfl rfl rfl
            · exact h
  | turn slot t =>
      rw [TxTables.act]
      split
      · exact h
      · obtain ⟨hf, _, _, hc, hn, _, hs, _, _⟩ := turn_keeps w slot t
        exact h.congr hs hf hc hn

theorem start_owned (flags : Flag → Bool) :
    (start flags).tx.core.Owned (start flags).slots := by
  refine ⟨fun _ => 0, fun i f hf => ?_, fun c hc => ?_, fun i flow hi => ?_⟩
  · have hnone : slotFlag (start flags).slots i = none :=
      (FlowsTransmitter.start_lanes flags).drained rfl i
    rw [hnone] at hf
    cases hf
  · cases hc
  · cases hi

end TxTables

end Inferno
