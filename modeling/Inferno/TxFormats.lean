import Inferno.TxTurns

/-!
# The format that was asked for

What the thread's flow at an index sends where, and in which format
(`FlowGrant`). The control side knows of each live flow where it sends to; its
format is told to the thread once, with the command that adds it. A request for
a destination that has a flow only changes the channels, so that the flow has
the requested format if and only if it had it before (`granted_format_iff`).
-/

namespace Inferno

/-- Where a flow sends to, and what. -/
structure FlowGrant where
  dst : SocketAddr
  channels : List (Option Nat)
  format : FlowFormat
deriving DecidableEq

def Flow.grant (flow : Flow) : FlowGrant := ⟨flow.socket, flow.channelIndices, flow.format⟩

/-- The flow in a slot of the thread's table. -/
def slotGrant (slots : List (Option Flow)) (index : Nat) : Option FlowGrant :=
  slots[index]?.join.map Flow.grant

/-- What a command does to them. -/
def grantsAfter (p : Nat → Option FlowGrant) : TxCommand → Nat → Option FlowGrant
  | .addFlow index socket channelIndices fpp bytesPerSample _ _ =>
      Function.update p index (some ⟨socket, channelIndices, ⟨fpp, bytesPerSample⟩⟩)
  | .removeFlow index => Function.update p index none
  | .setChannels index channelIndices =>
      Function.update p index ((p index).map fun g => { g with channels := channelIndices })
  | _ => p

theorem slotGrant_set {slots : List (Option Flow)} {index : Nat} (hlt : index < slots.length)
    (o : Option Flow) :
    slotGrant (slots.set index o) = Function.update (slotGrant slots) index (o.map Flow.grant) := by
  funext i
  unfold slotGrant
  by_cases hne : i = index
  · rw [hne, List.getElem?_set_self hlt, Function.update_self]
    rfl
  · rw [List.getElem?_set_ne (Ne.symm hne), Function.update_of_ne hne]

/-! ## The thread -/

theorem newFlow_grant {sampleRate : BitVec 32} {now : Option Clock} {socket : SocketAddr}
    {chs : List (Option Nat)} {fpp bytesPerSample : Nat} {needsKeepalives : Bool} {flag : Flag}
    {flow : Flow}
    (h : newFlow sampleRate now socket chs fpp bytesPerSample needsKeepalives flag = some flow) :
    flow.grant = ⟨socket, chs, ⟨fpp, bytesPerSample⟩⟩ := by
  unfold newFlow at h
  cases now with
  | none =>
      cases h
      rfl
  | some now =>
      obtain ⟨flow₁, hboot, hend⟩ := Option.bind_eq_some_iff.mp h
      obtain ⟨ts, rfl⟩ := bootstrapNextTs_eq hboot
      split at hend <;> cases hend <;> rfl

theorem changeChannels_grant {sampleRate : BitVec 32} {now : Option Clock} {expired : Bool}
    {chs : List (Option Nat)} {flow flow' : Flow}
    (h : changeChannels sampleRate now expired chs flow = some flow') :
    flow'.grant = { flow.grant with channels := chs } := by
  unfold changeChannels at h
  cases now with
  | none =>
      cases h
      rfl
  | some now =>
      dsimp only at h
      split at h
      · obtain ⟨ts, rfl⟩ := bootstrapNextTs_eq h
        rfl
      · cases h
        rfl

theorem handleCommand_grants {sampleRate : BitVec 32} {now : Option Clock}
    {slots slots' : List (Option Flow)} {flags flags' : Flag → Bool} {c : TxCommand}
    (h : handleCommand sampleRate now slots flags c = some (slots', flags')) :
    slotGrant slots' = grantsAfter (slotGrant slots) c := by
  cases c with
  | noOp =>
      cases h
      rfl
  | shutdown =>
      cases h
      rfl
  | addFlow index socket chs fpp bytesPerSample needsKeepalives flag =>
      obtain ⟨flow, hnew, hset⟩ := Option.bind_eq_some_iff.mp h
      split at hset
      · next hlt =>
          cases hset
          rw [slotGrant_set hlt, Option.map_some, newFlow_grant hnew]
          rfl
      · cases hset
  | removeFlow index =>
      rw [handleCommand] at h
      split at h
      · next hlt =>
          cases h
          rw [slotGrant_set hlt]
          rfl
      · cases h
  | setChannels index chs =>
      rw [handleCommand] at h
      split at h
      · next flow hget =>
          obtain ⟨flow', hchange, hset⟩ := Option.bind_eq_some_iff.mp h
          cases hset
          have hslot : slotGrant slots index = some flow.grant := by
            rw [slotGrant, hget]
            rfl
          rw [slotGrant_set (List.getElem?_eq_some_iff.mp hget).1, grantsAfter, hslot,
            Option.map_some, changeChannels_grant hchange]
          rfl
      · cases h

namespace TxTables

/-- The grants once the thread has taken every command that waits. -/
def grants (w : TxTables) : Nat → Option FlowGrant :=
  Outbox.drained grantsAfter (slotGrant w.slots) w.tx.commands

theorem turn_grants (w : TxTables) (slot : Nat) (t : TxTurn) :
    (w.turn slot t).grants = w.grants := by
  unfold TxTables.turn
  cases hslot : w.slots[slot]? with
  | none => rfl
  | some o =>
      cases o with
      | none => rfl
      | some flow =>
          dsimp only
          cases hrun : t.run w.tx.flags flow with
          | none => rfl
          | some r =>
              obtain ⟨flow', st, fin⟩ := r
              obtain ⟨ts, expires, rfl⟩ := transmitFlow_line hrun
              have hgrant : slotGrant w.slots slot = some flow.grant := by
                rw [slotGrant, hslot]
                rfl
              rw [grants, slotGrant_set (List.getElem?_eq_some_iff.mp hslot).1]
              show Outbox.drained grantsAfter (Function.update _ slot (some flow.grant)) _ = _
              rw [← hgrant, Function.update_eq_self]
              rfl

/-- A thread that goes on taking commands gets to the same grants. -/
theorem drain_grants {w : TxTables} {sampleRate : BitVec 32} {now : Option Clock}
    (hopen : (w.drain sampleRate now).tx.receiverGone = false) :
    (w.drain sampleRate now).grants = w.grants := by
  unfold TxTables.drain at hopen ⊢
  cases hcs : w.tx.commands with
  | nil => rfl
  | cons c cs =>
      rw [hcs] at hopen
      cases hrun : handleCommand sampleRate now w.slots w.tx.flags c with
      | none =>
          simp only [hrun] at hopen
          cases hopen
      | some r =>
          simp only [hrun]
          rw [grants, grants, hcs, Outbox.drained_cons, ← handleCommand_grants hrun]

theorem drain_control (w : TxTables) (sampleRate : BitVec 32) (now : Option Clock) :
    (w.drain sampleRate now).tx.flows = w.tx.flows ∧
      (w.tx.receiverGone = true → (w.drain sampleRate now).tx.receiverGone = true) := by
  unfold TxTables.drain
  split
  · exact ⟨rfl, id⟩
  · split
    · exact ⟨rfl, id⟩
    · exact ⟨rfl, fun _ => rfl⟩

end TxTables

/-! ## Destinations -/

/-- The thread will know every live flow, with its destination. -/
def TxCore.Addressed (slots : List (Option Flow)) (k : TxCore) : Prop :=
  k.receiverGone = false → ∀ id flow, k.flows id = some flow →
    ∃ g, Outbox.drained grantsAfter (slotGrant slots) k.commands id = some g ∧ g.dst = flow.remote

namespace TxCore

variable {slots : List (Option Flow)} {k : TxCore}

theorem Addressed.apply (h : k.Addressed slots) {m : TxMove} (hlegal : m.Legal k) :
    (m.apply k).Addressed slots := by
  cases m with
  | remove id₀ =>
      intro hopen id flow hflow
      have hopen' : k.receiverGone = false := hopen
      simp only [TxMove.apply, hopen', Bool.false_eq_true, if_false] at hflow ⊢
      rw [Outbox.drained_snoc]
      by_cases hne : id = id₀
      · rw [hne, Function.update_self] at hflow
        cases hflow
      · rw [Function.update_of_ne hne] at hflow
        rw [grantsAfter, Function.update_of_ne hne]
        exact h hopen' id flow hflow
  | tell id₀ chs =>
      intro hopen id flow hflow
      obtain ⟨g, hg, hdst⟩ := h hopen id flow hflow
      simp only [TxMove.apply]
      rw [Outbox.drained_snoc, grantsAfter]
      by_cases hne : id = id₀
      · rw [← hne, Function.update_self, hg]
        exact ⟨_, rfl, hdst⟩
      · rw [Function.update_of_ne hne]
        exact ⟨g, hg, hdst⟩
  | insert id₀ cookie dst chs fpp bytesPerSample isMulticast =>
      intro hopen id flow hflow
      simp only [TxMove.apply] at hflow ⊢
      rw [Outbox.drained_snoc, grantsAfter]
      by_cases hne : id = id₀
      · rw [hne, Function.update_self] at hflow ⊢
        cases hflow
        exact ⟨_, rfl, rfl⟩
      · rw [Function.update_of_ne hne] at hflow ⊢
        exact h hlegal.1 id flow hflow
  | activate id₀ =>
      simp only [TxMove.apply]
      split <;> exact h

theorem Addressed.moves (h : k.Addressed slots) {ms : List TxMove} (hlegal : k.LegalMoves ms) :
    (k.moves ms).Addressed slots := by
  induction ms generalizing k with
  | nil => exact h
  | cons m ms ih => exact ih (h.apply hlegal.1) hlegal.2

end TxCore

namespace TxTables

open FlowsTransmitter in
theorem addressed_act {w : TxTables} (ht : w.tx.Together w.slots)
    (h : w.tx.core.Addressed w.slots) (sampleRate : BitVec 32) (e : TxTurnEvent) :
    (w.act sampleRate e).tx.core.Addressed (w.act sampleRate e).slots := by
  cases e with
  | tables e =>
      cases e with
      | call c =>
          obtain ⟨ms, _, hlegal, hmoves⟩ := call_moves ht c
          show (c.leaves w.tx).core.Addressed w.slots
          rw [hmoves]
          exact h.moves hlegal
      | drain now =>
          simp only [TxTables.act, TxTables.step]
          split
          · exact h
          · next hgone =>
              intro hopen id flow hflow
              obtain ⟨hf, _⟩ := w.drain_control sampleRate now
              have hgrants := drain_grants hopen
              rw [grants] at hgrants
              simp only [FlowsTransmitter.core] at hflow ⊢
              rw [hf] at hflow
              rw [hgrants]
              exact h (Bool.eq_false_iff.mpr hgone) id flow hflow
      | expire slot =>
          simp only [TxTables.act, TxTables.step, TxTables.expire]
          split
          · exact h
          · split <;> exact h
  | turn slot t =>
      rw [TxTables.act]
      split
      · exact h
      · intro hopen id flow hflow
        obtain ⟨hf, _, _, _, _, hg, _⟩ := turn_keeps w slot t
        have hgrants := w.turn_grants slot t
        rw [grants] at hgrants
        simp only [FlowsTransmitter.core] at hflow ⊢
        rw [hf] at hflow
        rw [hgrants]
        exact h (hg hopen) id flow hflow

/-- Events in a row, turns included. -/
def acts (sampleRate : BitVec 32) (w : TxTables) (events : List TxTurnEvent) : TxTables :=
  events.foldl (act sampleRate) w

theorem addressed_acts {w : TxTables} (ht : w.tx.Together w.slots)
    (h : w.tx.core.Addressed w.slots) (sampleRate : BitVec 32) (events : List TxTurnEvent) :
    (w.acts sampleRate events).tx.Together (w.acts sampleRate events).slots ∧
      (w.acts sampleRate events).tx.core.Addressed (w.acts sampleRate events).slots := by
  induction events generalizing w with
  | nil => exact ⟨ht, h⟩
  | cons e events ih => exact ih (together_act ht sampleRate e) (addressed_act ht h sampleRate e)

/-! ## While the queue is drained -/

/-- The thread is at work, nobody calls. -/
def NoCall : TxTurnEvent → Prop
  | .tables (.call _) => False
  | _ => True

theorem act_grants {w : TxTables} {sampleRate : BitVec 32} {e : TxTurnEvent} (he : NoCall e)
    (hopen : (w.act sampleRate e).tx.receiverGone = false) :
    (w.act sampleRate e).grants = w.grants ∧ w.tx.receiverGone = false := by
  cases e with
  | tables e =>
      cases e with
      | call c => cases he
      | drain now =>
          simp only [TxTables.act, TxTables.step] at hopen ⊢
          split
          · next hgone =>
              rw [if_pos hgone] at hopen
              exact ⟨rfl, hopen⟩
          · next hgone =>
              rw [if_neg hgone] at hopen
              exact ⟨drain_grants hopen, Bool.eq_false_iff.mpr hgone⟩
      | expire slot =>
          simp only [TxTables.act, TxTables.step, TxTables.expire] at hopen ⊢
          split
          · next hgone =>
              rw [if_pos hgone] at hopen
              exact ⟨rfl, hopen⟩
          · next hgone =>
              refine ⟨?_, Bool.eq_false_iff.mpr hgone⟩
              split <;> rfl
  | turn slot t =>
      rw [TxTables.act] at hopen ⊢
      split
      · next hgone =>
          rw [if_pos hgone] at hopen
          exact ⟨rfl, hopen⟩
      · next hgone => exact ⟨w.turn_grants slot t, Bool.eq_false_iff.mpr hgone⟩

theorem acts_grants {w : TxTables} {sampleRate : BitVec 32} {events : List TxTurnEvent}
    (hevents : ∀ e ∈ events, NoCall e)
    (hopen : (w.acts sampleRate events).tx.receiverGone = false) :
    (w.acts sampleRate events).grants = w.grants ∧ w.tx.receiverGone = false := by
  induction events generalizing w with
  | nil => exact ⟨rfl, hopen⟩
  | cons e events ih =>
      obtain ⟨hrest, hopen₁⟩ := ih (fun e he => hevents e (List.mem_cons_of_mem _ he)) hopen
      obtain ⟨hstep, hopen₀⟩ := act_grants (hevents e List.mem_cons_self) hopen₁
      exact ⟨hrest.trans hstep, hopen₀⟩

end TxTables

/-! ## A granted flow -/

namespace TxTables

/-- The flow in a slot sends to the destination of a request, in its format. -/
def Sends (w : TxTables) (slot : Nat) (info : FlowInfo) (fpp bytesPerSample : Nat) : Prop :=
  ∃ flow, w.slots[slot]? = some (some flow) ∧ flow.socket = info.dst ∧
    flow.channelIndices = info.localChannelIndices ∧ flow.fpp = fpp ∧
    flow.bytesPerSample = bytesPerSample

theorem sends_iff (w : TxTables) (slot : Nat) (info : FlowInfo) (fpp bytesPerSample : Nat) :
    w.Sends slot info fpp bytesPerSample ↔ slotGrant w.slots slot =
      some ⟨info.dst, info.localChannelIndices, ⟨fpp, bytesPerSample⟩⟩ := by
  unfold Sends slotGrant
  rcases w.slots[slot]? with _ | _ | flow
  · simp
  · simp
  · simp [Flow.grant, Flow.format]

open FlowsTransmitter in
/-- Whatever happened before and however the thread gets to the end of its
queue: a granted flow sends to the destination of the request and the channels
of the request, and in its format if and only if the destination had no flow or
one of that very format. -/
theorem granted_format_iff (sampleRate : BitVec 32) (flags : Flag → Bool)
    (events : List TxTurnEvent) (w : TxTables) (hw : w = acts sampleRate (start flags) events)
    (info : FlowInfo) (fpp bytesPerSample : Nat) (requested : Option Nat) (isMulticast : Bool)
    (env : AddFlowEnv) (tx' : FlowsTransmitter) (id : Nat) (handle : FlowHandle)
    (hrun : w.tx.addFlow info fpp bytesPerSample requested isMulticast env =
      some (tx', .ok (id, handle)))
    (later : List TxTurnEvent) (hlater : ∀ e ∈ later, NoCall e) (w' : TxTables)
    (hw' : w' = acts sampleRate { w with tx := tx' } later)
    (hopen : w'.tx.receiverGone = false) (hdrained : w'.tx.commands = []) :
    (w'.Sends id info fpp bytesPerSample ↔
      w.tx.ipPortToId info.dst = none ∨
        (w.grants id).map FlowGrant.format = some ⟨fpp, bytesPerSample⟩) ∧
    ∃ f : FlowFormat, w'.Sends id info f.fpp f.bytesPerSample := by
  obtain ⟨ht, haddressed⟩ := addressed_acts (w := start flags) (start_together flags)
    (fun _ _ _ hflow => by cases hflow) sampleRate events
  rw [← hw] at ht haddressed
  rw [hw'] at hopen
  obtain ⟨hgrants, hopen'⟩ := acts_grants hlater hopen
  -- the queue is empty: the slots hold what was on its way to them
  have hslot : slotGrant w'.slots id =
      Outbox.drained grantsAfter (slotGrant w.slots) tx'.commands id := by
    rw [← hw', grants, hdrained, Outbox.drained_nil] at hgrants
    exact congrFun hgrants id
  simp only [sends_iff, hslot]
  rcases addFlow_granted ht.tables hrun with
    ⟨hip, hopen₀, _, htx'⟩ | ⟨hip, _, tx₀, _, _, _, htx', _, _, hc⟩
  · obtain ⟨flow, hflow, hremote⟩ := ht.tables.addr _ _ hip
    obtain ⟨g, hg, hdst⟩ := haddressed hopen₀ id flow hflow
    have hgrant : w.grants id = some g := hg
    rw [htx', saveState_commands, Outbox.drained_snoc, grantsAfter, Function.update_self]
    show (Option.map _ (w.grants id) = _ ↔ _) ∧ ∃ f : FlowFormat, Option.map _ (w.grants id) = _
    rw [hgrant, hip]
    refine ⟨?_, g.format, ?_⟩
    · simp [hdst, hremote]
    · rw [Option.map_some, hdst, hremote]
  · rw [htx', saveState_commands, hc, Outbox.drained_snoc, grantsAfter, Function.update_self]
    exact ⟨⟨fun _ => Or.inl hip, fun _ => rfl⟩, ⟨fpp, bytesPerSample⟩, rfl⟩

def sampleGrantInfo : FlowInfo := ⟨some "rx", some "1", 0, 4321, [some 0]⟩

/-- A receiver has a flow of 16 samples of 24 bits for its address. -/
def sampleGranted : TxTables :=
  acts 48000 (start fun _ => false)
    [.tables (.call (.addFlow sampleGrantInfo 16 3 none false ⟨7, true⟩)),
      .tables (.drain (some 1000))]

def sampleDrained (tx' : FlowsTransmitter) : TxTables :=
  acts 48000 { sampleGranted with tx := tx' } [.tables (.drain (some 2000))]

theorem granted_format_iff_sampleGranted : ∃ tx' id handle,
    sampleGranted.tx.addFlow sampleGrantInfo 16 3 none false ⟨8, true⟩ =
      some (tx', .ok (id, handle)) ∧ (sampleDrained tx').Sends id sampleGrantInfo 16 3 := by
  refine ⟨_, _, _, rfl, ?_⟩
  have h := granted_format_iff 48000 (fun _ => false) _ sampleGranted rfl sampleGrantInfo 16 3 none
    false ⟨8, true⟩ _ _ _ rfl [.tables (.drain (some 2000))] (by simp [NoCall]) _ rfl rfl rfl
  exact h.1.mpr (Or.inr rfl)

/-- It asks again for its address, with 32 samples of 32 bits: it is granted
the flow it had. -/
theorem reuse_keeps_format : ∃ tx' id handle,
    sampleGranted.tx.addFlow sampleGrantInfo 32 4 none false ⟨8, true⟩ =
      some (tx', .ok (id, handle)) ∧
    (sampleDrained tx').tx.commands = [] ∧ (sampleDrained tx').tx.receiverGone = false ∧
    ¬(sampleDrained tx').Sends id sampleGrantInfo 32 4 ∧
    (sampleDrained tx').Sends id sampleGrantInfo 16 3 := by
  refine ⟨_, _, _, rfl, rfl, rfl, ?_, ?_⟩
  · rw [sends_iff]
    decide
  · rw [sends_iff]
    decide

end TxTables

end Inferno
