import Inferno.TxTurns
import Inferno.Lib.Runs

/-!
# The grace period

A multicast flow is added with its `expired` flag set, which keeps it silent
until `activate_multicast_flow` clears it. The thread clears the flag of a flow
as well when it takes `SetChannels`, which is how an expired flow comes back, and
a call sends that for whatever flow has the destination or the handle it names.

In a run whose calls meet no flow in its grace period (`LeavesWaiting`), each
such flow is silent (`grace_period`).
-/

namespace Inferno

/-- Both sides of the transmitter, and which flags are those of flows that were
added as multicast and have not been activated yet. -/
structure GraceWorld where
  tables : TxTables
  waiting : Flag → Bool

/-- A flow that is added has the next flag. -/
def waitingAfter (tx : FlowsTransmitter) (waiting : Flag → Bool) : TxCall → Flag → Bool
  | .addFlow _ _ _ _ isMulticast _ => Function.update waiting tx.nextFlag isMulticast
  | .activateMulticastFlow flowIndex =>
      match tx.flows flowIndex with
      | some flow => Function.update waiting flow.expired false
      | none => waiting
  | _ => waiting

namespace GraceWorld

def start (flags : Flag → Bool) : GraceWorld where
  tables := .start flags
  waiting := fun _ => false

def act (sampleRate : BitVec 32) (w : GraceWorld) (e : TxTurnEvent) : GraceWorld where
  tables := w.tables.act sampleRate e
  waiting :=
    match e with
    | .tables (.call c) => waitingAfter w.tables.tx w.waiting c
    | _ => w.waiting

def run (sampleRate : BitVec 32) (w : GraceWorld) (events : List TxTurnEvent) : GraceWorld :=
  events.foldl (act sampleRate) w

/-- Whatever turn the thread takes, a flow in its grace period sends nothing. -/
def Quiet (w : GraceWorld) : Prop :=
  ∀ (slot : Nat) (flow : Flow), w.tables.slots[slot]? = some (some flow) →
    w.waiting flow.expired = true → ∀ t : TxTurn, t.packets w.tables.tx.flags flow = some []

/-- A call that names no flow in its grace period, by its destination or its
handle, to set channels. -/
def LeavesWaiting (w : GraceWorld) : TxTurnEvent → Prop
  | .tables (.call (.addFlow info _ _ _ _ _)) => ∀ (id : Nat) (flow : FlowData),
      w.tables.tx.ipPortToId info.dst = some id → w.tables.tx.flows id = some flow →
        w.waiting flow.expired = false
  | .tables (.call (.setChannels handle _)) => ∀ (id : Nat) (flow : FlowData),
      w.tables.tx.getFlow handle = some (id, flow) → w.waiting flow.expired = false
  | _ => True

instance (w : GraceWorld) (e : TxTurnEvent) : Decidable (w.LeavesWaiting e) :=
  match e with
  | .tables (.call (.addFlow info _ _ _ _ _)) =>
      decidable_of_iff (∀ id ∈ w.tables.tx.ipPortToId info.dst, ∀ flow ∈ w.tables.tx.flows id,
          w.waiting flow.expired = false)
        ⟨fun h id flow hip hflow => h id hip flow hflow,
          fun h id hip flow hflow => h id flow hip hflow⟩
  | .tables (.call (.setChannels handle _)) =>
      decidable_of_iff (∀ r ∈ w.tables.tx.getFlow handle, w.waiting r.2.expired = false)
        ⟨fun h id flow hget => h (id, flow) hget, fun h r hget => h r.1 r.2 hget⟩
  | .tables (.call (.removeFlow _)) => .isTrue trivial
  | .tables (.call (.removeMulticastFlow _)) => .isTrue trivial
  | .tables (.call (.activateMulticastFlow _)) => .isTrue trivial
  | .tables (.drain _) => .isTrue trivial
  | .tables (.expire _) => .isTrue trivial
  | .turn _ _ => .isTrue trivial

end GraceWorld

/-! ## What is on its way to the thread -/

/-- A command that wakes no waiting flow. -/
def LetsSleep (n : Flag) (waiting : Flag → Bool) (p : Nat → Option Flag) : TxCommand → Prop
  | .setChannels index _ => ∃ f, p index = some f ∧ f < n ∧ waiting f = false
  | _ => True

theorem LetsSleep.later {n n' : Flag} {waiting waiting' : Flag → Bool} (hn : n ≤ n')
    (hw : ∀ f < n, waiting f = false → waiting' f = false) (p : Nat → Option Flag) (c : TxCommand)
    (h : LetsSleep n waiting p c) : LetsSleep n' waiting' p c := by
  cases c with
  | setChannels index chs =>
      obtain ⟨f, hp, hlt, hf⟩ := h
      exact ⟨f, hp, Nat.lt_of_lt_of_le hlt hn, hw f hlt hf⟩
  | _ => trivial

/-- The flags of waiting flows are set and stay so. -/
structure TxCore.Grace (waiting : Flag → Bool) (slots : List (Option Flow)) (k : TxCore) : Prop where
  owned : k.Owned slots
  silent : ∀ f < k.nextFlag, waiting f = true → k.flags f = true
  queue : k.receiverGone = false →
    Outbox.Accepted flagsAfter (LetsSleep k.nextFlag waiting) (slotFlag slots) k.commands
  drained : k.receiverGone = false → ∀ id,
    Outbox.drained flagsAfter (slotFlag slots) k.commands id = (k.flows id).map FlowData.expired

namespace TxCore

variable {waiting : Flag → Bool} {slots : List (Option Flow)} {k : TxCore}

theorem Owned.flow_lt (h : k.Owned slots) {id : Nat} {flow : FlowData}
    (hid : k.flows id = some flow) : flow.expired < k.nextFlag := by
  obtain ⟨owner, _, _, hflow⟩ := h
  exact (hflow id flow hid).1

theorem Owned.slot_lt (h : k.Owned slots) {i : Nat} {f : Flag} (hi : slotFlag slots i = some f) :
    f < k.nextFlag := by
  obtain ⟨owner, hslot, _, _⟩ := h
  exact (hslot i f hi).1

/-- Fewer flows wait. -/
theorem Grace.fewer {waiting' : Flag → Bool} (h : k.Grace waiting slots)
    (hw : ∀ f < k.nextFlag, waiting' f = true → waiting f = true) : k.Grace waiting' slots := by
  refine ⟨h.owned, fun f hlt hf => h.silent f hlt (hw f hlt hf), fun hopen => ?_, h.drained⟩
  refine (h.queue hopen).mono (LetsSleep.later (Nat.le_refl _) fun f hlt hf => ?_)
  cases hf' : waiting' f with
  | false => rfl
  | true =>
      rw [hw f hlt hf'] at hf
      cases hf

theorem Grace.remove (h : k.Grace waiting slots) (id : Nat) :
    ((TxMove.remove id).apply k).Grace waiting slots := by
  refine ⟨h.owned.apply _, h.silent, fun hopen => ?_, fun hopen id' => ?_⟩
  · have hopen' : k.receiverGone = false := hopen
    simp only [TxMove.apply, hopen', Bool.false_eq_true, if_false]
    exact (h.queue hopen').snoc trivial
  · have hopen' : k.receiverGone = false := hopen
    simp only [TxMove.apply, hopen', Bool.false_eq_true, if_false]
    rw [Outbox.drained_snoc, flagsAfter]
    by_cases hne : id' = id
    · rw [hne, Function.update_self, Function.update_self]
      rfl
    · rw [Function.update_of_ne hne, Function.update_of_ne hne]
      exact h.drained hopen' id'

theorem Grace.removes (h : k.Grace waiting slots) {ids : List Nat}
    (hlegal : k.LegalMoves (ids.map TxMove.remove)) :
    (k.moves (ids.map TxMove.remove)).Grace waiting slots ∧
      (k.moves (ids.map TxMove.remove)).nextFlag = k.nextFlag := by
  refine @LegalMoves.removes (fun k' => k'.Grace waiting slots ∧ k'.nextFlag = k.nextFlag)
    (fun k' id hk' _ => ⟨hk'.1.remove id, hk'.2⟩) k ids hlegal ⟨h, rfl⟩

theorem Grace.tell (h : k.Grace waiting slots) {id : Nat} (chs : List (Option Nat))
    {flow : FlowData} (hid : k.flows id = some flow) (hw : waiting flow.expired = false) :
    ((TxMove.tell id chs).apply k).Grace waiting slots := by
  refine ⟨h.owned.apply _, h.silent, fun hopen => ?_, fun hopen id' => ?_⟩
  · refine (h.queue hopen).snoc ⟨flow.expired, ?_, h.owned.flow_lt hid, hw⟩
    rw [h.drained hopen, hid]
    rfl
  · show Outbox.drained flagsAfter (slotFlag slots) (k.commands ++ [_]) id' = _
    rw [Outbox.drained_snoc]
    exact h.drained hopen id'

theorem Grace.insert (h : k.Grace waiting slots) (id : Nat) (cookie : BitVec 16) (dst : SocketAddr)
    (chs : List (Option Nat)) (fpp bytesPerSample : Nat) {isMulticast : Bool}
    (hw : waiting k.nextFlag = isMulticast) :
    ((TxMove.insert id cookie dst chs fpp bytesPerSample isMulticast).apply k).Grace waiting
      slots := by
  refine ⟨h.owned.apply _, fun f hlt hf => ?_, fun hopen => ?_, fun hopen id' => ?_⟩
  · simp only [TxMove.apply]
    rcases Nat.lt_succ_iff_lt_or_eq.mp hlt with hlt | rfl
    · rw [Function.update_of_ne (Nat.ne_of_lt hlt)]
      exact h.silent f hlt hf
    · rw [Function.update_self, ← hw]
      exact hf
  · exact ((h.queue hopen).mono (LetsSleep.later (Nat.le_succ _) fun _ _ hf => hf)).snoc trivial
  · have hdrained := h.drained hopen id'
    simp only [TxMove.apply]
    rw [Outbox.drained_snoc, flagsAfter]
    by_cases hne : id' = id
    · rw [hne, Function.update_self, Function.update_self]
      rfl
    · rw [Function.update_of_ne hne, Function.update_of_ne hne]
      exact hdrained

theorem Grace.activate (h : k.Grace waiting slots) {id : Nat}
    (hw : ∀ flow, k.flows id = some flow → waiting flow.expired = false) :
    ((TxMove.activate id).apply k).Grace waiting slots := by
  simp only [TxMove.apply]
  split
  · next flow hflow =>
      refine ⟨h.owned.congr rfl rfl rfl rfl, fun f hlt hf => ?_, h.queue, h.drained⟩
      have hne : f ≠ flow.expired := by
        rintro rfl
        rw [hw flow hflow] at hf
        cases hf
      exact (Function.update_of_ne hne _ _).trans (h.silent f hlt hf)
  · exact h

end TxCore

namespace GraceWorld

open FlowsTransmitter TxCore

/-- A call that leaves waiting flows alone. -/
theorem grace_call {w : GraceWorld} (ht : w.tables.tx.Together w.tables.slots)
    (h : w.tables.tx.core.Grace w.waiting w.tables.slots) {c : TxCall}
    (hok : w.LeavesWaiting (.tables (.call c))) :
    (c.leaves w.tables.tx).core.Grace (waitingAfter w.tables.tx w.waiting c) w.tables.slots := by
  obtain ⟨ms, hof, hlegal, hmoves⟩ := call_moves ht c
  rw [hmoves]
  cases c with
  | addFlow info fpp bytesPerSample requested isMulticast env =>
      have h₁ : w.tables.tx.core.Grace (Function.update w.waiting w.tables.tx.nextFlag isMulticast)
          w.tables.slots := by
        refine h.fewer fun f hlt hf => ?_
        have hne : f ≠ w.tables.tx.nextFlag := Nat.ne_of_lt hlt
        rwa [Function.update_of_ne hne] at hf
      unfold MovesOf at hof
      dsimp only at hof
      rw [waitingAfter]
      split at hof
      · next id hip =>
          obtain ⟨flow, hflow, _⟩ := ht.tables.addr _ _ hip
          rcases hof with rfl | rfl
          · exact h₁
          · refine h₁.tell info.localChannelIndices hflow ?_
            have hne : flow.expired ≠ w.tables.tx.nextFlag := Nat.ne_of_lt (h.owned.flow_lt hflow)
            rw [Function.update_of_ne hne]
            exact hok id flow hip hflow
      · obtain ⟨ids, added, rfl, _, hadded⟩ := hof
        obtain ⟨hremoves, _⟩ := hlegal.of_append
        obtain ⟨h₂, hn⟩ := h₁.removes hremoves
        rw [TxCore.moves_append]
        rcases hadded with rfl | ⟨id, rfl⟩
        · exact h₂
        · refine h₂.insert id env.cookie info.dst info.localChannelIndices fpp bytesPerSample ?_
          rw [hn]
          exact Function.update_self _ _ _
  | removeFlow handle =>
      rcases hof with rfl | ⟨id, _, _, rfl⟩
      · exact h
      · exact h.remove id
  | removeMulticastFlow index =>
      rcases hof with rfl | rfl
      · exact h
      · exact h.remove index
  | setChannels handle chs =>
      rcases hof with rfl | ⟨id, flow, hget, rfl⟩
      · exact h
      · exact h.tell chs (getFlow_flows hget) (hok id flow hget)
  | activateMulticastFlow flowIndex =>
      cases hof
      have h₁ : w.tables.tx.core.Grace (waitingAfter w.tables.tx w.waiting
          (.activateMulticastFlow flowIndex)) w.tables.slots := by
        refine h.fewer fun f _ hf => ?_
        cases hflow : w.tables.tx.flows flowIndex with
        | none => simpa only [waitingAfter, hflow] using hf
        | some flow =>
            simp only [waitingAfter, hflow] at hf
            by_cases hne : f = flow.expired
            · rw [hne, Function.update_self] at hf
              cases hf
            · rwa [Function.update_of_ne hne] at hf
      refine h₁.activate fun flow hflow => ?_
      have hflow' : w.tables.tx.flows flowIndex = some flow := hflow
      simp only [waitingAfter, hflow', Function.update_self]

theorem grace_drain {waiting : Flag → Bool} {w : TxTables}
    (h : w.tx.core.Grace waiting w.slots) (hopen : w.tx.receiverGone = false)
    (sampleRate : BitVec 32) (now : Option Clock) :
    (w.drain sampleRate now).tx.core.Grace waiting (w.drain sampleRate now).slots := by
  have howned := TxTables.owned_drain h.owned sampleRate now
  have hq : Outbox.Accepted flagsAfter (LetsSleep w.tx.nextFlag waiting) (slotFlag w.slots)
      w.tx.commands := h.queue hopen
  have hd : ∀ id, Outbox.drained flagsAfter (slotFlag w.slots) w.tx.commands id =
      (w.tx.flows id).map FlowData.expired := h.drained hopen
  unfold TxTables.drain at howned ⊢
  cases hcs : w.tx.commands with
  | nil => exact h
  | cons c cs =>
      rw [hcs] at hq hd
      simp only [hcs] at howned
      cases hrun : handleCommand sampleRate now w.slots w.tx.flags c with
      | none =>
          simp only [hrun]
          exact ⟨h.owned.congr rfl rfl rfl rfl, h.silent, nofun, nofun⟩
      | some r =>
          obtain ⟨slots', flags'⟩ := r
          obtain ⟨hslots, hflags⟩ := handleCommand_flags hrun
          simp only [hrun] at howned ⊢
          refine ⟨howned, fun f hlt hf => ?_, fun _ => ?_, fun _ => ?_⟩
          · have hset := h.silent f hlt hf
            rcases hflags with rfl | ⟨index, chs, f', rfl, hslot, rfl⟩
            · exact hset
            · obtain ⟨f'', hf'', _, hw⟩ := hq.1
              rw [hslot] at hf''
              cases hf''
              have hne : f ≠ f' := by
                rintro rfl
                rw [hf] at hw
                cases hw
              exact (Function.update_of_ne hne _ _).trans hset
          · rw [hslots]
            exact hq.2
          · rw [hslots]
            exact hd

/-- One flag more is set, and nothing else is changed. -/
theorem grace_marked {waiting : Flag → Bool} {slots slots' : List (Option Flow)} {k k' : TxCore}
    (h : k.Grace waiting slots) (hs : slotFlag slots' = slotFlag slots) (hf : k'.flows = k.flows)
    (hc : k'.commands = k.commands) (hn : k'.nextFlag = k.nextFlag)
    (hg : k'.receiverGone = false → k.receiverGone = false)
    (hb : k'.flags = k.flags ∨ ∃ f, k'.flags = Function.update k.flags f true) :
    k'.Grace waiting slots' := by
  refine ⟨h.owned.congr hs hf hc hn, fun f hlt hf => ?_, fun hopen => ?_, fun hopen => ?_⟩
  · rw [hn] at hlt
    have hset := h.silent f hlt hf
    rcases hb with hb | ⟨f', hb⟩
    · rw [hb]
      exact hset
    · rw [hb]
      by_cases hne : f = f'
      · rw [hne]
        exact Function.update_self _ _ _
      · rw [Function.update_of_ne hne]
        exact hset
  · rw [hc, hn, hs]
    exact h.queue (hg hopen)
  · rw [hc, hs, hf]
    exact h.drained (hg hopen)

/-- Both sides agree, and waiting flows are silent. -/
structure Inv (w : GraceWorld) : Prop where
  together : w.tables.tx.Together w.tables.slots
  grace : w.tables.tx.core.Grace w.waiting w.tables.slots

theorem inv_act {w : GraceWorld} (h : w.Inv) (sampleRate : BitVec 32) {e : TxTurnEvent}
    (hok : w.LeavesWaiting e) : (w.act sampleRate e).Inv := by
  refine ⟨TxTables.together_act h.together sampleRate e, ?_⟩
  cases e with
  | tables e =>
      cases e with
      | call c => exact grace_call h.together h.grace hok
      | drain now =>
          simp only [GraceWorld.act, TxTables.act, TxTables.step]
          split
          · exact h.grace
          · next hgone => exact grace_drain h.grace (Bool.eq_false_iff.mpr hgone) sampleRate now
      | expire slot =>
          simp only [GraceWorld.act, TxTables.act, TxTables.step, TxTables.expire]
          split
          · exact h.grace
          · split
            · exact grace_marked h.grace rfl rfl rfl rfl id (Or.inr ⟨_, rfl⟩)
            · exact h.grace
  | turn slot t =>
      simp only [GraceWorld.act, TxTables.act]
      split
      · exact h.grace
      · obtain ⟨hf, _, _, hc, hn, hg, hs, _, hb⟩ := TxTables.turn_keeps w.tables slot t
        exact grace_marked h.grace hs hf hc hn hg (hb.imp_right fun hset => hset.imp fun _ hb => hb.2)

theorem Inv.quiet {w : GraceWorld} (h : w.Inv) : w.Quiet := by
  intro slot flow hslot hw t
  have hflag : slotFlag w.tables.slots slot = some flow.expired := by
    rw [slotFlag, hslot]
    rfl
  have hset : w.tables.tx.flags flow.expired = true :=
    h.grace.silent flow.expired (h.grace.owned.slot_lt hflag) hw
  rw [TxTurn.packets, t.run_expired hset]
  rfl

theorem start_inv (flags : Flag → Bool) : (start flags).Inv := by
  have hlanes := start_lanes flags
  exact ⟨start_together flags, TxTables.start_owned flags, fun f hlt => absurd hlt (Nat.not_lt_zero f),
    fun _ => trivial, hlanes.drained⟩

/-- A flow added as multicast is silent until it is activated, if no call that
sets channels meets it before. -/
theorem grace_period (sampleRate : BitVec 32) (flags : Flag → Bool) (events : List TxTurnEvent)
    (hok : Runs.Each (act sampleRate) LeavesWaiting (start flags) events) :
    (run sampleRate (start flags) events).Quiet :=
  Inv.quiet (@Runs.Each.keeps _ _ _ _ Inv (fun _ _ h hok => inv_act h sampleRate hok) _ _
    (start_inv flags) hok)

/-- A bundle, and a flow of a receiver, which is updated. -/
def sampleGrace : List TxTurnEvent :=
  [.tables (.call (.addFlow ⟨none, none, 0xEFFF0101, 5004, [some 0]⟩ 8 3 (some 9) true ⟨7, true⟩)),
    .tables (.drain (some 0)),
    .tables (.call (.addFlow ⟨some "rx", some "1", 0x0A000002, 5004, [some 0]⟩ 8 3 none false
      ⟨8, true⟩)),
    .tables (.call (.setChannels (makeHandle 0 8) [some 1])),
    .tables (.drain (some 0)), .tables (.drain (some 0))]

/-- The bundle's flow is silent meanwhile. -/
theorem grace_period_sampleGrace : (run 48000 (start fun _ => false) sampleGrace).Quiet :=
  grace_period 48000 _ sampleGrace (by decide)

/-- A receiver asks for a flow to the address of a bundle in its grace period. -/
def sampleWake : List TxTurnEvent :=
  [.tables (.call (.addFlow ⟨none, none, 0xEFFF0101, 5004, [some 0]⟩ 8 3 (some 9) true ⟨7, true⟩)),
    .tables (.drain (some 0)),
    .tables (.call (.addFlow ⟨some "rx", some "1", 0xEFFF0101, 5004, [some 0]⟩ 8 3 none false
      ⟨8, true⟩)),
    .tables (.drain (some 0))]

/-- A turn when the next packet is due. -/
def sampleTurn : TxTurn where
  cfg := ⟨48000, [], 0, 4800, 0⟩
  env := ⟨fun _ => none, fun _ => none, fun _ => none⟩
  now := 8
  processEvents := false
  fuel := 1
  st := .begin (fun _ => false) ⟨fun _ => 0, 0⟩

/-- It wakes the bundle. -/
theorem wake_not_quiet : ¬ (run 48000 (start fun _ => false) sampleWake).Quiet := by
  intro h
  have hpackets : ∃ flow, (run 48000 (start fun _ => false) sampleWake).tables.slots[9]? =
      some (some flow) ∧
        (run 48000 (start fun _ => false) sampleWake).waiting flow.expired = true ∧
        (sampleTurn.packets (run 48000 (start fun _ => false) sampleWake).tables.tx.flags
          flow).map List.length = some 1 :=
    ⟨⟨⟨0xEFFF0101, 5004⟩, [some 0], 8, 8, 3, none, 0⟩, by decide, by decide,
      by decide⟩
  obtain ⟨flow, hslot, hwaiting, hlen⟩ := hpackets
  rw [h 9 flow hslot hwaiting sampleTurn] at hlen
  cases hlen

end GraceWorld

end Inferno
