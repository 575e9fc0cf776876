import Inferno.TxTurns
import Inferno.Lib.Runs

/-!
# Updates on their way

An update of a flow is acknowledged as soon as `SetChannels` is in the queue. If
the flow has expired meanwhile, its flag stays set until the thread takes the
command, and a scan that runs before that removes the flow (`expired_not_kept`).

When no scan finds such a flow (`NoneStale`), every update reaches its flow. What
the thread has taken it transmits, until the next command for the slot or until
the keepalives stop (`Sends`).
-/

namespace Inferno

/-! ## A turn that is due -/

/-- The flow has a packet to send in this turn. -/
def TxTurn.Due (t : TxTurn) (flow : Flow) : Prop :=
  0 < t.fuel ∧ ∃ flow', resync t.cfg t.now flow = some flow' ∧ 0 ≤ wrappedDiff t.now flow'.nextTs

/-- Whenever it has its turn, the flow sends what is due, with these channels. -/
def TransmitsExactly (flags : Flag → Bool) (flow : Flow) (chs : List (Option Nat)) : Prop :=
  ∀ (t : TxTurn) (ps : List TxPacket), t.packets flags flow = some ps →
    (∀ p ∈ ps, p.flow.channelIndices = chs) ∧ (t.Due flow → ps ≠ [])

section

variable {cfg : TxConfig} {flow flow' : Flow} {st st' : TxRun} {env : Outside} {now : Clock}
  {fuel : Nat} {fin : LoopEnd}

/-- What was sent stays sent. -/
theorem sendLoop_sent (h : sendLoop cfg env now fuel flow st = some (flow', st', fin)) :
    ∃ ps, st'.sent = st.sent ++ ps := by
  induction fuel generalizing flow st with
  | zero =>
      cases h
      exact ⟨[], (List.append_nil _).symm⟩
  | succ fuel ih =>
      rw [sendLoop] at h
      split at h
      · obtain ⟨b, _, h⟩ := Option.bind_eq_some_iff.mp h
        obtain ⟨⟨flow₁, st₁⟩, hsend, h⟩ := Option.bind_eq_some_iff.mp h
        obtain ⟨_, _, hlog⟩ := sendPacket_eq hsend
        obtain ⟨_, hlog₂⟩ := @awakeTooLong_eq cfg env now st₁
        dsimp only at h
        split at h
        · cases h
          exact ⟨_, hlog₂.trans hlog⟩
        · obtain ⟨ps, hrest⟩ := ih h
          rw [hlog₂, hlog, List.append_assoc] at hrest
          exact ⟨_, hrest⟩
      · cases h
        exact ⟨[], (List.append_nil _).symm⟩

/-- The loop sends a packet that is due. -/
theorem sendLoop_due (hdue : 0 ≤ wrappedDiff now flow.nextTs)
    (h : sendLoop cfg env now (fuel + 1) flow st = some (flow', st', fin)) : st'.sent ≠ [] := by
  rw [sendLoop, if_pos hdue] at h
  obtain ⟨b, _, h⟩ := Option.bind_eq_some_iff.mp h
  obtain ⟨⟨flow₁, st₁⟩, hsend, h⟩ := Option.bind_eq_some_iff.mp h
  obtain ⟨_, _, hlog⟩ := sendPacket_eq hsend
  obtain ⟨_, hlog₂⟩ := @awakeTooLong_eq cfg env now st₁
  have hne : (awakeTooLong cfg env now st₁).2.sent ≠ [] := by
    rw [hlog₂, hlog]
    simp
  dsimp only at h
  split at h
  · cases h
    exact hne
  · obtain ⟨ps, hrest⟩ := sendLoop_sent h
    rw [hrest]
    simp [hne]

/-- A flow that is awake transmits its channels. -/
theorem transmitsExactly {flags : Flag → Bool} (hawake : flags flow.expired = false) :
    TransmitsExactly flags flow flow.channelIndices := by
  intro t ps hps
  obtain ⟨⟨flow', st, fin⟩, hrun, rfl⟩ := Option.map_eq_some_iff.mp hps
  refine ⟨fun p hp => ?_, fun hdue => ?_⟩
  · obtain ⟨_, _, hsent⟩ := transmitFlow_keeps hrun
    rcases hsent p hp with hp | hp
    · cases hp
    · exact hp.channels
  · obtain ⟨hfuel, flow₁, hsync, hdue⟩ := hdue
    obtain ⟨fuel, hfuel⟩ := Nat.exists_eq_add_of_lt hfuel
    have hnot : ¬ (t.begin flags).flags flow.expired = true := by
      show ¬ flags flow.expired = true
      rw [hawake]
      exact Bool.false_ne_true
    rw [TxTurn.run, transmitFlow, if_neg hnot] at hrun
    obtain ⟨flow₁', hsync', hrun⟩ := Option.bind_eq_some_iff.mp hrun
    rw [hsync] at hsync'
    cases hsync'
    obtain ⟨b, _, hrun⟩ := Option.bind_eq_some_iff.mp hrun
    obtain ⟨⟨flow₂, st₂, fin₂⟩, hloop, hrun⟩ := Option.bind_eq_some_iff.mp hrun
    rw [hfuel, Nat.zero_add] at hloop
    have hne := sendLoop_due hdue hloop
    dsimp only at hrun
    split at hrun
    · cases hrun
      dsimp only
      rw [processKeepalive_sent]
      exact hne
    · cases hrun
      exact hne

end

/-! ## What a scan removes -/

/-- The flags of the flows for which an update is on its way. -/
def updatesPending (p : Nat → Option Flag) : List TxCommand → List Flag
  | [] => []
  | .setChannels index _ :: cs => (p index).toList ++ updatesPending p cs
  | c :: cs => updatesPending (flagsAfter p c) cs

namespace TxTables

def pending (w : TxTables) : List Flag := updatesPending (slotFlag w.slots) w.tx.commands

/-- `add_flow` scans for expired flows if the destination is new; each flow with
an update on its way is still there afterwards. -/
def Survives (w : TxTables) : TxTurnEvent → Prop
  | .tables (.call (.addFlow info fpp bytesPerSample requestedFlowIndex isMulticast env)) =>
      ∀ (id : Nat) (flow : FlowData), w.tx.flows id = some flow → flow.expired ∈ w.pending →
        ((TxCall.addFlow info fpp bytesPerSample requestedFlowIndex isMulticast env).leaves
          w.tx).flows id = some flow
  | _ => True

/-- No scan finds an expired flow that has an update on its way. -/
def NoneStale (w : TxTables) : TxTurnEvent → Prop
  | .tables (.call (.addFlow info _ _ _ _ _)) => w.tx.ipPortToId info.dst = none →
      ∀ (id : Nat) (flow : FlowData), w.tx.flows id = some flow →
        w.tx.isExpired id = some true → flow.expired ∉ w.pending
  | _ => True

open FlowsTransmitter

/-- What removals of other flows leave. -/
theorem removes_other {k : TxCore} {ids : List Nat} {id : Nat} {flow : FlowData}
    (hid : k.flows id = some flow) (hnot : id ∉ ids) :
    (k.moves (ids.map TxMove.remove)).flows id = some flow := by
  induction ids generalizing k with
  | nil => exact hid
  | cons id' ids ih =>
      rw [List.mem_cons, not_or] at hnot
      obtain ⟨hne, hnot⟩ := hnot
      exact ih ((Function.update_of_ne hne _ _).trans hid) hnot

theorem survives_of_noneStale {w : TxTables} (h : w.tx.Together w.slots) {e : TxTurnEvent}
    (hok : w.NoneStale e) : w.Survives e := by
  rcases e with (c | _ | _) | _
  · cases c with
    | addFlow info fpp bytesPerSample requested isMulticast env =>
        intro id flow hflow hpending
        obtain ⟨ms, hof, hlegal, hmoves⟩ := call_moves h
          (.addFlow info fpp bytesPerSample requested isMulticast env)
        show (FlowsTransmitter.core _).flows id = _
        rw [hmoves]
        unfold MovesOf at hof
        dsimp only at hof
        split at hof
        · rcases hof with rfl | rfl <;> exact hflow
        · next hip =>
            obtain ⟨ids, added, rfl, hexpired, hadded⟩ := hof
            have hnot : id ∉ ids := fun hid => hok hip id flow hflow (hexpired id hid) hpending
            have hkept := @removes_other w.tx.core ids id flow hflow hnot
            rw [TxCore.moves_append]
            rcases hadded with rfl | ⟨id', rfl⟩
            · exact hkept
            · obtain ⟨_, ⟨_, hfree, _⟩, _⟩ := hlegal.of_append
              have hne : id ≠ id' := by
                rintro rfl
                rw [hkept] at hfree
                cases hfree
              exact (Function.update_of_ne hne _ _).trans hkept
    | _ => trivial
  all_goals trivial

end TxTables

/-! ## What the thread has been told -/

/-- Both sides, and the last channels the thread has taken for a slot whose flow
has neither been stopped nor expired since. -/
structure UpdateWorld where
  tables : TxTables
  told : Nat → Option (List (Option Nat))

def toldBy (told : Nat → Option (List (Option Nat))) :
    TxCommand → Nat → Option (List (Option Nat))
  | .addFlow index _ _ _ _ _ _ => Function.update told index none
  | .removeFlow index => Function.update told index none
  | .setChannels index channelIndices => Function.update told index (some channelIndices)
  | _ => told

namespace UpdateWorld

def start (flags : Flag → Bool) : UpdateWorld where
  tables := .start flags
  told := fun _ => none

/-- The keepalives of a slot stop in a turn, or when the thread finds it so. -/
def toldAfter (w : UpdateWorld) (w' : TxTables) : TxTurnEvent → Nat → Option (List (Option Nat))
  | .tables (.call _) => w.told
  | .tables (.drain _) =>
      match w.tables.tx.commands with
      | c :: _ => toldBy w.told c
      | [] => w.told
  | .tables (.expire slot) => Function.update w.told slot none
  | .turn slot _ =>
      match slotFlag w.tables.slots slot with
      | some f => if w'.tx.flags f then Function.update w.told slot none else w.told
      | none => w.told

def act (sampleRate : BitVec 32) (w : UpdateWorld) (e : TxTurnEvent) : UpdateWorld where
  tables := w.tables.act sampleRate e
  told := w.toldAfter (w.tables.act sampleRate e) e

def run (sampleRate : BitVec 32) (w : UpdateWorld) (events : List TxTurnEvent) : UpdateWorld :=
  events.foldl (act sampleRate) w

/-- As long as the thread lives, it transmits what it was told. -/
def Sends (w : UpdateWorld) : Prop :=
  w.tables.tx.receiverGone = false → ∀ (slot : Nat) (chs : List (Option Nat)),
    w.told slot = some chs → ∃ flow, w.tables.slots[slot]? = some (some flow) ∧
      TransmitsExactly w.tables.tx.flags flow chs

end UpdateWorld

namespace TxCore

/-- No move sets a flag in use. -/
theorem moves_flags {k : TxCore} {f : Flag} (hlt : f < k.nextFlag) (hf : k.flags f = false)
    (ms : List TxMove) : (k.moves ms).flags f = false := by
  induction ms generalizing k with
  | nil => exact hf
  | cons m ms ih =>
      cases m with
      | remove id => exact @ih ((TxMove.remove id).apply k) hlt hf
      | tell id chs => exact @ih ((TxMove.tell id chs).apply k) hlt hf
      | insert id cookie dst chs fpp bytesPerSample isMulticast =>
          refine @ih ((TxMove.insert id cookie dst chs fpp bytesPerSample isMulticast).apply k)
            (Nat.lt_succ_of_lt hlt) ?_
          exact (Function.update_of_ne (Nat.ne_of_lt hlt) _ _).trans hf
      | activate id =>
          have hstep : ((TxMove.activate id).apply k).nextFlag = k.nextFlag ∧
              ((TxMove.activate id).apply k).flags f = false := by
            simp only [TxMove.apply]
            split
            · next flow _ =>
                refine ⟨rfl, ?_⟩
                by_cases hne : f = flow.expired
                · rw [hne]
                  exact Function.update_self _ _ _
                · exact (Function.update_of_ne hne _ _).trans hf
            · exact ⟨rfl, hf⟩
          exact @ih ((TxMove.activate id).apply k) (hstep.1.symm ▸ hlt) hstep.2

theorem moves_receiver (k : TxCore) (ms : List TxMove) :
    (k.moves ms).receiverGone = k.receiverGone := by
  induction ms generalizing k with
  | nil => rfl
  | cons m ms ih =>
      refine (ih (m.apply k)).trans ?_
      cases m with
      | activate id =>
          simp only [TxMove.apply]
          split <;> rfl
      | _ => rfl

end TxCore

/-- A flow has its channels changed, and is awake. -/
theorem handleCommand_setChannels {sampleRate : BitVec 32} {now : Option Clock}
    {slots slots' : List (Option Flow)} {flags flags' : Flag → Bool} {index : Nat}
    {chs : List (Option Nat)}
    (h : handleCommand sampleRate now slots flags (.setChannels index chs) =
      some (slots', flags')) :
    ∃ f, slotFlag slots index = some f ∧ flags' = Function.update flags f false := by
  rw [handleCommand] at h
  split at h
  · next flow hget =>
      obtain ⟨flow', hchange, hset⟩ := Option.bind_eq_some_iff.mp h
      cases hset
      refine ⟨flow.expired, ?_, by rw [changeChannels_flag hchange]⟩
      rw [slotFlag, hget]
      rfl
  · cases h

namespace UpdateWorld

open FlowsTransmitter

/-- A slot whose flow is awake, with these channels. -/
def Awake (w : TxTables) (slot : Nat) (chs : List (Option Nat)) : Prop :=
  ∃ f, slotFlag w.slots slot = some f ∧ slotChannels w.slots slot = some chs ∧
    w.tx.flags f = false

/-- The thread does as it was told. -/
def Heeds (w : UpdateWorld) : Prop :=
  w.tables.tx.receiverGone = false → ∀ (slot : Nat) (chs : List (Option Nat)),
    w.told slot = some chs → Awake w.tables slot chs

theorem Heeds.sends {w : UpdateWorld} (h : w.Heeds) : w.Sends := by
  intro hopen slot chs htold
  obtain ⟨f, hf, hch, hawake⟩ := h hopen slot chs htold
  obtain ⟨flow, hslot, rfl⟩ : ∃ flow, w.tables.slots[slot]? = some (some flow) ∧
      flow.expired = f := by
    obtain ⟨flow, hjoin, hflow⟩ := Option.map_eq_some_iff.mp hf
    exact ⟨flow, Option.join_eq_some_iff.mp hjoin, hflow⟩
  rw [slotChannels, hslot] at hch
  cases hch
  exact ⟨flow, hslot, transmitsExactly hawake⟩

/-- A command does to its slot what it says, and wakes others at most. -/
theorem awake_drain {sampleRate : BitVec 32} {now : Option Clock} {w : TxTables}
    {slots' : List (Option Flow)} {flags' : Flag → Bool} {c : TxCommand}
    {told : Nat → Option (List (Option Nat))}
    (hrun : handleCommand sampleRate now w.slots w.tx.flags c = some (slots', flags'))
    (h : ∀ slot chs, told slot = some chs → Awake w slot chs) {slot : Nat}
    {chs : List (Option Nat)} (htold : toldBy told c slot = some chs) :
    ∃ f, slotFlag slots' slot = some f ∧ slotChannels slots' slot = some chs ∧
      flags' f = false := by
  obtain ⟨hslots, hflags⟩ := handleCommand_flags hrun
  have hch := handleCommand_channels hrun
  have hfewer : ∀ f, w.tx.flags f = false → flags' f = false := by
    intro f hf
    rcases hflags with rfl | ⟨_, _, f', _, _, rfl⟩
    · exact hf
    · by_cases hne : f = f'
      · rw [hne, Function.update_self]
      · rwa [Function.update_of_ne hne]
  have hsame : told slot = some chs → slotFlag slots' slot = slotFlag w.slots slot →
      slotChannels slots' slot = slotChannels w.slots slot →
      ∃ f, slotFlag slots' slot = some f ∧ slotChannels slots' slot = some chs ∧
        flags' f = false := by
    intro htold hf' hch'
    obtain ⟨f, hf, hch, hawake⟩ := h slot chs htold
    exact ⟨f, hf'.trans hf, hch'.trans hch, hfewer f hawake⟩
  rw [hslots, hch] at hsame ⊢
  cases c with
  | addFlow index socket chs' fpp bytesPerSample needsKeepalives flag =>
      by_cases hne : slot = index
      · rw [hne, toldBy, Function.update_self] at htold
        cases htold
      · rw [toldBy, Function.update_of_ne hne] at htold
        exact hsame htold (Function.update_of_ne hne _ _) (Function.update_of_ne hne _ _)
  | removeFlow index =>
      by_cases hne : slot = index
      · rw [hne, toldBy, Function.update_self] at htold
        cases htold
      · rw [toldBy, Function.update_of_ne hne] at htold
        exact hsame htold (Function.update_of_ne hne _ _) (Function.update_of_ne hne _ _)
  | setChannels index chs' =>
      by_cases hne : slot = index
      · rw [hne, toldBy, Function.update_self] at htold
        cases htold
        obtain ⟨f, hf, rfl⟩ := handleCommand_setChannels hrun
        rw [hne]
        exact ⟨f, hf, Function.update_self _ _ _, Function.update_self _ _ _⟩
      · rw [toldBy, Function.update_of_ne hne] at htold
        exact hsame htold rfl (Function.update_of_ne hne _ _)
  | _ => exact hsame htold rfl rfl

/-- A flag of another slot is set. -/
theorem Awake.marked {w : TxTables} (howned : w.tx.core.Owned w.slots) {slot slot' : Nat}
    {f : Flag} (hf : slotFlag w.slots slot' = some f) (hne : slot ≠ slot')
    {chs : List (Option Nat)} (h : Awake w slot chs) :
    ∃ f', slotFlag w.slots slot = some f' ∧ slotChannels w.slots slot = some chs ∧
      Function.update w.tx.flags f true f' = false := by
  obtain ⟨f', hf', hch, hawake⟩ := h
  obtain ⟨owner, hslot, _, _⟩ := howned
  refine ⟨f', hf', hch, ?_⟩
  rw [Function.update_of_ne, hawake]
  rintro rfl
  exact hne ((hslot slot f' hf').2.symm.trans (hslot slot' f' hf).2)

/-- Both sides agree, each flag has its slot, and the thread does as told. -/
structure Inv (w : UpdateWorld) : Prop where
  together : w.tables.tx.Together w.tables.slots
  owned : w.tables.tx.core.Owned w.tables.slots
  heeds : w.Heeds

theorem heeds_act {w : UpdateWorld} (h : w.Inv) (sampleRate : BitVec 32) (e : TxTurnEvent) :
    (w.act sampleRate e).Heeds := by
  intro hopen slot chs htold
  cases e with
  | tables e =>
      cases e with
      | call c =>
          obtain ⟨ms, _, _, hmoves⟩ := call_moves h.together c
          have hopen' : w.tables.tx.core.receiverGone = false := by
            rw [← TxCore.moves_receiver _ ms, ← hmoves]
            exact hopen
          obtain ⟨f, hf, hch, hawake⟩ := h.heeds hopen' slot chs htold
          obtain ⟨owner, hslot, _, _⟩ := h.owned
          refine ⟨f, hf, hch, ?_⟩
          show (c.leaves w.tables.tx).core.flags f = false
          rw [hmoves]
          exact TxCore.moves_flags (hslot slot f hf).1 hawake ms
      | drain now =>
          simp only [UpdateWorld.act, TxTables.act, TxTables.step, toldAfter] at hopen htold ⊢
          split at hopen
          · next hgone =>
              rw [hopen] at hgone
              cases hgone
          · next hgone =>
              have hold := h.heeds (Bool.eq_false_iff.mpr hgone)
              rw [if_neg hgone]
              unfold TxTables.drain at hopen ⊢
              cases hcs : w.tables.tx.commands with
              | nil =>
                  simp only [hcs] at htold
                  exact hold slot chs htold
              | cons c cs =>
                  simp only [hcs] at htold hopen ⊢
                  cases hrun : handleCommand sampleRate now w.tables.slots w.tables.tx.flags c with
                  | none =>
                      rw [hrun] at hopen
                      cases hopen
                  | some r =>
                      exact awake_drain hrun hold htold
      | expire slot' =>
          simp only [UpdateWorld.act, TxTables.act, TxTables.step, toldAfter] at hopen htold ⊢
          by_cases hne : slot = slot'
          · rw [hne, Function.update_self] at htold
            cases htold
          · rw [Function.update_of_ne hne] at htold
            split at hopen
            · next hgone =>
                rw [hopen] at hgone
                cases hgone
            · next hgone =>
                have hold := h.heeds (Bool.eq_false_iff.mpr hgone) slot chs htold
                rw [if_neg hgone]
                unfold TxTables.expire
                split
                · next flow hget =>
                    refine hold.marked h.owned ?_ hne
                    rw [slotFlag, hget]
                    rfl
                · exact hold
  | turn slot' t =>
      simp only [UpdateWorld.act, toldAfter] at hopen htold ⊢
      by_cases hgone : w.tables.tx.receiverGone = true
      · have hact : w.tables.act sampleRate (.turn slot' t) = w.tables := if_pos hgone
        rw [hact, hgone] at hopen
        cases hopen
      · have hact : w.tables.act sampleRate (.turn slot' t) = w.tables.turn slot' t := if_neg hgone
        rw [hact] at htold ⊢
        obtain ⟨_, _, _, _, _, _, hs, hch, hflags⟩ := TxTables.turn_keeps w.tables slot' t
        have hold := h.heeds (Bool.eq_false_iff.mpr hgone)
        unfold Awake
        rw [hs, hch]
        rcases hflags with hflags | ⟨f, hf, hflags⟩
        · rw [hflags] at htold ⊢
          refine hold slot chs ?_
          cases hf : slotFlag w.tables.slots slot' with
          | none => simpa only [hf] using htold
          | some f =>
              simp only [hf] at htold
              by_cases hset : w.tables.tx.flags f = true
              · rw [if_pos hset] at htold
                by_cases hne : slot = slot'
                · rw [hne, Function.update_self] at htold
                  cases htold
                · rwa [Function.update_of_ne hne] at htold
              · rwa [if_neg hset] at htold
        · rw [hf, hflags] at htold
          simp only [Function.update_self, if_true] at htold
          by_cases hne : slot = slot'
          · rw [hne, Function.update_self] at htold
            cases htold
          · rw [Function.update_of_ne hne] at htold
            rw [hflags]
            exact (hold slot chs htold).marked h.owned hf hne

theorem inv_act {w : UpdateWorld} (h : w.Inv) (sampleRate : BitVec 32) (e : TxTurnEvent) :
    (w.act sampleRate e).Inv :=
  ⟨TxTables.together_act h.together sampleRate e,
    TxTables.owned_act h.together h.owned sampleRate e, heeds_act h sampleRate e⟩

theorem start_inv (flags : Flag → Bool) : (start flags).Inv :=
  ⟨start_together flags, TxTables.start_owned flags, fun _ _ _ htold => by cases htold⟩

/-- If no scan finds an expired flow with an update on its way, then no scan
removes a flow before the thread has taken its update; and what the thread has
taken it transmits. -/
theorem updates_not_lost (sampleRate : BitVec 32) (flags : Flag → Bool)
    (events : List TxTurnEvent)
    (hok : Runs.Each (act sampleRate) (fun w e => w.tables.NoneStale e) (start flags) events) :
    Runs.Each (act sampleRate) (fun w e => w.tables.Survives e) (start flags) events ∧
      (run sampleRate (start flags) events).Sends := by
  constructor
  · exact hok.imp (fun _ e h _ => inv_act h sampleRate e)
      (fun _ _ h => TxTables.survives_of_noneStale h.together) (start_inv flags)
  · have hinv := hok.keeps (I := Inv) (fun _ e h _ => inv_act h sampleRate e) (start_inv flags)
    exact hinv.heeds.sends

/-- A flow whose keepalives stop, and an update of it. -/
def sampleUpdate : List TxTurnEvent :=
  [.tables (.call (.addFlow ⟨some "rx", some "1", 0x0A000002, 5000, [some 0]⟩ 8 3 none false
      ⟨7, true⟩)),
    .tables (.drain (some 0)),
    .tables (.expire 0),
    .tables (.call (.setChannels (makeHandle 0 7) [some 1]))]

/-- The thread takes the update before the next flow is added. -/
theorem updates_not_lost_sampleUpdate :
    Runs.Each (act 48000) (fun w e => w.tables.Survives e) (start fun _ => false)
        (sampleUpdate ++ [.tables (.drain (some 0))]) ∧
      (run 48000 (start fun _ => false) (sampleUpdate ++ [.tables (.drain (some 0))])).Sends := by
  refine updates_not_lost 48000 _ _ (And.intro (fun _ _ _ hflow => ?_) ?_)
  · cases hflow
  · exact And.intro trivial (And.intro trivial (And.intro trivial (And.intro trivial trivial)))

/-- Another flow is added before the thread takes the update, and the scan
removes the one that was updated. -/
theorem expired_not_kept : ¬ Runs.Each (act 48000) (fun w e => w.tables.Survives e)
    (start fun _ => false) (sampleUpdate ++ [.tables (.call (.addFlow
      ⟨some "rx", some "2", 0x0A000003, 5000, [some 0]⟩ 8 3 none false ⟨8, true⟩))]) := by
  intro h
  have hlost := h.2.2.2.2.1 0 ⟨7, ⟨0x0A000002, 5000⟩, 0⟩ (by rfl) (by decide)
  exact absurd (congrArg Option.isSome hlost) (by decide)

end UpdateWorld

end Inferno
